import Mathlib.Data.List.Basic
import Mathlib.Tactic.Common

namespace MercuryLayer.Library.Texts

def ofBytes (text : String) : List Char := text.toByteArray.data.toList.map (fun u => Char.ofNat u.toNat)

/-- The characters of a text, read off its bytes where these spell it. On long texts of hex digits this evaluates
many times faster than `String.toList`, which decodes one character after the other. -/
def chars (text : String) : List Char := if String.ofList (ofBytes text) = text then ofBytes text else text.toList

theorem toList_eq_chars : String.toList = chars := by
  funext text
  by_cases h : String.ofList (ofBytes text) = text
  · rw [chars, if_pos h]
    exact (congrArg String.toList h.symm).trans String.toList_ofList
  · rw [chars, if_neg h]

end MercuryLayer.Library.Texts
