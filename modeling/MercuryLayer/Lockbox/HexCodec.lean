import MercuryLayer.Lockbox.Server

namespace MercuryLayer.Lockbox.HexCodec

open Hex (hexChar hexDigit_high hexDigit_low high_or_low)
open Library.XOnlyCurve (Bytes)

section Source

/-- The table `p_util_hexdigit`, in rows of sixteen. -/
def pUtilHexdigit : List ℤ :=
  let blank := List.replicate 16 (-1)
  let letters := [-1, 0xa, 0xb, 0xc, 0xd, 0xe, 0xf, -1, -1, -1, -1, -1, -1, -1, -1, -1]
  blank ++ blank ++ blank ++
    [0, 1, 2, 3, 4, 5, 6, 7, 8, 9, -1, -1, -1, -1, -1, -1] ++
    letters ++ blank ++ letters ++ (List.replicate 9 blank).flatten

def hexDigit (c : UInt8) : ℤ := pUtilHexdigit.getD c.toNat (-1)

def isSpace (c : UInt8) : Bool :=
  c == ' '.toUInt8 || c == '\x0c'.toUInt8 || c == '\n'.toUInt8 || c == '\r'.toUInt8 || c == '\t'.toUInt8 ||
    c == '\x0b'.toUInt8

/-- The loop of `ParseHex` at the iterator `it`. To read at or after the end of the string gives `none`. -/
def parseHexFrom (str : Bytes) (it : ℕ) (vch : Bytes) : Option Bytes :=
  if it ≠ str.length ∧ it + 1 ≠ str.length then
    match _h : str[it]? with
    | none => none
    | some c =>
      if isSpace c then parseHexFrom str (it + 1) vch
      else match str[it + 1]? with
        | none => none
        | some d =>
          let c1 := hexDigit c
          let c2 := hexDigit d
          if c1 < 0 ∨ c2 < 0 then some vch
          else parseHexFrom str (it + 2) (vch ++ [(c1 <<< 4).toNat.toUInt8 ||| c2.toNat.toUInt8])
  else some vch
termination_by str.length - it
decreasing_by all_goals
  have hit : it < str.length := (List.getElem?_eq_some_iff.mp _h).1
  omega

def parseHex (str : Bytes) : Option Bytes := parseHexFrom str 0 []

/-- A byte as `std::hex` prints it with `setw(2)` and `setfill('0')`. -/
def hexByte (u : UInt8) : Bytes := ((Nat.toDigits 16 u.toNat).leftpad 2 '0').map Char.toUInt8

/-- The loop of `key_to_string` from the index `i` on. The index is an `int`, and to count it past the
greatest `int` is undefined. -/
def keyToStringFrom (i : ℕ) : Bytes → Option Bytes
  | [] => some []
  | u :: key => if i + 1 < 2 ^ 31 then (hexByte u ++ ·) <$> keyToStringFrom (i + 1) key else none

def keyToString (key : Bytes) : Option Bytes := ("0x".toList.map Char.toUInt8 ++ ·) <$> keyToStringFrom 0 key

end Source

section Spelling

def charOf (c : UInt8) : Char := Char.ofNat c.toNat

def IsDigit (c v : UInt8) : Prop := Hex.hexDigit (charOf c) = some v

/-- White space and complete pairs of digits, with the bytes that the pairs spell. -/
inductive Spells : Bytes → Bytes → Prop
  | nil : Spells [] []
  | space {c : UInt8} {str bytes : Bytes} : isSpace c = true → Spells str bytes → Spells (c :: str) bytes
  | pair {c d v w : UInt8} {str bytes : Bytes} : IsDigit c v → IsDigit d w → Spells str bytes →
    Spells (c :: d :: str) ((v <<< 4 ||| w) :: bytes)

/-- The table has the values of the digits, and a negative number for every other byte. -/
theorem hexDigit_charOf (c : UInt8) :
    Hex.hexDigit (charOf c) = if hexDigit c < 0 then none else some (hexDigit c).toNat.toUInt8 := by
  obtain ⟨b⟩ := c
  revert b
  decide +kernel

theorem shiftLeft_hexDigit (c : UInt8) : (hexDigit c <<< 4).toNat.toUInt8 = (hexDigit c).toNat.toUInt8 <<< 4 := by
  obtain ⟨b⟩ := c
  revert b
  decide +kernel

theorem isSpace_charOf (c : UInt8) : Server.isSpace (charOf c) = isSpace c := by
  obtain ⟨b⟩ := c
  revert b
  decide +kernel

theorem not_isDigit_of_isSpace {c v : UInt8} (h : isSpace c = true) : ¬IsDigit c v := by
  have hspace : ∀ c : UInt8, isSpace c = true → Hex.hexDigit (charOf c) = none := by
    rintro ⟨b⟩
    revert b
    decide +kernel
  rw [IsDigit, hspace c h]
  nofun

theorem parseHexFrom_of_end {str vch : Bytes} {it : ℕ} (h : it = str.length ∨ it + 1 = str.length) :
    parseHexFrom str it vch = some vch := by
  rw [parseHexFrom, if_neg]
  rintro ⟨hend, hlast⟩
  obtain h | h := h
  · exact hend h
  · exact hlast h

theorem parseHexFrom_of_read {str vch : Bytes} {it : ℕ} {c d : UInt8} (hc : str[it]? = some c)
    (hd : str[it + 1]? = some d) :
    parseHexFrom str it vch =
      if isSpace c then parseHexFrom str (it + 1) vch
      else if hexDigit c < 0 ∨ hexDigit d < 0 then some vch
      else parseHexFrom str (it + 2)
        (vch ++ [(hexDigit c).toNat.toUInt8 <<< 4 ||| (hexDigit d).toNat.toUInt8]) := by
  have hlength := (List.getElem?_eq_some_iff.mp hd).1
  rw [parseHexFrom, if_pos (by omega)]
  split
  next hread => cases hread.symm.trans hc
  next c' hread =>
    cases hread.symm.trans hc
    simp only [hd, shiftLeft_hexDigit]

theorem parseHexChars_charOf (c d : UInt8) (rest : Bytes) :
    Server.parseHexChars ((c :: d :: rest).map charOf) =
      if isSpace c then Server.parseHexChars ((d :: rest).map charOf)
      else if hexDigit c < 0 ∨ hexDigit d < 0 then []
      else ((hexDigit c).toNat.toUInt8 <<< 4 ||| (hexDigit d).toNat.toUInt8) ::
        Server.parseHexChars (rest.map charOf) := by
  rw [List.map_cons, List.map_cons, Server.parseHexChars, isSpace_charOf, hexDigit_charOf, hexDigit_charOf]
  by_cases hc : hexDigit c < 0
  · simp only [hc, if_true, true_or]
  · by_cases hd : hexDigit d < 0
    · simp only [hc, hd, if_true, if_false, or_true]
    · simp only [hc, hd, if_false, or_self]

/-- The loop does what the recursion over the rest of the string does. It ends, and never reads past the end. -/
theorem parseHexFrom_append (front rest vch : Bytes) :
    parseHexFrom (front ++ rest) front.length vch = some (vch ++ Server.parseHexChars (rest.map charOf)) := by
  match rest with
  | [] =>
    rw [parseHexFrom_of_end (.inl (by simp))]
    simp [Server.parseHexChars]
  | [c] =>
    rw [parseHexFrom_of_end (.inr (by simp))]
    simp [Server.parseHexChars]
  | c :: d :: rest =>
    have hc : (front ++ c :: d :: rest)[front.length]? = some c := by simp
    have hd : (front ++ c :: d :: rest)[front.length + 1]? = some d := by simp
    rw [parseHexFrom_of_read hc hd, parseHexChars_charOf]
    split_ifs with hspace hdigits
    · have hnext := parseHexFrom_append (front ++ [c]) (d :: rest) vch
      rwa [List.append_assoc, List.length_append] at hnext
    · rw [List.append_nil]
    · have hnext := parseHexFrom_append (front ++ [c, d]) rest
        (vch ++ [(hexDigit c).toNat.toUInt8 <<< 4 ||| (hexDigit d).toNat.toUInt8])
      rwa [List.append_assoc, List.length_append, List.append_assoc] at hnext
termination_by rest.length

theorem parseHex_eq (str : Bytes) : parseHex str = some (Server.parseHexChars (str.map charOf)) :=
  parseHexFrom_append [] str []

example : parseHex (" 0a\tFf 1 2".toList.map Char.toUInt8) = some [0x0a, 0xff] := by
  rw [parseHex_eq]
  decide

theorem isDigit_iff {c v : UInt8} : IsDigit c v ↔ ¬hexDigit c < 0 ∧ (hexDigit c).toNat.toUInt8 = v := by
  rw [IsDigit, hexDigit_charOf]
  split_ifs with hneg
  · exact iff_of_false nofun (fun h => h.1 hneg)
  · rw [Option.some.injEq]
    exact ⟨fun h => ⟨hneg, h⟩, fun h => h.2⟩

/-- What is returned are the bytes of the longest part at the front that spells any. -/
theorem spells_longest (str : Bytes) :
    ∃ front, front <+: str ∧ Spells front (Server.parseHexChars (str.map charOf)) ∧
      ∀ other bytes, other <+: str → Spells other bytes → other <+: front := by
  match str with
  | [] => exact ⟨[], List.prefix_rfl, .nil, fun _ _ h _ => h⟩
  | [c] =>
    by_cases hspace : isSpace c = true
    · exact ⟨[c], List.prefix_rfl, .space hspace .nil, fun _ _ h _ => h⟩
    · refine ⟨[], List.nil_prefix, .nil, fun other bytes hother hspells => ?_⟩
      cases hspells with
      | nil => exact List.prefix_rfl
      | space h _ =>
        cases (List.cons_prefix_cons.mp hother).1
        exact absurd h hspace
      | pair _ _ _ =>
        have hlength := hother.length_le
        simp at hlength
  | c :: d :: rest =>
    rw [parseHexChars_charOf]
    split_ifs with hspace hdigits
    · obtain ⟨front, hfront, hspells, hlongest⟩ := spells_longest (d :: rest)
      refine ⟨c :: front, List.cons_prefix_cons.mpr ⟨rfl, hfront⟩, .space hspace hspells, ?_⟩
      intro other bytes hother hother'
      cases hother' with
      | nil => exact List.nil_prefix
      | space _ h =>
        obtain ⟨rfl, htail⟩ := List.cons_prefix_cons.mp hother
        exact List.cons_prefix_cons.mpr ⟨rfl, hlongest _ _ htail h⟩
      | pair h _ _ =>
        cases (List.cons_prefix_cons.mp hother).1
        exact absurd h (not_isDigit_of_isSpace hspace)
    · refine ⟨[], List.nil_prefix, .nil, fun other bytes hother hspells => ?_⟩
      cases hspells with
      | nil => exact List.prefix_rfl
      | space h _ =>
        cases (List.cons_prefix_cons.mp hother).1
        exact absurd h hspace
      | pair hc hd _ =>
        obtain ⟨rfl, htail⟩ := List.cons_prefix_cons.mp hother
        obtain ⟨rfl, -⟩ := List.cons_prefix_cons.mp htail
        exact absurd hdigits (not_or.mpr ⟨(isDigit_iff.mp hc).1, (isDigit_iff.mp hd).1⟩)
    · obtain ⟨front, hfront, hspells, hlongest⟩ := spells_longest rest
      obtain ⟨hc, hd⟩ := not_or.mp hdigits
      refine ⟨c :: d :: front, ?_, .pair (isDigit_iff.mpr ⟨hc, rfl⟩) (isDigit_iff.mpr ⟨hd, rfl⟩) hspells, ?_⟩
      · exact List.cons_prefix_cons.mpr ⟨rfl, List.cons_prefix_cons.mpr ⟨rfl, hfront⟩⟩
      · intro other bytes hother hother'
        cases hother' with
        | nil => exact List.nil_prefix
        | space h _ =>
          cases (List.cons_prefix_cons.mp hother).1
          exact absurd h hspace
        | pair _ _ h =>
          obtain ⟨rfl, htail⟩ := List.cons_prefix_cons.mp hother
          obtain ⟨rfl, hrest⟩ := List.cons_prefix_cons.mp htail
          exact List.cons_prefix_cons.mpr ⟨rfl, List.cons_prefix_cons.mpr ⟨rfl, hlongest _ _ hrest h⟩⟩
termination_by str.length

end Spelling

section RoundTrip

theorem charOf_hexByte (u : UInt8) : (hexByte u).map charOf = [hexChar (u >>> 4), hexChar (u &&& 15)] := by
  obtain ⟨b⟩ := u
  revert b
  decide +kernel

theorem charOf_flatMap_hexByte (key : Bytes) : (key.flatMap hexByte).map charOf = Hex.encodeChars key := by
  rw [List.map_flatMap, Hex.encodeChars]
  exact List.flatMap_congr fun u _ => charOf_hexByte u

/-- The loop ends, unless its index has to count past the greatest `int`. -/
theorem keyToStringFrom_eq (i : ℕ) (key : Bytes) (hi : i < 2 ^ 31) :
    keyToStringFrom i key = if i + key.length < 2 ^ 31 then some (key.flatMap hexByte) else none := by
  induction key generalizing i with
  | nil => exact (if_pos hi).symm
  | cons u key ih =>
    rw [keyToStringFrom, List.length_cons]
    by_cases hnext : i + 1 < 2 ^ 31
    · rw [if_pos hnext, ih (i + 1) hnext, Nat.add_right_comm, ← Nat.add_assoc]
      split_ifs <;> rfl
    · rw [if_neg hnext, if_neg (by omega)]

theorem keyToString_eq (key : Bytes) :
    keyToString key =
      if key.length < 2 ^ 31 then some ("0x".toList.map Char.toUInt8 ++ key.flatMap hexByte) else none := by
  rw [keyToString, keyToStringFrom_eq 0 key (by decide), Nat.zero_add]
  split_ifs <;> rfl

/-- `ParseHex` reads what `key_to_string` writes after the first two characters, for every byte string that is
shorter than `2 ^ 31`, and it returns, for every string, the bytes of the longest part at the front that is white
space and complete pairs of digits. -/
theorem hex_codec :
    (∀ key : Bytes, (keyToString key).bind (fun text => parseHex (text.drop 2)) = some key ↔ key.length < 2 ^ 31) ∧
      ∀ str : Bytes, ∃ front bytes, front <+: str ∧ Spells front bytes ∧ parseHex str = some bytes ∧
        ∀ other bytes', other <+: str → Spells other bytes' → other <+: front := by
  refine ⟨fun key => ?_, fun str => ?_⟩
  · rw [keyToString_eq]
    split_ifs with hlength
    · refine iff_of_true ?_ hlength
      change parseHex (key.flatMap hexByte) = some key
      rw [parseHex_eq, charOf_flatMap_hexByte, Server.parseHexChars_encodeChars]
    · exact iff_of_false nofun hlength
  · obtain ⟨front, hfront, hspells, hlongest⟩ := spells_longest str
    exact ⟨front, _, hfront, hspells, parseHex_eq str, hlongest⟩

/-- The index of `key_to_string` cannot count to `2 ^ 31`. -/
theorem long_key_undefined :
    (keyToString (List.replicate (2 ^ 31) 0)).bind (fun text => parseHex (text.drop 2)) ≠
      some (List.replicate (2 ^ 31) 0) := by
  rw [keyToString_eq, List.length_replicate, if_neg (by decide), Option.bind_none]
  nofun

end RoundTrip

end MercuryLayer.Lockbox.HexCodec
