import MercuryLayer.Library.Texts
import MercuryLayer.Library.XOnlyCurve

namespace MercuryLayer.Hex

open Library.Texts Library.XOnlyCurve

def hexDigit (ch : Char) : Option UInt8 :=
  if '0' ≤ ch ∧ ch ≤ '9' then some (ch.toNat - 48).toUInt8
  else if 'a' ≤ ch ∧ ch ≤ 'f' then some (ch.toNat - 87).toUInt8
  else if 'A' ≤ ch ∧ ch ≤ 'F' then some (ch.toNat - 55).toUInt8
  else none

def hexChar (d : UInt8) : Char := if d < 10 then Char.ofNat (48 + d.toNat) else Char.ofNat (87 + d.toNat)

def encodeChars (bytes : Bytes) : List Char :=
  bytes.flatMap (fun u : UInt8 => [hexChar (u >>> 4), hexChar (u &&& 15)])

/-- `hex::encode`. -/
def encode (bytes : Bytes) : String := String.ofList (encodeChars bytes)

def decodeChars : List Char → Option Bytes
  | [] => some []
  | [_] => none
  | c1 :: c2 :: rest => do
    let d1 ← hexDigit c1
    let d2 ← hexDigit c2
    let bytes ← decodeChars rest
    return (d1 <<< 4 ||| d2) :: bytes

/-- `hex::decode`. -/
def decode (text : String) : Option Bytes := decodeChars text.toList

theorem decode_eq_chars : decode = fun text => decodeChars (chars text) := by
  rw [← toList_eq_chars]
  rfl

theorem hexDigit_high (u : UInt8) : hexDigit (hexChar (u >>> 4)) = some (u >>> 4) := by
  obtain ⟨b⟩ := u
  revert b
  decide +kernel

theorem hexDigit_low (u : UInt8) : hexDigit (hexChar (u &&& 15)) = some (u &&& 15) := by
  obtain ⟨b⟩ := u
  revert b
  decide +kernel

theorem high_or_low (u : UInt8) : (u >>> 4) <<< 4 ||| (u &&& 15) = u := by
  obtain ⟨b⟩ := u
  revert b
  decide +kernel

theorem decodeChars_encodeChars (bytes : Bytes) : decodeChars (encodeChars bytes) = some bytes := by
  induction bytes with
  | nil => rfl
  | cons u bytes ih =>
    change decodeChars (hexChar (u >>> 4) :: hexChar (u &&& 15) :: encodeChars bytes) = some (u :: bytes)
    simp only [decodeChars, hexDigit_high, hexDigit_low, ih, Option.bind_eq_bind, Option.bind_some, high_or_low]
    rfl

@[simp] theorem decode_encode (bytes : Bytes) : decode (encode bytes) = some bytes := by
  rw [decode, encode, String.toList_ofList, decodeChars_encodeChars]

end MercuryLayer.Hex
