import Mathlib

namespace MercuryLayer.Library.Bech32

abbrev Digit := BitVec 5

inductive Variant
  | bech32
  | bech32m
deriving DecidableEq, Repr

def Variant.residue : Variant → BitVec 30
  | .bech32 => 1
  | .bech32m => 0x2bc830a3

section Regroup

def digitBits (d : Digit) : List Bool := [d.getMsbD 0, d.getMsbD 1, d.getMsbD 2, d.getMsbD 3, d.getMsbD 4]

def byteBits (b : UInt8) : List Bool :=
  [b.toBitVec.getMsbD 0, b.toBitVec.getMsbD 1, b.toBitVec.getMsbD 2, b.toBitVec.getMsbD 3,
    b.toBitVec.getMsbD 4, b.toBitVec.getMsbD 5, b.toBitVec.getMsbD 6, b.toBitVec.getMsbD 7]

/-- The bits in groups of five, the last group filled up with zeros. -/
def digitsOfBits : List Bool → List Digit
  | [] => []
  | [a] => [BitVec.ofBoolListBE [a, false, false, false, false]]
  | [a, b] => [BitVec.ofBoolListBE [a, b, false, false, false]]
  | [a, b, c] => [BitVec.ofBoolListBE [a, b, c, false, false]]
  | [a, b, c, d] => [BitVec.ofBoolListBE [a, b, c, d, false]]
  | a :: b :: c :: d :: e :: rest => BitVec.ofBoolListBE [a, b, c, d, e] :: digitsOfBits rest

/-- The bits in groups of eight. What is left over has to be fewer than five zeros. -/
def bytesOfBits : List Bool → Option (List UInt8)
  | a :: b :: c :: d :: e :: f :: g :: h :: rest => do
    let bytes ← bytesOfBits rest
    return UInt8.ofBitVec (BitVec.ofBoolListBE [a, b, c, d, e, f, g, h]) :: bytes
  | padding => if padding.length < 5 ∧ padding.all (fun bit => !bit) then some [] else none

def toBase32 (bytes : List UInt8) : List Digit := digitsOfBits (bytes.flatMap byteBits)

def fromBase32 (digits : List Digit) : Option (List UInt8) := bytesOfBits (digits.flatMap digitBits)

theorem digitBits_ofBoolListBE :
    ∀ a b c d e : Bool, digitBits (BitVec.ofBoolListBE [a, b, c, d, e]) = [a, b, c, d, e] := by
  decide

theorem ofBoolListBE_byteBits (b : UInt8) :
    UInt8.ofBitVec (BitVec.ofBoolListBE
      [b.toBitVec.getMsbD 0, b.toBitVec.getMsbD 1, b.toBitVec.getMsbD 2, b.toBitVec.getMsbD 3,
        b.toBitVec.getMsbD 4, b.toBitVec.getMsbD 5, b.toBitVec.getMsbD 6, b.toBitVec.getMsbD 7]) = b := by
  obtain ⟨v⟩ := b
  revert v
  decide +kernel

theorem flatMap_digitBits_digitsOfBits (bits : List Bool) :
    ∃ n < 5, (digitsOfBits bits).flatMap digitBits = bits ++ List.replicate n false := by
  fun_induction digitsOfBits bits with
  | case1 => exact ⟨0, by decide, rfl⟩
  | case2 a => exact ⟨4, by decide, by simp [digitBits_ofBoolListBE, List.replicate]⟩
  | case3 a b => exact ⟨3, by decide, by simp [digitBits_ofBoolListBE, List.replicate]⟩
  | case4 a b c => exact ⟨2, by decide, by simp [digitBits_ofBoolListBE, List.replicate]⟩
  | case5 a b c d => exact ⟨1, by decide, by simp [digitBits_ofBoolListBE, List.replicate]⟩
  | case6 a b c d e rest ih =>
    obtain ⟨n, hn, ih⟩ := ih
    refine ⟨n, hn, ?_⟩
    rw [List.flatMap_cons, ih, digitBits_ofBoolListBE]
    rfl

theorem bytesOfBits_replicate {n : ℕ} (hn : n < 5) : bytesOfBits (List.replicate n false) = some [] := by
  interval_cases n <;> rfl

theorem bytesOfBits_append (bytes : List UInt8) {n : ℕ} (hn : n < 5) :
    bytesOfBits (bytes.flatMap byteBits ++ List.replicate n false) = some bytes := by
  induction bytes with
  | nil => exact bytesOfBits_replicate hn
  | cons b bytes ih =>
    rw [List.flatMap_cons, List.append_assoc]
    simp only [byteBits, List.cons_append, List.nil_append, bytesOfBits]
    rw [ih, ofBoolListBE_byteBits]
    rfl

theorem fromBase32_toBase32 (bytes : List UInt8) : fromBase32 (toBase32 bytes) = some bytes := by
  obtain ⟨n, hn, h⟩ := flatMap_digitBits_digitsOfBits (bytes.flatMap byteBits)
  rw [fromBase32, toBase32, h, bytesOfBits_append bytes hn]

theorem byteBits_ofBoolListBE : ∀ a b c d e f g h : Bool,
    byteBits (UInt8.ofBitVec (BitVec.ofBoolListBE [a, b, c, d, e, f, g, h])) = [a, b, c, d, e, f, g, h] := by
  decide +kernel

theorem eq_of_digitBits_eq : ∀ d d' : Digit, digitBits d = digitBits d' → d = d' := by
  decide +kernel

theorem length_flatMap_digitBits (digits : List Digit) : (digits.flatMap digitBits).length = 5 * digits.length := by
  induction digits with
  | nil => rfl
  | cons d digits ih =>
    rw [List.flatMap_cons, List.length_append, ih, List.length_cons]
    change 5 + 5 * digits.length = _
    omega

theorem flatMap_digitBits_injective : Function.Injective (List.flatMap digitBits) := by
  intro digits digits' h
  induction digits generalizing digits' with
  | nil =>
    have hlength := congrArg List.length h
    rw [length_flatMap_digitBits, length_flatMap_digitBits, List.length_nil] at hlength
    exact (List.eq_nil_of_length_eq_zero (by omega)).symm
  | cons d digits ih =>
    cases digits' with
    | nil => cases h
    | cons d' digits' =>
      rw [List.flatMap_cons, List.flatMap_cons] at h
      obtain ⟨hfirst, hrest⟩ := List.append_inj h rfl
      rw [eq_of_digitBits_eq d d' hfirst, ih hrest]

/-- The digits that give the bits with fewer than five zeros after them are those that the bits give. -/
theorem digitsOfBits_of_append {digits : List Digit} {bits : List Bool} {n : ℕ} (hn : n < 5)
    (h : digits.flatMap digitBits = bits ++ List.replicate n false) : digitsOfBits bits = digits := by
  obtain ⟨m, hm, hbits⟩ := flatMap_digitBits_digitsOfBits bits
  have hlength := congrArg List.length h
  have hlength' := congrArg List.length hbits
  rw [length_flatMap_digitBits, List.length_append, List.length_replicate] at hlength hlength'
  have hsame : m = n := by omega
  refine flatMap_digitBits_injective ?_
  rw [hbits, h, hsame]

theorem exists_padding {bits : List Bool} {bytes : List UInt8} (h : bytesOfBits bits = some bytes) :
    ∃ n < 5, bits = bytes.flatMap byteBits ++ List.replicate n false := by
  fun_induction bytesOfBits bits generalizing bytes with
  | case1 a b c d e f g k rest ih =>
    obtain ⟨more, hmore, hbytes⟩ := Option.bind_eq_some_iff.mp h
    cases Option.some.inj hbytes
    obtain ⟨n, hn, hrest⟩ := ih hmore
    refine ⟨n, hn, ?_⟩
    rw [List.flatMap_cons, byteBits_ofBoolListBE, hrest]
    rfl
  | case2 padding hshort hpadding =>
    cases Option.some.inj h
    refine ⟨padding.length, hpadding.1, List.eq_replicate_of_mem (fun bit hbit => ?_)⟩
    simpa using List.all_eq_true.mp hpadding.2 bit hbit
  | case3 => cases h

theorem toBase32_fromBase32 {digits : List Digit} {bytes : List UInt8} (h : fromBase32 digits = some bytes) :
    toBase32 bytes = digits := by
  obtain ⟨n, hn, hbits⟩ := exists_padding h
  exact digitsOfBits_of_append hn hbits

end Regroup

section Checksum

def feed (bit : Bool) (generator : BitVec 30) : BitVec 30 := if bit then generator else 0

/-- One digit more of the remainder, before the digit is added. -/
def shift (c : BitVec 30) : BitVec 30 :=
  (c <<< 5) ^^^ feed (c.getLsbD 25) 0x3b6a57b2 ^^^ feed (c.getLsbD 26) 0x26508e6d ^^^
    feed (c.getLsbD 27) 0x1ea119fa ^^^ feed (c.getLsbD 28) 0x3d4233dd ^^^ feed (c.getLsbD 29) 0x2a1462b3

def step (c : BitVec 30) (d : Digit) : BitVec 30 := shift c ^^^ d.setWidth 30

def polymod (digits : List Digit) : BitVec 30 := digits.foldl step 1

/-- The high bits of the characters, a zero, and the low bits. -/
def hrpExpand (hrp : List Char) : List Digit :=
  hrp.map (fun c => BitVec.ofNat 5 (c.toNat >>> 5)) ++ 0 :: hrp.map (fun c => BitVec.ofNat 5 c.toNat)

def digitsOf (c : BitVec 30) : List Digit :=
  [c.extractLsb' 25 5, c.extractLsb' 20 5, c.extractLsb' 15 5, c.extractLsb' 10 5, c.extractLsb' 5 5,
    c.extractLsb' 0 5]

def checksum (hrp : List Char) (data : List Digit) (variant : Variant) : List Digit :=
  digitsOf (polymod (hrpExpand hrp ++ data ++ List.replicate 6 0) ^^^ variant.residue)

def verifyChecksum (hrp : List Char) (digits : List Digit) : Option Variant :=
  let c := polymod (hrpExpand hrp ++ digits)
  if c = Variant.bech32.residue then some .bech32
  else if c = Variant.bech32m.residue then some .bech32m
  else none

theorem feed_xor (a b : Bool) (g : BitVec 30) : feed (a ^^ b) g = feed a g ^^^ feed b g := by
  cases a <;> cases b <;> simp [feed]

theorem shift_xor (a b : BitVec 30) : shift (a ^^^ b) = shift a ^^^ shift b := by
  simp only [shift, BitVec.shiftLeft_xor_distrib, BitVec.getLsbD_xor, feed_xor]
  ac_rfl

/-- A single digit is only moved up as long as it does not reach the top. -/
theorem shift_digit :
    ∀ (k : Fin 5) (d : Digit), shift (d.setWidth 30 <<< (5 * k.val)) = d.setWidth 30 <<< (5 * (k.val + 1)) := by
  decide +kernel

theorem xor_digitsOf (c : BitVec 30) :
    (c.extractLsb' 25 5).setWidth 30 <<< 25 ^^^ (c.extractLsb' 20 5).setWidth 30 <<< 20 ^^^
      (c.extractLsb' 15 5).setWidth 30 <<< 15 ^^^ (c.extractLsb' 10 5).setWidth 30 <<< 10 ^^^
      (c.extractLsb' 5 5).setWidth 30 <<< 5 ^^^ (c.extractLsb' 0 5).setWidth 30 = c := by
  ext i hi
  interval_cases i <;> simp

theorem step_xor (a b : BitVec 30) (d : Digit) : step (a ^^^ b) d = step a 0 ^^^ step b d := by
  have hzero : BitVec.setWidth 30 (0 : Digit) = 0#30 := by decide
  rw [step, step, step, shift_xor, hzero, BitVec.xor_zero, BitVec.xor_assoc]

theorem foldl_step_xor (digits : List Digit) (a b : BitVec 30) :
    digits.foldl step (a ^^^ b) = (List.replicate digits.length 0).foldl step a ^^^ digits.foldl step b := by
  induction digits generalizing a b with
  | nil => rfl
  | cons d digits ih => rw [List.foldl_cons, step_xor, ih, List.length_cons, List.replicate_succ, List.foldl_cons,
      List.foldl_cons]

theorem foldl_step_six (a b c d e f : Digit) :
    [a, b, c, d, e, f].foldl step 0#30 =
      a.setWidth 30 <<< 25 ^^^ b.setWidth 30 <<< 20 ^^^ c.setWidth 30 <<< 15 ^^^ d.setWidth 30 <<< 10 ^^^
        e.setWidth 30 <<< 5 ^^^ f.setWidth 30 := by
  have hzero : shift 0#30 = 0#30 := by decide
  have h0 (d : Digit) : shift (d.setWidth 30) = d.setWidth 30 <<< 5 := by
    simpa using shift_digit 0 d
  have h1 (d : Digit) : shift (d.setWidth 30 <<< 5) = d.setWidth 30 <<< 10 := shift_digit 1 d
  have h2 (d : Digit) : shift (d.setWidth 30 <<< 10) = d.setWidth 30 <<< 15 := shift_digit 2 d
  have h3 (d : Digit) : shift (d.setWidth 30 <<< 15) = d.setWidth 30 <<< 20 := shift_digit 3 d
  have h4 (d : Digit) : shift (d.setWidth 30 <<< 20) = d.setWidth 30 <<< 25 := shift_digit 4 d
  simp only [List.foldl_cons, List.foldl_nil, step, hzero, BitVec.zero_xor, shift_xor, h0, h1, h2, h3, h4]

theorem foldl_step_zero_digitsOf (c : BitVec 30) : (digitsOf c).foldl step 0#30 = c :=
  (foldl_step_six _ _ _ _ _ _).trans (xor_digitsOf c)

/-- Six digits are read off their remainder. -/
theorem digitsOf_foldl_step {digits : List Digit} (h : digits.length = 6) :
    digitsOf (digits.foldl step 0#30) = digits := by
  match digits, h with
  | [a, b, c, d, e, f], _ =>
    rw [foldl_step_six, digitsOf]
    simp only [List.cons.injEq, and_true]
    refine ⟨?_, ?_, ?_, ?_, ?_, ?_⟩ <;> ext i hi <;> interval_cases i <;> simp

theorem foldl_step_digitsOf (s c : BitVec 30) :
    (digitsOf c).foldl step s = (List.replicate 6 0).foldl step s ^^^ c := by
  have h := foldl_step_xor (digitsOf c) s 0#30
  rw [foldl_step_zero_digitsOf, BitVec.xor_zero] at h
  exact h

theorem polymod_append (digits more : List Digit) : polymod (digits ++ more) = more.foldl step (polymod digits) :=
  List.foldl_append

theorem polymod_checksum (hrp : List Char) (data : List Digit) (variant : Variant) :
    polymod (hrpExpand hrp ++ (data ++ checksum hrp data variant)) = variant.residue := by
  rw [← List.append_assoc, checksum, polymod_append _ (List.replicate 6 0), polymod_append, foldl_step_digitsOf,
    ← BitVec.xor_assoc, BitVec.xor_self, BitVec.zero_xor]

theorem verifyChecksum_checksum (hrp : List Char) (data : List Digit) (variant : Variant) :
    verifyChecksum hrp (data ++ checksum hrp data variant) = some variant := by
  simp only [verifyChecksum, polymod_checksum]
  cases variant <;> rfl

/-- Only the checksum passes for one. -/
theorem eq_checksum {hrp : List Char} {data digits : List Digit} {variant : Variant} (hlength : digits.length = 6)
    (h : verifyChecksum hrp (data ++ digits) = some variant) : digits = checksum hrp data variant := by
  have hpolymod : polymod (hrpExpand hrp ++ (data ++ digits)) = variant.residue := by
    simp only [verifyChecksum] at h
    split_ifs at h with hfirst hsecond
    · cases Option.some.inj h
      exact hfirst
    · cases Option.some.inj h
      exact hsecond
  have hxor := foldl_step_xor digits (polymod (hrpExpand hrp ++ data)) 0#30
  rw [BitVec.xor_zero, ← polymod_append, List.append_assoc, hpolymod, hlength, ← polymod_append] at hxor
  rw [checksum, hxor, ← BitVec.xor_assoc, BitVec.xor_self, BitVec.zero_xor, digitsOf_foldl_step hlength]

end Checksum

section Text

def charset : List Char :=
  ['q', 'p', 'z', 'r', 'y', '9', 'x', '8', 'g', 'f', '2', 't', 'v', 'd', 'w', '0', 's', '3', 'j', 'n', '5', '4',
    'k', 'h', 'c', 'e', '6', 'm', 'u', 'a', '7', 'l']

def charOfDigit (d : Digit) : Char := charset.getD d.toNat 'q'

def digitOfChar (c : Char) : Option Digit := (charset.idxOf? c).map (BitVec.ofNat 5)

/-- A human-readable part in lower case. -/
def isHrp (hrp : List Char) : Bool :=
  !hrp.isEmpty && hrp.all (fun c => 33 ≤ c.toNat && c.toNat ≤ 126 && !c.isUpper)

def encode (hrp : List Char) (data : List Digit) (variant : Variant) : Option (List Char) :=
  if isHrp hrp then some (hrp ++ '1' :: (data ++ checksum hrp data variant).map charOfDigit) else none

/-- The parts before and after the last separator. -/
def splitLast (text : List Char) : Option (List Char × List Char) :=
  match text.reverse.dropWhile (· ≠ '1') with
  | [] => none
  | _ :: hrp => some (hrp.reverse, (text.reverse.takeWhile (· ≠ '1')).reverse)

/-- The decoder for texts in lower case. -/
def decode (text : List Char) : Option (List Char × List Digit × Variant) := do
  let (hrp, data) ← splitLast text
  guard (isHrp hrp)
  let digits ← data.mapM digitOfChar
  guard (6 ≤ digits.length)
  let variant ← verifyChecksum hrp digits
  return (hrp, digits.take (digits.length - 6), variant)

theorem digitOfChar_charOfDigit : ∀ d : Digit, digitOfChar (charOfDigit d) = some d := by
  decide +kernel

theorem charOfDigit_ne : ∀ d : Digit, charOfDigit d ≠ '1' := by
  decide +kernel

theorem mapM_digitOfChar (digits : List Digit) : (digits.map charOfDigit).mapM digitOfChar = some digits := by
  induction digits with
  | nil => rfl
  | cons d digits ih =>
    rw [List.map_cons, List.mapM_cons, digitOfChar_charOfDigit, ih]
    rfl

theorem splitLast_append (hrp : List Char) (digits : List Digit) :
    splitLast (hrp ++ '1' :: digits.map charOfDigit) = some (hrp, digits.map charOfDigit) := by
  have hall : ∀ c ∈ (digits.map charOfDigit).reverse, decide (c ≠ '1') = true := by
    intro c hc
    obtain ⟨d, -, rfl⟩ := List.mem_map.mp (List.mem_reverse.mp hc)
    exact decide_eq_true (charOfDigit_ne d)
  have hreverse : (hrp ++ '1' :: digits.map charOfDigit).reverse =
      (digits.map charOfDigit).reverse ++ '1' :: hrp.reverse := by
    rw [List.reverse_append, List.reverse_cons, List.append_assoc]
    rfl
  rw [splitLast, hreverse, List.dropWhile_append_of_pos hall, List.takeWhile_append_of_pos hall]
  simp

theorem decode_encode {hrp : List Char} (hhrp : isHrp hrp) (data : List Digit) (variant : Variant) :
    ∃ rest, encode hrp data variant = some (hrp ++ '1' :: rest) ∧
      decode (hrp ++ '1' :: rest) = some (hrp, data, variant) := by
  refine ⟨_, if_pos hhrp, ?_⟩
  have hlength : (data ++ checksum hrp data variant).length = data.length + 6 := List.length_append
  rw [decode, splitLast_append]
  simp only [Option.bind_eq_bind, Option.bind_some, mapM_digitOfChar, verifyChecksum_checksum, hlength, hhrp]
  simp

theorem charOfDigit_digitOfChar {c : Char} {d : Digit} (h : digitOfChar c = some d) : charOfDigit d = c := by
  obtain ⟨i, hi, rfl⟩ := Option.map_eq_some_iff.mp h
  obtain ⟨hlt, hc, -⟩ := List.idxOf?_eq_some_iff.mp hi
  have hmod : (BitVec.ofNat 5 i).toNat = i := by
    rw [BitVec.toNat_ofNat]
    exact Nat.mod_eq_of_lt hlt
  rw [charOfDigit, hmod, List.getD_eq_getElem?_getD, List.getElem?_eq_getElem hlt]
  exact hc

theorem map_charOfDigit {chars : List Char} {digits : List Digit} (h : chars.mapM digitOfChar = some digits) :
    digits.map charOfDigit = chars := by
  induction chars generalizing digits with
  | nil =>
    cases Option.some.inj h
    rfl
  | cons c chars ih =>
    rw [List.mapM_cons] at h
    obtain ⟨d, hd, h⟩ := Option.bind_eq_some_iff.mp h
    obtain ⟨more, hmore, h⟩ := Option.bind_eq_some_iff.mp h
    cases Option.some.inj h
    rw [List.map_cons, charOfDigit_digitOfChar hd, ih hmore]

theorem splitLast_eq_some {text hrp data : List Char} (h : splitLast text = some (hrp, data)) :
    text = hrp ++ '1' :: data := by
  unfold splitLast at h
  have hparts := List.takeWhile_append_dropWhile (p := fun c => decide (c ≠ '1')) (l := text.reverse)
  have hhead := List.head?_dropWhile_not (fun c => decide (c ≠ '1')) text.reverse
  cases hdrop : text.reverse.dropWhile (fun c => decide (c ≠ '1')) with
  | nil =>
    rw [hdrop] at h
    cases h
  | cons c rest =>
    rw [hdrop] at h hparts hhead
    have hc : c = '1' := by simpa using hhead
    cases Option.some.inj h
    have hreverse := congrArg List.reverse hparts
    rw [hc, List.reverse_append, List.reverse_cons, List.append_assoc, List.reverse_reverse] at hreverse
    exact hreverse.symm

theorem encode_decode {text hrp : List Char} {data : List Digit} {variant : Variant}
    (h : decode text = some (hrp, data, variant)) : encode hrp data variant = some text := by
  obtain ⟨⟨hrp', chars⟩, hsplit, h⟩ := Option.bind_eq_some_iff.mp h
  obtain ⟨_, hhrp, h⟩ := Option.bind_eq_some_iff.mp h
  obtain ⟨digits, hdigits, h⟩ := Option.bind_eq_some_iff.mp h
  obtain ⟨_, hlength, h⟩ := Option.bind_eq_some_iff.mp h
  obtain ⟨variant', hvariant, h⟩ := Option.bind_eq_some_iff.mp h
  cases Option.some.inj h
  have hsix : 6 ≤ digits.length := Option.guard_eq_some' _ |>.mp hlength
  have hhrp : isHrp hrp = true := Option.guard_eq_some' _ |>.mp hhrp
  have hlast : (digits.drop (digits.length - 6)).length = 6 := by
    rw [List.length_drop]
    omega
  have hsum := eq_checksum hlast (by rw [List.take_append_drop]; exact hvariant)
  rw [encode, if_pos hhrp, ← hsum, List.take_append_drop, map_charOfDigit hdigits]
  exact congrArg some (splitLast_eq_some hsplit).symm

section AnyCase

def toLower (text : List Char) : List Char := text.map Char.toLower

/-- A text is all in one case. -/
def decodeAnyCase (text : List Char) : Option (List Char × List Digit × Variant) :=
  if text.all (fun c => !c.isUpper) then decode text
  else if text.all (fun c => !c.isLower) then decode (toLower text)
  else none

theorem toLower_of_all {text : List Char} (h : text.all (fun c => !c.isUpper) = true) : toLower text = text := by
  refine (List.map_congr_left (fun c hc => ?_)).trans (List.map_id text)
  have hupper := List.all_eq_true.mp h c hc
  unfold Char.toLower
  rw [dif_neg]
  · rfl
  · intro hbounds
    have hc : c.isUpper = true := by simpa [Char.isUpper] using hbounds
    rw [hc] at hupper
    cases hupper

theorem isUpper_charOfDigit : ∀ d : Digit, (charOfDigit d).isUpper = false := by
  decide +kernel

theorem encode_decodeAnyCase {text hrp : List Char} {data : List Digit} {variant : Variant}
    (h : decodeAnyCase text = some (hrp, data, variant)) : encode hrp data variant = some (toLower text) := by
  unfold decodeAnyCase at h
  split_ifs at h with hlower
  · rw [toLower_of_all hlower]
    exact encode_decode h
  · exact encode_decode h

theorem decodeAnyCase_encode {hrp : List Char} (hhrp : isHrp hrp) (data : List Digit) (variant : Variant) :
    ∃ rest, encode hrp data variant = some (hrp ++ '1' :: rest) ∧
      decodeAnyCase (hrp ++ '1' :: rest) = some (hrp, data, variant) := by
  obtain ⟨rest, hencode, hdecode⟩ := decode_encode hhrp data variant
  refine ⟨rest, hencode, ?_⟩
  have hchars : ∀ c ∈ hrp ++ '1' :: rest, (!c.isUpper) = true := by
    intro c hc
    rw [encode, if_pos hhrp] at hencode
    rw [← Option.some.inj hencode] at hc
    obtain hc | hc := List.mem_append.mp hc
    · simp only [isHrp, Bool.and_eq_true, List.all_eq_true] at hhrp
      exact (hhrp.2 c hc).2
    · obtain rfl | hc := List.mem_cons.mp hc
      · decide
      · obtain ⟨d, -, rfl⟩ := List.mem_map.mp hc
        rw [isUpper_charOfDigit]
        rfl
  rw [decodeAnyCase, if_pos (List.all_eq_true.mpr hchars), hdecode]

end AnyCase

end Text

end MercuryLayer.Library.Bech32
