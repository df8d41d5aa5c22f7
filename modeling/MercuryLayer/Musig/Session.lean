import MercuryLayer.Crates

namespace MercuryLayer.Musig.Session

open Crates Error Library.XOnlyCurve

/-- The curve of the `secp256k1-zkp` library with its hash functions, left abstract, and the
forms in which points, scalars, nonces and sessions travel. -/
structure Params (n : ℕ) (E : Type) [AddCommGroup E] [Module (ZMod n) E] extends Curve n E where
  nonceHash : E → E → Bytes → Bytes → ZMod n
  challengeHash : Bytes → Bytes → Bytes → ZMod n
  tapTweakHash : Bytes → Bytes
  sha256 : Bytes → Bytes
  auxNonce : Bytes → ZMod n → { r : ZMod n // r ≠ 0 }
  pubkeyBytes : Codec (Point E) Bytes
  nonceBytes : Codec (Point E × Point E) Bytes
  secnonceBytes : Codec (SecNonce (Point E) (ZMod n)) Bytes
  sessionBytes : Codec (Session (ZMod n)) Bytes
  signatureBytes : Codec Signature Bytes
  wif : Codec (ZMod n) String

variable {n : ℕ} {E : Type} [AddCommGroup E] [Module (ZMod n) E]

namespace Params

variable (p : Params n E) [DecidableEq E]

/-- A point as a public key, when it is not infinity. -/
def toPoint (P : E) : Option (Point E) := if h : P ≠ 0 then some ⟨P, h⟩ else none

@[simp] theorem toPoint_of_ne {P : E} (h : P ≠ 0) : toPoint P = some ⟨P, h⟩ := dif_pos h

theorem toPoint_eq_some {P : E} {Q : Point E} : toPoint P = some Q ↔ P = Q := by
  by_cases h : P ≠ 0
  · simp [toPoint, h, Subtype.ext_iff]
  · rw [not_not] at h
    subst h
    simp [toPoint, Q.2.symm]

/-- `secp256k1_blinded_musig_pubkey_xonly_tweak_add`, from the accumulated parity and tweak. -/
def blindedMusigPubkeyXonlyTweakAdd (parityAcc : Bool) (outTweak : ZMod n) (aggregatePubkey : Point E)
    (tweak : ZMod n) : Option (Bool × Point E × ZMod n) :=
  let odd := p.odd aggregatePubkey
  let outTweak := (if odd then -outTweak else outTweak) + tweak
  (toPoint (p.evenY aggregatePubkey + outTweak • p.G)).map
    (fun outputPubkey => (parityAcc ^^ odd, outputPubkey, outTweak))

def musigNegateSeckey (aggregatePubkey : Point E) (parityAcc : Bool) : Bool :=
  p.odd aggregatePubkey != parityAcc

def musigNonceAgg (pubnonces : List (Point E × Point E)) : E × E :=
  ((pubnonces.map (fun nonce => (nonce.1 : E))).sum, (pubnonces.map (fun nonce => (nonce.2 : E))).sum)

/-- The final nonce point; infinity is replaced by the generator. -/
def finNoncePt (b : ZMod n) (aggnonce : E × E) (blindingPk : E) : E :=
  let pt := b • aggnonce.2 + aggnonce.1 + blindingPk
  if pt = 0 then p.G else pt

/-- `secp256k1_blinded_musig_nonce_process_without_keyaggcoeff`; a zero blinding factor is
refused by the multiplication of the key. -/
def blindedMusigNonceProcessWithoutKeyaggcoeff (aggnonce : E × E) (msg : Bytes) (aggregatePubkey : Point E)
    (blindingFactor tweak : ZMod n) : Option (Session (ZMod n)) :=
  if blindingFactor = 0 then none
  else
    let aggPk32 := p.x aggregatePubkey
    let b := p.nonceHash aggnonce.1 aggnonce.2 aggPk32 msg
    let finNoncePt := p.finNoncePt b aggnonce (blindingFactor • (aggregatePubkey : E))
    let finNonceParity := p.odd finNoncePt
    let finNonce := p.x finNoncePt
    let blinding := if p.odd aggregatePubkey != finNonceParity then -blindingFactor else blindingFactor
    let challenge := p.challengeHash finNonce aggPk32 msg + blinding
    let e := if p.odd aggregatePubkey then -(challenge * tweak) else challenge * tweak
    let sPart := if tweak = 0 then 0 else e
    some ⟨finNonceParity, finNonce, b, challenge, sPart⟩

def blindedMusigRemoveFinNonceFromSession (session : Session (ZMod n)) : Session (ZMod n) :=
  { session with finNonce := List.replicate 32 0 }

/-- `secp256k1_blinded_musig_partial_sign_without_keyaggcoeff`: the secret nonce must be set
and made for the key pair that signs. -/
def blindedMusigPartialSignWithoutKeyaggcoeff (secnonce : SecNonce (Point E) (ZMod n)) (seckey : ZMod n)
    (session : Session (ZMod n)) (negateSeckey : Bool) : Option (ZMod n) :=
  if secnonce.k0 = 0 ∧ secnonce.k1 = 0 then none
  else if (secnonce.pk : E) ≠ seckey • p.G then none
  else
    let sk := if negateSeckey then -seckey else seckey
    let k0 := if session.finNonceParity then -secnonce.k0 else secnonce.k0
    let k1 := if session.finNonceParity then -secnonce.k1 else secnonce.k1
    some (session.challenge * sk + (k0 + session.noncecoef * k1))

def blindedMusigPartialSigVerify (partialSig : ZMod n) (pubnonce : Point E × Point E)
    (pubkey aggregatePubkey : Point E) (session : Session (ZMod n)) (parityAcc : Bool) : Bool :=
  let rj := session.noncecoef • (pubnonce.2 : E) + pubnonce.1
  let e := if p.odd aggregatePubkey != parityAcc then -session.challenge else session.challenge
  decide (e • (pubkey : E) + (-partialSig) • p.G + (if session.finNonceParity then -rj else rj) = 0)

def musigPartialSigAgg (session : Session (ZMod n)) (partialSigs : List (ZMod n)) : Signature :=
  ⟨session.finNonce, p.getB32 (partialSigs.foldl (· + ·) session.sPart)⟩

/-- The taproot output key without a script tree, as the `bitcoin` crate derives it. -/
def p2trOutputKey (internalKey : Bytes) : Option Bytes := do
  let P ← p.lift internalKey
  let tweak ← p.setB32 (p.tapTweakHash internalKey)
  let Q ← toPoint (P + tweak • p.G)
  return p.x Q

def publicKey (seckey : ZMod n) : Point E :=
  (toPoint (seckey • p.G)).getD ⟨p.G, p.G_ne_zero⟩

def signSchnorr (msg : Bytes) (seckey : ZMod n) : Signature :=
  let r : ZMod n := p.auxNonce msg seckey
  let P := seckey • p.G
  let R := r • p.G
  let e := p.challengeHash (p.x R) (p.x P) msg
  ⟨p.x R, p.getB32 (sign (p.odd R) * r + e * (sign (p.odd P) * seckey))⟩

/-- The crate over this curve. Secret keys are the scalars other than zero. -/
def secp : Secp (Point E) (ZMod n) where
  publicKeyFromStr text := (hexCodec.decode text).bind p.pubkeyBytes.decode
  publicKeyToStr P := hexCodec.encode (p.pubkeyBytes.encode P)
  serialize := p.pubkeyBytes.encode
  xOnly P := p.x P
  xOnlyFromSlice bytes := (p.lift bytes).map (fun _ => bytes)
  combine P Q := toPoint (P + Q)
  tapTweakHash := p.tapTweakHash
  p2trOutputKey := p.p2trOutputKey
  secretKeyFromSlice bytes := (p.setB32 bytes).filter (fun k => k ≠ 0)
  secretBytes := p.getB32
  secretHex k := hexCodec.encode (p.getB32 k)
  scalarFromBeBytes := p.setB32
  privateKeyFromWif text := (p.wif.decode text).filter (fun k => k ≠ 0)
  publicKey := p.publicKey
  negate k := -k
  addTweak k t := if k + t = 0 then none else some (k + t)
  sha256 := p.sha256
  signatureFromStr text := (hexCodec.decode text).bind p.signatureBytes.decode
  signatureToStr sig := hexCodec.encode (p.signatureBytes.encode sig)
  signatureFromSlice := p.signatureBytes.decode
  verifySchnorr sig msg pubkey := p.schnorrVerify p.challengeHash sig.r sig.s msg pubkey
  signSchnorr := p.signSchnorr
  pubNonceFromStr text :=
    match hexCodec.decode text with
    | none => .error .hexError
    | some bytes => match p.nonceBytes.decode bytes with
      | none => .error .parseError
      | some nonce => .ok nonce
  blindingFactorFromStr text :=
    match hexCodec.decode text with
    | none => .error .hexError
    | some bytes => match p.setB32 bytes with
      | none => .error .parseError
      | some f => .ok f
  pubkeyXonlyTweakAdd := p.blindedMusigPubkeyXonlyTweakAdd false 0
  newBlindedSession outputPubkey pubnonces msg blindingFactor tweak :=
    p.blindedMusigNonceProcessWithoutKeyaggcoeff (musigNonceAgg pubnonces) msg outputPubkey blindingFactor tweak

def musig : Musig (Point E) (ZMod n) where
  negateSeckey := p.musigNegateSeckey
  secNonceFromStr text :=
    match hexCodec.decode text with
    | none => .error (.mercury .hexError)
    | some bytes => unwrap (p.secnonceBytes.decode bytes)
  partialSign := p.blindedMusigPartialSignWithoutKeyaggcoeff
  partialSigVerify := p.blindedMusigPartialSigVerify
  removeFinNonceFromSession := blindedMusigRemoveFinNonceFromSession
  sessionToStr session := hexCodec.encode (p.sessionBytes.encode session)
  sessionFromStr text :=
    match hexCodec.decode text with
    | none => .error (.mercury .hexError)
    | some bytes => unwrap (p.sessionBytes.decode bytes)
  partialSigToStr s := hexCodec.encode (p.getB32 s)
  partialSigFromStr text :=
    match hexCodec.decode text with
    | none => .error .hexError
    | some bytes => match p.setB32 bytes with
      | none => .error .parseError
      | some s => .ok s
  partialSigAgg := p.musigPartialSigAgg
  messageToHex := hexCodec.encode
  messageFromHex text :=
    match hexCodec.decode text with
    | none => .error .hexError
    | some bytes => .ok bytes

/-- The order is prime, so one is a secret key. -/
def someSecret : { k : ZMod n // k ≠ 0 } :=
  ⟨1, fun h => p.prime.one_lt.ne' (ZMod.one_eq_zero_iff.mp h)⟩

theorem coe_publicKey {k : ZMod n} (hk : k ≠ 0) : (p.publicKey k : E) = k • p.G := by
  simp [publicKey, p.smul_G_ne_zero hk]

theorem verifySchnorr_signSchnorr (msg : Bytes) {k : ZMod n} (hk : k ≠ 0) :
    p.secp.verifySchnorr (p.secp.signSchnorr msg k) msg (p.secp.xOnly (p.publicKey k)) = true := by
  have hR : (p.auxNonce msg k : ZMod n) • p.G ≠ 0 := p.smul_G_ne_zero (p.auxNonce msg k).2
  have hP : k • p.G ≠ 0 := p.smul_G_ne_zero hk
  simp only [secp, signSchnorr, p.coe_publicKey hk]
  apply p.schnorrVerify_of_response p.challengeHash hR hP
  rw [p.evenY_eq_sign, p.evenY_eq_sign, add_smul, mul_smul, mul_smul, mul_smul]

theorem xOnlyFromSlice_idem {bytes key : Bytes} (h : p.secp.xOnlyFromSlice bytes = some key) :
    p.secp.xOnlyFromSlice key = some key := by
  obtain ⟨P, hP, rfl⟩ := Option.map_eq_some_iff.mp h
  exact Option.map_eq_some_iff.mpr ⟨P, hP, rfl⟩

/-- The text of a public nonce in a message or a row. -/
def nonceText (nonce : Point E × Point E) : String := hexCodec.encode (p.nonceBytes.encode nonce)

@[simp] theorem pubNonceFromStr_nonceText (nonce : Point E × Point E) :
    p.secp.pubNonceFromStr (p.nonceText nonce) = .ok nonce := by
  simp [secp, nonceText]

@[simp] theorem blindingFactorFromStr_secretHex (f : ZMod n) :
    p.secp.blindingFactorFromStr (p.secp.secretHex f) = .ok f := by
  simp [secp, p.setB32_getB32]

@[simp] theorem publicKeyFromStr_toStr (P : Point E) :
    p.secp.publicKeyFromStr (p.secp.publicKeyToStr P) = some P := by
  simp [secp]

omit [DecidableEq E] in
theorem musigNonceAgg_pair (C S : Point E × Point E) :
    musigNonceAgg [C, S] = ((C.1 : E) + S.1, (C.2 : E) + S.2) := by
  simp [musigNonceAgg]

theorem pubkeyXonlyTweakAdd_eq_some {P Q : Point E} {t outTweak : ZMod n} {parityAcc : Bool} :
    p.secp.pubkeyXonlyTweakAdd P t = some (parityAcc, Q, outTweak) ↔
      parityAcc = p.odd P ∧ (Q : E) = p.evenY P + t • p.G ∧ outTweak = t := by
  simp [secp, blindedMusigPubkeyXonlyTweakAdd, toPoint_eq_some]
  grind

end Params

section Seven

/-- The numerals of the field of seven elements, without a proof that they are at least two. -/
instance sevenNumeral (k : ℕ) : OfNat (ZMod 7) (k + 2) := ⟨((k + 2 : ℕ) : ZMod 7)⟩

theorem one_ne_zero_seven : (1 : ZMod 7) ≠ 0 := by decide

theorem two_ne_zero_seven : (2 : ZMod 7) ≠ 0 := by decide

theorem three_ne_zero_seven : (3 : ZMod 7) ≠ 0 := by decide

theorem six_ne_zero_seven : (6 : ZMod 7) ≠ 0 := by decide

def byteOf (k : ZMod 7) : UInt8 := k.val.toUInt8

def scalarOfByte (u : UInt8) : Option (ZMod 7) := if u < 7 then some u.toNat else none

def pointOfByte (u : UInt8) : Option (Point (ZMod 7)) := (scalarOfByte u).bind Params.toPoint

@[simp] theorem scalarOfByte_byteOf : ∀ k, scalarOfByte (byteOf k) = some k := by decide

@[simp] theorem pointOfByte_byteOf (P : Point (ZMod 7)) : pointOfByte (byteOf P) = some P := by
  simp [pointOfByte, P.2]

/-- A scalar as 32 bytes, most significant first. -/
def b32 (k : ZMod 7) : Bytes := List.replicate 31 0 ++ [byteOf k]

def scalarOfB32 (bytes : Bytes) : Option (ZMod 7) :=
  if bytes.take 31 = List.replicate 31 0 then
    match bytes.drop 31 with
    | [u] => scalarOfByte u
    | _ => none
  else none

theorem scalarOfB32_b32 : ∀ k, scalarOfB32 (b32 k) = some k := by decide

def pubkeySeven : Codec (Point (ZMod 7)) Bytes where
  encode P := [byteOf P]
  decode
    | [u] => pointOfByte u
    | _ => none
  decode_encode P := by simp

def nonceSeven : Codec (Point (ZMod 7) × Point (ZMod 7)) Bytes where
  encode nonce := [byteOf nonce.1, byteOf nonce.2]
  decode
    | [u, v] => do return (← pointOfByte u, ← pointOfByte v)
    | _ => none
  decode_encode nonce := by simp

def secnonceSeven : Codec (SecNonce (Point (ZMod 7)) (ZMod 7)) Bytes where
  encode nonce := [byteOf nonce.k0, byteOf nonce.k1, byteOf nonce.pk]
  decode
    | [u, v, w] => do return ⟨← scalarOfByte u, ← scalarOfByte v, ← pointOfByte w⟩
    | _ => none
  decode_encode nonce := by simp

def sessionSeven : Codec (Session (ZMod 7)) Bytes where
  encode session :=
    (if session.finNonceParity then 1 else 0) :: byteOf session.noncecoef :: byteOf session.challenge ::
      byteOf session.sPart :: session.finNonce
  decode
    | parity :: u :: v :: w :: finNonce => do
      return ⟨parity = 1, finNonce, ← scalarOfByte u, ← scalarOfByte v, ← scalarOfByte w⟩
    | _ => none
  decode_encode session := by
    obtain ⟨parity, finNonce, b, c, t⟩ := session
    cases parity <;> simp

/-- The bytes of `r` are marked, so that any two halves are told apart. -/
def encodeSignature : Bytes → Bytes → Bytes
  | [], s => 0 :: s
  | u :: r, s => 1 :: u :: encodeSignature r s

def decodeSignature : Bytes → Option Signature
  | 0 :: s => some ⟨[], s⟩
  | 1 :: u :: rest => (decodeSignature rest).map (fun sig => ⟨u :: sig.r, sig.s⟩)
  | _ => none

theorem decodeSignature_encode (r s : Bytes) : decodeSignature (encodeSignature r s) = some ⟨r, s⟩ := by
  induction r with
  | nil => rfl
  | cons u r ih => simp [encodeSignature, decodeSignature, ih]

def signatureSeven : Codec Signature Bytes where
  encode sig := encodeSignature sig.r sig.s
  decode := decodeSignature
  decode_encode sig := decodeSignature_encode sig.r sig.s

def wifSeven : Codec (ZMod 7) String where
  encode k := hexCodec.encode [byteOf k]
  decode text := (hexCodec.decode text).bind (fun
    | [u] => scalarOfByte u
    | _ => none)
  decode_encode k := by simp

def oddSeven (P : ZMod 7) : Bool := P.val % 2 == 1

def xSeven (P : ZMod 7) : Bytes := [(min P.val (-P).val).toUInt8]

def liftSeven : Bytes → Option (ZMod 7)
  | [u] => if 0 < u ∧ u < 4 then some (if oddSeven u.toNat then -u.toNat else u.toNat) else none
  | _ => none

/-- The group of order seven as a curve: the smallest one that meets every assumption. -/
def seven : Params 7 (ZMod 7) where
  G := 1
  G_ne_zero := by decide
  prime := by decide
  order := by decide
  x := xSeven
  odd := oddSeven
  lift := liftSeven
  getB32 := b32
  setB32 := scalarOfB32
  x_neg := by decide
  odd_neg := by decide
  lift_x := by decide
  setB32_getB32 := scalarOfB32_b32
  nonceHash _ _ _ _ := 1
  challengeHash _ _ _ := 1
  tapTweakHash _ := b32 1
  sha256 bytes := bytes
  auxNonce _ _ := ⟨1, one_ne_zero_seven⟩
  pubkeyBytes := pubkeySeven
  nonceBytes := nonceSeven
  secnonceBytes := secnonceSeven
  sessionBytes := sessionSeven
  signatureBytes := signatureSeven
  wif := wifSeven

end Seven

end MercuryLayer.Musig.Session
