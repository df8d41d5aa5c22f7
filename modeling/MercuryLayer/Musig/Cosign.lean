import MercuryLayer.Lockbox.Enclave
import MercuryLayer.Transaction
import Mathlib.Tactic.LinearCombination
import Mathlib.Tactic.Module

namespace MercuryLayer.Musig.Cosign

open Crates Error Library.Validation Library.XOnlyCurve Lockbox.Enclave Musig.Session Receiver
open MercuryLayer.Transaction WalletData

variable {n : ℕ} {E : Type} [AddCommGroup E] [Module (ZMod n) E] [DecidableEq E]

/-- A partial signature passes the check for the key and the nonces that it was made with. -/
theorem partialSigVerify_of_partialSign {p : Params n E} {a b k sig : ZMod n} {pk output : Point E}
    {session : Session (ZMod n)} {parityAcc : Bool} (ha : a ≠ 0) (hb : b ≠ 0)
    (h : p.blindedMusigPartialSignWithoutKeyaggcoeff ⟨a, b, pk⟩ k session (p.musigNegateSeckey output parityAcc) =
      some sig) :
    p.blindedMusigPartialSigVerify sig (p.publicKey a, p.publicKey b) (p.publicKey k) output session parityAcc =
      true := by
  rw [Params.blindedMusigPartialSignWithoutKeyaggcoeff, if_neg (fun h => ha h.1)] at h
  by_cases hpk : (pk : E) = k • p.G
  · have hk : k ≠ 0 := by
      rintro rfl
      exact pk.2 (hpk.trans (zero_smul _ _))
    have hrj : ∀ rj : E, (if session.finNonceParity then -rj else rj) =
        (sign session.finNonceParity : ZMod n) • rj := by
      intro rj
      cases session.finNonceParity <;> simp [sign]
    rw [if_neg (not_not.mpr hpk)] at h
    simp only [ite_neg_eq_sign, Option.some.injEq] at h
    rw [← h, Params.blindedMusigPartialSigVerify, decide_eq_true_eq]
    simp only [Params.musigNegateSeckey, p.coe_publicKey hk, p.coe_publicKey ha, p.coe_publicKey hb, hrj,
      ite_neg_eq_sign]
    module
  · rw [if_pos hpk] at h
    cases h

/-- The secrets of one co-signature: the shares `o` and `s`, the nonce pairs `k` and `l` of
client and server, the blinding factor and the taproot tweak. -/
structure Secrets (p : Params n E) where
  o : ZMod n
  s : ZMod n
  k0 : ZMod n
  k1 : ZMod n
  l0 : ZMod n
  l1 : ZMod n
  f : ZMod n
  t : ZMod n
  o_ne_zero : o ≠ 0
  s_ne_zero : s ≠ 0
  sum_ne_zero : o + s ≠ 0
  k0_ne_zero : k0 ≠ 0
  k1_ne_zero : k1 ≠ 0
  l0_ne_zero : l0 ≠ 0
  l1_ne_zero : l1 ≠ 0
  f_ne_zero : f ≠ 0
  tweak : p.secp.secretKeyFromSlice (p.tapTweakHash (p.x ((o + s) • p.G))) = some t
  output_ne_zero : p.evenY ((o + s) • p.G) + t • p.G ≠ 0

namespace Secrets

variable {p : Params n E} (σ : Secrets p) (msg : Bytes)

def aggregate : Point E := ⟨(σ.o + σ.s) • p.G, p.smul_G_ne_zero σ.sum_ne_zero⟩

def output : Point E := ⟨p.evenY σ.aggregate + σ.t • p.G, σ.output_ne_zero⟩

def aggnonce : E × E := ((σ.k0 + σ.l0) • p.G, (σ.k1 + σ.l1) • p.G)

def noncecoef : ZMod n := p.nonceHash σ.aggnonce.1 σ.aggnonce.2 (p.x σ.output) msg

def finNonce : E := σ.noncecoef msg • σ.aggnonce.2 + σ.aggnonce.1 + σ.f • (σ.output : E)

def outputLog : ZMod n := sign (p.odd σ.aggregate) * (σ.o + σ.s) + σ.t

def finNonceLog : ZMod n := σ.noncecoef msg * (σ.k1 + σ.l1) + (σ.k0 + σ.l0) + σ.f * σ.outputLog

def hash : ZMod n := p.challengeHash (p.x (σ.finNonce msg)) (p.x σ.output) msg

def challenge : ZMod n :=
  σ.hash msg + sign (p.odd σ.output) * sign (p.odd (σ.finNonce msg)) * σ.f

def session : Session (ZMod n) :=
  { finNonceParity := p.odd (σ.finNonce msg)
    finNonce := p.x (σ.finNonce msg)
    noncecoef := σ.noncecoef msg
    challenge := σ.challenge msg
    sPart := sign (p.odd σ.output) * (σ.challenge msg * σ.t) }

/-- Whether the shares are negated before signing. -/
def negate : Bool := p.odd σ.output != p.odd σ.aggregate

/-- The response of the holder of the share `sk` with the nonce pair `(a, b)`. -/
def response (sk a b : ZMod n) : ZMod n :=
  σ.challenge msg * (sign σ.negate * sk) +
    sign (p.odd (σ.finNonce msg)) * (a + σ.noncecoef msg * b)

theorem output_eq_smul : (σ.output : E) = σ.outputLog • p.G := by
  have hQ : (σ.output : E) = p.evenY (σ.aggregate : E) + σ.t • p.G := rfl
  have hP : (σ.aggregate : E) = (σ.o + σ.s) • p.G := rfl
  rw [hQ, p.evenY_eq_sign, outputLog, hP]
  module

theorem finNonce_eq_smul : σ.finNonce msg = σ.finNonceLog msg • p.G := by
  rw [finNonce, output_eq_smul, aggnonce, finNonceLog]
  module

theorem tweakAdd : p.secp.pubkeyXonlyTweakAdd σ.aggregate σ.t =
    some (p.odd σ.aggregate, σ.output, σ.t) :=
  p.pubkeyXonlyTweakAdd_eq_some.mpr ⟨rfl, rfl, rfl⟩

theorem newBlindedSession (h : σ.finNonce msg ≠ 0) :
    p.secp.newBlindedSession σ.output
      [(p.publicKey σ.k0, p.publicKey σ.k1), (p.publicKey σ.l0, p.publicKey σ.l1)] msg σ.f σ.t =
      some (σ.session msg) := by
  have hagg : Params.musigNonceAgg [(p.publicKey σ.k0, p.publicKey σ.k1), (p.publicKey σ.l0, p.publicKey σ.l1)] =
      σ.aggnonce := by
    rw [Params.musigNonceAgg_pair, p.coe_publicKey σ.k0_ne_zero, p.coe_publicKey σ.k1_ne_zero,
      p.coe_publicKey σ.l0_ne_zero, p.coe_publicKey σ.l1_ne_zero, ← add_smul, ← add_smul, aggnonce]
  have hpt : p.finNoncePt (σ.noncecoef msg) σ.aggnonce (σ.f • (σ.output : E)) = σ.finNonce msg := by
    rw [Params.finNoncePt, if_neg (by exact h), finNonce]
  have hsign : (if p.odd σ.output != p.odd (σ.finNonce msg) then -σ.f else σ.f) =
      sign (p.odd σ.output) * sign (p.odd (σ.finNonce msg)) * σ.f := by
    rw [ite_neg_eq_sign, sign_bne]
  have hb : p.nonceHash σ.aggnonce.1 σ.aggnonce.2 (p.x σ.output) msg = σ.noncecoef msg := rfl
  have hh : p.challengeHash (p.x (σ.finNonce msg)) (p.x σ.output) msg = σ.hash msg := rfl
  change p.blindedMusigNonceProcessWithoutKeyaggcoeff (Params.musigNonceAgg _) msg σ.output σ.f σ.t = _
  rw [hagg, Params.blindedMusigNonceProcessWithoutKeyaggcoeff, if_neg σ.f_ne_zero]
  simp only [hb, hpt, hsign, hh, session, challenge]
  rw [ite_neg_eq_sign]
  by_cases ht : σ.t = 0 <;> simp [ht]

theorem partialSign {sk a b : ZMod n} (hsk : sk ≠ 0) (ha : a ≠ 0) :
    p.blindedMusigPartialSignWithoutKeyaggcoeff ⟨a, b, p.publicKey sk⟩ sk (σ.session msg) σ.negate =
      some (σ.response msg sk a b) := by
  have hne : ¬(a = 0 ∧ b = 0) := fun h => ha h.1
  rw [Params.blindedMusigPartialSignWithoutKeyaggcoeff, if_neg hne,
    if_neg (not_not.mpr (p.coe_publicKey hsk))]
  simp only [ite_neg_eq_sign, Option.some.injEq]
  simp only [session, response]
  ring

theorem partialSigVerify {sk a b : ZMod n} (hsk : sk ≠ 0) (ha : a ≠ 0) (hb : b ≠ 0) :
    p.blindedMusigPartialSigVerify (σ.response msg sk a b) (p.publicKey a, p.publicKey b) (p.publicKey sk)
      σ.output (σ.session msg) (p.odd σ.aggregate) = true :=
  partialSigVerify_of_partialSign ha hb (σ.partialSign msg hsk ha)

theorem response_sum :
    sign (p.odd σ.output) * (σ.challenge msg * σ.t) + σ.response msg σ.o σ.k0 σ.k1 +
        σ.response msg σ.s σ.l0 σ.l1 =
      sign (p.odd (σ.finNonce msg)) * σ.finNonceLog msg + σ.hash msg * (sign (p.odd σ.output) * σ.outputLog) := by
  have hq : (sign (p.odd σ.output) : ZMod n) * sign (p.odd σ.output) = 1 := sign_mul_self _
  simp only [response, negate, sign_bne, finNonceLog, challenge]
  have hl : σ.outputLog = sign (p.odd σ.aggregate) * (σ.o + σ.s) + σ.t := rfl
  linear_combination (sign (p.odd (σ.finNonce msg)) * σ.f * σ.outputLog) * hq -
    (σ.hash msg * sign (p.odd σ.output) + sign (p.odd σ.output) * sign (p.odd σ.output) *
      sign (p.odd (σ.finNonce msg)) * σ.f) * hl

/-- The three summands form a signature under the tweaked key. -/
theorem aggregate_verifies (h : σ.finNonce msg ≠ 0) :
    p.secp.verifySchnorr
      (p.musigPartialSigAgg (σ.session msg) [σ.response msg σ.o σ.k0 σ.k1, σ.response msg σ.s σ.l0 σ.l1])
      msg (p.x σ.output) = true := by
  apply p.schnorrVerify_of_response p.challengeHash h σ.output.2
  have hsum : List.foldl (· + ·) (σ.session msg).sPart
      [σ.response msg σ.o σ.k0 σ.k1, σ.response msg σ.s σ.l0 σ.l1] =
      sign (p.odd (σ.finNonce msg)) * σ.finNonceLog msg +
        σ.hash msg * (sign (p.odd σ.output) * σ.outputLog) := σ.response_sum msg
  have hh : p.challengeHash (p.x (σ.finNonce msg)) (p.x σ.output) msg = σ.hash msg := rfl
  rw [hsum, hh, p.evenY_eq_sign, p.evenY_eq_sign, add_smul, mul_smul, mul_smul, mul_smul,
    ← finNonce_eq_smul, ← output_eq_smul]

end Secrets

/-- A coin that holds the client's secrets and what the server sent for one co-signature. -/
structure ReadyToSign {p : Params n E} (σ : Secrets p) (coin : Coin) : Prop where
  aggregatedPubkey : coin.aggregatedPubkey = some (p.secp.publicKeyToStr σ.aggregate)
  publicNonce : coin.publicNonce = some (p.nonceText (p.publicKey σ.k0, p.publicKey σ.k1))
  serverPublicNonce : coin.serverPublicNonce = some (p.nonceText (p.publicKey σ.l0, p.publicKey σ.l1))
  blindingFactor : coin.blindingFactor = some (p.secp.secretHex σ.f)
  userPrivkey : coin.userPrivkey = p.wif.encode σ.o
  userPubkey : coin.userPubkey = p.secp.publicKeyToStr (p.publicKey σ.o)
  secretNonce : coin.secretNonce =
    some (hexCodec.encode (p.secnonceBytes.encode ⟨σ.k0, σ.k1, p.publicKey σ.o⟩))
  statechainId : coin.statechainId.isSome
  signedStatechainId : coin.signedStatechainId.isSome

section Client

variable {p : Params n E} {σ : Secrets p} {msg : Bytes} {coin : Coin} {encodedUnsignedTx : String}

def clientMsg (σ : Secrets p) (msg : Bytes) (coin : Coin) (encodedUnsignedTx : String) : PartialSignatureMsg1 :=
  { msg := hexCodec.encode msg
    outputPubkey := p.secp.publicKeyToStr σ.output
    clientPartialSig := p.musig.partialSigToStr (σ.response msg σ.o σ.k0 σ.k1)
    encodedSession := p.musig.sessionToStr (σ.session msg)
    encodedUnsignedTx := encodedUnsignedTx
    partialSignatureRequestPayload :=
      { statechainId := coin.statechainId.getD ""
        negateSeckey := if σ.negate then 1 else 0
        session := p.musig.sessionToStr (Params.blindedMusigRemoveFinNonceFromSession (σ.session msg))
        signedStatechainId := coin.signedStatechainId.getD ""
        serverPubNonce := p.nonceText (p.publicKey σ.l0, p.publicKey σ.l1) } }

/-- The client computes its half without an error and without the assertion failing. -/
theorem calculateMusigSession_eq (h : ReadyToSign σ coin) (hR : σ.finNonce msg ≠ 0) :
    calculateMusigSession p.secp p.musig coin msg encodedUnsignedTx =
      .ok (clientMsg σ msg coin encodedUnsignedTx) := by
  obtain ⟨statechainId, hid⟩ := Option.isSome_iff_exists.mp h.statechainId
  obtain ⟨signedStatechainId, hsigned⟩ := Option.isSome_iff_exists.mp h.signedStatechainId
  have htweak : p.secp.secretKeyFromSlice (p.secp.tapTweakHash (p.secp.xOnly σ.aggregate)) = some σ.t := σ.tweak
  have hwif : p.secp.privateKeyFromWif (p.wif.encode σ.o) = some σ.o := by
    simp [Params.secp, σ.o_ne_zero]
  have hsec : p.musig.secNonceFromStr (hexCodec.encode (p.secnonceBytes.encode ⟨σ.k0, σ.k1, p.publicKey σ.o⟩)) =
      .ok ⟨σ.k0, σ.k1, p.publicKey σ.o⟩ := by
    simp [Params.musig]
  have hsign : p.musig.partialSign ⟨σ.k0, σ.k1, p.publicKey σ.o⟩ σ.o (σ.session msg)
      (p.musig.negateSeckey σ.output (p.odd σ.aggregate)) = some (σ.response msg σ.o σ.k0 σ.k1) :=
    σ.partialSign msg σ.o_ne_zero σ.k0_ne_zero
  have hverify : p.musig.partialSigVerify (σ.response msg σ.o σ.k0 σ.k1) (p.publicKey σ.k0, p.publicKey σ.k1)
      (p.publicKey σ.o) σ.output (σ.session msg) (p.odd σ.aggregate) = true :=
    σ.partialSigVerify msg σ.o_ne_zero σ.k0_ne_zero σ.k1_ne_zero
  simp only [calculateMusigSession, h.aggregatedPubkey, h.publicNonce, h.serverPublicNonce, h.blindingFactor,
    h.userPrivkey, h.userPubkey, h.secretNonce, hid, hsigned, unwrap_some, ok_bind, publicKeyFromStr,
    p.publicKeyFromStr_toStr, orErr_some, htweak, σ.tweakAdd, p.pubNonceFromStr_nonceText, question_ok,
    p.blindingFactorFromStr_secretHex, σ.newBlindedSession msg hR, hwif, hsec, hsign, hverify]
  simp [clientMsg, hid, hsigned]
  exact ⟨rfl, rfl, rfl⟩

theorem p2trOutputKey_aggregate : p.secp.p2trOutputKey (p.x σ.aggregate) = some (p.x σ.output) := by
  have hlift : p.lift (p.x (σ.aggregate : E)) = some (p.evenY σ.aggregate) := p.lift_x _ σ.aggregate.2
  have htweak : p.setB32 (p.tapTweakHash (p.x (σ.aggregate : E))) = some σ.t :=
    (Option.filter_eq_some_iff.mp σ.tweak).1
  have hout : Params.toPoint (p.evenY σ.aggregate + σ.t • p.G) = some σ.output := Params.toPoint_of_ne _
  simp [Params.secp, Params.p2trOutputKey, hlift, htweak, hout]

end Client

section Server

variable {enclave : Keyring n E} {σ : Secrets enclave.params} {msg : Bytes}

/-- The lockbox signs from the session without the final nonce, with the flag it was sent. -/
theorem partialSignature_eq (nonce1 nonce2 : Bytes) :
    partialSignature enclave (enclave.keypairs.lock nonce1 σ.s)
      (enclave.secnonces.lock nonce2 ⟨σ.l0, σ.l1, enclave.params.publicKey σ.s⟩)
      (Int32.ofNat (if σ.negate then 1 else 0 : UInt8).toNat)
      (enclave.params.sessionBytes.encode (Params.blindedMusigRemoveFinNonceFromSession (σ.session msg))) =
      .ok (σ.response msg σ.s σ.l0 σ.l1) := by
  refine (partialSignature_eq_ok enclave).mpr ⟨σ.s, _, _, enclave.keypairs.unlock_lock _ _,
    enclave.secnonces.unlock_lock _ _, enclave.params.sessionBytes.decode_encode _, ?_⟩
  have hflag : decide (Int32.ofNat (if σ.negate then 1 else 0 : UInt8).toNat ≠ 0) = σ.negate := by
    cases σ.negate <;> rfl
  rw [hflag]
  exact σ.partialSign msg σ.s_ne_zero σ.l0_ne_zero

end Server

/-- The two partial signatures always combine to a signature that is valid under the key of
the coin's aggregated address. -/
theorem cosigned_signature_valid (enclave : Keyring n E) (σ : Secrets enclave.params) (msg : Bytes) (coin : Coin)
    (encodedUnsignedTx : String) (nonce1 nonce2 : Bytes) (hcoin : ReadyToSign σ coin)
    (hR : σ.finNonce msg ≠ 0) :
    ∃ msg1 sessionData serverPartialSig sig outputKey,
      calculateMusigSession enclave.params.secp enclave.params.musig coin msg encodedUnsignedTx = .ok msg1 ∧
      hexCodec.decode msg1.partialSignatureRequestPayload.session = some sessionData ∧
      partialSignature enclave (enclave.keypairs.lock nonce1 σ.s)
        (enclave.secnonces.lock nonce2 ⟨σ.l0, σ.l1, enclave.params.publicKey σ.s⟩)
        (Int32.ofNat msg1.partialSignatureRequestPayload.negateSeckey.toNat) sessionData =
        .ok serverPartialSig ∧
      createSignature enclave.params.secp enclave.params.musig msg1.msg msg1.clientPartialSig
        (enclave.params.musig.partialSigToStr serverPartialSig) msg1.encodedSession msg1.outputPubkey =
        .ok (enclave.params.secp.signatureToStr sig) ∧
      enclave.params.secp.p2trOutputKey (enclave.params.x σ.aggregate) = some outputKey ∧
      enclave.params.secp.verifySchnorr sig msg outputKey = true := by
  have hvalid := σ.aggregate_verifies msg hR
  refine ⟨clientMsg σ msg coin encodedUnsignedTx, _, σ.response msg σ.s σ.l0 σ.l1, _, enclave.params.x σ.output,
    calculateMusigSession_eq hcoin hR, hexCodec.decode_encode _, partialSignature_eq nonce1 nonce2, ?_,
    p2trOutputKey_aggregate, hvalid⟩
  have hsession : enclave.params.musig.sessionFromStr (enclave.params.musig.sessionToStr (σ.session msg)) =
      .ok (σ.session msg) := by simp [Params.musig]
  have hsig : ∀ k : ZMod n, enclave.params.musig.partialSigFromStr (enclave.params.musig.partialSigToStr k) =
      .ok k := by
    intro k
    simp [Params.musig, enclave.params.setB32_getB32]
  have hmsg : enclave.params.musig.messageFromHex (hexCodec.encode msg) = .ok msg := by
    simp [Params.musig]
  simp only [createSignature, clientMsg, hmsg, hsig, hsession, question_ok, ok_bind, publicKeyFromStr,
    enclave.params.publicKeyFromStr_toStr, orErr_some]
  have hv : enclave.params.secp.verifySchnorr (enclave.params.musig.partialSigAgg (σ.session msg)
      [σ.response msg σ.o σ.k0 σ.k1, σ.response msg σ.s σ.l0 σ.l1]) msg
      (enclave.params.secp.xOnly σ.output) = true := hvalid
  rw [hv]
  rfl

section Seven

def sevenSecrets : Secrets seven where
  o := 1
  s := 1
  k0 := 1
  k1 := 1
  l0 := 1
  l1 := 1
  f := 2
  t := 1
  o_ne_zero := one_ne_zero_seven
  s_ne_zero := one_ne_zero_seven
  sum_ne_zero := by decide
  k0_ne_zero := one_ne_zero_seven
  k1_ne_zero := one_ne_zero_seven
  l0_ne_zero := one_ne_zero_seven
  l1_ne_zero := one_ne_zero_seven
  f_ne_zero := two_ne_zero_seven
  tweak := rfl
  output_ne_zero := by decide

def sevenCoin : Coin :=
  { index := 0, userPrivkey := seven.wif.encode 1, userPubkey := seven.secp.publicKeyToStr (seven.publicKey 1)
    authPrivkey := "", authPubkey := "", derivationPath := "", fingerprint := "", address := ""
    backupAddress := ""
    aggregatedPubkey := some (seven.secp.publicKeyToStr sevenSecrets.aggregate)
    statechainId := some "statechain", signedStatechainId := some "signed"
    secretNonce := some (hexCodec.encode (seven.secnonceBytes.encode ⟨1, 1, seven.publicKey 1⟩))
    publicNonce := some (seven.nonceText (seven.publicKey 1, seven.publicKey 1))
    blindingFactor := some (seven.secp.secretHex 2)
    serverPublicNonce := some (seven.nonceText (seven.publicKey 1, seven.publicKey 1))
    status := .confirmed, duplicateIndex := 0 }

theorem sevenCoin_ready : ReadyToSign sevenSecrets sevenCoin :=
  ⟨rfl, rfl, rfl, rfl, rfl, rfl, rfl, rfl, rfl⟩

theorem cosigned_signature_valid_seven :
    ReadyToSign sevenSecrets sevenCoin ∧ sevenSecrets.finNonce [] ≠ 0 ∧
      ∃ msg1, calculateMusigSession seven.secp seven.musig sevenCoin [] "" = .ok msg1 := by
  have hR : sevenSecrets.finNonce [] ≠ 0 := by decide
  obtain ⟨msg1, _, _, _, _, hmsg1, -⟩ :=
    cosigned_signature_valid sevenKeyring sevenSecrets [] sevenCoin "" [] [] sevenCoin_ready hR
  exact ⟨sevenCoin_ready, hR, msg1, hmsg1⟩

end Seven

end MercuryLayer.Musig.Cosign
