import MercuryLayer.Musig.Session
import MercuryLayer.Receiver
import Mathlib.Tactic.Module

namespace MercuryLayer.Musig.ChallengeCheck

open Crates Error Library.Validation Library.XOnlyCurve Musig.Session Receiver WalletData

variable {n : ℕ} {E F : Type} [AddCommGroup E] [Module (ZMod n) E] [DecidableEq E]
variable (p : Params n E) (btc : Bitcoin)

section Accepted

variable [Add F] [Sub F] [Div F] [NatCast F] [LT F] [DecidableLT F]

/-- The two checks that a receiver makes on a transaction and the server row of its number. -/
def Accepted (feeRateTolerance currentFeeRate : F) (tx0Hex : String) (row : StatechainInfo)
    (backupTx : BackupTx) : Prop :=
  verifyTransactionSignature btc p.secp backupTx.tx tx0Hex feeRateTolerance currentFeeRate = .ok () ∧
    verifyBlindedMusigScheme btc p.secp backupTx tx0Hex row = .ok ()

end Accepted

/-- What the checks are meant to pin down: the server nonce is the recorded one, the two keys
give the funding output, and the signature's nonce is that of the recomputed session. -/
structure Bound (tx0Hex : String) (row : StatechainInfo) (backupTx : BackupTx) : Prop where
  serverNonce : p.secp.pubNonceFromStr backupTx.serverPublicNonce = p.secp.pubNonceFromStr row.serverPubnonce
  keysAndNonce : ∃ outputPubkey session txN input witnessData signature tx0Output,
    recomputeSession btc p.secp backupTx tx0Hex = .ok (outputPubkey, session) ∧
    btc.deserialize backupTx.tx = .ok txN ∧ txN.input[0]? = some input ∧
    input.witness[0]? = some witnessData ∧ p.secp.signatureFromSlice witnessData.dropLast = some signature ∧
    txOutput btc tx0Hex input.previousOutput.vout = .ok tx0Output ∧
    xOnlyOfScript p.secp tx0Output.scriptPubkey = .ok (p.x outputPubkey) ∧
    signature.r = session.finNonce

variable {p btc} {tx0Hex : String} {backupTx : BackupTx} {row : StatechainInfo}

theorem verifyBlindedMusigScheme_eq_ok :
    verifyBlindedMusigScheme btc p.secp backupTx tx0Hex row = .ok () ↔
      ∃ outputPubkey session, recomputeSession btc p.secp backupTx tx0Hex = .ok (outputPubkey, session) ∧
        row.challenge = p.secp.secretHex session.challenge := by
  simp [verifyBlindedMusigScheme]

/-- The recomputed session depends on the two public nonces only through their sums. -/
theorem recomputeSession_resplit {outputPubkey : Point E} {session : Session (ZMod n)}
    (h : recomputeSession btc p.secp backupTx tx0Hex = .ok (outputPubkey, session)) :
    ∃ A : E, ∀ S : E, S ≠ 0 → S ≠ A → ∃ client server : Point E × Point E, (server.1 : E) = S ∧
      recomputeSession btc p.secp { backupTx with clientPublicNonce := p.nonceText client,
                                                  serverPublicNonce := p.nonceText server } tx0Hex =
        .ok (outputPubkey, session) := by
  obtain ⟨client, server, clientKey, serverKey, f, P, t, parityAcc, outTweak, tx0, txN, msg, -, -, hck, hsk, hf,
    hP, ht, hQ, htx0, htxN, hmsg, hs⟩ := (recomputeSession_eq_ok btc p.secp).mp h
  refine ⟨client.1 + server.1, fun S hS hA => ?_⟩
  have hC : (client.1 + server.1 - S : E) ≠ 0 := fun he => hA (sub_eq_zero.mp he).symm
  refine ⟨(⟨_, hC⟩, client.2), (⟨S, hS⟩, server.2), rfl, (recomputeSession_eq_ok btc p.secp).mpr
    ⟨_, _, clientKey, serverKey, f, P, t, parityAcc, outTweak, tx0, txN, msg, p.pubNonceFromStr_nonceText _,
      p.pubNonceFromStr_nonceText _, hck, hsk, hf, hP, ht, hQ, htx0, htxN, hmsg, ?_⟩⟩
  have hagg : Params.musigNonceAgg [((⟨_, hC⟩, client.2) : Point E × Point E), (⟨S, hS⟩, server.2)] =
      Params.musigNonceAgg [client, server] := by
    simp only [Params.musigNonceAgg_pair, sub_add_cancel]
  rw [← hs]
  simp only [Params.secp, hagg]

/-- The message that both checks compute from the two transactions. -/
def signedMessage (btc : Bitcoin) (tx0Hex tx : String) : Res Bytes := do
  let tx0 ← question (btc.deserialize tx0Hex)
  let txN ← question (btc.deserialize tx)
  getTxHash btc tx0 txN

/-- The blinding factor that turns the hash at the nonce point `R` into the challenge `c`. -/
def solvedBlinding (p : Params n E) (outputPubkey : Point E) (msg : Bytes) (c : ZMod n) (R : Point E) : ZMod n :=
  let f := c - p.challengeHash (p.x R) (p.x outputPubkey) msg
  if p.odd outputPubkey != p.odd R then -f else f

theorem nonceProcess_solved (p : Params n E) (Q R : Point E) (msg : Bytes) (c tweak : ZMod n)
    (hf : solvedBlinding p Q msg c R ≠ 0) :
    ∃ session, p.blindedMusigNonceProcessWithoutKeyaggcoeff ((R : E) - solvedBlinding p Q msg c R • (Q : E), 0)
        msg Q (solvedBlinding p Q msg c R) tweak = some session ∧
      session.finNonce = p.x R ∧ session.challenge = c := by
  have hpt : ∀ b : ZMod n, p.finNoncePt b ((R : E) - solvedBlinding p Q msg c R • (Q : E), 0)
      (solvedBlinding p Q msg c R • (Q : E)) = R := by
    intro b
    rw [Params.finNoncePt, smul_zero, zero_add, sub_add_cancel, if_neg R.2]
  refine ⟨_, by rw [Params.blindedMusigNonceProcessWithoutKeyaggcoeff, if_neg hf], ?_, ?_⟩
  · simp only [hpt]
  · simp only [hpt]
    by_cases hodd : (p.odd Q != p.odd R) = true <;> simp [solvedBlinding, hodd]

/-- A recorded challenge is met by a transaction of the sender's choice: for any nonce point
the sender solves for the blinding factor and for its own public nonce. -/
theorem challenge_solvable {outputPubkey : Point E} {session : Session (ZMod n)} {msg : Bytes}
    (S : Point E × Point E) (c : ZMod n) (R : Point E)
    (h : recomputeSession btc p.secp backupTx tx0Hex = .ok (outputPubkey, session))
    (hmsg : signedMessage btc tx0Hex backupTx.tx = .ok msg) (hf : solvedBlinding p outputPubkey msg c R ≠ 0)
    (hS : (R : E) - solvedBlinding p outputPubkey msg c R • (outputPubkey : E) ≠ S.1) :
    ∃ clientNonce blindingFactor session',
      recomputeSession btc p.secp { backupTx with clientPublicNonce := clientNonce,
                                                  serverPublicNonce := p.nonceText S,
                                                  blindingFactor := blindingFactor } tx0Hex =
        .ok (outputPubkey, session') ∧
      session'.finNonce = p.x R ∧ session'.challenge = c := by
  obtain ⟨client, server, clientKey, serverKey, f, P, t, parityAcc, outTweak, tx0, txN, msg', -, -, hck, hsk, -,
    hP, ht, hQ, htx0, htxN, hmsg', -⟩ := (recomputeSession_eq_ok btc p.secp).mp h
  obtain rfl : msg' = msg := by
    simpa [signedMessage, htx0, htxN, hmsg'] using hmsg
  obtain ⟨session', hs, hfin, hchal⟩ := nonceProcess_solved p outputPubkey R msg' c outTweak hf
  have hC : (R : E) - solvedBlinding p outputPubkey msg' c R • (outputPubkey : E) - S.1 ≠ 0 :=
    fun he => hS (sub_eq_zero.mp he)
  have hN : -(S.2 : E) ≠ 0 := neg_ne_zero.mpr S.2.2
  refine ⟨p.nonceText (⟨_, hC⟩, ⟨_, hN⟩), p.secp.secretHex (solvedBlinding p outputPubkey msg' c R), session',
    (recomputeSession_eq_ok btc p.secp).mpr ⟨_, _, clientKey, serverKey, _, P, t, parityAcc, outTweak, tx0, txN,
      msg', p.pubNonceFromStr_nonceText _, p.pubNonceFromStr_nonceText _, hck, hsk,
      p.blindingFactorFromStr_secretHex _, hP, ht, hQ, htx0, htxN, hmsg', ?_⟩, hfin, hchal⟩
  have hagg : Params.musigNonceAgg [((⟨_, hC⟩, ⟨_, hN⟩) : Point E × Point E), S] =
      ((R : E) - solvedBlinding p outputPubkey msg' c R • (outputPubkey : E), 0) := by
    rw [Params.musigNonceAgg_pair, sub_add_cancel, neg_add_cancel]
  rw [← hs, ← hagg]
  rfl

section Binding

variable [Add F] [Sub F] [Div F] [NatCast F] [LT F] [DecidableLT F]

/-- The checks bind the sender's data only where they accept none, and any recorded challenge
is matched by solving for the blinding factor and the client nonce. -/
theorem challenge_check_binds_iff (p : Params n E) (btc : Bitcoin) (tx0Hex tx : String) (row : StatechainInfo)
    (feeRateTolerance currentFeeRate : F) :
    ((∀ backupTx, backupTx.tx = tx → Accepted p btc feeRateTolerance currentFeeRate tx0Hex row backupTx →
        Bound p btc tx0Hex row backupTx) ↔
      ∀ backupTx, backupTx.tx = tx → ¬Accepted p btc feeRateTolerance currentFeeRate tx0Hex row backupTx) ∧
    ∀ backupTx outputPubkey session msg (S : Point E × Point E) (c : ZMod n) (R : Point E),
      backupTx.tx = tx → recomputeSession btc p.secp backupTx tx0Hex = .ok (outputPubkey, session) →
      signedMessage btc tx0Hex tx = .ok msg → solvedBlinding p outputPubkey msg c R ≠ 0 →
      (R : E) - solvedBlinding p outputPubkey msg c R • (outputPubkey : E) ≠ S.1 →
      row.serverPubnonce = p.nonceText S → row.challenge = p.secp.secretHex c →
      ∃ clientNonce blindingFactor session',
        recomputeSession btc p.secp { backupTx with clientPublicNonce := clientNonce,
                                                    serverPublicNonce := row.serverPubnonce,
                                                    blindingFactor := blindingFactor } tx0Hex =
          .ok (outputPubkey, session') ∧ session'.finNonce = p.x R ∧
        verifyBlindedMusigScheme btc p.secp { backupTx with clientPublicNonce := clientNonce,
                                                            serverPublicNonce := row.serverPubnonce,
                                                            blindingFactor := blindingFactor } tx0Hex row =
          .ok () := by
  refine ⟨⟨fun hbound backupTx htx hacc => ?_, fun hnone backupTx htx hacc => absurd hacc (hnone backupTx htx)⟩,
    ?_⟩
  · obtain ⟨outputPubkey, session, hs, hc⟩ := verifyBlindedMusigScheme_eq_ok.mp hacc.2
    obtain ⟨A, hA⟩ := recomputeSession_resplit hs
    obtain ⟨recorded, hrecorded⟩ : ∃ S : E, ∀ server : Point E × Point E,
        p.secp.pubNonceFromStr row.serverPubnonce = .ok server → (server.1 : E) = S := by
      cases hrow : p.secp.pubNonceFromStr row.serverPubnonce with
      | error e => exact ⟨0, fun server he => by simp at he⟩
      | ok nonce => exact ⟨nonce.1, fun server he => by rw [Except.ok.inj he]⟩
    obtain ⟨S, hS0, hSA, hSr⟩ := p.exists_ne_three 0 A recorded
    obtain ⟨client, server, hserver, hs'⟩ := hA S hS0 hSA
    let resplit : BackupTx :=
      { backupTx with clientPublicNonce := p.nonceText client, serverPublicNonce := p.nonceText server }
    have hacc' : Accepted p btc feeRateTolerance currentFeeRate tx0Hex row resplit :=
      ⟨hacc.1, verifyBlindedMusigScheme_eq_ok.mpr ⟨outputPubkey, session, hs', hc⟩⟩
    have hb := (hbound resplit htx hacc').serverNonce
    rw [p.pubNonceFromStr_nonceText] at hb
    exact hSr (hserver ▸ hrecorded server hb.symm)
  · intro backupTx outputPubkey session msg S c R htx hs hmsg hf hS hnonce hc
    subst htx
    obtain ⟨clientNonce, blindingFactor, session', hs', hfin, hchal⟩ := challenge_solvable S c R hs hmsg hf hS
    rw [← hnonce] at hs'
    exact ⟨clientNonce, blindingFactor, session', hs', hfin,
      verifyBlindedMusigScheme_eq_ok.mpr ⟨outputPubkey, session', hs', by rw [hchal, hc]⟩⟩

end Binding

section Replay

def point (P : ZMod 7) (h : P ≠ 0) : Point (ZMod 7) := ⟨P, h⟩

def fundingTx : Transaction :=
  { version := 2, lockTime := 0, input := [], output := [{ value := 1000, scriptPubkey := [0x51, 0x20, 3] }] }

/-- A transaction with a valid signature whose nonce has x-coordinate 2. -/
def replayTx : Transaction :=
  { version := 2
    lockTime := 100
    input := [{ previousOutput := ⟨"tx0", 0⟩, scriptSig := [], sequence := 0
                witness := [seven.signatureBytes.encode ⟨[2], b32 6⟩ ++ [1]] }]
    output := [{ value := 1000, scriptPubkey := [] }] }

def replayBtc : Bitcoin where
  deserialize tx := if tx = "tx0" then .ok fundingTx else .ok replayTx
  serialize _ := ""
  txid _ := "tx0"
  txidFromStr _ := some []
  vsize _ := 1
  sighash _ _ := some []
  addressToStr _ _ := ""
  addressFromScript _ _ := none
  scriptOfAddress _ _ := none

/-- A row that the server recorded for some other signature. -/
def recordedRow : StatechainInfo :=
  { statechainId := "statechain"
    serverPubnonce := seven.nonceText (point 1 one_ne_zero_seven, point 1 one_ne_zero_seven)
    challenge := seven.secp.secretHex 3
    txN := 1 }

def solvedBackupTx : BackupTx :=
  { txN := 1
    tx := "backup"
    clientPublicNonce := seven.nonceText (point 2 two_ne_zero_seven, point 6 six_ne_zero_seven)
    serverPublicNonce := recordedRow.serverPubnonce
    clientPublicKey := seven.secp.publicKeyToStr (point 1 one_ne_zero_seven)
    serverPublicKey := seven.secp.publicKeyToStr (point 1 one_ne_zero_seven)
    blindingFactor := seven.secp.secretHex 5 }

theorem solvedBackupTx_session :
    recomputeSession replayBtc seven.secp solvedBackupTx "tx0" =
      .ok (point 3 (by decide), ⟨false, [3], 1, 3, 4⟩) :=
  (recomputeSession_eq_ok replayBtc seven.secp).mpr
    ⟨_, _, _, _, 5, point 2 (by decide), 1, false, 1, fundingTx, replayTx, [],
      seven.pubNonceFromStr_nonceText _, seven.pubNonceFromStr_nonceText _, seven.publicKeyFromStr_toStr _,
      seven.publicKeyFromStr_toStr _, seven.blindingFactorFromStr_secretHex _, rfl, rfl, rfl, rfl, rfl, rfl, rfl⟩

theorem replayTx_signature :
    verifyTransactionSignature replayBtc seven.secp "backup" "tx0" (0 : ℕ) 0 = .ok () := by rfl

/-- The recorded challenge is matched with a validly signed transaction whose signature has
another nonce, the server's nonce and both keys being the right ones. -/
theorem solved_backup_tx_accepted :
    Accepted seven replayBtc (0 : ℕ) 0 "tx0" recordedRow solvedBackupTx ∧
      solvedBackupTx.serverPublicNonce = recordedRow.serverPubnonce ∧
      ¬Bound seven replayBtc "tx0" recordedRow solvedBackupTx := by
  refine ⟨⟨replayTx_signature, verifyBlindedMusigScheme_eq_ok.mpr ⟨_, _, solvedBackupTx_session, rfl⟩⟩, rfl, ?_⟩
  rintro ⟨-, outputPubkey, session, txN, input, witnessData, signature, tx0Output, hs, htx, hin, hw, hsig, -, -, hr⟩
  have htxN : Except.ok replayTx = Except.ok txN := htx
  have hsession := solvedBackupTx_session.symm.trans hs
  simp only [Except.ok.injEq, Prod.mk.injEq] at htxN hsession
  obtain ⟨-, rfl⟩ := hsession
  subst htxN
  have hinput : some _ = some input := hin
  rw [Option.some.injEq] at hinput
  subst hinput
  have hwitness : some _ = some witnessData := hw
  rw [Option.some.injEq] at hwitness
  subst hwitness
  have hsignature : some ⟨[2], b32 6⟩ = some signature := hsig
  rw [Option.some.injEq] at hsignature
  subst hsignature
  exact absurd hr (by decide)

end Replay

end MercuryLayer.Musig.ChallengeCheck
