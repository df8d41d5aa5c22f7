import MercuryLayer.Client.HostileMessage
import MercuryLayer.Client.SavedCoins

namespace MercuryLayer.Client.Interruptions

open Client.CoinStatus Client.CoinSteps Client.HostileMessage Client.LifeCycle Client.Operations Client.SavedCoins
open Client.TransferReceiver (Unspent InfoConfig anyhow anyhow_eq_ok anyhow_ne_panic)
open Client.Transaction hiding Call Reply
open Crates Error Library.Programs Library.Reliance Library.Validation Receiver Server.Transfer
open MercuryLayer.Transaction WalletData

variable {E K F : Type} (kit : Kit E K F)

section Assumptions

/-- What the client takes for granted of its crates: a key with an address can be tweaked, what has been
written is read back, and a partial signature passes the check of the one who made it. -/
structure Dependable : Prop extends KeyLaws kit where
  address : ∀ key script network, p2trScript kit.secp key = .ok script →
    kit.isAddress (kit.btc.addressToStr script network) = true ∧
      isTransferAddress (kit.btc.addressToStr script network) = false
  tweak : ∀ key t, Payable kit key →
    kit.secp.secretKeyFromSlice (kit.secp.tapTweakHash (kit.secp.xOnly key)) = some t →
      kit.secp.pubkeyXonlyTweakAdd key t ≠ none
  nonce : ∀ sessionId k secretNonce publicNonce,
    kit.newMusigNoncePair sessionId k (kit.secp.publicKey k) = .ok (secretNonce, publicNonce) →
      kit.musig.secNonceFromStr secretNonce ≠ .error .panic
  ownSignature : ∀ sessionId k secretNonce publicNonce secNonce pubNonce output parity session signature,
    kit.newMusigNoncePair sessionId k (kit.secp.publicKey k) = .ok (secretNonce, publicNonce) →
    kit.musig.secNonceFromStr secretNonce = .ok secNonce → kit.secp.pubNonceFromStr publicNonce = .ok pubNonce →
    kit.musig.partialSign secNonce k session (kit.musig.negateSeckey output parity) = some signature →
      kit.musig.partialSigVerify signature pubNonce (kit.secp.publicKey k) output session parity = true
  session : ∀ session, kit.musig.sessionFromStr (kit.musig.sessionToStr session) ≠ .error .panic
  signature : ∀ signature, Hex.decode (kit.secp.signatureToStr signature) ≠ none

/-- A blinding factor with which a signature can be started. -/
def Blinds (blindingFactor : String) : Prop :=
  ∀ f, kit.secp.blindingFactorFromStr blindingFactor = .ok f →
    ∀ output nonces hash tweak, kit.secp.newBlindedSession output nonces hash f tweak ≠ none

/-- The statechain entity says why it refuses to sign, and the random source draws usable values. -/
def Civil : (c : Call F) → Reply c → Prop
  | .sending (.signFirst _), reply => ∀ answer : Answer, reply = (.ok (some answer) : Transaction.Response) →
      answer.status ≠ 200 → answerField "message" answer ≠ none
  | .sending .drawNonce, draw => Blinds kit (draw : NonceDraw).blindingFactor
  | _, _ => True

end Assumptions

variable {kit}

section Signing

/-- The nonces have been drawn for the coin. -/
structure Drawn (kit : Kit E K F) (coin : Coin) (coinNonce : CoinNonce) : Prop where
  pair : ∃ sessionId k, kit.secp.privateKeyFromWif coin.userPrivkey = some k ∧
    kit.newMusigNoncePair sessionId k (kit.secp.publicKey k) = .ok (coinNonce.secretNonce, coinNonce.publicNonce)
  blinds : Blinds kit coinNonce.blindingFactor

variable {coin : Coin} {coinNonce : CoinNonce} {serverPublicNonce : String}

theorem calculateMusigSession_ne_panic (hkit : Dependable kit) (hkeyed : Keyed kit coin) (hwhole : Whole kit coin)
    (hdrawn : Drawn kit coin coinNonce) (hash : Library.XOnlyCurve.Bytes) (encodedUnsignedTx : String) :
    calculateMusigSession kit.secp kit.musig (withNonces coin coinNonce serverPublicNonce) hash encodedUnsignedTx ≠
      .error .panic := by
  obtain ⟨text, key, htext, hkey, hpayable⟩ := hwhole.aggregatedPubkey
  obtain ⟨sessionId, k, hk, hpair⟩ := hdrawn.pair
  refine bind_ne_panic (unwrap_ne_panic ?_) (fun aggregatedPubkey haggregated => ?_)
  · change coin.aggregatedPubkey ≠ none
    rw [htext]
    exact Option.some_ne_none text
  cases Option.some.inj (htext.symm.trans (unwrap_eq_ok.mp haggregated))
  refine bind_ne_panic orErr_ne_panic (fun aggregatePubkey hpubkey => ?_)
  cases Option.some.inj (hkey.symm.trans (orErr_eq_ok.mp hpubkey))
  refine bind_ne_panic orErr_ne_panic (fun t ht => ?_)
  refine bind_ne_panic (unwrap_ne_panic (hkit.tweak key t hpayable (orErr_eq_ok.mp ht))) (fun tweaked _ => ?_)
  obtain ⟨parityAcc, outputPubkey, outTweak⟩ := tweaked
  refine bind_ne_panic (unwrap_ne_panic (Option.some_ne_none _)) (fun publicNonce hpublic => ?_)
  cases Option.some.inj (unwrap_eq_ok.mp hpublic)
  refine bind_ne_panic question_ne_panic (fun clientPubNonce hclient => ?_)
  refine bind_ne_panic (unwrap_ne_panic (Option.some_ne_none _)) (fun serverPubnonceHex _ => ?_)
  refine bind_ne_panic question_ne_panic (fun serverPubNonce _ => ?_)
  refine bind_ne_panic (unwrap_ne_panic (Option.some_ne_none _)) (fun blindingFactorHex hblinding => ?_)
  cases Option.some.inj (unwrap_eq_ok.mp hblinding)
  refine bind_ne_panic question_ne_panic (fun blindingFactor hfactor => ?_)
  refine bind_ne_panic (unwrap_ne_panic (hdrawn.blinds blindingFactor (question_eq_ok.mp hfactor) _ _ _ _))
    (fun session _ => ?_)
  refine bind_ne_panic orErr_ne_panic (fun clientSeckey hseckey => ?_)
  cases Option.some.inj (hk.symm.trans (orErr_eq_ok.mp hseckey))
  refine bind_ne_panic orErr_ne_panic (fun clientPubkey hclientPubkey => ?_)
  cases Option.some.inj ((hkeyed.pair k hk).symm.trans (orErr_eq_ok.mp hclientPubkey))
  refine bind_ne_panic (unwrap_ne_panic (Option.some_ne_none _)) (fun secretNonce hsecret => ?_)
  cases Option.some.inj (unwrap_eq_ok.mp hsecret)
  refine bind_ne_panic (hkit.nonce _ _ _ _ hpair) (fun clientSecNonce hsecNonce => ?_)
  refine bind_ne_panic orErr_ne_panic (fun clientPartialSig hsig => ?_)
  have hverify := hkit.ownSignature _ _ _ _ _ _ _ _ _ _ hpair hsecNonce (question_eq_ok.mp hclient)
    (orErr_eq_ok.mp hsig)
  refine bind_ne_panic (fun hpanic => ?_) (fun _ _ => ?_)
  · have hfalse := (throwIf_eq_error.mp hpanic).1
    rw [hverify] at hfalse
    cases hfalse
  refine bind_ne_panic (unwrap_ne_panic hwhole.statechainId) (fun statechainId _ => ?_)
  refine bind_ne_panic (unwrap_ne_panic hwhole.signedStatechainId) (fun signedStatechainId _ => ?_)
  exact pure_ne_panic

/-- An address to which a coin can be paid, and which is that of a script. -/
def Plain (kit : Kit E K F) (toAddress : String) : Prop :=
  kit.isAddress toAddress = true ∧ isTransferAddress toAddress = false

section Request

variable [Mul F] [NatCast F]

theorem getPartialSigRequest_ne_panic (hkit : Dependable kit) (hkeyed : Keyed kit coin) (hwhole : Whole kit coin)
    (hdrawn : Drawn kit coin coinNonce) (htxid : coin.utxoTxid ≠ none) (hvout : coin.utxoVout ≠ none)
    {toAddress : String} (haddress : Plain kit toAddress) (blockHeight initlock interval : UInt32) (feeRate : F)
    (qtBackupTx : UInt32) (network : String) (withdrawal : Option (ℕ × ℕ)) :
    getPartialSigRequest kit.secp kit.musig kit.btc kit.envelope kit.isAddress kit.ceilU64
      (withNonces coin coinNonce serverPublicNonce) blockHeight initlock interval feeRate qtBackupTx toAddress network
      withdrawal ≠ .error .panic := by
  refine bind_ne_panic getNetwork_ne_panic (fun network _ => ?_)
  refine bind_ne_panic ?_ (fun txOut _ => ?_)
  · refine bind_ne_panic (unwrap_ne_panic hwhole.amount) (fun amount _ => ?_)
    simp only [haddress.2, Bool.false_eq_true, if_false]
    refine bind_ne_panic (fun hpanic => ?_) (fun _ _ => bind_ne_panic orErr_ne_panic fun _ _ => pure_ne_panic)
    have hfalse := (throwIf_eq_error.mp hpanic).1
    rw [haddress.1] at hfalse
    cases hfalse
  · obtain ⟨text, key, htext, -⟩ := hwhole.aggregatedPubkey
    refine bind_ne_panic (unwrap_ne_panic ?_) (fun aggregatedPubkey _ => ?_)
    · change coin.aggregatedPubkey ≠ none
      rw [htext]
      exact Option.some_ne_none text
    refine bind_ne_panic orErr_ne_panic (fun _ _ => ?_)
    refine bind_ne_panic (fun hpanic => ?_) (fun _ _ => ?_)
    · cases (throwIf_eq_error.mp hpanic).2
    refine bind_ne_panic (unwrap_ne_panic htxid) (fun utxoTxid _ => ?_)
    refine bind_ne_panic orErr_ne_panic (fun _ _ => ?_)
    refine bind_ne_panic (unwrap_ne_panic hvout) (fun utxoVout _ => ?_)
    refine bind_ne_panic (unwrap_ne_panic hwhole.amount) (fun amount _ => ?_)
    refine bind_ne_panic (unwrap_ne_panic hwhole.aggregatedAddress) (fun aggregatedAddress _ => ?_)
    refine bind_ne_panic orErr_ne_panic (fun inputScriptpubkey _ => ?_)
    refine bind_ne_panic orErr_ne_panic (fun hash _ => ?_)
    exact calculateMusigSession_ne_panic hkit hkeyed hwhole hdrawn hash _

end Request

theorem session_of_getPartialSigRequest [Mul F] [NatCast F] {request : PartialSignatureMsg1}
    {blockHeight initlock interval qtBackupTx : UInt32} {feeRate : F} {toAddress network : String}
    {withdrawal : Option (ℕ × ℕ)}
    (h : getPartialSigRequest kit.secp kit.musig kit.btc kit.envelope kit.isAddress kit.ceilU64 coin blockHeight
      initlock interval feeRate qtBackupTx toAddress network withdrawal = .ok request) :
    ∃ session, request.encodedSession = kit.musig.sessionToStr session := by
  simp only [getPartialSigRequest, getMusigSession, calculateMusigSession, bind_eq_ok, pure_eq_ok] at h
  obtain ⟨_, -, _, -, _, -, _, -, _, -, _, -, _, -, _, -, _, -, _, -, _, -, _, -, h⟩ := h
  obtain ⟨_, -, _, -, _, -, ⟨_, _, _⟩, -, _, -, _, -, _, -, _, -, _, -, _, -, session, -, _, -, _, -, _, -, _, -, _, -,
    _, -, _, -, _, -, rfl⟩ := h
  exact ⟨session, rfl⟩

theorem createSignature_ne_panic (hkit : Dependable kit) (msg clientPartialSigHex serverPartialSigHex : String)
    (session : Session K) (outputPubkeyHex : String) :
    createSignature kit.secp kit.musig msg clientPartialSigHex serverPartialSigHex (kit.musig.sessionToStr session)
      outputPubkeyHex ≠ .error .panic := by
  refine bind_ne_panic question_ne_panic (fun _ _ => ?_)
  refine bind_ne_panic question_ne_panic (fun _ _ => ?_)
  refine bind_ne_panic question_ne_panic (fun _ _ => ?_)
  refine bind_ne_panic (hkit.session session) (fun _ _ => ?_)
  refine bind_ne_panic orErr_ne_panic (fun _ _ => ?_)
  refine bind_ne_panic (fun hpanic => nomatch (throwIf_eq_error.mp hpanic).2) (fun _ _ => pure_ne_panic)

theorem newBackupTransaction_ne_panic (hkit : Dependable kit) {msg clientPartialSigHex serverPartialSigHex sessionHex
    outputPubkeyHex signature : String} (encodedUnsignedTx : String)
    (h : createSignature kit.secp kit.musig msg clientPartialSigHex serverPartialSigHex sessionHex outputPubkeyHex =
      .ok signature) :
    newBackupTransaction kit.secp kit.btc encodedUnsignedTx signature ≠ .error .panic := by
  simp only [createSignature, bind_eq_ok, pure_eq_ok] at h
  obtain ⟨_, -, _, -, _, -, _, -, _, -, _, -, rfl⟩ := h
  refine bind_ne_panic question_ne_panic (fun _ _ => ?_)
  refine bind_ne_panic (fun hpanic => nomatch (throwIf_eq_error.mp hpanic).2) (fun _ _ => ?_)
  refine bind_ne_panic (fun hpanic => nomatch (throwIf_eq_error.mp hpanic).2) (fun _ _ => ?_)
  refine bind_ne_panic orErr_ne_panic (fun _ _ => ?_)
  exact bind_ne_panic (unwrap_ne_panic (hkit.signature _)) (fun _ _ => pure_ne_panic)

end Signing

section Calm

/-- Against civil replies the program does not panic. -/
def Calm (kit : Kit E K F) {α : Type} (post : α → Prop) (p : Operation F α) : Prop :=
  Assures (Civil kit) (fun _ => True) post (fun e => e ≠ .panic) p

/-- As `Calm`, for a part that sending has too. -/
def CalmAction (kit : Kit E K F) {α : Type} (post : α → Prop) (p : Action F α) : Prop :=
  Assures (fun c r => Civil kit (.sending c) r) (fun _ => True) post (fun e => e ≠ .panic) p

variable {coin : Coin}

theorem calm_createAndCommitNonces (hkeyed : Keyed kit coin) (hwhole : Whole kit coin) :
    CalmAction kit (Drawn kit coin) (createAndCommitNonces kit.toSetup coin) := by
  refine assures_ask_bind Transaction.Call.drawNonce _ trivial (fun draw hdraw => ?_)
  refine assures_lift_of_ne ?_ (fun coinNonce h => ?_)
  · refine bind_ne_panic orErr_ne_panic (fun _ _ => bind_ne_panic orErr_ne_panic (fun _ _ => ?_))
    refine bind_ne_panic question_ne_panic (fun _ _ => ?_)
    refine bind_ne_panic (unwrap_ne_panic hwhole.statechainId) (fun _ _ => ?_)
    exact bind_ne_panic (unwrap_ne_panic hwhole.signedStatechainId) (fun _ _ => pure_ne_panic)
  · obtain ⟨k, hk, h⟩ := bind_eq_ok.mp h
    obtain ⟨key, hkey, h⟩ := bind_eq_ok.mp h
    cases Option.some.inj ((hkeyed.pair k (orErr_eq_ok.mp hk)).symm.trans (orErr_eq_ok.mp hkey))
    obtain ⟨⟨secretNonce, publicNonce⟩, hpair, h⟩ := bind_eq_ok.mp h
    obtain ⟨_, -, h⟩ := bind_eq_ok.mp h
    obtain ⟨_, -, h⟩ := bind_eq_ok.mp h
    cases Except.ok.inj h
    exact ⟨⟨draw.sessionId, k, orErr_eq_ok.mp hk, question_eq_ok.mp hpair⟩, hdraw⟩

theorem calm_signFirst (payload : Server.Sign.SignFirstRequestPayload) :
    CalmAction kit (fun _ => True) (signFirst payload : Action F String) := by
  refine assures_ask_bind (Transaction.Call.signFirst payload) _ trivial (fun response hresponse => ?_)
  refine assures_bind_of_ne anyhow_ne_panic (fun reply hreply => ?_)
  refine assures_bind_of_ne orFail_ne_panic (fun answer hanswer => ?_)
  refine assures_bind_of_ne (fun hpanic => ?_) (fun _ _ => ?_)
  · unfold refuse at hpanic
    split_ifs at hpanic with hstatus
    cases hmessage : answerField "message" answer with
    | some text =>
      rw [hmessage] at hpanic
      cases hpanic
    | none =>
      cases orThrow_eq_ok.mp hanswer
      exact hresponse answer (anyhow_eq_ok.mp hreply) hstatus hmessage
  · refine assures_bind_of_ne orFail_ne_panic (fun _ _ => assures_pure trivial)

theorem calm_signSecond (payload : PartialSignatureRequestPayload) :
    CalmAction kit (fun _ => True) (signSecond kit.toSetup payload) := by
  refine assures_ask_bind (Transaction.Call.signSecond payload) _ trivial (fun response _ => ?_)
  refine assures_bind_of_ne anyhow_ne_panic (fun _ _ => ?_)
  refine assures_bind_of_ne orFail_ne_panic (fun _ _ => ?_)
  refine assures_bind_of_ne orFail_ne_panic (fun _ _ => ?_)
  exact assures_lift_of_ne question_ne_panic (fun _ _ => trivial)

theorem calm_blockHeightOr (blockHeight : Option UInt32) :
    CalmAction kit (fun _ => True) (blockHeightOr blockHeight : Action F UInt32) := by
  cases blockHeight with
  | some height => exact assures_pure trivial
  | none =>
    have hheight : CalmAction kit (fun _ => True) (blockHeadersSubscribeRaw : Action F UInt64) :=
      assures_ask_bind Transaction.Call.blockHeadersSubscribeRaw _ trivial
        (fun _ _ => assures_lift_of_ne anyhow_ne_panic fun _ _ => trivial)
    exact assures_bind hheight (fun _ _ => assures_pure trivial)

theorem getUserBackupAddress_ne_panic (hkeyed : Keyed kit coin) (network : String) :
    getUserBackupAddress kit.toSetup coin network ≠ .error .panic := by
  refine bind_ne_panic getNetwork_ne_panic (fun _ _ => ?_)
  refine bind_ne_panic orErr_ne_panic (fun key hkey => ?_)
  refine bind_ne_panic ?_ (fun _ _ => pure_ne_panic)
  exact bind_ne_panic (unwrap_ne_panic (hkeyed.payable key (orErr_eq_ok.mp hkey))) (fun _ _ => pure_ne_panic)

theorem plain_of_getUserBackupAddress (hkit : Dependable kit) {network address : String}
    (h : getUserBackupAddress kit.toSetup coin network = .ok address) : Plain kit address := by
  simp only [getUserBackupAddress, bind_eq_ok, pure_eq_ok] at h
  obtain ⟨_, -, _, -, script, hscript, rfl⟩ := h
  exact hkit.address _ script _ hscript

theorem calm_scriptListUnspent (script : Library.XOnlyCurve.Bytes) :
    Calm kit (fun _ => True) (scriptListUnspent script : Operation F (List Unspent)) :=
  assures_ask_bind (Call.sending (.scriptListUnspent script)) _ trivial
    (fun _ _ => assures_lift_of_ne anyhow_ne_panic fun _ _ => trivial)

theorem calm_blockHeadersSubscribeRaw :
    Calm kit (fun _ => True) (send blockHeadersSubscribeRaw : Operation F UInt64) :=
  assures_send (assures_ask_bind Transaction.Call.blockHeadersSubscribeRaw _ trivial
    (fun _ _ => assures_lift_of_ne anyhow_ne_panic fun _ _ => trivial))

theorem findDeposit_ne_panic (hwhole : Whole kit coin) (unspents : List Unspent) :
    findDeposit coin unspents ≠ .error .panic := by
  cases unspents with
  | nil => exact nofun
  | cons unspent unspents => exact bind_ne_panic (unwrap_ne_panic hwhole.amount) (fun _ _ => pure_ne_panic)

theorem calm_checkTransfer [DecidableEq E] : Calm kit (fun _ => True) (checkTransfer kit coin) := by
  refine assures_bind_of_ne orFail_ne_panic (fun statechainId _ => ?_)
  have hinfo : Calm kit (fun _ => True)
      (getStatechainInfo statechainId : Operation F (Option StatechainInfoResponsePayload)) := by
    refine assures_ask_bind (Call.statechainInfo statechainId) _ trivial (fun reply _ => ?_)
    refine assures_bind_of_ne anyhow_ne_panic (fun response _ => ?_)
    split_ifs
    · exact assures_pure trivial
    · split
      · exact assures_pure trivial
      · exact assures_lift_of_ne nofun (fun _ _ => trivial)
  refine assures_bind hinfo (fun info _ => ?_)
  cases info with
  | none => exact assures_pure trivial
  | some info =>
    refine assures_bind_of_ne ?_ (fun _ _ => assures_pure trivial)
    refine bind_ne_panic orErr_ne_panic (fun _ _ => ?_)
    refine bind_ne_panic orErr_ne_panic (fun _ _ => ?_)
    refine bind_ne_panic orErr_ne_panic (fun _ _ => ?_)
    refine bind_ne_panic orErr_ne_panic (fun _ _ => ?_)
    exact bind_ne_panic orErr_ne_panic (fun _ _ => pure_ne_panic)

theorem calm_checkWithdrawal : Calm kit (fun _ => True) (checkWithdrawal kit coin) := by
  refine assures_bind_of_ne ?_ (fun txid _ => ?_)
  · unfold withdrawalTxid
    split <;> exact nofun
  refine assures_bind_of_ne orFail_ne_panic (fun address _ => ?_)
  refine assures_bind_of_ne orFail_ne_panic (fun script _ => ?_)
  refine assures_bind (calm_scriptListUnspent script) (fun utxoList _ => ?_)
  split
  · exact assures_pure trivial
  · split_ifs
    · exact assures_bind calm_blockHeadersSubscribeRaw (fun _ _ => assures_pure trivial)
    · exact assures_pure trivial

theorem calm_duplicatesFor {existingCoins coins : List Coin} (hsane : AllSane kit coins) (hmem : coins ⊆ existingCoins) :
    Calm kit (fun _ => True) (duplicatesFor kit existingCoins coins) := by
  induction coins with
  | nil => exact assures_pure trivial
  | cons coin coins ih =>
    obtain ⟨hcoin, hcoins⟩ := List.forall_mem_cons.mp hsane
    obtain ⟨hfirst, hrest⟩ := List.cons_subset.mp hmem
    rw [duplicatesFor]
    split_ifs with hstatus
    · have hwhole : Whole kit coin := by
        refine hcoin.whole (fun hnew => ?_)
        rw [hnew] at hstatus
        exact absurd hstatus (by decide)
      have hindex : maxDuplicatedIndex existingCoins coin ≠ none := by
        intro hnone
        have hempty := List.map_eq_nil_iff.mp (List.max?_eq_none_iff.mp hnone)
        exact absurd (List.mem_filter.mpr ⟨hfirst, by simp⟩) (List.eq_nil_iff_forall_not_mem.mp hempty coin)
      refine assures_bind_of_ne (unwrap_ne_panic hwhole.aggregatedAddress) (fun address _ => ?_)
      refine assures_bind_of_ne orFail_ne_panic (fun script _ => ?_)
      refine assures_bind (calm_scriptListUnspent script) (fun utxoList _ => ?_)
      refine assures_bind_of_ne (unwrap_ne_panic hindex) (fun index _ => ?_)
      exact assures_bind (ih hcoins hrest) (fun _ _ => assures_pure trivial)
    · exact ih hcoins hrest

variable [Mul F] [NatCast F]

theorem calm_newTransaction (hkit : Dependable kit) (hkeyed : Keyed kit coin) (hwhole : Whole kit coin)
    (htxid : coin.utxoTxid ≠ none) (hvout : coin.utxoVout ≠ none) {toAddress : String}
    (haddress : Plain kit toAddress) (qtBackupTx : UInt32) (withdrawal : Option (ℕ × ℕ)) (blockHeight : Option UInt32)
    (network : String) (feeRate : F) (initlock interval : UInt32) :
    CalmAction kit (fun r => ∃ coinNonce serverPublicNonce, r.1 = withNonces coin coinNonce serverPublicNonce)
      (newTransaction kit.toSetup coin toAddress qtBackupTx withdrawal blockHeight network feeRate initlock
        interval) := by
  refine assures_bind (calm_createAndCommitNonces hkeyed hwhole) (fun coinNonce hdrawn => ?_)
  refine assures_bind (calm_signFirst _) (fun serverPublicNonce _ => ?_)
  refine assures_bind (calm_blockHeightOr blockHeight) (fun height _ => ?_)
  refine assures_bind_of_ne (getPartialSigRequest_ne_panic hkit hkeyed hwhole hdrawn htxid hvout
    haddress _ _ _ _ _ _ _) (fun request hrequest => ?_)
  obtain ⟨session, hsession⟩ := session_of_getPartialSigRequest hrequest
  refine assures_bind (calm_signSecond _) (fun serverPartialSig _ => ?_)
  rw [hsession]
  refine assures_bind_of_ne (createSignature_ne_panic hkit _ _ _ session _)
    (fun signature hsignature => ?_)
  refine assures_bind_of_ne (newBackupTransaction_ne_panic hkit _ hsignature) (fun signedTx _ => ?_)
  exact assures_pure ⟨coinNonce, serverPublicNonce, rfl⟩

variable [LT F] [DecidableLT F]

theorem calm_createTx1 (hkit : Dependable kit) (hkeyed : Keyed kit coin) (hwhole : Whole kit coin)
    (htxid : coin.utxoTxid ≠ none) (hvout : coin.utxoVout ≠ none) (network : String) (txN : UInt32) :
    CalmAction kit (fun r => unsigned r.1 = unsigned coin) (createTx1 kit.toSetup coin network txN) := by
  refine assures_bind_of_ne (getUserBackupAddress_ne_panic hkeyed network) (fun address haddress => ?_)
  have hinfo : CalmAction kit (fun _ => True) (infoConfig : Action F (InfoConfig F)) :=
    assures_ask_bind Transaction.Call.infoConfig _ trivial
      (fun _ _ => assures_lift_of_ne anyhow_ne_panic fun _ _ => trivial)
  refine assures_bind hinfo (fun serverInfo _ => ?_)
  refine assures_bind (calm_newTransaction hkit hkeyed hwhole htxid hvout
    (plain_of_getUserBackupAddress hkit haddress) _ _ _ _ _ _ _) (fun r hr => ?_)
  obtain ⟨coinNonce, serverPublicNonce, hr⟩ := hr
  refine assures_bind_of_ne failIf_ne_panic (fun _ _ => ?_)
  refine assures_bind_of_ne failIf_ne_panic (fun _ _ => ?_)
  refine assures_bind_of_ne failIf_ne_panic (fun _ _ => ?_)
  refine assures_bind_of_ne ?_ (fun backupTx _ => ?_)
  · rw [hr]
    refine bind_ne_panic (unwrap_ne_panic (Option.some_ne_none _)) (fun _ _ => ?_)
    refine bind_ne_panic (unwrap_ne_panic (Option.some_ne_none _)) (fun _ _ => ?_)
    refine bind_ne_panic (unwrap_ne_panic hwhole.serverPubkey) (fun _ _ => ?_)
    exact bind_ne_panic (unwrap_ne_panic (Option.some_ne_none _)) (fun _ _ => pure_ne_panic)
  · refine assures_bind_of_ne getBlockheight_ne_panic (fun blockHeight _ => assures_pure ?_)
    rw [hr]
    rfl

theorem calm_recordDeposit (hkit : Dependable kit) (hsane : Sane kit coin) (hwhole : Whole kit coin)
    (network : String) (utxo : Unspent) :
    Calm kit (fun r => r.1.statechainId ≠ none) (recordDeposit kit coin network utxo) := by
  unfold recordDeposit
  split_ifs
  · have hfound : Sane kit { coin with
        utxoTxid := some utxo.txHash, utxoVout := some utxo.txPos.toUInt32, status := .inMempool } :=
      sane_of_whole { hsane.keyed with } { hwhole with }
    have htx1 := calm_createTx1 hkit hfound.keyed (hfound.whole nofun) (Option.some_ne_none _) (Option.some_ne_none _)
      network 1
    refine assures_bind (assures_send htx1) (fun r hr => ?_)
    refine assures_ask_bind (Call.sending .utcNow) _ trivial (fun date _ => assures_pure ?_)
    have hid : r.1.statechainId = coin.statechainId := congrArg Prod.fst (sameCoin_of_unsigned hr).funding
    rw [hid]
    exact hwhole.statechainId
  · exact assures_pure hwhole.statechainId

/-- A statechain that the coin has an address for, if it has one at all. -/
def Addressed (coin : Coin) : Prop := coin.statechainId ≠ none → coin.aggregatedAddress ≠ none

theorem calm_checkDeposit (hkit : Dependable kit) (hsane : Sane kit coin) (haddressed : Addressed coin)
    (network : String) :
    Calm kit (fun r => r.2 ≠ none → r.1.statechainId ≠ none) (checkDeposit kit coin network) := by
  unfold checkDeposit
  split_ifs with hbare
  · refine assures_bind_of_ne failIf_ne_panic (fun _ _ => ?_)
    exact assures_pure (fun h => absurd rfl h)
  · have hwhole : Whole kit coin := by
      obtain hunfinished | hwhole := hsane.formed
      · refine absurd ⟨?_, hunfinished.utxoTxid, hunfinished.utxoVout⟩ hbare
        by_contra hid
        exact haddressed hid hunfinished.unfinished.2
      · exact hwhole
    refine assures_bind_of_ne (unwrap_ne_panic hwhole.aggregatedAddress) (fun address _ => ?_)
    refine assures_bind_of_ne orFail_ne_panic (fun script _ => ?_)
    refine assures_bind (calm_scriptListUnspent script) (fun utxoList _ => ?_)
    refine assures_bind_of_ne (findDeposit_ne_panic hwhole utxoList) (fun utxo _ => ?_)
    cases utxo with
    | none => exact assures_pure (fun h => absurd rfl h)
    | some utxo =>
      dsimp only
      split_ifs
      · exact assures_pure (fun h => absurd rfl h)
      · refine assures_bind calm_blockHeadersSubscribeRaw (fun blockheight _ => ?_)
        refine assures_bind (calm_recordDeposit hkit hsane hwhole network utxo) (fun r hr => ?_)
        exact assures_pure (fun _ => hr)

variable [DecidableEq E]

theorem calm_updateCoin (hkit : Dependable kit) (hsane : Sane kit coin) (haddressed : Addressed coin)
    (walletName network : String) : Calm kit (fun _ => True) (updateCoin kit walletName network coin) := by
  have hdeposit : Calm kit (fun _ => True) (updateDeposit kit walletName network coin) := by
    refine assures_bind (calm_checkDeposit hkit hsane haddressed network) (fun r hr => ?_)
    obtain ⟨new, depositResult⟩ := r
    cases depositResult with
    | none => exact assures_pure trivial
    | some depositResult =>
      refine assures_bind_of_ne (unwrap_ne_panic (hr (Option.some_ne_none _))) (fun id _ => ?_)
      refine assures_bind (assures_ask_bind (Call.insertBackupTxs walletName id _) _ trivial
        (fun _ _ => assures_lift_of_ne anyhow_ne_panic fun _ _ => trivial))
        (fun _ (_ : True) => assures_pure trivial)
  unfold updateCoin
  cases coin.status with
  | initialised => exact hdeposit
  | inMempool => exact hdeposit
  | unconfirmed => exact hdeposit
  | inTransfer => exact assures_bind calm_checkTransfer (fun _ _ => assures_pure trivial)
  | withdrawing => exact assures_bind calm_checkWithdrawal (fun _ _ => assures_pure trivial)
  | confirmed => exact assures_pure trivial
  | transferred => exact assures_pure trivial
  | withdrawn => exact assures_pure trivial
  | duplicated => exact assures_pure trivial
  | invalidated => exact assures_pure trivial

theorem calm_updateEach (hkit : Dependable kit) {coins : List Coin} (hsane : AllSane kit coins)
    (haddressed : ∀ coin ∈ coins, Addressed coin) (walletName network : String) :
    Calm kit (fun _ => True) (updateEach kit walletName network coins) := by
  induction coins with
  | nil => exact assures_pure trivial
  | cons coin coins ih =>
    obtain ⟨hcoin, hcoins⟩ := List.forall_mem_cons.mp hsane
    obtain ⟨hfirst, hrest⟩ := List.forall_mem_cons.mp haddressed
    refine assures_bind (calm_updateCoin hkit hcoin hfirst walletName network) (fun _ _ => ?_)
    exact assures_bind (ih hcoins hrest) (fun _ _ => assures_pure trivial)

end Calm

section Survival

variable [DecidableEq E] [Mul F] [NatCast F] [LT F] [DecidableLT F]

/-- The loops of `update_coins` go past the coin to the others. -/
structure PassedOver (kit : Kit E K F) (coin : Coin) : Prop where
  updated : ∀ walletName network coins, updateEach kit walletName network (coin :: coins) = do
    let (coins, activities) ← updateEach kit walletName network coins
    return (coin :: coins, activities)
  duplicated : ∀ existingCoins coins,
    duplicatesFor kit existingCoins (coin :: coins) = duplicatesFor kit existingCoins coins

/-- `update_coins` does not panic, and no coin that has been left half-initialised keeps it from the
others. -/
structure Survives (kit : Kit E K F) (wallets : Wallets) (walletName : String) : Prop where
  calm : ∀ choices : ℕ → Oracle F, (∀ i c, Civil kit c ((choices i).answer c)) →
    ∃ r, (exec handle (updateCoins kit walletName).run choices wallets).1 = some r ∧ r ≠ .error .panic
  passedOver : ∀ wallet, wallets.get walletName = some wallet → ∀ coin ∈ wallet.coins, IsUnfinished coin →
    PassedOver kit coin

omit [DecidableEq E] [Mul F] [NatCast F] [LT F] [DecidableLT F] in
theorem exec_getWallet_bind {α : Type} {walletName : String} {f : Wallet → Operation F α} {choices : ℕ → Oracle F}
    {wallets : Wallets} :
    exec handle (getWallet walletName >>= f).run choices wallets =
      match System.selectRow (choices 0).fault (wallets.get walletName) with
      | .ok wallet => exec handle (f wallet).run (fun i => choices (i + 1)) wallets
      | .error text => (some (.error (.anyhow text)), wallets) := by
  change exec handle (liftM (anyhow (System.selectRow (choices 0).fault (wallets.get walletName))) >>= f :
    Operation F α).run (fun i => choices (i + 1)) wallets = _
  cases System.selectRow (choices 0).fault (wallets.get walletName) <;> rfl

theorem calm_of_addressed (hkit : Dependable kit) {wallets : Wallets} {walletName : String}
    (hsane : AllWallets (SaneWallet kit) wallets)
    (h : ∀ wallet, wallets.get walletName = some wallet → ∀ coin ∈ wallet.coins, Addressed coin)
    {choices : ℕ → Oracle F} (hcivil : ∀ i c, Civil kit c ((choices i).answer c)) :
    ∃ r, (exec handle (updateCoins kit walletName).run choices wallets).1 = some r ∧ r ≠ .error .panic := by
  rw [updateCoins, exec_getWallet_bind]
  cases hrow : System.selectRow (choices 0).fault (wallets.get walletName) with
  | error text => exact ⟨_, rfl, nofun⟩
  | ok wallet =>
    have hget := System.selectRow_eq_ok hrow
    have hwallet := hsane walletName wallet hget
    have hcalm : Calm kit (fun _ => True) (do
        let (coins, activities) ← updateEach kit wallet.name wallet.network wallet.coins
        let duplicatedCoins ← checkForDuplicated kit coins
        updateWallet { wallet with
          coins := invalidateDuplicated (coins ++ duplicatedCoins), activities := wallet.activities ++ activities }) := by
      refine assures_bind (assures_and_yields (calm_updateEach hkit hwallet (h wallet hget) _ _)
        (yields_updateEach_sane hwallet _ _)) (fun r hr => ?_)
      refine assures_bind (calm_duplicatesFor hr.2 (List.Subset.refl _)) (fun duplicatedCoins _ => ?_)
      exact assures_ask_bind (Call.sending (.updateWallet _)) _ trivial
        (fun _ _ => assures_lift_of_ne anyhow_ne_panic fun _ _ => trivial)
    have hreplies : ∀ i c wallets, Civil kit c (handle (choices (i + 1)) c wallets).1 := by
      intro i c wallets
      obtain hoff | ⟨walletName, rfl⟩ | ⟨wallet, rfl⟩ := call_cases c
      · rw [handle_offWallet _ c wallets hoff]
        exact hcivil (i + 1) c
      · trivial
      · trivial
    obtain ⟨r, hr, hpost⟩ : ∃ r, (exec handle _ (fun i => choices (i + 1)) wallets).1 = some r ∧ _ :=
      Relies.exec hcalm (admits_of_replies hreplies)
    refine ⟨r, hr, ?_⟩
    cases r with
    | ok a => exact nofun
    | error e => exact fun hpanic => hpost (Except.error.inj hpanic)

theorem passedOver_of_bare {coin : Coin} (hbare : Bare coin) (hid : coin.statechainId = none) :
    PassedOver kit coin := by
  obtain ⟨⟨hstatus, -⟩, htxid, hvout⟩ := hbare
  constructor
  · intro walletName network coins
    have hcoin : updateCoin kit walletName network coin = pure (coin, []) := by
      unfold updateCoin updateDeposit checkDeposit
      simp only [hstatus, hid, htxid, hvout, and_self, if_true, ne_eq, not_true_eq_false]
      rfl
    rw [updateEach, hcoin, pure_bind]
    rfl
  · intro existingCoins coins
    rw [duplicatesFor, if_neg]
    rw [hstatus]
    decide

/-- A coin that the server knows and that has no address stops the loop. -/
theorem updateEach_of_unaddressed {coin : Coin} (hstatus : coin.status = .initialised)
    (hid : coin.statechainId ≠ none) (haddress : coin.aggregatedAddress = none) (walletName network : String)
    (coins : List Coin) :
    updateEach kit walletName network (coin :: coins) = liftM (Except.error .panic : Res (List Coin × List Activity)) := by
  have hcoin : updateCoin kit walletName network coin = liftM (Except.error .panic : Res (Coin × List Activity)) := by
    unfold updateCoin updateDeposit checkDeposit
    simp only [hstatus, hid, haddress, false_and, if_false]
    rfl
  rw [updateEach, hcoin]
  rfl

variable [Add F] [Sub F] [Div F]

/-- Whatever operations have been cut off, `update_coins` survives on the file as long as no coin is known
to the server without having an address. -/
theorem update_survives_iff (hkit : Dependable kit) {wallets : Wallets} (h : OnDisk kit wallets)
    (walletName : String) :
    Survives kit wallets walletName ↔
      ∀ wallet, wallets.get walletName = some wallet → ∀ coin ∈ wallet.coins, Addressed coin := by
  have hsane := sane_of_onDisk hkit.toKeyLaws h
  constructor
  · intro hsurvives wallet hwallet coin hcoin hid haddress
    have hbare : Bare coin := by
      obtain hbare | hwhole := (hsane walletName wallet hwallet coin hcoin).formed
      · exact hbare
      · exact absurd haddress hwhole.aggregatedAddress
    have hpassed := (hsurvives.passedOver wallet hwallet coin hcoin hbare.unfinished).updated "" "" []
    rw [updateEach_of_unaddressed hbare.unfinished.1 hid haddress] at hpassed
    cases congrArg ExceptT.run hpassed
  · intro haddressed
    refine ⟨fun choices hcivil => calm_of_addressed hkit hsane haddressed hcivil, ?_⟩
    intro wallet hwallet coin hcoin hunfinished
    have hid : coin.statechainId = none := by
      by_contra hid
      exact haddressed wallet hwallet coin hcoin hid hunfinished.2
    obtain hbare | hwhole := (hsane walletName wallet hwallet coin hcoin).formed
    · exact passedOver_of_bare hbare hid
    · exact absurd hid hwhole.statechainId

end Survival

section Seven

open Client.LocktimeGuard Client.Withdraw Library.XOnlyCurve Musig.Cosign Musig.Session

def depositKit : Kit (Point (ZMod 7)) (ZMod 7) ℕ where
  toSetup := { sevenSetup with
    newMusigNoncePair := fun _ _ _ => .ok
      (hexCodec.encode (seven.secnonceBytes.encode ⟨1, 1, seven.publicKey 2⟩),
        seven.nonceText (seven.publicKey 1, seven.publicKey 1)) }
  ecies := sevenKit.ecies
  derivation :=
    { generateNewKey := fun _ _ path change index => .ok ⟨2, seven.publicKey 2, "", path, change, index⟩
      toWif := fun k _ => seven.wif.encode k
      xOnlyToStr := fun _ => ""
      encodeScAddress := fun _ _ _ => .ok "" }
  parseUuid := some
  createTransaction := sevenKit.createTransaction

theorem keyLaws_depositKit : KeyLaws depositKit where
  wif k k' network h := by
    obtain ⟨h, -⟩ := Option.filter_eq_some_iff.mp h
    exact (Option.some.inj ((seven.wif.decode_encode k).symm.trans h)).symm
  text key := seven.publicKeyFromStr_toStr key
  derived walletName network path change index keyData h := by
    cases Except.ok.inj h
    rfl

theorem dependable_depositKit : Dependable depositKit where
  toKeyLaws := keyLaws_depositKit
  address key script network _ := by
    change sevenSetup.isAddress "address" = true ∧ isTransferAddress "address" = false
    decide
  tweak := by
    unfold Payable
    decide
  nonce sessionId k secretNonce publicNonce h := by
    cases Except.ok.inj h
    decide
  ownSignature sessionId k secretNonce publicNonce secNonce pubNonce output parity session signature h hsec hpub hsign := by
    cases Except.ok.inj h
    have hsec : (⟨1, 1, seven.publicKey 2⟩ : SecNonce (Point (ZMod 7)) (ZMod 7)) = secNonce := by
      simpa [depositKit, sevenSetup, Params.musig] using hsec
    have hpub : (seven.publicKey 1, seven.publicKey 1) = pubNonce := by
      simpa [depositKit, sevenSetup] using hpub
    subst hsec hpub
    exact partialSigVerify_of_partialSign (by decide) (by decide) hsign
  session session := by
    simp [depositKit, sevenSetup, Params.musig]
  signature signature h := by
    cases (hexCodec.decode_encode (seven.signatureBytes.encode signature)).symm.trans h

/-- A statechain entity that grants a deposit. -/
def serving : (c : Call ℕ) → Reply c
  | .depositInit _ => (.ok (some ⟨200, .fields [("server_pubkey", .text (seven.secp.publicKeyToStr (seven.publicKey 3))),
      ("statechain_id", .text "statechain")]⟩) : Transaction.Response)
  | c => granting c

/-- What is in the file after so many calls of a deposit. -/
def leftAfter (count : ℕ) (wallets : Wallets) : Wallets :=
  ((trail handle (program depositKit (.getDepositBitcoinAddress "wallet" "token" 1000)) (fun _ => ⟨.ok, serving⟩)
    wallets)[count]?).getD wallets

theorem onDisk_leftAfter (count : ℕ) {wallets : Wallets} (h : OnDisk depositKit wallets) :
    OnDisk depositKit (leftAfter count wallets) := by
  unfold leftAfter
  cases hcut : (trail handle (program depositKit (.getDepositBitcoinAddress "wallet" "token" 1000))
      (fun _ => ⟨.ok, serving⟩) wallets)[count]? with
  | none => exact h
  | some wallets' => exact .cutOff _ _ h (List.mem_of_getElem? hcut)

theorem onDisk_empty : OnDisk depositKit (walletsOf []) := by
  refine .start (fun walletName wallet hwallet => ?_)
  cases List.mem_singleton.mp (Library.Tables.Table.get_eq_some.mp hwallet).1
  rfl

/-- After a deposit, and another one that was cut off behind its first save. -/
def depositedOnce : Wallets := leftAfter 2 (leftAfter 5 (walletsOf []))

theorem update_survives_seven :
    (depositedOnce.get "wallet").map
        (fun wallet => wallet.coins.map (fun coin => (coin.statechainId, coin.aggregatedAddress))) =
      some [(some "statechain", some "address"), (none, none)] ∧ Survives depositKit depositedOnce "wallet" := by
  have hcoins : (depositedOnce.get "wallet").map
      (fun wallet => wallet.coins.map (fun coin => (coin.statechainId, coin.aggregatedAddress))) =
        some [(some "statechain", some "address"), (none, none)] := by
    decide +kernel
  have honDisk : OnDisk depositKit depositedOnce := onDisk_leftAfter 2 (onDisk_leftAfter 5 onDisk_empty)
  refine ⟨hcoins, (update_survives_iff dependable_depositKit honDisk "wallet").mpr ?_⟩
  intro wallet hwallet coin hcoin hid
  rw [hwallet] at hcoins
  have hmem : (coin.statechainId, coin.aggregatedAddress) ∈ [(some "statechain", some "address"), (none, none)] := by
    rw [← Option.some.inj hcoins]
    exact List.mem_map_of_mem hcoin
  obtain hpair | hpair := List.mem_pair.mp hmem
  · have haddress : coin.aggregatedAddress = some "address" := congrArg Prod.snd hpair
    rw [haddress]
    exact Option.some_ne_none _
  · exact absurd (congrArg Prod.fst hpair) hid

theorem civil_serving (c : Call ℕ) : Civil depositKit c (serving c) := by
  cases c with
  | sending c =>
    cases c with
    | signFirst payload =>
      intro answer hanswer hstatus
      cases Except.ok.inj hanswer
      exact absurd rfl hstatus
    | drawNonce =>
      intro f hf output nonces hash tweak
      cases Except.ok.inj ((seven.blindingFactorFromStr_secretHex 2).symm.trans hf)
      exact Option.some_ne_none _
    | _ => trivial
  | _ => trivial

/-- A deposit that is cut off between its last two saves makes `update_coins` panic, so that the deposit
before it is not seen either. -/
theorem cut_off_deposit_seven :
    Dependable depositKit ∧ OnDisk depositKit (leftAfter 4 (leftAfter 5 (walletsOf []))) ∧
      ¬Survives depositKit (leftAfter 4 (leftAfter 5 (walletsOf []))) "wallet" := by
  refine ⟨dependable_depositKit, onDisk_leftAfter 4 (onDisk_leftAfter 5 onDisk_empty), fun h => ?_⟩
  have hpanic : (exec handle (updateCoins depositKit "wallet").run (fun _ => ⟨.ok, serving⟩)
      (leftAfter 4 (leftAfter 5 (walletsOf [])))).1 = some (.error .panic) := by
    decide +kernel
  obtain ⟨r, hr, hne⟩ := h.calm (fun _ => ⟨.ok, serving⟩) (fun _ => civil_serving)
  exact hne (Option.some.inj (hr.symm.trans hpanic))

end Seven

end MercuryLayer.Client.Interruptions
