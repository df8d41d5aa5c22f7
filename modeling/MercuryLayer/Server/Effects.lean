import MercuryLayer.Lockbox.KeyUpdate
import MercuryLayer.Server.Unlock

namespace MercuryLayer.Server.Effects

open Crates Library.Programs Library.Tables Library.XOnlyCurve Lockbox.Enclave Lockbox.Server
open Lockbox.KeyUpdate (namesField)
open Receiver Sender Server.Database Server.System Server.Transfer Server.Unlock

variable {n : ℕ} {E : Type} [AddCommGroup E] [Module (ZMod n) E] [DecidableEq E]
variable (enclave : Keyring n E) (batchTimeout : ℕ)

def batchTransferResult (w : World E) (statechainId : String) (newBatchId : Option String) :
    BatchValidationResult :=
  match w.db.batchIdAndTimeOf statechainId with
  | some (batchId, batchTime) =>
    if batchTime + seconds batchTimeout < w.now then
      if newBatchId = some batchId then .expiredBatchTimeError "Batch time has expired. Try a new batch id."
      else .success
    else if w.db.isAllCoinsUnlocked batchId then .success
    else .statecoinBatchLockedError "Statecoin batch locked (the batch time has not expired)."
  | none =>
    match newBatchId with
    | some newBatchId =>
      match (w.db.batchTimeOf newBatchId).join with
      | some batchTime =>
        if batchTime + seconds batchTimeout < w.now then
          .expiredBatchTimeError "Batch time has expired. Try a new batch id."
        else .success
      | none => .success
    | none => .success

def batchResult (w : World E) (statechainId : String) : BatchValidationResult :=
  match w.db.batchIdAndTimeOf statechainId with
  | some (batchId, batchTime) =>
    if batchTime + seconds batchTimeout < w.now then .expiredBatchTimeError "Batch time has expired"
    else if w.db.isAllCoinsUnlocked batchId then .success
    else .statecoinBatchLockedError "Statecoin batch is locked"
  | none => .success

variable {enclave batchTimeout} {w : World E}

theorem returns_validateBatch (id : String) :
    Returns enclave (validateBatch batchTimeout id) w (batchResult batchTimeout w id) := by
  refine (returns_getBatchIdAndTimeByStatechainId id).bind ?_
  unfold batchResult
  cases w.db.batchIdAndTimeOf id with
  | none => exact returns_ret _
  | some batch =>
    refine (returns_isBatchExpired batchTimeout batch.2).bind ?_
    by_cases hexp : batch.2 + seconds batchTimeout < w.now
    · simp only [hexp, decide_true, if_true]
      exact returns_ret _
    · simp only [hexp, decide_false, if_false, Bool.false_eq_true]
      refine (returns_isAllCoinsUnlocked batch.1).bind ?_
      cases w.db.isAllCoinsUnlocked batch.1 <;> exact returns_ret _

theorem returns_validateBatchTransfer (id : String) (newBatchId : Option String) :
    Returns enclave (validateBatchTransfer batchTimeout id newBatchId) w
      (batchTransferResult batchTimeout w id newBatchId) := by
  refine (returns_getBatchIdAndTimeByStatechainId id).bind ?_
  unfold batchTransferResult
  cases w.db.batchIdAndTimeOf id with
  | some batch =>
    refine (returns_isBatchExpired batchTimeout batch.2).bind ?_
    by_cases hexp : batch.2 + seconds batchTimeout < w.now
    · simp only [hexp, decide_true, if_true]
      split_ifs <;> exact returns_ret _
    · simp only [hexp, decide_false, if_false, Bool.false_eq_true]
      refine (returns_isAllCoinsUnlocked batch.1).bind ?_
      cases w.db.isAllCoinsUnlocked batch.1 <;> exact returns_ret _
  | none =>
    cases newBatchId with
    | none => exact returns_ret _
    | some newBatchId =>
      refine (returns_getBatchTimeByBatchId newBatchId).bind ?_
      dsimp only
      cases (w.db.batchTimeOf newBatchId).join with
      | none => exact returns_ret _
      | some batchTime =>
        refine (returns_isBatchExpired batchTimeout batchTime).bind ?_
        by_cases hexp : batchTime + seconds batchTimeout < w.now
        · simp only [hexp, decide_true, if_true]
          exact returns_ret _
        · simp only [hexp, decide_false, if_false, Bool.false_eq_true]
          exact returns_ret _

/-- The time that `insert_new_transfer` gives to a batch: that of a row of the batch that is still locked, or
else the present. -/
def joiningTime (w : World E) (batchId : String) : ℕ := (w.db.batchTimeOf batchId).join.getD w.now

/-- What `/transfer/sender` can do: nothing, or with the owner's signature a new row takes the
place of the old one. -/
inductive SenderEffect (enclave : Keyring n E) (batchTimeout : ℕ) (w : World E)
    (payload : TransferSenderRequestPayload) (w' : World E) : Prop
  | same (h : w' = w)
  | sent (newUserAuthKey : Point E) (x1 : { k : ZMod n // k ≠ 0 }) (batch : Option (String × ℕ × Bool))
      (hsigned : SignedByOwner enclave.params.secp w.db payload.authSig payload.statechainId)
      (hkey : enclave.params.secp.publicKeyFromStr payload.newUserAuthKey = some newUserAuthKey)
      (hbatch : batch.map Prod.fst = payload.batchId)
      (hadmitted : batchTransferResult batchTimeout w payload.statechainId payload.batchId = .success)
      (hfresh : w.db.existsMsg payload.statechainId newUserAuthKey payload.batchId = false)
      (h : w' =
        { w with
          db := w.db.insertNewTransfer payload.statechainId w.now newUserAuthKey (enclave.params.getB32 x1) batch })
      (htime : batch.map (fun b => b.2.1) = payload.batchId.map (joiningTime w))

theorem wp_insertNewTransfer {newUserAuthKey : Point E} {x1 : Bytes} {id : String} {batchId : Option String}
    {post : Option Unit → World E → Prop} (hnone : post none w)
    (hdone : ∀ batch, batch.map Prod.fst = batchId → batch.map (fun b => b.2.1) = batchId.map (joiningTime w) →
      post none { w with db := w.db.insertNewTransfer id w.now newUserAuthKey x1 batch } ∧
      post (some ()) { w with db := w.db.insertNewTransfer id w.now newUserAuthKey x1 batch }) :
    wp (Database.handle enclave) post (insertNewTransfer newUserAuthKey x1 id batchId) w := by
  cases batchId with
  | none =>
    intro e
    refine wp_unwrap_write hnone (fun db hdb => ?_)
    rw [← Option.some.inj hdb]
    exact hdone none rfl rfl
  | some batchId =>
    have hrest : ∀ batchTime, joiningTime w batchId = batchTime → wp (Database.handle enclave) post (do
        let senderAuthKey ← getAuthKeyByStatechainId id
        let isLightningLatch ← isLightningLatch id senderAuthKey batchId
        .call (.insertNewTransfer newUserAuthKey x1 id (some (batchId, batchTime, isLightningLatch)))
          Prog.unwrap : Endpoint E Unit) w := by
      intro batchTime htime e
      refine wp_read hnone (fun senderAuthKey _ => ?_)
      refine (returns_isLightningLatch id senderAuthKey batchId).andThen hnone ?_
      intro e'
      refine wp_unwrap_write hnone (fun db hdb => ?_)
      rw [← Option.some.inj hdb]
      exact hdone _ rfl (congrArg some htime.symm)
    refine (returns_getBatchTimeByBatchId batchId).andThen hnone ?_
    cases hlocked : (w.db.batchTimeOf batchId).join with
    | some batchTime =>
      refine hrest batchTime ?_
      rw [joiningTime, hlocked, Option.getD_some]
    | none =>
      refine fun _ => hrest w.now ?_
      rw [joiningTime, hlocked, Option.getD_none]

theorem transferSender_effect (payload : TransferSenderRequestPayload) :
    wp (Database.handle enclave) (fun _ w' => SenderEffect enclave batchTimeout w payload w')
      (transferSender enclave.params.secp batchTimeout payload) w := by
  refine wp_validateSignature (.same rfl) (fun data signature hdata hsig => ?_)
  by_cases hv : verifies enclave.params.secp signature payload.statechainId data.authXonlyPublicKey = true
  · have hsigned : SignedByOwner enclave.params.secp w.db payload.authSig payload.statechainId :=
      ⟨data, hdata, signature, hsig, hv⟩
    simp only [hv, if_true]
    refine (returns_validateBatchTransfer payload.statechainId payload.batchId).andThen (.same rfl) ?_
    cases hadmitted : batchTransferResult batchTimeout w payload.statechainId payload.batchId with
    | statecoinBatchLockedError text => exact .same rfl
    | expiredBatchTimeError text => exact .same rfl
    | success =>
      cases hkey : enclave.params.secp.publicKeyFromStr payload.newUserAuthKey with
      | none => exact .same rfl
      | some newUserAuthKey =>
        simp only [Prog.unwrap, Prog.ret_bind]
        refine (returns_existsMsg newUserAuthKey payload.statechainId payload.batchId).andThen (.same rfl) ?_
        cases hfresh : w.db.existsMsg payload.statechainId newUserAuthKey payload.batchId with
        | true => exact .same rfl
        | false =>
          intro e
          change wp (Database.handle enclave) _ (insertNewTransfer newUserAuthKey
            (enclave.params.getB32 e.secret) payload.statechainId payload.batchId >>= _) w
          rw [wp_bind]
          apply wp_insertNewTransfer
          · exact SenderEffect.same rfl
          intro batch hbatch htime
          exact ⟨SenderEffect.sent newUserAuthKey e.secret batch hsigned hkey hbatch hadmitted hfresh rfl htime,
            SenderEffect.sent newUserAuthKey e.secret batch hsigned hkey hbatch hadmitted hfresh rfl htime⟩
  · simp only [hv, if_false, Bool.false_eq_true]
    exact .same rfl

/-- The table of the lockbox after a key update with the `x1` of the row. -/
def keyUpdateResult (enclave : Keyring n E) (payload : TransferReceiverRequestPayload) (x1 : Bytes) (draw : Draw n)
    (table : List (Row E)) : List (Row E) × Outcome :=
  Lockbox.Server.handle enclave draw table (.keyupdate payload.statechainId payload.t2 (Hex.encode x1))

/-- What `/transfer/receiver` can do: nothing, or a key update in the lockbox after every test
passed, and after that perhaps the update of the database. -/
inductive ReceiverEffect (enclave : Keyring n E) (batchTimeout : ℕ) (w : World E)
    (payload : TransferReceiverRequestPayload) (w' : World E) : Prop
  | same (h : w' = w)
  | updated (row : StatechainTransfer (Point E)) (data : StatechainData (Point E)) (table : List (Row E))
      (draw : Draw n) (hbatch : batchResult batchTimeout w payload.statechainId = .success)
      (hrow : w.db.transfers.get payload.statechainId = some row) (hfirst : row.keyUpdated = false)
      (hsigned : SignedBy enclave.params.secp payload.authSig payload.t2
        (enclave.params.secp.xOnly row.newUserAuthPublicKey))
      (hdata : w.db.data.get payload.statechainId = some data)
      (htable : w.enclaves[data.enclaveIndex]? = some table)
      (henclaves : w'.enclaves =
        w.enclaves.set data.enclaveIndex (keyUpdateResult enclave payload row.x1 draw table).1)
      (hnow : w'.now = w.now)
      (hdb : w'.db = w.db ∨ ∃ body serverPubkey,
        httpReply .delivered (keyUpdateResult enclave payload row.x1 draw table).2 = .body body ∧
        serverPubkeyOf enclave.params.secp body = some serverPubkey ∧
        w.db.updateStatechain payload.statechainId (enclave.params.secp.xOnly row.newUserAuthPublicKey)
          serverPubkey = some w'.db)

theorem callLockbox_cases (enclave : Keyring n E) (choice : Choice n) (w : World E) (enclaveIndex : ℕ) (request : Request) :
    (callLockbox enclave choice w enclaveIndex request).2 = w ∧
      (∀ body, (callLockbox enclave choice w enclaveIndex request).1 ≠ .body body) ∨
    ∃ table, w.enclaves[enclaveIndex]? = some table ∧
      callLockbox enclave choice w enclaveIndex request =
        (httpReply choice.link (Lockbox.Server.handle enclave choice.draw table request).2,
          { w with
            enclaves := w.enclaves.set enclaveIndex (Lockbox.Server.handle enclave choice.draw table request).1 }) := by
  cases hlink : choice.link with
  | unreachable text =>
    refine .inl ?_
    simp only [callLockbox, hlink]
    exact ⟨trivial, fun body h => nomatch h⟩
  | delivered | lost text | cut =>
    cases htable : w.enclaves[enclaveIndex]? with
    | none =>
      refine .inl ?_
      simp only [callLockbox, hlink, htable]
      exact ⟨trivial, fun body h => nomatch h⟩
    | some table =>
      refine .inr ⟨table, rfl, ?_⟩
      simp only [callLockbox, hlink, htable]

omit [Module (ZMod n) E] [DecidableEq E] in
theorem set_of_getElem? {index : ℕ} {table : List (Row E)} (h : w.enclaves[index]? = some table) :
    w.enclaves.set index table = w.enclaves := by
  obtain ⟨hlt, rfl⟩ := List.getElem?_eq_some_iff.mp h
  exact List.set_getElem_self hlt

theorem httpReply_delivered {link : Link} {outcome : Lockbox.Server.Outcome} {body : Body}
    (h : httpReply link outcome = .body body) : httpReply .delivered outcome = .body body := by
  cases outcome with
  | answered response => cases link <;> first | exact h | cases h
  | stopped abort =>
    cases abort with
    | runtimeError text => cases link <;> first | exact h | cases h
    | assertFailed => cases h
    | nullPointer => cases h

theorem serverPubkeyOf_success (P : Point E) :
    serverPubkeyOf enclave.params.secp (.field "server_pubkey" (keyToString (enclave.params.pubkeyBytes.encode P))) =
      some P := by
  simp only [serverPubkeyOf, keyToString, String.toList_ofList]
  exact enclave.params.publicKeyFromStr_toStr P

theorem serverPubkeyOf_of_namesField {outcome : Lockbox.Server.Outcome} {body : Body}
    (h : namesField outcome = false) (hdelivered : httpReply .delivered outcome = .body body) :
    serverPubkeyOf enclave.params.secp body = none := by
  cases outcome with
  | answered response =>
    obtain ⟨code, text⟩ := response
    cases hdelivered
    cases text with
    | empty => rfl
    | text message => rfl
    | field name value => cases h
  | stopped abort =>
    cases abort with
    | runtimeError text =>
      cases hdelivered
      rfl
    | assertFailed => cases hdelivered
    | nullPointer => cases hdelivered

theorem updateKey_effect {payload : TransferReceiverRequestPayload} {row : StatechainTransfer (Point E)}
    (hbatch : batchResult batchTimeout w payload.statechainId = .success)
    (hrow : w.db.transfers.get payload.statechainId = some row) (hfirst : row.keyUpdated = false)
    (hsigned : SignedBy enclave.params.secp payload.authSig payload.t2
      (enclave.params.secp.xOnly row.newUserAuthPublicKey)) :
    wp (Database.handle enclave) (fun _ w' => ReceiverEffect enclave batchTimeout w payload w')
      (updateKey enclave.params.secp payload (enclave.params.secp.xOnly row.newUserAuthPublicKey) row.x1) w := by
  intro e
  refine wp_read (.same rfl) (fun index hindex => ?_)
  rw [Option.some.injEq] at hindex
  subst hindex
  cases hdata : w.db.data.get payload.statechainId with
  | none => exact .same rfl
  | some data =>
    simp only [Option.map_some]
    intro e'
    have hcases := callLockbox_cases enclave e' w data.enclaveIndex
      (.keyupdate payload.statechainId payload.t2 (Hex.encode row.x1))
    simp only [Database.handle]
    rcases hcases with ⟨hsame, hbody⟩ | ⟨table, htable, hcall⟩
    · rw [hsame]
      cases hreply : (callLockbox enclave e' w data.enclaveIndex
          (.keyupdate payload.statechainId payload.t2 (Hex.encode row.x1))).1 with
      | failed text => exact .same rfl
      | unreadable => exact .same rfl
      | body body => exact absurd hreply (hbody body)
    · rw [hcall]
      have hlost : ReceiverEffect enclave batchTimeout w payload
          { w with
            enclaves := w.enclaves.set data.enclaveIndex
              (keyUpdateResult enclave payload row.x1 e'.draw table).1 } :=
        .updated row data table e'.draw hbatch hrow hfirst hsigned hdata htable rfl rfl (.inl rfl)
      cases hreply : httpReply e'.link (keyUpdateResult enclave payload row.x1 e'.draw table).2 with
      | failed text =>
        simp only [keyUpdateResult] at hreply
        simp only [hreply]
        exact hlost
      | unreadable =>
        simp only [keyUpdateResult] at hreply
        simp only [hreply]
        exact hlost
      | body body =>
        have hdelivered := httpReply_delivered hreply
        simp only [keyUpdateResult] at hreply
        simp only [hreply, relayKey]
        cases hkey : serverPubkeyOf enclave.params.secp body with
        | none => exact hlost
        | some serverPubkey =>
          intro e''
          refine wp_write hlost (fun db hdb => ?_)
          exact ⟨.updated row data table e'.draw hbatch hrow hfirst hsigned hdata htable rfl rfl
              (.inr ⟨body, serverPubkey, hdelivered, hkey, hdb⟩),
            .updated row data table e'.draw hbatch hrow hfirst hsigned hdata htable rfl rfl
              (.inr ⟨body, serverPubkey, hdelivered, hkey, hdb⟩)⟩

theorem transferReceiver_effect (payload : TransferReceiverRequestPayload) :
    wp (Database.handle enclave) (fun _ w' => ReceiverEffect enclave batchTimeout w payload w')
      (transferReceiver enclave.params.secp batchTimeout payload) w := by
  refine (returns_validateBatch payload.statechainId).andThen (.same rfl) ?_
  cases hbatch : batchResult batchTimeout w payload.statechainId with
  | statecoinBatchLockedError text => exact .same rfl
  | expiredBatchTimeError text => exact .same rfl
  | success =>
    refine fun e => wp_read (.same rfl) (fun authPubkeyX1 hauth => ?_)
    obtain ⟨row, hrow, rfl⟩ := Option.map_eq_some_iff.mp hauth
    cases hsig : enclave.params.secp.signatureFromStr payload.authSig with
    | none => exact .same rfl
    | some signature =>
      simp only [Prog.unwrap, Prog.ret_bind]
      by_cases hv : verifies enclave.params.secp signature payload.t2
          (enclave.params.secp.xOnly row.newUserAuthPublicKey) = true
      · simp only [hv, if_true]
        refine fun e' => wp_read (.same rfl) (fun keyUpdated hupdated => ?_)
        rw [hrow, Option.map_some, Option.some.injEq] at hupdated
        cases keyUpdated with
        | true => exact fun e'' => wp_read (.same rfl) (fun _ _ => .same rfl)
        | false => exact updateKey_effect hbatch hrow hupdated ⟨signature, hsig, hv⟩
      · simp only [hv, if_false, Bool.false_eq_true]
        exact .same rfl

/-- What `/transfer/update_msg` can do: nothing, or with the owner's signature a new message in
the row of the recipient. -/
inductive UpdateMsgEffect (enclave : Keyring n E) (w : World E) (payload : TransferUpdateMsgRequestPayload)
    (w' : World E) : Prop
  | same (h : w' = w)
  | updated (newUserAuthKey : Point E) (encTransferMsg : Bytes)
      (hsigned : SignedByOwner enclave.params.secp w.db payload.authSig payload.statechainId)
      (hkey : enclave.params.secp.publicKeyFromStr payload.newUserAuthKey = some newUserAuthKey)
      (hmsg : Hex.decode payload.encTransferMsg = some encTransferMsg)
      (h : w' =
        { w with db := w.db.updateTransferMsg payload.statechainId w.now newUserAuthKey encTransferMsg })

theorem transferUpdateMsg_effect (payload : TransferUpdateMsgRequestPayload) :
    wp (Database.handle enclave) (fun _ w' => UpdateMsgEffect enclave w payload w')
      (transferUpdateMsg enclave.params.secp payload) w := by
  refine wp_validateSignature (.same rfl) (fun data signature hdata hsig => ?_)
  by_cases hv : verifies enclave.params.secp signature payload.statechainId data.authXonlyPublicKey = true
  · simp only [hv, if_true]
    cases hkey : enclave.params.secp.publicKeyFromStr payload.newUserAuthKey with
    | none => exact .same rfl
    | some newUserAuthKey =>
      cases hmsg : Hex.decode payload.encTransferMsg with
      | none => exact .same rfl
      | some encTransferMsg =>
        have hsigned : SignedByOwner enclave.params.secp w.db payload.authSig payload.statechainId :=
          ⟨data, hdata, signature, hsig, hv⟩
        intro e
        refine wp_write (.same rfl) (fun db hdb => ?_)
        rw [← Option.some.inj hdb]
        exact ⟨.updated newUserAuthKey encTransferMsg hsigned hkey hmsg rfl,
          .updated newUserAuthKey encTransferMsg hsigned hkey hmsg rfl⟩
  · simp only [hv, if_false, Bool.false_eq_true]
    exact .same rfl

/-- What the answer of `/info/statechain` tells about the coin. -/
structure InfoAnswer (enclave : Keyring n E) (w : World E) (id : String) (info : StatechainInfoResponsePayload) :
    Prop where
  enclavePublicKey : ∃ data, w.db.data.get id = some data ∧
    info.enclavePublicKey = enclave.params.secp.publicKeyToStr data.serverPublicKey
  x1Pub : ∀ text, info.x1Pub = some text → ∃ row x1, w.db.transfers.get id = some row ∧
    enclave.params.secp.secretKeyFromSlice row.x1 = some x1 ∧
    text = enclave.params.secp.publicKeyToStr (enclave.params.secp.publicKey x1)

def InfoEffect (enclave : Keyring n E) (w : World E) (id : String) (answer : Option Answer) (w' : World E) : Prop :=
  w' = w ∧ ∀ code info, answer = some ⟨code, .statechainInfo info⟩ → InfoAnswer enclave w id info

theorem statechainInfo_effect (id : String) :
    wp (Database.handle enclave) (InfoEffect enclave w id) (statechainInfo enclave.params.secp id) w := by
  have hnone : InfoEffect enclave w id none w := ⟨rfl, fun code info h => by cases h⟩
  have hfields : ∀ code fields, InfoEffect enclave w id (some ⟨code, .fields fields⟩) w :=
    fun code fields => ⟨rfl, fun code info h => by cases h⟩
  refine fun e => wp_read hnone (fun enclavePublicKey hkey => ?_)
  cases hdata : w.db.data.get id with
  | none =>
    rw [← Option.some.inj hkey, hdata]
    exact hfields _ _
  | some data =>
    rw [← Option.some.inj hkey, hdata]
    refine fun e => wp_read hnone (fun enclaveIndex _ => ?_)
    cases enclaveIndex with
    | none => exact hfields _ _
    | some enclaveIndex =>
      intro e
      simp only [Database.handle]
      cases countSignatures e w enclaveIndex id with
      | error text => exact hfields _ _
      | ok numSigs =>
        cases numSigs with
        | none => exact hnone
        | some numSigs =>
          intro e'
          refine wp_read hnone (fun info _ e'' => wp_read hnone (fun x1 hx1 => ?_))
          cases hrow : w.db.transfers.get id with
          | none =>
            rw [← Option.some.inj hx1, hrow]
            refine ⟨rfl, fun code info h => ?_⟩
            cases h
            exact ⟨⟨data, hdata, rfl⟩, fun text h => by cases h⟩
          | some row =>
            rw [← Option.some.inj hx1, hrow]
            simp only [Option.map_some]
            cases hsecret : enclave.params.secp.secretKeyFromSlice row.x1 with
            | none => exact hnone
            | some secretX1 =>
              refine ⟨rfl, fun code info h => ?_⟩
              cases h
              exact ⟨⟨data, hdata, rfl⟩, fun text h => ⟨row, secretX1, hrow, hsecret, (Option.some.inj h).symm⟩⟩

/-- The remaining endpoints leave the transfers alone, and open no latch. -/
structure TransfersKept (w w' : World E) : Prop where
  transfers : w'.db.transfers = w.db.transfers
  now : w'.now = w.now
  latches : ∀ latch ∈ w'.db.latches.rows, latch ∈ w.db.latches.rows ∨ latch.locked = true

omit [DecidableEq E] in
theorem TransfersKept.refl (w : World E) : TransfersKept w w := ⟨rfl, rfl, fun _ h => .inl h⟩

theorem initDeposit_effect (authKey : Bytes) (id : String) (enclaveIndex : ℕ) :
    wp (Database.handle enclave) (fun _ w' => TransfersKept w w')
      (initDeposit enclave.params.secp authKey id enclaveIndex) w := by
  intro e
  simp only [Database.handle]
  have hkept : TransfersKept w (callLockbox enclave e w enclaveIndex (.getPublicKey id)).2 := by
    rcases callLockbox_cases enclave e w enclaveIndex (.getPublicKey id) with ⟨hsame, -⟩ | ⟨table, -, hcall⟩
    · rw [hsame]
      exact .refl w
    · rw [hcall]
      exact ⟨rfl, rfl, fun _ h => .inl h⟩
  generalize callLockbox enclave e w enclaveIndex (.getPublicKey id) = result at hkept ⊢
  obtain ⟨reply, w'⟩ := result
  cases reply with
  | failed text => exact hkept
  | unreadable => exact hkept
  | body body =>
    simp only [Prog.bind]
    cases serverPubkeyOf enclave.params.secp body with
    | none => exact hkept
    | some serverPubkey =>
      intro e'
      refine wp_write hkept (fun db hdb => ?_)
      have hsame := (Db.insertNewDeposit_transfers hdb).trans hkept.transfers
      have hlatches : ∀ latch ∈ db.latches.rows, latch ∈ w.db.latches.rows ∨ latch.locked = true := by
        rw [Db.insertNewDeposit_latches hdb]
        exact hkept.latches
      exact ⟨⟨hsame, hkept.now, hlatches⟩, ⟨hsame, hkept.now, hlatches⟩⟩

theorem postPaymenthash_effect (payload : PaymentHashRequestPayload) :
    wp (Database.handle enclave) (fun _ w' => TransfersKept w w') (postPaymenthash enclave.params.secp payload) w := by
  have hsame : TransfersKept w w := .refl w
  refine wp_validateSignature hsame (fun data signature _ _ => ?_)
  by_cases hv : verifies enclave.params.secp signature payload.statechainId data.authXonlyPublicKey = true
  · simp only [hv, if_true]
    refine fun e => wp_read hsame (fun senderAuthKey _ => ?_)
    intro e1 e2 e3
    refine wp_write hsame (fun db hdb => ?_)
    rw [← Option.some.inj hdb]
    have hdeleted : ∀ latch ∈ (w.db.deleteExpiredLatches w.now).latches.rows,
        latch ∈ w.db.latches.rows ∨ latch.locked = true := fun latch h => .inl (List.mem_filter.mp h).1
    refine ⟨⟨rfl, rfl, hdeleted⟩, ?_⟩
    intro e4
    refine wp_write ⟨rfl, rfl, hdeleted⟩ (fun db' hdb' => ?_)
    obtain ⟨latches, hinsert, rfl⟩ := Option.map_eq_some_iff.mp hdb'
    have hinserted : ∀ latch ∈ latches.rows, latch ∈ w.db.latches.rows ∨ latch.locked = true := by
      intro latch hlatch
      rcases Table.mem_insert? hinsert hlatch with hold | rfl
      · exact hdeleted latch hold
      · exact .inr rfl
    exact ⟨⟨rfl, rfl, hinserted⟩, ⟨rfl, rfl, hinserted⟩⟩
  · simp only [hv, if_false, Bool.false_eq_true]
    exact hsame

section Change

/-- Everything but the locks and the flag of the key update stays, and the locks only open. -/
structure Keeps (row row' : StatechainTransfer (Point E)) : Prop where
  statechainId : row'.statechainId = row.statechainId
  newUserAuthPublicKey : row'.newUserAuthPublicKey = row.newUserAuthPublicKey
  x1 : row'.x1 = row.x1
  batchId : row'.batchId = row.batchId
  batchTime : row'.batchTime = row.batchTime
  locked : row.locked = false → row'.locked = false
  locked2 : row.locked2 = false → row'.locked2 = false
  keyUpdated : row.keyUpdated = true → row'.keyUpdated = true

omit [DecidableEq E] in
theorem Keeps.refl (row : StatechainTransfer (Point E)) : Keeps row row := ⟨rfl, rfl, rfl, rfl, rfl, id, id, id⟩

/-- The owner put another message in the row of the recipient. -/
def MessageReplaced (enclave : Keyring n E) (w : World E) (event : Event n E)
    (row : StatechainTransfer (Point E)) (message : Option Bytes) : Prop :=
  ∃ payload choices, event = .request (.updateMsg payload) choices ∧ row.statechainId = payload.statechainId ∧
    SignedByOwner enclave.params.secp w.db payload.authSig payload.statechainId ∧
    enclave.params.secp.publicKeyFromStr payload.newUserAuthKey = some row.newUserAuthPublicKey ∧
    Hex.decode payload.encTransferMsg = message

/-- What an event can do to the transfers. -/
inductive Change (enclave : Keyring n E) (batchTimeout : ℕ) (w : World E) (event : Event n E) (w' : World E) : Prop
  | kept (g : StatechainTransfer (Point E) → StatechainTransfer (Point E))
      (hrows : ∀ row', row' ∈ w'.db.transfers.rows ↔ ∃ row ∈ w.db.transfers.rows, row' = g row)
      (hg : ∀ row, Keeps row (g row))
      (hupdated : ∀ row ∈ w.db.transfers.rows, row.keyUpdated = false → (g row).keyUpdated = true →
        ∃ payload choices, event = .request (.receiver payload) choices ∧
          row.statechainId = payload.statechainId ∧
          batchResult batchTimeout w payload.statechainId = .success)
      (hnow : w'.now = w.now)
      (hmsg : ∀ row ∈ w.db.transfers.rows, (g row).encryptedTransferMsg = row.encryptedTransferMsg ∨
        MessageReplaced enclave w event row (g row).encryptedTransferMsg)
  | sent (payload : TransferSenderRequestPayload) (choices : ℕ → Choice n) (new : StatechainTransfer (Point E))
      (hevent : event = .request (.sender payload) choices)
      (hsigned : SignedByOwner enclave.params.secp w.db payload.authSig payload.statechainId)
      (hrows : w'.db.transfers = w.db.transfers.replace new)
      (hid : new.statechainId = payload.statechainId) (hbatch : new.batchId = payload.batchId)
      (htimed : new.batchId.isSome → new.batchTime.isSome) (hnew : new.keyUpdated = false)
      (hnow : w'.now = w.now)
      (hkey : enclave.params.secp.publicKeyFromStr payload.newUserAuthKey = some new.newUserAuthPublicKey)
      (hadmitted : batchTransferResult batchTimeout w payload.statechainId payload.batchId = .success)
      (hfresh : w.db.existsMsg payload.statechainId new.newUserAuthPublicKey payload.batchId = false)
      (htime : new.batchTime = payload.batchId.map (joiningTime w))
  | ticked (elapsed : ℕ) (hevent : event = .tick elapsed) (h : w' = { w with now := w.now + elapsed })

variable {w' : World E} {event : Event n E}

theorem Change.of_kept (h : TransfersKept w w') : Change enclave batchTimeout w event w' := by
  refine .kept id (fun row' => ?_) Keeps.refl (fun row _ hno hyes => ?_) h.now (fun row _ => .inl rfl)
  · rw [h.transfers]
    simp
  · rw [id, hno] at hyes
    cases hyes

theorem Change.of_modify {id : String} {f : StatechainTransfer (Point E) → StatechainTransfer (Point E)}
    (hkeeps : ∀ row, Keeps row (f row)) (hflag : ∀ row, (f row).keyUpdated = row.keyUpdated)
    (hrows : w'.db.transfers = w.db.transfers.modify id f (fun row => (hkeeps row).statechainId))
    (hnow : w'.now = w.now)
    (hmsg : ∀ row, row.statechainId = id → (f row).encryptedTransferMsg = row.encryptedTransferMsg ∨
      MessageReplaced enclave w event row (f row).encryptedTransferMsg) :
    Change enclave batchTimeout w event w' := by
  refine .kept (fun row => if row.statechainId = id then f row else row) (fun row' => ?_) (fun row => ?_)
    (fun row _ hno hyes => ?_) hnow (fun row _ => ?_)
  · rw [hrows, Table.mem_modify]
  · by_cases hid : row.statechainId = id
    · rw [if_pos hid]
      exact hkeeps row
    · rw [if_neg hid]
      exact Keeps.refl row
  · by_cases hid : row.statechainId = id
    · rw [if_pos hid, hflag, hno] at hyes
      cases hyes
    · rw [if_neg hid, hno] at hyes
      cases hyes
  · by_cases hid : row.statechainId = id
    · rw [if_pos hid]
      exact hmsg row hid
    · rw [if_neg hid]
      exact .inl rfl

theorem change_receiver {payload : TransferReceiverRequestPayload} {choices : ℕ → Choice n}
    (h : ReceiverEffect enclave batchTimeout w payload w') :
    Change enclave batchTimeout w (.request (.receiver payload) choices) w' := by
  cases h with
  | same h =>
    rw [h]
    exact .of_kept (.refl w)
  | updated row data table draw hbatch hrow hfirst hsigned hdata htable henclaves hnow hdb =>
    rcases hdb with hdb | ⟨body, serverPubkey, -, -, hdb⟩
    · exact .of_kept ⟨by rw [hdb], hnow, by rw [hdb]; exact fun _ h => .inl h⟩
    · refine .kept (fun row => if row.statechainId = payload.statechainId then { row with keyUpdated := true }
        else row) (fun row' => ?_) (fun row => ?_) (fun row' _ hno hyes => ?_) hnow (fun row' _ => .inl ?_)
      · rw [Db.updateStatechain_transfers hdb, Table.mem_modify]
      · by_cases hid : row.statechainId = payload.statechainId
        · rw [if_pos hid]
          exact ⟨rfl, rfl, rfl, rfl, rfl, id, id, fun _ => rfl⟩
        · rw [if_neg hid]
          exact Keeps.refl row
      · by_cases hid : row'.statechainId = payload.statechainId
        · exact ⟨payload, choices, rfl, hid, hbatch⟩
        · rw [if_neg hid, hno] at hyes
          cases hyes
      · by_cases hid : row'.statechainId = payload.statechainId
        · rw [if_pos hid]
        · rw [if_neg hid]

theorem change_sender {payload : TransferSenderRequestPayload} {choices : ℕ → Choice n}
    (h : SenderEffect enclave batchTimeout w payload w') :
    Change enclave batchTimeout w (.request (.sender payload) choices) w' := by
  cases h with
  | same h =>
    rw [h]
    exact .of_kept (.refl w)
  | sent newUserAuthKey x1 batch hsigned hkey hbatch hadmitted hfresh h htime =>
    rw [h]
    refine .sent payload choices _ rfl hsigned rfl rfl hbatch (fun hsome => ?_) rfl rfl hkey hadmitted hfresh htime
    cases batch with
    | none => exact hsome
    | some batch => rfl

omit [DecidableEq E] in
theorem keeps_setUnlocked (now : ℕ) (owner : Bool) (row : StatechainTransfer (Point E)) :
    Keeps row (Db.setUnlocked now owner row) := by
  cases owner with
  | false => exact ⟨rfl, rfl, rfl, rfl, rfl, fun _ => rfl, id, id⟩
  | true => exact ⟨rfl, rfl, rfl, rfl, rfl, id, fun _ => rfl, id⟩

theorem keeps_setTransferMsg (now : ℕ) (newUserAuthKey : Point E) (encTransferMsg : Bytes)
    (row : StatechainTransfer (Point E)) : Keeps row (Db.setTransferMsg now newUserAuthKey encTransferMsg row) := by
  unfold Db.setTransferMsg
  split
  · exact ⟨rfl, rfl, rfl, rfl, rfl, id, id, id⟩
  · exact Keeps.refl row

theorem change_unlock {payload : TransferUnlockRequestPayload}
    (h : Outcome enclave.params.secp payload w w') : Change enclave batchTimeout w event w' := by
  cases h with
  | same h =>
    rw [h]
    exact .of_kept (.refl w)
  | opened data signature owner hdata hsignature howner hpasses hnow hdb =>
    refine .of_modify (keeps_setUnlocked w.now owner) (fun row => ?_) (transfers_of_unlocked hdb) hnow
      (fun row _ => .inl ?_)
    · cases owner <;> rfl
    · cases owner <;> rfl

theorem change_updateMsg {payload : TransferUpdateMsgRequestPayload} {choices : ℕ → Choice n}
    (h : UpdateMsgEffect enclave w payload w') :
    Change enclave batchTimeout w (.request (.updateMsg payload) choices) w' := by
  cases h with
  | same h =>
    rw [h]
    exact .of_kept (.refl w)
  | updated newUserAuthKey encTransferMsg hsigned hkey hmsg h =>
    rw [h]
    refine .of_modify (keeps_setTransferMsg w.now newUserAuthKey encTransferMsg) (fun row => ?_) rfl rfl
      (fun row hid => ?_)
    · unfold Db.setTransferMsg
      split <;> rfl
    · by_cases hrecipient : row.newUserAuthPublicKey = newUserAuthKey
      · rw [Db.setTransferMsg, if_pos hrecipient]
        rw [← hrecipient] at hkey
        exact .inr ⟨payload, choices, rfl, hid, hsigned, hkey, hmsg⟩
      · rw [Db.setTransferMsg, if_neg hrecipient]
        exact .inl rfl

variable (enclave batchTimeout) in
theorem step_change (w : World E) (event : Event n E) :
    Change enclave batchTimeout w event (System.step enclave batchTimeout w event) := by
  cases event with
  | tick elapsed => exact .ticked elapsed rfl rfl
  | reorder rows =>
    simp only [System.step, reorder]
    split_ifs with hperm
    · refine .kept id (fun row' => ?_) Keeps.refl (fun row _ hno hyes => ?_) rfl (fun row _ => .inl rfl)
      · simpa using hperm.mem_iff
      · rw [id, hno] at hyes
        cases hyes
    · exact .of_kept (.refl w)
  | request request choices =>
    cases request with
    | deposit authKey id index => exact .of_kept (exec_of_wp (initDeposit_effect authKey id index) choices)
    | sender payload => exact change_sender (exec_of_wp (transferSender_effect payload) choices)
    | updateMsg payload => exact change_updateMsg (exec_of_wp (transferUpdateMsg_effect payload) choices)
    | paymenthash payload => exact .of_kept (exec_of_wp (postPaymenthash_effect payload) choices)
    | unlock payload => exact change_unlock (exec_of_wp (transferUnlock_outcome payload w) choices)
    | info id =>
      have hkept : InfoEffect enclave w id _ _ := exec_of_wp (statechainInfo_effect id) choices
      refine .of_kept ?_
      rw [System.step, endpoint, hkept.1]
      exact .refl w
    | receiver payload => exact change_receiver (exec_of_wp (transferReceiver_effect payload) choices)

/-- A row stays unless its owner sends the coin again. -/
theorem Change.row_kept (h : Change enclave batchTimeout w event w') {row : StatechainTransfer (Point E)}
    (hrow : row ∈ w.db.transfers.rows)
    (hsent : ∀ payload choices, event = .request (.sender payload) choices →
      SignedByOwner enclave.params.secp w.db payload.authSig payload.statechainId →
      row.statechainId ≠ payload.statechainId) :
    ∃ row' ∈ w'.db.transfers.rows, Keeps row row' := by
  cases h with
  | kept g hrows hg hupdated hnow => exact ⟨g row, (hrows _).mpr ⟨row, hrow, rfl⟩, hg row⟩
  | sent payload choices new hevent hsigned hrows hid hbatch htimed hnew hnow =>
    refine ⟨row, ?_, Keeps.refl row⟩
    rw [hrows, Table.mem_replace, hid]
    exact .inl ⟨hrow, hsent payload choices hevent hsigned⟩
  | ticked elapsed hevent hstep =>
    rw [hstep]
    exact ⟨row, hrow, Keeps.refl row⟩

end Change

end MercuryLayer.Server.Effects
