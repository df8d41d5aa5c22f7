import MercuryLayer.Client.CoinSteps
import MercuryLayer.Library.Endurance

namespace MercuryLayer.Client.Receipts

open Client.CoinSteps Client.Operations Client.Receive
open Client.System (StoredTxs selectRow updateRow)
open Client.Transaction hiding Call Reply
open Client.TransferReceiver (InfoConfig anyhow splitBackupTransactions splitBackupTransactions_eq
  exists_outpointOf mem_group_of_mem mem_of_mem_group)
open Crates Error Library.Endurance Library.Programs Library.Tables Library.Validation Library.XOnlyCurve Receiver
open Server.Transfer WalletData

section Environment

variable {F : Type}

/-- The rows of the table `backup_txs`. -/
abbrev Backups : Type := Table StoredTxs (String × String) (fun row => (row.walletName, row.statechainId))

/-- The client's file, the messages it has been given, and the statechains whose key the entity has updated. -/
structure Surroundings where
  wallets : Wallets
  backups : Backups
  fetched : List (String × String)
  updates : List String

/-- What the client reads from the answer of `/transfer/receiver`. -/
def keyAnswer (response : Transaction.Response) : Res (Option String) := do
  let response ← anyhow response
  if statusOf response = 400 then
    match response.bind (answerField "code") with
    | some "StatecoinBatchLockedError" => return none
    | some "ExpiredBatchTimeError" => .error (.anyhow (bodyText response))
    | _ => .error (.anyhow "unknown variant")
  else if statusOf response = 200 then
    some <$> orFail "missing field `server_pubkey`" (response.bind (answerField "server_pubkey"))
  else .error (.anyhow ("Failed to update transfer message: " ++ bodyText response))

/-- What becomes of a request to update the key. A key is answered only if it has been updated. -/
structure Delivery where
  response : Transaction.Response
  updated : Bool
  honest : ∀ key, keyAnswer response = .ok (some key) → updated = true

/-- What the environment decides for one call. -/
structure Decision (F : Type) extends Oracle F where
  delivery : Delivery

/-- The rows of the statechain are deleted and the new one is inserted, in one transaction. -/
def storeTxs (s : Surroundings) (walletName statechainId : String) (backupTxs : List BackupTx) : Surroundings :=
  { s with backups := s.backups.replace ⟨walletName, statechainId, backupTxs⟩ }

/-- The electrum server has the transactions `raw`. What neither the file nor the chain decides is arbitrary. -/
def handle (raw : Bytes → List String) (decision : Decision F) : (c : Call F) → Surroundings → Reply c × Surroundings
  | .sending (.getWallet walletName), s => (selectRow decision.fault (s.wallets.get walletName), s)
  | .sending (.updateWallet wallet), s =>
    updateRow decision.fault s { s with wallets := saveWallet s.wallets wallet }
  | .insertOrUpdateBackupTxs walletName statechainId backupTxs, s =>
    updateRow decision.fault s (storeTxs s walletName statechainId backupTxs)
  | .batchTransactionGetRaw txid, s =>
    (Except.map (fun _ => raw txid) (decision.answer (.batchTransactionGetRaw txid)), s)
  | .getMsgAddr authPubkey, s =>
    let encMessages : Except String (List String) := decision.answer (.getMsgAddr authPubkey)
    (encMessages, { s with
      fetched := s.fetched ++ (encMessages.toOption.getD []).map (fun encMessage => (authPubkey, encMessage)) })
  | .transferReceiver payload, s =>
    (decision.delivery.response,
      if decision.delivery.updated then { s with updates := s.updates ++ [payload.statechainId] } else s)
  | c, s => (decision.answer c, s)

/-- The calls that only ask. -/
def Idle : Call F → Prop
  | .sending (.updateWallet _) => False
  | .insertOrUpdateBackupTxs _ _ _ => False
  | .getMsgAddr _ => False
  | .transferReceiver _ => False
  | _ => True

theorem handle_idle {raw : Bytes → List String} (decision : Decision F) {c : Call F} (s : Surroundings) (h : Idle c) :
    (handle raw decision c s).2 = s := by
  cases c with
  | sending c => cases c <;> first | rfl | exact h.elim
  | insertOrUpdateBackupTxs walletName statechainId backupTxs => exact h.elim
  | getMsgAddr authPubkey => exact h.elim
  | transferReceiver payload => exact h.elim
  | _ => rfl

theorem handle_batchTransactionGetRaw (raw : Bytes → List String) (decision : Decision F) (txid : Bytes)
    (s : Surroundings) :
    ((decision.answer (.batchTransactionGetRaw txid) : Except String (List String)).isOk = true ∧
      handle raw decision (.batchTransactionGetRaw txid) s = (.ok (raw txid), s)) ∨
    ∃ text, ¬(decision.answer (.batchTransactionGetRaw txid) : Except String (List String)).isOk = true ∧
      handle raw decision (.batchTransactionGetRaw txid) s = (.error text, s) := by
  have hhandle : handle raw decision (.batchTransactionGetRaw txid) s =
      (Except.map (fun _ => raw txid) (decision.answer (.batchTransactionGetRaw txid)), s) := rfl
  rw [hhandle]
  cases (decision.answer (.batchTransactionGetRaw txid) : Except String (List String)) with
  | ok txs => exact .inl ⟨rfl, rfl⟩
  | error text => exact .inr ⟨text, Bool.false_ne_true, rfl⟩

theorem idle_of_reads {c : Call F} (h : Reads c) : Idle c := by
  cases c with
  | sending c =>
    cases c with
    | updateWallet wallet => exact h.elim
    | _ => trivial
  | batchTransactionGetRaw txid => trivial
  | statechainInfo statechainId => trivial
  | _ => exact h.elim

theorem sendTransferReceiverRequestPayload_eq (payload : TransferReceiverRequestPayload) :
    (sendTransferReceiverRequestPayload payload : Operation F (Option String)) =
      ask (Call.transferReceiver payload : Call F) >>= fun response => liftM (keyAnswer response) := by
  unfold sendTransferReceiverRequestPayload keyAnswer
  congr 1
  funext response
  cases response with
  | error text => rfl
  | ok answer =>
    change (if statusOf answer = 400 then _ else _ : Operation F (Option String)) =
      liftM (if statusOf answer = 400 then _ else _ : Res (Option String))
    by_cases hrefused : statusOf answer = 400
    · rw [if_pos hrefused, if_pos hrefused]
      generalize answer.bind (answerField "code") = code
      by_cases hlocked : code = some "StatecoinBatchLockedError"
      · rw [hlocked]
        rfl
      · by_cases hexpired : code = some "ExpiredBatchTimeError"
        · rw [hexpired]
          rfl
        · simp only
          rfl
    · rw [if_neg hrefused, if_neg hrefused]
      by_cases hgranted : statusOf answer = 200
      · rw [if_pos hgranted, if_pos hgranted]
        cases answer.bind (answerField "server_pubkey") <;> rfl
      · rw [if_neg hgranted, if_neg hgranted]
        rfl

end Environment

section Parts

variable {F α : Type} {raw : Bytes → List String} {ok : Decision F → Call F → Surroundings → Prop} {s : Surroundings}

theorem endures_attempt {post : α → Surroundings → Prop} {err : Failure → Surroundings → Prop} {p : Operation F α}
    (h : Endures (handle raw) ok post err p s) :
    Endures (handle raw) ok
      (fun r s' => (∀ a, r = some a → post a s') ∧ (r = none → ∃ failure, failure ≠ .panic ∧ err failure s'))
      (fun failure _ => failure = .panic) (attempt p) s := by
  refine wpIf_bind (wpIf_mono (fun r s' hr => ?_) h)
  cases r with
  | none => exact fun x hx => nomatch hx
  | some r =>
    have hr := hr r rfl
    intro x hx
    cases Option.some.inj hx
    cases r with
    | ok a =>
      refine ⟨fun b hb => ?_, nofun⟩
      cases Option.some.inj hb
      exact hr
    | error failure =>
      cases failure with
      | panic => rfl
      | mercury e => exact ⟨nofun, fun _ => ⟨.mercury e, nofun, hr⟩⟩
      | anyhow text => exact ⟨nofun, fun _ => ⟨.anyhow text, nofun, hr⟩⟩

theorem endures_withContext {post : α → Surroundings → Prop} {kept : Surroundings → Prop} {p : Operation F α}
    (context : Failure → Failure) (h : Endures (handle raw) ok post (fun _ s' => kept s') p s) :
    Endures (handle raw) ok post (fun _ s' => kept s') (withContext context p) s := by
  refine wpIf_bind (wpIf_mono (fun r s' hr => ?_) h)
  cases r with
  | none => exact fun x hx => nomatch hx
  | some r =>
    have hr := hr r rfl
    intro x hx
    cases Option.some.inj hx
    cases r <;> exact hr

theorem endures_idle_bind {β : Type} {post : β → Surroundings → Prop} {err : Failure → Surroundings → Prop}
    {given : α → Prop} {p : Operation F α} {f : α → Operation F β} (hp : Yields Idle given p)
    (herr : ∀ failure, err failure s) (hf : ∀ a, given a → Endures (handle raw) ok post err (f a) s) :
    Endures (handle raw) ok post err (p >>= f) s := by
  refine endures_yields_bind (I := fun s' => s' = s) hp ?_ rfl ?_ ?_
  · rintro decision c s' hc rfl
    exact handle_idle decision s' hc
  · rintro failure s' rfl
    exact herr failure
  · rintro a s' rfl ha
    exact hf a ha

theorem idle_of_asks {c : Call F} (h : Asks c) : Idle c := idle_of_reads (reads_of_asks c h)

theorem idle_unlockStatecoin (statechainId signedStatechainId authPubkey : String) :
    Yields Idle (fun _ => True) (unlockStatecoin statechainId signedStatechainId authPubkey : Operation F Unit) := by
  refine yields_ask_bind (Call.transferUnlock ⟨statechainId, signedStatechainId, some authPubkey⟩) _ trivial
    (fun reply => ?_)
  exact yields_lift_bind (fun response _ => yields_lift fun _ _ => trivial)

variable {E K : Type} {kit : Kit E K F}

/-- The transaction that the electrum server has for an outpoint. -/
def tx0Of (kit : Kit E K F) (raw : Bytes → List String) (tx0Outpoint : OutPoint) : Option String :=
  (kit.btc.txidFromStr tx0Outpoint.txid).bind (fun txid => (raw txid)[0]?)

theorem endures_getTx0 (tx0Outpoint : OutPoint) :
    Endures (handle raw) ok (fun tx0Hex s' => s' = s ∧ tx0Of kit raw tx0Outpoint = some tx0Hex) (fun _ s' => s' = s)
      (getTx0 kit tx0Outpoint.txid) s := by
  refine endures_lift_bind (fun _ _ => rfl) (fun txid htxid => ?_)
  refine endures_ask_bind (Call.batchTransactionGetRaw txid) _ (fun decision _ => ?_)
  obtain ⟨-, hreply⟩ | ⟨text, -, hreply⟩ := handle_batchTransactionGetRaw raw decision txid s
  · rw [hreply]
    refine endures_lift_bind (fun _ _ => rfl) (fun txBytes htxBytes => ?_)
    cases Except.ok.inj htxBytes
    refine endures_lift (fun _ _ => rfl) (fun tx0Hex htx0Hex => ⟨rfl, ?_⟩)
    rw [tx0Of, orThrow_eq_ok.mp htxid]
    exact orThrow_eq_ok.mp htx0Hex
  · rw [hreply]
    exact endures_lift_bind (fun _ _ => rfl) (fun txBytes htxBytes => nomatch htxBytes)

end Parts

section Validation

variable {E K F : Type} {kit : Kit E K F} {raw : Bytes → List String} {ok : Decision F → Call F → Surroundings → Prop}
  {s : Surroundings} [Add F] [Sub F] [Div F] [NatCast F] [LT F] [DecidableLT F]

/-- A group of backup transactions whose funding transaction can be read. -/
def Readable (kit : Kit E K F) (raw : Bytes → List String) (group : List BackupTx) : Prop :=
  ∃ tx0Outpoint tx0Hex tx0, getTx0Outpoint kit.btc group = .ok tx0Outpoint ∧ tx0Of kit raw tx0Outpoint = some tx0Hex ∧
    kit.btc.deserialize tx0Hex = .ok tx0

omit [Add F] [Sub F] [Div F] [NatCast F] [LT F] [DecidableLT F] in
theorem deserialize_of_validateTx0OutputPubkey {enclavePublicKey tx0Hex network : String} {transferMsg : TransferMsg}
    {tx0Outpoint : OutPoint} {valid : Bool}
    (h : validateTx0OutputPubkey kit.btc kit.secp enclavePublicKey transferMsg tx0Outpoint tx0Hex network = .ok valid) :
    ∃ tx0, kit.btc.deserialize tx0Hex = .ok tx0 := by
  simp only [validateTx0OutputPubkey, txOutput, bind_eq_ok] at h
  obtain ⟨_, -, _, -, _, -, _, -, _, -, _, -, _, ⟨tx0, htx0, -⟩, -⟩ := h
  exact ⟨tx0, question_eq_ok.mp htx0⟩

/-- The check of a group only asks, and the funding transaction of a group that passes has been read. -/
theorem endures_validateGroup (coin : Coin) (network : String) (infoConfig : InfoConfig F) (blockheight : UInt32)
    (transferMsg : TransferMsg) (index : ℕ) (group : List BackupTx) :
    Endures (handle raw) ok (fun _ s' => s' = s ∧ Readable kit raw group) (fun _ s' => s' = s)
      (validateGroup kit coin network infoConfig blockheight transferMsg index group) s := by
  unfold validateGroup
  refine endures_lift_bind (fun _ _ => rfl) (fun tx0Outpoint houtpoint => ?_)
  refine endures_bind (endures_mono ?_ (fun _ _ h => h) (endures_getTx0 tx0Outpoint))
  rintro tx0Hex s' ⟨rfl, hholds⟩
  extract_lets rest
  have hrest : ∀ u, Endures (handle raw) ok (fun _ s'' => s'' = s' ∧ Readable kit raw group) (fun _ s'' => s'' = s')
      (rest u) s' := by
    intro u
    refine endures_idle_bind (yields_mono (fun _ => idle_of_asks) (fun _ h => h) (asks_getStatechainInfo _))
      (fun _ => rfl) (fun info _ => ?_)
    refine endures_lift_bind (fun _ _ => rfl) (fun statechainInfo _ => ?_)
    refine endures_lift_bind (fun _ _ => rfl) (fun valid hvalid => ?_)
    obtain ⟨tx0, htx0⟩ := deserialize_of_validateTx0OutputPubkey hvalid
    refine endures_lift_bind (fun _ _ => rfl) (fun _ _ => ?_)
    refine endures_lift_bind (fun _ _ => rfl) (fun _ _ => ?_)
    refine endures_lift_bind (fun _ _ => rfl) (fun _ _ => ?_)
    refine endures_lift_bind (fun _ _ => rfl) (fun _ _ => ?_)
    refine endures_idle_bind (yields_mono (fun _ => idle_of_asks) (fun _ h => h)
      (asks_verifyTx0OutputIsUnspentAndConfirmed _ _ _)) (fun _ => rfl) (fun _ _ => ?_)
    refine endures_lift_bind (fun _ _ => rfl) (fun _ _ => ?_)
    refine endures_lift_bind (fun _ _ => rfl) (fun _ _ => ?_)
    exact endures_pure ⟨rfl, tx0Outpoint, tx0Hex, tx0, houtpoint, hholds, htx0⟩
  split_ifs
  · refine endures_lift_bind (fun _ _ => rfl) (fun _ _ => ?_)
    exact endures_lift_bind (fun _ _ => rfl) (fun _ _ => hrest ())
  · exact hrest ()

/-- A message that can be taken over: it opens, and each of its groups can be read. -/
def Opened (kit : Kit E K F) (raw : Bytes → List String) (coin : Coin) (encMessage : String)
    (transferMsg : TransferMsg) (groups : List (List BackupTx)) : Prop :=
  decryptTransferMsg kit.secp kit.ecies encMessage coin.authPrivkey = .ok transferMsg ∧
    splitBackupTransactions kit.btc transferMsg.backupTransactions = .ok groups ∧
    ∀ group ∈ groups, Readable kit raw group

theorem endures_validateEncryptedMessage (coin : Coin) (encMessage network : String) (infoConfig : InfoConfig F)
    (blockheight : UInt32) :
    Endures (handle raw) ok
      (fun _ s' => s' = s ∧ ∃ transferMsg groups, Opened kit raw coin encMessage transferMsg groups)
      (fun _ s' => s' = s) (validateEncryptedMessage kit coin encMessage network infoConfig blockheight) s := by
  refine endures_lift_bind (fun _ _ => rfl) (fun transferMsg hmsg => ?_)
  refine endures_lift_bind (fun _ _ => rfl) (fun groups hgroups => ?_)
  have hall : ∀ rows : List (List BackupTx × ℕ), Endures (handle raw) ok
      (fun _ s' => s' = s ∧ ∀ row ∈ rows, Readable kit raw row.1) (fun _ s' => s' = s)
      (rows.forM fun group => validateGroup kit coin network infoConfig blockheight transferMsg group.2 group.1) s := by
    intro rows
    induction rows with
    | nil => exact endures_pure ⟨rfl, nofun⟩
    | cons row rows ih =>
      refine endures_bind (endures_mono ?_ (fun _ _ h => h) (endures_validateGroup _ _ _ _ _ _ _))
      rintro _ s' ⟨rfl, hrow⟩
      exact endures_mono (fun _ _ h => ⟨h.1, List.forall_mem_cons.mpr ⟨hrow, h.2⟩⟩) (fun _ _ h => h) ih
  refine endures_mono (fun _ s' h => ⟨h.1, transferMsg, groups, hmsg, hgroups, fun group hgroup => ?_⟩)
    (fun _ _ h => h) (hall _)
  obtain ⟨index, hindex⟩ := List.mem_iff_getElem?.mp hgroup
  exact h.2 (group, index) (List.mem_zipIdx_iff_getElem?.mpr hindex)

end Validation

section Message

variable {E K F : Type} [DecidableEq E]

/-- What the client makes of a key for the coin of a message. -/
def keyInfoOf (kit : Kit E K F) (raw : Bytes → List String) (network : String) (coin : Coin)
    (encMessage key : String) : Res NewKeyInfo := do
  let transferMsg ← decryptTransferMsg kit.secp kit.ecies encMessage coin.authPrivkey
  let groups ← splitBackupTransactions kit.btc transferMsg.backupTransactions
  let first ← unwrap groups.head?
  let tx0Outpoint ← getTx0Outpoint kit.btc first
  let tx0Hex ← unwrap (tx0Of kit raw tx0Outpoint)
  getNewKeyInfo kit.btc kit.secp key coin transferMsg.statechainId tx0Outpoint tx0Hex network

/-- How the calls made for a message have to be answered. The message is received with the coin, one of the
wallet or a copy, and has been taken up when the updates were those `before`. -/
def Fair (kit : Kit E K F) (raw : Bytes → List String) (network : String) (coin : Coin) (copy : Bool)
    (encMessage : String) (before : List String) (decision : Decision F) : Call F → Surroundings → Prop
  | .transferReceiver payload, s =>
    (decision.delivery.updated = true → payload.statechainId ∉ s.updates ∧
      match keyAnswer decision.delivery.response with
      | .ok (some key) => (keyInfoOf kit raw network coin encMessage key).isOk = true
      | _ => False) ∧
    (keyAnswer decision.delivery.response = .ok none → copy = false)
  | .insertOrUpdateBackupTxs _ _ _, _ =>
    match decision.fault with
    | .ok => True
    | .failed _ => False
    | .lost _ => copy = false
  | .batchTransactionGetRaw txid, s =>
    copy = true → s.updates ≠ before →
      (decision.answer (.batchTransactionGetRaw txid) : Except String (List String)).isOk = true
  | _, _ => True

instance Fair.decidable (kit : Kit E K F) (raw : Bytes → List String) (network : String) (coin : Coin) (copy : Bool)
    (encMessage : String) (before : List String) (decision : Decision F) : (c : Call F) → (s : Surroundings) →
      Decidable (Fair kit raw network coin copy encMessage before decision c s)
  | .transferReceiver payload, s => by
    refine @instDecidableAnd _ _ (@instDecidableForall _ _ inferInstance (@instDecidableAnd _ _ inferInstance ?_)) ?_
    · split <;> infer_instance
    · exact inferInstanceAs (Decidable (_ → _))
  | .insertOrUpdateBackupTxs _ _ _, _ => by
    refine (?_ : Decidable (match decision.fault with | .ok => True | .failed _ => False | .lost _ => copy = false))
    split <;> infer_instance
  | .batchTransactionGetRaw txid, s => inferInstanceAs (Decidable (_ → _ → _))
  | .sending _, _ | .insertBackupTxs _ _ _, _ | .transactionBroadcastRaw _, _ | .estimateFee, _ | .drawLocktime, _
  | .hashOrder, _ | .statechainInfo _, _ | .depositInit _, _ | .getMsgAddr _, _ | .transferUnlock _, _
  | .withdrawComplete _, _ => .isTrue trivial

/-- The coin with the new key, and the activity that goes with it. -/
def Takes (kit : Kit E K F) (network : String) (old : Coin) (transferMsg : TransferMsg) (new : Coin)
    (activity : Activity) : Prop :=
  ∃ key newKeyInfo tx0Outpoint tx0Hex locktime status date,
    getNewKeyInfo kit.btc kit.secp key old transferMsg.statechainId tx0Outpoint tx0Hex network = .ok newKeyInfo ∧
    (status = .confirmed ∨ status = .unconfirmed) ∧
    new = received old key newKeyInfo transferMsg.statechainId tx0Outpoint locktime status ∧
    activity = ⟨tx0Outpoint.txid, newKeyInfo.amount, "Receive", date⟩

variable {kit : Kit E K F} {raw : Bytes → List String} {network encMessage : String} {coin : Coin} {copy : Bool}
  {before : List String} {transferMsg : TransferMsg} {first : List BackupTx} {rest : List (List BackupTx)}

theorem exists_of_isOk {ε α : Type} {x : Except ε α} (h : x.isOk = true) : ∃ a, x = .ok a := by
  cases x with
  | ok a => exact ⟨a, rfl⟩
  | error e => cases h

theorem statechainId_of_request {info : StatechainInfoResponsePayload} {payload : TransferReceiverRequestPayload}
    (h : createTransferReceiverRequestPayload kit.secp info transferMsg coin = .ok payload) :
    payload.statechainId = transferMsg.statechainId := by
  simp only [createTransferReceiverRequestPayload, bind_eq_ok, pure_eq_ok] at h
  obtain ⟨_, -, _, -, _, -, _, -, _, -, _, -, _, -, _, -, rfl⟩ := h
  rfl

omit [DecidableEq E] in
/-- A request that is answered as it has to be: either the key is updated and the client hears of it, or it is
not updated. -/
theorem endures_request (payload : TransferReceiverRequestPayload) (s : Surroundings) :
    Endures (handle raw) (Fair kit raw network coin copy encMessage before)
      (fun r s' => match r with
        | none => s' = s ∧ copy = false
        | some key => s' = { s with updates := s.updates ++ [payload.statechainId] } ∧
          payload.statechainId ∉ s.updates ∧ ∃ info, keyInfoOf kit raw network coin encMessage key = .ok info)
      (fun _ s' => s' = s) (withContext transferReceiverFailure (sendTransferReceiverRequestPayload payload)) s := by
  refine endures_withContext _ ?_
  rw [sendTransferReceiverRequestPayload_eq]
  refine endures_ask_bind _ _ (fun decision hfair => ?_)
  obtain ⟨hgranted, hlocked⟩ := hfair
  change Endures _ _ _ _ (liftM (keyAnswer decision.delivery.response)) (if decision.delivery.updated then _ else s)
  by_cases hupdated : decision.delivery.updated = true
  · rw [if_pos hupdated]
    obtain ⟨hfresh, hfits⟩ := hgranted hupdated
    split at hfits
    next key hkey =>
      rw [hkey]
      refine endures_lift nofun (fun r hr => ?_)
      cases Except.ok.inj hr
      exact ⟨rfl, hfresh, exists_of_isOk hfits⟩
    next => exact hfits.elim
  · rw [if_neg hupdated]
    refine endures_lift (fun _ _ => rfl) (fun r hr => ?_)
    cases r with
    | none => exact ⟨rfl, hlocked hr⟩
    | some key => exact absurd (decision.delivery.honest key hr) hupdated

theorem endures_takeOver (hmsg : decryptTransferMsg kit.secp kit.ecies encMessage coin.authPrivkey = .ok transferMsg)
    (hgroups : splitBackupTransactions kit.btc transferMsg.backupTransactions = .ok (first :: rest))
    (s : Surroundings) :
    Endures (handle raw) (Fair kit raw network coin copy encMessage before)
      (fun r s' => match r with
        | none => s' = s ∧ copy = false
        | some (new, activity) => s' = { s with updates := s.updates ++ [transferMsg.statechainId] } ∧
          transferMsg.statechainId ∉ s.updates ∧ Takes kit network coin transferMsg new activity)
      (fun _ s' => s' = s) (takeOver kit coin network transferMsg first) s := by
  unfold takeOver
  refine endures_lift_bind (fun _ _ => rfl) (fun tx0Outpoint houtpoint => ?_)
  refine endures_bind (endures_mono ?_ (fun _ _ h => h) (endures_getTx0 tx0Outpoint))
  rintro tx0Hex s' ⟨rfl, hholds⟩
  refine endures_idle_bind (yields_mono (fun _ => idle_of_asks) (fun _ h => h) (asks_getStatechainInfo _))
    (fun _ => rfl) (fun info _ => ?_)
  refine endures_lift_bind (fun _ _ => rfl) (fun statechainInfo _ => ?_)
  refine endures_idle_bind (yields_mono (fun _ => idle_of_asks) (fun _ h => h)
    (asks_verifyTx0OutputIsUnspentAndConfirmed _ _ _)) (fun _ => rfl) (fun tx0 htx0 => ?_)
  refine endures_lift_bind (fun _ _ => rfl) (fun backupTx _ => ?_)
  refine endures_lift_bind (fun _ _ => rfl) (fun lastTxLockTime _ => ?_)
  refine endures_lift_bind (fun _ _ => rfl) (fun payload hpayload => ?_)
  refine endures_lift_bind (fun _ _ => rfl) (fun signedStatechainIdForUnlock _ => ?_)
  refine endures_idle_bind (idle_unlockStatecoin _ _ _) (fun _ => rfl) (fun _ _ => ?_)
  refine endures_bind (endures_mono (fun r s'' hr => ?_) (fun _ _ h => h) (endures_request payload s'))
  rw [statechainId_of_request hpayload] at hr
  cases r with
  | none => exact endures_pure hr
  | some key =>
    obtain ⟨rfl, hfresh, newKeyInfo, hinfo⟩ := hr
    simp only [keyInfoOf, hmsg, hgroups, houtpoint, hholds, ok_bind, List.head?_cons, unwrap_some] at hinfo
    refine endures_lift_bind (fun e he => ?_) (fun newKeyInfo' hinfo' => ?_)
    · cases hinfo.symm.trans he
    · refine endures_ask_bind (Call.sending .utcNow) _ (fun decision _ => ?_)
      exact endures_pure ⟨rfl, hfresh, key, newKeyInfo', tx0Outpoint, tx0Hex, lastTxLockTime, tx0.2, _, hinfo', htx0,
        rfl, rfl⟩

end Message

section Store

variable {E K F : Type} {kit : Kit E K F} {raw : Bytes → List String} {network encMessage : String} {coin : Coin}
  {copy : Bool} {before : List String} {s : Surroundings} {group : List BackupTx}

/-- Once the key has been updated for a copy, the funding transactions can be fetched again. -/
theorem endures_getTx0_again {tx0Outpoint : OutPoint} {tx0Hex : String}
    (hholds : tx0Of kit raw tx0Outpoint = some tx0Hex) (hupdated : s.updates ≠ before) :
    Endures (handle raw) (Fair kit raw network coin copy encMessage before) (fun r s' => s' = s ∧ r = tx0Hex)
      (fun _ s' => s' = s ∧ copy = false) (getTx0 kit tx0Outpoint.txid) s := by
  obtain ⟨txid, htxid, hraw⟩ := Option.bind_eq_some_iff.mp hholds
  unfold getTx0
  rw [htxid]
  refine endures_lift_bind nofun (fun txid' htxid' => ?_)
  cases Except.ok.inj htxid'
  refine endures_ask_bind (Call.batchTransactionGetRaw txid) _ (fun decision hfair => ?_)
  have hfair : copy = true → s.updates ≠ before →
      (decision.answer (.batchTransactionGetRaw txid) : Except String (List String)).isOk = true := hfair
  obtain ⟨-, hreply⟩ | ⟨text, hfails, hreply⟩ := handle_batchTransactionGetRaw raw decision txid s
  · rw [hreply]
    refine endures_lift_bind nofun (fun txBytes htxBytes => ?_)
    cases Except.ok.inj htxBytes
    rw [hraw]
    refine endures_lift nofun (fun tx0Hex' htx0Hex' => ?_)
    cases Except.ok.inj htx0Hex'
    exact ⟨rfl, rfl⟩
  · have hcopy : copy = false := Bool.eq_false_iff.mpr (fun hcopy => hfails (hfair hcopy hupdated))
    rw [hreply]
    exact endures_lift_bind (fun _ _ => ⟨rfl, hcopy⟩) (fun txBytes htxBytes => nomatch htxBytes)

theorem getAmountFromTx0_error {tx0Hex : String} {tx0 : Crates.Transaction} {outpoint : OutPoint} {failure : Failure}
    (htx0 : kit.btc.deserialize tx0Hex = .ok tx0)
    (h : getAmountFromTx0 kit.btc tx0Hex outpoint = .error failure) : failure = .panic := by
  simp only [getAmountFromTx0, htx0, question_ok, ok_bind] at h
  obtain hother | ⟨_, -, h⟩ := bind_eq_error.mp h
  · exact (throwIf_eq_error.mp hother).2.symm
  · obtain hnone | ⟨_, -, h⟩ := bind_eq_error.mp h
    · exact (orThrow_eq_error.mp hnone).2.symm
    · cases h

/-- With a copy, only a panic can stop the reading of a group that has been read before. -/
theorem endures_duplicatedCoinData (index : ℕ) (hread : Readable kit raw group)
    (hspends : ∀ b ∈ group, ∃ outpoint, getPreviousOutpoint kit.btc b = .ok outpoint)
    (hupdated : s.updates ≠ before) :
    Endures (handle raw) (Fair kit raw network coin copy encMessage before) (fun _ s' => s' = s)
      (fun failure s' => s' = s ∧ (copy = true → failure = .panic)) (duplicatedCoinData kit index group) s := by
  obtain ⟨tx0Outpoint, tx0Hex, tx0, houtpoint, hholds, htx0⟩ := hread
  unfold duplicatedCoinData
  rw [houtpoint]
  refine endures_lift_bind nofun (fun tx0Outpoint' houtpoint' => ?_)
  cases Except.ok.inj houtpoint'
  refine endures_bind (endures_mono ?_ ?_ (endures_getTx0_again hholds hupdated))
  · rintro tx0Hex' s' ⟨rfl, rfl⟩
    refine endures_lift_bind (fun _ hnone => ⟨rfl, fun _ => (orThrow_eq_error.mp hnone).2.symm⟩) (fun b hb => ?_)
    obtain ⟨outpoint, hspent⟩ := hspends b (List.mem_of_head? (unwrap_eq_ok.mp hb))
    rw [hspent]
    refine endures_lift_bind nofun (fun outpoint' houtpoint' => ?_)
    refine endures_lift_bind (fun _ herror => ⟨rfl, fun _ => getAmountFromTx0_error htx0 herror⟩) (fun _ _ => ?_)
    exact endures_pure rfl
  · rintro failure s' ⟨rfl, hcopy⟩
    exact ⟨rfl, fun htrue => absurd (hcopy.symm.trans htrue) Bool.false_ne_true⟩

theorem endures_duplicatedCoinsData (rows : List (List BackupTx × ℕ)) (hread : ∀ row ∈ rows, Readable kit raw row.1)
    (hspends : ∀ row ∈ rows, ∀ b ∈ row.1, ∃ outpoint, getPreviousOutpoint kit.btc b = .ok outpoint)
    (hupdated : s.updates ≠ before) :
    Endures (handle raw) (Fair kit raw network coin copy encMessage before) (fun _ s' => s' = s)
      (fun failure s' => s' = s ∧ (copy = true → failure = .panic)) (duplicatedCoinsData kit rows) s := by
  induction rows with
  | nil => exact endures_pure rfl
  | cons row rows ih =>
    obtain ⟨hrow, hrows⟩ := List.forall_mem_cons.mp hread
    obtain ⟨hspent, hspends⟩ := List.forall_mem_cons.mp hspends
    refine endures_bind (endures_mono ?_ (fun _ _ h => h) (endures_duplicatedCoinData row.2 hrow hspent hupdated))
    rintro data s' rfl
    refine endures_bind (endures_mono ?_ (fun _ _ h => h) (ih hrows hspends))
    rintro more s'' rfl
    exact endures_pure rfl

/-- After the key has been updated the backup transactions are stored, and with a copy only a panic can prevent
the result. -/
theorem endures_storeReceived (walletName : String) (transferMsg : TransferMsg) (rows : List (List BackupTx × ℕ))
    (hread : ∀ row ∈ rows, Readable kit raw row.1)
    (hspends : ∀ row ∈ rows, ∀ b ∈ row.1, ∃ outpoint, getPreviousOutpoint kit.btc b = .ok outpoint)
    (hupdated : s.updates ≠ before) :
    Endures (handle raw) (Fair kit raw network coin copy encMessage before)
      (fun _ s' => s' = storeTxs s walletName transferMsg.statechainId transferMsg.backupTransactions)
      (fun failure s' => s' = storeTxs s walletName transferMsg.statechainId transferMsg.backupTransactions ∧
        (copy = true → failure = .panic)) (storeReceived kit walletName transferMsg rows) s := by
  refine endures_bind (endures_ask_bind (Call.insertOrUpdateBackupTxs walletName transferMsg.statechainId
    transferMsg.backupTransactions) _ (fun decision hfair => ?_))
  have hreply : handle raw decision (.insertOrUpdateBackupTxs walletName transferMsg.statechainId
        transferMsg.backupTransactions) s =
          (.ok (), storeTxs s walletName transferMsg.statechainId transferMsg.backupTransactions) ∨
      copy = false ∧ ∃ text, handle raw decision (.insertOrUpdateBackupTxs walletName transferMsg.statechainId
        transferMsg.backupTransactions) s =
          (.error text, storeTxs s walletName transferMsg.statechainId transferMsg.backupTransactions) := by
    rw [Fair] at hfair
    have hhandle : handle raw decision (.insertOrUpdateBackupTxs walletName transferMsg.statechainId
        transferMsg.backupTransactions) s = updateRow decision.fault s
          (storeTxs s walletName transferMsg.statechainId transferMsg.backupTransactions) := rfl
    rw [hhandle]
    cases hfault : decision.fault with
    | ok => exact .inl rfl
    | failed text =>
      rw [hfault] at hfair
      exact hfair.elim
    | lost text =>
      rw [hfault] at hfair
      exact .inr ⟨hfair, text, rfl⟩
  obtain hreply | ⟨hcopy, text, hreply⟩ := hreply
  · rw [hreply]
    refine endures_lift nofun (fun _ _ => ?_)
    refine endures_bind (endures_mono ?_ (fun _ _ h => h) (endures_duplicatedCoinsData rows hread hspends hupdated))
    rintro duplicatedCoins s' rfl
    exact endures_pure rfl
  · rw [hreply]
    refine endures_lift (fun _ _ => ⟨rfl, fun htrue => ?_⟩) (fun _ hnone => nomatch hnone)
    exact absurd (hcopy.symm.trans htrue) Bool.false_ne_true

theorem exists_outpoint_of_split {txs : List BackupTx} {groups : List (List BackupTx)}
    (hsplit : splitBackupTransactions kit.btc txs = .ok groups) (hgroup : group ∈ groups) :
    ∀ b ∈ group, ∃ outpoint, getPreviousOutpoint kit.btc b = .ok outpoint := by
  intro b hb
  obtain ⟨outpointOf, hread⟩ := exists_outpointOf hsplit
  cases (splitBackupTransactions_eq hread).symm.trans hsplit
  exact ⟨_, hread b (mem_of_mem_group hgroup hb)⟩

theorem groups_ne_nil {txs : List BackupTx} {groups : List (List BackupTx)}
    (hsplit : splitBackupTransactions kit.btc txs = .ok groups) (htxs : txs ≠ []) : groups ≠ [] := by
  obtain ⟨b, hb⟩ := List.exists_mem_of_ne_nil txs htxs
  obtain ⟨outpointOf, hread⟩ := exists_outpointOf hsplit
  cases (splitBackupTransactions_eq hread).symm.trans hsplit
  obtain ⟨group, hgroup, -⟩ := mem_group_of_mem hb
  exact List.ne_nil_of_mem hgroup

end Store

section Process

variable {E K F : Type} [DecidableEq E] {kit : Kit E K F} {raw : Bytes → List String}
  {network encMessage walletName : String} {coin : Coin} {copy : Bool} {s : Surroundings} {transferMsg : TransferMsg}

/-- The key of the statechain has been updated for the coin, and the backup transactions are stored. -/
structure Recorded (kit : Kit E K F) (network walletName : String) (old : Coin) (transferMsg : TransferMsg)
    (s : Surroundings) (new : Coin) (activity : Activity) (s' : Surroundings) : Prop where
  takes : Takes kit network old transferMsg new activity
  fresh : transferMsg.statechainId ∉ s.updates
  state : s' = storeTxs { s with updates := s.updates ++ [transferMsg.statechainId] } walletName
    transferMsg.statechainId transferMsg.backupTransactions

/-- A message that has been opened either leaves the coin and the activities as they are, and the key with them, or
is recorded. With a copy, a message that is recorded has a result, and one that is not has none. -/
theorem endures_processEncryptedMessage {groups : List (List BackupTx)} {activities : List Activity}
    (hopened : Opened kit raw coin encMessage transferMsg groups) (hcopy : copy = true → groups ≠ []) :
    Endures (handle raw) (Fair kit raw network coin copy encMessage s.updates)
      (fun r s' =>
        (r.1 = coin ∧ r.2.1 = activities ∧ s' = s ∧ (copy = true → r.2.2 = none) ∧ dataOf r.2.2 = []) ∨
        ∃ activity, Recorded kit network walletName coin transferMsg s r.1 activity s' ∧
          r.2.1 = activities ++ [activity] ∧ (copy = true → r.2.2 ≠ none))
      (fun failure _ => failure = .panic)
      (processEncryptedMessage kit coin encMessage network walletName activities) s := by
  obtain ⟨hmsg, hsplit, hread⟩ := hopened
  unfold processEncryptedMessage
  have hmessage : Endures (handle raw) (Fair kit raw network coin copy encMessage s.updates)
      (fun r s' => r = (transferMsg, groups.zipIdx) ∧ s' = s) (fun _ _ => False)
      (liftM (openMessage kit coin encMessage) : Operation F _) s := by
    rw [openMessage, hmsg, ok_bind, hsplit]
    exact endures_pure ⟨rfl, rfl⟩
  refine endures_bind (endures_mono ?_ (fun _ _ h => h) (endures_attempt hmessage))
  rintro message s' ⟨hsome, hnone⟩
  cases message with
  | none =>
    obtain ⟨_, -, hfalse⟩ := hnone rfl
    exact hfalse.elim
  | some message =>
    obtain ⟨rfl, rfl⟩ := hsome _ rfl
    cases groups with
    | nil => exact endures_pure (.inl ⟨rfl, rfl, rfl, fun htrue => absurd rfl (hcopy htrue), rfl⟩)
    | cons first rest =>
      refine endures_bind (endures_mono ?_ (fun _ _ h => h) (endures_attempt (endures_takeOver hmsg hsplit s')))
      rintro taken s'' ⟨hsome, hnone⟩
      cases taken with
      | none =>
        obtain ⟨_, -, rfl⟩ := hnone rfl
        exact endures_pure (.inl ⟨rfl, rfl, rfl, fun _ => rfl, rfl⟩)
      | some taken =>
        have htaken := hsome _ rfl
        cases taken with
        | none =>
          obtain ⟨rfl, hown⟩ := htaken
          exact endures_pure (.inl ⟨rfl, rfl, rfl, fun htrue => absurd (htrue.symm.trans hown) (by decide), rfl⟩)
        | some taken =>
          obtain ⟨new, activity⟩ := taken
          obtain ⟨rfl, hfresh, htakes⟩ := htaken
          have hupdated : s'.updates ++ [transferMsg.statechainId] ≠ s'.updates := by simp
          have hgroup : ∀ row ∈ rest.zipIdx 1, row.1 ∈ first :: rest := fun row hrow =>
            List.mem_cons_of_mem first (List.fst_mem_of_mem_zipIdx hrow)
          refine endures_bind (endures_mono ?_ (fun _ _ h => h) (endures_attempt (endures_storeReceived walletName
            transferMsg (rest.zipIdx 1) (fun row hrow => hread row.1 (hgroup row hrow))
            (fun row hrow => exists_outpoint_of_split hsplit (hgroup row hrow)) hupdated)))
          rintro result t ⟨hsome, hnone⟩
          cases result with
          | none =>
            obtain ⟨failure, hother, rfl, hpanic⟩ := hnone rfl
            exact endures_pure (.inr ⟨activity, ⟨htakes, hfresh, rfl⟩, rfl, fun htrue => absurd (hpanic htrue) hother⟩)
          | some result => exact endures_pure (.inr ⟨activity, ⟨htakes, hfresh, hsome _ rfl⟩, rfl, fun _ => nofun⟩)

end Process

section Receive

variable {E K F : Type} [DecidableEq E] {kit : Kit E K F} {raw : Bytes → List String} {wallet : Wallet}
  {gathered gathered' : Gathered} {authPubkey encMessage : String} {coin : Coin} {copy : Bool} {s s' : Surroundings}

/-- The coin with which a message for the key is received, and whether it is a new copy. -/
def meantCoin (wallet : Wallet) (gathered : Gathered) (authPubkey : String) : Option (Coin × Bool) :=
  match gathered.tempCoins.zipIdx.find? (fun coin =>
      coin.1.authPubkey == authPubkey && coin.1.status == .initialised) with
  | some (coin, _) => some (coin, false)
  | none => ((duplicateCoinToInitializedState wallet authPubkey).toOption).map (fun coin => (coin, true))

/-- What is left of a message that has been received: the coin before and after, the activity, what the message
says, and the data of further deposits. -/
structure Receipt where
  authPubkey : String
  encMessage : String
  old : Coin
  copy : Bool
  new : Coin
  activity : Activity
  transferMsg : TransferMsg
  duplicates : List DuplicatedCoinData

/-- The coin of the wallet that is no longer there. -/
def Receipt.replaced (receipt : Receipt) : List Coin := if receipt.copy then [] else [receipt.old]

def Receipt.added (receipt : Receipt) : List Coin := receipt.new :: receipt.duplicates.map (duplicateOf receipt.new)

/-- The message was received with the coin: what is gathered has changed as the receipt says. -/
structure Applied (kit : Kit E K F) (wallet : Wallet) (receipt : Receipt) (gathered : Gathered) (s : Surroundings)
    (gathered' : Gathered) (s' : Surroundings) : Prop where
  opens : decryptTransferMsg kit.secp kit.ecies receipt.encMessage receipt.old.authPrivkey = .ok receipt.transferMsg
  recorded : Recorded kit wallet.network wallet.name receipt.old receipt.transferMsg s receipt.new receipt.activity s'
  own : receipt.copy = false → receipt.old.status = .initialised
  activities : gathered'.tempActivities = gathered.tempActivities ++ [receipt.activity]
  coins : (gathered'.tempCoins ++ gathered'.duplicatedCoins ++ receipt.replaced).Perm
    (gathered.tempCoins ++ gathered.duplicatedCoins ++ receipt.added)

/-- The coins and the activities are those that were gathered before. -/
def Kept (gathered gathered' : Gathered) : Prop :=
  gathered'.tempCoins = gathered.tempCoins ∧ gathered'.tempActivities = gathered.tempActivities ∧
    gathered'.duplicatedCoins = gathered.duplicatedCoins

/-- The message has left everything as it was, or has been received whole. -/
def TakenUp (kit : Kit E K F) (wallet : Wallet) (authPubkey encMessage : String) (gathered : Gathered)
    (s : Surroundings) (gathered' : Gathered) (s' : Surroundings) : Prop :=
  Kept gathered gathered' ∧ s' = s ∨ ∃ receipt, receipt.authPubkey = authPubkey ∧ receipt.encMessage = encMessage ∧
    Applied kit wallet receipt gathered s gathered' s'

/-- A message received with a copy brings a backup transaction. -/
def BringsBackup (kit : Kit E K F) (coin : Coin) (encMessage : String) : Prop :=
  ∀ transferMsg, decryptTransferMsg kit.secp kit.ecies encMessage coin.authPrivkey = .ok transferMsg →
    transferMsg.backupTransactions ≠ []

theorem gather_error {new : Coin} {result : MessageResult} {failure : Failure}
    (h : gather gathered new result = .error failure) : failure = .panic := by
  obtain h | ⟨_, -, h⟩ := bind_eq_error.mp h
  · exact (throwIf_eq_error.mp h).2.symm
  · cases h

theorem perm_set {coins : List Coin} {place : ℕ} {old : Coin} (new : Coin) (h : coins[place]? = some old) :
    (coins.set place new ++ [old]).Perm (coins ++ [new]) := by
  obtain ⟨hlt, rfl⟩ := List.getElem?_eq_some_iff.mp h
  calc
    (coins.set place new ++ [coins[place]]).Perm (new :: coins.eraseIdx place ++ [coins[place]]) :=
      (List.set_perm_cons_eraseIdx hlt new).append_right _
    List.Perm _ (new :: coins[place] :: coins.eraseIdx place) := (List.perm_append_singleton _ _).cons new
    List.Perm _ (new :: coins) := (List.getElem_cons_eraseIdx_perm hlt).cons new
    List.Perm _ (coins ++ [new]) := (List.perm_append_singleton new coins).symm

theorem append_swap (x y z : List Coin) : (x ++ y ++ z).Perm (x ++ z ++ y) := by
  rw [List.append_assoc, List.append_assoc]
  exact List.perm_append_comm.append_left x

theorem perm_added {coins kept duplicates more replaced : List Coin} {new : Coin}
    (h : (kept ++ replaced).Perm (coins ++ [new])) :
    (kept ++ (duplicates ++ more) ++ replaced).Perm (coins ++ duplicates ++ new :: more) :=
  calc
    (kept ++ (duplicates ++ more) ++ replaced).Perm (kept ++ replaced ++ (duplicates ++ more)) := append_swap _ _ _
    List.Perm _ (coins ++ [new] ++ (duplicates ++ more)) := h.append_right _
    List.Perm _ (coins ++ duplicates ++ new :: more) := by
      rw [List.append_assoc, List.append_assoc coins]
      exact (List.perm_append_comm_assoc [new] duplicates more).append_left coins

variable {transferMsg : TransferMsg} {new : Coin} {activity : Activity}

omit [DecidableEq E] in
theorem applied_of_recorded {more : List DuplicatedCoinData}
    (hopens : decryptTransferMsg kit.secp kit.ecies encMessage coin.authPrivkey = .ok transferMsg)
    (hrecorded : Recorded kit wallet.network wallet.name coin transferMsg s new activity s')
    (hown : copy = false → coin.status = .initialised)
    (hcoins : (gathered'.tempCoins ++ if copy then [] else [coin]).Perm (gathered.tempCoins ++ [new]))
    (hactivities : gathered'.tempActivities = gathered.tempActivities ++ [activity])
    (hduplicates : gathered'.duplicatedCoins = gathered.duplicatedCoins ++ more.map (duplicateOf new)) :
    Applied kit wallet ⟨authPubkey, encMessage, coin, copy, new, activity, transferMsg, more⟩ gathered s
      gathered' s' where
  opens := hopens
  recorded := hrecorded
  own := hown
  activities := hactivities
  coins := by
    rw [hduplicates]
    exact perm_added hcoins

/-- How the coin is kept with which a message was received, with its activities and the further deposits. -/
structure Keeps (gathered : Gathered) (coin : Coin) (copy : Bool)
    (keep : Coin → List Activity → Option MessageResult → Res Gathered) : Prop where
  error : ∀ {new activities result failure}, keep new activities result = .error failure → failure = .panic
  more : ∀ {new activities result gathered'}, keep new activities result = .ok gathered' →
    gathered'.tempActivities = activities ∧
      gathered'.duplicatedCoins = gathered.duplicatedCoins ++ (dataOf result).map (duplicateOf new)
  same : ∀ {activities result gathered'}, keep coin activities result = .ok gathered' →
    (copy = true → result = none) → gathered'.tempCoins = gathered.tempCoins
  new : ∀ {new activities result gathered'}, keep new activities result = .ok gathered' →
    (copy = true → result ≠ none) →
      (gathered'.tempCoins ++ if copy then [] else [coin]).Perm (gathered.tempCoins ++ [new])

theorem keeps_own {place : ℕ} (hplace : gathered.tempCoins[place]? = some coin) :
    Keeps gathered coin false (keepOwn gathered place) where
  error := by
    intro new activities result failure h
    cases result with
    | none => cases h
    | some result => exact gather_error h
  more := fun h => (keepOwn_eq_ok h).2
  same := by
    intro activities result gathered' h _
    rw [(keepOwn_eq_ok h).1]
    obtain ⟨hlt, rfl⟩ := List.getElem?_eq_some_iff.mp hplace
    exact List.set_getElem_self hlt
  new := by
    intro new activities result gathered' h _
    rw [(keepOwn_eq_ok h).1]
    exact perm_set new hplace

theorem keeps_new : Keeps gathered coin true (keepNew gathered) where
  error := by
    intro new activities result failure h
    cases result with
    | none => cases h
    | some result => exact gather_error h
  more := fun h => (keepNew_eq_ok h).2
  same := by
    intro activities result gathered' h hnone
    rw [(keepNew_eq_ok h).1, if_pos (hnone rfl), List.append_nil]
  new := by
    intro new activities result gathered' h hsome
    rw [(keepNew_eq_ok h).1, if_neg (hsome rfl), if_pos rfl, List.append_nil]

variable [Add F] [Sub F] [Div F] [NatCast F] [LT F] [DecidableLT F]

theorem endures_receiveMessage_none {ok : Decision F → Call F → Surroundings → Prop} (infoConfig : InfoConfig F)
    (blockheight : UInt32) (hmeant : meantCoin wallet gathered authPubkey = none) :
    Endures (handle raw) ok (fun gathered' s' => Kept gathered gathered' ∧ s' = s) (fun failure _ => failure = .panic)
      (receiveMessage kit wallet infoConfig blockheight gathered authPubkey encMessage) s := by
  rw [meantCoin] at hmeant
  rw [receiveMessage]
  cases hfind : gathered.tempCoins.zipIdx.find? (fun coin =>
    coin.1.authPubkey == authPubkey && coin.1.status == .initialised) with
  | some found =>
    rw [hfind] at hmeant
    cases hmeant
  | none =>
    rw [hfind] at hmeant
    refine endures_lift_bind (fun failure hfailure => ?_) (fun newCoin hnewCoin => ?_)
    · cases hresult : duplicateCoinToInitializedState wallet authPubkey with
      | ok coin =>
        rw [hresult] at hfailure
        cases hfailure
      | error e =>
        rw [hresult] at hfailure
        cases e with
        | panic =>
          cases hfailure
          rfl
        | mercury e => cases hfailure
        | anyhow text => cases hfailure
    · cases newCoin with
      | none => exact endures_pure ⟨⟨rfl, rfl, rfl⟩, rfl⟩
      | some coin =>
        rw [handled_eq_some.mp hnewCoin] at hmeant
        cases hmeant

theorem endures_receiveWith {keep : Coin → List Activity → Option MessageResult → Res Gathered}
    (infoConfig : InfoConfig F) (blockheight : UInt32) (hkeeps : Keeps gathered coin copy keep)
    (hown : copy = false → coin.status = .initialised)
    (hbackups : copy = true → BringsBackup kit coin encMessage) :
    Endures (handle raw) (Fair kit raw wallet.network coin copy encMessage s.updates)
      (TakenUp kit wallet authPubkey encMessage gathered s)
      (fun failure _ => failure = .panic)
      (receiveWith kit wallet infoConfig blockheight gathered coin encMessage keep) s := by
  refine endures_bind (endures_mono ?_ (fun _ _ h => h) (endures_attempt
    (endures_validateEncryptedMessage coin encMessage wallet.network infoConfig blockheight)))
  rintro validated s' ⟨hsome, hnone⟩
  cases validated with
  | none =>
    obtain ⟨_, -, rfl⟩ := hnone rfl
    exact endures_pure (.inl ⟨⟨rfl, rfl, rfl⟩, rfl⟩)
  | some validated =>
    obtain ⟨rfl, transferMsg, groups, hopened⟩ := hsome () rfl
    refine endures_bind (endures_mono ?_ (fun _ _ h => h) (endures_processEncryptedMessage hopened
      (fun htrue => groups_ne_nil hopened.2.1 (hbackups htrue transferMsg hopened.1))))
    rintro ⟨new, activities, result⟩ s'' hprocessed
    refine endures_lift (fun _ => hkeeps.error) (fun gathered' hkept => ?_)
    obtain ⟨hactivities, hduplicates⟩ := hkeeps.more hkept
    obtain ⟨rfl, rfl, rfl, hresult, hdata⟩ | ⟨activity, hrecorded, rfl, hresult⟩ := hprocessed
    · rw [hdata, List.map_nil, List.append_nil] at hduplicates
      exact .inl ⟨⟨hkeeps.same hkept hresult, hactivities, hduplicates⟩, rfl⟩
    · exact .inr ⟨⟨authPubkey, encMessage, coin, copy, new, activity, transferMsg, dataOf result⟩, rfl, rfl,
        applied_of_recorded hopened.1 hrecorded hown (hkeeps.new hkept hresult) hactivities hduplicates⟩

/-- A message either leaves what is gathered, and the key, as they are, or is received whole. -/
theorem endures_receiveMessage (infoConfig : InfoConfig F) (blockheight : UInt32)
    (hmeant : meantCoin wallet gathered authPubkey = some (coin, copy))
    (hbackups : copy = true → BringsBackup kit coin encMessage) :
    Endures (handle raw) (Fair kit raw wallet.network coin copy encMessage s.updates)
      (TakenUp kit wallet authPubkey encMessage gathered s)
      (fun failure _ => failure = .panic)
      (receiveMessage kit wallet infoConfig blockheight gathered authPubkey encMessage) s := by
  rw [meantCoin] at hmeant
  rw [receiveMessage]
  cases hfind : gathered.tempCoins.zipIdx.find? (fun coin =>
    coin.1.authPubkey == authPubkey && coin.1.status == .initialised) with
  | some found =>
    rw [hfind] at hmeant
    obtain ⟨hplace, hstatus⟩ := waiting_of_find hfind
    cases hmeant
    exact endures_receiveWith infoConfig blockheight (keeps_own hplace) (fun _ => hstatus) hbackups
  | none =>
    rw [hfind] at hmeant
    cases hcopy : duplicateCoinToInitializedState wallet authPubkey with
    | ok new =>
      rw [hcopy] at hmeant
      cases hmeant
      refine endures_lift_bind (fun failure hfailure => ?_) (fun newCoin hnewCoin => ?_)
      · cases hfailure
      · cases Except.ok.inj hnewCoin
        exact endures_receiveWith infoConfig blockheight keeps_new (fun h => absurd h (by decide)) hbackups
    | error e =>
      rw [hcopy] at hmeant
      cases hmeant

end Receive

end MercuryLayer.Client.Receipts
