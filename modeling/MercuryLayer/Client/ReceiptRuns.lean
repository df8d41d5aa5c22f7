import MercuryLayer.Client.Receipts
import MercuryLayer.Client.ReceiverSoundness

namespace MercuryLayer.Client.ReceiptRuns

open Client.CoinSteps (keepsWallet_of_consults)
open Client.Operations hiding handle
open Client.Receipts Client.Receive Client.ReceiverSoundness
open Client.Transaction hiding Call Reply
open Client.System (selectRow_eq_ok)
open Client.TransferReceiver (InfoConfig Unspent anyhow_eq_ok)
open Crates Error Library.Endurance Library.Programs Library.Tables Library.Validation Library.XOnlyCurve
open Lockbox.Server (DbFault)
open Receiver WalletData

variable {E K F : Type}

section Condition

variable [DecidableEq E] [Add F] [Sub F] [Div F] [NatCast F] [LT F] [DecidableLT F]

/-- What `execute` does before the first message. -/
def fetchMessages (walletName : String) :
    Operation F (Wallet × InfoConfig F × UInt32 × List (String × String)) := do
  let wallet ← getWallet walletName
  let infoConfig ← expectOk (send infoConfig)
  let setOrder : List String → List String ← ask (Call.hashOrder : Call F)
  let encMsgs ← encMsgsPerAuthPubkey (setOrder (wallet.coins.map Coin.authPubkey).eraseDups)
  let blockheight ← send currentBlockheight
  let mapOrder : List String → List String ← ask (Call.hashOrder : Call F)
  return (wallet, infoConfig, blockheight, (mapOrder (encMsgs.map Prod.fst)).flatMap (fun authPubkey =>
    ((encMsgs.lookup authPubkey).getD []).map (fun encMessage => (authPubkey, encMessage))))

def gatheredWallet (wallet : Wallet) (gathered : Gathered) : Wallet :=
  { wallet with
    coins := sortCoinsByStatechain (gathered.tempCoins ++ gathered.duplicatedCoins)
    activities := gathered.tempActivities }

/-- What `execute` does after the last message. -/
def saveGathered (wallet : Wallet) (gathered : Gathered) : Operation F TransferReceiveResult := do
  updateWallet (gatheredWallet wallet gathered)
  return ⟨gathered.isThereBatchLocked, gathered.receivedStatechainIds⟩

def untouched (wallet : Wallet) : Gathered := ⟨wallet.coins, wallet.activities, [], false, []⟩

theorem execute_eq (kit : Kit E K F) (walletName : String) :
    Receive.execute kit walletName = (do
      let (wallet, infoConfig, blockheight, messages) ← fetchMessages walletName
      let gathered ← receiveMessages kit wallet infoConfig blockheight messages (untouched wallet)
      saveGathered wallet gathered) := by
  have hask : ∀ {α β : Type} (f : (List String → List String) → Operation F α) (g : α → Operation F β),
      (ask (Call.hashOrder : Call F) >>= f) >>= g = ask (Call.hashOrder : Call F) >>= fun order => f order >>= g :=
    fun f g => bind_assoc (ask (Call.hashOrder : Call F)) f g
  unfold Receive.execute fetchMessages gatherMessages
  rw [bind_assoc]
  refine bind_congr fun wallet => ?_
  rw [bind_assoc, bind_assoc]
  refine bind_congr fun infoConfig => ?_
  refine (hask _ _).trans (Eq.trans (bind_congr fun setOrder => ?_) (hask _ _).symm)
  rw [bind_assoc, bind_assoc]
  refine bind_congr fun encMsgs => ?_
  rw [bind_assoc, bind_assoc]
  refine bind_congr fun blockheight => ?_
  exact (hask _ _).trans (hask _ _).symm

instance BringsBackup.decidable (kit : Kit E K F) (coin : Coin) (encMessage : String) :
    Decidable (BringsBackup kit coin encMessage) :=
  match h : decryptTransferMsg kit.secp kit.ecies encMessage coin.authPrivkey with
  | .ok transferMsg => decidable_of_iff (transferMsg.backupTransactions ≠ []) (by simp [BringsBackup, h])
  | .error _ => .isTrue (by simp [BringsBackup, h])

/-- Every message is received under the condition on its calls. -/
def FairMessages (kit : Kit E K F) (raw : Bytes → List String) (wallet : Wallet) (infoConfig : InfoConfig F)
    (blockheight : UInt32) : List (String × String) → Gathered → (ℕ → Decision F) → Surroundings → Prop
  | [], _, _, _ => True
  | (authPubkey, encMessage) :: messages, gathered, choices, s =>
    let receive := (receiveMessage kit wallet infoConfig blockheight gathered authPubkey encMessage).run
    (match meantCoin wallet gathered authPubkey with
      | some (coin, copy) => (copy = true → BringsBackup kit coin encMessage) ∧
        Admits (handle raw) (Fair kit raw wallet.network coin copy encMessage s.updates) receive choices s
      | none => True) ∧
    match exec (handle raw) receive choices s with
    | (some (.ok gathered'), s') =>
      FairMessages kit raw wallet infoConfig blockheight messages gathered' (remaining (handle raw) receive choices s) s'
    | _ => True

instance FairMessages.decidable (kit : Kit E K F) (raw : Bytes → List String) (wallet : Wallet)
    (infoConfig : InfoConfig F) (blockheight : UInt32) : (messages : List (String × String)) →
      (gathered : Gathered) → (choices : ℕ → Decision F) → (s : Surroundings) →
        Decidable (FairMessages kit raw wallet infoConfig blockheight messages gathered choices s)
  | [], _, _, _ => .isTrue trivial
  | (authPubkey, encMessage) :: messages, gathered, choices, s => by
    unfold FairMessages
    refine @instDecidableAnd _ _ ?_ ?_
    · split <;> infer_instance
    · split
      · exact FairMessages.decidable kit raw wallet infoConfig blockheight messages _ _ _
      · infer_instance

def Saves : DbFault → Prop
  | .failed _ => False
  | _ => True

instance Saves.decidable : (fault : DbFault) → Decidable (Saves fault)
  | .ok | .lost _ => .isTrue trivial
  | .failed _ => .isFalse id

/-- The operation ends with a result or an error, not with a panic. -/
def Returns {α : Type} (r : Option (Res α)) : Prop := ∃ result, r = some result ∧ result ≠ .error .panic

instance Returns.decidable {α : Type} : (r : Option (Res α)) → Decidable (Returns r)
  | none => .isFalse (fun ⟨_, h, _⟩ => nomatch h)
  | some (.ok result) => .isTrue ⟨.ok result, rfl, nofun⟩
  | some (.error .panic) => .isFalse (fun ⟨_, h, hne⟩ => hne (Option.some.inj h).symm)
  | some (.error (.mercury _)) | some (.error (.anyhow _)) => .isTrue ⟨_, rfl, nofun⟩

/-- The messages are received under the condition, and the wallet is saved if a key has been updated. -/
def FairRun (kit : Kit E K F) (raw : Bytes → List String) (walletName : String) (choices : ℕ → Decision F)
    (s : Surroundings) : Prop :=
  match exec (handle raw) (fetchMessages walletName).run choices s with
  | (some (.ok (wallet, infoConfig, blockheight, messages)), s') =>
    let choices := remaining (handle raw) (fetchMessages walletName).run choices s
    let receive := (receiveMessages kit wallet infoConfig blockheight messages (untouched wallet)).run
    FairMessages kit raw wallet infoConfig blockheight messages (untouched wallet) choices s' ∧
      ((exec (handle raw) receive choices s').2.updates ≠ [] →
        Saves (remaining (handle raw) receive choices s' 0).fault)
  | _ => True

instance FairRun.decidable (kit : Kit E K F) (raw : Bytes → List String) (walletName : String)
    (choices : ℕ → Decision F) (s : Surroundings) : Decidable (FairRun kit raw walletName choices s) := by
  unfold FairRun
  split <;> infer_instance

end Condition

section Progress

variable {kit : Kit E K F} {raw : Bytes → List String} {wallet : Wallet} {messages : List (String × String)}
  {receipts : List Receipt} {receipt : Receipt} {gathered gathered' : Gathered} {start s s' : Surroundings}

/-- A message that has been received whole: the coin has the new key and the backup transactions are stored. -/
structure Whole (kit : Kit E K F) (wallet : Wallet) (messages : List (String × String)) (backups : Backups)
    (receipt : Receipt) : Prop where
  given : (receipt.authPubkey, receipt.encMessage) ∈ messages
  opens : decryptTransferMsg kit.secp kit.ecies receipt.encMessage receipt.old.authPrivkey = .ok receipt.transferMsg
  takes : Takes kit wallet.network receipt.old receipt.transferMsg receipt.new receipt.activity
  own : receipt.copy = false → receipt.old.status = .initialised
  stored : backups.get (wallet.name, receipt.transferMsg.statechainId) =
    some ⟨wallet.name, receipt.transferMsg.statechainId, receipt.transferMsg.backupTransactions⟩

/-- What has been gathered, and which keys have been updated, is the sum of what the receipts say. -/
structure Progress (kit : Kit E K F) (wallet : Wallet) (messages : List (String × String)) (start : Surroundings)
    (receipts : List Receipt) (gathered : Gathered) (s : Surroundings) : Prop where
  wallets : s.wallets = start.wallets
  fetched : s.fetched = start.fetched
  updates : s.updates = receipts.map (·.transferMsg.statechainId)
  activities : gathered.tempActivities = wallet.activities ++ receipts.map (·.activity)
  coins : (gathered.tempCoins ++ gathered.duplicatedCoins ++ receipts.flatMap Receipt.replaced).Perm
    (wallet.coins ++ receipts.flatMap Receipt.added)
  whole : ∀ receipt ∈ receipts, Whole kit wallet messages s.backups receipt

theorem progress_start (h : start.updates = []) : Progress kit wallet messages start [] (untouched wallet) start := by
  refine ⟨rfl, rfl, h, ?_, ?_, fun _ hreceipt => absurd hreceipt List.not_mem_nil⟩
  · rw [List.map_nil, List.append_nil]
    rfl
  · rw [List.flatMap_nil, List.flatMap_nil, List.append_nil, List.append_nil]
    exact (List.append_nil wallet.coins).symm ▸ List.Perm.refl _

theorem progress_kept (h : Progress kit wallet messages start receipts gathered s) (hkept : Kept gathered gathered') :
    Progress kit wallet messages start receipts gathered' s where
  wallets := h.wallets
  fetched := h.fetched
  updates := h.updates
  activities := hkept.2.1.trans h.activities
  coins := by
    rw [hkept.1, hkept.2.2]
    exact h.coins
  whole := h.whole

/-- A message that is received adds its receipt. The rows of the other statechains stay. -/
theorem progress_applied (h : Progress kit wallet messages start receipts gathered s)
    (happlied : Applied kit wallet receipt gathered s gathered' s')
    (hgiven : (receipt.authPubkey, receipt.encMessage) ∈ messages) :
    Progress kit wallet messages start (receipts ++ [receipt]) gathered' s' := by
  obtain ⟨hopens, ⟨htakes, hfresh, rfl⟩, hown, hactivities, hcoins⟩ := happlied
  refine ⟨h.wallets, h.fetched, ?_, ?_, ?_, ?_⟩
  · rw [List.map_append, ← h.updates]
    rfl
  · rw [hactivities, h.activities, List.map_append, List.append_assoc]
    rfl
  · rw [List.flatMap_append, List.flatMap_append, List.flatMap_singleton, List.flatMap_singleton,
      ← List.append_assoc, ← List.append_assoc]
    calc
      List.Perm _ (gathered'.tempCoins ++ gathered'.duplicatedCoins ++ receipt.replaced ++
        receipts.flatMap Receipt.replaced) := append_swap _ _ _
      List.Perm _ (gathered.tempCoins ++ gathered.duplicatedCoins ++ receipt.added ++
        receipts.flatMap Receipt.replaced) := hcoins.append_right _
      List.Perm _ (gathered.tempCoins ++ gathered.duplicatedCoins ++ receipts.flatMap Receipt.replaced ++
        receipt.added) := append_swap _ _ _
      List.Perm _ (wallet.coins ++ receipts.flatMap Receipt.added ++ receipt.added) := h.coins.append_right _
  · intro other hother
    obtain hother | hother := List.mem_append.mp hother
    · obtain ⟨hgiven', hopens', htakes', hown', hstored⟩ := h.whole other hother
      refine ⟨hgiven', hopens', htakes', hown', ?_⟩
      have hne : other.transferMsg.statechainId ≠ receipt.transferMsg.statechainId := by
        intro heq
        rw [h.updates] at hfresh
        exact hfresh (List.mem_map.mpr ⟨other, hother, heq⟩)
      rw [← hstored]
      exact Table.get_replace_of_ne fun heq => hne (Prod.mk.inj heq).2
    · cases List.mem_singleton.mp hother
      exact ⟨hgiven, hopens, htakes, hown, Table.get_replace_self⟩

end Progress

section Fetch

variable {raw : Bytes → List String} {s : Surroundings}

/-- Messages have been fetched, and nothing else has happened. -/
def Fetches (s s' : Surroundings) : Prop := ∃ more, s' = { s with fetched := s.fetched ++ more }

theorem fetches_refl (s : Surroundings) : Fetches s s := ⟨[], by rw [List.append_nil]⟩

theorem Fetches.trans {s s' t : Surroundings} (h : Fetches s s') (h' : Fetches s' t) : Fetches s t := by
  obtain ⟨more, rfl⟩ := h
  obtain ⟨rest, rfl⟩ := h'
  exact ⟨more ++ rest, by rw [← List.append_assoc]⟩

theorem Fetches.mem {s s' : Surroundings} (h : Fetches s s') {message : String × String} (hmem : message ∈ s.fetched) :
    message ∈ s'.fetched := by
  obtain ⟨more, rfl⟩ := h
  exact List.mem_append_left _ hmem

theorem endures_encMsgsPerAuthPubkey (authPubkeys : List String) (s : Surroundings) :
    Endures (handle raw) (fun (_ : Decision F) _ _ => True)
      (fun encMsgs s' => Fetches s s' ∧ ∀ row ∈ encMsgs, ∀ encMessage ∈ row.2, (row.1, encMessage) ∈ s'.fetched)
      (fun _ s' => Fetches s s') (encMsgsPerAuthPubkey authPubkeys : Operation F _) s := by
  induction authPubkeys generalizing s with
  | nil => exact endures_pure ⟨fetches_refl s, fun _ hrow => absurd hrow List.not_mem_nil⟩
  | cons authPubkey authPubkeys ih =>
    refine endures_bind (endures_ask_bind (Call.getMsgAddr authPubkey) _ (fun decision _ => ?_))
    have hreply : handle raw decision (.getMsgAddr authPubkey) s =
        ((decision.answer (.getMsgAddr authPubkey) : Except String (List String)), { s with
          fetched := s.fetched ++ ((decision.answer (.getMsgAddr authPubkey) :
            Except String (List String)).toOption.getD []).map (fun encMessage => (authPubkey, encMessage)) }) := rfl
    rw [hreply]
    cases (decision.answer (.getMsgAddr authPubkey) : Except String (List String)) with
    | error text => exact endures_lift (fun _ _ => ⟨_, rfl⟩) (fun _ h => nomatch h)
    | ok encMessages =>
      refine endures_lift (fun _ h => nomatch h) (fun encMessages' hmessages => ?_)
      cases Except.ok.inj hmessages
      have hfirst : Fetches s { s with
          fetched := s.fetched ++ encMessages.map (fun encMessage => (authPubkey, encMessage)) } := ⟨_, rfl⟩
      refine endures_bind (endures_mono ?_ (fun _ _ h => hfirst.trans h) (ih _))
      rintro rest s' ⟨hfetches, hrest⟩
      refine endures_pure ⟨hfirst.trans hfetches, ?_⟩
      split_ifs
      · exact hrest
      · refine List.forall_mem_cons.mpr ⟨fun encMessage hmem => hfetches.mem ?_, hrest⟩
        exact List.mem_append_right _ (List.mem_map.mpr ⟨encMessage, hmem, rfl⟩)

theorem idle_of_keepsWallet (c : Transaction.Call F) (h : KeepsWallet c) : Idle (.sending c) := by
  cases c with
  | updateWallet wallet => exact h.elim
  | _ => trivial

theorem mem_of_lookup {encMsgs : List (String × List String)} {authPubkey encMessage : String}
    (h : encMessage ∈ (encMsgs.lookup authPubkey).getD []) : ∃ row ∈ encMsgs, row.1 = authPubkey ∧ encMessage ∈ row.2 := by
  cases hlookup : encMsgs.lookup authPubkey with
  | none =>
    rw [hlookup] at h
    cases h
  | some encMessages =>
    rw [hlookup] at h
    obtain ⟨front, back, rfl, -⟩ := List.lookup_eq_some_iff.mp hlookup
    exact ⟨(authPubkey, encMessages), List.mem_append_right _ List.mem_cons_self, rfl, h⟩

/-- Before the first message the client only asks. The messages are among those it has been given. -/
theorem endures_fetchMessages (raw : Bytes → List String) (walletName : String) (s : Surroundings) :
    Endures (handle raw) (fun (_ : Decision F) _ _ => True)
      (fun r s' => Fetches s s' ∧ s.wallets.get walletName = some r.1 ∧ ∀ message ∈ r.2.2.2, message ∈ s'.fetched)
      (fun _ s' => Fetches s s') (fetchMessages walletName : Operation F _) s := by
  refine endures_bind (endures_ask_bind (Call.sending (.getWallet walletName)) _ (fun decision _ => ?_))
  refine endures_lift (fun _ _ => fetches_refl s) (fun wallet hwallet => ?_)
  have hfound : s.wallets.get walletName = some wallet := selectRow_eq_ok (anyhow_eq_ok.mp hwallet)
  refine endures_idle_bind (yields_expectOk (yields_send yields_infoConfig idle_of_keepsWallet))
    (fun _ => fetches_refl s) (fun infoConfig _ => ?_)
  refine endures_ask_bind Call.hashOrder _ (fun decision _ => ?_)
  refine endures_bind (endures_mono ?_ (fun _ _ h => h) (endures_encMsgsPerAuthPubkey _ s))
  rintro encMsgs s' ⟨hfetches, hencMsgs⟩
  refine endures_idle_bind (yields_send TransferSender.yields_currentBlockheight
    (fun c h => idle_of_keepsWallet c (keepsWallet_of_consults c h))) (fun _ => hfetches) (fun blockheight _ => ?_)
  refine endures_ask_bind Call.hashOrder _ (fun decision _ => ?_)
  refine endures_pure ⟨hfetches, hfound, fun message hmessage => ?_⟩
  obtain ⟨authPubkey, -, hmessage⟩ := List.mem_flatMap.mp hmessage
  obtain ⟨encMessage, hlookup, rfl⟩ := List.mem_map.mp hmessage
  obtain ⟨row, hrow, rfl, hmem⟩ := mem_of_lookup hlookup
  exact hencMsgs row hrow encMessage hmem

end Fetch

section Whole

variable {kit : Kit E K F} {raw : Bytes → List String} {wallet : Wallet} {given : List (String × String)}
  {receipts : List Receipt} {gathered : Gathered} {start s : Surroundings}

/-- After a receipt, the wallet, the stored backup transactions and the updated keys are, apart from the order of the
coins, what they were with the receipts of whole messages added. -/
def Atomic (kit : Kit E K F) (wallet : Wallet) (after : Surroundings) : Prop :=
  ∃ (receipts : List Receipt) (coins : List Coin),
    after.wallets.get wallet.name =
      some { wallet with coins := coins, activities := wallet.activities ++ receipts.map (·.activity) } ∧
    (coins ++ receipts.flatMap Receipt.replaced).Perm (wallet.coins ++ receipts.flatMap Receipt.added) ∧
    after.updates = receipts.map (·.transferMsg.statechainId) ∧
    ∀ receipt ∈ receipts, Whole kit wallet after.fetched after.backups receipt ∧ receipt.new ∈ coins

theorem stored_of_atomic (h : Atomic kit wallet s) :
    ∀ statechainId ∈ s.updates, s.backups.get (wallet.name, statechainId) ≠ none := by
  obtain ⟨receipts, _, -, -, hupdates, hwhole⟩ := h
  intro statechainId hmem
  rw [hupdates] at hmem
  obtain ⟨receipt, hreceipt, rfl⟩ := List.mem_map.mp hmem
  rw [(hwhole receipt hreceipt).1.stored]
  exact Option.some_ne_none _

theorem status_of_takes {network : String} {old new : Coin} {transferMsg : TransferMsg} {activity : Activity}
    (h : Takes kit network old transferMsg new activity) : new.status ≠ .initialised := by
  obtain ⟨_, _, _, _, _, status, _, -, hstatus, rfl, -⟩ := h
  obtain hstatus | hstatus := hstatus <;> rw [received, hstatus] <;> nofun

theorem new_mem {coins : List Coin} (hwhole : ∀ receipt ∈ receipts, Whole kit wallet given s.backups receipt)
    (hcoins : (coins ++ receipts.flatMap Receipt.replaced).Perm (wallet.coins ++ receipts.flatMap Receipt.added))
    {receipt : Receipt} (hreceipt : receipt ∈ receipts) : receipt.new ∈ coins := by
  have hadded : receipt.new ∈ wallet.coins ++ receipts.flatMap Receipt.added :=
    List.mem_append_right _ (List.mem_flatMap.mpr ⟨receipt, hreceipt, List.mem_cons_self⟩)
  obtain hmem | hmem := List.mem_append.mp (hcoins.mem_iff.mpr hadded)
  · exact hmem
  · obtain ⟨other, hother, hreplaced⟩ := List.mem_flatMap.mp hmem
    rw [Receipt.replaced] at hreplaced
    split_ifs at hreplaced with hcopy
    · cases hreplaced
    · have hold := (hwhole other hother).own (Bool.not_eq_true _ ▸ hcopy)
      rw [← List.mem_singleton.mp hreplaced] at hold
      exact absurd hold (status_of_takes (hwhole receipt hreceipt).takes)

theorem exec_saveGathered (wallet : Wallet) (gathered : Gathered) (choices : ℕ → Decision F) (s : Surroundings) :
    Saves (choices 0).fault ∧ (exec (handle raw) (saveGathered wallet gathered).run choices s).2 =
        { s with wallets := saveWallet s.wallets (gatheredWallet wallet gathered) } ∨
      ¬Saves (choices 0).fault ∧ (exec (handle raw) (saveGathered wallet gathered).run choices s).2 = s := by
  have hstate : (exec (handle raw) (saveGathered wallet gathered).run choices s).2 =
      (Client.System.updateRow (choices 0).fault s
        { s with wallets := saveWallet s.wallets (gatheredWallet wallet gathered) }).2 := by
    have hend : ∀ (stored : Except String Unit) (choices : ℕ → Decision F) (t : Surroundings),
        (exec (handle raw) (do
          liftM (TransferReceiver.anyhow stored)
          return ⟨gathered.isThereBatchLocked, gathered.receivedStatechainIds⟩ :
            Operation F TransferReceiveResult).run choices t).2 = t := by
      intro stored choices t
      cases stored <;> rfl
    exact hend _ _ _
  rw [hstate]
  cases hfault : (choices 0).fault with
  | ok => exact .inl ⟨trivial, rfl⟩
  | failed text => exact .inr ⟨id, rfl⟩
  | lost text => exact .inl ⟨trivial, rfl⟩

theorem atomic_of_progress (hwallet : start.wallets.get wallet.name = some wallet)
    (hprogress : Progress kit wallet start.fetched start receipts gathered s) :
    Atomic kit wallet { s with wallets := saveWallet s.wallets (gatheredWallet wallet gathered) } := by
  have hcoins : (sortCoinsByStatechain (gathered.tempCoins ++ gathered.duplicatedCoins) ++
      receipts.flatMap Receipt.replaced).Perm (wallet.coins ++ receipts.flatMap Receipt.added) :=
    ((List.perm_insertionSort _ _).append_right _).trans hprogress.coins
  refine ⟨receipts, _, ?_, hcoins, hprogress.updates, fun receipt hreceipt => ⟨?_, ?_⟩⟩
  · rw [← hprogress.activities]
    dsimp only
    rw [hprogress.wallets]
    exact Table.get_modify_self.trans (congrArg (Option.map _) hwallet)
  · rw [hprogress.fetched]
    exact hprogress.whole receipt hreceipt
  · exact new_mem hprogress.whole hcoins hreceipt

theorem atomic_of_unchanged (hwallet : s.wallets.get wallet.name = some wallet) (hupdates : s.updates = []) :
    Atomic kit wallet s := by
  refine ⟨[], wallet.coins, ?_, List.Perm.refl _, hupdates, fun _ h => absurd h List.not_mem_nil⟩
  rw [List.map_nil, List.append_nil]
  exact hwallet

end Whole

section Plain

def plainMsg : TransferMsg := ⟨"statechain", "", [⟨1, "b", "", "", "", "", ""⟩], [], ""⟩

def plainBtc : Bitcoin :=
  { standInBtc ⟨fun _ => ⟨"tx0", 0⟩, fun _ => 1000, fun _ => true⟩ "tx0" with
    deserialize := fun tx => .ok (if tx = "tx0" then
      { version := 2, lockTime := 0, input := [], output := [⟨0, [0x51, 0x20]⟩] }
      else standInTx ⟨fun _ => ⟨"tx0", 0⟩, fun _ => 1000, fun _ => true⟩ tx)
    txid := fun _ => "tx0" }

def plainKit : Kit Unit Unit ℕ where
  btc := plainBtc
  secp := standInSecp
  musig := ⟨fun _ _ => false, fun _ => .error .panic, fun _ _ _ _ => none, fun _ _ _ _ _ _ => false, id, fun _ => "",
    fun _ => .error .panic, fun _ => "", fun _ => .ok (), fun _ _ => ⟨[], []⟩, fun _ => "", fun _ => .ok []⟩
  envelope := ⟨fun _ => .error .panic, fun _ => .error .panic, fun _ => [], fun _ _ => none⟩
  isAddress _ := true
  ceilU64 _ := 0
  newMusigNoncePair _ _ _ := .ok ("", "")
  network := .regtest
  clientConfig := ⟨0, 0, 0⟩
  ecies := ⟨fun _ => some [], fun _ _ => some [], fun _ => some plainMsg⟩
  derivation := ⟨fun _ _ _ _ _ => .error .panic, fun _ _ => "", fun _ => "", fun _ _ _ => .error .panic⟩
  parseUuid := some
  createTransaction _ _ _ _ _ := .error .panic

def plainInfo : StatechainInfoResponsePayload := { standInInfo plainMsg with x1Pub := some "" }

def plainAnswers : (c : Call ℕ) → Reply c
  | .sending (.getWallet _) => (.error "" : Except String Wallet)
  | .sending (.updateWallet _) => (.ok () : Except String Unit)
  | .sending (.getBackupTxs _ _) => (.ok [] : Except String (List BackupTx))
  | .sending (.updateBackupTxs _ _ _) => (.ok () : Except String Unit)
  | .sending .blockHeadersSubscribeRaw => (.ok 0 : Except String UInt64)
  | .sending (.scriptListUnspent _) => (.ok [⟨"tx0", 0, 0, 0⟩] : Except String (List Unspent))
  | .sending .infoConfig => (.ok ⟨1000, 10, 0⟩ : Except String (InfoConfig ℕ))
  | .sending .drawNonce => (⟨[], ""⟩ : NonceDraw)
  | .sending (.signFirst _) => (.ok none : Response)
  | .sending (.signSecond _) => (.ok none : Response)
  | .sending (.transferSender _) => (.ok none : Response)
  | .sending (.transferUpdateMsg _) => (.ok none : Response)
  | .sending .utcNow => ("now" : String)
  | .insertBackupTxs _ _ _ => (.ok () : Except String Unit)
  | .insertOrUpdateBackupTxs _ _ _ => (.ok () : Except String Unit)
  | .batchTransactionGetRaw _ => (.ok [] : Except String (List String))
  | .transactionBroadcastRaw _ => (.ok "" : Except String String)
  | .estimateFee => (.ok 1 : Except String ℕ)
  | .drawLocktime => ((0, 0) : ℕ × ℕ)
  | .hashOrder => (fun keys => keys : List String → List String)
  | .statechainInfo _ => (.ok (some ⟨200, .statechainInfo plainInfo⟩) : Response)
  | .depositInit _ => (.ok none : Response)
  | .getMsgAddr _ => (.ok ["message"] : Except String (List String))
  | .transferUnlock _ => (.ok (some (Server.Transfer.message 200 "")) : Response)
  | .transferReceiver _ => (.ok none : Response)
  | .withdrawComplete _ => (.ok none : Response)

/-- The key has been updated, and the client is told so. -/
def granted : Delivery where
  response := .ok (some ⟨200, .fields [("server_pubkey", .text "key")]⟩)
  updated := true
  honest _ _ := rfl

def plainCoin : Coin :=
  { index := 0, userPrivkey := "", userPubkey := "", authPrivkey := "", authPubkey := "auth", derivationPath := ""
    fingerprint := "", address := "", backupAddress := "", status := .initialised, duplicateIndex := 0 }

def plainWallet : Wallet := ⟨"wallet", "regtest", [], [plainCoin]⟩

def plainStart : Surroundings := ⟨⟨[plainWallet], List.nodup_singleton _⟩, .empty, [], []⟩

/-- The storage of the backup transactions is the call after seventeen others. -/
def plainChoices (storage : DbFault) (i : ℕ) : Decision ℕ :=
  { fault := if i = 17 then storage else .ok, answer := plainAnswers, delivery := granted }

end Plain

section Runs

variable [DecidableEq E] [Add F] [Sub F] [Div F] [NatCast F] [LT F] [DecidableLT F]
  {kit : Kit E K F} {raw : Bytes → List String} {wallet : Wallet} {given messages : List (String × String)}
  {receipts : List Receipt} {gathered : Gathered} {start s s' : Surroundings} {choices : ℕ → Decision F}
  {infoConfig : InfoConfig F} {blockheight : UInt32} {authPubkey encMessage : String}

theorem exec_receiveMessage (hprogress : Progress kit wallet given start receipts gathered s)
    (hgiven : (authPubkey, encMessage) ∈ given)
    (hfair : FairMessages kit raw wallet infoConfig blockheight ((authPubkey, encMessage) :: messages) gathered
      choices s) :
    (∀ gathered', (exec (handle raw) (receiveMessage kit wallet infoConfig blockheight gathered authPubkey
        encMessage).run choices s).1 = some (.ok gathered') →
      ∃ receipts', Progress kit wallet given start receipts' gathered' (exec (handle raw) (receiveMessage kit wallet
        infoConfig blockheight gathered authPubkey encMessage).run choices s).2) ∧
    ∀ failure, (exec (handle raw) (receiveMessage kit wallet infoConfig blockheight gathered authPubkey
        encMessage).run choices s).1 = some (.error failure) → failure = .panic := by
  obtain ⟨hadmits, -⟩ := hfair
  cases hmeant : meantCoin wallet gathered authPubkey with
  | none =>
    have hnone : Endures (handle raw) (fun _ _ _ => True) (fun gathered' s' => Kept gathered gathered' ∧ s' = s)
        (fun failure _ => failure = .panic)
        (receiveMessage kit wallet infoConfig blockheight gathered authPubkey encMessage) s :=
      endures_receiveMessage_none infoConfig blockheight hmeant
    have hstep := exec_of_endures hnone (admits_of_forall (fun _ _ _ => trivial) _ choices s)
    refine ⟨fun gathered' hok => ⟨receipts, ?_⟩, hstep.2⟩
    obtain ⟨hkept, hsame⟩ := hstep.1 gathered' hok
    rw [hsame]
    exact progress_kept hprogress hkept
  | some meant =>
    obtain ⟨coin, copy⟩ := meant
    rw [hmeant] at hadmits
    obtain ⟨hbackups, hadmits⟩ := hadmits
    have hstep := exec_of_endures (endures_receiveMessage infoConfig blockheight hmeant hbackups) hadmits
    refine ⟨fun gathered' hok => ?_, hstep.2⟩
    obtain ⟨hkept, hsame⟩ | ⟨receipt, rfl, rfl, happlied⟩ := hstep.1 gathered' hok
    · rw [hsame]
      exact ⟨receipts, progress_kept hprogress hkept⟩
    · exact ⟨receipts ++ [receipt], progress_applied hprogress happlied hgiven⟩

theorem exec_receiveMessages {r : Res Gathered} (hprogress : Progress kit wallet given start receipts gathered s)
    (hgiven : ∀ message ∈ messages, message ∈ given)
    (hfair : FairMessages kit raw wallet infoConfig blockheight messages gathered choices s)
    (hexec : exec (handle raw) (receiveMessages kit wallet infoConfig blockheight messages gathered).run choices s =
      (some r, s')) (hreturns : r ≠ .error .panic) :
    ∃ gathered' receipts', r = .ok gathered' ∧ Progress kit wallet given start receipts' gathered' s' := by
  induction messages generalizing receipts gathered choices s with
  | nil =>
    cases hexec
    exact ⟨gathered, receipts, rfl, hprogress⟩
  | cons message messages ih =>
    obtain ⟨authPubkey, encMessage⟩ := message
    obtain ⟨hmessage, hmessages⟩ := List.forall_mem_cons.mp hgiven
    obtain ⟨hok, herror⟩ := exec_receiveMessage hprogress hmessage hfair
    obtain ⟨-, hrest⟩ := hfair
    rw [receiveMessages] at hexec
    generalize hfirst : exec (handle raw) (receiveMessage kit wallet infoConfig blockheight gathered authPubkey
      encMessage).run choices s = out at hok herror hrest
    obtain ⟨result, t⟩ := out
    cases result with
    | none =>
      rw [ExceptT.run_bind, exec_bind_remaining, hfirst] at hexec
      cases hexec
    | some result =>
      cases result with
      | error failure =>
        rw [exec_bind_of_error _ hfirst] at hexec
        cases hexec
        exact absurd (congrArg Except.error (herror failure rfl)) hreturns
      | ok gathered' =>
        obtain ⟨receipts', hprogress'⟩ := hok gathered' rfl
        rw [exec_bind_of_ok _ hfirst] at hexec
        exact ih hprogress' hmessages hrest hexec

/-- The messages and the save, from a state in which the messages have been fetched. -/
theorem atomic_of_messages {r : Option (Res TransferReceiveResult)}
    (hwallet : start.wallets.get wallet.name = some wallet) (hupdates : start.updates = [])
    (hgiven : ∀ message ∈ messages, message ∈ start.fetched)
    (hfair : FairMessages kit raw wallet infoConfig blockheight messages (untouched wallet) choices start)
    (hsaves : (exec (handle raw) (receiveMessages kit wallet infoConfig blockheight messages (untouched wallet)).run
      choices start).2.updates ≠ [] →
      Saves (remaining (handle raw) (receiveMessages kit wallet infoConfig blockheight messages
        (untouched wallet)).run choices start 0).fault)
    (hexec : exec (handle raw) (do
      let gathered ← receiveMessages kit wallet infoConfig blockheight messages (untouched wallet)
      saveGathered wallet gathered : Operation F _).run choices start = (r, s')) (hreturns : Returns r) :
    Atomic kit wallet s' := by
  obtain ⟨result, rfl, hpanic⟩ := hreturns
  generalize hout : exec (handle raw) (receiveMessages kit wallet infoConfig blockheight messages
    (untouched wallet)).run choices start = out at hsaves
  obtain ⟨received, s⟩ := out
  cases received with
  | none =>
    rw [ExceptT.run_bind, exec_bind_remaining, hout] at hexec
    cases hexec
  | some received =>
    cases received with
    | error failure =>
      rw [exec_bind_of_error _ hout] at hexec
      cases hexec
      obtain ⟨_, _, herror, -⟩ := exec_receiveMessages (progress_start hupdates) hgiven hfair hout
        (fun h => hpanic (congrArg Except.error (Except.error.inj h)))
      cases herror
    | ok gathered =>
      rw [exec_bind_of_ok _ hout] at hexec
      obtain ⟨_, receipts, hok, hprogress⟩ := exec_receiveMessages (progress_start hupdates) hgiven hfair hout nofun
      cases Except.ok.inj hok
      obtain ⟨-, hsaved⟩ | ⟨hunsaved, hsame⟩ := exec_saveGathered wallet gathered (remaining (handle raw)
        (receiveMessages kit wallet infoConfig blockheight messages (untouched wallet)).run choices start) s
      · rw [hexec] at hsaved
        change s' = _ at hsaved
        rw [hsaved]
        exact atomic_of_progress hwallet hprogress
      · rw [hexec] at hsame
        change s' = s at hsame
        rw [hsame]
        refine atomic_of_unchanged (by rw [hprogress.wallets, hwallet]) ?_
        by_contra hupdated
        exact hunsaved (hsaves hupdated)

end Runs

end MercuryLayer.Client.ReceiptRuns
