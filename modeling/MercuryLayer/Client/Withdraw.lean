import MercuryLayer.Client.LocktimeGuard
import MercuryLayer.Client.Operations

namespace MercuryLayer.Client.Withdraw

open Client.Operations Client.TransferReceiver
open Client.Transaction hiding Call Reply
open Client.TransferSender (validateAddress getBackupTxs isTransferable)
open Crates Error Library.Programs Library.Validation WalletData

variable {E K F : Type} (kit : Kit E K F)

/-- Whether the caller can mean the coin. -/
def isNamed (statechainId : String) (duplicatedIndex : Option UInt32) (coin : Coin) : Bool :=
  coin.statechainId == some statechainId && match duplicatedIndex with
    | some index => coin.status == .duplicated && coin.duplicateIndex == index
    | none => coin.status != .duplicated

/-- The coin with the lowest lock time, with its place in the wallet. -/
def coinToWithdraw (wallet : Wallet) (statechainId : String) (duplicatedIndex : Option UInt32) : Option (Coin × ℕ) :=
  minByLocktime (wallet.coins.zipIdx.filter (fun coin => isNamed statechainId duplicatedIndex coin.1))

def notFound : Option UInt32 → String
  | some index => "No duplicated coins associated with this statechain ID and index " ++ toString index ++ " were found"
  | none => "No coins associated with this statechain ID were found"

/-- Whether `is_there_more_duplicated_coins` counts the coin. Its statechain does not matter. -/
def isCounted (duplicatedIndex : Option UInt32) (coin : Coin) : Bool :=
  (coin.status == .duplicated || coin.status == .confirmed) && match duplicatedIndex with
    | some index => coin.duplicateIndex != index
    | none => true

def isThereMoreDuplicatedCoins (wallet : Wallet) (duplicatedIndex : Option UInt32) : Bool :=
  wallet.coins.any (isCounted duplicatedIndex)

/-- The wallet with the coin marked and the activity noted. -/
def withdrawing (wallet : Wallet) (place : ℕ) (coin : Coin) (txid toAddress : String) (activity : Activity) :
    Wallet :=
  { wallet with
    coins := wallet.coins.set place
      { coin with txWithdraw := some txid, withdrawalAddress := some toAddress, status := .withdrawing }
    activities := wallet.activities ++ [activity] }

section Execute

variable [Mul F] [NatCast F] [LT F] [DecidableLT F]

/-- The withdrawal transaction, signed and broadcast. -/
def signAndBroadcast (wallet : Wallet) (coin : Coin) (toAddress : String) (feeRate : Option F)
    (qtBackupTx : UInt32) : Operation F (Coin × String) := do
  let serverInfo ← send infoConfig
  let feeRateSatsPerByte := feeRate.getD (feeRateSatsPerByte kit.toSetup serverInfo)
  let draws : ℕ × ℕ ← ask (Call.drawLocktime : Call F)
  let (coin, signedTx) ← send (newTransaction kit.toSetup coin toAddress qtBackupTx (some draws) none wallet.network
    feeRateSatsPerByte serverInfo.initlock serverInfo.interval)
  failIf (coin.publicNonce = none) "coin.public_nonce is None"
  failIf (coin.blindingFactor = none) "coin.blinding_factor is None"
  failIf (coin.statechainId = none) "coin.statechain_id is None"
  let txid ← transactionBroadcastRaw signedTx
  return (coin, txid)

def execute (walletName statechainId toAddress : String) (feeRate : Option F) (duplicatedIndex : Option UInt32) :
    Operation F Unit := do
  let wallet ← getWallet walletName
  let isAddressValid ← validateAddress kit.toSetup toAddress wallet.network
  failIf (isAddressValid = false) "Invalid address"
  let backupTxs ← send (getBackupTxs wallet.name statechainId)
  failIf (backupTxs.length = 0) "No backup transaction associated with this statechain ID were found"
  let (coin, place) ← orFail (notFound duplicatedIndex) (coinToWithdraw wallet statechainId duplicatedIndex)
  failIf (coin.amount = none) "coin.amount is None"
  failIf (coin.status ≠ .confirmed ∧ coin.status ≠ .inTransfer ∧ coin.status ≠ .duplicated)
    ("Coin status must be CONFIRMED or IN_TRANSFER or DUPLICATED to withdraw it. The current status is " ++
      coin.status.toText)
  let (coin, txid) ← signAndBroadcast kit wallet coin toAddress feeRate backupTxs.length.toUInt32
  let amount ← unwrap coin.amount
  let activity ← createActivity txid amount "Withdraw"
  let signedStatechainId ← unwrap coin.signedStatechainId
  let wallet := withdrawing wallet place coin txid toAddress activity
  updateWallet wallet
  if isThereMoreDuplicatedCoins wallet duplicatedIndex then return ()
  else completeWithdraw statechainId signedStatechainId

end Execute

section Exhausted

variable (statechainId : String) (duplicatedIndex : Option UInt32)

/-- No coin of the statechain can be co-signed any more. -/
def Exhausted (wallet : Wallet) : Prop :=
  ∀ coin ∈ wallet.coins, coin.statechainId = some statechainId → isTransferable coin.status = false

def completes : Call F → Bool
  | .withdrawComplete payload => payload.statechainId == statechainId
  | _ => false

def Completed (calls : List (Call F)) : Prop := ∃ c ∈ calls, completes statechainId c = true

/-- Of the coins besides the one at the given place, one of the statechain is counted. Or those
of other statechains are counted exactly when a coin of the statechain that could be co-signed is
not. -/
def CountsRight (wallet : Wallet) (place : ℕ) : Prop :=
  (∃ coin ∈ wallet.coins.eraseIdx place, coin.statechainId = some statechainId ∧
    isCounted duplicatedIndex coin = true) ∨
  ((∃ coin ∈ wallet.coins.eraseIdx place, coin.statechainId ≠ some statechainId ∧
      isCounted duplicatedIndex coin = true) ↔
    ∃ coin ∈ wallet.coins.eraseIdx place, coin.statechainId = some statechainId ∧
      isTransferable coin.status = true ∧ isCounted duplicatedIndex coin = false)

instance (wallet : Wallet) (place : ℕ) : Decidable (CountsRight statechainId duplicatedIndex wallet place) :=
  inferInstanceAs (Decidable (_ ∨ (_ ↔ _)))

variable {statechainId duplicatedIndex}

theorem mem_set_iff {coins : List Coin} {place : ℕ} {old new : Coin} (h : coins[place]? = some old) (coin : Coin) :
    coin ∈ coins.set place new ↔ coin = new ∨ coin ∈ coins.eraseIdx place := by
  obtain ⟨hlt, -⟩ := List.getElem?_eq_some_iff.mp h
  rw [List.set_eq_take_append_cons_drop, if_pos hlt, List.eraseIdx_eq_take_drop_succ, List.mem_append,
    List.mem_append, List.mem_cons]
  exact or_left_comm

/-- What is counted of the saved wallet against what is left of the statechain in it. -/
theorem counted_iff_exhausted {wallet saved : Wallet} {place : ℕ} {old new : Coin}
    (hold : wallet.coins[place]? = some old) (hsaved : saved.coins = wallet.coins.set place new)
    (hnew : new.status = .withdrawing) :
    (isThereMoreDuplicatedCoins saved duplicatedIndex = false ↔ Exhausted statechainId saved) ↔
      CountsRight statechainId duplicatedIndex wallet place := by
  have hcounted : isCounted duplicatedIndex new = false := by simp [isCounted, hnew]
  have hlive : ∀ coin, isCounted duplicatedIndex coin = true → isTransferable coin.status = true := by
    intro coin hcoin
    simp only [isCounted, Bool.and_eq_true, Bool.or_eq_true, beq_iff_eq] at hcoin
    obtain ⟨h | h, -⟩ := hcoin <;> rw [h] <;> rfl
  have hmore : isThereMoreDuplicatedCoins saved duplicatedIndex = true ↔
      ∃ coin ∈ wallet.coins.eraseIdx place, isCounted duplicatedIndex coin = true := by
    rw [isThereMoreDuplicatedCoins, hsaved, List.any_eq_true]
    simp only [mem_set_iff hold, or_and_right, exists_or, exists_eq_left, hcounted, Bool.false_eq_true, false_or]
  have hleft : ¬Exhausted statechainId saved ↔ ∃ coin ∈ wallet.coins.eraseIdx place,
      coin.statechainId = some statechainId ∧ isTransferable coin.status = true := by
    simp only [Exhausted, hsaved, mem_set_iff hold, forall_eq_or_imp, hnew, isTransferable, implies_true, true_and,
      not_forall, Bool.not_eq_false, exists_prop]
  rw [← Bool.not_eq_true, hmore, not_iff_comm, hleft, CountsRight]
  constructor
  · intro h
    by_cases hown : ∃ coin ∈ wallet.coins.eraseIdx place, coin.statechainId = some statechainId ∧
        isCounted duplicatedIndex coin = true
    · exact .inl hown
    · refine .inr ⟨?_, ?_⟩
      · rintro ⟨coin, hcoin, -, hcount⟩
        obtain ⟨left, hleft, hid, hlive⟩ := h.mpr ⟨coin, hcoin, hcount⟩
        exact ⟨left, hleft, hid, hlive, Bool.eq_false_iff.mpr (fun hcount => hown ⟨left, hleft, hid, hcount⟩)⟩
      · rintro ⟨coin, hcoin, hid, hlive, -⟩
        obtain ⟨other, hother, hcount⟩ := h.mp ⟨coin, hcoin, hid, hlive⟩
        exact ⟨other, hother, fun hid => hown ⟨other, hother, hid, hcount⟩, hcount⟩
  · rintro (⟨coin, hcoin, hid, hcount⟩ | h)
    · exact ⟨fun _ => ⟨coin, hcoin, hcount⟩, fun _ => ⟨coin, hcoin, hid, hlive coin hcount⟩⟩
    · constructor
      · rintro ⟨coin, hcoin, hid, hlive⟩
        cases hcount : isCounted duplicatedIndex coin with
        | true => exact ⟨coin, hcoin, hcount⟩
        | false =>
          obtain ⟨other, hother, -, hcount⟩ := h.mpr ⟨coin, hcoin, hid, hlive, hcount⟩
          exact ⟨other, hother, hcount⟩
      · rintro ⟨coin, hcoin, hcount⟩
        by_cases hid : coin.statechainId = some statechainId
        · exact ⟨coin, hcoin, hid, hlive coin hcount⟩
        · obtain ⟨left, hleft, hid, hlive, -⟩ := h.mp ⟨coin, hcoin, hid, hcount⟩
          exact ⟨left, hleft, hid, hlive⟩

end Exhausted

section Run

variable {kit} {wallets : Wallets} {statechainId : String} {calls : List (Call F)}

def Standing (wallets : Wallets) (statechainId : String) (s : Wallets × List (Call F)) : Prop :=
  s.1 = wallets ∧ ¬Completed statechainId s.2

theorem not_completed_cons {c : Call F} (hc : completes statechainId c = false)
    (h : ¬Completed statechainId calls) : ¬Completed statechainId (c :: calls) := by
  rintro ⟨c', hmem, hc'⟩
  obtain rfl | hmem := List.mem_cons.mp hmem
  · cases hc.symm.trans hc'
  · exact h ⟨c', hmem, hc'⟩

theorem standing_recording (oracle : Oracle F) (c : Call F) (s : Wallets × List (Call F)) (hc : Quiet c)
    (hs : Standing wallets statechainId s) :
    Standing wallets statechainId (recording handle oracle c s).2 := by
  refine ⟨?_, not_completed_cons ?_ hs.2⟩
  · rw [recording, handle_offWallet oracle c s.1 (offWallet_of_quiet hc)]
    exact hs.1
  · cases c <;> first | rfl | cases hc

variable [Mul F] [NatCast F] [LT F] [DecidableLT F]

theorem yields_signAndBroadcast (wallet : Wallet) (coin : Coin) (toAddress : String) (feeRate : Option F)
    (qtBackupTx : UInt32) :
    Yields Quiet (fun r => ∃ coinNonce serverPublicNonce, r.1 = withNonces coin coinNonce serverPublicNonce)
      (signAndBroadcast kit wallet coin toAddress feeRate qtBackupTx) := by
  refine yields_bind (yields_send_quiet yields_infoConfig) (fun serverInfo _ => ?_)
  refine yields_ask_bind Call.drawLocktime _ trivial (fun draws => ?_)
  refine yields_bind (yields_send_quiet (yields_newTransaction _ _ _ _ _ _ _ _ _)) (fun r hr => ?_)
  refine yields_lift_bind (fun _ _ => ?_)
  refine yields_lift_bind (fun _ _ => ?_)
  refine yields_lift_bind (fun _ _ => ?_)
  exact yields_bind (yields_transactionBroadcastRaw r.2) (fun txid _ => yields_pure hr)

/-- A withdrawal that succeeds saves the coin as withdrawing, and completes the withdrawal exactly
when it counts no coin. -/
theorem ensures_execute (walletName toAddress : String) (feeRate : Option F) (duplicatedIndex : Option UInt32)
    (h : Standing wallets statechainId (wallets, calls)) :
    Ensures (recording handle)
      (fun _ s => ∃ wallet coin place saved new, wallets.get walletName = some wallet ∧
        coinToWithdraw wallet statechainId duplicatedIndex = some (coin, place) ∧
        s.1.get walletName = some saved ∧ saved.coins = wallet.coins.set place new ∧ new.status = .withdrawing ∧
        (Completed statechainId s.2 ↔ isThereMoreDuplicatedCoins saved duplicatedIndex = false))
      (execute kit walletName statechainId toAddress feeRate duplicatedIndex) (wallets, calls) := by
  refine ensures_bind (ensures_ask_bind (Call.sending (.getWallet walletName)) _ (fun oracle => ?_))
  refine ensures_lift (fun wallet hwallet => ?_)
  replace hwallet := System.selectRow_eq_ok (anyhow_eq_ok.mp hwallet)
  have hname : wallet.name = walletName := (Library.Tables.Table.get_eq_some.mp hwallet).2
  have hread : Standing wallets statechainId
      (recording handle oracle (Call.sending (.getWallet walletName)) (wallets, calls)).2 :=
    ⟨rfl, not_completed_cons rfl h.2⟩
  refine ensures_bind (ensures_lift (fun _ _ => ?_))
  refine ensures_bind (ensures_lift (fun _ _ => ?_))
  refine ensures_yields_bind (yields_send_quiet (yields_getBackupTxs _ _)) standing_recording hread
    (fun backupTxs s hs _ => ?_)
  refine ensures_bind (ensures_lift (fun _ _ => ?_))
  refine ensures_bind (ensures_lift (fun target htarget => ?_))
  obtain ⟨coin, place⟩ := target
  refine ensures_bind (ensures_lift (fun _ _ => ?_))
  refine ensures_bind (ensures_lift (fun _ _ => ?_))
  refine ensures_yields_bind (yields_signAndBroadcast _ _ _ _ _) standing_recording hs (fun r s hs hr => ?_)
  obtain ⟨signed, txid⟩ := r
  refine ensures_bind (ensures_lift (fun amount _ => ?_))
  refine ensures_yields_bind (yields_createActivity _ _ _) standing_recording hs (fun activity s hs _ => ?_)
  refine ensures_bind (ensures_lift (fun signedStatechainId _ => ?_))
  generalize hsaved : withdrawing wallet place signed txid toAddress activity = saved
  refine ensures_bind (ensures_ask_bind (Call.sending (.updateWallet saved)) _ (fun oracle => ?_))
  refine ensures_lift (fun _ hstored => ?_)
  have hfile : (recording handle oracle (Call.sending (.updateWallet saved)) s).2.1.get walletName = some saved := by
    have hsame : saved.name = walletName := by
      rw [← hsaved]
      exact hname
    have hrow : s.1.get saved.name = some wallet := by
      rw [hs.1, hsame]
      exact hwallet
    have hhandle := handle_updateWallet (anyhow_eq_ok.mp hstored)
    rw [← hsame]
    exact (congrArg (fun table => table.get saved.name) hhandle).trans (get_saveWallet hrow)
  have hdone : ∀ done : Wallets × List (Call F), done.1.get walletName = some saved →
      (Completed statechainId done.2 ↔ isThereMoreDuplicatedCoins saved duplicatedIndex = false) →
      ∃ wallet coin place saved new, wallets.get walletName = some wallet ∧
        coinToWithdraw wallet statechainId duplicatedIndex = some (coin, place) ∧
        done.1.get walletName = some saved ∧ saved.coins = wallet.coins.set place new ∧ new.status = .withdrawing ∧
        (Completed statechainId done.2 ↔ isThereMoreDuplicatedCoins saved duplicatedIndex = false) := by
    intro done hget hcompleted
    have hcoins : saved.coins = wallet.coins.set place { signed with
        txWithdraw := some txid, withdrawalAddress := some toAddress, status := .withdrawing } := by
      rw [← hsaved]
      rfl
    exact ⟨wallet, coin, place, saved, _, hwallet, orThrow_eq_ok.mp htarget, hget, hcoins, rfl, hcompleted⟩
  have hopen : ¬Completed statechainId (recording handle oracle (Call.sending (.updateWallet saved)) s).2.2 :=
    not_completed_cons rfl hs.2
  by_cases hmore : isThereMoreDuplicatedCoins saved duplicatedIndex = true
  · rw [if_pos hmore]
    refine ensures_pure (hdone _ hfile ?_)
    rw [hmore]
    exact iff_of_false hopen (by decide)
  · rw [if_neg hmore]
    refine ensures_ask_bind (Call.withdrawComplete ⟨statechainId, signedStatechainId⟩) _ (fun oracle => ?_)
    refine ensures_bind (ensures_lift (fun response _ => ?_))
    refine ensures_lift (fun _ _ => hdone _ hfile ?_)
    exact iff_of_true ⟨_, List.mem_cons_self, beq_self_eq_true statechainId⟩ (Bool.eq_false_iff.mpr hmore)

/-- The withdrawal is completed exactly when no coin of the statechain could be co-signed any more, as
far as what is counted of the whole wallet agrees with that. -/
theorem completed_exactly_iff (walletName toAddress : String) (feeRate : Option F)
    (duplicatedIndex : Option UInt32) (choices : ℕ → Oracle F)
    (hok : (exec (recording handle) (execute kit walletName statechainId toAddress feeRate duplicatedIndex).run
      choices (wallets, [])).1 = some (.ok ())) :
    ∃ wallet coin place saved, wallets.get walletName = some wallet ∧
      coinToWithdraw wallet statechainId duplicatedIndex = some (coin, place) ∧
      (exec (recording handle) (execute kit walletName statechainId toAddress feeRate duplicatedIndex).run
        choices (wallets, [])).2.1.get walletName = some saved ∧
      ((Completed statechainId (exec (recording handle)
          (execute kit walletName statechainId toAddress feeRate duplicatedIndex).run choices (wallets, [])).2.2 ↔
        Exhausted statechainId saved) ↔ CountsRight statechainId duplicatedIndex wallet place) := by
  have hstart : Standing wallets statechainId (wallets, ([] : List (Call F))) :=
    ⟨rfl, fun ⟨_, hmem, _⟩ => List.not_mem_nil hmem⟩
  have hexecute : Ensures (recording handle) _
      (execute kit walletName statechainId toAddress feeRate duplicatedIndex) (wallets, []) :=
    ensures_execute walletName toAddress feeRate duplicatedIndex hstart
  obtain ⟨wallet, coin, place, saved, new, hwallet, htarget, hget, hsaved, hnew, hcompleted⟩ :=
    exec_of_ensures hexecute hok
  have hplace : wallet.coins[place]? = some coin := getElem?_of_minByLocktime htarget
  refine ⟨wallet, coin, place, saved, hwallet, htarget, hget, ?_⟩
  rw [hcompleted]
  exact counted_iff_exhausted hplace hsaved hnew

end Run

section Seven

open Client.LocktimeGuard Musig.Session

def sevenKit : Kit (Library.XOnlyCurve.Point (ZMod 7)) (ZMod 7) ℕ where
  toSetup := sevenSetup
  ecies := ⟨fun _ => none, fun _ _ => none, fun _ => none⟩
  derivation := ⟨fun _ _ _ _ _ => .error .panic, fun _ _ => "", fun _ => "", fun _ _ _ => .error .panic⟩
  parseUuid := some
  createTransaction _ _ _ _ _ := .error (.mercury .bitcoinPsbtError)

def granting : (c : Call ℕ) → Reply c
  | .sending (.getBackupTxs _ _) => (.ok [sentOnce] : Except String (List BackupTx))
  | .sending c => obliging c
  | .insertBackupTxs _ _ _ => (.ok () : Except String Unit)
  | .insertOrUpdateBackupTxs _ _ _ => (.ok () : Except String Unit)
  | .batchTransactionGetRaw _ => (.ok [] : Except String (List String))
  | .transactionBroadcastRaw _ => (.ok "txid" : Except String String)
  | .estimateFee => (.ok 1 : Except String ℕ)
  | .drawLocktime => ((0, 0) : ℕ × ℕ)
  | .hashOrder => (fun keys => keys : List String → List String)
  | .statechainInfo _ => (.ok none : Response)
  | .depositInit _ => (.ok none : Response)
  | .getMsgAddr _ => (.ok [] : Except String (List String))
  | .transferUnlock _ => (.ok none : Response)
  | .transferReceiver _ => (.ok none : Response)
  | .withdrawComplete _ => (.ok (some (Server.Transfer.message 200 "Statechain deleted.")) : Response)

def calm : Oracle ℕ := ⟨.ok, granting⟩

/-- The coin of another statechain, also confirmed. -/
def strangeCoin : Coin :=
  { fundedCoin with
    index := 1, userPrivkey := seven.wif.encode 3, userPubkey := seven.secp.publicKeyToStr (seven.publicKey 3)
    statechainId := some "other", utxoTxid := some "g" }

/-- A further deposit of the statechain that has been sent and not been received. -/
def sentDuplicate : Coin := { fundedCoin with utxoTxid := some "h", status := .inTransfer, duplicateIndex := 1 }

def walletsOf (coins : List Coin) : Wallets := ⟨[⟨"wallet", "regtest", [], coins⟩], List.nodup_singleton _⟩

def withdrawal (coins : List Coin) : Option (Except Failure Unit) × Wallets × List (Call ℕ) :=
  exec (recording handle) (execute sevenKit "wallet" "statechain" "bcrt1" none none).run (fun _ => calm)
    (walletsOf coins, [])

/-- The first coin is the last one that is left of its statechain. -/
def lastCoins : List Coin :=
  [fundedCoin, { strangeCoin with status := .withdrawn }, { sentDuplicate with status := .withdrawn }]

/-- A further deposit can still be withdrawn. -/
def moreCoins : List Coin := [fundedCoin, strangeCoin, { sentDuplicate with status := .duplicated }]

theorem completed_exactly_seven :
    ((withdrawal lastCoins).1 = some (.ok ()) ∧ ∃ saved, (withdrawal lastCoins).2.1.get "wallet" = some saved ∧
      (Completed "statechain" (withdrawal lastCoins).2.2 ↔ Exhausted "statechain" saved)) ∧
    (withdrawal moreCoins).1 = some (.ok ()) ∧ ∃ saved, (withdrawal moreCoins).2.1.get "wallet" = some saved ∧
      (Completed "statechain" (withdrawal moreCoins).2.2 ↔ Exhausted "statechain" saved) := by
  have hcompleted : ∀ coins, (withdrawal coins).1 = some (.ok ()) ∧
      coinToWithdraw ⟨"wallet", "regtest", [], coins⟩ "statechain" none = some (fundedCoin, 0) ∧
      CountsRight "statechain" none ⟨"wallet", "regtest", [], coins⟩ 0 →
      (withdrawal coins).1 = some (.ok ()) ∧ ∃ saved, (withdrawal coins).2.1.get "wallet" = some saved ∧
        (Completed "statechain" (withdrawal coins).2.2 ↔ Exhausted "statechain" saved) := by
    rintro coins ⟨hok, hcoin, hcounts⟩
    have hrow : (walletsOf coins).get "wallet" = some ⟨"wallet", "regtest", [], coins⟩ := rfl
    obtain ⟨wallet, coin, place, saved, hwallet, htarget, hget, hiff⟩ :=
      completed_exactly_iff "wallet" "bcrt1" none none (fun _ => calm) hok
    cases hrow.symm.trans hwallet
    cases hcoin.symm.trans htarget
    exact ⟨hok, saved, hget, hiff.mpr hcounts⟩
  exact ⟨hcompleted lastCoins (by decide +kernel), hcompleted moreCoins (by decide +kernel)⟩

/-- Whether a withdrawal succeeds, whether it is completed, and what it leaves in the wallet. -/
def outcome (coins : List Coin) : Bool × Bool × List (Option String × CoinStatus) :=
  let (result, wallets, calls) := withdrawal coins
  (result.any Except.isOk, calls.any (completes "statechain"),
    (wallets.rows.flatMap Wallet.coins).map (fun coin => (coin.statechainId, coin.status)))

/-- A confirmed coin of another statechain keeps the withdrawal of the last coin from being completed;
one that is completed leaves behind a coin that is being sent. -/
theorem completion_misjudged_seven :
    outcome [fundedCoin, strangeCoin] =
        (true, false, [(some "statechain", .withdrawing), (some "other", .confirmed)]) ∧
      outcome [fundedCoin, sentDuplicate] =
        (true, true, [(some "statechain", .withdrawing), (some "statechain", .inTransfer)]) := by
  decide +kernel

end Seven

end MercuryLayer.Client.Withdraw
