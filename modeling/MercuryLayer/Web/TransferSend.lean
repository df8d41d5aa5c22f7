import MercuryLayer.Client.Duplicates
import MercuryLayer.Web.TransferReceive
import Mathlib.Data.List.Find

namespace MercuryLayer.Web.TransferSend

open Client.Duplicates (Agrees View agrees_checkCoins checkConfirmedAt checkExpiryAt checkedCoins
  exists_head_of_checked isConfirmedAt listed selectedCoins)
open Client.Transaction Client.TransferReceiver
open Client.TransferSender (CoinBackup backUpWith checkCoins checkIndexes checkMain collect coinToAdd getBackupTxs
  isMain isTransferable sortConfirmedFirst spends validateAddress)
open Crates Error Library.Programs Library.Reliance Library.Validation Library.XOnlyCurve Receiver WalletData
open Web.TransferReceive (Utxo exact_iff utxoOf)

section Select

variable (btc : Bitcoin) (coin : Coin)

/-- An error of `getPreviousOutpoint` is caught, also a panic, which comes to JavaScript as an exception.
An empty `utxo_txid` counts as none. -/
def backsUp (backupTx : BackupTx) : Bool :=
  match getPreviousOutpoint btc backupTx with
  | .ok txOutpoint => coin.utxoTxid != some "" && spends coin txOutpoint
  | .error _ => false

def hasMatchingTx (backupTransactions : List BackupTx) : Bool :=
  backupTransactions.any (fun backupTx => isTransferable coin.status && backsUp btc coin backupTx)

def filteredTransactions (backupTxs : List BackupTx) : List BackupTx :=
  sortByTxN (backupTxs.filter (backsUp btc coin))

end Select

variable {E K F : Type} (setup : Setup E K F)

/-- A lock time of zero counts as none, and the height is not cut to 32 bits. -/
def checkExpiry (coin : Coin) : Action F Unit := do
  let locktime ← orFail "coin.locktime is undefined or null" (coin.locktime.filter (· ≠ 0))
  let currentBlockheight ← blockHeadersSubscribeRaw
  failIf (currentBlockheight.toNat > locktime.toNat)
    ("The coin is expired. Coin locktime is " ++ toString locktime ++ " and current blockheight is " ++
      toString currentBlockheight)

def selectCoins (backupTransactions : List BackupTx) (statechainId : String)
    (duplicatedIndexes : Option (List UInt32)) : List (Coin × ℕ) → Action F (List (Coin × ℕ))
  | [] => return []
  | (coin, place) :: coins => do
    if hasMatchingTx setup.btc coin backupTransactions || coinToAdd coin statechainId duplicatedIndexes then
      checkExpiry coin
      let selected ← selectCoins backupTransactions statechainId duplicatedIndexes coins
      return (coin, place) :: selected
    else selectCoins backupTransactions statechainId duplicatedIndexes coins

/-- The numbers are those of JavaScript, which do not wrap. -/
def isConfirmed (utxo : Utxo) : Action F Bool := do
  if utxo.confirmed then
    let blockheight ← blockHeadersSubscribeRaw
    let confirmations := utxo.blockHeight.map (fun height => (blockheight.toNat : ℤ) - height + 1)
    return confirmations.any (fun n => decide ((setup.clientConfig.confirmationTarget.toNat : ℤ) ≤ n))
  else return false

def isUtxoOf (coin : Coin) (unspent : Utxo) : Bool :=
  coin.utxoTxid == some unspent.txid && coin.utxoVout.map UInt32.toNat == some unspent.vout

/-- The esplora server is asked by address. It answers with an error if there is no such address in its
network. -/
def checkConfirmed (coin : Coin) : Action F Unit := do
  if coin.status = .duplicated then
    let script ← orFail "Request failed with status code 400"
      (coin.aggregatedAddress.bind (fun address => setup.btc.scriptOfAddress address setup.network))
    let unspents : Except String (List Unspent) ← ask (Call.scriptListUnspent script : Call F)
    let unspents ← anyhow unspents
    match (unspents.map utxoOf).find? (isUtxoOf coin) with
    | none => return ()
    | some utxo =>
      failIf ((← isConfirmed setup utxo) = false)
        ("The coin with duplicated index " ++ toString coin.duplicateIndex ++
          " has not yet been confirmed. This transfer cannot be performed.")
  else return ()

section Build

variable [Mul F] [NatCast F] [LT F] [DecidableLT F]

/-- One turn of the loop. -/
def backUpCoin (backupTxs : List BackupTx) (recipientAddress network : String) (coin : Coin) (place : ℕ)
    (newTxN : UInt32) : Action F (CoinBackup × UInt32) :=
  backUpWith setup (filteredTransactions setup.btc coin backupTxs) recipientAddress network coin place newTxN

def backUpCoins (backupTxs : List BackupTx) (recipientAddress network : String) :
    List (Coin × ℕ) → UInt32 → Action F (List CoinBackup)
  | [], _ => return []
  | (coin, place) :: coins, newTxN => do
    let (backup, newTxN) ← backUpCoin setup backupTxs recipientAddress network coin place newTxN
    let backups ← backUpCoins backupTxs recipientAddress network coins newTxN
    return backup :: backups

/-- The last sort compares the field `txN`, which no transaction has. Each comparison gives `NaN`, which
counts as equal, and the order stays. -/
def createBackupTransactions (recipientAddress : String) (wallet : Wallet) (statechainId : String)
    (duplicatedIndexes : Option (List UInt32)) : Action F (List BackupTx) := do
  checkIndexes wallet duplicatedIndexes
  let backupTransactions ← getBackupTxs wallet.name statechainId
  let coinList ← selectCoins setup backupTransactions statechainId duplicatedIndexes wallet.coins.zipIdx
  checkMain coinList
  coinList.forM (fun coin => checkConfirmed setup coin.1)
  let backupTxs ← getBackupTxs wallet.name statechainId
  let backups ← backUpCoins setup backupTxs recipientAddress wallet.network (sortConfirmedFirst coinList)
    backupTxs.length.toUInt32
  return collect backups

def checkDuplicates (wallet : Wallet) (statechainId : String) (forceSend : Bool) : Res Unit := do
  failIf (wallet.coins.any (fun coin => coin.statechainId == some statechainId && coin.status == .duplicated) = true ∧
      forceSend = false)
    "Coin is duplicated. If you want to proceed, use the command '--force, -f' option. You will no longer be able to move other duplicate coins with the same statechain_id and this will cause PERMANENT LOSS of these duplicate coin funds."
  failIf (wallet.coins.any (fun coin => coin.statechainId == some statechainId &&
      (coin.status == .withdrawing || coin.status == .withdrawn) && coin.duplicateIndex > 0) = true)
    "There have been withdrawals of other coins with this same statechain_id (possibly duplicates). This transfer cannot be performed because the recipient would reject it due to the difference in signature count. This coin can be withdrawn, however."

def coinsWithStatechainId (wallet : Wallet) (statechainId : String) : List Coin :=
  wallet.coins.filter (fun coin => coin.statechainId == some statechainId && isMain coin)

structure Transfer where
  wallet : Wallet
  statechainId : String
  recipientAddress : String
  duplicatedIndexes : Option (List UInt32)
  forceSend : Bool

/-- The checks of `execute`. -/
def checkRequest (transfer : Transfer) : Res Unit := do
  checkDuplicates transfer.wallet transfer.statechainId transfer.forceSend
  failIf (coinsWithStatechainId transfer.wallet transfer.statechainId = [])
    ("No coins with status CONFIRMED or IN_TRANSFER associated with this statechain ID " ++ transfer.statechainId ++
      " were found.")
  let _ ← setup.envelope.decodeTransferAddress transfer.recipientAddress
  return ()

/-- The checks of `execute` of the client in Rust. -/
def rustCheckRequest (transfer : Transfer) : Res Unit := do
  let isAddressValid ← validateAddress setup transfer.recipientAddress transfer.wallet.network
  failIf (isAddressValid = false) "Invalid address"
  Client.TransferSender.checkDuplicates transfer.wallet transfer.statechainId transfer.forceSend
  let _ ← orFail "No coins with status CONFIRMED or IN_TRANSFER associated with this statechain ID were found"
    (Client.TransferSender.coinToSend transfer.wallet transfer.statechainId)
  let _ ← setup.envelope.decodeTransferAddress transfer.recipientAddress
  return ()

/-- The checks of `execute` and `createBackupTransactions`, without the requests between them. -/
def webTransfer (transfer : Transfer) : Action F (List BackupTx) := do
  checkRequest setup transfer
  createBackupTransactions setup transfer.recipientAddress transfer.wallet transfer.statechainId
    transfer.duplicatedIndexes

/-- The checks of `execute` and `create_backup_transactions` of the client in Rust. -/
def rustTransfer (transfer : Transfer) : Action F (List BackupTx) := do
  rustCheckRequest setup transfer
  let (_, backupTransactions) ← Client.TransferSender.createBackupTransactions setup transfer.recipientAddress
    transfer.wallet transfer.statechainId transfer.duplicatedIndexes
  return backupTransactions

end Build

section Oracle

variable {σ : Type}

/-- Whether a signature, or what is needed for one, has been asked for. -/
structure Session (σ : Type) where
  asked : Bool
  memory : σ

/-- Both clients see the same chain and the same stored transactions; all else is up to the one who signs. -/
def answers (view : View) (sign : (c : Call F) → σ → Reply c × σ) (_ : Unit) :
    (c : Call F) → Session σ → Reply c × Session σ
  | .getBackupTxs _ _, s => ((.ok view.stored : Except String (List BackupTx)), s)
  | .blockHeadersSubscribeRaw, s => ((.ok view.height : Except String UInt64), s)
  | .scriptListUnspent script, s => ((.ok (view.unspents script) : Except String (List Unspent)), s)
  | c, s =>
    let (r, memory) := sign c s.memory
    (r, ⟨true, memory⟩)

abbrev Outcome (σ : Type) : Type := Option (Except Failure (List BackupTx)) × Session σ

def outcome (view : View) (sign : (c : Call F) → σ → Reply c × σ) (memory : σ) (p : Action F (List BackupTx)) :
    Outcome σ :=
  exec (answers view sign) p.run (fun _ => ()) ⟨false, memory⟩

/-- The client stops with an error before it asks for a signature. -/
def Refuses (r : Outcome σ) : Prop := (∃ failure, r.1 = some (.error failure)) ∧ r.2.asked = false

def Ascending (txs : List BackupTx) : Prop := txs.Pairwise (fun a b => a.txN ≤ b.txN)

/-- Both refuse, or both return the same transactions in the order of their numbers. -/
def Agree (rust web : Outcome σ) : Prop :=
  Refuses rust ∧ Refuses web ∨ ∃ txs, rust.1 = some (.ok txs) ∧ web.1 = some (.ok txs) ∧ Ascending txs

end Oracle

section Condition

/-- What a chain lets its clients see: heights and positions have 32 bits, and no output is above the tip. -/
structure ChainView extends View where
  height_lt : height.toNat < 2 ^ 32
  below : ∀ script, ∀ unspent ∈ unspents script, unspent.height ≤ height
  position : ∀ script, ∀ unspent ∈ unspents script, unspent.txPos.toNat < 2 ^ 32

variable (view : View) (transfer : Transfer)

def goes (coin : Coin) : Bool :=
  hasMatchingTx setup.btc coin view.stored || coinToAdd coin transfer.statechainId transfer.duplicatedIndexes

def coinList : List (Coin × ℕ) := transfer.wallet.coins.zipIdx.filter (fun coin => goes setup view transfer coin.1)

/-- The output of a further deposit has the confirmations, as long as it is listed. -/
def Confirmed (coin : Coin) : Prop :=
  ∃ script,
    coin.aggregatedAddress.bind (fun address => setup.btc.scriptOfAddress address setup.network) = some script ∧
    ∀ unspent, listed view coin script = some unspent → 0 < unspent.height.toNat ∧
      (setup.clientConfig.confirmationTarget.toNat : ℤ) ≤ view.height.toNat - unspent.height.toNat + 1

/-- What both clients ask of a transfer before they sign. -/
structure Accepted : Prop where
  forced : transfer.forceSend = true ∨
    ∀ coin ∈ transfer.wallet.coins, coin.statechainId = some transfer.statechainId → coin.status ≠ .duplicated
  withdrawing : ∀ coin ∈ transfer.wallet.coins, coin.statechainId = some transfer.statechainId →
    coin.status = .withdrawing → ¬0 < coin.duplicateIndex
  found : ∃ coin ∈ transfer.wallet.coins, coin.statechainId = some transfer.statechainId ∧ isMain coin = true
  address : ∃ decoded, setup.envelope.decodeTransferAddress transfer.recipientAddress = .ok decoded
  indexes : ∀ index ∈ transfer.duplicatedIndexes.getD [], index.toNat < transfer.wallet.coins.length
  unexpired : ∀ coin ∈ coinList setup view transfer, ∃ locktime, coin.1.locktime = some locktime ∧
    view.height.toNat ≤ locktime.toNat
  single : ((coinList setup view transfer).filter (fun coin => isMain coin.1)).length = 1
  confirmed : ∀ coin ∈ coinList setup view transfer, coin.1.status = .duplicated → Confirmed setup view coin.1

/-- What only the client in Rust refuses: an address that is not one of the network, and a stored transaction
that makes it panic, one without any input. -/
def RustRefuses : Prop :=
  validateAddress setup transfer.recipientAddress transfer.wallet.network ≠ .ok true ∨
    ∃ backupTx ∈ view.stored, getPreviousOutpoint setup.btc backupTx = .error .panic

/-- What only the web client refuses: a further deposit that has been withdrawn, and a lock time of zero. -/
def WebRefuses : Prop :=
  (∃ coin ∈ transfer.wallet.coins, coin.statechainId = some transfer.statechainId ∧ coin.status = .withdrawn ∧
      0 < coin.duplicateIndex) ∨
    ∃ coin ∈ coinList setup view transfer, coin.1.locktime = some 0

section Numbers

variable (stored : List BackupTx)

def storedNumbers (coin : Coin) : List UInt32 := (filteredTransactions setup.btc coin stored).map BackupTx.txN

/-- How many transactions are made for a coin. -/
def made (coin : Coin) : UInt32 := if storedNumbers setup stored coin = [] then 2 else 1

/-- The numbers of the transactions of a coin, if the last number given is `newTxN`. -/
def groupNumbers (coin : Coin) (newTxN : UInt32) : List UInt32 :=
  if storedNumbers setup stored coin = [] then [newTxN + 1, newTxN + 2]
  else storedNumbers setup stored coin ++ [newTxN + 1]

/-- The numbers in the order in which the transactions are collected. -/
def collectNumbers : List (Coin × ℕ) → UInt32 → List UInt32 → List UInt32
  | [], _, numbers => numbers
  | (coin, _) :: coins, newTxN, numbers =>
    collectNumbers coins (newTxN + made setup stored coin)
      (if coin.duplicateIndex = 0 then groupNumbers setup stored coin newTxN ++ numbers
        else numbers ++ groupNumbers setup stored coin newTxN)

end Numbers

/-- The numbers ascend as the transactions are collected, coin by coin. -/
def InOrder : Prop :=
  (collectNumbers setup view.stored (sortConfirmedFirst (coinList setup view transfer))
    view.stored.length.toUInt32 []).Pairwise (· ≤ ·)

/-- A transfer that meets what both clients ask is refused by either or by none of them, and if by none, its
transactions are collected in the order of their numbers. -/
def Alike : Prop :=
  Accepted setup view transfer →
    (RustRefuses setup view transfer ↔ WebRefuses setup view transfer) ∧
      (¬RustRefuses setup view transfer → InOrder setup view transfer)

end Condition

section Checks

variable (view : View) (transfer : Transfer)

def checkExpiryIn (coin : Coin) : Res Unit := do
  let locktime ← orFail "coin.locktime is undefined or null" (coin.locktime.filter (· ≠ 0))
  failIf (view.height.toNat > locktime.toNat)
    ("The coin is expired. Coin locktime is " ++ toString locktime ++ " and current blockheight is " ++
      toString view.height)

def isConfirmedIn (utxo : Utxo) : Bool :=
  utxo.confirmed && (utxo.blockHeight.map (fun height => (view.height.toNat : ℤ) - height + 1)).any
    (fun n => decide ((setup.clientConfig.confirmationTarget.toNat : ℤ) ≤ n))

def checkConfirmedIn (coin : Coin) : Res Unit := do
  if coin.status = .duplicated then
    let script ← orFail "Request failed with status code 400"
      (coin.aggregatedAddress.bind (fun address => setup.btc.scriptOfAddress address setup.network))
    match ((view.unspents script).map utxoOf).find? (isUtxoOf coin) with
    | none => return ()
    | some utxo =>
      failIf (isConfirmedIn setup view utxo = false)
        ("The coin with duplicated index " ++ toString coin.duplicateIndex ++
          " has not yet been confirmed. This transfer cannot be performed.")
  else return ()

def selectedIn : Res (List (Coin × ℕ)) := do
  (coinList setup view transfer).forM (fun coin => checkExpiryIn view coin.1)
  return coinList setup view transfer

def webChecks : Res (List (Coin × ℕ)) := do
  checkRequest setup transfer
  checkIndexes transfer.wallet transfer.duplicatedIndexes
  let coins ← selectedIn setup view transfer
  checkMain coins
  coins.forM (fun coin => checkConfirmedIn setup view coin.1)
  return coins

def rustChecks : Res (List (Coin × ℕ)) := do
  rustCheckRequest setup transfer
  checkedCoins setup view transfer.wallet transfer.statechainId transfer.duplicatedIndexes

variable {setup view} {σ : Type} {sign : (c : Call F) → σ → Reply c × σ} {s : Session σ}

theorem comes_blockHeadersSubscribeRaw :
    Comes (answers view sign) s () (blockHeadersSubscribeRaw : Action F UInt64) (.ok view.height) :=
  comes_ask_bind rfl comes_lift

theorem comes_getBackupTxs (walletName statechainId : String) :
    Comes (answers view sign) s () (getBackupTxs walletName statechainId : Action F (List BackupTx))
      (.ok view.stored) :=
  comes_ask_bind rfl comes_lift

theorem comes_ok_bind {α β : Type} {p : Action F α} {a : α} {f : α → Action F β} {r : Res β}
    (hp : Comes (answers view sign) s () p (.ok a)) (hf : Comes (answers view sign) s () (f a) r) :
    Comes (answers view sign) s () (p >>= f) r :=
  (exec_bind_of_comes_ok f hp).trans hf

theorem opens_ok_bind {α β γ : Type} {p : Action F α} {a : α} {f : α → Action F β} {r : Res γ} {rest : γ → Action F β}
    (hp : Comes (answers view sign) s () p (.ok a)) (hf : Opens (answers view sign) s () (f a) r rest) :
    Opens (answers view sign) s () (p >>= f) r rest :=
  (exec_bind_of_comes_ok f hp).trans hf

theorem comes_checkExpiry (coin : Coin) :
    Comes (answers view sign) s () (checkExpiry coin : Action F Unit) (checkExpiryIn view coin) :=
  comes_bind comes_lift (fun _ _ => comes_ok_bind comes_blockHeadersSubscribeRaw comes_lift)

theorem comes_selectCoins (coins : List (Coin × ℕ)) :
    Comes (answers view sign) s ()
      (selectCoins setup view.stored transfer.statechainId transfer.duplicatedIndexes coins)
      ((coins.filter (fun coin => goes setup view transfer coin.1)).forM (fun coin => checkExpiryIn view coin.1) >>=
        fun _ => .ok (coins.filter (fun coin => goes setup view transfer coin.1))) := by
  induction coins with
  | nil => exact comes_pure
  | cons first coins ih =>
    obtain ⟨coin, place⟩ := first
    rw [List.filter_cons, selectCoins]
    by_cases hgoes : goes setup view transfer coin = true
    · rw [if_pos hgoes, List.forM, bind_assoc]
      change Comes _ _ _ (if goes setup view transfer coin = true then _ else _) _
      rw [if_pos hgoes]
      refine comes_bind (comes_checkExpiry coin) (fun _ _ => ?_)
      have hrest := comes_bind ih (fun selected _ => comes_pure (a := (coin, place) :: selected))
      rwa [bind_assoc] at hrest
    · rw [if_neg hgoes]
      change Comes _ _ _ (if goes setup view transfer coin = true then _ else _) _
      rw [if_neg hgoes]
      exact ih

theorem comes_isConfirmed (utxo : Utxo) :
    Comes (answers view sign) s () (isConfirmed setup utxo) (.ok (isConfirmedIn setup view utxo)) := by
  unfold isConfirmed isConfirmedIn
  cases utxo.confirmed with
  | true => exact comes_ok_bind comes_blockHeadersSubscribeRaw comes_pure
  | false => exact comes_pure

theorem comes_checkConfirmed (coin : Coin) :
    Comes (answers view sign) s () (checkConfirmed setup coin) (checkConfirmedIn setup view coin) := by
  unfold checkConfirmed checkConfirmedIn
  split_ifs
  · refine comes_bind comes_lift (fun script _ => ?_)
    refine comes_ask_bind rfl (comes_ok_bind comes_lift ?_)
    cases ((view.unspents script).map utxoOf).find? (isUtxoOf coin) with
    | none => exact comes_pure
    | some utxo => exact comes_ok_bind (comes_isConfirmed utxo) comes_lift
  · exact comes_pure

theorem comes_checkCoins (wallet : Wallet) (statechainId : String) (duplicatedIndexes : Option (List UInt32)) :
    Comes (answers view sign) s () (checkCoins setup wallet statechainId duplicatedIndexes)
      (checkedCoins setup view wallet statechainId duplicatedIndexes) := by
  have hagrees : Agrees setup view ⟨[], ""⟩ (checkCoins setup wallet statechainId duplicatedIndexes)
      (checkedCoins setup view wallet statechainId duplicatedIndexes) := agrees_checkCoins _ _ _
  refine comes_of_comes_reply (Client.TransferSender.yields_checkCoins setup wallet statechainId duplicatedIndexes) ?_ hagrees.comes
  intro c hc
  cases c with
  | getBackupTxs walletName id => rfl
  | blockHeadersSubscribeRaw => rfl
  | scriptListUnspent script => rfl
  | _ => exact hc.elim

variable [Mul F] [NatCast F] [LT F] [DecidableLT F]

variable (setup) in
def webSigns (view : View) (transfer : Transfer) (coins : List (Coin × ℕ)) : Action F (List BackupTx) := do
  let backups ← backUpCoins setup view.stored transfer.recipientAddress transfer.wallet.network
    (sortConfirmedFirst coins) view.stored.length.toUInt32
  return collect backups

theorem opens_webTransfer :
    Opens (answers view sign) s () (webTransfer setup transfer) (webChecks setup view transfer)
      (webSigns setup view transfer) := by
  refine opens_bind comes_lift (fun _ _ => ?_)
  refine opens_bind comes_lift (fun _ _ => ?_)
  refine opens_ok_bind (comes_getBackupTxs _ _) ?_
  refine opens_bind (comes_selectCoins transfer _) (fun coins _ => ?_)
  refine opens_bind comes_lift (fun _ _ => ?_)
  refine opens_bind (comes_forM fun coin _ => comes_checkConfirmed coin.1) (fun _ _ => ?_)
  exact opens_ok_bind (comes_getBackupTxs _ _) rfl

variable (setup) in
def rustSigns (view : View) (transfer : Transfer) (coins : List (Coin × ℕ)) : Action F (List BackupTx) := do
  let backups ← Client.TransferSender.backUpCoins setup view.stored transfer.recipientAddress transfer.wallet.network
    (sortConfirmedFirst coins) view.stored.length.toUInt32
  return sortByTxN (collect backups)

theorem opens_rustTransfer :
    Opens (answers view sign) s () (rustTransfer setup transfer) (rustChecks setup view transfer)
      (rustSigns setup view transfer) := by
  refine opens_bind comes_lift (fun _ _ => ?_)
  simp only [Client.TransferSender.createBackupTransactions, Client.TransferSender.createCoinBackups, bind_assoc,
    pure_bind]
  exact opens_last (comes_checkCoins _ _ _) (fun coins => opens_ok_bind (comes_getBackupTxs _ _) rfl)

end Checks

section Accepting

variable {setup} {view : ChainView} {transfer : Transfer} {coin : Coin}

theorem checkExpiryIn_eq_ok : checkExpiryIn view.toView coin = .ok () ↔
    ∃ locktime, coin.locktime = some locktime ∧ locktime ≠ 0 ∧ view.height.toNat ≤ locktime.toNat := by
  simp only [checkExpiryIn, failIf, orFail, bind_eq_ok, throwIf_eq_ok, orThrow_eq_ok, Option.filter_eq_some_iff,
    decide_eq_true_eq, gt_iff_lt, not_lt, and_assoc]

theorem checkExpiryAt_eq_ok : checkExpiryAt view.toView coin = .ok () ↔
    ∃ locktime, coin.locktime = some locktime ∧ view.height.toNat ≤ locktime.toNat := by
  have hheight : view.height.toUInt32.toNat = view.height.toNat := by
    rw [UInt64.toNat_toUInt32]
    exact Nat.mod_eq_of_lt view.height_lt
  simp only [checkExpiryAt, failIf, orFail, bind_eq_ok, throwIf_eq_ok, orThrow_eq_ok, gt_iff_lt, UInt32.not_lt,
    UInt32.le_iff_toNat_le, hheight]

theorem isUtxoOf_utxoOf {script : Bytes} {unspent : Unspent} (h : unspent ∈ view.unspents script) :
    isUtxoOf coin (utxoOf unspent) = spends coin ⟨unspent.txHash, unspent.txPos.toUInt32⟩ := by
  have hposition := view.position script unspent h
  have hvout : ∀ vout : UInt32, vout.toNat = unspent.txPos.toNat ↔ vout = unspent.txPos.toUInt32 := by
    intro vout
    rw [← UInt32.toNat_inj, UInt64.toNat_toUInt32, Nat.mod_eq_of_lt hposition]
  rw [Bool.eq_iff_iff]
  simp only [isUtxoOf, spends, utxoOf, Bool.and_eq_true, beq_iff_eq, Option.map_eq_some_iff, hvout, exists_eq_right]

theorem find_utxoOf (coin : Coin) (script : Bytes) :
    ((view.unspents script).map utxoOf).find? (isUtxoOf coin) = (listed view.toView coin script).map utxoOf := by
  rw [List.find?_map, listed]
  congr 1
  apply List.find?_congr
  exact fun unspent hunspent => isUtxoOf_utxoOf hunspent

theorem isConfirmedIn_utxoOf {unspent : Unspent} : isConfirmedIn setup view.toView (utxoOf unspent) = true ↔
    0 < unspent.height.toNat ∧
      (setup.clientConfig.confirmationTarget.toNat : ℤ) ≤ view.height.toNat - unspent.height.toNat + 1 := by
  have hheight : 0 < unspent.height ↔ 0 < unspent.height.toNat := UInt64.lt_iff_toNat_lt
  by_cases h : 0 < unspent.height.toNat
  · simp [isConfirmedIn, utxoOf, hheight, h]
  · simp [isConfirmedIn, utxoOf, hheight, h]

theorem isConfirmedAt_eq_true {script : Bytes} {unspent : Unspent} (h : unspent ∈ view.unspents script) :
    isConfirmedAt setup view.toView unspent = true ↔ 0 < unspent.height.toNat ∧
      (setup.clientConfig.confirmationTarget.toNat : ℤ) ≤ view.height.toNat - unspent.height.toNat + 1 := by
  have hbelow := UInt64.le_iff_toNat_le.mp (view.below script unspent h)
  have hlt := view.height_lt
  rw [isConfirmedAt, decide_eq_true_eq, UInt64.lt_iff_toNat_lt, UInt32.le_iff_toNat_le]
  refine and_congr_right (fun hpos => ?_)
  have hpos : 0 < unspent.height.toNat := hpos
  have hrange : unspent.height.toNat ≤ view.height.toNat ∧ view.height.toNat - unspent.height.toNat + 1 < 2 ^ 32 := by
    omega
  rw [← (exact_iff.mpr hrange).2, Int.ofNat_le]

theorem checkConfirmedIn_eq_ok : checkConfirmedIn setup view.toView coin = .ok () ↔
    (coin.status = .duplicated → Confirmed setup view.toView coin) := by
  rw [checkConfirmedIn]
  split_ifs with hstatus
  · simp only [hstatus, true_imp_iff, Confirmed, bind_eq_ok, orFail, orThrow_eq_ok, find_utxoOf]
    refine exists_congr (fun script => and_congr_right (fun _ => ?_))
    cases listed view.toView coin script with
    | none => simp [pure, Except.pure]
    | some unspent =>
      simp only [Option.map_some, failIf, throwIf_eq_ok, Bool.not_eq_false, isConfirmedIn_utxoOf, Option.some.injEq,
        forall_eq']
  · simp [hstatus, pure, Except.pure]

theorem checkConfirmedAt_eq_ok : checkConfirmedAt setup view.toView coin = .ok () ↔
    (coin.status = .duplicated → Confirmed setup view.toView coin) := by
  rw [checkConfirmedAt]
  split_ifs with hstatus
  · simp only [hstatus, true_imp_iff, Confirmed, bind_eq_ok, orFail, orThrow_eq_ok, unwrap_eq_ok,
      Option.bind_eq_some_iff]
    constructor
    · rintro ⟨address, haddress, script, hscript, hlisted⟩
      refine ⟨script, ⟨address, haddress, hscript⟩, ?_⟩
      intro unspent hunspent
      simp only [hunspent, failIf, throwIf_eq_ok, Bool.not_eq_false] at hlisted
      exact (isConfirmedAt_eq_true (List.mem_of_find?_eq_some hunspent)).mp hlisted
    · rintro ⟨script, ⟨address, haddress, hscript⟩, hconfirmed⟩
      refine ⟨address, haddress, script, hscript, ?_⟩
      cases hlisted : listed view.toView coin script with
      | none => rfl
      | some unspent =>
        simp only [failIf, throwIf_eq_ok, Bool.not_eq_false]
        exact (isConfirmedAt_eq_true (List.mem_of_find?_eq_some hlisted)).mpr (hconfirmed unspent hlisted)
  · simp [hstatus, pure, Except.pure]

theorem checkDuplicates_eq_ok {wallet : Wallet} {statechainId : String} {forceSend : Bool} :
    checkDuplicates wallet statechainId forceSend = .ok () ↔
      (forceSend = true ∨ ∀ coin ∈ wallet.coins, coin.statechainId = some statechainId → coin.status ≠ .duplicated) ∧
      (∀ coin ∈ wallet.coins, coin.statechainId = some statechainId → coin.status = .withdrawing →
        ¬0 < coin.duplicateIndex) ∧
      ¬∃ coin ∈ wallet.coins, coin.statechainId = some statechainId ∧ coin.status = .withdrawn ∧
        0 < coin.duplicateIndex := by
  simp only [checkDuplicates, bind_eq_ok, failIf, throwIf_eq_ok, exists_const, List.any_eq_true, Bool.and_eq_true,
    Bool.or_eq_true, beq_iff_eq, decide_eq_true_eq, gt_iff_lt, not_and, Bool.not_eq_false, not_exists]
  grind

theorem rust_checkDuplicates_eq_ok {wallet : Wallet} {statechainId : String} {forceSend : Bool} :
    Client.TransferSender.checkDuplicates wallet statechainId forceSend = .ok () ↔
      (forceSend = true ∨ ∀ coin ∈ wallet.coins, coin.statechainId = some statechainId → coin.status ≠ .duplicated) ∧
      ∀ coin ∈ wallet.coins, coin.statechainId = some statechainId → coin.status = .withdrawing →
        ¬0 < coin.duplicateIndex := by
  simp only [Client.TransferSender.checkDuplicates, bind_eq_ok, failIf, throwIf_eq_ok, exists_const, List.any_eq_true,
    Bool.and_eq_true, beq_iff_eq, decide_eq_true_eq, gt_iff_lt, not_and, Bool.not_eq_false]
  grind

theorem coinsWithStatechainId_ne_nil {wallet : Wallet} {statechainId : String} :
    coinsWithStatechainId wallet statechainId ≠ [] ↔
      ∃ coin ∈ wallet.coins, coin.statechainId = some statechainId ∧ isMain coin = true := by
  simp [coinsWithStatechainId]

theorem coinToSend_ne_none {wallet : Wallet} {statechainId : String} :
    (∃ coin, Client.TransferSender.coinToSend wallet statechainId = some coin) ↔
      ∃ coin ∈ wallet.coins, coin.statechainId = some statechainId ∧ isMain coin = true := by
  constructor
  · rintro ⟨coin, hcoin⟩
    exact ⟨coin, Client.TransferSender.mem_of_coinToSend hcoin⟩
  · intro h
    rw [← coinsWithStatechainId_ne_nil] at h
    have hfold : ∀ (coins : List Coin) (best : Coin), ∃ coin, coins.foldl Client.TransferSender.sooner (some best) = some coin := by
      intro coins
      induction coins with
      | nil => exact fun best => ⟨best, rfl⟩
      | cons coin coins ih =>
        intro best
        rw [List.foldl_cons, Client.TransferSender.sooner]
        split_ifs
        · exact ih coin
        · exact ih best
    obtain ⟨first, coins, hcoins⟩ := List.exists_cons_of_ne_nil h
    rw [coinsWithStatechainId] at hcoins
    rw [Client.TransferSender.coinToSend, hcoins]
    exact hfold coins first

theorem webChecks_eq_ok {coins : List (Coin × ℕ)} : webChecks setup view.toView transfer = .ok coins ↔
    Accepted setup view.toView transfer ∧ ¬WebRefuses setup view.toView transfer ∧
      coins = coinList setup view.toView transfer := by
  simp only [webChecks, checkRequest, checkIndexes, checkMain, selectedIn, bind_eq_ok, exists_unit_eq_ok, exists_const,
    and_true, checkDuplicates_eq_ok, failIf, throwIf_eq_ok, forM_eq_ok, checkExpiryIn_eq_ok, checkConfirmedIn_eq_ok,
    pure_eq_ok]
  constructor
  · rintro ⟨⟨⟨hforced, hwithdrawing, hwithdrawn⟩, hfound, decoded, hdecoded⟩, hindexes, _, ⟨hunexpired, rfl⟩, hsingle,
      hconfirmed, rfl⟩
    refine ⟨⟨hforced, hwithdrawing, coinsWithStatechainId_ne_nil.mp hfound, ⟨decoded, hdecoded⟩, ?_, ?_,
      not_not.mp hsingle, hconfirmed⟩, ?_, rfl⟩
    · exact fun index hindex => Nat.lt_of_not_le (hindexes index hindex)
    · intro coin hcoin
      obtain ⟨locktime, hlocktime, -, hle⟩ := hunexpired coin hcoin
      exact ⟨locktime, hlocktime, hle⟩
    · rintro (h | ⟨coin, hcoin, hzero⟩)
      · exact hwithdrawn h
      · obtain ⟨locktime, hlocktime, hne, -⟩ := hunexpired coin hcoin
        exact hne (Option.some.inj (hlocktime.symm.trans hzero))
  · rintro ⟨haccepted, hrefuses, rfl⟩
    obtain ⟨hwithdrawn, hzero⟩ := not_or.mp hrefuses
    obtain ⟨decoded, hdecoded⟩ := haccepted.address
    refine ⟨⟨⟨haccepted.forced, haccepted.withdrawing, hwithdrawn⟩, coinsWithStatechainId_ne_nil.mpr haccepted.found,
      decoded, hdecoded⟩, ?_, _, ⟨?_, rfl⟩, not_not.mpr haccepted.single, haccepted.confirmed, rfl⟩
    · exact fun index hindex => Nat.not_le_of_lt (haccepted.indexes index hindex)
    · intro coin hcoin
      obtain ⟨locktime, hlocktime, hle⟩ := haccepted.unexpired coin hcoin
      refine ⟨locktime, hlocktime, ?_, hle⟩
      rintro rfl
      exact hzero ⟨coin, hcoin, hlocktime⟩

section Readable

variable {stored : List BackupTx}

/-- The text of the id of a transaction that is spent is not empty. -/
def Identified (btc : Bitcoin) (stored : List BackupTx) : Prop :=
  ∀ backupTx ∈ stored, ∀ outpoint, getPreviousOutpoint btc backupTx = .ok outpoint → outpoint.txid ≠ ""

variable {btc : Bitcoin}

theorem backsUp_eq {backupTx : BackupTx} (hread : getPreviousOutpoint btc backupTx ≠ .error .panic)
    (hid : ∀ outpoint, getPreviousOutpoint btc backupTx = .ok outpoint → outpoint.txid ≠ "") (coin : Coin) :
    Client.TransferSender.backsUp btc coin backupTx = .ok (backsUp btc coin backupTx) := by
  unfold Client.TransferSender.backsUp backsUp
  cases houtpoint : getPreviousOutpoint btc backupTx with
  | ok outpoint =>
    have hspends : spends coin outpoint = (coin.utxoTxid != some "" && spends coin outpoint) := by
      cases h : spends coin outpoint with
      | false => simp
      | true =>
        have htxid : coin.utxoTxid = some outpoint.txid := beq_iff_eq.mp (Bool.and_eq_true_iff.mp h).1
        simp [htxid, hid outpoint houtpoint]
    exact congrArg Except.ok hspends
  | error failure =>
    cases failure with
    | panic => exact absurd houtpoint hread
    | _ => rfl

variable (hread : ∀ backupTx ∈ stored, getPreviousOutpoint btc backupTx ≠ .error .panic)
  (hids : Identified btc stored)

include hread hids

theorem hasMatchingTx_eq (coin : Coin) :
    Client.TransferSender.hasMatchingTx btc coin stored = .ok (hasMatchingTx btc coin stored) := by
  apply anyM_eq_ok
  intro backupTx hbackupTx
  rw [backsUp_eq (hread backupTx hbackupTx) (hids backupTx hbackupTx), ok_bind, Bool.and_comm]
  rfl

theorem filteredTransactions_eq (coin : Coin) :
    Client.TransferSender.filteredTransactions btc coin stored = .ok (filteredTransactions btc coin stored) := by
  have hfilter : ∀ backupTx ∈ stored,
      Client.TransferSender.backsUp btc coin backupTx = .ok (backsUp btc coin backupTx) :=
    fun backupTx hbackupTx => backsUp_eq (hread backupTx hbackupTx) (hids backupTx hbackupTx) coin
  rw [Client.TransferSender.filteredTransactions, filterM_eq_ok hfilter]
  rfl

end Readable

variable (hread : ∀ backupTx ∈ view.stored, getPreviousOutpoint setup.btc backupTx ≠ .error .panic)
  (hids : Identified setup.btc view.stored)

include hread hids

theorem selectedCoins_eq (coins : List (Coin × ℕ)) :
    selectedCoins setup view.toView transfer.statechainId transfer.duplicatedIndexes coins = (do
      (coins.filter (fun coin => goes setup view.toView transfer coin.1)).forM
        (fun coin => checkExpiryAt view.toView coin.1)
      return coins.filter (fun coin => goes setup view.toView transfer coin.1)) := by
  induction coins with
  | nil => rfl
  | cons first coins ih =>
    obtain ⟨coin, place⟩ := first
    rw [List.filter_cons, selectedCoins, hasMatchingTx_eq hread hids, ok_bind]
    by_cases hgoes : goes setup view.toView transfer coin = true
    · change (if goes setup view.toView transfer coin = true then _ else _) = _
      rw [if_pos hgoes, if_pos hgoes, List.forM, bind_assoc, ih]
      simp only [bind_assoc, pure_bind]
    · change (if goes setup view.toView transfer coin = true then _ else _) = _
      rw [if_neg hgoes, if_neg hgoes, ih]

theorem rustChecks_eq_ok {coins : List (Coin × ℕ)} : rustChecks setup view.toView transfer = .ok coins ↔
    Accepted setup view.toView transfer ∧
      validateAddress setup transfer.recipientAddress transfer.wallet.network = .ok true ∧
        coins = coinList setup view.toView transfer := by
  simp only [rustChecks, rustCheckRequest, checkIndexes, checkMain, checkedCoins, selectedCoins_eq hread hids,
    bind_eq_ok, exists_unit_eq_ok, exists_const, and_true, rust_checkDuplicates_eq_ok, failIf, throwIf_eq_ok, orFail,
    orThrow_eq_ok, forM_eq_ok, checkExpiryAt_eq_ok, checkConfirmedAt_eq_ok, pure_eq_ok]
  constructor
  · rintro ⟨⟨valid, hvalid, htrue, ⟨hforced, hwithdrawing⟩, coin, hcoin, decoded, hdecoded⟩, hindexes, _,
      ⟨hunexpired, rfl⟩, hsingle, hconfirmed, rfl⟩
    rw [Bool.not_eq_false] at htrue
    subst htrue
    refine ⟨⟨hforced, hwithdrawing, coinToSend_ne_none.mp ⟨coin, hcoin⟩, ⟨decoded, hdecoded⟩, ?_, hunexpired,
      not_not.mp hsingle, hconfirmed⟩, hvalid, rfl⟩
    exact fun index hindex => Nat.lt_of_not_le (hindexes index hindex)
  · rintro ⟨haccepted, hvalid, rfl⟩
    obtain ⟨coin, hcoin⟩ := coinToSend_ne_none.mpr haccepted.found
    refine ⟨⟨true, hvalid, Bool.false_ne_true.symm, ⟨haccepted.forced, haccepted.withdrawing⟩, coin, hcoin,
      haccepted.address⟩, ?_, _, ⟨haccepted.unexpired, rfl⟩, not_not.mpr haccepted.single, haccepted.confirmed, rfl⟩
    exact fun index hindex => Nat.not_le_of_lt (haccepted.indexes index hindex)

variable [Mul F] [NatCast F] [LT F] [DecidableLT F]

theorem backUpCoins_eq (recipientAddress network : String) (coins : List (Coin × ℕ)) (newTxN : UInt32) :
    Client.TransferSender.backUpCoins setup view.stored recipientAddress network coins newTxN =
      backUpCoins setup view.stored recipientAddress network coins newTxN := by
  induction coins generalizing newTxN with
  | nil => rfl
  | cons first coins ih =>
    have hturn : Client.TransferSender.backUpCoin setup view.stored recipientAddress network first.1 first.2 newTxN =
        backUpCoin setup view.stored recipientAddress network first.1 first.2 newTxN := by
      rw [Client.TransferSender.backUpCoin, filteredTransactions_eq hread hids]
      rfl
    rw [Client.TransferSender.backUpCoins, hturn, backUpCoins]
    simp only [ih]

end Accepting

end MercuryLayer.Web.TransferSend
