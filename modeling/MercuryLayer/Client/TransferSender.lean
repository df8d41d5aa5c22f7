import MercuryLayer.Client.Transaction

namespace MercuryLayer.Client.TransferSender

open Client.Transaction Client.TransferReceiver Crates Error Library.Programs Library.Validation Library.XOnlyCurve
open Receiver Sender Server.Transfer MercuryLayer.Transaction WalletData

section Select

variable (btc : Bitcoin) (coin : Coin)

def spends (outpoint : OutPoint) : Bool :=
  coin.utxoTxid == some outpoint.txid && coin.utxoVout == some outpoint.vout

def isTransferable : CoinStatus → Bool
  | .duplicated | .confirmed | .inTransfer => true
  | _ => false

/-- Whether the transaction spends the coin's output. One that cannot be read does not. -/
def backsUp (backupTx : BackupTx) : Res Bool := do
  match ← handled (getPreviousOutpoint btc backupTx) with
  | some outpoint => return spends coin outpoint
  | none => return false

def hasMatchingTx (backupTransactions : List BackupTx) : Res Bool :=
  backupTransactions.anyM (fun backupTx => do return (← backsUp btc coin backupTx) && isTransferable coin.status)

def coinToAdd (statechainId : String) : Option (List UInt32) → Bool
  | none => false
  | some duplicatedIndexes => coin.statechainId == some statechainId &&
    (coin.status == .confirmed || coin.status == .inTransfer ||
      coin.status == .duplicated && duplicatedIndexes.contains coin.duplicateIndex)

/-- The stored transactions of the coin in the order of their numbers. -/
def filteredTransactions (backupTransactions : List BackupTx) : Res (List BackupTx) := do
  let filtered ← backupTransactions.filterM (backsUp btc coin)
  return sortByTxN filtered

end Select

variable {E K F : Type} (setup : Setup E K F)

def getBackupTxs (walletName statechainId : String) : Action F (List BackupTx) := do
  let backupTxs : Except String (List BackupTx) ← ask (Call.getBackupTxs walletName statechainId : Call F)
  anyhow backupTxs

def checkExpiry (coin : Coin) : Action F Unit := do
  let locktime ← orFail "coin.locktime is None" coin.locktime
  let blockheight ← currentBlockheight
  failIf (blockheight > locktime)
    ("The coin is expired. Coin locktime is " ++ toString locktime ++ " and current blockheight is " ++
      toString blockheight)

def Consults : Call F → Prop
  | .blockHeadersSubscribeRaw => True
  | .scriptListUnspent _ => True
  | _ => False

theorem yields_blockHeadersSubscribeRaw :
    Yields Consults (fun _ => True) (blockHeadersSubscribeRaw : Action F UInt64) :=
  yields_ask_bind Call.blockHeadersSubscribeRaw _ trivial (fun _ => yields_lift fun _ _ => trivial)

theorem yields_currentBlockheight : Yields Consults (fun _ => True) (currentBlockheight : Action F UInt32) :=
  yields_bind yields_blockHeadersSubscribeRaw (fun _ _ => yields_pure trivial)

theorem yields_checkExpiry (coin : Coin) : Yields Consults (fun _ => True) (checkExpiry coin : Action F Unit) :=
  yields_lift_bind (fun _ _ =>
    yields_bind yields_currentBlockheight (fun _ _ => yields_lift fun _ _ => trivial))

/-- The coins to send, each with its place in the wallet. -/
def selectCoins (backupTransactions : List BackupTx) (statechainId : String)
    (duplicatedIndexes : Option (List UInt32)) : List (Coin × ℕ) → Action F (List (Coin × ℕ))
  | [] => return []
  | (coin, place) :: coins => do
    let matching ← hasMatchingTx setup.btc coin backupTransactions
    if matching || coinToAdd coin statechainId duplicatedIndexes then
      checkExpiry coin
      let selected ← selectCoins backupTransactions statechainId duplicatedIndexes coins
      return (coin, place) :: selected
    else selectCoins backupTransactions statechainId duplicatedIndexes coins

section Selected

variable (btc : Bitcoin) (backupTransactions : List BackupTx) (statechainId : String)
  (duplicatedIndexes : Option (List UInt32))

/-- Whether a coin of the wallet goes along with the statechain. -/
def Sent (coin : Coin) : Prop :=
  hasMatchingTx btc coin backupTransactions = .ok true ∨ coinToAdd coin statechainId duplicatedIndexes = true

instance Sent.decidable (coin : Coin) :
    Decidable (Sent btc backupTransactions statechainId duplicatedIndexes coin) :=
  inferInstanceAs (Decidable (_ ∨ _))

theorem yields_selectCoins (coins : List (Coin × ℕ)) :
    Yields Consults
      (fun selected => selected.Sublist coins ∧ ∀ coin, coin ∈ selected ↔
        coin ∈ coins ∧ Sent setup.btc backupTransactions statechainId duplicatedIndexes coin.1)
      (selectCoins setup backupTransactions statechainId duplicatedIndexes coins) := by
  induction coins with
  | nil => exact yields_pure ⟨List.Sublist.refl _, by simp⟩
  | cons first coins ih =>
    refine yields_lift_bind (fun matching hmatching => ?_)
    have hsent : (matching || coinToAdd first.1 statechainId duplicatedIndexes) = true ↔
        Sent setup.btc backupTransactions statechainId duplicatedIndexes first.1 := by
      rw [Sent, hmatching, Bool.or_eq_true, Except.ok.injEq]
    by_cases hsend : (matching || coinToAdd first.1 statechainId duplicatedIndexes) = true
    · rw [if_pos hsend]
      refine yields_bind (yields_checkExpiry first.1) (fun _ _ => ?_)
      refine yields_bind ih (fun selected hselected => ?_)
      obtain ⟨hsub, hmem⟩ := hselected
      refine yields_pure ⟨hsub.cons_cons first, fun coin => ?_⟩
      rw [List.mem_cons, List.mem_cons, hmem, or_and_right]
      refine or_congr_left ⟨fun h => ⟨h, ?_⟩, And.left⟩
      rw [h]
      exact hsent.mp hsend
    · rw [if_neg hsend]
      refine yields_mono (fun _ h => h) (fun selected hselected => ?_) ih
      obtain ⟨hsub, hmem⟩ := hselected
      refine ⟨hsub.cons first, fun coin => ?_⟩
      rw [hmem, List.mem_cons, or_and_right, iff_or_self]
      rintro ⟨rfl, h⟩
      exact absurd (hsent.mpr h) hsend

end Selected

def isMain (coin : Coin) : Bool :=
  coin.duplicateIndex == 0 && (coin.status == .confirmed || coin.status == .inTransfer)

def isConfirmed (unspent : Unspent) : Action F Bool := do
  if 0 < unspent.height then
    let blockheight ← blockHeadersSubscribeRaw
    let confirmations := blockheight - unspent.height + 1
    return decide (setup.clientConfig.confirmationTarget ≤ confirmations.toUInt32)
  else return false

/-- A further deposit must have been confirmed, as long as it is unspent. -/
def checkConfirmed (coin : Coin) : Action F Unit := do
  if coin.status = .duplicated then
    let aggregatedAddress ← unwrap coin.aggregatedAddress
    let script ← orFail "bitcoin::address::Error" (setup.btc.scriptOfAddress aggregatedAddress setup.network)
    let unspents : Except String (List Unspent) ← ask (Call.scriptListUnspent script : Call F)
    let unspents ← anyhow unspents
    match unspents.find? (fun unspent => spends coin ⟨unspent.txHash, unspent.txPos.toUInt32⟩) with
    | none => return ()
    | some unspent =>
      failIf ((← isConfirmed setup unspent) = false)
        ("The coin with duplicated index " ++ toString coin.duplicateIndex ++
          " has not yet been confirmed. This transfer cannot be performed.")
  else return ()

theorem yields_isConfirmed (unspent : Unspent) :
    Yields Consults (fun _ => True) (isConfirmed setup unspent : Action F Bool) := by
  unfold isConfirmed
  split_ifs
  · exact yields_bind yields_blockHeadersSubscribeRaw (fun _ _ => yields_pure trivial)
  · exact yields_pure trivial

theorem yields_checkConfirmed (coin : Coin) :
    Yields Consults (fun _ => True) (checkConfirmed setup coin : Action F Unit) := by
  unfold checkConfirmed
  split_ifs
  · refine yields_lift_bind (fun aggregatedAddress _ => ?_)
    refine yields_lift_bind (fun script _ => ?_)
    refine yields_ask_bind (Call.scriptListUnspent script) _ trivial (fun reply => ?_)
    refine yields_lift_bind (fun unspents _ => ?_)
    cases unspents.find? (fun unspent => spends coin ⟨unspent.txHash, unspent.txPos.toUInt32⟩) with
    | none => exact yields_pure trivial
    | some unspent => exact yields_bind (yields_isConfirmed setup unspent) (fun _ _ => yields_lift fun _ _ => trivial)
  · exact yields_pure trivial

def checkIndexes (wallet : Wallet) (duplicatedIndexes : Option (List UInt32)) : Res Unit :=
  (duplicatedIndexes.getD []).forM (fun index =>
    failIf (wallet.coins.length ≤ index.toNat) ("Index " ++ toString index ++ " does not exist in wallet.coins"))

def checkMain (coinList : List (Coin × ℕ)) : Res Unit :=
  failIf ((coinList.filter (fun coin => isMain coin.1)).length ≠ 1)
    "There must be at least one coin with duplicate_index == 0"

/-- `create_backup_transactions` up to its last check. -/
def checkCoins (wallet : Wallet) (statechainId : String) (duplicatedIndexes : Option (List UInt32)) :
    Action F (List (Coin × ℕ)) := do
  checkIndexes wallet duplicatedIndexes
  let backupTransactions ← getBackupTxs wallet.name statechainId
  let coinList ← selectCoins setup backupTransactions statechainId duplicatedIndexes wallet.coins.zipIdx
  checkMain coinList
  coinList.forM (fun coin => checkConfirmed setup coin.1)
  return coinList

/-- The calls that only ask the electrum server or read the stored transactions. -/
def Views : Call F → Prop
  | .getBackupTxs _ _ => True
  | c => Consults c

theorem views_of_consults (c : Call F) (h : Consults c) : Views c := by
  cases c with
  | getBackupTxs walletName statechainId => trivial
  | _ => exact h

theorem yields_checkCoins (wallet : Wallet) (statechainId : String) (duplicatedIndexes : Option (List UInt32)) :
    Yields Views
      (fun selected => ∃ backupTransactions, ∀ coin, coin ∈ selected ↔
        coin ∈ wallet.coins.zipIdx ∧ Sent setup.btc backupTransactions statechainId duplicatedIndexes coin.1)
      (checkCoins setup wallet statechainId duplicatedIndexes) := by
  refine yields_lift_bind (fun _ _ => ?_)
  refine yields_bind (yields_ask_bind (Call.getBackupTxs wallet.name statechainId) _ trivial
    fun _ => yields_lift fun _ _ => trivial) (fun backupTransactions _ => ?_)
  refine yields_bind (yields_mono views_of_consults (fun _ h => h) (yields_selectCoins _ _ _ _ _))
    (fun selected hselected => ?_)
  refine yields_lift_bind (fun _ _ => ?_)
  exact yields_bind (yields_forM fun coin _ => yields_mono views_of_consults (fun _ h => h)
    (yields_checkConfirmed setup coin.1)) (fun _ _ => yields_pure ⟨backupTransactions, hselected.2⟩)

/-- The order of `sort_by` for a list with at most one confirmed coin. The comparison puts a confirmed coin before
any other one, a confirmed one included: of several each goes to the front, as in the insertion sort of up to twenty
coins. The order of a longer list with several of them is not specified. -/
def sortConfirmedFirst (coins : List (Coin × ℕ)) : List (Coin × ℕ) :=
  coins.foldl (fun sorted coin => if coin.1.status = .confirmed then coin :: sorted else sorted ++ [coin]) []

theorem sortConfirmedFirst_perm (coins : List (Coin × ℕ)) : (sortConfirmedFirst coins).Perm coins := by
  have hfold : ∀ (coins sorted : List (Coin × ℕ)),
      (coins.foldl (fun sorted coin => if coin.1.status = .confirmed then coin :: sorted else sorted ++ [coin])
        sorted).Perm (sorted ++ coins) := by
    intro coins
    induction coins with
    | nil => exact fun sorted => by rw [List.append_nil]; exact List.Perm.refl _
    | cons coin coins ih =>
      intro sorted
      refine (ih _).trans ?_
      dsimp only
      split_ifs
      · exact List.perm_middle.symm
      · rw [List.append_assoc]
        exact List.Perm.refl _
  exact hfold coins []

theorem ne_nil_of_checkMain {coinList : List (Coin × ℕ)} (h : checkMain coinList = .ok ()) :
    sortConfirmedFirst coinList ≠ [] := by
  intro hnil
  have hempty : coinList = [] := List.perm_nil.mp (hnil ▸ (sortConfirmedFirst_perm coinList).symm)
  rw [hempty] at h
  cases h

/-- What the loop has done for one coin: its stored transactions and those made for it now. -/
structure CoinBackup where
  place : ℕ
  coin : Coin
  stored : List BackupTx
  created : List BackupTx
deriving DecidableEq, Repr

section Build

variable [Mul F] [NatCast F] [LT F] [DecidableLT F]

def createBackupTxToReceiver (coin : Coin) (bkpTx1 : BackupTx) (recipientAddress : String) (qtBackupTx : UInt32)
    (network : String) : Action F (Coin × String) := do
  let blockHeight ← getBlockheight setup.btc bkpTx1
  let serverInfo ← infoConfig
  newTransaction setup coin recipientAddress qtBackupTx none (some blockHeight) network
    (feeRateSatsPerByte setup serverInfo) serverInfo.initlock serverInfo.interval

/-- A coin without a stored transaction gets its first one. -/
def firstBackupTx (stored : List BackupTx) (coin : Coin) (network : String) (newTxN : UInt32) :
    Action F (Coin × List BackupTx × UInt32) := do
  if stored = [] then
    let (coin, bkpTx1) ← createTx1 setup coin network (newTxN + 1)
    return (coin, [bkpTx1], newTxN + 1)
  else return (coin, [], newTxN)

/-- One turn of the loop, with the transactions that are stored for the coin. -/
def backUpWith (stored : List BackupTx) (recipientAddress network : String) (coin : Coin) (place : ℕ)
    (newTxN : UInt32) : Action F (CoinBackup × UInt32) := do
  let (coin, first, newTxN) ← firstBackupTx setup stored coin network newTxN
  let bkpTx1 ← unwrap (stored ++ first).head?
  let (coin, signedTx) ← createBackupTxToReceiver setup coin bkpTx1 recipientAddress
    (stored ++ first).length.toUInt32 network
  let backupTx ← backupTxOf coin (newTxN + 1) signedTx
  return (⟨place, { coin with status := .inTransfer }, stored, first ++ [backupTx]⟩, newTxN + 1)

def backUpCoin (backupTransactions : List BackupTx) (recipientAddress network : String) (coin : Coin) (place : ℕ)
    (newTxN : UInt32) : Action F (CoinBackup × UInt32) := do
  let stored ← filteredTransactions setup.btc coin backupTransactions
  backUpWith setup stored recipientAddress network coin place newTxN

def backUpCoins (backupTransactions : List BackupTx) (recipientAddress network : String) :
    List (Coin × ℕ) → UInt32 → Action F (List CoinBackup)
  | [], _ => return []
  | (coin, place) :: coins, newTxN => do
    let (backup, newTxN) ← backUpCoin setup backupTransactions recipientAddress network coin place newTxN
    let backups ← backUpCoins backupTransactions recipientAddress network coins newTxN
    return backup :: backups

/-- The transactions of a coin go to the front if it is the main one, and to the end if not. -/
def collect (backups : List CoinBackup) : List BackupTx :=
  backups.foldl (fun txs backup =>
    if backup.coin.duplicateIndex = 0 then backup.stored ++ backup.created ++ txs
    else txs ++ (backup.stored ++ backup.created)) []

def storeCoins (coins : List Coin) (backups : List CoinBackup) : List Coin :=
  backups.foldl (fun coins backup => coins.set backup.place backup.coin) coins

/-- `create_backup_transactions` up to the end of its loop. -/
def createCoinBackups (recipientAddress : String) (wallet : Wallet) (statechainId : String)
    (duplicatedIndexes : Option (List UInt32)) : Action F (List CoinBackup) := do
  let coinList ← checkCoins setup wallet statechainId duplicatedIndexes
  let backupTransactions ← getBackupTxs wallet.name statechainId
  backUpCoins setup backupTransactions recipientAddress wallet.network (sortConfirmedFirst coinList)
    backupTransactions.length.toUInt32

def createBackupTransactions (recipientAddress : String) (wallet : Wallet) (statechainId : String)
    (duplicatedIndexes : Option (List UInt32)) : Action F (Wallet × List BackupTx) := do
  let backups ← createCoinBackups setup recipientAddress wallet statechainId duplicatedIndexes
  return ({ wallet with coins := storeCoins wallet.coins backups }, sortByTxN (collect backups))

section Execute

def validateAddress (address network : String) : Res Bool := do
  let network ← getNetwork network
  if isTransferAddress address then
    throwIf (['m', 'l'].isPrefixOf address.toList = true ∧ network ≠ .bitcoin)
      (.mercury .statechainAddressMismatchNetworkError)
    throwIf (['t', 'm', 'l'].isPrefixOf address.toList = true ∧ network = .bitcoin)
      (.mercury .statechainAddressMismatchNetworkError)
    match ← handled (setup.envelope.decodeTransferAddress address) with
    | some _ => return true
    | none => .error (.mercury .invalidStatechainAddressError)
  else
    throwIf (setup.isAddress address = false) (.mercury .invalidBitcoinAddressError)
    throwIf (setup.btc.scriptOfAddress address network = none) (.mercury .bitcoinAddressMismatchNetworkError)
    return true

def createTransferSignature (recipientAddress inputTxid : String) (inputVout : UInt32) (clientSeckey : String) :
    Res String := do
  let (_, recipientUserPubkey, _) ← setup.envelope.decodeTransferAddress recipientAddress
  let inputTxid ← orErr .bitcoinHashHexError (setup.btc.txidFromStr inputTxid)
  let clientSeckey ← orErr .keyError (setup.secp.privateKeyFromWif clientSeckey)
  let dataToSign := inputTxid ++ toLeBytes inputVout ++ setup.secp.serialize recipientUserPubkey
  return setup.secp.signatureToStr (setup.secp.signSchnorr (setup.secp.sha256 dataToSign) clientSeckey)

/-- `get_new_x1`. A request that does not come through is a panic, since its error has no
status. -/
def getNewX1 (statechainId signedStatechainId recipientAuthPubkey : String) (batchId : Option String) :
    Action F String := do
  let payload : TransferSenderRequestPayload := ⟨statechainId, signedStatechainId, recipientAuthPubkey, batchId⟩
  let response : Response ← ask (Call.transferSender payload : Call F)
  let response ← expect (anyhow response)
  let answer ← orFail "status: 500 Internal Server Error" response
  failIf (¬(200 ≤ answer.status ∧ answer.status < 300)) ("status: " ++ toString answer.status)
  unwrap (answerField "x1" answer)

/-- One turn of the search for the coin with the earliest lock time. -/
def sooner (best : Option Coin) (coin : Coin) : Option Coin :=
  match best with
  | none => some coin
  | some best => if coin.locktime.getD 0xFFFFFFFF < best.locktime.getD 0xFFFFFFFF then some coin else some best

/-- The main coin of the statechain with the lowest lock time, the first one of several. -/
def coinToSend (wallet : Wallet) (statechainId : String) : Option Coin :=
  (wallet.coins.filter (fun coin => coin.statechainId == some statechainId && isMain coin)).foldl sooner none

theorem mem_of_coinToSend {wallet : Wallet} {statechainId : String} {coin : Coin}
    (h : coinToSend wallet statechainId = some coin) :
    coin ∈ wallet.coins ∧ coin.statechainId = some statechainId ∧ isMain coin = true := by
  have hfold : ∀ (coins : List Coin) (best : Option Coin),
      coins.foldl sooner best = some coin → coin ∈ coins ∨ best = some coin := by
    intro coins
    induction coins with
    | nil => exact fun best hbest => .inr hbest
    | cons next coins ih =>
      intro best hbest
      obtain hmem | hnext := ih _ hbest
      · exact .inl (List.mem_cons_of_mem next hmem)
      · cases best with
        | none => exact .inl (List.mem_cons.mpr (.inl (Option.some.inj hnext).symm))
        | some best =>
          rw [sooner] at hnext
          split at hnext
          · exact .inl (List.mem_cons.mpr (.inl (Option.some.inj hnext).symm))
          · exact .inr hnext
  obtain hmem | hnone := hfold _ _ h
  · obtain ⟨hmem, hcoin⟩ := List.mem_filter.mp hmem
    obtain ⟨hid, hmain⟩ := Bool.and_eq_true_iff.mp hcoin
    exact ⟨hmem, beq_iff_eq.mp hid, hmain⟩
  · cases hnone

def checkDuplicates (wallet : Wallet) (statechainId : String) (forceSend : Bool) : Res Unit := do
  failIf (wallet.coins.any (fun coin => coin.statechainId == some statechainId && coin.status == .duplicated) = true ∧
      forceSend = false)
    "Coin is duplicated. If you want to proceed, use the command '--force, -f' option. You will no longer be able to move other duplicate coins with the same statechain_id and this will cause PERMANENT LOSS of these duplicate coin funds."
  failIf (wallet.coins.any (fun coin => coin.statechainId == some statechainId && coin.status == .withdrawing &&
      coin.duplicateIndex > 0) = true)
    "There have been withdrawals of other coins with this same statechain_id (possibly duplicates).This transfer cannot be performed because the recipient would reject it due to the difference in signature count.This coin can be withdrawn, however."

/-- The parts of `execute` that come after the message: the upload and what is stored. -/
def uploadAndStore (payload : TransferUpdateMsgRequestPayload) (wallet : Wallet) (statechainId utxo : String)
    (amount : UInt32) (backupTransactions : List BackupTx) : Action F Unit := do
  let response : Response ← ask (Call.transferUpdateMsg payload : Call F)
  let answer ← orFail "Failed to update transfer message" (← anyhow response)
  failIf (¬(200 ≤ answer.status ∧ answer.status < 300)) "Failed to update transfer message"
  let stored : Except String Unit ← ask (Call.updateBackupTxs wallet.name statechainId backupTransactions : Call F)
  anyhow stored
  let date : String ← ask (Call.utcNow : Call F)
  let activity : Activity := { utxo := utxo, amount := amount, action := "Transfer", date := date }
  let stored : Except String Unit ←
    ask (Call.updateWallet { wallet with activities := wallet.activities ++ [activity] } : Call F)
  anyhow stored

def execute (recipientAddress walletName statechainId : String) (duplicatedIndexes : Option (List UInt32))
    (forceSend : Bool) (batchId : Option String) : Action F Unit := do
  let wallet : Except String Wallet ← ask (Call.getWallet walletName : Call F)
  let wallet ← anyhow wallet
  let isAddressValid ← validateAddress setup recipientAddress wallet.network
  failIf (isAddressValid = false) "Invalid address"
  checkDuplicates wallet statechainId forceSend
  let coin ← orFail "No coins with status CONFIRMED or IN_TRANSFER associated with this statechain ID were found"
    (coinToSend wallet statechainId)
  let statechainId ← unwrap coin.statechainId
  let signedStatechainId ← unwrap coin.signedStatechainId
  let (_, _, recipientAuthPubkey) ← setup.envelope.decodeTransferAddress recipientAddress
  let x1 ← getNewX1 statechainId signedStatechainId (setup.secp.publicKeyToStr recipientAuthPubkey) batchId
  let inputTxid ← unwrap coin.utxoTxid
  let inputVout ← unwrap coin.utxoVout
  let coinAmount ← unwrap coin.amount
  let transferSignature ← createTransferSignature setup recipientAddress inputTxid inputVout coin.userPrivkey
  let (wallet, backupTransactions) ←
    createBackupTransactions setup recipientAddress wallet statechainId duplicatedIndexes
  let payload ← createTransferUpdateMsg setup.secp setup.envelope x1 recipientAddress coin transferSignature
    backupTransactions
  uploadAndStore payload wallet statechainId (inputTxid ++ ":" ++ toString inputVout) coinAmount backupTransactions

end Execute

end Build

end MercuryLayer.Client.TransferSender
