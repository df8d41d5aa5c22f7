import MercuryLayer.Client.Operations

namespace MercuryLayer.Client.CoinStatus

open Client.Operations Client.TransferReceiver
open Client.Transaction hiding Call Reply
open Crates MercuryLayer.Deposit Error Library.Programs Library.Validation WalletData

variable {E K F : Type} (kit : Kit E K F)

structure DepositResult where
  activity : Activity
  backupTx : BackupTx
deriving DecidableEq, Repr

/-- The first output with the coin's amount. A coin without an amount is a panic, if there is an
output at all. -/
def findDeposit (coin : Coin) : List Unspent → Res (Option Unspent)
  | [] => .ok none
  | unspents => do
    let amount ← unwrap coin.amount
    return unspents.find? (fun unspent => unspent.value == amount.toUInt64)

def isConfirmedAt (blockheight : UInt64) (unspent : Unspent) : Bool :=
  decide ((blockheight - unspent.height + 1).toUInt32 ≥ kit.clientConfig.confirmationTarget)

/-- An output in the mempool leaves the status as it is. -/
def statusAt (status : CoinStatus) (blockheight : UInt64) (unspent : Unspent) : CoinStatus :=
  if 0 < unspent.height then
    if isConfirmedAt kit blockheight unspent then .confirmed else .unconfirmed
  else status

section Check

variable [Mul F] [NatCast F] [LT F] [DecidableLT F]

/-- The output of a new coin is recorded, and its first backup transaction is made. -/
def recordDeposit (coin : Coin) (network : String) (utxo : Unspent) : Operation F (Coin × Option DepositResult) := do
  if coin.status = .initialised then
    let coin := { coin with
      utxoTxid := some utxo.txHash, utxoVout := some utxo.txPos.toUInt32, status := .inMempool }
    let (coin, backupTx) ← send (createTx1 kit.toSetup coin network 1)
    let activity ← createActivity (utxo.txHash ++ ":" ++ toString utxo.txPos) utxo.value.toUInt32 "deposit"
    return (coin, some ⟨activity, backupTx⟩)
  else return (coin, none)

def checkDeposit (coin : Coin) (network : String) : Operation F (Coin × Option DepositResult) := do
  if coin.statechainId = none ∧ coin.utxoTxid = none ∧ coin.utxoVout = none then
    failIf (coin.status ≠ .initialised)
      "Coin does not have a statechain ID, a UTXO and the status is not INITIALISED"
    return (coin, none)
  else
    let aggregatedAddress ← unwrap coin.aggregatedAddress
    let script ← scriptOf kit.toSetup aggregatedAddress
    let utxoList ← scriptListUnspent script
    match ← findDeposit coin utxoList with
    | none => return (coin, none)
    | some utxo =>
      if utxo.height = 0 ∧ coin.status = .inMempool then return (coin, none)
      else
        let blockheight ← send blockHeadersSubscribeRaw
        let (coin, depositResult) ← recordDeposit kit coin network utxo
        return ({ coin with status := statusAt kit coin.status blockheight utxo }, depositResult)

/-- A statechain that the server does not know is taken for transferred. -/
def checkTransfer [DecidableEq E] (coin : Coin) : Operation F Bool := do
  let statechainId ← orFail "Coin does not have a statechain ID" coin.statechainId
  match ← getStatechainInfo statechainId with
  | none => return true
  | some statechainInfo => return !(← isEnclavePubkeyPartOfCoin kit.secp coin statechainInfo.enclavePublicKey)

def withdrawalTxid (coin : Coin) : Res String :=
  match coin.txWithdraw, coin.txCpfp with
  | some _, some _ => .error (.anyhow "Coin has both tx_withdraw and tx_cpfp")
  | some txid, none => .ok txid
  | none, some txid => .ok txid
  | none, none => .error (.anyhow "Coin does not have tx_withdraw or tx_cpfp")

def checkWithdrawal (coin : Coin) : Operation F Coin := do
  let txid ← withdrawalTxid coin
  let withdrawalAddress ← orFail "Coin does not have withdrawal_address" coin.withdrawalAddress
  let script ← scriptOf kit.toSetup withdrawalAddress
  let utxoList ← scriptListUnspent script
  match utxoList.find? (fun unspent => unspent.txHash == txid) with
  | none => return coin
  | some utxo =>
    if 0 < utxo.height then
      let blockheight ← send blockHeadersSubscribeRaw
      return if isConfirmedAt kit blockheight utxo then { coin with status := .withdrawn } else coin
    else return coin

end Check

section Duplicated

/-- A copy of the coin for every output that no coin of the wallet has. -/
def duplicatesOf (existingCoins : List Coin) (coin : Coin) : List Unspent → UInt32 → List Coin
  | [], _ => []
  | unspent :: unspents, maxDuplicatedIndex =>
    if existingCoins.any (fun coin =>
        coin.utxoTxid == some unspent.txHash && coin.utxoVout == some unspent.txPos.toUInt32) then
      duplicatesOf existingCoins coin unspents maxDuplicatedIndex
    else
      { coin with
        status := .duplicated, utxoTxid := some unspent.txHash, utxoVout := some unspent.txPos.toUInt32
        amount := some unspent.value.toUInt32, duplicateIndex := maxDuplicatedIndex + 1 } ::
        duplicatesOf existingCoins coin unspents (maxDuplicatedIndex + 1)

def maxDuplicatedIndex (existingCoins : List Coin) (coin : Coin) : Option UInt32 :=
  ((existingCoins.filter (fun c => c.statechainId == coin.statechainId)).map Coin.duplicateIndex).max?

/-- The loop of `check_for_duplicated`, over the coins that are still to be looked at. -/
def duplicatesFor (existingCoins : List Coin) : List Coin → Operation F (List Coin)
  | [] => return []
  | coin :: coins => do
    if coin.status = .inMempool ∨ coin.status = .unconfirmed ∨ coin.status = .confirmed then
      let aggregatedAddress ← unwrap coin.aggregatedAddress
      let script ← scriptOf kit.toSetup aggregatedAddress
      let utxoList ← scriptListUnspent script
      let maxDuplicatedIndex ← unwrap (maxDuplicatedIndex existingCoins coin)
      let duplicated ← duplicatesFor existingCoins coins
      return duplicatesOf existingCoins coin utxoList maxDuplicatedIndex ++ duplicated
    else duplicatesFor existingCoins coins

def checkForDuplicated (existingCoins : List Coin) : Operation F (List Coin) :=
  duplicatesFor kit existingCoins existingCoins

end Duplicated

section Update

/-- The last loop of `update_coins`. It writes one status and looks for another, so that its order
does not matter and no coin is compared with itself. -/
def invalidateDuplicated (coins : List Coin) : List Coin :=
  coins.map (fun coin =>
    if coin.status = .duplicated ∧ coins.any (fun other => other.statechainId == coin.statechainId &&
        other.locktime == coin.locktime && other.status == .transferred) = true then
      { coin with status := .invalidated }
    else coin)

variable [DecidableEq E] [Mul F] [NatCast F] [LT F] [DecidableLT F]

/-- The turn for a coin that waits for its deposit. -/
def updateDeposit (walletName network : String) (coin : Coin) : Operation F (Coin × List Activity) := do
  let (coin, depositResult) ← checkDeposit kit coin network
  match depositResult with
  | none => return (coin, [])
  | some depositResult =>
    let statechainId ← unwrap coin.statechainId
    insertBackupTxs walletName statechainId [depositResult.backupTx]
    return (coin, [depositResult.activity])

/-- One turn of the first loop of `update_coins`. -/
def updateCoin (walletName network : String) (coin : Coin) : Operation F (Coin × List Activity) :=
  match coin.status with
  | .initialised | .inMempool | .unconfirmed => updateDeposit kit walletName network coin
  | .inTransfer => do
    let isTransferred ← checkTransfer kit coin
    return (if isTransferred then { coin with status := .transferred } else coin, [])
  | .withdrawing => do
    let coin ← checkWithdrawal kit coin
    return (coin, [])
  | _ => return (coin, [])

def updateEach (walletName network : String) : List Coin → Operation F (List Coin × List Activity)
  | [] => return ([], [])
  | coin :: coins => do
    let (coin, activities) ← updateCoin kit walletName network coin
    let (coins, more) ← updateEach walletName network coins
    return (coin :: coins, activities ++ more)

def updateCoins (walletName : String) : Operation F Unit := do
  let wallet ← getWallet walletName
  let (coins, activities) ← updateEach kit wallet.name wallet.network wallet.coins
  let duplicatedCoins ← checkForDuplicated kit coins
  updateWallet { wallet with
    coins := invalidateDuplicated (coins ++ duplicatedCoins), activities := wallet.activities ++ activities }

end Update

end MercuryLayer.Client.CoinStatus
