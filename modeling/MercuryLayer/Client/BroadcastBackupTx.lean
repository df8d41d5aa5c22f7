import MercuryLayer.Client.Operations

namespace MercuryLayer.Client.BroadcastBackupTx

open Client.Operations Client.TransferReceiver
open Client.Transaction hiding Call Reply
open Client.TransferSender (validateAddress getBackupTxs)
open CpfpTx Error Library.Programs Library.Validation WalletData

variable {E K F : Type} (kit : Kit E K F)

/-- The coin of the statechain with the lowest lock time, with its place in the wallet. -/
def coinToBroadcast (wallet : Wallet) (statechainId : String) : Option (Coin × ℕ) :=
  minByLocktime (wallet.coins.zipIdx.filter (fun coin => coin.1.statechainId == some statechainId))

/-- The given rate, or the estimated one up to the client's limit. -/
def feeRateOr [LT F] [DecidableLT F] : Option F → Operation F F
  | some feeRate => pure feeRate
  | none => do
    let estimate : Except String F ← ask (Call.estimateFee : Call F)
    let feeRateSatsPerByte ← anyhow estimate
    return if kit.clientConfig.maxFeeRate < feeRateSatsPerByte then kit.clientConfig.maxFeeRate else feeRateSatsPerByte

/-- The wallet with the coin marked. -/
def withdrawing (wallet : Wallet) (place : ℕ) (coin : Coin) (txid : String) (toAddress : Option String) : Wallet :=
  { wallet with
    coins := wallet.coins.set place
      { coin with
        txCpfp := some txid, withdrawalAddress := some (toAddress.getD coin.backupAddress), status := .withdrawing } }

section Execute

variable [Mul F] [NatCast F] [LT F] [DecidableLT F]

/-- The backup transaction is broadcast, and after it the child that pays for it. -/
def broadcast (wallet : Wallet) (coin : Coin) (backupTxs : List BackupTx) (toAddress : Option String)
    (feeRate : Option F) : Operation F String := do
  let backupTx ← latestBackupTxPaysToUserPubkey kit.btc backupTxs coin wallet.network
  match toAddress with
  | none => transactionBroadcastRaw backupTx.tx
  | some toAddress =>
    let feeRate ← feeRateOr kit feeRate
    let cpfpTx ← createCpfpTx kit.btc kit.ceilU64 kit.createTransaction backupTx coin toAddress feeRate wallet.network
    let _ ← transactionBroadcastRaw backupTx.tx
    transactionBroadcastRaw cpfpTx

def checkAddress (wallet : Wallet) : Option String → Res Unit
  | none => .ok ()
  | some toAddress => do
    let isAddressValid ← validateAddress kit.toSetup toAddress wallet.network
    failIf (isAddressValid = false) "Invalid address"

def execute (walletName statechainId : String) (toAddress : Option String) (feeRate : Option F) :
    Operation F Unit := do
  let wallet ← getWallet walletName
  checkAddress kit wallet toAddress
  let backupTxs ← send (getBackupTxs wallet.name statechainId)
  let (coin, place) ← orFail "No coins associated with this statechain ID were found"
    (coinToBroadcast wallet statechainId)
  failIf (coin.status ≠ .confirmed ∧ coin.status ≠ .inTransfer)
    ("Coin status must be CONFIRMED or IN_TRANSFER to transfer it. The current status is " ++ coin.status.toText)
  let txid ← broadcast kit wallet coin backupTxs toAddress feeRate
  let signedStatechainId ← unwrap coin.signedStatechainId
  updateWallet (withdrawing wallet place coin txid toAddress)
  completeWithdraw statechainId signedStatechainId

end Execute

end MercuryLayer.Client.BroadcastBackupTx
