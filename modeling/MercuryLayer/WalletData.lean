import MercuryLayer.Crates
import Mathlib.Data.List.Sort

namespace MercuryLayer.WalletData

open Crates Error Library.Validation

structure BackupTx where
  txN : UInt32
  tx : String
  clientPublicNonce : String
  serverPublicNonce : String
  clientPublicKey : String
  serverPublicKey : String
  blindingFactor : String
deriving DecidableEq, Repr

inductive CoinStatus
  | initialised
  | inMempool
  | unconfirmed
  | confirmed
  | inTransfer
  | withdrawing
  | transferred
  | withdrawn
  | duplicated
  | invalidated
deriving DecidableEq, Repr

def CoinStatus.toText : CoinStatus → String
  | .initialised => "INITIALISED"
  | .inMempool => "IN_MEMPOOL"
  | .unconfirmed => "UNCONFIRMED"
  | .confirmed => "CONFIRMED"
  | .inTransfer => "IN_TRANSFER"
  | .withdrawing => "WITHDRAWING"
  | .transferred => "TRANSFERRED"
  | .withdrawn => "WITHDRAWN"
  | .duplicated => "DUPLICATED"
  | .invalidated => "INVALIDATED"

structure Coin where
  index : UInt32
  userPrivkey : String
  userPubkey : String
  authPrivkey : String
  authPubkey : String
  derivationPath : String
  fingerprint : String
  address : String
  backupAddress : String
  serverPubkey : Option String := none
  aggregatedPubkey : Option String := none
  aggregatedAddress : Option String := none
  utxoTxid : Option String := none
  utxoVout : Option UInt32 := none
  amount : Option UInt32 := none
  statechainId : Option String := none
  signedStatechainId : Option String := none
  locktime : Option UInt32 := none
  secretNonce : Option String := none
  publicNonce : Option String := none
  blindingFactor : Option String := none
  serverPublicNonce : Option String := none
  txCpfp : Option String := none
  txWithdraw : Option String := none
  withdrawalAddress : Option String := none
  status : CoinStatus
  duplicateIndex : UInt32
deriving DecidableEq, Repr

structure Activity where
  utxo : String
  amount : UInt32
  action : String
  date : String
deriving DecidableEq, Repr

structure Wallet where
  name : String
  network : String
  activities : List Activity
  coins : List Coin
deriving DecidableEq, Repr

def getNetwork : String → Res Network
  | "signet" => .ok .signet
  | "testnet" => .ok .testnet
  | "regtest" => .ok .regtest
  | "bitcoin" => .ok .bitcoin
  | _ => .error (.mercury .networkConversionError)

def getPreviousOutpoint (btc : Bitcoin) (backupTx : BackupTx) : Res OutPoint := do
  let tx1 ← question (btc.deserialize backupTx.tx)
  throwIf (tx1.input.length > 1) (.mercury .tx1HasMoreThanOneInput)
  throwIf (tx1.output.length > 1) (.mercury .tx1HasMoreThanOneInput)
  let input ← unwrap tx1.input[0]?
  return input.previousOutput

def getBlockheight (btc : Bitcoin) (backupTx : BackupTx) : Res UInt32 := do
  let tx1 ← question (btc.deserialize backupTx.tx)
  throwIf (isBlockHeight tx1.lockTime = false) (.mercury .locktimeNotBlockHeightError)
  return tx1.lockTime

/-- `sort_by_key(|tx| tx.tx_n)`, a stable sort. -/
def sortByTxN (txs : List BackupTx) : List BackupTx := txs.insertionSort (fun a b => a.txN ≤ b.txN)

theorem getNetwork_ne_panic {network : String} : getNetwork network ≠ .error .panic := by
  unfold getNetwork
  split <;> nofun

theorem getBlockheight_ne_panic {btc : Bitcoin} {backupTx : BackupTx} :
    getBlockheight btc backupTx ≠ .error .panic := by
  simp only [getBlockheight, ne_eq, bind_eq_error, question_ne_panic, throwIf_eq_error, pure_ne_panic, reduceCtorEq,
    and_false, exists_false, or_false, not_false_iff]

theorem sortByTxN_perm (txs : List BackupTx) : (sortByTxN txs).Perm txs := List.perm_insertionSort _ txs

end MercuryLayer.WalletData
