import MercuryLayer.Receiver

namespace MercuryLayer.CpfpTx

open Crates Error Library.Validation Library.XOnlyCurve Receiver WalletData

variable (btc : Bitcoin)

/-- Whether the transaction has one output, which pays the script. One that cannot be read does
not. -/
def paysOnly (script : Bytes) (backupTx : BackupTx) : Bool :=
  match btc.deserialize backupTx.tx with
  | .ok tx => match tx.output with
    | [output] => output.scriptPubkey == script
    | _ => false
  | .error _ => false

/-- `max_by_key(|bkp_tx| bkp_tx.tx_n)`, the last one of several. -/
def maxByTxN : List BackupTx → Option BackupTx
  | [] => none
  | backupTx :: backupTxs => match maxByTxN backupTxs with
    | none => some backupTx
    | some best => if best.txN < backupTx.txN then some backupTx else some best

def latestBackupTxPaysToUserPubkey (backupTxs : List BackupTx) (coin : Coin) (network : String) : Res BackupTx := do
  let network ← getNetwork network
  let script ← orErr .bitcoinAddressError (btc.scriptOfAddress coin.backupAddress network)
  orErr .noBackupTransactionFound (maxByTxN (backupTxs.filter (paysOnly btc script)))

section Sign

/-- The parts of a `psbt` that `create_transaction` fills in, and the signature with the tweaked
key. -/
structure Psbt (K : Type) where
  isFingerprint : String → Bool
  isDerivationPath : String → Bool
  signTapTweaked : Bytes → K → Bytes

variable {E K : Type} (secp : Secp E K) (psbt : Psbt K)

def childTx (inputTxHash : String) (witness : List Bytes) (outputs : List TxOut) : Transaction :=
  { version := 2
    lockTime := 0
    input := [{ previousOutput := ⟨inputTxHash, 0⟩, scriptSig := [], sequence := 0xFFFFFFFF, witness := witness }]
    output := outputs }

def createTransaction (inputTxHash : String) (coin : Coin) (inputAmount : UInt64) (outputs : List TxOut)
    (network : Network) : Res Transaction := do
  let _ ← publicKeyFromStr secp coin.userPubkey
  throwIf (psbt.isFingerprint coin.fingerprint = false) .panic
  throwIf (psbt.isDerivationPath coin.derivationPath = false) .panic
  let inputScriptPubkey ← orErr .bitcoinAddressError (btc.scriptOfAddress coin.backupAddress network)
  let hash ← orErr .bitcoinSighashError
    (btc.sighash (childTx inputTxHash [] outputs) [{ value := inputAmount, scriptPubkey := inputScriptPubkey }])
  let secretKey ← orErr .keyError (secp.privateKeyFromWif coin.userPrivkey)
  return childTx inputTxHash [psbt.signTapTweaked hash secretKey] outputs

end Sign

section Create

variable {F : Type} [Mul F] [NatCast F] (ceilU64 : F → UInt64)
  (createTransaction : (inputTxHash : String) → Coin → (inputAmount : UInt64) → List TxOut → Network → Res Transaction)

/-- `create_transaction`, which builds and signs the child, comes as a parameter. -/
def createCpfpTx (backupTx : BackupTx) (coin : Coin) (toAddress : String) (feeRateSatsPerByte : F)
    (network : String) : Res String := do
  let network ← getNetwork network
  let tx ← question (btc.deserialize backupTx.tx)
  throwIf (tx.output.length ≠ 1) (.mercury .unkownNetwork)
  let output ← unwrap tx.output[0]?
  let backupScript ← orErr .bitcoinAddressError (btc.scriptOfAddress coin.backupAddress network)
  throwIf (backupScript ≠ output.scriptPubkey) (.mercury .backupTransactionDoesNotPayUser)
  let inputTxHash := btc.txid tx
  let toScript ← orErr .bitcoinAddressError (btc.scriptOfAddress toAddress network)
  let inputAmount := output.value
  let tx ← createTransaction inputTxHash coin inputAmount [{ value := inputAmount, scriptPubkey := toScript }] network
  let absoluteFee := ceilU64 ((btc.vsize tx : F) * feeRateSatsPerByte)
  let amountOut := inputAmount.toInt64 - absoluteFee.toInt64
  throwIf (amountOut < 0) (.mercury .feeTooHigh)
  let tx ← createTransaction inputTxHash coin inputAmount [{ value := amountOut.toUInt64, scriptPubkey := toScript }]
    network
  return btc.serialize tx

end Create

end MercuryLayer.CpfpTx
