import MercuryLayer.WalletData

namespace MercuryLayer.Receiver

open Crates Error Library.Validation Library.XOnlyCurve WalletData

structure TransferMsg where
  statechainId : String
  transferSignature : String
  backupTransactions : List BackupTx
  t1 : Bytes
  userPublicKey : String
deriving DecidableEq

structure StatechainInfo where
  statechainId : String
  serverPubnonce : String
  challenge : String
  txN : UInt32
deriving DecidableEq, Repr

structure StatechainInfoResponsePayload where
  enclavePublicKey : String
  numSigs : UInt32
  statechainInfo : List StatechainInfo
  x1Pub : Option String
deriving DecidableEq, Repr

structure TransferReceiverRequestPayload where
  statechainId : String
  batchData : Option String
  t2 : String
  authSig : String
deriving DecidableEq, Repr

structure NewKeyInfo where
  aggregatePubkey : String
  aggregateAddress : String
  signedStatechainId : String
  amount : UInt32
deriving DecidableEq, Repr

/-- The steps of `decrypt_transfer_msg` outside the library: the hex decoder, the `ecies`
crate, and UTF-8 with the JSON decoder of the message type. -/
structure Ecies (K : Type) where
  hexDecode : String → Option Bytes
  decrypt : K → Bytes → Option Bytes
  transferMsgFromJson : Bytes → Option TransferMsg

variable {E K F : Type} (btc : Bitcoin) (secp : Secp E K)

def decryptTransferMsg (ecies : Ecies K) (encryptedMessage privateKeyWif : String) : Res TransferMsg := do
  let clientAuthKey ← orErr .keyError (secp.privateKeyFromWif privateKeyWif)
  let decodedEncMessage ← orErr .hexError (ecies.hexDecode encryptedMessage)
  let decryptedMsg ← unwrap (ecies.decrypt clientAuthKey decodedEncMessage)
  unwrap (ecies.transferMsgFromJson decryptedMsg)

def publicKeyFromStr (text : String) : Res E :=
  orErr .secp256k1UpstreamError (secp.publicKeyFromStr text)

def getTx0Outpoint (backupTransactions : List BackupTx) : Res OutPoint := do
  let bkpTx1 ← orErr .noBackupTransactionFound (sortByTxN backupTransactions).head?
  getPreviousOutpoint btc bkpTx1

def toLeBytes (v : UInt32) : Bytes :=
  [v.toUInt8, (v >>> 8).toUInt8, (v >>> 16).toUInt8, (v >>> 24).toUInt8]

def verifyTransferSignature (newUserPubkey : String) (tx0Outpoint : OutPoint)
    (transferMsg : TransferMsg) : Res Bool := do
  let newUser ← publicKeyFromStr secp newUserPubkey
  let sender ← publicKeyFromStr secp transferMsg.userPublicKey
  let inputTxid ← orErr .bitcoinHashHexError (btc.txidFromStr tx0Outpoint.txid)
  let signature ← orErr .secp256k1UpstreamError (secp.signatureFromStr transferMsg.transferSignature)
  let dataToVerify := inputTxid ++ toLeBytes tx0Outpoint.vout ++ secp.serialize newUser
  return secp.verifySchnorr signature (secp.sha256 dataToVerify) (secp.xOnly sender)

def txOutput (tx0Hex : String) (vout : UInt32) : Res TxOut := do
  let tx0 ← question (btc.deserialize tx0Hex)
  unwrap tx0.output[vout.toNat]?

def validateTx0OutputPubkey (enclavePublicKey : String) (transferMsg : TransferMsg)
    (tx0Outpoint : OutPoint) (tx0Hex network : String) : Res Bool := do
  let _ ← getNetwork network
  let enclave ← unwrap (secp.publicKeyFromStr enclavePublicKey)
  let sender ← publicKeyFromStr secp transferMsg.userPublicKey
  let aggregate ← unwrap (secp.combine sender enclave)
  let script ← p2trScript secp (secp.xOnly aggregate)
  let transferAggregateXonlyPubkey ← xOnlyOfScript secp script
  let tx0Output ← txOutput btc tx0Hex tx0Outpoint.vout
  let tx0OutputXonlyPubkey ← xOnlyOfScript secp tx0Output.scriptPubkey
  return transferAggregateXonlyPubkey == tx0OutputXonlyPubkey

/-- The script that a payment to the backup address of a public key carries. -/
def backupScript (userPubkey : String) : Res Bytes := do
  let key ← publicKeyFromStr secp userPubkey
  p2trScript secp (secp.xOnly key)

def verifyLatestBackupTxPaysToUserPubkey (transferMsg : TransferMsg) (clientPubkeyShare network : String) :
    Res Bool := do
  let key ← publicKeyFromStr secp clientPubkeyShare
  let _ ← getNetwork network
  let lastBkpTx ← orErr .noBackupTransactionFound transferMsg.backupTransactions.getLast?
  let lastTx ← question (btc.deserialize lastBkpTx.tx)
  let output ← unwrap lastTx.output[0]?
  let script ← p2trScript secp (secp.xOnly key)
  return output.scriptPubkey == script

def getOutputAddressFromTx0 (tx0Outpoint : OutPoint) (tx0Hex network : String) : Res String := do
  let network ← getNetwork network
  let tx0Output ← txOutput btc tx0Hex tx0Outpoint.vout
  orErr .bitcoinAddressError (btc.addressFromScript tx0Output.scriptPubkey network)

def getAmountFromTx0 (tx0Hex : String) (tx0Outpoint : OutPoint) : Res UInt64 := do
  let tx0 ← question (btc.deserialize tx0Hex)
  throwIf (tx0Outpoint.txid ≠ btc.txid tx0) .panic
  let output ← unwrap tx0.output[tx0Outpoint.vout.toNat]?
  return output.value

section Checks

variable [Add F] [Sub F] [Div F] [NatCast F] [LT F] [DecidableLT F]

def verifyTransactionSignature [Build] (txNHex tx0Hex : String) (feeRateTolerance currentFeeRateSatsPerByte : F) :
    Res Unit := do
  let txN ← question (btc.deserialize txNHex)
  let input ← unwrap txN.input[0]?
  let witnessData ← unwrap input.witness[0]?
  let signatureData ← unwrap (if witnessData = [] then none else some witnessData.dropLast)
  let signature ← unwrap (secp.signatureFromSlice signatureData)
  let tx0Output ← txOutput btc tx0Hex input.previousOutput.vout
  let xonlyPubkey ← xOnlyOfScript secp tx0Output.scriptPubkey
  let msg ← unwrap (btc.sighash txN [tx0Output])
  let output ← unwrap txN.output[0]?
  overflow (tx0Output.value < output.value)
  let fee := tx0Output.value - output.value
  let feeRate : F := fee.toNat / btc.vsize txN
  throwIf (feeRate + feeRateTolerance < currentFeeRateSatsPerByte) (.mercury .feeTooLow)
  throwIf (currentFeeRateSatsPerByte < feeRate - feeRateTolerance) (.mercury .feeTooHigh)
  throwIf (secp.verifySchnorr signature msg xonlyPubkey = false) (.mercury .invalidSignature)

def verifyTransactionSequence (txNHex : String) : Res Unit := do
  let txN ← question (btc.deserialize txNHex)
  throwIf (txN.input = []) (.mercury .emptyInput)
  throwIf (txN.input.length > 1) (.mercury .tx1HasMoreThanOneInput)
  let input ← unwrap txN.input.head?
  throwIf (input.sequence ≠ 0) (.mercury .transactionSequenceDifferentThanZeroError)

def verifyIfLocktimeIsReasonableTxVersionAndOutputSize [Build] (txNHex : String)
    (currentBlockheight lockheightInit : UInt32) : Res Unit := do
  let txN ← question (btc.deserialize txNHex)
  throwIf (txN.version ≠ 2) (.mercury .transactionVersionError)
  throwIf (txN.output.length > 1) (.mercury .txHasMoreThanOneOutput)
  throwIf (isBlockHeight txN.lockTime = false) (.mercury .locktimeNotBlockHeightError)
  throwIf (txN.lockTime ≤ currentBlockheight) (.mercury .locktimeTooLow)
  overflow (2 ^ 32 ≤ currentBlockheight.toNat + lockheightInit.toNat)
  throwIf (currentBlockheight + lockheightInit < txN.lockTime) (.mercury .locktimeTooHigh)

def reconstructTransaction (txNHex : String) : Res Unit := do
  let txN ← question (btc.deserialize txNHex)
  let output ← unwrap txN.output[0]?
  let input ← unwrap txN.input[0]?
  let newTx : Transaction := { version := 2, lockTime := txN.lockTime, input := [input], output := [output] }
  throwIf (txNHex ≠ btc.serialize newTx) (.mercury .transactionReconstructionError)

def getTxHash (tx0 txN : Transaction) : Res Bytes := do
  let input ← unwrap txN.input[0]?
  let witnessData ← orErr .emptyWitness input.witness[0]?
  let tx0Output ← unwrap tx0.output[input.previousOutput.vout.toNat]?
  throwIf (witnessData = []) (.mercury .emptyWitnessData)
  orErr .bitcoinSighashError (btc.sighash txN [tx0Output])

/-- Everything `verify_blinded_musig_scheme` recomputes: the tweaked output key and the
session whose challenge is compared with the server's record. -/
def recomputeSession (backupTx : BackupTx) (tx0Hex : String) : Res (E × Session K) := do
  let clientPublicNonce ← question (secp.pubNonceFromStr backupTx.clientPublicNonce)
  let serverPublicNonce ← question (secp.pubNonceFromStr backupTx.serverPublicNonce)
  let clientPublicKey ← publicKeyFromStr secp backupTx.clientPublicKey
  let serverPublicKey ← publicKeyFromStr secp backupTx.serverPublicKey
  let blindingFactor ← question (secp.blindingFactorFromStr backupTx.blindingFactor)
  let aggregatePubkey ← orErr .secp256k1UpstreamError (secp.combine clientPublicKey serverPublicKey)
  let tweak ← orErr .secp256k1UpstreamError
    (secp.secretKeyFromSlice (secp.tapTweakHash (secp.xOnly aggregatePubkey)))
  let (_, outputPubkey, outTweak32) ← unwrap (secp.pubkeyXonlyTweakAdd aggregatePubkey tweak)
  let tx0 ← question (btc.deserialize tx0Hex)
  let txN ← question (btc.deserialize backupTx.tx)
  let msg ← getTxHash btc tx0 txN
  let session ← unwrap (secp.newBlindedSession outputPubkey [clientPublicNonce, serverPublicNonce]
    msg blindingFactor outTweak32)
  return (outputPubkey, session)

theorem recomputeSession_eq_ok {backupTx : BackupTx} {tx0Hex : String} {outputPubkey : E}
    {session : Session K} :
    recomputeSession btc secp backupTx tx0Hex = .ok (outputPubkey, session) ↔
      ∃ clientNonce serverNonce clientKey serverKey blindingFactor aggregatePubkey tweak parityAcc outTweak32
          tx0 txN msg,
        secp.pubNonceFromStr backupTx.clientPublicNonce = .ok clientNonce ∧
        secp.pubNonceFromStr backupTx.serverPublicNonce = .ok serverNonce ∧
        secp.publicKeyFromStr backupTx.clientPublicKey = some clientKey ∧
        secp.publicKeyFromStr backupTx.serverPublicKey = some serverKey ∧
        secp.blindingFactorFromStr backupTx.blindingFactor = .ok blindingFactor ∧
        secp.combine clientKey serverKey = some aggregatePubkey ∧
        secp.secretKeyFromSlice (secp.tapTweakHash (secp.xOnly aggregatePubkey)) = some tweak ∧
        secp.pubkeyXonlyTweakAdd aggregatePubkey tweak = some (parityAcc, outputPubkey, outTweak32) ∧
        btc.deserialize tx0Hex = .ok tx0 ∧ btc.deserialize backupTx.tx = .ok txN ∧
        getTxHash btc tx0 txN = .ok msg ∧
        secp.newBlindedSession outputPubkey [clientNonce, serverNonce] msg blindingFactor outTweak32 =
          some session := by
  simp [recomputeSession, publicKeyFromStr]

def verifyBlindedMusigScheme (backupTx : BackupTx) (tx0Hex : String) (statechainInfo : StatechainInfo) :
    Res Unit := do
  let (_, session) ← recomputeSession btc secp backupTx tx0Hex
  throwIf (statechainInfo.challenge ≠ secp.secretHex session.challenge) (.mercury .incorrectChallenge)

variable (statechainInfo : StatechainInfoResponsePayload) (tx0Hex : String)
  (currentBlockheight : UInt32) (feeRateTolerance currentFeeRateSatsPerByte : F)
  (lockheightInit interval : UInt32)

/-- The five checks that `validate_signature_scheme` makes on each transaction against
the server row of its number. -/
def verifyBackupTx [Build] (backupTx : BackupTx) (row : StatechainInfo) : Res Unit := do
  verifyTransactionSignature btc secp backupTx.tx tx0Hex feeRateTolerance currentFeeRateSatsPerByte
  verifyBlindedMusigScheme btc secp backupTx tx0Hex row
  verifyTransactionSequence btc backupTx.tx
  verifyIfLocktimeIsReasonableTxVersionAndOutputSize btc backupTx.tx currentBlockheight lockheightInit
  reconstructTransaction btc backupTx.tx

def isIntervalCorrect (previousLockTime : Option UInt32) (currentLockTime : UInt32) : Bool :=
  match previousLockTime with
  | some prevLockTime => (prevLockTime - currentLockTime).toInt32 == interval.toInt32
  | none => true

/-- The loop of `validate_signature_scheme`; a `none` is its `break`. -/
def signatureSchemeLoop [Build] : List BackupTx → Option UInt32 → Res (Option (Option UInt32))
  | [], previousLockTime => .ok (some previousLockTime)
  | backupTx :: rest, previousLockTime =>
    match statechainInfo.statechainInfo.find? (fun info => info.txN == backupTx.txN) with
    | none => .ok none
    | some row =>
      handled (verifyBackupTx btc secp tx0Hex currentBlockheight feeRateTolerance
        currentFeeRateSatsPerByte lockheightInit backupTx row) >>= fun
      | none => .ok none
      | some () => getBlockheight btc backupTx >>= fun currentLockTime =>
        overflow (previousLockTime.any (· < currentLockTime) = true) >>= fun _ =>
        if isIntervalCorrect interval previousLockTime currentLockTime then
          signatureSchemeLoop rest (some currentLockTime)
        else .ok none

def validateSignatureScheme [Build] (backupTransactions : List BackupTx) : Res UInt32 := do
  match ← signatureSchemeLoop btc secp statechainInfo tx0Hex currentBlockheight feeRateTolerance
    currentFeeRateSatsPerByte lockheightInit interval backupTransactions none with
  | none => throw (.mercury .signatureSchemeValidationError)
  | some previousLockTime => orErr .noPreviousLockTimeError previousLockTime

end Checks

section KeyHandover

variable [DecidableEq E]

def validateT1pub (t1 : Bytes) (x1Pub senderPublicKey : E) : Res Bool := do
  let secretT1 ← orErr .secp256k1UpstreamError (secp.secretKeyFromSlice t1)
  let resultPubkey ← orErr .secp256k1UpstreamError (secp.combine senderPublicKey x1Pub)
  return resultPubkey == secp.publicKey secretT1

def calculateT2 (transferMsg : TransferMsg) (clientSeckeyShare : K) : Res K := do
  let t1 ← orErr .outOfRangeError (secp.scalarFromBeBytes transferMsg.t1)
  orErr .secp256k1UpstreamError (secp.addTweak (secp.negate clientSeckeyShare) t1)

def signMessage (message : String) (coin : Coin) : Res String := do
  let clientAuthKey ← orErr .keyError (secp.privateKeyFromWif coin.authPrivkey)
  return secp.signatureToStr (secp.signSchnorr (secp.sha256 message.toUTF8.toList) clientAuthKey)

def createTransferReceiverRequestPayload (statechainInfo : StatechainInfoResponsePayload)
    (transferMsg : TransferMsg) (coin : Coin) : Res TransferReceiverRequestPayload := do
  let x1Pub ← orErr .noX1Pub statechainInfo.x1Pub
  let x1Pub ← publicKeyFromStr secp x1Pub
  let senderPublicKey ← publicKeyFromStr secp transferMsg.userPublicKey
  let clientSeckeyShare ← orErr .keyError (secp.privateKeyFromWif coin.userPrivkey)
  let clientAuthKey ← orErr .keyError (secp.privateKeyFromWif coin.authPrivkey)
  let isT1Valid ← validateT1pub secp transferMsg.t1 x1Pub senderPublicKey
  throwIf (isT1Valid = false) (.mercury .invalidT1)
  let t2 ← calculateT2 secp transferMsg clientSeckeyShare
  let t2Hex := secp.secretHex t2
  let authSig := secp.signSchnorr (secp.sha256 t2Hex.toUTF8.toList) clientAuthKey
  return { statechainId := transferMsg.statechainId
           batchData := none
           t2 := t2Hex
           authSig := secp.signatureToStr authSig }

def getNewKeyInfo (serverPublicKeyHex : String) (coin : Coin) (statechainId : String) (tx0Outpoint : OutPoint)
    (tx0Hex network : String) : Res NewKeyInfo := do
  let network ← getNetwork network
  let clientAuthKey ← orErr .keyError (secp.privateKeyFromWif coin.authPrivkey)
  let clientPubkeyShare ← publicKeyFromStr secp coin.userPubkey
  let serverPubkeyShare ← publicKeyFromStr secp serverPublicKeyHex
  let aggregatePubkey ← orErr .secp256k1UpstreamError (secp.combine clientPubkeyShare serverPubkeyShare)
  let script ← p2trScript secp (secp.xOnly aggregatePubkey)
  let xonlyPubkey ← xOnlyOfScript secp script
  let tx0Output ← txOutput btc tx0Hex tx0Outpoint.vout
  let tx0OutputXonlyPubkey ← xOnlyOfScript secp tx0Output.scriptPubkey
  throwIf (tx0OutputXonlyPubkey ≠ xonlyPubkey) (.mercury .incorrectAggregatedPublicKey)
  let signedStatechainId := secp.signSchnorr (secp.sha256 statechainId.toUTF8.toList) clientAuthKey
  return { aggregatePubkey := secp.publicKeyToStr aggregatePubkey
           aggregateAddress := btc.addressToStr script network
           signedStatechainId := secp.signatureToStr signedStatechainId
           amount := tx0Output.value.toUInt32 }

def duplicateCoinToInitializedState (wallet : Wallet) (authPubkey : String) : Res Coin := do
  let coin ← orErr .coinNotFound (wallet.coins.find? (fun coin => coin.authPubkey == authPubkey))
  return { index := coin.index
           userPrivkey := coin.userPrivkey
           userPubkey := coin.userPubkey
           authPrivkey := coin.authPrivkey
           authPubkey := coin.authPubkey
           derivationPath := coin.derivationPath
           fingerprint := coin.fingerprint
           address := coin.address
           backupAddress := coin.backupAddress
           status := .initialised
           duplicateIndex := coin.duplicateIndex }

theorem validateT1pub_eq_true {t1 : Bytes} {x1Pub senderPublicKey : E} :
    validateT1pub secp t1 x1Pub senderPublicKey = .ok true ↔
      ∃ secretT1, secp.secretKeyFromSlice t1 = some secretT1 ∧
        secp.combine senderPublicKey x1Pub = some (secp.publicKey secretT1) := by
  simp only [validateT1pub, bind_eq_ok, orErr_eq_ok, pure_eq_ok, beq_iff_eq]
  constructor
  · rintro ⟨secretT1, h1, result, h2, rfl⟩
    exact ⟨secretT1, h1, h2⟩
  · rintro ⟨secretT1, h1, h2⟩
    exact ⟨secretT1, h1, _, h2, rfl⟩

omit [DecidableEq E] in
theorem calculateT2_eq_ok {transferMsg : TransferMsg} {clientSeckeyShare t2 : K} :
    calculateT2 secp transferMsg clientSeckeyShare = .ok t2 ↔
      ∃ t1, secp.scalarFromBeBytes transferMsg.t1 = some t1 ∧
        secp.addTweak (secp.negate clientSeckeyShare) t1 = some t2 := by
  simp [calculateT2]

omit [DecidableEq E] in
theorem validateTx0OutputPubkey_eq_true {enclavePublicKey : String} {transferMsg : TransferMsg}
    {tx0Outpoint : OutPoint} {tx0Hex network : String} :
    validateTx0OutputPubkey btc secp enclavePublicKey transferMsg tx0Outpoint tx0Hex network = .ok true ↔
      ∃ net enclave sender aggregate script key tx0Output, getNetwork network = .ok net ∧
        secp.publicKeyFromStr enclavePublicKey = some enclave ∧
        secp.publicKeyFromStr transferMsg.userPublicKey = some sender ∧
        secp.combine sender enclave = some aggregate ∧ p2trScript secp (secp.xOnly aggregate) = .ok script ∧
        xOnlyOfScript secp script = .ok key ∧ txOutput btc tx0Hex tx0Outpoint.vout = .ok tx0Output ∧
        xOnlyOfScript secp tx0Output.scriptPubkey = .ok key := by
  simp only [validateTx0OutputPubkey, publicKeyFromStr, bind_eq_ok, orErr_eq_ok, unwrap_eq_ok, pure_eq_ok,
    beq_iff_eq]
  constructor
  · rintro ⟨net, hn, enclave, he, sender, hs, aggregate, ha, script, hsc, key, hk, out, ho, _, hx, rfl⟩
    exact ⟨net, enclave, sender, aggregate, script, key, out, hn, he, hs, ha, hsc, hk, ho, hx⟩
  · rintro ⟨net, enclave, sender, aggregate, script, key, out, hn, he, hs, ha, hsc, hk, ho, hx⟩
    exact ⟨net, hn, enclave, he, sender, hs, aggregate, ha, script, hsc, key, hk, out, ho, key, hx, rfl⟩

end KeyHandover

end MercuryLayer.Receiver
