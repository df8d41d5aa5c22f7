import MercuryLayer.Sender

namespace MercuryLayer.Transaction

open Crates Error Library.Validation Library.XOnlyCurve Receiver Sender WalletData

structure PartialSignatureRequestPayload where
  statechainId : String
  negateSeckey : UInt8
  session : String
  signedStatechainId : String
  serverPubNonce : String
deriving DecidableEq, Repr

structure PartialSignatureMsg1 where
  msg : String
  outputPubkey : String
  clientPartialSig : String
  encodedSession : String
  encodedUnsignedTx : String
  partialSignatureRequestPayload : PartialSignatureRequestPayload
deriving DecidableEq, Repr

variable {E K : Type} (secp : Secp E K) (musig : Musig E K)

/-- The client's half of a signature. The failing `assert!` on its own partial signature is
a panic. -/
def calculateMusigSession (coin : Coin) (hash : Bytes) (encodedUnsignedTx : String) :
    Res PartialSignatureMsg1 := do
  let aggregatedPubkey ← unwrap coin.aggregatedPubkey
  let aggregatePubkey ← publicKeyFromStr secp aggregatedPubkey
  let tweak ← orErr .secp256k1UpstreamError
    (secp.secretKeyFromSlice (secp.tapTweakHash (secp.xOnly aggregatePubkey)))
  let (parityAcc, outputPubkey, outTweak32) ← unwrap (secp.pubkeyXonlyTweakAdd aggregatePubkey tweak)
  let publicNonce ← unwrap coin.publicNonce
  let clientPubNonce ← question (secp.pubNonceFromStr publicNonce)
  let serverPubnonceHex ← unwrap coin.serverPublicNonce
  let serverPubNonce ← question (secp.pubNonceFromStr serverPubnonceHex)
  let blindingFactorHex ← unwrap coin.blindingFactor
  let blindingFactor ← question (secp.blindingFactorFromStr blindingFactorHex)
  let session ← unwrap (secp.newBlindedSession outputPubkey [clientPubNonce, serverPubNonce] hash
    blindingFactor outTweak32)
  let negateSeckey := musig.negateSeckey outputPubkey parityAcc
  let clientSeckey ← orErr .keyError (secp.privateKeyFromWif coin.userPrivkey)
  let clientPubkey ← publicKeyFromStr secp coin.userPubkey
  let secretNonce ← unwrap coin.secretNonce
  let clientSecNonce ← musig.secNonceFromStr secretNonce
  let clientPartialSig ← orErr .musigSignError
    (musig.partialSign clientSecNonce clientSeckey session negateSeckey)
  throwIf (musig.partialSigVerify clientPartialSig clientPubNonce clientPubkey outputPubkey session parityAcc =
    false) .panic
  let blindedSession := musig.removeFinNonceFromSession session
  let statechainId ← unwrap coin.statechainId
  let signedStatechainId ← unwrap coin.signedStatechainId
  return { msg := musig.messageToHex hash
           outputPubkey := secp.publicKeyToStr outputPubkey
           clientPartialSig := musig.partialSigToStr clientPartialSig
           encodedSession := musig.sessionToStr session
           encodedUnsignedTx := encodedUnsignedTx
           partialSignatureRequestPayload :=
             { statechainId := statechainId
               negateSeckey := if negateSeckey then 1 else 0
               session := musig.sessionToStr blindedSession
               signedStatechainId := signedStatechainId
               serverPubNonce := serverPubnonceHex } }

def createSignature (msg clientPartialSigHex serverPartialSigHex sessionHex outputPubkeyHex : String) :
    Res String := do
  let msg ← question (musig.messageFromHex msg)
  let serverPartialSig ← question (musig.partialSigFromStr serverPartialSigHex)
  let clientPartialSig ← question (musig.partialSigFromStr clientPartialSigHex)
  let session ← musig.sessionFromStr sessionHex
  let sig := musig.partialSigAgg session [clientPartialSig, serverPartialSig]
  let outputPubkey ← publicKeyFromStr secp outputPubkeyHex
  throwIf (secp.verifySchnorr sig msg (secp.xOnly outputPubkey) = false)
    (.mercury .schnorrSignatureValidationError)
  return secp.signatureToStr sig

section Build

variable {F : Type} [Mul F] [NatCast F] (btc : Bitcoin) (envelope : Envelope E)
  (isAddress : String → Bool) (ceilU64 : F → UInt64)

/-- The random lock time of a withdrawal, from its two draws. -/
def getLocktimeForWithdrawalTransaction (number offset : ℕ) (blockHeight : UInt32) : UInt32 :=
  let locktime := blockHeight.toInt32
  let locktime := if number = 0 then locktime - Int32.ofNat offset else locktime
  (max 0 locktime).toUInt32

/-- The lock time of the first transaction is that far ahead; every later one is an interval
earlier than the one before. A withdrawal brings its own draws. -/
def calculateBlockHeight (blockHeight initlock interval qtBackupTx : UInt32) (withdrawal : Option (ℕ × ℕ)) :
    UInt32 :=
  let initlock := if qtBackupTx = 0 then initlock else 0
  match withdrawal with
  | some (number, offset) => getLocktimeForWithdrawalTransaction number offset blockHeight
  | none => blockHeight + initlock - interval * qtBackupTx

def isTransferAddress (address : String) : Bool :=
  ['m', 'l'].isPrefixOf address.toList || ['t', 'm', 'l'].isPrefixOf address.toList

/-- A transfer address is paid at the backup address of its user key. -/
def createTxOut (coin : Coin) (feeRateSatsPerByte : F) (toAddress : String) (network : Network) : Res TxOut := do
  let amount ← unwrap coin.amount
  let absoluteFee := ceilU64 ((112 : ℕ) * feeRateSatsPerByte)
  let amountOut := amount.toUInt64 - absoluteFee
  let script ← if isTransferAddress toAddress then do
      let (_, recipientUserPubkey, _) ← envelope.decodeTransferAddress toAddress
      p2trScript secp (secp.xOnly recipientUserPubkey)
    else do
      throwIf (isAddress toAddress = false) .panic
      orErr .bitcoinAddressError (btc.scriptOfAddress toAddress network)
  return { value := amountOut, scriptPubkey := script }

def unsignedTx (outpoint : OutPoint) (lockTime : UInt32) (output : TxOut) : Crates.Transaction :=
  { version := 2
    lockTime := lockTime
    input := [{ previousOutput := outpoint, scriptSig := [], sequence := 0, witness := [] }]
    output := [output] }

def getMusigSession (coin : Coin) (blockHeight : UInt32) (output : TxOut) (network : Network) :
    Res PartialSignatureMsg1 := do
  let aggregatedPubkey ← unwrap coin.aggregatedPubkey
  let _ ← publicKeyFromStr secp aggregatedPubkey
  throwIf (isBlockHeight blockHeight = false) (.mercury .bitcoinAbsoluteError)
  let utxoTxid ← unwrap coin.utxoTxid
  let _ ← orErr .bitcoinHashHexError (btc.txidFromStr utxoTxid)
  let utxoVout ← unwrap coin.utxoVout
  let tx1 := unsignedTx ⟨utxoTxid, utxoVout⟩ blockHeight output
  let amount ← unwrap coin.amount
  let aggregatedAddress ← unwrap coin.aggregatedAddress
  let inputScriptpubkey ← orErr .bitcoinAddressError (btc.scriptOfAddress aggregatedAddress network)
  let hash ← orErr .bitcoinSighashError
    (btc.sighash tx1 [{ value := amount.toUInt64, scriptPubkey := inputScriptpubkey }])
  calculateMusigSession secp musig coin hash (btc.serialize tx1)

def getPartialSigRequest (coin : Coin) (blockHeight initlock interval : UInt32) (feeRateSatsPerByte : F)
    (qtBackupTx : UInt32) (toAddress network : String) (withdrawal : Option (ℕ × ℕ)) :
    Res PartialSignatureMsg1 := do
  let network ← getNetwork network
  let txOut ← createTxOut secp btc envelope isAddress ceilU64 coin feeRateSatsPerByte toAddress network
  let blockHeight := calculateBlockHeight blockHeight initlock interval qtBackupTx withdrawal
  getMusigSession secp musig btc coin blockHeight txOut network

/-- The byte of the hash type `SIGHASH_ALL`, which the crate writes after a signature. -/
def sighashAll : UInt8 := 1

def signTx (tx : Crates.Transaction) (signature : Bytes) : Crates.Transaction :=
  { tx with input := tx.input.map (fun input => { input with witness := [signature ++ [sighashAll]] }) }

/-- A PSBT is made of a transaction without any signature. -/
def newBackupTransaction (encodedUnsignedTx signatureHex : String) : Res String := do
  let tx ← question (btc.deserialize encodedUnsignedTx)
  throwIf (tx.input.any (fun input => input.scriptSig ≠ [] || input.witness ≠ []) = true)
    (.mercury .bitcoinPsbtError)
  throwIf (tx.input.length ≠ 1) (.mercury .moreThanOneInputError)
  let _ ← orErr .secp256k1UpstreamError (secp.signatureFromStr signatureHex)
  let signature ← unwrap (Hex.decode signatureHex)
  return btc.serialize (signTx tx signature)

end Build

end MercuryLayer.Transaction
