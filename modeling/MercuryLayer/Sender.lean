import MercuryLayer.Receiver

namespace MercuryLayer.Sender

open Crates Error Library.Validation Library.XOnlyCurve Receiver WalletData

structure TransferUpdateMsgRequestPayload where
  statechainId : String
  authSig : String
  newUserAuthKey : String
  encTransferMsg : String
deriving DecidableEq, Repr

/-- The steps of the sender outside the library: the bech32 address decoder, the hex
decoder with its length check, JSON, and the `ecies` crate with the hex encoder. -/
structure Envelope (E : Type) where
  decodeTransferAddress : String → Res (UInt8 × E × E)
  bytes32FromHex : String → Res Bytes
  transferMsgToJson : TransferMsg → Bytes
  encrypt : E → Bytes → Option String

variable {E K : Type} (secp : Secp E K) (envelope : Envelope E)

/-- The message that the sender encrypts: `t1 = o1 + x1` with the sender's own key. -/
def createTransferMsg (x1 : String) (coin : Coin) (transferSignature : String)
    (backupTransactions : List BackupTx) : Res TransferMsg := do
  let clientSeckey ← orErr .keyError (secp.privateKeyFromWif coin.userPrivkey)
  let x1 ← envelope.bytes32FromHex x1
  let x1 ← orErr .outOfRangeError (secp.scalarFromBeBytes x1)
  let t1 ← orErr .secp256k1UpstreamError (secp.addTweak clientSeckey x1)
  let statechainId ← unwrap coin.statechainId
  return { statechainId := statechainId
           transferSignature := transferSignature
           backupTransactions := backupTransactions
           t1 := secp.secretBytes t1
           userPublicKey := coin.userPubkey }

def createTransferUpdateMsg (x1 recipientAddress : String) (coin : Coin) (transferSignature : String)
    (backupTransactions : List BackupTx) : Res TransferUpdateMsgRequestPayload := do
  let (_, _, recipientAuthPubkey) ← envelope.decodeTransferAddress recipientAddress
  let transferMsg ← createTransferMsg secp envelope x1 coin transferSignature backupTransactions
  let signedStatechainId ← unwrap coin.signedStatechainId
  let encryptedMsg ← orErr .secpError (envelope.encrypt recipientAuthPubkey (envelope.transferMsgToJson transferMsg))
  return { statechainId := transferMsg.statechainId
           authSig := signedStatechainId
           newUserAuthKey := secp.publicKeyToStr recipientAuthPubkey
           encTransferMsg := encryptedMsg }

end MercuryLayer.Sender
