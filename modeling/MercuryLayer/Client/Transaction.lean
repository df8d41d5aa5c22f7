import MercuryLayer.Client.TransferReceiver
import MercuryLayer.Server.Sign

namespace MercuryLayer.Client.Transaction

open Client.TransferReceiver Crates Error Library.Programs Library.Validation Library.XOnlyCurve Receiver Sender
open Server.Sign Server.Transfer MercuryLayer.Transaction WalletData

/-- The random values for one signature. -/
structure NonceDraw where
  sessionId : Bytes
  blindingFactor : String
deriving DecidableEq, Repr

/-- What a sending client asks of its sqlite file, of the electrum server, of the statechain
entity, of its random source and of the clock. -/
inductive Call (F : Type)
  | getWallet (walletName : String)
  | updateWallet (wallet : Wallet)
  | getBackupTxs (walletName statechainId : String)
  | updateBackupTxs (walletName statechainId : String) (backupTxs : List BackupTx)
  | blockHeadersSubscribeRaw
  | scriptListUnspent (script : Bytes)
  | infoConfig
  | drawNonce
  | signFirst (payload : SignFirstRequestPayload)
  | signSecond (payload : PartialSignatureRequestPayload)
  | transferSender (payload : TransferSenderRequestPayload)
  | transferUpdateMsg (payload : TransferUpdateMsgRequestPayload)
  | utcNow

/-- The statechain entity answers a request, or answers it with a page that is no JSON object
when the endpoint panics. -/
abbrev Response : Type := Except String (Option Answer)

def Reply {F : Type} : Call F → Type
  | .getWallet _ => Except String Wallet
  | .updateWallet _ => Except String Unit
  | .getBackupTxs _ _ => Except String (List BackupTx)
  | .updateBackupTxs _ _ _ => Except String Unit
  | .blockHeadersSubscribeRaw => Except String UInt64
  | .scriptListUnspent _ => Except String (List Unspent)
  | .infoConfig => Except String (InfoConfig F)
  | .drawNonce => NonceDraw
  | .signFirst _ => Response
  | .signSecond _ => Response
  | .transferSender _ => Response
  | .transferUpdateMsg _ => Response
  | .utcNow => String

/-- A program of the client. Its panics are errors that no caller handles. -/
abbrev Action (F α : Type) : Type := ExceptT Failure (Prog (Call F) Reply) α

/-- The crates of the client and its configuration. -/
structure Setup (E K F : Type) where
  btc : Bitcoin
  secp : Secp E K
  musig : Musig E K
  envelope : Envelope E
  isAddress : String → Bool
  ceilU64 : F → UInt64
  newMusigNoncePair : Bytes → K → E → Except MercuryError (String × String)
  network : Network
  clientConfig : ClientConfig F

structure CoinNonce where
  secretNonce : String
  publicNonce : String
  blindingFactor : String
  signFirstRequestPayload : SignFirstRequestPayload
deriving DecidableEq, Repr

variable {E K F : Type} (setup : Setup E K F)

def orFail {α : Type} (text : String) : Option α → Res α := orThrow (.anyhow text)

def failIf (p : Prop) [Decidable p] (text : String) : Res Unit := throwIf p (.anyhow text)

theorem orFail_ne_panic {α : Type} {text : String} {o : Option α} : orFail text o ≠ .error .panic := by
  cases o <;> exact nofun

theorem failIf_ne_panic {p : Prop} [Decidable p] {text : String} : failIf p text ≠ .error .panic := by
  unfold failIf throwIf
  split_ifs <;> exact nofun

def blockHeadersSubscribeRaw : Action F UInt64 := do
  let height : Except String UInt64 ← ask (Call.blockHeadersSubscribeRaw : Call F)
  anyhow height

def currentBlockheight : Action F UInt32 := do
  let height ← blockHeadersSubscribeRaw
  return height.toUInt32

/-- The height to calculate with: the given one, or that of the chain. -/
def blockHeightOr : Option UInt32 → Action F UInt32
  | some blockHeight => pure blockHeight
  | none => currentBlockheight

def infoConfig : Action F (InfoConfig F) := do
  let info : Except String (InfoConfig F) ← ask (Call.infoConfig : Call F)
  anyhow info

/-- What `create_and_commit_nonces` makes of its random values. -/
def commitNonces (coin : Coin) (draw : NonceDraw) : Res CoinNonce := do
  let clientSeckey ← orErr .keyError (setup.secp.privateKeyFromWif coin.userPrivkey)
  let clientPubkey ← publicKeyFromStr setup.secp coin.userPubkey
  let (secretNonce, publicNonce) ← question (setup.newMusigNoncePair draw.sessionId clientSeckey clientPubkey)
  let statechainId ← unwrap coin.statechainId
  let signedStatechainId ← unwrap coin.signedStatechainId
  return { secretNonce := secretNonce
           publicNonce := publicNonce
           blindingFactor := draw.blindingFactor
           signFirstRequestPayload := ⟨statechainId, signedStatechainId⟩ }

def createAndCommitNonces (coin : Coin) : Action F CoinNonce := do
  let draw : NonceDraw ← ask (Call.drawNonce : Call F)
  commitNonces setup coin draw

/-- An answer other than `200` is read for its message. -/
def refuse (answer : Answer) : Res Unit :=
  if answer.status = 200 then .ok ()
  else match answerField "message" answer with
    | some text => .error (.anyhow text)
    | none => .error .panic

def signFirst (payload : SignFirstRequestPayload) : Action F String := do
  let response : Response ← ask (Call.signFirst payload : Call F)
  let answer ← orFail "expected value" (← anyhow response)
  refuse answer
  let serverPubnonceHex ← orFail "missing field `server_pubnonce`" (answerField "server_pubnonce" answer)
  return strip0x serverPubnonceHex

def signSecond (payload : PartialSignatureRequestPayload) : Action F K := do
  let response : Response ← ask (Call.signSecond payload : Call F)
  let answer ← orFail "expected value" (← anyhow response)
  let serverPartialSigHex ← orFail "missing field `partial_sig`" (answerField "partial_sig" answer)
  question (setup.musig.partialSigFromStr (strip0x serverPartialSigHex))

/-- The coin with the client's part of a signature that it starts. -/
def withNonces (coin : Coin) (coinNonce : CoinNonce) (serverPublicNonce : String) : Coin :=
  { coin with
    secretNonce := some coinNonce.secretNonce
    publicNonce := some coinNonce.publicNonce
    blindingFactor := some coinNonce.blindingFactor
    serverPublicNonce := some serverPublicNonce }

def feeRateSatsPerByte [LT F] [DecidableLT F] (serverInfo : InfoConfig F) : F :=
  if setup.clientConfig.maxFeeRate < serverInfo.feeRateSatsPerByte then setup.clientConfig.maxFeeRate
  else serverInfo.feeRateSatsPerByte

section Build

variable [Mul F] [NatCast F]

def newTransaction (coin : Coin) (toAddress : String) (qtBackupTx : UInt32) (withdrawal : Option (ℕ × ℕ))
    (blockHeight : Option UInt32) (network : String) (feeRateSatsPerByte : F) (initlock interval : UInt32) :
    Action F (Coin × String) := do
  let coinNonce ← createAndCommitNonces setup coin
  let serverPublicNonce ← signFirst coinNonce.signFirstRequestPayload
  let coin := withNonces coin coinNonce serverPublicNonce
  let blockHeight ← blockHeightOr blockHeight
  let request ← getPartialSigRequest setup.secp setup.musig setup.btc setup.envelope setup.isAddress setup.ceilU64
    coin blockHeight initlock interval feeRateSatsPerByte qtBackupTx toAddress network withdrawal
  let serverPartialSig ← signSecond setup request.partialSignatureRequestPayload
  let signature ← createSignature setup.secp setup.musig request.msg request.clientPartialSig
    (setup.musig.partialSigToStr serverPartialSig) request.encodedSession request.outputPubkey
  let signedTx ← newBackupTransaction setup.secp setup.btc request.encodedUnsignedTx signature
  return (coin, signedTx)

def getUserBackupAddress (coin : Coin) (network : String) : Res String := do
  let network ← getNetwork network
  let userPubkey ← publicKeyFromStr setup.secp coin.userPubkey
  let script ← p2trScript setup.secp (setup.secp.xOnly userPubkey)
  return setup.btc.addressToStr script network

/-- A transaction with the values of the coin that it was signed with. -/
def backupTxOf (coin : Coin) (txN : UInt32) (tx : String) : Res BackupTx := do
  let clientPublicNonce ← unwrap coin.publicNonce
  let serverPublicNonce ← unwrap coin.serverPublicNonce
  let serverPublicKey ← unwrap coin.serverPubkey
  let blindingFactor ← unwrap coin.blindingFactor
  return { txN := txN
           tx := tx
           clientPublicNonce := clientPublicNonce
           serverPublicNonce := serverPublicNonce
           clientPublicKey := coin.userPubkey
           serverPublicKey := serverPublicKey
           blindingFactor := blindingFactor }

variable [LT F] [DecidableLT F]

/-- The first backup transaction of a coin. It pays its owner, and its lock time becomes that of
the coin. -/
def createTx1 (coin : Coin) (walletNetwork : String) (txN : UInt32) : Action F (Coin × BackupTx) := do
  let toAddress ← getUserBackupAddress setup coin walletNetwork
  let serverInfo ← infoConfig
  let (coin, signedTx) ← newTransaction setup coin toAddress 0 none none walletNetwork
    (feeRateSatsPerByte setup serverInfo) serverInfo.initlock serverInfo.interval
  failIf (coin.publicNonce = none) "coin.public_nonce is None"
  failIf (coin.blindingFactor = none) "coin.blinding_factor is None"
  failIf (coin.statechainId = none) "coin.statechain_id is None"
  let backupTx ← backupTxOf coin txN signedTx
  let blockHeight ← getBlockheight setup.btc backupTx
  return ({ coin with locktime := some blockHeight }, backupTx)

end Build

section Built

/-- The text of a signed backup transaction that spends the given output after the given height. -/
def Built (btc : Bitcoin) (outpoint : OutPoint) (lockTime : UInt32) (text : String) : Prop :=
  isBlockHeight lockTime = true ∧
    ∃ output signature, text = btc.serialize (signTx (unsignedTx outpoint lockTime output) signature)

/-- The output that a coin stands for. -/
def HasOutPoint (coin : Coin) (outpoint : OutPoint) : Prop :=
  coin.utxoTxid = some outpoint.txid ∧ coin.utxoVout = some outpoint.vout

variable {setup}

theorem request_of_calculateMusigSession {secp : Secp E K} {musig : Musig E K} {coin : Coin} {hash : Bytes}
    {encodedUnsignedTx : String} {request : PartialSignatureMsg1}
    (h : calculateMusigSession secp musig coin hash encodedUnsignedTx = .ok request) :
    request.encodedUnsignedTx = encodedUnsignedTx ∧
      coin.statechainId = some request.partialSignatureRequestPayload.statechainId ∧
      coin.serverPublicNonce = some request.partialSignatureRequestPayload.serverPubNonce := by
  simp only [calculateMusigSession, bind_eq_ok, pure_eq_ok, unwrap_eq_ok] at h
  obtain ⟨_, -, _, -, _, -, ⟨_, _, _⟩, -, _, -, _, -, _, hnonce, _, -, _, -, _, -, _, -, _, -, _, -, _, -, _, -, _, -,
    _, -, _, hid, _, -, rfl⟩ := h
  exact ⟨rfl, hid, hnonce⟩

variable [Mul F] [NatCast F] {coin : Coin} {blockHeight initlock interval qtBackupTx : UInt32} {feeRate : F}
  {toAddress network : String} {withdrawal : Option (ℕ × ℕ)} {request : PartialSignatureMsg1}

/-- What the client signs: one input, one output, and the lock time as calculated. -/
theorem request_of_getPartialSigRequest
    (h : getPartialSigRequest setup.secp setup.musig setup.btc setup.envelope setup.isAddress setup.ceilU64 coin
      blockHeight initlock interval feeRate qtBackupTx toAddress network withdrawal = .ok request) :
    (isBlockHeight (calculateBlockHeight blockHeight initlock interval qtBackupTx withdrawal) = true ∧
      ∃ outpoint output, HasOutPoint coin outpoint ∧ request.encodedUnsignedTx = setup.btc.serialize
        (unsignedTx outpoint (calculateBlockHeight blockHeight initlock interval qtBackupTx withdrawal) output)) ∧
      coin.statechainId = some request.partialSignatureRequestPayload.statechainId ∧
      coin.serverPublicNonce = some request.partialSignatureRequestPayload.serverPubNonce := by
  simp only [getPartialSigRequest, getMusigSession, bind_eq_ok, throwIf_eq_ok, unwrap_eq_ok] at h
  obtain ⟨_, -, output, -, _, -, _, -, _, hheight, txid, htxid, _, -, vout, hvout, _, -, _, -, _, -, _, -, hsession⟩ := h
  rw [Bool.not_eq_false] at hheight
  obtain ⟨hencoded, hid, hnonce⟩ := request_of_calculateMusigSession hsession
  exact ⟨⟨hheight, ⟨txid, vout⟩, output, ⟨htxid, hvout⟩, hencoded⟩, hid, hnonce⟩

theorem built_of_request {signatureHex text : String}
    (hcodec : ∀ tx, setup.btc.deserialize (setup.btc.serialize tx) = .ok tx)
    (hrequest : getPartialSigRequest setup.secp setup.musig setup.btc setup.envelope setup.isAddress setup.ceilU64
      coin blockHeight initlock interval feeRate qtBackupTx toAddress network withdrawal = .ok request)
    (hsigned : newBackupTransaction setup.secp setup.btc request.encodedUnsignedTx signatureHex = .ok text) :
    ∃ outpoint, HasOutPoint coin outpoint ∧ Built setup.btc outpoint
      (calculateBlockHeight blockHeight initlock interval qtBackupTx withdrawal) text := by
  obtain ⟨⟨hheight, outpoint, output, houtpoint, hencoded⟩, -⟩ := request_of_getPartialSigRequest hrequest
  rw [hencoded] at hsigned
  simp only [newBackupTransaction, hcodec, question_ok, ok_bind, bind_eq_ok, pure_eq_ok] at hsigned
  obtain ⟨_, -, _, -, _, -, signature, -, rfl⟩ := hsigned
  exact ⟨outpoint, houtpoint, hheight, output, signature, rfl⟩

variable {btc : Bitcoin} {outpoint : OutPoint} {lockTime : UInt32}

omit [Mul F] [NatCast F] in
theorem getBlockheight_of_built (hcodec : ∀ tx, btc.deserialize (btc.serialize tx) = .ok tx) {backupTx : BackupTx}
    (h : Built btc outpoint lockTime backupTx.tx) : getBlockheight btc backupTx = .ok lockTime := by
  obtain ⟨hheight, output, signature, htx⟩ := h
  have hlock : (signTx (unsignedTx outpoint lockTime output) signature).lockTime = lockTime := rfl
  simp only [getBlockheight, htx, hcodec, question_ok, ok_bind, hlock, hheight]
  rfl

theorem getPreviousOutpoint_of_built (hcodec : ∀ tx, btc.deserialize (btc.serialize tx) = .ok tx)
    {backupTx : BackupTx} (h : Built btc outpoint lockTime backupTx.tx) :
    getPreviousOutpoint btc backupTx = .ok outpoint := by
  obtain ⟨hheight, output, signature, htx⟩ := h
  simp only [getPreviousOutpoint, htx, hcodec, question_ok, ok_bind]
  rfl

theorem backupTxOf_eq_ok {coin : Coin} {txN : UInt32} {tx : String} {backupTx : BackupTx}
    (h : backupTxOf coin txN tx = .ok backupTx) :
    backupTx.tx = tx ∧ backupTx.txN = txN ∧ coin.serverPublicNonce = some backupTx.serverPublicNonce := by
  simp only [backupTxOf, bind_eq_ok, pure_eq_ok, unwrap_eq_ok] at h
  obtain ⟨_, -, _, hnonce, _, -, _, -, rfl⟩ := h
  exact ⟨rfl, rfl, hnonce⟩

end Built

end MercuryLayer.Client.Transaction
