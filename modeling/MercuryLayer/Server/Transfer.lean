import MercuryLayer.Sender
import MercuryLayer.Server.Database

namespace MercuryLayer.Server.Transfer

open Crates Library.Programs Library.XOnlyCurve Lockbox.Server Receiver Sender Server.Database

structure TransferSenderRequestPayload where
  statechainId : String
  authSig : String
  newUserAuthKey : String
  batchId : Option String
deriving DecidableEq, Repr

structure TransferUnlockRequestPayload where
  statechainId : String
  authSig : String
  authPubKey : Option String
deriving DecidableEq, Repr

structure PaymentHashRequestPayload where
  statechainId : String
  authSig : String
  batchId : String
deriving DecidableEq, Repr

structure WithdrawCompletePayload where
  statechainId : String
  signedStatechainId : String
deriving DecidableEq, Repr

structure TransferPreimageRequestPayload where
  statechainId : String
  authSig : String
  previousUserAuthKey : String
  batchId : String
deriving DecidableEq, Repr

inductive Value
  | text (value : String)
  | flag (value : Bool)
deriving DecidableEq, Repr

/-- The JSON object of a response. -/
inductive Payload
  | fields (fields : List (String × Value))
  | statechainInfo (info : StatechainInfoResponsePayload)
deriving DecidableEq, Repr

structure Answer where
  status : ℕ
  payload : Payload
deriving DecidableEq, Repr

/-- What a client reads from a response as text. -/
def answerField (name : String) (answer : Answer) : Option String :=
  match answer.payload with
  | .fields fields => (fields.lookup name).bind (fun
    | .text value => some value
    | .flag _ => none)
  | .statechainInfo _ => none

def message (status : ℕ) (text : String) : Answer := ⟨status, .fields [("message", .text text)]⟩

def internalError (text : String) : Answer :=
  ⟨500, .fields [("error", .text "Internal Server Error"), ("message", .text text)]⟩

def signatureMismatch (status : ℕ) : Answer := message status "Signature does not match authentication key."

/-- `validate_batch_transfer` and `validate_batch` each have a type of this shape for their
result. -/
inductive BatchValidationResult
  | statecoinBatchLockedError (message : String)
  | expiredBatchTimeError (message : String)
  | success
deriving DecidableEq, Repr

/-- An endpoint calls the database, the lockbox and the clock; a panic cuts it short. -/
abbrev Endpoint (E : Type) [AddCommGroup E] (α : Type) : Type := Prog (Call E) Reply α

section Calls

variable {E : Type} [AddCommGroup E]

def getAuthKeyByStatechainId (statechainId : String) : Endpoint E Bytes :=
  .call (.getAuthKeyByStatechainId statechainId) Prog.unwrap

def getBatchIdAndTimeByStatechainId (statechainId : String) : Endpoint E (Option (String × ℕ)) :=
  .call (.getBatchIdAndTimeByStatechainId statechainId) Prog.unwrap

def isAllCoinsUnlocked (batchId : String) : Endpoint E Bool := .call (.isAllCoinsUnlocked batchId) Prog.unwrap

/-- A row without a time cannot be read as one. -/
def getBatchTimeByBatchId (batchId : String) : Endpoint E (Option ℕ) := do
  match ← (.call (.getBatchTimeByBatchId batchId) Prog.unwrap : Endpoint E (Option (Option ℕ))) with
  | none => return none
  | some time => return some (← Prog.unwrap time)

def existsMsgForSameStatechainIdAndNewUserAuthKey (newUserAuthKey : Point E) (statechainId : String)
    (batchId : Option String) : Endpoint E Bool :=
  .call (.existsMsg newUserAuthKey statechainId batchId) Prog.unwrap

def isLightningLatch (statechainId : String) (senderAuthKey : Bytes) (batchId : String) : Endpoint E Bool :=
  .call (.isLightningLatch statechainId senderAuthKey batchId) Prog.unwrap

def updateTransferMsg (newUserAuthKey : Point E) (encTransferMsg : Bytes) (statechainId : String) :
    Endpoint E Unit :=
  .call (.updateTransferMsg newUserAuthKey encTransferMsg statechainId) Prog.unwrap

def getEnclavePubkey (statechainId : String) : Endpoint E (Option (Point E)) :=
  .call (.getEnclavePubkey statechainId) Prog.unwrap

def getStatechainInfo (statechainId : String) : Endpoint E (List StatechainInfo) :=
  .call (.getStatechainInfo statechainId) Prog.unwrap

def getX1 (statechainId : String) : Endpoint E (Option Bytes) := .call (.getX1 statechainId) Prog.unwrap

def getAuthPubkeyAndX1 (statechainId : String) : Endpoint E (Point E × Bytes) :=
  .call (.getAuthPubkeyAndX1 statechainId) Prog.unwrap

def isKeyAlreadyUpdated (statechainId : String) : Endpoint E Bool :=
  .call (.isKeyAlreadyUpdated statechainId) Prog.unwrap

def getServerPublicKey (statechainId : String) : Endpoint E (Point E) :=
  .call (.getServerPublicKey statechainId) Prog.unwrap

def getEnclaveIndexFromDatabase (statechainId : String) : Endpoint E (Option ℕ) :=
  .call (.getEnclaveIndex statechainId) Prog.unwrap

def updateStatechain (authKey : Bytes) (serverPublicKey : Point E) (statechainId : String) : Endpoint E Unit :=
  .call (.updateStatechain authKey serverPublicKey statechainId) Prog.unwrap

def utcNow : Endpoint E ℕ := .call .now .ret

end Calls

variable {n : ℕ} {E : Type} [AddCommGroup E] (secp : Secp (Point E) (ZMod n)) (batchTimeout : ℕ)

/-- `Duration::seconds`, in nanoseconds. -/
def seconds (t : ℕ) : ℕ := t * 1000000000

def isBatchExpired (batchTime : ℕ) : Endpoint E Bool := do
  let now ← utcNow
  return batchTime + seconds batchTimeout < now

def verifies (signature : Signature) (statechainId : String) (authKey : Bytes) : Bool :=
  secp.verifySchnorr signature (secp.sha256 statechainId.toUTF8.toList) authKey

def validateSignatureGivenPublicKey (signedMessageHex statechainId authKey : String) : Endpoint E Bool := do
  let authKey ← Prog.unwrap (secp.publicKeyFromStr authKey)
  let signedMessage ← Prog.unwrap (secp.signatureFromStr signedMessageHex)
  return verifies secp signedMessage statechainId (secp.xOnly authKey)

def validateSignature (signedMessageHex statechainId : String) : Endpoint E Bool := do
  let authKey ← getAuthKeyByStatechainId statechainId
  let signedMessage ← Prog.unwrap (secp.signatureFromStr signedMessageHex)
  return verifies secp signedMessage statechainId authKey

def validateBatchTransfer (statechainId : String) (newBatchId : Option String) :
    Endpoint E BatchValidationResult := do
  match ← getBatchIdAndTimeByStatechainId statechainId with
  | some (batchId, batchTime) =>
    if ← isBatchExpired batchTimeout batchTime then
      if newBatchId = some batchId then
        return .expiredBatchTimeError "Batch time has expired. Try a new batch id."
      else return .success
    else if ← isAllCoinsUnlocked batchId then return .success
    else return .statecoinBatchLockedError "Statecoin batch locked (the batch time has not expired)."
  | none =>
    match newBatchId with
    | some newBatchId =>
      match ← getBatchTimeByBatchId newBatchId with
      | some batchTime =>
        if ← isBatchExpired batchTimeout batchTime then
          return .expiredBatchTimeError "Batch time has expired. Try a new batch id."
        else return .success
      | none => return .success
    | none => return .success

/-- The reads of `insert_new_transfer` go through the pool, outside the transaction. -/
def insertNewTransfer (newUserAuthKey : Point E) (x1 : Bytes) (statechainId : String) (batchId : Option String) :
    Endpoint E Unit := do
  match batchId with
  | some batchId =>
    let batchTime ← getBatchTimeByBatchId batchId
    let batchTime ← match batchTime with
      | some batchTime => pure batchTime
      | none => utcNow
    let senderAuthKey ← getAuthKeyByStatechainId statechainId
    let isLightningLatch ← isLightningLatch statechainId senderAuthKey batchId
    .call (.insertNewTransfer newUserAuthKey x1 statechainId (some (batchId, batchTime, isLightningLatch)))
      Prog.unwrap
  | none => .call (.insertNewTransfer newUserAuthKey x1 statechainId none) Prog.unwrap

def transferSender (payload : TransferSenderRequestPayload) : Endpoint E Answer := do
  if ← validateSignature secp payload.authSig payload.statechainId then
    match ← validateBatchTransfer batchTimeout payload.statechainId payload.batchId with
    | .statecoinBatchLockedError text => return message 400 text
    | .expiredBatchTimeError text => return message 400 text
    | .success =>
      let newUserAuthKey ← Prog.unwrap (secp.publicKeyFromStr payload.newUserAuthKey)
      if ← existsMsgForSameStatechainIdAndNewUserAuthKey newUserAuthKey payload.statechainId payload.batchId then
        return message 400 (if payload.batchId.isSome then
            "Transfer message already exists for this statechain_id, new_user_auth_key and batch_id."
          else "Transfer message already exists for this statechain_id and new_user_auth_key.")
      else
        let x1 ← (.call .newSecretKey .ret : Endpoint E Bytes)
        insertNewTransfer newUserAuthKey x1 payload.statechainId payload.batchId
        return ⟨200, .fields [("x1", .text (Hex.encode x1))]⟩
  else return signatureMismatch 500

def transferUpdateMsg (payload : TransferUpdateMsgRequestPayload) : Endpoint E Answer := do
  if ← validateSignature secp payload.authSig payload.statechainId then
    let newUserAuthKey ← Prog.unwrap (secp.publicKeyFromStr payload.newUserAuthKey)
    let encTransferMsg ← Prog.unwrap (Hex.decode payload.encTransferMsg)
    updateTransferMsg newUserAuthKey encTransferMsg payload.statechainId
    return ⟨200, .fields [("updated", .flag true)]⟩
  else
    return ⟨500, .fields [("error", .text "Internal Server Error"),
      ("message", .text "Signature does not match authentication key.")]⟩

def enclaveIndexNotFound (statechainId : String) : Answer :=
  message 500 ("Enclave index for statechain " ++ statechainId ++ " ID not found.")

def statechainInfo (statechainId : String) : Endpoint E Answer := do
  match ← getEnclavePubkey statechainId with
  | none => return message 404 "Statechain Id key not found."
  | some enclavePublicKey =>
    match ← getEnclaveIndexFromDatabase statechainId with
    | none => return enclaveIndexNotFound statechainId
    | some enclaveIndex =>
      match ← (.call (.signatureCount enclaveIndex statechainId) .ret : Endpoint E (Except String (Option UInt32)))
        with
      | .error text => return internalError text
      | .ok numSigs =>
        let numSigs ← Prog.unwrap numSigs
        let info ← getStatechainInfo statechainId
        let x1Pub ← match ← getX1 statechainId with
          | some x1 => some <$> Prog.unwrap (secp.secretKeyFromSlice x1)
          | none => pure none
        return ⟨200, .statechainInfo
          { enclavePublicKey := secp.publicKeyToStr enclavePublicKey
            numSigs := numSigs
            statechainInfo := info
            x1Pub := x1Pub.map (fun secretX1 => secp.publicKeyToStr (secp.publicKey secretX1)) }⟩

def updateUnlockTransfer (isCurrentOwner : Bool) (statechainId : String) : Endpoint E Unit := do
  (.call (.unlockTransfer isCurrentOwner statechainId) Prog.unwrap : Endpoint E Unit)
  let (locked, locked2, batchId) ←
    (.call (.getLocks statechainId) Prog.unwrap : Endpoint E (Bool × Bool × Option String))
  match batchId with
  | some batchId =>
    if !locked && !locked2 then .call (.unlockLatch statechainId batchId) Prog.unwrap else return ()
  | none => return ()

/-- A key that comes with the request is checked against the signature only, and only when
the owner did not sign. -/
def transferUnlock (payload : TransferUnlockRequestPayload) : Endpoint E Answer := do
  let isCurrentOwnerSignature ← validateSignature secp payload.authSig payload.statechainId
  let refused ← if isCurrentOwnerSignature then pure false else
    match payload.authPubKey with
    | none => pure false
    | some authPubKey =>
      not <$> validateSignatureGivenPublicKey secp payload.authSig payload.statechainId authPubKey
  if refused then return signatureMismatch 403
  else
    updateUnlockTransfer isCurrentOwnerSignature payload.statechainId
    return message 200 "Success"

def validateBatch (statechainId : String) : Endpoint E BatchValidationResult := do
  match ← getBatchIdAndTimeByStatechainId statechainId with
  | some (batchId, batchTime) =>
    if ← isBatchExpired batchTimeout batchTime then return .expiredBatchTimeError "Batch time has expired"
    else if ← isAllCoinsUnlocked batchId then return .success
    else return .statecoinBatchLockedError "Statecoin batch is locked"
  | none => return .success

/-- The key in the lockbox's answer, which has a leading `0x`. -/
def serverPubkeyOf (body : Body) : Option (Point E) :=
  match body with
  | .field "server_pubkey" text =>
    match text.toList with
    | '0' :: 'x' :: rest => secp.publicKeyFromStr (String.ofList rest)
    | _ => secp.publicKeyFromStr text
  | _ => none

def serverPubkeyAnswer (serverPubkey : Point E) : Answer :=
  ⟨200, .fields [("server_pubkey", .text (secp.publicKeyToStr serverPubkey))]⟩

def storeKey (authPubkey : Bytes) (statechainId : String) (serverPubkey : Point E) : Endpoint E Answer := do
  updateStatechain authPubkey serverPubkey statechainId
  return serverPubkeyAnswer secp serverPubkey

/-- What becomes of the lockbox's reply. -/
def relayKey (authPubkey : Bytes) (statechainId : String) : HttpReply → Endpoint E Answer
  | .failed text => return internalError text
  | .unreadable => .abort
  | .body body => Prog.unwrap (serverPubkeyOf secp body) >>= storeKey secp authPubkey statechainId

def updateKey (payload : TransferReceiverRequestPayload) (authPubkey x1 : Bytes) : Endpoint E Answer := do
  match ← getEnclaveIndexFromDatabase payload.statechainId with
  | none => return enclaveIndexNotFound payload.statechainId
  | some enclaveIndex =>
    .call (.lockbox enclaveIndex (.keyupdate payload.statechainId payload.t2 (Hex.encode x1)))
      (relayKey secp authPubkey payload.statechainId)

/-- The end of `transfer_receiver`, from the test whether the key was updated before. -/
def updateKeyOnce (payload : TransferReceiverRequestPayload) (authPubkey x1 : Bytes) (keyUpdated : Bool) :
    Endpoint E Answer := do
  if keyUpdated then
    let serverPublicKey ← getServerPublicKey payload.statechainId
    return serverPubkeyAnswer secp serverPublicKey
  else updateKey secp payload authPubkey x1

def receiverError (code text : String) : Answer :=
  ⟨400, .fields [("code", .text code), ("message", .text text)]⟩

def transferReceiver (payload : TransferReceiverRequestPayload) : Endpoint E Answer := do
  match ← validateBatch batchTimeout payload.statechainId with
  | .statecoinBatchLockedError text => return receiverError "StatecoinBatchLockedError" text
  | .expiredBatchTimeError text => return receiverError "ExpiredBatchTimeError" text
  | .success =>
    let (authPubkey, x1) ← getAuthPubkeyAndX1 payload.statechainId
    let signedMessage ← Prog.unwrap (secp.signatureFromStr payload.authSig)
    if verifies secp signedMessage payload.t2 (secp.xOnly authPubkey) then
      isKeyAlreadyUpdated payload.statechainId >>= updateKeyOnce secp payload (secp.xOnly authPubkey) x1
    else return signatureMismatch 500

/-- The end of `post_deposit`, once the token has been accepted. -/
def initDeposit (authKey : Bytes) (statechainId : String) (enclaveIndex : ℕ) : Endpoint E Answer := do
  match ← (.call (.lockbox enclaveIndex (.getPublicKey statechainId)) .ret : Endpoint E HttpReply) with
  | .failed text => return internalError text
  | .unreadable => .abort
  | .body body =>
    let serverPubkey ← Prog.unwrap (serverPubkeyOf secp body)
    (.call (.insertNewDeposit
      { statechainId := statechainId
        authXonlyPublicKey := authKey
        serverPublicKey := serverPubkey
        enclaveIndex := enclaveIndex }) Prog.unwrap : Endpoint E Unit)
    return ⟨200, .fields [("server_pubkey", .text (secp.publicKeyToStr serverPubkey)),
      ("statechain_id", .text statechainId)]⟩

/-- The payment hash of a lightning latch; the latch row can be inserted once for a batch. -/
def postPaymenthash (payload : PaymentHashRequestPayload) : Endpoint E Answer := do
  if ← validateSignature secp payload.authSig payload.statechainId then
    let senderAuthKey ← getAuthKeyByStatechainId payload.statechainId
    let buffer ← (.call .randomBytes .ret : Endpoint E Bytes)
    let now ← utcNow
    (.call .deleteExpiredLatches Prog.unwrap : Endpoint E Unit)
    (.call (.insertLatch
      { statechainId := payload.statechainId
        senderAuthXonlyPublicKey := senderAuthKey
        batchId := payload.batchId
        preImage := Hex.encode buffer
        locked := true
        expiresAt := now + seconds 90000 }) Prog.unwrap : Endpoint E Unit)
    return ⟨200, .fields [("hash", .text (Hex.encode (secp.sha256 buffer)))]⟩
  else return signatureMismatch 500

/-- The pre-image goes to whoever signs with the key that the latch was made under. The time
does not matter. -/
def transferPreimage (payload : TransferPreimageRequestPayload) : Endpoint E Answer := do
  if ← validateSignatureGivenPublicKey secp payload.authSig payload.statechainId payload.previousUserAuthKey then
    let previousUserAuthKey ← Prog.unwrap (secp.publicKeyFromStr payload.previousUserAuthKey)
    match ← (.call (.getPreimage payload.statechainId (secp.xOnly previousUserAuthKey) payload.batchId)
      Prog.unwrap : Endpoint E (Option String)) with
    | none =>
      return message 404 ("Pre-image for statechain " ++ payload.statechainId ++
        " not available. The transaction may still be locked")
    | some preImage => return ⟨200, .fields [("preimage", .text preImage)]⟩
  else return signatureMismatch 403

end MercuryLayer.Server.Transfer
