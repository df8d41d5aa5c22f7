import MercuryLayer.Library.Programs
import MercuryLayer.Library.Tables
import MercuryLayer.Lockbox.Server
import MercuryLayer.Receiver

namespace MercuryLayer.Server.Database

open Crates Library.Programs Library.Tables Library.XOnlyCurve Lockbox.Enclave Lockbox.Server Receiver

structure StatechainData (P : Type) where
  statechainId : String
  authXonlyPublicKey : Bytes
  serverPublicKey : P
  enclaveIndex : ℕ
deriving DecidableEq

structure StatechainTransfer (P : Type) where
  statechainId : String
  newUserAuthPublicKey : P
  x1 : Bytes
  encryptedTransferMsg : Option Bytes
  updatedAt : ℕ
  keyUpdated : Bool
  batchId : Option String
  batchTime : Option ℕ
  locked : Bool
  locked2 : Bool
deriving DecidableEq

structure LightningLatch where
  statechainId : String
  senderAuthXonlyPublicKey : Bytes
  batchId : String
  preImage : String
  locked : Bool
  expiresAt : ℕ
deriving DecidableEq

/-- A row of `statechain_signature_data`, in the order of creation. -/
structure SignatureData where
  serverPubnonce : String
  challenge : Option String
  txN : UInt32
  statechainId : String
deriving DecidableEq

/-- A signature whose challenge is still missing cannot be read as text. -/
def SignatureData.toInfo (row : SignatureData) : Option StatechainInfo := do
  let challenge ← row.challenge
  return { statechainId := row.statechainId
           serverPubnonce := row.serverPubnonce
           challenge := challenge
           txN := row.txN }

/-- The database with the unique constraints of its schema. -/
structure Db (P : Type) where
  data : Table (StatechainData P) String StatechainData.statechainId
  serverPublicKey_unique : (data.rows.map StatechainData.serverPublicKey).Nodup
  transfers : Table (StatechainTransfer P) String StatechainTransfer.statechainId
  latches : Table LightningLatch (String × String) (fun row => (row.statechainId, row.batchId))
  signatures : List SignatureData

variable {P : Type} (db : Db P) (statechainId : String)

namespace Db

def batchIdAndTimeOf : Option (String × ℕ) := do
  let row ← db.transfers.get statechainId
  return (← row.batchId, ← row.batchTime)

def isAllCoinsUnlocked (batchId : String) : Bool :=
  db.transfers.rows.all (fun row => row.batchId != some batchId || !(row.locked || row.locked2))

def batchTimeOf (batchId : String) : Option (Option ℕ) :=
  (db.transfers.rows.find? (fun row => row.batchId == some batchId && row.locked)).map StatechainTransfer.batchTime

/-- `batch_id = NULL` is never true in SQL. -/
def existsMsg [DecidableEq P] (newUserAuthKey : P) (batchId : Option String) : Bool :=
  match batchId with
  | none => false
  | some batchId => db.transfers.rows.any (fun row =>
      row.newUserAuthPublicKey == newUserAuthKey && row.statechainId == statechainId && row.batchId == some batchId)

def isLightningLatch (senderAuthKey : Bytes) (batchId : String) : Bool :=
  db.latches.rows.any (fun row =>
    row.statechainId == statechainId && row.senderAuthXonlyPublicKey == senderAuthKey && row.batchId == batchId)

/-- The row that `insert_new_transfer` writes. A batch is its id and time, and whether the
sender has a latch on it. -/
def newTransfer (statechainId : String) (now : ℕ) (newUserAuthKey : P) (x1 : Bytes)
    (batch : Option (String × ℕ × Bool)) : StatechainTransfer P where
  statechainId := statechainId
  newUserAuthPublicKey := newUserAuthKey
  x1 := x1
  encryptedTransferMsg := none
  updatedAt := now
  keyUpdated := false
  batchId := batch.map (fun b => b.1)
  batchTime := batch.map (fun b => b.2.1)
  locked := batch.isSome
  locked2 := batch.any (fun b => b.2.2)

def setTransferMsg [DecidableEq P] (now : ℕ) (newUserAuthKey : P) (encTransferMsg : Bytes) (row : StatechainTransfer P) :
    StatechainTransfer P :=
  if row.newUserAuthPublicKey = newUserAuthKey then
    { row with encryptedTransferMsg := some encTransferMsg, updatedAt := now }
  else row

def setUnlocked (now : ℕ) (isCurrentOwner : Bool) (row : StatechainTransfer P) : StatechainTransfer P :=
  if isCurrentOwner then { row with locked2 := false, updatedAt := now }
  else { row with locked := false, updatedAt := now }

def insertNewDeposit [DecidableEq P] (row : StatechainData P) : Option (Db P) := do
  let data ← db.data.insert? row
  if h : (data.rows.map StatechainData.serverPublicKey).Nodup then
    return { db with data := data, serverPublicKey_unique := h }
  else none

def insertNewTransfer (now : ℕ) (newUserAuthKey : P) (x1 : Bytes) (batch : Option (String × ℕ × Bool)) : Db P :=
  { db with transfers := db.transfers.replace (newTransfer statechainId now newUserAuthKey x1 batch) }

/-- The row is the only one of its statechain, so it has the latest `updated_at`. -/
def updateTransferMsg [DecidableEq P] (now : ℕ) (newUserAuthKey : P) (encTransferMsg : Bytes) : Db P :=
  { db with
    transfers := db.transfers.modify statechainId (setTransferMsg now newUserAuthKey encTransferMsg)
      (fun row => by unfold setTransferMsg; split <;> rfl) }

def updateStatechain [DecidableEq P] (authKey : Bytes) (serverPublicKey : P) : Option (Db P) :=
  let data := db.data.modify statechainId
    (fun row => { row with authXonlyPublicKey := authKey, serverPublicKey := serverPublicKey }) (fun _ => rfl)
  if h : (data.rows.map StatechainData.serverPublicKey).Nodup then
    some
      { db with
        data := data
        serverPublicKey_unique := h
        transfers := db.transfers.modify statechainId (fun row => { row with keyUpdated := true }) (fun _ => rfl) }
  else none

def unlockTransfer (now : ℕ) (isCurrentOwner : Bool) : Db P :=
  { db with
    transfers := db.transfers.modify statechainId (setUnlocked now isCurrentOwner)
      (fun row => by unfold setUnlocked; split <;> rfl) }

def unlockLatch (batchId : String) : Db P :=
  { db with
    latches := db.latches.modify (statechainId, batchId) (fun row => { row with locked := false })
      (fun _ => rfl) }

def deleteExpiredLatches (now : ℕ) : Db P :=
  { db with latches := db.latches.filter (fun row => ¬row.expiresAt < now) }

def insertLatch (row : LightningLatch) : Option (Db P) :=
  (db.latches.insert? row).map (fun latches => { db with latches := latches })

/-- `get_preimage` looks for a latch that is no longer locked. -/
def preimageOf (senderAuthKey : Bytes) (batchId : String) : Option String :=
  (db.latches.rows.find? (fun row => row.statechainId == statechainId &&
    row.senderAuthXonlyPublicKey == senderAuthKey && row.batchId == batchId && !row.locked)).map LightningLatch.preImage

/-- The oldest signature of the statechain whose challenge is still missing. -/
def serverPubnonceFromNullChallenge : Option String :=
  (db.signatures.find? (fun row => row.statechainId == statechainId && row.challenge.isNone)).map
    SignatureData.serverPubnonce

/-- `COALESCE(MAX(tx_n), 0)`. -/
def maxTxN : UInt32 :=
  ((db.signatures.filter (fun row => row.statechainId == statechainId)).map SignatureData.txN).foldl max 0

def insertNewSignatureData (serverPubnonce : String) : Db P :=
  { db with
    signatures := db.signatures ++ [⟨serverPubnonce, none, db.maxTxN statechainId + 1, statechainId⟩] }

def setChallenge (statechainId serverPubnonce challenge : String) (row : SignatureData) : SignatureData :=
  if row.statechainId = statechainId ∧ row.serverPubnonce = serverPubnonce then { row with challenge := some challenge }
  else row

def updateSignatureDataChallenge (serverPubnonce challenge : String) : Db P :=
  { db with signatures := db.signatures.map (setChallenge statechainId serverPubnonce challenge) }

def statechainInfoOf : Option (List StatechainInfo) :=
  ((db.signatures.filter (fun row => row.statechainId == statechainId)).mapM SignatureData.toInfo).map
    (fun rows => rows.insertionSort (fun a b => a.txN ≤ b.txN))

theorem insertNewDeposit_transfers [DecidableEq P] {db db' : Db P} {row : StatechainData P}
    (h : db.insertNewDeposit row = some db') : db'.transfers = db.transfers := by
  obtain ⟨data, -, h⟩ := Option.bind_eq_some_iff.mp h
  split_ifs at h with hunique
  rw [← Option.some.inj h]

theorem insertNewDeposit_latches [DecidableEq P] {db db' : Db P} {row : StatechainData P}
    (h : db.insertNewDeposit row = some db') : db'.latches = db.latches := by
  obtain ⟨data, -, h⟩ := Option.bind_eq_some_iff.mp h
  split_ifs at h with hunique
  rw [← Option.some.inj h]

theorem updateStatechain_latches [DecidableEq P] {db db' : Db P} {statechainId : String} {authKey : Bytes}
    {serverPublicKey : P} (h : db.updateStatechain statechainId authKey serverPublicKey = some db') :
    db'.latches = db.latches := by
  simp only [updateStatechain] at h
  split_ifs at h with hunique
  rw [← Option.some.inj h]

theorem updateStatechain_data [DecidableEq P] {db db' : Db P} {statechainId : String} {authKey : Bytes}
    {serverPublicKey : P} (h : db.updateStatechain statechainId authKey serverPublicKey = some db') :
    db'.data = db.data.modify statechainId
      (fun row => { row with authXonlyPublicKey := authKey, serverPublicKey := serverPublicKey }) (fun _ => rfl) := by
  simp only [updateStatechain] at h
  split_ifs at h with hunique
  rw [← Option.some.inj h]

theorem updateStatechain_transfers [DecidableEq P] {db db' : Db P} {statechainId : String} {authKey : Bytes}
    {serverPublicKey : P} (h : db.updateStatechain statechainId authKey serverPublicKey = some db') :
    db'.transfers =
      db.transfers.modify statechainId (fun row => { row with keyUpdated := true }) (fun _ => rfl) := by
  simp only [updateStatechain] at h
  split_ifs at h with hunique
  rw [← Option.some.inj h]

end Db

/-- A request or a read that an endpoint makes, each of them one atomic step. -/
inductive Call (E : Type) [AddCommGroup E]
  | getAuthKeyByStatechainId (statechainId : String)
  | getBatchIdAndTimeByStatechainId (statechainId : String)
  | isAllCoinsUnlocked (batchId : String)
  | getBatchTimeByBatchId (batchId : String)
  | existsMsg (newUserAuthKey : Point E) (statechainId : String) (batchId : Option String)
  | isLightningLatch (statechainId : String) (senderAuthKey : Bytes) (batchId : String)
  | insertNewDeposit (row : StatechainData (Point E))
  | insertNewTransfer (newUserAuthKey : Point E) (x1 : Bytes) (statechainId : String)
      (batch : Option (String × ℕ × Bool))
  | updateTransferMsg (newUserAuthKey : Point E) (encTransferMsg : Bytes) (statechainId : String)
  | getEnclavePubkey (statechainId : String)
  | getStatechainInfo (statechainId : String)
  | getX1 (statechainId : String)
  | getAuthPubkeyAndX1 (statechainId : String)
  | isKeyAlreadyUpdated (statechainId : String)
  | getServerPublicKey (statechainId : String)
  | getEnclaveIndex (statechainId : String)
  | updateStatechain (authKey : Bytes) (serverPublicKey : Point E) (statechainId : String)
  | unlockTransfer (isCurrentOwner : Bool) (statechainId : String)
  | getLocks (statechainId : String)
  | unlockLatch (statechainId batchId : String)
  | deleteExpiredLatches
  | insertLatch (row : LightningLatch)
  | getPreimage (statechainId : String) (senderAuthKey : Bytes) (batchId : String)
  | getServerPubnonceFromNullChallenge (statechainId : String)
  | insertNewSignatureData (serverPubnonce statechainId : String)
  | updateSignatureDataChallenge (serverPubnonce challenge statechainId : String)
  | lockboxEndpoint (enclaveIndex : ℕ)
  | now
  | newSecretKey
  | randomBytes
  | signatureCount (enclaveIndex : ℕ) (statechainId : String)
  | lockbox (enclaveIndex : ℕ) (request : Request)

/-- What `reqwest` gives back: an error, a response whose body cannot be read, or the body. -/
inductive HttpReply
  | failed (text : String)
  | unreadable
  | body (body : Body)
deriving DecidableEq

/-- A database call gives `none` on an error of `sqlx`, which a missing row is for
`fetch_one`. -/
@[reducible] def Reply {E : Type} [AddCommGroup E] : Call E → Type
  | .getAuthKeyByStatechainId _ => Option Bytes
  | .getBatchIdAndTimeByStatechainId _ => Option (Option (String × ℕ))
  | .isAllCoinsUnlocked _ => Option Bool
  | .getBatchTimeByBatchId _ => Option (Option (Option ℕ))
  | .existsMsg _ _ _ => Option Bool
  | .isLightningLatch _ _ _ => Option Bool
  | .insertNewDeposit _ => Option Unit
  | .insertNewTransfer _ _ _ _ => Option Unit
  | .updateTransferMsg _ _ _ => Option Unit
  | .getEnclavePubkey _ => Option (Option (Point E))
  | .getStatechainInfo _ => Option (List StatechainInfo)
  | .getX1 _ => Option (Option Bytes)
  | .getAuthPubkeyAndX1 _ => Option (Point E × Bytes)
  | .isKeyAlreadyUpdated _ => Option Bool
  | .getServerPublicKey _ => Option (Point E)
  | .getEnclaveIndex _ => Option (Option ℕ)
  | .updateStatechain _ _ _ => Option Unit
  | .unlockTransfer _ _ => Option Unit
  | .getLocks _ => Option (Bool × Bool × Option String)
  | .unlockLatch _ _ => Option Unit
  | .deleteExpiredLatches => Option Unit
  | .insertLatch _ => Option Unit
  | .getPreimage _ _ _ => Option (Option String)
  | .getServerPubnonceFromNullChallenge _ => Option (Option String)
  | .insertNewSignatureData _ _ => Option Unit
  | .updateSignatureDataChallenge _ _ _ => Option Unit
  | .lockboxEndpoint _ => Option Unit
  | .now => ℕ
  | .newSecretKey => Bytes
  | .randomBytes => Bytes
  | .signatureCount _ _ => Except String (Option UInt32)
  | .lockbox _ _ => HttpReply

/-- The server's database, the tables of the lockboxes in the order of the configuration,
and the clock. -/
structure World (E : Type) [AddCommGroup E] where
  db : Db (Point E)
  enclaves : List (List (Row E))
  now : ℕ

/-- How a request to a lockbox fares: it is answered, never arrives, is carried out with the
answer lost, or is carried out with the body of the answer cut off. -/
inductive Link
  | delivered
  | unreachable (text : String)
  | lost (text : String)
  | cut
deriving DecidableEq

/-- The answer arrives, or the request never did. -/
def settled : Link → Bool
  | .delivered | .unreachable _ => true
  | .lost _ | .cut => false

def confirmed : DbFault → Bool
  | .ok | .failed _ => true
  | .lost _ => false

def carriedOut : DbFault → Bool
  | .ok | .lost _ => true
  | .failed _ => false

/-- What the environment decides for one call. -/
structure Choice (n : ℕ) where
  fault : DbFault
  link : Link
  draw : Draw n
  secret : { k : ZMod n // k ≠ 0 }
  randomBytes : Bytes
  uninitialised : Option UInt32

def calm {n : ℕ} (secret : { k : ZMod n // k ≠ 0 }) : Choice n :=
  ⟨.ok, .delivered, ⟨secret, [], [], .ok, .ok⟩, secret, [], none⟩

variable {n : ℕ} {E : Type} [AddCommGroup E] [Module (ZMod n) E] [DecidableEq E]

def read {α : Type} (fault : DbFault) (w : World E) (result : Option α) : Option α × World E :=
  match fault with
  | .ok => (result, w)
  | _ => (none, w)

/-- A transaction that fails leaves the database as it was; one whose commit is not confirmed
has happened. -/
def write (fault : DbFault) (w : World E) (result : Option (Db (Point E))) : Option Unit × World E :=
  match fault, result with
  | .failed _, _ => (none, w)
  | _, none => (none, w)
  | .ok, some db => (some (), { w with db := db })
  | .lost _, some db => (none, { w with db := db })

def httpReply (link : Link) : Outcome → HttpReply
  | .answered response =>
    match link with
    | .delivered => .body response.body
    | .cut => .unreadable
    | .lost text => .failed text
    | .unreachable text => .failed text
  | .stopped (.runtimeError _) =>
    match link with
    | .delivered => .body .empty
    | .cut => .unreadable
    | .lost text => .failed text
    | .unreachable text => .failed text
  | .stopped _ => .failed "connection closed before message completed"

/-- A request to the lockbox with the given index. An index that the configuration does not
have ends the request like an answer that cannot be read. -/
def callLockbox (enclave : Keyring n E) (choice : Choice n) (w : World E) (enclaveIndex : ℕ) (request : Request) :
    HttpReply × World E :=
  match choice.link, w.enclaves[enclaveIndex]? with
  | .unreachable text, _ => (.failed text, w)
  | _, none => (.unreadable, w)
  | link, some table =>
    let result := Lockbox.Server.handle enclave choice.draw table request
    (httpReply link result.2, { w with enclaves := w.enclaves.set enclaveIndex result.1 })

/-- The count is read from the first row; without one the lockbox answers with whatever its
variable holds. -/
def countSignatures (choice : Choice n) (w : World E) (enclaveIndex : ℕ) (statechainId : String) :
    Except String (Option UInt32) :=
  match choice.link, w.enclaves[enclaveIndex]? with
  | .unreachable text, _ => .error text
  | _, none => .ok none
  | .lost text, some _ => .error text
  | .cut, some _ => .ok none
  | .delivered, some table =>
    match loadGeneratedKeyData choice.draw.load table statechainId, choice.draw.load with
    | .ok row, _ => .ok (some row.sigCount.toUInt32)
    | .error _, .ok => .ok choice.uninitialised
    | .error _, _ => .ok none

def handle (enclave : Keyring n E) (choice : Choice n) : (c : Call E) → World E → Reply c × World E
  | .getAuthKeyByStatechainId id, w =>
    read choice.fault w ((w.db.data.get id).map StatechainData.authXonlyPublicKey)
  | .getBatchIdAndTimeByStatechainId id, w => read choice.fault w (some (w.db.batchIdAndTimeOf id))
  | .isAllCoinsUnlocked batchId, w => read choice.fault w (some (w.db.isAllCoinsUnlocked batchId))
  | .getBatchTimeByBatchId batchId, w => read choice.fault w (some (w.db.batchTimeOf batchId))
  | .existsMsg newUserAuthKey id batchId, w =>
    read choice.fault w (some (w.db.existsMsg id newUserAuthKey batchId))
  | .isLightningLatch id senderAuthKey batchId, w =>
    read choice.fault w (some (w.db.isLightningLatch id senderAuthKey batchId))
  | .insertNewDeposit row, w => write choice.fault w (w.db.insertNewDeposit row)
  | .insertNewTransfer newUserAuthKey x1 id batch, w =>
    write choice.fault w (some (w.db.insertNewTransfer id w.now newUserAuthKey x1 batch))
  | .updateTransferMsg newUserAuthKey encTransferMsg id, w =>
    write choice.fault w (some (w.db.updateTransferMsg id w.now newUserAuthKey encTransferMsg))
  | .getEnclavePubkey id, w =>
    read choice.fault w (some ((w.db.data.get id).map StatechainData.serverPublicKey))
  | .getStatechainInfo id, w => read choice.fault w (w.db.statechainInfoOf id)
  | .getX1 id, w => read choice.fault w (some ((w.db.transfers.get id).map StatechainTransfer.x1))
  | .getAuthPubkeyAndX1 id, w =>
    read choice.fault w ((w.db.transfers.get id).map (fun row => (row.newUserAuthPublicKey, row.x1)))
  | .isKeyAlreadyUpdated id, w => read choice.fault w ((w.db.transfers.get id).map StatechainTransfer.keyUpdated)
  | .getServerPublicKey id, w => read choice.fault w ((w.db.data.get id).map StatechainData.serverPublicKey)
  | .getEnclaveIndex id, w => read choice.fault w (some ((w.db.data.get id).map StatechainData.enclaveIndex))
  | .updateStatechain authKey serverPublicKey id, w =>
    write choice.fault w (w.db.updateStatechain id authKey serverPublicKey)
  | .unlockTransfer isCurrentOwner id, w => write choice.fault w (some (w.db.unlockTransfer id w.now isCurrentOwner))
  | .getLocks id, w =>
    read choice.fault w ((w.db.transfers.get id).map (fun row => (row.locked, row.locked2, row.batchId)))
  | .unlockLatch id batchId, w => write choice.fault w (some (w.db.unlockLatch id batchId))
  | .deleteExpiredLatches, w => write choice.fault w (some (w.db.deleteExpiredLatches w.now))
  | .insertLatch row, w => write choice.fault w (w.db.insertLatch row)
  | .getPreimage id senderAuthKey batchId, w =>
    read choice.fault w (some (w.db.preimageOf id senderAuthKey batchId))
  | .getServerPubnonceFromNullChallenge id, w =>
    read choice.fault w (some (w.db.serverPubnonceFromNullChallenge id))
  | .insertNewSignatureData serverPubnonce id, w =>
    write choice.fault w (some (w.db.insertNewSignatureData id serverPubnonce))
  | .updateSignatureDataChallenge serverPubnonce challenge id, w =>
    write choice.fault w (some (w.db.updateSignatureDataChallenge id serverPubnonce challenge))
  | .lockboxEndpoint enclaveIndex, w => (w.enclaves[enclaveIndex]?.map (fun _ => ()), w)
  | .now, w => (w.now, w)
  | .newSecretKey, w => (enclave.params.getB32 choice.secret, w)
  | .randomBytes, w => (choice.randomBytes, w)
  | .signatureCount enclaveIndex id, w => (countSignatures choice w enclaveIndex id, w)
  | .lockbox enclaveIndex request, w => callLockbox enclave choice w enclaveIndex request

end MercuryLayer.Server.Database
