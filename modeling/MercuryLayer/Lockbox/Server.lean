import MercuryLayer.Lockbox.Enclave

namespace MercuryLayer.Lockbox.Server

open Crates Hex Library.XOnlyCurve Lockbox.Enclave Musig.Session

/-- A row of `generated_public_key`. The statechain id is not unique, the public key is. -/
structure Row (E : Type) [AddCommGroup E] where
  statechainId : String
  sealedKeypair : Option Bytes
  sealedSecnonce : Option Bytes
  publicNonce : Option (Point E × Point E)
  publicKey : Point E
  sigCount : ℕ
deriving DecidableEq

inductive Body
  | empty
  | text (message : String)
  | field (name value : String)
deriving DecidableEq, Repr

structure Response where
  code : ℕ
  body : Body
deriving DecidableEq, Repr

inductive Outcome
  | answered (response : Response)
  | stopped (abort : Abort)
deriving DecidableEq, Repr

/-- How a database call ends: as it should, with an error and no effect, or with its effect
but an error reported. -/
inductive DbFault
  | ok
  | failed (text : String)
  | lost (text : String)
deriving DecidableEq, Repr

/-- What the environment chooses for one request: the random draws and the database faults. -/
structure Draw (n : ℕ) where
  seckey : { k : ZMod n // k ≠ 0 }
  sessionId : Bytes
  nonce : Bytes
  load : DbFault
  store : DbFault

inductive Request
  | malformed
  | getPublicKey (statechainId : String)
  | getPublicNonce (statechainId : String)
  | getPartialSignature (statechainId : String) (negateSeckey : Int64) (session : String)
  | keyupdate (statechainId t2 x1 : String)
  | deleteStatechain (statechainId : String)
deriving DecidableEq, Repr

def isSpace (ch : Char) : Bool :=
  ch == ' ' || ch == '\x0c' || ch == '\n' || ch == '\r' || ch == '\t' || ch == '\x0b'

/-- `ParseHex`: blanks are skipped between bytes and the first other character ends the
parse. -/
def parseHexChars : List Char → Bytes
  | c1 :: c2 :: rest =>
    if isSpace c1 then parseHexChars (c2 :: rest)
    else match hexDigit c1, hexDigit c2 with
      | some d1, some d2 => (d1 <<< 4 ||| d2) :: parseHexChars rest
      | _, _ => []
  | _ => []

def parseHex (text : String) : Bytes :=
  match text.toList with
  | '0' :: 'x' :: rest => parseHexChars rest
  | chars => parseHexChars chars

def keyToString (key : Bytes) : String :=
  String.ofList ('0' :: 'x' :: encodeChars key)

theorem hexChar_high (u : UInt8) : isSpace (hexChar (u >>> 4)) = false := by
  obtain ⟨b⟩ := u
  revert b
  decide +kernel

theorem hexChar_low (u : UInt8) : hexChar (u &&& 15) ≠ 'x' := by
  obtain ⟨b⟩ := u
  revert b
  decide +kernel

theorem parseHexChars_encodeChars (bytes : Bytes) : parseHexChars (encodeChars bytes) = bytes := by
  induction bytes with
  | nil => rfl
  | cons u bytes ih =>
    change parseHexChars (hexChar (u >>> 4) :: hexChar (u &&& 15) :: encodeChars bytes) = u :: bytes
    simp only [parseHexChars, hexChar_high, hexDigit_high, hexDigit_low, ih, Bool.false_eq_true, if_false,
      high_or_low]

@[simp] theorem parseHex_encode (bytes : Bytes) : parseHex (Hex.encode bytes) = bytes := by
  rw [parseHex, Hex.encode, String.toList_ofList]
  cases bytes with
  | nil => rfl
  | cons u bytes =>
    refine Eq.trans ?_ (parseHexChars_encodeChars (u :: bytes))
    change (match hexChar (u >>> 4) :: hexChar (u &&& 15) :: encodeChars bytes with
      | '0' :: 'x' :: rest => parseHexChars rest
      | chars => parseHexChars chars) = _
    split
    · next heq =>
      rw [List.cons.injEq, List.cons.injEq] at heq
      exact absurd heq.2.1 (hexChar_low u)
    · rfl

variable {n : ℕ} {E : Type} [AddCommGroup E] [Module (ZMod n) E] [DecidableEq E]

/-- The first row that the database returns for the id. -/
def loadGeneratedKeyData (fault : DbFault) (table : List (Row E)) (statechainId : String) :
    Except String (Row E) :=
  match fault with
  | .ok =>
    match table.find? (fun row => row.statechainId == statechainId) with
    | some row => .ok row
    | none => .error "Failed to retrieve keypair. No data found !"
  | .failed text => .error text
  | .lost text => .error text

/-- A write transaction under a fault: whether success is reported, and the table after. -/
def commit (fault : DbFault) (table : List (Row E)) (result : Except String (List (Row E))) :
    Except String Unit × List (Row E) :=
  match fault, result with
  | .failed text, _ => (.error text, table)
  | _, .error text => (.error text, table)
  | .ok, .ok table' => (.ok (), table')
  | .lost text, .ok table' => (.error text, table')

def saveGeneratedPublicKey (table : List (Row E)) (response : NewKeyPairResponse E) (statechainId : String) :
    Except String (List (Row E)) :=
  if 50 < statechainId.length then .error "value too long for type character varying(50)"
  else if response.serverPubkey ∈ table.map Row.publicKey then
    .error "duplicate key value violates unique constraint"
  else .ok (table ++ [{ statechainId := statechainId
                        sealedKeypair := some response.encryptedData
                        sealedSecnonce := none
                        publicNonce := none
                        publicKey := response.serverPubkey
                        sigCount := 0 }])

def updateWhere (statechainId : String) (f : Row E → Row E) (table : List (Row E)) : List (Row E) :=
  table.map (fun row => if row.statechainId = statechainId then f row else row)

def updateSealedSecnonce (table : List (Row E)) (statechainId : String) (response : NewNonceResponse E) :
    List (Row E) :=
  updateWhere statechainId (fun row => { row with publicNonce := some response.serverPubnonce
                                                  sealedSecnonce := some response.encryptedSecnonce }) table

def updateSigCount (table : List (Row E)) (statechainId : String) : List (Row E) :=
  updateWhere statechainId (fun row => { row with sigCount := row.sigCount + 1 }) table

/-- The new key pair also clears the nonce. Two rows of one id would get one public key,
which the unique index refuses. -/
def updateSealedKeypair (table : List (Row E)) (response : NewKeyPairResponse E) (statechainId : String) :
    Except String (List (Row E)) :=
  let table' := updateWhere statechainId
    (fun row => { row with sealedKeypair := some response.encryptedData
                           publicKey := response.serverPubkey
                           sealedSecnonce := none
                           publicNonce := none }) table
  if (table'.map Row.publicKey).Nodup then .ok table'
  else .error "duplicate key value violates unique constraint"

def deleteRows (table : List (Row E)) (statechainId : String) : List (Row E) :=
  table.filter (fun row => row.statechainId ≠ statechainId)

variable (enclave : Keyring n E) (draw : Draw n) (table : List (Row E))

def failure (code : ℕ) (message : String) : Outcome := .answered ⟨code, .text message⟩

def success (name : String) (value : Bytes) : Outcome := .answered ⟨200, .field name (keyToString value)⟩

/-- Answer by what a write reported; the table is the one it left. -/
def reply (written : Except String Unit × List (Row E)) (onError : String → Outcome) (onSuccess : Outcome) :
    List (Row E) × Outcome :=
  (written.2, match written.1 with
    | .error message => onError message
    | .ok () => onSuccess)

def generateNewKeypair (statechainId : String) : List (Row E) × Outcome :=
  let response := Enclave.generateNewKeypair enclave draw.seckey draw.nonce
  reply (commit draw.store table (saveGeneratedPublicKey table response statechainId))
    (fun message => failure 500 ("Failed to save aggregated key data: " ++ message))
    (success "server_pubkey" (enclave.params.pubkeyBytes.encode response.serverPubkey))

def generatePublicNonce (statechainId : String) : List (Row E) × Outcome :=
  match loadGeneratedKeyData draw.load table statechainId with
  | .error message => (table, failure 500 ("Failed to load aggregated key data: " ++ message))
  | .ok row =>
    match row.sealedKeypair with
    | none => (table, .stopped .nullPointer)
    | some encryptedKeypair =>
      match Enclave.generateNonce enclave encryptedKeypair draw.sessionId draw.nonce with
      | .error abort => (table, .stopped abort)
      | .ok response =>
        reply (commit draw.store table (.ok (updateSealedSecnonce table statechainId response)))
          (fun message => failure 500 ("Failed to save sealed secret nonce: " ++ message))
          (success "server_pubnonce" (enclave.params.nonceBytes.encode response.serverPubnonce))

def generatePartialSignature (statechainId : String) (negateSeckey : Int64) (serializedSession : Bytes) :
    List (Row E) × Outcome :=
  match loadGeneratedKeyData draw.load table statechainId with
  | .error message => (table, failure 500 ("Failed to load aggregated key data: " ++ message))
  | .ok row =>
    match row.sealedKeypair, row.sealedSecnonce with
    | some encryptedKeypair, some encryptedSecnonce =>
      match Enclave.partialSignature enclave encryptedKeypair encryptedSecnonce negateSeckey.toInt32
        serializedSession with
      | .error abort => (table, .stopped abort)
      | .ok partialSig =>
        reply (commit draw.store table (.ok (updateSigCount table statechainId)))
          (fun _ => failure 500 "Failed to update signature count!")
          (success "partial_sig" (enclave.params.getB32 partialSig))
    | _, _ => (table, failure 400 "Empty sealed keypair or sealed secnonce!")

def keyupdate (statechainId : String) (serializedT2 serializedX1 : Bytes) : List (Row E) × Outcome :=
  match loadGeneratedKeyData draw.load table statechainId with
  | .error message => (table, failure 500 ("Failed to load aggregated key data: " ++ message))
  | .ok row =>
    match row.sealedKeypair with
    | none => (table, failure 400 "Empty encrypted keypair!")
    | some oldEncryptedKeypair =>
      match Enclave.keyUpdate enclave oldEncryptedKeypair serializedX1 serializedT2 draw.nonce with
      | .error abort => (table, .stopped abort)
      | .ok response =>
        reply (commit draw.store table (updateSealedKeypair table response statechainId))
          (fun message => failure 500 ("Failed to update aggregated key data: " ++ message))
          (success "server_pubkey" (enclave.params.pubkeyBytes.encode response.serverPubkey))

/-- `db_manager::delete_statechain` catches nothing, so its error leaves as an exception. -/
def deleteStatechain (statechainId : String) : List (Row E) × Outcome :=
  reply (commit draw.store table (.ok (deleteRows table statechainId)))
    (fun message => .stopped (.runtimeError message)) (.answered ⟨200, .text "Statechain deleted."⟩)

def handle : Request → List (Row E) × Outcome
  | .malformed => (table, .answered ⟨400, .empty⟩)
  | .getPublicKey statechainId => generateNewKeypair enclave draw table statechainId
  | .getPublicNonce statechainId => generatePublicNonce enclave draw table statechainId
  | .getPartialSignature statechainId negateSeckey session =>
    let serializedSession := parseHex session
    if serializedSession.length ≠ 133 then (table, failure 400 "Invalid session length. Must be 133 bytes!")
    else generatePartialSignature enclave draw table statechainId negateSeckey serializedSession
  | .keyupdate statechainId t2 x1 =>
    let serializedT2 := parseHex t2
    let serializedX1 := parseHex x1
    if serializedT2.length ≠ 32 then (table, failure 400 "Invalid t2 length. Must be 32 bytes!")
    else if serializedX1.length ≠ 32 then (table, failure 400 "Invalid x1 length. Must be 32 bytes!")
    else keyupdate enclave draw table statechainId serializedT2 serializedX1
  | .deleteStatechain statechainId => deleteStatechain draw table statechainId

omit [Module (ZMod n) E] [DecidableEq E] in
theorem commit_cases (fault : DbFault) (table : List (Row E)) (result : Except String (List (Row E))) :
    (∃ text, commit fault table result = (.error text, table)) ∨
      ∃ table' reported, result = .ok table' ∧ commit fault table result = (reported, table') := by
  cases fault with
  | failed text => exact .inl ⟨text, rfl⟩
  | ok =>
    cases result with
    | error text => exact .inl ⟨text, rfl⟩
    | ok table' => exact .inr ⟨table', .ok (), rfl, rfl⟩
  | lost text =>
    cases result with
    | error text' => exact .inl ⟨text', rfl⟩
    | ok table' => exact .inr ⟨table', .error text, rfl, rfl⟩

omit [Module (ZMod n) E] [DecidableEq E] in
theorem mem_updateWhere {statechainId : String} {f : Row E → Row E} {table : List (Row E)} {row' : Row E} :
    row' ∈ updateWhere statechainId f table ↔
      ∃ row ∈ table, row' = if row.statechainId = statechainId then f row else row := by
  simp [updateWhere, eq_comm]

def isSuccess : Outcome → Bool
  | .answered ⟨200, _⟩ => true
  | _ => false

/-- A nonce request stops before the write, or writes the nonce generated for the key pair of
the row that it read. -/
theorem generatePublicNonce_cases (statechainId : String) :
    ((generatePublicNonce enclave draw table statechainId).1 = table ∧
      isSuccess (generatePublicNonce enclave draw table statechainId).2 = false) ∨
    ∃ row encryptedKeypair response,
      loadGeneratedKeyData draw.load table statechainId = .ok row ∧ row.sealedKeypair = some encryptedKeypair ∧
      Enclave.generateNonce enclave encryptedKeypair draw.sessionId draw.nonce = .ok response ∧
      generatePublicNonce enclave draw table statechainId =
        reply (commit draw.store table (.ok (updateSealedSecnonce table statechainId response)))
          (fun message => failure 500 ("Failed to save sealed secret nonce: " ++ message))
          (success "server_pubnonce" (enclave.params.nonceBytes.encode response.serverPubnonce)) := by
  unfold generatePublicNonce
  cases hload : loadGeneratedKeyData draw.load table statechainId with
  | error message => exact .inl ⟨rfl, rfl⟩
  | ok row =>
    cases hkey : row.sealedKeypair with
    | none => exact .inl ⟨by simp only [hkey], by simp only [hkey]; rfl⟩
    | some encryptedKeypair =>
      cases hgen : Enclave.generateNonce enclave encryptedKeypair draw.sessionId draw.nonce with
      | error abort => exact .inl ⟨by simp only [hkey, hgen], by simp only [hkey, hgen]; rfl⟩
      | ok response =>
        refine .inr ⟨row, encryptedKeypair, response, rfl, hkey, hgen, ?_⟩
        simp only [hkey, hgen]

/-- A signing request stops before the write, or signs with the nonce of the row that it
read and then counts the signature. -/
theorem generatePartialSignature_cases (statechainId : String) (negateSeckey : Int64)
    (serializedSession : Bytes) :
    ((generatePartialSignature enclave draw table statechainId negateSeckey serializedSession).1 = table ∧
      isSuccess (generatePartialSignature enclave draw table statechainId negateSeckey serializedSession).2 =
        false) ∨
    ∃ row encryptedKeypair encryptedSecnonce partialSig,
      loadGeneratedKeyData draw.load table statechainId = .ok row ∧ row.sealedKeypair = some encryptedKeypair ∧
      row.sealedSecnonce = some encryptedSecnonce ∧
      Enclave.partialSignature enclave encryptedKeypair encryptedSecnonce negateSeckey.toInt32 serializedSession =
        .ok partialSig ∧
      generatePartialSignature enclave draw table statechainId negateSeckey serializedSession =
        reply (commit draw.store table (.ok (updateSigCount table statechainId)))
          (fun _ => failure 500 "Failed to update signature count!")
          (success "partial_sig" (enclave.params.getB32 partialSig)) := by
  unfold generatePartialSignature
  cases hload : loadGeneratedKeyData draw.load table statechainId with
  | error message => exact .inl ⟨rfl, rfl⟩
  | ok row =>
    cases hkey : row.sealedKeypair with
    | none => exact .inl ⟨by simp only [hkey], by simp only [hkey]; rfl⟩
    | some encryptedKeypair =>
      cases hnonce : row.sealedSecnonce with
      | none => exact .inl ⟨by simp only [hkey, hnonce], by simp only [hkey, hnonce]; rfl⟩
      | some encryptedSecnonce =>
        cases hsig : Enclave.partialSignature enclave encryptedKeypair encryptedSecnonce negateSeckey.toInt32
            serializedSession with
        | error abort =>
          exact .inl ⟨by simp only [hkey, hnonce, hsig], by simp only [hkey, hnonce, hsig]; rfl⟩
        | ok partialSig =>
          refine .inr ⟨row, encryptedKeypair, encryptedSecnonce, partialSig, rfl, hkey, hnonce, hsig, ?_⟩
          simp only [hkey, hnonce, hsig]

/-- A key update stops before the write, or writes the key pair made from the row it read. -/
theorem keyupdate_cases (statechainId : String) (serializedT2 serializedX1 : Bytes) :
    (keyupdate enclave draw table statechainId serializedT2 serializedX1).1 = table ∨
    ∃ row oldEncryptedKeypair response,
      loadGeneratedKeyData draw.load table statechainId = .ok row ∧
      row.sealedKeypair = some oldEncryptedKeypair ∧
      Enclave.keyUpdate enclave oldEncryptedKeypair serializedX1 serializedT2 draw.nonce = .ok response ∧
      (keyupdate enclave draw table statechainId serializedT2 serializedX1).1 =
        (commit draw.store table (updateSealedKeypair table response statechainId)).2 := by
  unfold keyupdate
  cases hload : loadGeneratedKeyData draw.load table statechainId with
  | error message => exact .inl rfl
  | ok row =>
    cases hkey : row.sealedKeypair with
    | none => exact .inl (by simp only [hkey])
    | some oldEncryptedKeypair =>
      cases hnew : Enclave.keyUpdate enclave oldEncryptedKeypair serializedX1 serializedT2 draw.nonce with
      | error abort => exact .inl (by simp only [hkey, hnew])
      | ok response =>
        refine .inr ⟨row, oldEncryptedKeypair, response, rfl, hkey, hnew, ?_⟩
        simp only [hkey, hnew, reply]

omit [DecidableEq E] in
theorem find_of_load {fault : DbFault} {table : List (Row E)} {statechainId : String} {row : Row E}
    (h : loadGeneratedKeyData fault table statechainId = .ok row) :
    table.find? (fun row => row.statechainId == statechainId) = some row := by
  cases fault with
  | failed text => simp [loadGeneratedKeyData] at h
  | lost text => simp [loadGeneratedKeyData] at h
  | ok =>
    cases hf : table.find? (fun row => row.statechainId == statechainId) with
    | none => simp [loadGeneratedKeyData, hf] at h
    | some row' =>
      simp only [loadGeneratedKeyData, hf, Except.ok.injEq] at h
      rw [h]

omit [DecidableEq E] in
theorem mem_of_load {fault : DbFault} {table : List (Row E)} {statechainId : String} {row : Row E}
    (h : loadGeneratedKeyData fault table statechainId = .ok row) : row ∈ table ∧ row.statechainId = statechainId :=
  ⟨List.mem_of_find?_eq_some (find_of_load h), by simpa using List.find?_some (find_of_load h)⟩

end MercuryLayer.Lockbox.Server
