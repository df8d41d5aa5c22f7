import MercuryLayer.Library.Programs
import MercuryLayer.Library.Runs
import MercuryLayer.Lockbox.Server

namespace MercuryLayer.Lockbox.NonceKey

open Crates Library.Programs Library.Runs Library.XOnlyCurve Lockbox.Enclave Lockbox.Server Musig.Session

/-- The database calls of the handlers, each of them one atomic step. The secret nonce is
loaded only for signing. -/
inductive Call (E : Type) [AddCommGroup E]
  | loadGeneratedKeyData (statechainId : String) (withSecnonce : Bool)
  | updateSealedSecnonce (statechainId : String) (response : NewNonceResponse E)
  | updateSigCount (statechainId : String)
  | updateSealedKeypair (response : NewKeyPairResponse E) (statechainId : String)

@[reducible] def Reply {E : Type} [AddCommGroup E] : Call E → Type
  | .loadGeneratedKeyData _ _ => Except String (Option Bytes × Option Bytes)
  | .updateSealedSecnonce _ _ => Except String Unit
  | .updateSigCount _ => Except String Unit
  | .updateSealedKeypair _ _ => Except String Unit

abbrev Handler (E : Type) [AddCommGroup E] : Type := Prog (Call E) Reply Outcome

inductive SigningRequest
  | getPublicNonce (statechainId : String)
  | getPartialSignature (statechainId : String) (negateSeckey : Int64) (session : String)
  | keyupdate (statechainId t2 x1 : String)

def SigningRequest.toRequest : SigningRequest → Request
  | .getPublicNonce statechainId => .getPublicNonce statechainId
  | .getPartialSignature statechainId negateSeckey session => .getPartialSignature statechainId negateSeckey session
  | .keyupdate statechainId t2 x1 => .keyupdate statechainId t2 x1

/-- A request, with what the enclave draws for it. -/
structure Arrival where
  request : SigningRequest
  sessionId : Bytes
  nonce : Bytes

variable {n : ℕ} {E : Type} [AddCommGroup E] [Module (ZMod n) E] [DecidableEq E] (enclave : Keyring n E)

section Handlers

def answerSaved (onError : String → Outcome) (onSuccess : Outcome) : Except String Unit → Handler E
  | .error message => .ret (onError message)
  | .ok () => .ret onSuccess

def saveNonce (statechainId : String) : Except Abort (NewNonceResponse E) → Handler E
  | .error abort => .ret (.stopped abort)
  | .ok response => .call (.updateSealedSecnonce statechainId response)
      (answerSaved (fun message => failure 500 ("Failed to save sealed secret nonce: " ++ message))
        (success "server_pubnonce" (enclave.params.nonceBytes.encode response.serverPubnonce)))

def generatePublicNonce (statechainId : String) (sessionId nonce : Bytes) : Handler E :=
  .call (.loadGeneratedKeyData statechainId false) fun (loaded : Except String (Option Bytes × Option Bytes)) =>
    match loaded with
    | .error message => .ret (failure 500 ("Failed to load aggregated key data: " ++ message))
    | .ok (none, _) => .ret (.stopped .nullPointer)
    | .ok (some encryptedKeypair, _) =>
      saveNonce enclave statechainId (Enclave.generateNonce enclave encryptedKeypair sessionId nonce)

def saveCount (statechainId : String) : Except Abort (ZMod n) → Handler E
  | .error abort => .ret (.stopped abort)
  | .ok partialSig => .call (.updateSigCount statechainId)
      (answerSaved (fun _ => failure 500 "Failed to update signature count!")
        (success "partial_sig" (enclave.params.getB32 partialSig)))

def generatePartialSignature (statechainId : String) (negateSeckey : Int64) (serializedSession : Bytes) : Handler E :=
  .call (.loadGeneratedKeyData statechainId true) fun (loaded : Except String (Option Bytes × Option Bytes)) =>
    match loaded with
    | .error message => .ret (failure 500 ("Failed to load aggregated key data: " ++ message))
    | .ok (some encryptedKeypair, some encryptedSecnonce) =>
      saveCount enclave statechainId (Enclave.partialSignature enclave encryptedKeypair encryptedSecnonce
        negateSeckey.toInt32 serializedSession)
    | .ok (_, _) => .ret (failure 400 "Empty sealed keypair or sealed secnonce!")

def saveKeypair (statechainId : String) : Except Abort (NewKeyPairResponse E) → Handler E
  | .error abort => .ret (.stopped abort)
  | .ok response => .call (.updateSealedKeypair response statechainId)
      (answerSaved (fun message => failure 500 ("Failed to update aggregated key data: " ++ message))
        (success "server_pubkey" (enclave.params.pubkeyBytes.encode response.serverPubkey)))

def keyupdate (statechainId : String) (serializedT2 serializedX1 nonce : Bytes) : Handler E :=
  .call (.loadGeneratedKeyData statechainId false) fun (loaded : Except String (Option Bytes × Option Bytes)) =>
    match loaded with
    | .error message => .ret (failure 500 ("Failed to load aggregated key data: " ++ message))
    | .ok (none, _) => .ret (failure 400 "Empty encrypted keypair!")
    | .ok (some oldEncryptedKeypair, _) =>
      saveKeypair enclave statechainId
        (Enclave.keyUpdate enclave oldEncryptedKeypair serializedX1 serializedT2 nonce)

def handler (arrival : Arrival) : Handler E :=
  match arrival.request with
  | .getPublicNonce statechainId => generatePublicNonce enclave statechainId arrival.sessionId arrival.nonce
  | .getPartialSignature statechainId negateSeckey session =>
    if (parseHex session).length ≠ 133 then .ret (failure 400 "Invalid session length. Must be 133 bytes!")
    else generatePartialSignature enclave statechainId negateSeckey (parseHex session)
  | .keyupdate statechainId t2 x1 =>
    if (parseHex t2).length ≠ 32 then .ret (failure 400 "Invalid t2 length. Must be 32 bytes!")
    else if (parseHex x1).length ≠ 32 then .ret (failure 400 "Invalid x1 length. Must be 32 bytes!")
    else keyupdate enclave statechainId (parseHex t2) (parseHex x1) arrival.nonce

end Handlers

/-- The table, with every pair of a key and a nonce that was loaded for signing. -/
structure Store (E : Type) [AddCommGroup E] where
  table : List (Row E)
  signings : List (Bytes × Bytes)

def loadedFor (withSecnonce : Bool) (row : Row E) : List (Bytes × Bytes) :=
  match withSecnonce, row.sealedKeypair, row.sealedSecnonce with
  | true, some keypair, some secnonce => [(keypair, secnonce)]
  | _, _, _ => []

def saved (s : Store E) (written : Except String Unit × List (Row E)) : Except String Unit × Store E :=
  (written.1, { s with table := written.2 })

def perform (fault : DbFault) : (c : Call E) → Store E → Reply c × Store E
  | .loadGeneratedKeyData statechainId withSecnonce, s =>
    match loadGeneratedKeyData fault s.table statechainId with
    | .error message => (.error message, s)
    | .ok row => (.ok (row.sealedKeypair, if withSecnonce then row.sealedSecnonce else none),
        { s with signings := s.signings ++ loadedFor withSecnonce row })
  | .updateSealedSecnonce statechainId response, s =>
    saved s (commit fault s.table (.ok (updateSealedSecnonce s.table statechainId response)))
  | .updateSigCount statechainId, s => saved s (commit fault s.table (.ok (updateSigCount s.table statechainId)))
  | .updateSealedKeypair response statechainId, s =>
    saved s (commit fault s.table (updateSealedKeypair s.table response statechainId))

/-- The faults of a request that runs alone, call by call. -/
def faults (draw : Draw n) (i : ℕ) : DbFault := if i = 0 then draw.load else draw.store

section Alone

/-- The answer and the table are those of the sequential model. -/
def Agrees (result : Option Outcome × Store E) (expected : List (Row E) × Outcome) : Prop :=
  result.1 = some expected.2 ∧ result.2.table = expected.1

variable {enclave} {draw : Draw n} {s : Store E}

omit [Module (ZMod n) E] in
theorem agrees_saved {written : Except String Unit × List (Row E)} {onError : String → Outcome} {onSuccess : Outcome}
    {choices : ℕ → DbFault} :
    Agrees (exec perform (answerSaved onError onSuccess (saved s written).1) choices (saved s written).2)
      (Server.reply written onError onSuccess) := by
  obtain ⟨reported, table⟩ := written
  cases reported with
  | error message => exact ⟨rfl, rfl⟩
  | ok u => exact ⟨rfl, rfl⟩

theorem agrees_generatePublicNonce (statechainId : String) :
    Agrees (exec perform (generatePublicNonce enclave statechainId draw.sessionId draw.nonce) (faults draw) s)
      (Server.generatePublicNonce enclave draw s.table statechainId) := by
  simp only [generatePublicNonce, Server.generatePublicNonce, exec, perform, faults, if_true]
  cases loadGeneratedKeyData draw.load s.table statechainId with
  | error message => exact ⟨rfl, rfl⟩
  | ok row =>
    cases hkey : row.sealedKeypair with
    | none => simp only [hkey]; exact ⟨rfl, rfl⟩
    | some keypair =>
      simp only [hkey]
      cases Enclave.generateNonce enclave keypair draw.sessionId draw.nonce with
      | error abort => exact ⟨rfl, rfl⟩
      | ok response => exact agrees_saved

theorem agrees_generatePartialSignature (statechainId : String) (negateSeckey : Int64) (session : Bytes) :
    Agrees (exec perform (generatePartialSignature enclave statechainId negateSeckey session) (faults draw) s)
      (Server.generatePartialSignature enclave draw s.table statechainId negateSeckey session) := by
  simp only [generatePartialSignature, Server.generatePartialSignature, exec, perform, faults, if_true]
  cases loadGeneratedKeyData draw.load s.table statechainId with
  | error message => exact ⟨rfl, rfl⟩
  | ok row =>
    cases hkey : row.sealedKeypair with
    | none => simp only [hkey]; exact ⟨rfl, rfl⟩
    | some keypair =>
      cases hnonce : row.sealedSecnonce with
      | none => simp only [hkey, hnonce]; exact ⟨rfl, rfl⟩
      | some secnonce =>
        simp only [hkey, hnonce]
        cases Enclave.partialSignature enclave keypair secnonce negateSeckey.toInt32 session with
        | error abort => exact ⟨rfl, rfl⟩
        | ok partialSig => exact agrees_saved

theorem agrees_keyupdate (statechainId : String) (t2 x1 : Bytes) :
    Agrees (exec perform (keyupdate enclave statechainId t2 x1 draw.nonce) (faults draw) s)
      (Server.keyupdate enclave draw s.table statechainId t2 x1) := by
  simp only [keyupdate, Server.keyupdate, exec, perform, faults, if_true]
  cases loadGeneratedKeyData draw.load s.table statechainId with
  | error message => exact ⟨rfl, rfl⟩
  | ok row =>
    cases hkey : row.sealedKeypair with
    | none => simp only [hkey]; exact ⟨rfl, rfl⟩
    | some keypair =>
      simp only [hkey]
      cases Enclave.keyUpdate enclave keypair x1 t2 draw.nonce with
      | error abort => exact ⟨rfl, rfl⟩
      | ok response => exact agrees_saved

variable (enclave) in
/-- A request that runs alone does what the lockbox does with it in one step. -/
theorem agrees_handler (draw : Draw n) (request : SigningRequest) (s : Store E) :
    Agrees (exec perform (handler enclave ⟨request, draw.sessionId, draw.nonce⟩) (faults draw) s)
      (handle enclave draw s.table request.toRequest) := by
  cases request with
  | getPublicNonce statechainId => exact agrees_generatePublicNonce statechainId
  | getPartialSignature statechainId negateSeckey session =>
    simp only [handler, SigningRequest.toRequest, handle]
    split_ifs with hlength
    · exact ⟨rfl, rfl⟩
    · exact agrees_generatePartialSignature statechainId negateSeckey (parseHex session)
  | keyupdate statechainId t2 x1 =>
    simp only [handler, SigningRequest.toRequest, handle]
    split_ifs with ht2 hx1
    · exact ⟨rfl, rfl⟩
    · exact ⟨rfl, rfl⟩
    · exact agrees_keyupdate statechainId (parseHex t2) (parseHex x1)

end Alone

section Statement

def GeneratedFor (keypair secnonce : Bytes) : Prop :=
  ∃ sessionId nonce response, Enclave.generateNonce enclave keypair sessionId nonce = .ok response ∧
    response.encryptedSecnonce = secnonce

def RowMatched (row : Row E) : Prop :=
  ∀ secnonce, row.sealedSecnonce = some secnonce →
    ∃ keypair, row.sealedKeypair = some keypair ∧ GeneratedFor enclave keypair secnonce

/-- Every nonce in the table was generated for the key in its row, and nothing was signed with
a nonce made for another key. -/
structure Matched (s : Store E) : Prop where
  rows : ∀ row ∈ s.table, RowMatched enclave row
  signings : ∀ pair ∈ s.signings, GeneratedFor enclave pair.1 pair.2

abbrev System (E : Type) [AddCommGroup E] : Type := Config (Call E) Reply Outcome (Store E)

abbrev LockboxEvent : Type := Event Arrival DbFault

def step (s : System E) (event : LockboxEvent) : System E := s.step (handler enclave) perform event

def init (table : List (Row E)) : System E := ⟨⟨table, []⟩, []⟩

/-- The statechain for which a request is about to save a nonce. -/
def noncePending (p : Handler E) : Option String :=
  match p.next? with
  | some (.updateSealedSecnonce statechainId _) => some statechainId
  | _ => none

def replacesKey (fault : DbFault) : Call E → Option String
  | .updateSealedKeypair _ statechainId =>
    match fault with
    | .failed _ => none
    | _ => some statechainId
  | _ => none

/-- No key is replaced while a nonce request for its statechain is between its load and its save. -/
def NoKeyBetween (s : System E) : LockboxEvent → Prop
  | .advance i fault => ∀ statechainId ∈ (s.threads[i]?.bind Prog.next?).bind (replacesKey fault),
      ∀ p ∈ s.threads, noncePending p ≠ some statechainId
  | _ => True

instance (s : System E) (event : LockboxEvent) : Decidable (NoKeyBetween s event) :=
  match event with
  | .advance i fault =>
    inferInstanceAs (Decidable (∀ statechainId ∈ (s.threads[i]?.bind Prog.next?).bind (replacesKey fault), _))
  | .start _ => isTrue trivial
  | .stop _ => isTrue trivial

end Statement

section Invariant

variable {enclave}

/-- Where a nonce that is about to be saved comes from. -/
def Source (enclave : Keyring n E) : (c : Call E) → Reply c → String → NewNonceResponse E → Prop
  | .loadGeneratedKeyData statechainId _, loaded, id, response =>
    statechainId = id ∧ ∃ keypair secnonce sessionId nonce, loaded = .ok (some keypair, secnonce) ∧
      Enclave.generateNonce enclave keypair sessionId nonce = .ok response
  | .updateSealedSecnonce _ _, _, _, _ => False
  | .updateSigCount _, _, _, _ => False
  | .updateSealedKeypair _ _, _, _, _ => False

/-- A nonce is saved only right after the key was loaded that it is generated for. -/
def Derives (enclave : Keyring n E) : Handler E → Prop
  | .ret _ => True
  | .abort => True
  | .call c next => ∀ r, (∀ statechainId response,
      (next r).next? = some (.updateSealedSecnonce statechainId response) → Source enclave c r statechainId response) ∧
        Derives enclave (next r)

/-- The nonce that is about to be saved was generated for the key in the row. -/
def Ready (enclave : Keyring n E) (table : List (Row E)) (p : Handler E) : Prop :=
  ∀ statechainId response, p.next? = some (.updateSealedSecnonce statechainId response) →
    ∀ row ∈ table, row.statechainId = statechainId →
      ∃ keypair, row.sealedKeypair = some keypair ∧ GeneratedFor enclave keypair response.encryptedSecnonce

theorem ends_answerSaved {P : String → NewNonceResponse E → Prop} {onError : String → Outcome} {onSuccess : Outcome}
    (r : Except String Unit) :
    (∀ statechainId response, (answerSaved onError onSuccess r : Handler E).next? =
      some (.updateSealedSecnonce statechainId response) → P statechainId response) ∧
      Derives enclave (answerSaved onError onSuccess r : Handler E) := by
  cases r with
  | error message => exact ⟨nofun, trivial⟩
  | ok u => exact ⟨nofun, trivial⟩

theorem derives_generatePublicNonce (statechainId : String) (sessionId nonce : Bytes) :
    Derives enclave (generatePublicNonce enclave statechainId sessionId nonce) := by
  rintro (message | ⟨_ | keypair, secnonce⟩)
  · exact ⟨fun _ _ h => (by cases h), trivial⟩
  · exact ⟨fun _ _ h => (by cases h), trivial⟩
  · simp only
    cases hgen : Enclave.generateNonce enclave keypair sessionId nonce with
    | error abort => exact ⟨fun _ _ h => (by cases h), trivial⟩
    | ok response =>
      constructor
      · intro id response' hnext
        cases hnext
        exact ⟨rfl, keypair, secnonce, sessionId, nonce, rfl, hgen⟩
      · exact fun r => ends_answerSaved r

theorem derives_generatePartialSignature (statechainId : String) (negateSeckey : Int64) (session : Bytes) :
    Derives enclave (generatePartialSignature enclave statechainId negateSeckey session) := by
  rintro (message | ⟨_ | keypair, _ | secnonce⟩)
  · exact ⟨fun _ _ h => (by cases h), trivial⟩
  · exact ⟨fun _ _ h => (by cases h), trivial⟩
  · exact ⟨fun _ _ h => (by cases h), trivial⟩
  · exact ⟨fun _ _ h => (by cases h), trivial⟩
  · simp only
    cases Enclave.partialSignature enclave keypair secnonce negateSeckey.toInt32 session with
    | error abort => exact ⟨fun _ _ h => (by cases h), trivial⟩
    | ok partialSig =>
      exact ⟨fun _ _ h => (by cases h), fun r => ends_answerSaved r⟩

theorem derives_keyupdate (statechainId : String) (t2 x1 nonce : Bytes) :
    Derives enclave (keyupdate enclave statechainId t2 x1 nonce) := by
  rintro (message | ⟨_ | keypair, secnonce⟩)
  · exact ⟨fun _ _ h => (by cases h), trivial⟩
  · exact ⟨fun _ _ h => (by cases h), trivial⟩
  · simp only
    cases Enclave.keyUpdate enclave keypair x1 t2 nonce with
    | error abort => exact ⟨fun _ _ h => (by cases h), trivial⟩
    | ok response =>
      exact ⟨fun _ _ h => (by cases h), fun r => ends_answerSaved r⟩

theorem derives_handler (arrival : Arrival) : Derives enclave (handler enclave arrival) := by
  obtain ⟨request, sessionId, nonce⟩ := arrival
  cases request with
  | getPublicNonce statechainId => exact derives_generatePublicNonce statechainId sessionId nonce
  | getPartialSignature statechainId negateSeckey session =>
    simp only [handler]
    split_ifs with hlength
    · trivial
    · exact derives_generatePartialSignature statechainId negateSeckey (parseHex session)
  | keyupdate statechainId t2 x1 =>
    simp only [handler]
    split_ifs with ht2 hx1
    · trivial
    · trivial
    · exact derives_keyupdate statechainId (parseHex t2) (parseHex x1) nonce

theorem ready_handler (table : List (Row E)) (arrival : Arrival) : Ready enclave table (handler enclave arrival) := by
  obtain ⟨request, sessionId, nonce⟩ := arrival
  intro id response hnext
  cases request with
  | getPublicNonce statechainId => cases hnext
  | getPartialSignature statechainId negateSeckey session =>
    simp only [handler] at hnext
    split_ifs at hnext with hlength
    · cases hnext
    · cases hnext
  | keyupdate statechainId t2 x1 =>
    simp only [handler] at hnext
    split_ifs at hnext with ht2 hx1
    · cases hnext
    · cases hnext
    · cases hnext

variable (enclave) in
structure Inv (s : System E) : Prop where
  matched : Matched enclave s.store
  unique : (s.store.table.map Row.statechainId).Nodup
  derives : AllBut (Derives enclave) none s.threads
  ready : AllBut (Ready enclave s.store.table) none s.threads

omit [Module (ZMod n) E] [DecidableEq E] in
theorem map_updateWhere {statechainId : String} {f : Row E → Row E} {table : List (Row E)}
    (hf : ∀ row, (f row).statechainId = row.statechainId) :
    (updateWhere statechainId f table).map Row.statechainId = table.map Row.statechainId := by
  rw [updateWhere, List.map_map]
  apply List.map_congr_left
  intro row _
  by_cases hid : row.statechainId = statechainId
  · rw [Function.comp_apply, if_pos hid, hf]
  · rw [Function.comp_apply, if_neg hid]

theorem Ready.mono {table table' : List (Row E)} {p : Handler E} (h : Ready enclave table p)
    (hrows : ∀ row' ∈ table', noncePending p = some row'.statechainId →
      ∃ row ∈ table, row'.statechainId = row.statechainId ∧ row'.sealedKeypair = row.sealedKeypair) :
    Ready enclave table' p := by
  intro statechainId response hnext row' hrow' hid
  have hpending : noncePending p = some row'.statechainId := by
    rw [noncePending, hnext, hid]
  obtain ⟨row, hrow, hsame, hkey⟩ := hrows row' hrow' hpending
  obtain ⟨keypair, hkeypair, hgenerated⟩ := h statechainId response hnext row hrow (hsame.symm.trans hid)
  exact ⟨keypair, hkey.trans hkeypair, hgenerated⟩

section Step

variable {s : System E} {i : ℕ}

omit [Module (ZMod n) E] [DecidableEq E] in
theorem row_of_loadedFor {withSecnonce : Bool} {row : Row E} {pair : Bytes × Bytes}
    (h : pair ∈ loadedFor withSecnonce row) : row.sealedKeypair = some pair.1 ∧ row.sealedSecnonce = some pair.2 := by
  unfold loadedFor at h
  split at h
  · next hkey hnonce =>
    rw [List.mem_singleton.mp h]
    exact ⟨hkey, hnonce⟩
  · exact absurd h List.not_mem_nil

theorem inv_load {statechainId : String} {withSecnonce : Bool}
    {next : Except String (Option Bytes × Option Bytes) → Handler E} (fault : DbFault) (hs : Inv enclave s)
    (hi : s.threads[i]? = some (.call (.loadGeneratedKeyData statechainId withSecnonce) next)) :
    Inv enclave ⟨(perform fault (.loadGeneratedKeyData statechainId withSecnonce) s.store).2,
      s.threads.set i (next (perform fault (.loadGeneratedKeyData statechainId withSecnonce) s.store).1)⟩ := by
  have hderives := hs.derives i _ nofun hi
  cases hload : loadGeneratedKeyData fault s.store.table statechainId with
  | error message =>
    simp only [perform, hload]
    obtain ⟨hsource, hnext⟩ := hderives (.error message)
    refine ⟨hs.matched, hs.unique, hs.derives.set hnext i, hs.ready.set ?_ i⟩
    intro id response hcall
    obtain ⟨-, keypair, secnonce, _, _, hloaded, -⟩ := hsource id response hcall
    cases hloaded
  | ok row =>
    obtain ⟨hrow, hid⟩ := mem_of_load hload
    simp only [perform, hload]
    obtain ⟨hsource, hnext⟩ := hderives (.ok (row.sealedKeypair, if withSecnonce then row.sealedSecnonce else none))
    refine ⟨⟨hs.matched.rows, ?_⟩, hs.unique, hs.derives.set hnext i, hs.ready.set ?_ i⟩
    · intro pair hpair
      obtain hpair | hpair := List.mem_append.mp hpair
      · exact hs.matched.signings pair hpair
      · obtain ⟨hkey, hnonce⟩ := row_of_loadedFor hpair
        obtain ⟨keypair, hkeypair, hgenerated⟩ := hs.matched.rows row hrow pair.2 hnonce
        rwa [Option.some.inj (hkey.symm.trans hkeypair)]
    · intro id response hcall other hother hotherid
      obtain ⟨hsame, keypair, secnonce, sessionId, nonce, hloaded, hgen⟩ := hsource id response hcall
      have heq : other = row :=
        List.inj_on_of_nodup_map hs.unique hother hrow (hotherid.trans (hsame.symm.trans hid.symm))
      have hkey : row.sealedKeypair = some keypair := congrArg Prod.fst (Except.ok.inj hloaded)
      rw [heq]
      exact ⟨keypair, hkey, sessionId, nonce, response, hgen, rfl⟩

/-- A save that leaves the ids, and the keys of the other pending nonces, keeps the invariant if the
rows it writes match. -/
theorem inv_save {table : List (Row E)} {p : Handler E} (hs : Inv enclave s) (hp : Derives enclave p)
    (hnone : noncePending p = none) (hrows : ∀ row ∈ table, RowMatched enclave row)
    (hids : table.map Row.statechainId = s.store.table.map Row.statechainId)
    (hkeys : ∀ q ∈ s.threads, ∀ row' ∈ table, noncePending q = some row'.statechainId →
      ∃ row ∈ s.store.table, row'.statechainId = row.statechainId ∧ row'.sealedKeypair = row.sealedKeypair) :
    Inv enclave ⟨{ s.store with table := table }, s.threads.set i p⟩ where
  matched := ⟨hrows, hs.matched.signings⟩
  unique := by
    rw [hids]
    exact hs.unique
  derives := hs.derives.set hp i
  ready := by
    have hready : AllBut (Ready enclave table) none s.threads := by
      intro j q hj hq
      exact (hs.ready j q hj hq).mono (hkeys q (List.mem_of_getElem? hq))
    refine hready.set ?_ i
    intro id response hnext
    rw [noncePending, hnext] at hnone
    cases hnone

omit [Module (ZMod n) E] [DecidableEq E] in
theorem commit_table {fault : DbFault} {table : List (Row E)} {result : Except String (List (Row E))}
    (P : List (Row E) → Prop) (hold : P table) (hnew : ∀ table', result = .ok table' →
      (∀ text, fault ≠ .failed text) → P table') : P (commit fault table result).2 := by
  cases fault with
  | failed text => exact hold
  | ok =>
    cases result with
    | error text => exact hold
    | ok table' => exact hnew table' rfl nofun
  | lost text =>
    cases result with
    | error text' => exact hold
    | ok table' => exact hnew table' rfl nofun

theorem noncePending_of_source {c : Call E} {next : Reply c → Handler E} {r : Reply c}
    (h : Derives enclave (.call c next)) (hc : ∀ id response, ¬Source enclave c r id response) :
    noncePending (next r) = none := by
  cases hpending : noncePending (next r) with
  | none => rfl
  | some id =>
    rw [noncePending] at hpending
    split at hpending
    · next id' response hnext => exact absurd ((h r).1 id' response hnext) (hc id' response)
    · cases hpending

theorem inv_commit {result : Except String (List (Row E))} {next : Except String Unit → Handler E} {fault : DbFault}
    (hs : Inv enclave s) (hderives : ∀ r, Derives enclave (next r)) (hnone : ∀ r, noncePending (next r) = none)
    (hnew : ∀ table', result = .ok table' → (∀ text, fault ≠ .failed text) →
      (∀ row ∈ table', RowMatched enclave row) ∧
      table'.map Row.statechainId = s.store.table.map Row.statechainId ∧
      ∀ q ∈ s.threads, ∀ row' ∈ table', noncePending q = some row'.statechainId →
        ∃ row ∈ s.store.table, row'.statechainId = row.statechainId ∧ row'.sealedKeypair = row.sealedKeypair) :
    Inv enclave ⟨(saved s.store (commit fault s.store.table result)).2,
      s.threads.set i (next (saved s.store (commit fault s.store.table result)).1)⟩ := by
  have hp := hderives (saved s.store (commit fault s.store.table result)).1
  have hpending := hnone (saved s.store (commit fault s.store.table result)).1
  generalize next (saved s.store (commit fault s.store.table result)).1 = p at hp hpending ⊢
  refine commit_table (fun table => Inv enclave ⟨{ s.store with table := table }, s.threads.set i p⟩) ?_ ?_
  · exact inv_save hs hp hpending hs.matched.rows rfl (fun _ _ row hrow _ => ⟨row, hrow, rfl, rfl⟩)
  · intro table' htable hfault
    obtain ⟨hrows, hids, hkeys⟩ := hnew table' htable hfault
    exact inv_save hs hp hpending hrows hids hkeys

theorem inv_updateSealedSecnonce {statechainId : String} {response : NewNonceResponse E}
    {next : Except String Unit → Handler E} (fault : DbFault) (hs : Inv enclave s)
    (hi : s.threads[i]? = some (.call (.updateSealedSecnonce statechainId response) next)) :
    Inv enclave ⟨(perform fault (.updateSealedSecnonce statechainId response) s.store).2,
      s.threads.set i (next (perform fault (.updateSealedSecnonce statechainId response) s.store).1)⟩ := by
  have hderives := hs.derives i _ nofun hi
  have hready := hs.ready i _ nofun hi statechainId response rfl
  refine inv_commit hs (fun r => (hderives r).2)
    (fun r => noncePending_of_source hderives (fun _ _ h => h)) ?_
  intro table' htable _
  obtain rfl := Except.ok.inj htable
  refine ⟨?_, map_updateWhere (fun _ => rfl), ?_⟩
  · intro row' hrow'
    obtain ⟨row, hrow, rfl⟩ := mem_updateWhere.mp hrow'
    by_cases hid : row.statechainId = statechainId
    · rw [if_pos hid]
      intro secnonce hsecnonce
      obtain ⟨keypair, hkey, hgenerated⟩ := hready row hrow hid
      exact ⟨keypair, hkey, (Option.some.inj hsecnonce) ▸ hgenerated⟩
    · rw [if_neg hid]
      exact hs.matched.rows row hrow
  · intro q _ row' hrow' _
    obtain ⟨row, hrow, rfl⟩ := mem_updateWhere.mp hrow'
    refine ⟨row, hrow, ?_⟩
    by_cases hid : row.statechainId = statechainId
    · rw [if_pos hid]
      exact ⟨rfl, rfl⟩
    · rw [if_neg hid]
      exact ⟨rfl, rfl⟩

theorem inv_updateSigCount {statechainId : String} {next : Except String Unit → Handler E} (fault : DbFault)
    (hs : Inv enclave s) (hi : s.threads[i]? = some (.call (.updateSigCount statechainId) next)) :
    Inv enclave ⟨(perform fault (.updateSigCount statechainId) s.store).2,
      s.threads.set i (next (perform fault (.updateSigCount statechainId) s.store).1)⟩ := by
  have hderives := hs.derives i _ nofun hi
  refine inv_commit hs (fun r => (hderives r).2)
    (fun r => noncePending_of_source hderives (fun _ _ h => h)) ?_
  intro table' htable _
  obtain rfl := Except.ok.inj htable
  have hsame : ∀ row' ∈ updateSigCount s.store.table statechainId, ∃ row ∈ s.store.table,
      row'.statechainId = row.statechainId ∧ row'.sealedKeypair = row.sealedKeypair ∧
        row'.sealedSecnonce = row.sealedSecnonce := by
    intro row' hrow'
    obtain ⟨row, hrow, rfl⟩ := mem_updateWhere.mp hrow'
    refine ⟨row, hrow, ?_⟩
    by_cases hid : row.statechainId = statechainId
    · rw [if_pos hid]
      exact ⟨rfl, rfl, rfl⟩
    · rw [if_neg hid]
      exact ⟨rfl, rfl, rfl⟩
  refine ⟨?_, map_updateWhere (fun _ => rfl), ?_⟩
  · intro row' hrow' secnonce hsecnonce
    obtain ⟨row, hrow, -, hkey, hnonce⟩ := hsame row' hrow'
    rw [hkey]
    exact hs.matched.rows row hrow secnonce (hnonce.symm.trans hsecnonce)
  · intro q _ row' hrow' _
    obtain ⟨row, hrow, hid, hkey, -⟩ := hsame row' hrow'
    exact ⟨row, hrow, hid, hkey⟩

theorem inv_updateSealedKeypair {statechainId : String} {response : NewKeyPairResponse E}
    {next : Except String Unit → Handler E} (fault : DbFault) (hs : Inv enclave s)
    (hi : s.threads[i]? = some (.call (.updateSealedKeypair response statechainId) next))
    (h : (∀ text, fault ≠ .failed text) → ∀ p ∈ s.threads, noncePending p ≠ some statechainId) :
    Inv enclave ⟨(perform fault (.updateSealedKeypair response statechainId) s.store).2,
      s.threads.set i (next (perform fault (.updateSealedKeypair response statechainId) s.store).1)⟩ := by
  have hderives := hs.derives i _ nofun hi
  refine inv_commit hs (fun r => (hderives r).2)
    (fun r => noncePending_of_source hderives (fun _ _ h => h)) ?_
  intro table' htable hfault
  simp only [updateSealedKeypair] at htable
  split_ifs at htable with hunique
  obtain rfl := Except.ok.inj htable
  refine ⟨?_, map_updateWhere (fun _ => rfl), ?_⟩
  · intro row' hrow'
    obtain ⟨row, hrow, rfl⟩ := mem_updateWhere.mp hrow'
    by_cases hid : row.statechainId = statechainId
    · rw [if_pos hid]
      exact nofun
    · rw [if_neg hid]
      exact hs.matched.rows row hrow
  · intro q hq row' hrow' hpending
    obtain ⟨row, hrow, rfl⟩ := mem_updateWhere.mp hrow'
    by_cases hid : row.statechainId = statechainId
    · rw [if_pos hid] at hpending
      exact absurd (hpending.trans (congrArg some hid)) (h hfault q hq)
    · rw [if_neg hid]
      exact ⟨row, hrow, rfl, rfl⟩

theorem inv_step {event : LockboxEvent} (hs : Inv enclave s) (h : NoKeyBetween s event) :
    Inv enclave (step enclave s event) := by
  cases event with
  | start arrival =>
    exact ⟨hs.matched, hs.unique, hs.derives.append (derives_handler arrival),
      hs.ready.append (ready_handler s.store.table arrival)⟩
  | stop j => exact ⟨hs.matched, hs.unique, hs.derives.set (p := .abort) trivial j, hs.ready.set (p := .abort) nofun j⟩
  | advance i fault =>
    change Inv enclave (s.step (handler enclave) perform (.advance i fault))
    obtain heq | ⟨c, next, hi, heq⟩ := step_advance_cases (handler enclave) perform s i fault
    · rw [heq]
      exact hs
    · rw [heq]
      cases c with
      | loadGeneratedKeyData statechainId withSecnonce => exact inv_load fault hs hi
      | updateSealedSecnonce statechainId response => exact inv_updateSealedSecnonce fault hs hi
      | updateSigCount statechainId => exact inv_updateSigCount fault hs hi
      | updateSealedKeypair response statechainId =>
        apply inv_updateSealedKeypair fault hs hi
        intro hfault
        apply h statechainId
        rw [hi]
        cases fault with
        | ok => rfl
        | lost text => rfl
        | failed text => exact absurd rfl (hfault text)

end Step

theorem inv_init {table : List (Row E)} (hunique : (table.map Row.statechainId).Nodup)
    (hfresh : ∀ row ∈ table, row.sealedSecnonce = none) : Inv enclave (init table) where
  matched := by
    refine ⟨?_, fun _ h => absurd h List.not_mem_nil⟩
    intro row hrow secnonce hsecnonce
    rw [hfresh row hrow] at hsecnonce
    cases hsecnonce
  unique := hunique
  derives := allBut_nil
  ready := allBut_nil

end Invariant

/-- In every interleaving in which no key is replaced between the load and the save of a nonce
request, each nonce in the table was generated for the key in its row, and so was each nonce
that was loaded for signing. -/
theorem nonces_match_keys {table : List (Row E)} (hunique : (table.map Row.statechainId).Nodup)
    (hfresh : ∀ row ∈ table, row.sealedSecnonce = none) {events : List LockboxEvent}
    (h : Guarded (step enclave) NoKeyBetween (init table) events) :
    Matched enclave (run (step enclave) (init table) events).store :=
  (invariant_run (fun _ _ => inv_step) (inv_init hunique hfresh) h).matched

section Seven

def sevenTable : List (Row (ZMod 7)) := [⟨"coin", some [byteOf (1 : ZMod 7)], none, none, seven.publicKey 1, 0⟩]

def nonceRequest : LockboxEvent := .start ⟨.getPublicNonce "coin", [], []⟩

/-- The key moves to 3. -/
def updateRequest : LockboxEvent := .start ⟨.keyupdate "coin" (Hex.encode (b32 3)) (Hex.encode (b32 1)), [], []⟩

def inTurn : List LockboxEvent :=
  [nonceRequest, updateRequest, .advance 0 .ok, .advance 0 .ok, .advance 1 .ok, .advance 1 .ok]

theorem nonces_match_keys_seven :
    Guarded (step sevenKeyring) NoKeyBetween (init sevenTable) inTurn ∧
      Matched sevenKeyring (run (step sevenKeyring) (init sevenTable) inTurn).store := by
  have h : Guarded (step sevenKeyring) NoKeyBetween (init sevenTable) inTurn := by decide +kernel
  exact ⟨h, nonces_match_keys sevenKeyring (by decide) (by decide) h⟩

/-- The nonce request loads the key, the key is updated, and the nonce is saved. -/
def crossed : List LockboxEvent :=
  [nonceRequest, updateRequest, .advance 0 .ok, .advance 1 .ok, .advance 1 .ok, .advance 0 .ok]

def crossedRow : Row (ZMod 7) :=
  ⟨"coin", some [byteOf (3 : ZMod 7)],
    some (secnonceSeven.encode ⟨⟨1, by decide⟩, ⟨1, by decide⟩, seven.publicKey 1⟩),
    some (seven.publicKey 1, seven.publicKey 1), seven.publicKey 3, 0⟩

/-- The nonce of the old key stands beside the new key. -/
theorem nonce_of_old_key_seven :
    ¬Matched sevenKeyring (run (step sevenKeyring) (init sevenTable) crossed).store := by
  intro h
  have hrow : crossedRow ∈ (run (step sevenKeyring) (init sevenTable) crossed).store.table := by decide +kernel
  obtain ⟨keypair, hkey, sessionId, nonce, response, hgen, hsecnonce⟩ := h.rows crossedRow hrow _ rfl
  obtain ⟨seckey, hunlock, rfl⟩ := (generateNonce_eq_ok sevenKeyring).mp hgen
  cases hkey
  have hthree : sevenKeyring.keypairs.unlock [byteOf (3 : ZMod 7)] = some 3 := by decide
  have hseckey : seckey = 3 := Option.some.inj (hunlock.symm.trans hthree)
  have hnonce := congrArg sevenKeyring.secnonces.unlock hsecnonce
  rw [sevenKeyring.secnonces.unlock_lock] at hnonce
  have hpk := congrArg SecNonce.pk (Option.some.inj (hnonce.trans (secnonceSeven.decode_encode _)))
  rw [hseckey] at hpk
  have hne : seven.publicKey 3 ≠ seven.publicKey 1 := by decide
  exact hne hpk

end Seven

end MercuryLayer.Lockbox.NonceKey
