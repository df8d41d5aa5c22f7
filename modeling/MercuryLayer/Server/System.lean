import MercuryLayer.Server.Transfer
import Mathlib.Data.List.Perm.Basic

namespace MercuryLayer.Server.System

open Crates Library.Programs Library.Tables Library.XOnlyCurve Lockbox.Enclave Lockbox.Server Receiver Sender
open Server.Database Server.Transfer

inductive ServerRequest
  | deposit (authKey : Bytes) (statechainId : String) (enclaveIndex : ℕ)
  | sender (payload : TransferSenderRequestPayload)
  | updateMsg (payload : TransferUpdateMsgRequestPayload)
  | paymenthash (payload : PaymentHashRequestPayload)
  | unlock (payload : TransferUnlockRequestPayload)
  | info (statechainId : String)
  | receiver (payload : TransferReceiverRequestPayload)
deriving DecidableEq

inductive Event (n : ℕ) (E : Type) [AddCommGroup E]
  | request (request : ServerRequest) (choices : ℕ → Choice n)
  | tick (elapsed : ℕ)
  | reorder (rows : List (StatechainTransfer (Point E)))

variable {n : ℕ} {E : Type} [AddCommGroup E] [Module (ZMod n) E] [DecidableEq E]
variable (enclave : Keyring n E) (batchTimeout : ℕ)

def endpoint : ServerRequest → Endpoint E Answer
  | .deposit authKey statechainId enclaveIndex => initDeposit enclave.params.secp authKey statechainId enclaveIndex
  | .sender payload => transferSender enclave.params.secp batchTimeout payload
  | .updateMsg payload => transferUpdateMsg enclave.params.secp payload
  | .paymenthash payload => postPaymenthash enclave.params.secp payload
  | .unlock payload => transferUnlock enclave.params.secp payload
  | .info statechainId => statechainInfo enclave.params.secp statechainId
  | .receiver payload => transferReceiver enclave.params.secp batchTimeout payload

def emptyDb : Db (Point E) := ⟨Table.empty, List.nodup_nil, Table.empty, Table.empty, []⟩

/-- A server with no statechain, and as many lockboxes as the configuration names. -/
def init (enclaves : ℕ) : World E := ⟨emptyDb, List.replicate enclaves [], 0⟩

def reorder (w : World E) (rows : List (StatechainTransfer (Point E))) : World E :=
  if h : rows.Perm w.db.transfers.rows then
    { w with db := { w.db with transfers := ⟨rows, (h.map _).nodup_iff.mpr w.db.transfers.unique⟩ } }
  else w

/-- Requests one after the other, with time passing between them and the database free to
return rows in another order. -/
def step (w : World E) : Event n E → World E
  | .request request choices => (exec (handle enclave) (endpoint enclave batchTimeout request) choices w).2
  | .tick elapsed => { w with now := w.now + elapsed }
  | .reorder rows => reorder w rows

section Reads

/-- The program leaves the world as it is, and gives `v` unless it is cut short. -/
def Returns {α : Type} (p : Endpoint E α) (w : World E) (v : α) : Prop :=
  wp (Database.handle enclave) (fun r w' => w' = w ∧ (r = none ∨ r = some v)) p w

variable {enclave} {α β : Type} {w : World E}

theorem Returns.andThen {p : Endpoint E α} {v : α} (h : Returns enclave p w v) {f : α → Endpoint E β}
    {post : Option β → World E → Prop} (hnone : post none w) (hf : wp (Database.handle enclave) post (f v) w) :
    wp (Database.handle enclave) post (p >>= f) w := by
  rw [wp_bind]
  refine wp_mono ?_ h
  rintro r w' ⟨rfl, rfl | rfl⟩
  · exact hnone
  · exact hf

theorem Returns.bind {p : Endpoint E α} {v : α} (h : Returns enclave p w v) {f : α → Endpoint E β} {u : β}
    (hf : Returns enclave (f v) w u) : Returns enclave (p >>= f) w u :=
  h.andThen ⟨rfl, .inl rfl⟩ hf

theorem Returns.exec_eq {p : Endpoint E α} {v u : α} (h : Returns enclave p w v) (choices : ℕ → Choice n)
    (hu : (exec (Database.handle enclave) p choices w).1 = some u) : u = v := by
  obtain ⟨-, hv⟩ := exec_of_wp h choices
  rw [hu] at hv
  rcases hv with hv | hv
  · cases hv
  · exact Option.some.inj hv

theorem returns_ret (v : α) : Returns enclave (.ret v : Endpoint E α) w v := ⟨rfl, .inr rfl⟩

theorem returns_abort (v : α) : Returns enclave (.abort : Endpoint E α) w v := ⟨rfl, .inl rfl⟩

theorem returns_unwrap {o : Option α} {v : α} (h : ∀ a, o = some a → a = v) :
    Returns enclave (Prog.unwrap o : Endpoint E α) w v := by
  cases o with
  | none => exact returns_abort v
  | some a =>
    rw [← h a rfl]
    exact returns_ret a

/-- A read that fails cuts the program short, and otherwise gives what is in the database. -/
theorem wp_read {fault : DbFault} {result : Option α} {f : α → Endpoint E β} {post : Option β → World E → Prop}
    (hnone : post none w) (hsome : ∀ a, result = some a → wp (Database.handle enclave) post (f a) w) :
    wp (Database.handle enclave) post (Prog.unwrap (read fault w result).1 >>= f) (read fault w result).2 := by
  cases fault with
  | ok =>
    cases result with
    | none => exact hnone
    | some a => exact hsome a rfl
  | failed text => exact hnone
  | lost text => exact hnone

theorem returns_read {fault : DbFault} {result : Option α} {v : α} (h : ∀ a, result = some a → a = v) :
    wp (Database.handle enclave) (fun r w' => w' = w ∧ (r = none ∨ r = some v))
      (Prog.unwrap (read fault w result).1 : Endpoint E α) (read fault w result).2 := by
  cases fault with
  | ok => exact returns_unwrap h
  | failed text => exact returns_abort v
  | lost text => exact returns_abort v

theorem returns_getBatchIdAndTimeByStatechainId (id : String) :
    Returns enclave (getBatchIdAndTimeByStatechainId id) w (w.db.batchIdAndTimeOf id) :=
  fun _ => returns_read (fun _ h => (Option.some.inj h).symm)

theorem returns_isAllCoinsUnlocked (batchId : String) :
    Returns enclave (isAllCoinsUnlocked batchId) w (w.db.isAllCoinsUnlocked batchId) :=
  fun _ => returns_read (fun _ h => (Option.some.inj h).symm)

theorem returns_getBatchTimeByBatchId (batchId : String) :
    Returns enclave (getBatchTimeByBatchId batchId) w (w.db.batchTimeOf batchId).join := by
  have hread : Returns enclave (.call (.getBatchTimeByBatchId batchId) Prog.unwrap : Endpoint E (Option (Option ℕ)))
      w (w.db.batchTimeOf batchId) := fun _ => returns_read (fun _ h => (Option.some.inj h).symm)
  refine hread.bind ?_
  cases w.db.batchTimeOf batchId with
  | none => exact returns_ret none
  | some time =>
    cases time with
    | none => exact returns_abort _
    | some time => exact returns_ret _

theorem returns_existsMsg (newUserAuthKey : Point E) (id : String) (batchId : Option String) :
    Returns enclave (existsMsgForSameStatechainIdAndNewUserAuthKey newUserAuthKey id batchId) w
      (w.db.existsMsg id newUserAuthKey batchId) :=
  fun _ => returns_read (fun _ h => (Option.some.inj h).symm)

theorem returns_isLightningLatch (id : String) (senderAuthKey : Bytes) (batchId : String) :
    Returns enclave (isLightningLatch id senderAuthKey batchId) w (w.db.isLightningLatch id senderAuthKey batchId) :=
  fun _ => returns_read (fun _ h => (Option.some.inj h).symm)

theorem returns_utcNow : Returns enclave (utcNow : Endpoint E ℕ) w w.now := fun _ => returns_ret _

theorem returns_isBatchExpired (batchTime : ℕ) :
    Returns enclave (isBatchExpired batchTimeout batchTime : Endpoint E Bool) w
      (decide (batchTime + seconds batchTimeout < w.now)) :=
  returns_utcNow.bind (returns_ret _)

def SignedBy (secp : Secp (Point E) (ZMod n)) (authSig statechainId : String) (key : Bytes) : Prop :=
  ∃ signature, secp.signatureFromStr authSig = some signature ∧ verifies secp signature statechainId key = true

def SignedByOwner (secp : Secp (Point E) (ZMod n)) (db : Db (Point E)) (authSig statechainId : String) : Prop :=
  ∃ data, db.data.get statechainId = some data ∧ SignedBy secp authSig statechainId data.authXonlyPublicKey

instance (secp : Secp (Point E) (ZMod n)) (authSig id : String) (key : Bytes) :
    Decidable (SignedBy secp authSig id key) :=
  match h : secp.signatureFromStr authSig with
  | none => isFalse (fun ⟨_, hs, _⟩ => by rw [h] at hs; cases hs)
  | some signature =>
    if hv : verifies secp signature id key = true then isTrue ⟨signature, h, hv⟩
    else isFalse (fun ⟨_, hs, hv'⟩ => hv (by rw [h] at hs; rwa [Option.some.inj hs]))

instance (secp : Secp (Point E) (ZMod n)) (db : Db (Point E)) (authSig id : String) :
    Decidable (SignedByOwner secp db authSig id) :=
  match h : db.data.get id with
  | none => isFalse (fun ⟨_, hd, _⟩ => by rw [h] at hd; cases hd)
  | some data =>
    if hs : SignedBy secp authSig id data.authXonlyPublicKey then isTrue ⟨data, h, hs⟩
    else isFalse (fun ⟨_, hd, hs'⟩ => hs (by rw [h] at hd; rwa [Option.some.inj hd]))

/-- `validate_signature` goes on only with a statechain that exists and a signature that
parses. -/
theorem wp_validateSignature {secp : Secp (Point E) (ZMod n)} {authSig id : String} {f : Bool → Endpoint E β}
    {post : Option β → World E → Prop} (hnone : post none w)
    (hsome : ∀ data signature, w.db.data.get id = some data → secp.signatureFromStr authSig = some signature →
      wp (Database.handle enclave) post (f (verifies secp signature id data.authXonlyPublicKey)) w) :
    wp (Database.handle enclave) post (validateSignature secp authSig id >>= f) w := by
  rw [wp_bind]
  intro e
  refine wp_read ?_ ?_
  · exact hnone
  intro key hkey
  obtain ⟨data, hdata, rfl⟩ := Option.map_eq_some_iff.mp hkey
  cases hs : secp.signatureFromStr authSig with
  | none => exact hnone
  | some signature => exact hsome data signature hdata hs

/-- A write that fails leaves the world as it is; one whose commit is not confirmed cuts the
program short. -/
theorem wp_unwrap_write {fault : DbFault} {result : Option (Db (Point E))} {post : Option Unit → World E → Prop}
    (hnone : post none w)
    (hsome : ∀ db, result = some db → post none { w with db := db } ∧ post (some ()) { w with db := db }) :
    wp (Database.handle enclave) post (Prog.unwrap (write fault w result).1) (write fault w result).2 := by
  cases result with
  | none => cases fault <;> exact hnone
  | some db =>
    cases fault with
    | ok => exact (hsome db rfl).2
    | failed text => exact hnone
    | lost text => exact (hsome db rfl).1

theorem wp_write {fault : DbFault} {result : Option (Db (Point E))} {f : Unit → Endpoint E β}
    {post : Option β → World E → Prop} (hnone : post none w)
    (hsome : ∀ db, result = some db →
      post none { w with db := db } ∧ wp (Database.handle enclave) post (f ()) { w with db := db }) :
    wp (Database.handle enclave) post (Prog.unwrap (write fault w result).1 >>= f) (write fault w result).2 := by
  rw [wp_bind]
  exact wp_unwrap_write hnone hsome

end Reads

section Calls

variable {α : Type}

def ReadCall (c : Call E) : Prop := ∀ choice w, (Database.handle enclave choice c w).2 = w

/-- The program changes nothing, whatever it is told. -/
def Reads (p : Endpoint E α) : Prop := p.Only (ReadCall enclave)

variable {enclave batchTimeout}

omit [DecidableEq E] in
theorem read_world (fault : DbFault) (w : World E) (result : Option α) : (Database.read fault w result).2 = w := by
  cases fault <;> rfl

theorem Reads.bind {β : Type} {p : Endpoint E α} {f : α → Endpoint E β} (hp : Reads enclave p)
    (hf : ∀ a, Reads enclave (f a)) : Reads enclave (p >>= f) :=
  Prog.Only.bind hp hf

theorem reads_isBatchExpired (batchTime : ℕ) :
    Reads enclave (isBatchExpired batchTimeout batchTime : Endpoint E Bool) :=
  ⟨fun _ _ => rfl, fun _ => trivial⟩

theorem reads_isAllCoinsUnlocked (batchId : String) : Reads enclave (isAllCoinsUnlocked batchId : Endpoint E Bool) :=
  ⟨fun _ _ => read_world _ _ _, Prog.only_unwrap⟩

theorem reads_getBatchIdAndTimeByStatechainId (id : String) :
    Reads enclave (getBatchIdAndTimeByStatechainId id : Endpoint E _) :=
  ⟨fun _ _ => read_world _ _ _, Prog.only_unwrap⟩

theorem reads_getBatchTimeByBatchId (batchId : String) :
    Reads enclave (getBatchTimeByBatchId batchId : Endpoint E _) := by
  have hread : Reads enclave (.call (.getBatchTimeByBatchId batchId) Prog.unwrap : Endpoint E (Option (Option ℕ))) :=
    ⟨fun _ _ => read_world _ _ _, Prog.only_unwrap⟩
  refine hread.bind (fun time => ?_)
  cases time with
  | none => trivial
  | some time => exact Reads.bind (Prog.only_unwrap time) (fun _ => trivial)

theorem reads_validateBatch (id : String) : Reads enclave (validateBatch batchTimeout id : Endpoint E _) := by
  refine (reads_getBatchIdAndTimeByStatechainId id).bind (fun batch => ?_)
  cases batch with
  | none => trivial
  | some batch =>
    refine (reads_isBatchExpired batch.2).bind (fun isExpired => ?_)
    cases isExpired with
    | true => trivial
    | false =>
      refine (reads_isAllCoinsUnlocked batch.1).bind (fun unlocked => ?_)
      cases unlocked <;> trivial

theorem reads_validateBatchTransfer (id : String) (newBatchId : Option String) :
    Reads enclave (validateBatchTransfer batchTimeout id newBatchId : Endpoint E _) := by
  refine (reads_getBatchIdAndTimeByStatechainId id).bind (fun batch => ?_)
  cases batch with
  | some batch =>
    refine (reads_isBatchExpired batch.2).bind (fun isExpired => ?_)
    cases isExpired with
    | true =>
      simp only [if_true]
      split_ifs <;> trivial
    | false =>
      refine (reads_isAllCoinsUnlocked batch.1).bind (fun unlocked => ?_)
      cases unlocked <;> trivial
  | none =>
    cases newBatchId with
    | none => trivial
    | some newBatchId =>
      refine (reads_getBatchTimeByBatchId newBatchId).bind (fun batchTime => ?_)
      cases batchTime with
      | none => trivial
      | some batchTime =>
        refine (reads_isBatchExpired batchTime).bind (fun isExpired => ?_)
        cases isExpired <;> trivial

end Calls

section Seven

open Musig.Session

/-- An environment without faults and with the secret 1. -/
def steady : Choice 7 := calm ⟨1, one_ne_zero_seven⟩

def depositCoin : Event 7 (ZMod 7) := .request (.deposit (seven.x 2) "coin" 0) (fun _ => steady)

def depositedCoin : World (ZMod 7) := step sevenKeyring 10 (init 1) depositCoin

end Seven

end MercuryLayer.Server.System
