import MercuryLayer.Server.Unlock

namespace MercuryLayer.Server.Ownership

open Crates Library.Programs Library.Runs Library.Tables Library.XOnlyCurve Lockbox.Enclave Lockbox.Server
open Musig.Session Receiver Server.Database Server.System Server.Transfer Server.Unlock

variable {n : ℕ} {E : Type} [AddCommGroup E] [Module (ZMod n) E] [DecidableEq E]

inductive TransferRequest
  | sender (payload : TransferSenderRequestPayload)
  | receiver (payload : TransferReceiverRequestPayload)
deriving DecidableEq

namespace TransferRequest

def statechainId : TransferRequest → String
  | sender payload => payload.statechainId
  | receiver payload => payload.statechainId

def authSig : TransferRequest → String
  | sender payload => payload.authSig
  | receiver payload => payload.authSig

end TransferRequest

/-- A call with the request that makes it and the number of calls that this request made
before. -/
abbrev TaggedCall (E : Type) [AddCommGroup E] : Type := TransferRequest × ℕ × Call E

abbrev Thread (E : Type) [AddCommGroup E] : Type := Prog (TaggedCall E) (fun c => Reply c.2.2) Answer

/-- A change of the stored key: the row that was completed, and the signature of the request
that wrote the row with the key that was stored when it did. -/
structure KeyChange (E : Type) [AddCommGroup E] where
  old : Option Bytes
  new : Option Bytes
  row : Option (StatechainTransfer (Point E))
  writer : Option (String × Option Bytes)

structure Store (E : Type) [AddCommGroup E] where
  world : World E
  writer : Option (String × Option Bytes)
  changes : List (KeyChange E)

abbrev Interleaving (E : Type) [AddCommGroup E] : Type :=
  Config (TaggedCall E) (fun c => Reply c.2.2) Answer (Store E)

def inserts : Call E → Bool
  | .insertNewTransfer _ _ _ _ => true
  | _ => false

def updates : Call E → Bool
  | .updateStatechain _ _ _ => true
  | _ => false

variable (enclave : Keyring n E) (batchTimeout : ℕ) (id : String)

def storedKey (w : World E) : Option Bytes := (w.db.data.get id).map StatechainData.authXonlyPublicKey

def nextWriter (choice : Choice n) (c : TaggedCall E) (s : Store E) : Option (String × Option Bytes) :=
  if inserts c.2.2 && carriedOut choice.fault then some (c.1.authSig, storedKey id s.world) else s.writer

def newChanges (s : Store E) (w' : World E) : List (KeyChange E) :=
  if storedKey id w' = storedKey id s.world then []
  else [⟨storedKey id s.world, storedKey id w', s.world.db.transfers.get id, s.writer⟩]

def handle (choice : Choice n) (c : TaggedCall E) (s : Store E) : Reply c.2.2 × Store E :=
  let result := Database.handle enclave choice c.2.2 s.world
  (result.1, ⟨result.2, nextWriter id choice c s, newChanges id s result.2 ++ s.changes⟩)

abbrev CoinRequest : Type := { request : TransferRequest // request.statechainId = id }

def endpoint : TransferRequest → Endpoint E Answer
  | .sender payload => transferSender enclave.params.secp batchTimeout payload
  | .receiver payload => transferReceiver enclave.params.secp batchTimeout payload

def program (request : CoinRequest id) : Thread E :=
  Prog.tag request.1 (endpoint enclave batchTimeout request.1) 0

inductive Event (n : ℕ) (id : String)
  | thread (event : Library.Programs.Event (CoinRequest id) (Choice n))
  | tick (elapsed : ℕ)

/-- Requests of senders and receivers of one coin run side by side, call by call. -/
def step (cfg : Interleaving E) : Event n id → Interleaving E
  | .thread event => cfg.step (program enclave batchTimeout id) (handle enclave id) event
  | .tick elapsed =>
    { cfg with store := { cfg.store with world := { cfg.store.world with now := cfg.store.world.now + elapsed } } }

def init (w : World E) : Interleaving E := ⟨⟨w, none, []⟩, []⟩

/-- The new owner is the recipient of the row, and the row was written for a request with a
signature of the old owner, who was the owner at that time. -/
def Authorised (secp : Secp (Point E) (ZMod n)) (change : KeyChange E) : Prop :=
  ∃ row old authSig, change.row = some row ∧ change.new = some (secp.xOnly row.newUserAuthPublicKey) ∧
    change.old = some old ∧ change.writer = some (authSig, some old) ∧ SignedBy secp authSig id old

/-- The calls of a receiver's request that has read the row. -/
def completing : Call E → Bool
  | .isKeyAlreadyUpdated _ | .getEnclaveIndex _ | .lockbox _ _ | .updateStatechain _ _ _ => true
  | _ => false

/-- The calls of a sender's request that has read the key. -/
def sending (c : TaggedCall E) : Bool :=
  match c.1 with
  | .sender _ => 0 < c.2.1
  | .receiver _ => false

/-- A row is written only while no receiver is between reading the row and the update, and the
key is updated only while no sender is between reading the key and writing the row. -/
def Exclusive (cfg : Interleaving E) : Event n id → Prop
  | .thread (.advance i _) => ∀ p ∈ cfg.threads[i]?, ∀ c ∈ p.next?,
    (inserts c.2.2 = true → ∀ q ∈ cfg.threads, ∀ d ∈ q.next?, completing d.2.2 = false) ∧
    (updates c.2.2 = true → ∀ q ∈ cfg.threads, ∀ d ∈ q.next?, sending d = false)
  | _ => True

instance (cfg : Interleaving E) (event : Event n id) : Decidable (Exclusive id cfg event) :=
  match event with
  | .thread (.start _) => isTrue trivial
  | .thread (.advance i _) =>
    inferInstanceAs (Decidable (∀ p ∈ cfg.threads[i]?, ∀ c ∈ p.next?,
      (inserts c.2.2 = true → ∀ q ∈ cfg.threads, ∀ d ∈ q.next?, completing d.2.2 = false) ∧
      (updates c.2.2 = true → ∀ q ∈ cfg.threads, ∀ d ∈ q.next?, sending d = false)))
  | .thread (.stop _) => isTrue trivial
  | .tick _ => isTrue trivial

/-- A call of a request that has the owner's signature. -/
def SendCall (c : Call E) : Prop :=
  ReadCall enclave c ∨ ∃ newUserAuthKey x1 batch, c = .insertNewTransfer newUserAuthKey x1 id batch

/-- A call of a request that will make `authKey` the owner. -/
def FinishCall (authKey : Bytes) (c : Call E) : Prop :=
  ReadCall enclave c ∨ (∃ index request, c = .lockbox index request) ∨ ∃ key, c = .updateStatechain authKey key id

/-- What a request does that has read the row. -/
inductive Finishing (authKey : Bytes) : Endpoint E Answer → Prop
  | rest {q : Endpoint E Answer} (h : Reads enclave q) : Finishing authKey q
  | call (c : Call E) (next : Reply c → Endpoint E Answer) (hcompleting : completing c = true)
      (hcall : FinishCall enclave id authKey c) (hnext : ∀ r, Finishing authKey (next r)) :
      Finishing authKey (.call c next)

/-- What a receiver's request does after the test of the batch. -/
def Opens (f : BatchValidationResult → Endpoint E Answer) : Prop :=
  ∀ result, (∃ answer, f result = .ret answer) ∨ ∃ g, f result = getAuthPubkeyAndX1 id >>= g ∧
    ∀ row, Finishing enclave id (enclave.params.secp.xOnly row.1) (g row)

/-- How far a request has come, and what it has read is still so. -/
inductive Stage (s : Store E) : Thread E → Prop
  | ended (p : Thread E) (h : p.next? = none) : Stage s p
  | arriving (payload : TransferSenderRequestPayload) (f : Bool → Endpoint E Answer) (answer : Answer)
      (hrefused : f false = .ret answer) (hsends : (f true).Only (SendCall enclave id)) :
      Stage s (Prog.tag (.sender payload) (validateSignature enclave.params.secp payload.authSig id >>= f) 0)
  | sending (payload : TransferSenderRequestPayload) (k : ℕ) (q : Endpoint E Answer) (key : Bytes)
      (hq : q.Only (SendCall enclave id)) (hkey : storedKey id s.world = some key)
      (hsigned : SignedBy enclave.params.secp payload.authSig id key) :
      Stage s (Prog.tag (.sender payload) q (k + 1))
  | waiting (payload : TransferReceiverRequestPayload) (k : ℕ) (p : Endpoint E BatchValidationResult)
      (f : BatchValidationResult → Endpoint E Answer) (hp : Reads enclave p) (hf : Opens enclave id f) :
      Stage s (Prog.tag (.receiver payload) (p >>= f) k)
  | finishing (payload : TransferReceiverRequestPayload) (k : ℕ) (q : Endpoint E Answer)
      (row : StatechainTransfer (Point E)) (hrow : s.world.db.transfers.get id = some row)
      (hq : Finishing enclave id (enclave.params.secp.xOnly row.newUserAuthPublicKey) q) :
      Stage s (Prog.tag (.receiver payload) q k)
  | reading (payload : TransferReceiverRequestPayload) (k : ℕ) (q : Endpoint E Answer) (hq : Reads enclave q) :
      Stage s (Prog.tag (.receiver payload) q k)

/-- The row in the database: none, one that the owner has written, or one that has been
completed. -/
inductive Coin (s : Store E) : Prop
  | unsent (hrow : s.world.db.transfers.get id = none)
  | sent (row : StatechainTransfer (Point E)) (key : Bytes) (authSig : String)
      (hrow : s.world.db.transfers.get id = some row) (hkey : storedKey id s.world = some key)
      (hwriter : s.writer = some (authSig, some key)) (hsigned : SignedBy enclave.params.secp authSig id key)
  | completed (row : StatechainTransfer (Point E)) (hrow : s.world.db.transfers.get id = some row)
      (hkey : storedKey id s.world = some (enclave.params.secp.xOnly row.newUserAuthPublicKey))

structure Inv (cfg : Interleaving E) : Prop where
  coin : Coin enclave id cfg.store
  threads : ∀ p ∈ cfg.threads, Stage enclave id cfg.store p
  changes : ∀ change ∈ cfg.store.changes, Authorised id enclave.params.secp change

variable {enclave batchTimeout id}

section Programs

theorem inserts_of_readCall {c : Call E} (h : ReadCall enclave c) : inserts c = false := by
  cases c with
  | insertNewTransfer newUserAuthKey x1 id' batch =>
    have hsame := congrArg (fun w => w.db.transfers.rows) (h (calm enclave.params.someSecret) (System.init 0))
    have hrows : (System.init 0 : World E).db.transfers.rows = [] := rfl
    simp [Database.handle, Database.write, calm, Db.insertNewTransfer, Table.replace, hrows] at hsame
  | _ => rfl

theorem handle_of_read {choice : Choice n} {c : TaggedCall E} {s : Store E} (h : ReadCall enclave c.2.2) :
    handle enclave id choice c s = ((Database.handle enclave choice c.2.2 s.world).1, s) := by
  simp only [handle, h choice s.world, nextWriter, inserts_of_readCall h, newChanges]
  rfl

theorem only_insertNewTransfer (newUserAuthKey : Point E) (x1 : Bytes) (batchId : Option String) :
    (insertNewTransfer newUserAuthKey x1 id batchId : Endpoint E Unit).Only (SendCall enclave id) := by
  cases batchId with
  | none => exact ⟨.inr ⟨newUserAuthKey, x1, none, rfl⟩, Prog.only_unwrap⟩
  | some batchId =>
    have hlast : ∀ batchTime : ℕ, (do
        let senderAuthKey ← getAuthKeyByStatechainId id
        let isLightningLatch ← isLightningLatch id senderAuthKey batchId
        .call (.insertNewTransfer newUserAuthKey x1 id (some (batchId, batchTime, isLightningLatch)))
          Prog.unwrap : Endpoint E Unit).Only (SendCall enclave id) := by
      intro batchTime
      have hread : (getAuthKeyByStatechainId id : Endpoint E Bytes).Only (SendCall enclave id) :=
        ⟨.inl (fun _ _ => read_world _ _ _), Prog.only_unwrap⟩
      refine hread.bind (fun senderAuthKey => ?_)
      have hlatch : (isLightningLatch id senderAuthKey batchId : Endpoint E Bool).Only (SendCall enclave id) :=
        ⟨.inl (fun _ _ => read_world _ _ _), Prog.only_unwrap⟩
      refine hlatch.bind (fun latched => ?_)
      exact ⟨.inr ⟨newUserAuthKey, x1, _, rfl⟩, Prog.only_unwrap⟩
    refine ((reads_getBatchTimeByBatchId batchId).mono (fun _ h => Or.inl h)).bind (fun batchTime => ?_)
    cases batchTime with
    | some batchTime => exact hlast batchTime
    | none => exact ⟨.inl (fun _ _ => rfl), hlast⟩

variable (enclave batchTimeout) in
/-- A sender's request first checks the signature, and what follows writes at most the row. -/
theorem transferSender_eq (payload : TransferSenderRequestPayload) (hid : payload.statechainId = id) :
    ∃ f answer, transferSender enclave.params.secp batchTimeout payload =
        validateSignature enclave.params.secp payload.authSig id >>= f ∧
      f false = .ret answer ∧ (f true).Only (SendCall enclave id) := by
  subst hid
  refine ⟨_, _, rfl, rfl, ?_⟩
  simp only [if_true]
  refine ((reads_validateBatchTransfer payload.statechainId payload.batchId).mono (fun _ h => Or.inl h)).bind
    (fun result => ?_)
  cases result with
  | statecoinBatchLockedError text => trivial
  | expiredBatchTimeError text => trivial
  | success =>
    refine (Prog.only_unwrap _).bind (fun newUserAuthKey => ?_)
    have hexists : (existsMsgForSameStatechainIdAndNewUserAuthKey newUserAuthKey payload.statechainId
        payload.batchId : Endpoint E Bool).Only (SendCall enclave payload.statechainId) :=
      ⟨.inl (fun _ _ => read_world _ _ _), Prog.only_unwrap⟩
    refine hexists.bind (fun found => ?_)
    cases found with
    | true => trivial
    | false =>
      refine ⟨.inl (fun _ _ => rfl), fun x1 => ?_⟩
      exact (only_insertNewTransfer newUserAuthKey x1 payload.batchId).bind (fun _ => trivial)

theorem finishing_unwrap {authKey : Bytes} {α : Type} {o : Option α} {f : α → Endpoint E Answer}
    (h : ∀ a, Finishing enclave id authKey (f a)) : Finishing enclave id authKey (Prog.unwrap o >>= f) := by
  cases o with
  | none => exact .rest trivial
  | some a => exact h a

variable (enclave) in
theorem finishing_updateKey (payload : TransferReceiverRequestPayload) (hid : payload.statechainId = id)
    (authPubkey x1 : Bytes) :
    Finishing enclave id authPubkey (updateKey enclave.params.secp payload authPubkey x1) := by
  refine .call _ _ rfl (.inl (fun _ _ => read_world _ _ _)) (fun index => finishing_unwrap (fun index => ?_))
  cases index with
  | none => exact .rest trivial
  | some index =>
    refine .call _ _ rfl (.inr (.inl ⟨_, _, rfl⟩)) (fun reply => ?_)
    cases reply with
    | failed text => exact .rest trivial
    | unreadable => exact .rest trivial
    | body body =>
      refine finishing_unwrap (fun serverPubkey => ?_)
      refine .call _ _ rfl (.inr (.inr ⟨serverPubkey, by rw [hid]⟩)) (fun done => finishing_unwrap (fun _ => ?_))
      exact .rest trivial

variable (enclave batchTimeout) in
/-- A receiver's request first tests the batch and then reads the row. -/
theorem transferReceiver_eq (payload : TransferReceiverRequestPayload) (hid : payload.statechainId = id) :
    ∃ f, transferReceiver enclave.params.secp batchTimeout payload = validateBatch batchTimeout id >>= f ∧
      Opens enclave id f := by
  have hupdate := finishing_updateKey enclave payload hid
  subst hid
  refine ⟨_, rfl, fun result => ?_⟩
  cases result with
  | statecoinBatchLockedError text => exact .inl ⟨_, rfl⟩
  | expiredBatchTimeError text => exact .inl ⟨_, rfl⟩
  | success =>
    refine .inr ⟨_, rfl, fun row => finishing_unwrap (fun signature => ?_)⟩
    split_ifs with hverifies
    · refine .call _ _ rfl (.inl (fun _ _ => read_world _ _ _)) (fun updated => finishing_unwrap (fun updated => ?_))
      cases updated with
      | true =>
        refine .rest (Reads.bind ?_ (fun serverPublicKey => trivial))
        exact ⟨fun _ _ => read_world _ _ _, Prog.only_unwrap⟩
      | false => exact hupdate _ _
    · exact .rest trivial

theorem stage_program (s : Store E) (request : CoinRequest id) :
    Stage enclave id s (program enclave batchTimeout id request) := by
  obtain ⟨request, hid⟩ := request
  cases request with
  | sender payload =>
    obtain ⟨f, answer, heq, hrefused, hsends⟩ := transferSender_eq enclave batchTimeout payload hid
    simp only [program, endpoint, heq]
    exact .arriving payload f answer hrefused hsends
  | receiver payload =>
    obtain ⟨f, heq, hopens⟩ := transferReceiver_eq enclave batchTimeout payload hid
    simp only [program, endpoint, heq]
    exact .waiting payload 0 _ f (reads_validateBatch id) hopens

end Programs

section Frame

variable {s s' : Store E} {p : Thread E}

/-- A step that keeps the key and the recipient leaves every request where it is. -/
theorem stage_frame (h : Stage enclave id s p) (hkey : storedKey id s'.world = storedKey id s.world)
    (hrow : ∀ row, s.world.db.transfers.get id = some row → ∃ row', s'.world.db.transfers.get id = some row' ∧
      row'.newUserAuthPublicKey = row.newUserAuthPublicKey) : Stage enclave id s' p := by
  cases h with
  | ended p h => exact .ended p h
  | arriving payload f answer hrefused hsends => exact .arriving payload f answer hrefused hsends
  | sending payload k q key hq hkey' hsigned => exact .sending payload k q key hq (hkey.trans hkey') hsigned
  | waiting payload k p f hp hf => exact .waiting payload k p f hp hf
  | finishing payload k q row hget hq =>
    obtain ⟨row', hget', hsame⟩ := hrow row hget
    rw [← hsame] at hq
    exact .finishing payload k q row' hget' hq
  | reading payload k q hq => exact .reading payload k q hq

/-- A new row concerns no request but those that have read the old one. -/
theorem stage_after_insert (h : Stage enclave id s p) (hkey : storedKey id s'.world = storedKey id s.world)
    (hidle : ∀ d ∈ p.next?, completing d.2.2 = false) : Stage enclave id s' p := by
  cases h with
  | ended p h => exact .ended p h
  | arriving payload f answer hrefused hsends => exact .arriving payload f answer hrefused hsends
  | sending payload k q key hq hkey' hsigned => exact .sending payload k q key hq (hkey.trans hkey') hsigned
  | waiting payload k p f hp hf => exact .waiting payload k p f hp hf
  | reading payload k q hq => exact .reading payload k q hq
  | finishing payload k q row hget hq =>
    cases hq with
    | rest hreads => exact .reading payload k q hreads
    | call c next hcompleting hcall hnext =>
      have hbusy := hidle _ rfl
      rw [hcompleting] at hbusy
      cases hbusy

theorem stage_after_update (h : Stage enclave id s p)
    (hrow : ∀ row, s.world.db.transfers.get id = some row → ∃ row', s'.world.db.transfers.get id = some row' ∧
      row'.newUserAuthPublicKey = row.newUserAuthPublicKey)
    (hidle : ∀ d ∈ p.next?, sending d = false) : Stage enclave id s' p := by
  cases h with
  | ended p h => exact .ended p h
  | arriving payload f answer hrefused hsends => exact .arriving payload f answer hrefused hsends
  | waiting payload k p f hp hf => exact .waiting payload k p f hp hf
  | reading payload k q hq => exact .reading payload k q hq
  | finishing payload k q row hget hq =>
    obtain ⟨row', hget', hsame⟩ := hrow row hget
    rw [← hsame] at hq
    exact .finishing payload k q row' hget' hq
  | sending payload k q key hq hkey' hsigned =>
    cases q with
    | ret answer => exact .ended _ rfl
    | abort => exact .ended _ rfl
    | call c next =>
      have hbusy := hidle _ rfl
      simp [sending] at hbusy

end Frame

section Advance

variable {s : Store E} {choice : Choice n}

variable (enclave id) in
/-- What one call can do to the coin. -/
inductive Effect (s : Store E) (c : TaggedCall E) (s' : Store E) : Prop
  | kept (hkey : storedKey id s'.world = storedKey id s.world)
      (hrow : s'.world.db.transfers.get id = s.world.db.transfers.get id) (hwriter : s'.writer = s.writer)
      (hchanges : s'.changes = s.changes)
  | sent (hinserts : inserts c.2.2 = true) (row : StatechainTransfer (Point E)) (key : Bytes) (authSig : String)
      (hrow : s'.world.db.transfers.get id = some row) (hkey : storedKey id s.world = some key)
      (hkey' : storedKey id s'.world = some key) (hwriter : s'.writer = some (authSig, some key))
      (hsigned : SignedBy enclave.params.secp authSig id key) (hchanges : s'.changes = s.changes)
  | completed (hupdates : updates c.2.2 = true) (row row' : StatechainTransfer (Point E))
      (hrow : s.world.db.transfers.get id = some row) (hrow' : s'.world.db.transfers.get id = some row')
      (hsame : row'.newUserAuthPublicKey = row.newUserAuthPublicKey)
      (hkey' : storedKey id s'.world =
        (storedKey id s.world).map (fun _ => enclave.params.secp.xOnly row.newUserAuthPublicKey))
      (hchanges : s'.changes = newChanges id s s'.world ++ s.changes)

variable (enclave id s) in
/-- After the call the request is at a stage again, and the call had one of the effects. -/
def Advances (choice : Choice n) (c : TaggedCall E) (next : Reply c.2.2 → Thread E) : Prop :=
  Stage enclave id (handle enclave id choice c s).2 (next (handle enclave id choice c s).1) ∧
    Effect enclave id s c (handle enclave id choice c s).2

theorem changes_of_key {c : TaggedCall E}
    (h : storedKey id (handle enclave id choice c s).2.world = storedKey id s.world) :
    (handle enclave id choice c s).2.changes = s.changes := by
  change newChanges id s _ ++ s.changes = s.changes
  rw [newChanges, if_pos]
  · rfl
  · exact h

theorem advances_read {c : TaggedCall E} {next : Reply c.2.2 → Thread E} (hc : ReadCall enclave c.2.2)
    (hnext : Stage enclave id s (next (Database.handle enclave choice c.2.2 s.world).1)) :
    Advances enclave id s choice c next := by
  rw [Advances, handle_of_read hc]
  exact ⟨hnext, .kept rfl rfl rfl rfl⟩

theorem advances_arriving {payload : TransferSenderRequestPayload} {f : Bool → Endpoint E Answer} {answer : Answer}
    (hrefused : f false = .ret answer) (hsends : (f true).Only (SendCall enclave id)) :
    Advances enclave id s choice (.sender payload, 0, .getAuthKeyByStatechainId id) (fun authKey =>
      Prog.tag (.sender payload) ((do
        let authKey ← Prog.unwrap authKey
        let signedMessage ← Prog.unwrap (enclave.params.secp.signatureFromStr payload.authSig)
        return verifies enclave.params.secp signedMessage id authKey) >>= f) 1) := by
  refine advances_read (fun _ _ => read_world _ _ _) ?_
  cases hread : (Database.handle enclave choice (.getAuthKeyByStatechainId id) s.world).1 with
  | none => exact .ended _ rfl
  | some key =>
    have hkey : storedKey id s.world = some key := by
      simp only [Database.handle] at hread
      cases hfault : choice.fault with
      | ok =>
        rw [hfault] at hread
        exact hread
      | failed text =>
        rw [hfault] at hread
        cases hread
      | lost text =>
        rw [hfault] at hread
        cases hread
    cases hsig : enclave.params.secp.signatureFromStr payload.authSig with
    | none => exact .ended _ rfl
    | some signature =>
      simp only [Prog.unwrap, Prog.ret_bind, Prog.pure_eq]
      cases hv : verifies enclave.params.secp signature id key with
      | false =>
        rw [hrefused]
        exact .ended _ rfl
      | true => exact .sending payload 0 _ key hsends hkey ⟨signature, hsig, hv⟩

theorem advances_sending {payload : TransferSenderRequestPayload} {k : ℕ} {c : Call E}
    {next : Reply c → Endpoint E Answer} {key : Bytes} (hc : SendCall enclave id c)
    (hnext : ∀ r, (next r).Only (SendCall enclave id)) (hkey : storedKey id s.world = some key)
    (hsigned : SignedBy enclave.params.secp payload.authSig id key) :
    Advances enclave id s choice (.sender payload, k + 1, c)
      (fun r => Prog.tag (.sender payload) (next r) (k + 1 + 1)) := by
  obtain hread | ⟨newUserAuthKey, x1, batch, rfl⟩ := hc
  · exact advances_read hread (.sending payload (k + 1) _ key (hnext _) hkey hsigned)
  · have hkey' : storedKey id (handle enclave id choice
        (.sender payload, k + 1, .insertNewTransfer newUserAuthKey x1 id batch) s).2.world = some key := by
      rw [← hkey]
      simp only [handle, Database.handle, Database.write]
      cases choice.fault <;> rfl
    refine ⟨.sending payload (k + 1) _ key (hnext _) hkey' hsigned, ?_⟩
    have hchanges : (handle enclave id choice
        (.sender payload, k + 1, .insertNewTransfer newUserAuthKey x1 id batch) s).2.changes = s.changes :=
      changes_of_key (hkey'.trans hkey.symm)
    by_cases hdone : carriedOut choice.fault = true
    · refine .sent rfl (Db.newTransfer id s.world.now newUserAuthKey x1 batch) key payload.authSig ?_ hkey hkey' ?_
        hsigned hchanges
      · simp only [handle, Database.handle, Database.write]
        cases hfault : choice.fault with
        | ok => exact Table.get_replace_self
        | lost text => exact Table.get_replace_self
        | failed text => simp [hfault, carriedOut] at hdone
      · simp only [handle, nextWriter, inserts, hdone, Bool.and_self, if_true, hkey, TransferRequest.authSig]
    · refine .kept (hkey'.trans hkey.symm) ?_ ?_ hchanges
      · simp only [handle, Database.handle, Database.write]
        cases hfault : choice.fault with
        | ok => simp [hfault, carriedOut] at hdone
        | lost text => simp [hfault, carriedOut] at hdone
        | failed text => rfl
      · simp only [handle, nextWriter, hdone, Bool.and_false, Bool.false_eq_true, if_false]

theorem advances_row {payload : TransferReceiverRequestPayload} {k : ℕ} {g : Point E × Bytes → Endpoint E Answer}
    (hg : ∀ row, Finishing enclave id (enclave.params.secp.xOnly row.1) (g row)) :
    Advances enclave id s choice (.receiver payload, k, .getAuthPubkeyAndX1 id)
      (fun row => Prog.tag (.receiver payload) (Prog.unwrap row >>= g) (k + 1)) := by
  refine advances_read (fun _ _ => read_world _ _ _) ?_
  cases hread : (Database.handle enclave choice (.getAuthPubkeyAndX1 id) s.world).1 with
  | none => exact .ended _ rfl
  | some authPubkeyX1 =>
    simp only [Database.handle] at hread
    cases hfault : choice.fault with
    | ok =>
      rw [hfault] at hread
      obtain ⟨row, hrow, rfl⟩ := Option.map_eq_some_iff.mp hread
      exact .finishing payload (k + 1) _ row hrow (hg (row.newUserAuthPublicKey, row.x1))
    | failed text =>
      rw [hfault] at hread
      cases hread
    | lost text =>
      rw [hfault] at hread
      cases hread

theorem callLockbox_db (choice : Choice n) (w : World E) (index : ℕ) (request : Request) :
    (callLockbox enclave choice w index request).2.db = w.db := by
  simp only [callLockbox]
  split <;> rfl

/-- The row that the request read is still the one that it completes. -/
theorem advances_finishing {payload : TransferReceiverRequestPayload} {k : ℕ} {c : Call E}
    {next : Reply c → Endpoint E Answer} {row : StatechainTransfer (Point E)}
    (hrow : s.world.db.transfers.get id = some row)
    (hc : FinishCall enclave id (enclave.params.secp.xOnly row.newUserAuthPublicKey) c)
    (hnext : ∀ r, Finishing enclave id (enclave.params.secp.xOnly row.newUserAuthPublicKey) (next r)) :
    Advances enclave id s choice (.receiver payload, k, c)
      (fun r => Prog.tag (.receiver payload) (next r) (k + 1)) := by
  obtain hread | ⟨index, request, rfl⟩ | ⟨key, rfl⟩ := hc
  · exact advances_read hread (.finishing payload (k + 1) _ row hrow (hnext _))
  · have hdb : (handle enclave id choice (.receiver payload, k, .lockbox index request) s).2.world.db = s.world.db :=
      callLockbox_db choice s.world index request
    have hkey : storedKey id (handle enclave id choice (.receiver payload, k, .lockbox index request) s).2.world =
        storedKey id s.world := by
      rw [storedKey, hdb, storedKey]
    refine ⟨.finishing payload (k + 1) _ row (by rw [hdb, hrow]) (hnext _), .kept hkey (by rw [hdb]) rfl ?_⟩
    exact changes_of_key hkey
  · have hkept : ∀ w', w' = s.world →
        (Database.handle enclave choice (.updateStatechain (enclave.params.secp.xOnly row.newUserAuthPublicKey) key id)
          s.world).2 = w' →
        Advances enclave id s choice
          (.receiver payload, k, .updateStatechain (enclave.params.secp.xOnly row.newUserAuthPublicKey) key id)
          (fun r => Prog.tag (.receiver payload) (next r) (k + 1)) := by
      intro w' hw' hsame
      rw [hw'] at hsame
      have hstore : (handle enclave id choice (.receiver payload, k,
          .updateStatechain (enclave.params.secp.xOnly row.newUserAuthPublicKey) key id) s).2 = s := by
        simp only [handle, hsame, nextWriter, inserts, newChanges]
        rfl
      refine ⟨?_, ?_⟩
      · rw [hstore]
        exact .finishing payload (k + 1) _ row hrow (hnext _)
      · rw [hstore]
        exact .kept rfl rfl rfl rfl
    cases hresult : s.world.db.updateStatechain id (enclave.params.secp.xOnly row.newUserAuthPublicKey) key with
    | none =>
      refine hkept _ rfl ?_
      simp only [Database.handle, hresult, Database.write]
      cases choice.fault <;> rfl
    | some db =>
      by_cases hdone : carriedOut choice.fault = true
      · have hworld : (Database.handle enclave choice
            (.updateStatechain (enclave.params.secp.xOnly row.newUserAuthPublicKey) key id) s.world).2 =
              { s.world with db := db } := by
          simp only [Database.handle, hresult, Database.write]
          cases hfault : choice.fault with
          | ok => rfl
          | lost text => rfl
          | failed text => simp [hfault, carriedOut] at hdone
        have hrow' : db.transfers.get id = some { row with keyUpdated := true } := by
          rw [Db.updateStatechain_transfers hresult, Table.get_modify_self, hrow]
          rfl
        refine ⟨?_, ?_⟩
        · have hget : (handle enclave id choice (.receiver payload, k,
              .updateStatechain (enclave.params.secp.xOnly row.newUserAuthPublicKey) key id) s).2.world.db.transfers.get
                id = some { row with keyUpdated := true } := by
            simp only [handle, hworld]
            exact hrow'
          exact .finishing payload (k + 1) _ { row with keyUpdated := true } hget (hnext _)
        · refine .completed rfl row { row with keyUpdated := true } hrow ?_ rfl ?_ rfl
          · simp only [handle, hworld]
            exact hrow'
          · simp only [handle, hworld, storedKey]
            rw [Db.updateStatechain_data hresult, Table.get_modify_self, Option.map_map, Option.map_map]
            rfl
      · refine hkept _ rfl ?_
        simp only [Database.handle, hresult, Database.write]
        cases hfault : choice.fault with
        | ok => simp [hfault, carriedOut] at hdone
        | lost text => simp [hfault, carriedOut] at hdone
        | failed text => rfl

theorem stage_advance {c : TaggedCall E} {next : Reply c.2.2 → Thread E} (h : Stage enclave id s (.call c next)) :
    Advances enclave id s choice c next := by
  generalize hq : (.call c next : Thread E) = thread at h
  cases h with
  | ended p hnone =>
    rw [← hq] at hnone
    cases hnone
  | arriving payload f answer hrefused hsends =>
    cases hq
    exact advances_arriving hrefused hsends
  | sending payload k q key hq' hkey hsigned =>
    cases q with
    | ret answer => cases hq
    | abort => cases hq
    | call c' next' =>
      cases hq
      exact advances_sending hq'.1 hq'.2 hkey hsigned
  | waiting payload k p f hp hf =>
    cases p with
    | abort => cases hq
    | call c' next' =>
      cases hq
      exact advances_read hp.1 (.waiting payload (k + 1) _ f (hp.2 _) hf)
    | ret result =>
      change _ = Prog.tag _ (f result) k at hq
      obtain ⟨answer, hanswer⟩ | ⟨g, hg, hfinishing⟩ := hf result
      · rw [hanswer] at hq
        cases hq
      · rw [hg] at hq
        cases hq
        exact advances_row hfinishing
  | reading payload k q hq' =>
    cases q with
    | ret answer => cases hq
    | abort => cases hq
    | call c' next' =>
      cases hq
      exact advances_read hq'.1 (.reading payload (k + 1) _ (hq'.2 _))
  | finishing payload k q row hrow hq' =>
    cases hq' with
    | rest hreads =>
      cases q with
      | ret answer => cases hq
      | abort => cases hq
      | call c' next' =>
        cases hq
        exact advances_read hreads.1 (.reading payload (k + 1) _ (hreads.2 _))
    | call c' next' hcompleting hcall hnext =>
      cases hq
      exact advances_finishing hrow hcall hnext

end Advance

section Run

variable {cfg : Interleaving E}

theorem coin_of_effect {s s' : Store E} {c : TaggedCall E} (hcoin : Coin enclave id s) (h : Effect enclave id s c s') :
    Coin enclave id s' := by
  cases h with
  | kept hkey hrow hwriter hchanges =>
    cases hcoin with
    | unsent hnone => exact .unsent (hrow.trans hnone)
    | sent row key authSig hget hkey' hwriter' hsigned =>
      exact .sent row key authSig (hrow.trans hget) (hkey.trans hkey') (hwriter.trans hwriter') hsigned
    | completed row hget hkey' => exact .completed row (hrow.trans hget) (hkey.trans hkey')
  | sent hinserts row key authSig hrow hkey hkey' hwriter hsigned hchanges =>
    exact .sent row key authSig hrow hkey' hwriter hsigned
  | completed hupdates row row' hrow hrow' hsame hkey' hchanges =>
    refine .completed row' hrow' ?_
    rw [hkey', hsame]
    cases hcoin with
    | unsent hnone =>
      rw [hrow] at hnone
      cases hnone
    | sent row0 key authSig hget hkey hwriter hsigned => rw [hkey, Option.map_some]
    | completed row0 hget hkey => rw [hkey, Option.map_some]

/-- A key that changes was written for by the owner; a row that is completed a second time does
not change it. -/
theorem changes_of_effect {s s' : Store E} {c : TaggedCall E} (hcoin : Coin enclave id s)
    (h : Effect enclave id s c s') (hold : ∀ change ∈ s.changes, Authorised id enclave.params.secp change) :
    ∀ change ∈ s'.changes, Authorised id enclave.params.secp change := by
  cases h with
  | kept hkey hrow hwriter hchanges =>
    rw [hchanges]
    exact hold
  | sent hinserts row key authSig hrow hkey hkey' hwriter hsigned hchanges =>
    rw [hchanges]
    exact hold
  | completed hupdates row row' hrow hrow' hsame hkey' hchanges =>
    rw [hchanges]
    intro change hchange
    obtain hnew | hbefore := List.mem_append.mp hchange
    · rw [newChanges] at hnew
      split_ifs at hnew with hkept
      · cases hnew
      · rw [List.mem_singleton] at hnew
        cases hcoin with
        | unsent hnone =>
          rw [hrow] at hnone
          cases hnone
        | completed row0 hget hkey =>
          rw [hrow, Option.some.injEq] at hget
          subst hget
          rw [hkey', hkey] at hkept
          exact absurd rfl hkept
        | sent row0 key authSig hget hkey hwriter hsigned =>
          refine ⟨row, key, authSig, ?_, ?_, ?_, ?_, hsigned⟩
          · rw [hnew, hrow]
          · rw [hnew, hkey', hkey, Option.map_some]
          · rw [hnew, hkey]
          · rw [hnew, hwriter]
    · exact hold change hbefore

/-- The guard keeps the call away from what the other requests rely on. -/
theorem stage_of_effect {s s' : Store E} {c : TaggedCall E} {q : Thread E} (hq : Stage enclave id s q)
    (h : Effect enclave id s c s')
    (hinserts : inserts c.2.2 = true → ∀ d ∈ q.next?, completing d.2.2 = false)
    (hupdates : updates c.2.2 = true → ∀ d ∈ q.next?, sending d = false) : Stage enclave id s' q := by
  cases h with
  | kept hkey hrow hwriter hchanges =>
    refine stage_frame hq hkey (fun row hget => ⟨row, hrow.trans hget, rfl⟩)
  | sent hins row key authSig hrow hkey hkey' hwriter hsigned hchanges =>
    exact stage_after_insert hq (hkey'.trans hkey.symm) (hinserts hins)
  | completed hupd row row' hrow hrow' hsame hkey' hchanges =>
    refine stage_after_update hq (fun row0 hget => ?_) (hupdates hupd)
    rw [hrow, Option.some.injEq] at hget
    subst hget
    exact ⟨row', hrow', hsame⟩

theorem inv_advance (j : ℕ) (choice : Choice n) (h : Inv enclave id cfg)
    (hguard : Exclusive id cfg (.thread (.advance j choice))) :
    Inv enclave id (step enclave batchTimeout id cfg (.thread (.advance j choice))) := by
  obtain hsame | ⟨c, next, hj, hstep⟩ :=
    step_advance_cases (program enclave batchTimeout id) (handle enclave id) cfg j choice
  · rw [step, hsame]
    exact h
  rw [step, hstep]
  obtain ⟨hinserts, hupdates⟩ := hguard _ hj c rfl
  have hadvances : Advances enclave id cfg.store choice c next :=
    stage_advance (h.threads _ (List.mem_of_getElem? hj))
  refine ⟨coin_of_effect h.coin hadvances.2, fun q hq => ?_, changes_of_effect h.coin hadvances.2 h.changes⟩
  obtain hold | rfl := List.mem_or_eq_of_mem_set hq
  · exact stage_of_effect (h.threads q hold) hadvances.2 (fun hi => hinserts hi q hold)
      (fun hu => hupdates hu q hold)
  · exact hadvances.1

theorem inv_step (cfg : Interleaving E) (event : Event n id) (h : Inv enclave id cfg)
    (hguard : Exclusive id cfg event) : Inv enclave id (step enclave batchTimeout id cfg event) := by
  cases event with
  | tick elapsed =>
    refine ⟨?_, fun q hq => ?_, h.changes⟩
    · cases h.coin with
      | unsent hrow => exact .unsent hrow
      | sent row key authSig hrow hkey hwriter hsigned => exact .sent row key authSig hrow hkey hwriter hsigned
      | completed row hrow hkey => exact .completed row hrow hkey
    · exact stage_frame (h.threads q hq) rfl (fun row hrow => ⟨row, hrow, rfl⟩)
  | thread event =>
    cases event with
    | advance j choice => exact inv_advance j choice h hguard
    | start request =>
      refine ⟨h.coin, fun q hq => ?_, h.changes⟩
      obtain hold | hnew := List.mem_append.mp hq
      · exact h.threads q hold
      · rw [List.mem_singleton.mp hnew]
        exact stage_program cfg.store request
    | stop j =>
      refine ⟨h.coin, fun q hq => ?_, h.changes⟩
      obtain hold | rfl := List.mem_or_eq_of_mem_set hq
      · exact h.threads q hold
      · exact .ended _ rfl

theorem inv_init {w : World E} (h : w.db.transfers.get id = none) : Inv enclave id (init w) where
  coin := .unsent h
  threads := fun _ hq => nomatch hq
  changes := fun _ hchange => nomatch hchange

end Run

section Seven

def sends (owner : ZMod 7) (recipient : Point (ZMod 7)) : Event 7 "coin" :=
  .thread (.start ⟨.sender ⟨"coin", sevenSignature owner, seven.secp.publicKeyToStr recipient, none⟩, rfl⟩)

def receives (owner : ZMod 7) : Event 7 "coin" :=
  .thread (.start ⟨.receiver ⟨"coin", none, Hex.encode (b32 3), sevenSignature owner⟩, rfl⟩)

/-- Whatever requests of senders and receivers run side by side: if rows are not written under
receivers and keys not updated under senders, every change of the owner was signed by the owner. -/
theorem ownership_authorised_of_exclusive {w : World E} (hfresh : w.db.transfers.get id = none)
    {events : List (Event n id)}
    (h : Guarded (step enclave batchTimeout id) (Exclusive id) (init w) events) :
    ∀ change ∈ (run (step enclave batchTimeout id) (init w) events).store.changes,
      Authorised id enclave.params.secp change :=
  (invariant_run inv_step (inv_init hfresh) h).changes

def handedOver : List (Event 7 "coin") :=
  [sends 2 (seven.publicKey 3), receives 3] ++ advances .thread 0 10 steady ++ advances .thread 1 10 steady

theorem ownership_authorised_of_exclusive_seven :
    (run (step sevenKeyring 10 "coin") (init depositedCoin) handedOver).store.changes.length = 1 ∧
    ∀ change ∈ (run (step sevenKeyring 10 "coin") (init depositedCoin) handedOver).store.changes,
      Authorised "coin" seven.secp change :=
  ⟨by decide +kernel, ownership_authorised_of_exclusive (by decide +kernel) (by decide +kernel)⟩

/-- The second request of the owner with key 2 has its signature checked before the coin goes to
key 3, and writes its row after that. -/
def overtaken : List (Event 7 "coin") :=
  [sends 2 (seven.publicKey 1)] ++ advances .thread 0 1 steady ++
    [sends 2 (seven.publicKey 3), receives 3] ++ advances .thread 1 10 steady ++ advances .thread 2 10 steady ++
    advances .thread 0 10 steady ++ [receives 1] ++ advances .thread 3 10 steady

theorem former_owner_sends :
    ¬∀ change ∈ (run (step sevenKeyring 10 "coin") (init depositedCoin) overtaken).store.changes,
      Authorised "coin" seven.secp change := by
  have hchange : ∃ change ∈ (run (step sevenKeyring 10 "coin") (init depositedCoin) overtaken).store.changes,
      change.old = some (seven.x 3) ∧ change.writer = some (sevenSignature 2, some (seven.x 3)) ∧
      ¬SignedBy seven.secp (sevenSignature 2) "coin" (seven.x 3) := by decide +kernel
  intro h
  obtain ⟨change, hmem, hold, hwriter, hforged⟩ := hchange
  obtain ⟨row, old, authSig, hrow, hnew, hold', hwriter', hsigned⟩ := h change hmem
  rw [hold, Option.some.injEq] at hold'
  rw [hwriter, Option.some.injEq, Prod.mk.injEq] at hwriter'
  obtain ⟨rfl, -⟩ := hwriter'
  subst hold'
  exact hforged hsigned

end Seven

end MercuryLayer.Server.Ownership
