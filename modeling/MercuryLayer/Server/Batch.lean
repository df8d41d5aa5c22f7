import MercuryLayer.Server.Effects

namespace MercuryLayer.Server.Batch

open Crates Library.Programs Library.Runs Library.Tables Library.XOnlyCurve Lockbox.Enclave Lockbox.Server
open Musig.Session Receiver Sender Server.Database Server.Effects Server.System Server.Transfer Server.Unlock

variable {n : ℕ} {E : Type} [AddCommGroup E] [Module (ZMod n) E] [DecidableEq E]
variable (enclave : Keyring n E) (batchTimeout : ℕ)

/-- The server with the batches of which a coin has had its key updated. -/
structure State (E : Type) [AddCommGroup E] where
  world : World E
  started : List String

/-- The batches of the rows whose key was updated between the two worlds. -/
def newlyStarted (w w' : World E) : List String :=
  w.db.transfers.rows.filterMap (fun row =>
    if !row.keyUpdated && (w'.db.transfers.get row.statechainId).any StatechainTransfer.keyUpdated then row.batchId
    else none)

def step (s : State E) (event : Event n E) : State E :=
  let w' := System.step enclave batchTimeout s.world event
  ⟨w', newlyStarted s.world w' ++ s.started⟩

def init (enclaves : ℕ) : State E := ⟨System.init enclaves, []⟩

/-- A coin of a started batch that still waits for its key update. -/
def Waiting (s : State E) (row : StatechainTransfer (Point E)) : Prop :=
  row.keyUpdated = false ∧ ∃ batchId ∈ s.started, row.batchId = some batchId

instance (s : State E) (row : StatechainTransfer (Point E)) : Decidable (Waiting s row) :=
  inferInstanceAs (Decidable (_ ∧ _))

/-- Every waiting coin stays with its receiver over the event, and the server does not refuse
the receiver because of the batch. -/
def StaysCommitted (s : State E) (event : Event n E) : Prop :=
  ∀ row ∈ s.world.db.transfers.rows, Waiting s row →
    (∃ row' ∈ (step enclave batchTimeout s event).world.db.transfers.rows,
      row'.statechainId = row.statechainId ∧ row'.newUserAuthPublicKey = row.newUserAuthPublicKey ∧
      row'.x1 = row.x1 ∧ row'.batchId = row.batchId) ∧
    ∀ choices result, (exec (Database.handle enclave) (validateBatch batchTimeout row.statechainId) choices
      s.world).1 = some result → result = .success

def expired (now : ℕ) (row : StatechainTransfer (Point E)) : Prop :=
  ∃ batchTime ∈ row.batchTime, batchTime + seconds batchTimeout < now

instance (now : ℕ) (row : StatechainTransfer (Point E)) : Decidable (expired batchTimeout now row) :=
  inferInstanceAs (Decidable (∃ batchTime ∈ row.batchTime, _))

/-- No owner sends a waiting coin again or adds a coin to a started batch, no waiting coin
expires, and no coin is received while another one of its batch has expired. -/
def Undisturbed (s : State E) : Event n E → Prop
  | .request (.sender payload) _ =>
    SignedByOwner enclave.params.secp s.world.db payload.authSig payload.statechainId →
      (∀ batchId ∈ s.started, payload.batchId ≠ some batchId) ∧
      ∀ row ∈ s.world.db.transfers.rows, Waiting s row → row.statechainId ≠ payload.statechainId
  | .request (.receiver payload) _ =>
    ∀ row ∈ s.world.db.transfers.rows, row.statechainId = payload.statechainId → row.batchId.isSome →
      ∀ row' ∈ s.world.db.transfers.rows, row'.batchId = row.batchId → row'.keyUpdated = false →
        ¬expired batchTimeout s.world.now row'
  | .tick elapsed =>
    ∀ row ∈ s.world.db.transfers.rows, Waiting s row → ¬expired batchTimeout (s.world.now + elapsed) row
  | _ => True

instance (s : State E) (event : Event n E) : Decidable (Undisturbed enclave batchTimeout s event) :=
  match event with
  | .request request _ =>
    match request with
    | .sender _ => inferInstanceAs (Decidable (_ → _))
    | .receiver _ => inferInstanceAs (Decidable (∀ row ∈ s.world.db.transfers.rows, _))
    | .deposit _ _ _ | .updateMsg _ | .paymenthash _ | .unlock _ | .info _ => isTrue trivial
  | .tick _ => inferInstanceAs (Decidable (∀ row ∈ s.world.db.transfers.rows, _))
  | .reorder _ => isTrue trivial

/-- The coins of a started batch are all unlocked, and those that wait have not expired. -/
structure Inv (batchTimeout : ℕ) (s : State E) : Prop where
  timed : ∀ row ∈ s.world.db.transfers.rows, row.batchId.isSome → row.batchTime.isSome
  unlocked : ∀ row ∈ s.world.db.transfers.rows, ∀ batchId ∈ s.started, row.batchId = some batchId →
    row.locked = false ∧ row.locked2 = false
  timely : ∀ row ∈ s.world.db.transfers.rows, Waiting s row → ¬expired batchTimeout s.world.now row

variable {enclave batchTimeout} {w w' : World E} {event : Event n E}

omit [DecidableEq E] in
theorem mem_newlyStarted {batchId : String} :
    batchId ∈ newlyStarted w w' ↔ ∃ row ∈ w.db.transfers.rows, row.keyUpdated = false ∧
      (∃ row', w'.db.transfers.get row.statechainId = some row' ∧ row'.keyUpdated = true) ∧
      row.batchId = some batchId := by
  simp only [newlyStarted, List.mem_filterMap]
  constructor
  · rintro ⟨row, hrow, h⟩
    split_ifs at h with hflag
    rw [Bool.and_eq_true, Bool.not_eq_true', Option.any_eq_true] at hflag
    exact ⟨row, hrow, hflag.1, hflag.2, h⟩
  · rintro ⟨row, hrow, hno, hyes, h⟩
    refine ⟨row, hrow, ?_⟩
    rw [if_pos, h]
    rw [Bool.and_eq_true, Bool.not_eq_true', Option.any_eq_true]
    exact ⟨hno, hyes⟩

omit [DecidableEq E] in
theorem Inv.batchIdAndTimeOf {s : State E} (hinv : Inv batchTimeout s) {row : StatechainTransfer (Point E)}
    (hrow : row ∈ s.world.db.transfers.rows) {batchId : String} (hbatch : row.batchId = some batchId) :
    ∃ batchTime, row.batchTime = some batchTime ∧
      s.world.db.batchIdAndTimeOf row.statechainId = some (batchId, batchTime) := by
  obtain ⟨batchTime, htime⟩ := Option.isSome_iff_exists.mp (hinv.timed row hrow (by rw [hbatch]; rfl))
  refine ⟨batchTime, htime, ?_⟩
  rw [Db.batchIdAndTimeOf, Table.get_eq_some.mpr ⟨hrow, rfl⟩]
  simp [hbatch, htime]

/-- A coin whose key is updated by the event was received in it, with a batch whose coins are
all unlocked and whose time has not passed. -/
theorem received_of_newlyStarted {s : State E} (hinv : Inv batchTimeout s) {batchId : String}
    (h : batchId ∈ newlyStarted s.world (System.step enclave batchTimeout s.world event)) :
    ∃ row ∈ s.world.db.transfers.rows, row.batchId = some batchId ∧
      (∃ payload choices, event = .request (.receiver payload) choices ∧
        row.statechainId = payload.statechainId) ∧
      s.world.db.isAllCoinsUnlocked batchId = true := by
  obtain ⟨row, hrow, hno, ⟨row', hget, hyes⟩, hbatch⟩ := mem_newlyStarted.mp h
  obtain ⟨hrow', hid⟩ := Table.get_eq_some.mp hget
  cases step_change enclave batchTimeout s.world event with
  | kept g hrows hg hupdated hnow =>
    obtain ⟨row0, hrow0, rfl⟩ := (hrows row').mp hrow'
    have hsame : row0 = row :=
      s.world.db.transfers.key_injective hrow0 hrow (((hg row0).statechainId).symm.trans hid)
    subst hsame
    obtain ⟨payload, choices, hevent, hreceived, hresult⟩ := hupdated row0 hrow hno hyes
    obtain ⟨batchTime, -, hlookup⟩ := hinv.batchIdAndTimeOf hrow hbatch
    rw [hreceived] at hlookup
    refine ⟨row0, hrow, hbatch, ⟨payload, choices, hevent, hreceived⟩, ?_⟩
    simp only [batchResult, hlookup] at hresult
    split_ifs at hresult with hexpired hall
    exact hall
  | sent payload choices new hevent hsigned hrows hid' hbatch' htimed hnew hnow =>
    rw [hrows] at hrow'
    rcases Table.mem_replace.mp hrow' with ⟨hold, -⟩ | rfl
    · rw [s.world.db.transfers.key_injective hold hrow hid, hno] at hyes
      cases hyes
    · rw [hnew] at hyes
      cases hyes
  | ticked elapsed hevent hstep =>
    rw [hstep] at hrow'
    rw [s.world.db.transfers.key_injective hrow' hrow hid, hno] at hyes
    cases hyes

/-- A row comes from one that was there before, or its owner has just sent the coin. -/
theorem row_origin {s : State E} {row' : StatechainTransfer (Point E)}
    (h : row' ∈ (step enclave batchTimeout s event).world.db.transfers.rows) :
    (∃ row ∈ s.world.db.transfers.rows, Keeps row row') ∨
    ∃ payload choices, event = .request (.sender payload) choices ∧
      SignedByOwner enclave.params.secp s.world.db payload.authSig payload.statechainId ∧
      row'.batchId = payload.batchId ∧ (row'.batchId.isSome → row'.batchTime.isSome) := by
  change row' ∈ (System.step enclave batchTimeout s.world event).db.transfers.rows at h
  cases step_change enclave batchTimeout s.world event with
  | kept g hrows hg hupdated hnow =>
    obtain ⟨row, hrow, rfl⟩ := (hrows row').mp h
    exact .inl ⟨row, hrow, hg row⟩
  | sent payload choices new hevent hsigned hrows hid hbatch htimed hnew hnow =>
    rw [hrows] at h
    rcases Table.mem_replace.mp h with ⟨hold, -⟩ | rfl
    · exact .inl ⟨row', hold, Keeps.refl row'⟩
    · exact .inr ⟨payload, choices, hevent, hsigned, hbatch, htimed⟩
  | ticked elapsed hevent hstep =>
    rw [hstep] at h
    exact .inl ⟨row', h, Keeps.refl row'⟩

variable (enclave batchTimeout event) in
theorem now_step (w : World E) :
    (System.step enclave batchTimeout w event).now = w.now ∨
    ∃ elapsed, event = .tick elapsed ∧ (System.step enclave batchTimeout w event).now = w.now + elapsed := by
  cases step_change enclave batchTimeout w event with
  | kept g hrows hg hupdated hnow => exact .inl hnow
  | sent payload choices new hevent hsigned hrows hid hbatch htimed hnew hnow => exact .inl hnow
  | ticked elapsed hevent hstep =>
    refine .inr ⟨elapsed, hevent, ?_⟩
    rw [hstep]

theorem timed_step {s : State E} (hinv : Inv batchTimeout s) {row' : StatechainTransfer (Point E)}
    (hrow' : row' ∈ (step enclave batchTimeout s event).world.db.transfers.rows) (hbatch : row'.batchId.isSome) :
    row'.batchTime.isSome := by
  rcases row_origin hrow' with ⟨row, hrow, hkeeps⟩ | ⟨payload, choices, hevent, hsigned, hsent, htimed⟩
  · rw [hkeeps.batchTime]
    rw [hkeeps.batchId] at hbatch
    exact hinv.timed row hrow hbatch
  · exact htimed hbatch

omit [DecidableEq E] in
theorem unlocked_of_isAllCoinsUnlocked {batchId : String} (h : w.db.isAllCoinsUnlocked batchId = true)
    {row : StatechainTransfer (Point E)} (hrow : row ∈ w.db.transfers.rows) (hbatch : row.batchId = some batchId) :
    row.locked = false ∧ row.locked2 = false := by
  have hopen := List.all_eq_true.mp h row hrow
  rw [hbatch] at hopen
  simpa using hopen

theorem unlocked_step {s : State E} (hinv : Inv batchTimeout s) (hguard : Undisturbed enclave batchTimeout s event)
    {row' : StatechainTransfer (Point E)}
    (hrow' : row' ∈ (step enclave batchTimeout s event).world.db.transfers.rows) {batchId : String}
    (hstarted : batchId ∈ (step enclave batchTimeout s event).started) (hbatch : row'.batchId = some batchId) :
    row'.locked = false ∧ row'.locked2 = false := by
  have hcases := List.mem_append.mp hstarted
  rcases row_origin hrow' with ⟨row, hrow, hkeeps⟩ | ⟨payload, choices, hevent, hsigned, hsent, htimed⟩
  · rw [hkeeps.batchId] at hbatch
    have hopen : row.locked = false ∧ row.locked2 = false := by
      rcases hcases with hnew | hold
      · obtain ⟨row0, hrow0, hbatch0, hreceived, hall⟩ := received_of_newlyStarted hinv hnew
        exact unlocked_of_isAllCoinsUnlocked hall hrow hbatch
      · exact hinv.unlocked row hrow batchId hold hbatch
    exact ⟨hkeeps.locked hopen.1, hkeeps.locked2 hopen.2⟩
  · subst hevent
    rcases hcases with hnew | hold
    · obtain ⟨row0, hrow0, hbatch0, ⟨payload', choices', hevent', hid⟩, hall⟩ := received_of_newlyStarted hinv hnew
      cases hevent'
    · exact absurd (hsent.symm.trans hbatch) ((hguard hsigned).1 batchId hold)

omit [DecidableEq E] in
theorem not_expired_of_keeps {row row' : StatechainTransfer (Point E)} (hkeeps : Keeps row row') {now : ℕ}
    (h : ¬expired batchTimeout now row) : ¬expired batchTimeout now row' := by
  rwa [expired, hkeeps.batchTime]

theorem timely_step {s : State E} (hinv : Inv batchTimeout s) (hguard : Undisturbed enclave batchTimeout s event)
    {row' : StatechainTransfer (Point E)}
    (hrow' : row' ∈ (step enclave batchTimeout s event).world.db.transfers.rows)
    (hwaiting : Waiting (step enclave batchTimeout s event) row') :
    ¬expired batchTimeout (step enclave batchTimeout s event).world.now row' := by
  obtain ⟨hflag, batchId, hstarted, hbatch⟩ := hwaiting
  have hcases := List.mem_append.mp hstarted
  rcases row_origin hrow' with ⟨row, hrow, hkeeps⟩ | ⟨payload, choices, hevent, hsigned, hsent, htimed⟩
  · rw [hkeeps.batchId] at hbatch
    have hwaits : row.keyUpdated = false := by
      by_contra hupdated
      rw [hkeeps.keyUpdated (by simpa using hupdated)] at hflag
      cases hflag
    apply not_expired_of_keeps hkeeps
    rcases hcases with hnew | hold
    · obtain ⟨row0, hrow0, hbatch0, ⟨payload, choices, hevent, hid⟩, hall⟩ := received_of_newlyStarted hinv hnew
      subst hevent
      rcases now_step enclave batchTimeout _ s.world with hnow | ⟨elapsed, hevent, hnow⟩
      · rw [step, hnow]
        exact hguard row0 hrow0 hid (by rw [hbatch0]; rfl) row hrow (hbatch.trans hbatch0.symm) hwaits
      · cases hevent
    · rcases now_step enclave batchTimeout _ s.world with hnow | ⟨elapsed, hevent, hnow⟩
      · rw [step, hnow]
        exact hinv.timely row hrow ⟨hwaits, batchId, hold, hbatch⟩
      · rw [step, hnow]
        subst hevent
        exact hguard row hrow ⟨hwaits, batchId, hold, hbatch⟩
  · subst hevent
    rcases hcases with hnew | hold
    · obtain ⟨row0, hrow0, hbatch0, ⟨payload', choices', hevent', hid⟩, hall⟩ := received_of_newlyStarted hinv hnew
      cases hevent'
    · exact absurd (hsent.symm.trans hbatch) ((hguard hsigned).1 batchId hold)

theorem inv_step (s : State E) (event : Event n E) (hinv : Inv batchTimeout s)
    (hguard : Undisturbed enclave batchTimeout s event) : Inv batchTimeout (step enclave batchTimeout s event) where
  timed _ hrow hbatch := timed_step hinv hrow hbatch
  unlocked _ hrow _ hstarted hbatch := unlocked_step hinv hguard hrow hstarted hbatch
  timely _ hrow hwaiting := timely_step hinv hguard hrow hwaiting

omit [DecidableEq E] in
theorem inv_init (enclaves : ℕ) : Inv batchTimeout (init enclaves : State E) where
  timed _ hrow := by cases hrow
  unlocked _ hrow := by cases hrow
  timely _ hrow := by cases hrow

omit [DecidableEq E] in
theorem batchResult_of_waiting {s : State E} (hinv : Inv batchTimeout s) {row : StatechainTransfer (Point E)}
    (hrow : row ∈ s.world.db.transfers.rows) (hwaiting : Waiting s row) :
    batchResult batchTimeout s.world row.statechainId = .success := by
  have hexpired := hinv.timely row hrow hwaiting
  obtain ⟨-, batchId, hstarted, hbatch⟩ := hwaiting
  obtain ⟨batchTime, htime, hlookup⟩ := hinv.batchIdAndTimeOf hrow hbatch
  have hall : s.world.db.isAllCoinsUnlocked batchId = true := by
    apply List.all_eq_true.mpr
    intro row' hrow'
    by_cases hbatch' : row'.batchId = some batchId
    · obtain ⟨h1, h2⟩ := hinv.unlocked row' hrow' batchId hstarted hbatch'
      simp [h1, h2]
    · simp [hbatch']
  simp only [batchResult, hlookup]
  rw [if_neg (fun h => hexpired ⟨batchTime, htime, h⟩), if_pos hall]

theorem staysCommitted_of_inv {s : State E} (hinv : Inv batchTimeout s)
    (hguard : Undisturbed enclave batchTimeout s event) : StaysCommitted enclave batchTimeout s event := by
  intro row hrow hwaiting
  refine ⟨?_, fun choices result hresult => ?_⟩
  · obtain ⟨row', hrow', hkeeps⟩ := (step_change enclave batchTimeout s.world event).row_kept hrow
      (fun payload choices hevent hsigned => by subst hevent; exact (hguard hsigned).2 row hrow hwaiting)
    exact ⟨row', hrow', hkeeps.statechainId, hkeeps.newUserAuthPublicKey, hkeeps.x1, hkeeps.batchId⟩
  · rw [← batchResult_of_waiting hinv hrow hwaiting]
    exact (returns_validateBatch row.statechainId).exec_eq choices hresult

section Seven

def sevenSend (id : String) (batchId : Option String) : Event 7 (ZMod 7) :=
  .request (.sender ⟨id, sevenSignature 2, seven.secp.publicKeyToStr (seven.publicKey 3), batchId⟩) (fun _ => steady)

def sevenUnlock (id : String) : Event 7 (ZMod 7) :=
  .request (.unlock ⟨id, sevenSignature 3, some (seven.secp.publicKeyToStr (seven.publicKey 3))⟩)
    (fun _ => steady)

def sevenReceive (id : String) : Event 7 (ZMod 7) :=
  .request (.receiver ⟨id, none, Hex.encode (b32 4), sevenSignature 3⟩) (fun _ => steady)

/-- Two coins of one owner. -/
def depositTwo : List (Event 7 (ZMod 7)) :=
  [.request (.deposit (seven.x 2) "first" 0) (fun _ => steady),
    .request (.deposit (seven.x 2) "second" 0) (fun _ => calm ⟨2, two_ne_zero_seven⟩)]

/-- The coins go to one receiver in a batch, and the first one is received. -/
def startedBatch : List (Event 7 (ZMod 7)) :=
  depositTwo ++ [sevenSend "first" (some "batch"), sevenSend "second" (some "batch"), sevenUnlock "first",
    sevenUnlock "second", sevenReceive "first"]

/-- A batch of which one coin has been received is received as a whole, in every run without
the events that can break it up. -/
theorem batch_atomic_of_undisturbed {enclaves : ℕ} {events later : List (Event n E)} {event : Event n E}
    (h : Guarded (step enclave batchTimeout) (Undisturbed enclave batchTimeout) (init enclaves)
      (events ++ event :: later)) :
    StaysCommitted enclave batchTimeout (run (step enclave batchTimeout) (init enclaves) events) event :=
  staysCommitted_of_inv (invariant_reached inv_step (inv_init enclaves) h) (guarded_append.mp h).2.1

theorem batch_atomic_of_undisturbed_seven :
    Guarded (step sevenKeyring 10) (Undisturbed sevenKeyring 10) (init 1) (startedBatch ++ [sevenReceive "second"]) ∧
    StaysCommitted sevenKeyring 10 (run (step sevenKeyring 10) (init 1) startedBatch) (sevenReceive "second") := by
  have h : Guarded (step sevenKeyring 10) (Undisturbed sevenKeyring 10) (init 1)
      (startedBatch ++ [sevenReceive "second"]) := by decide +kernel
  exact ⟨h, batch_atomic_of_undisturbed h⟩

/-- With every coin unlocked the owner may send the second coin elsewhere, although the first
one has been received. -/
theorem unlocked_coin_sent_again :
    ¬StaysCommitted sevenKeyring 10 (run (step sevenKeyring 10) (init 1) startedBatch) (sevenSend "second" none) := by
  have hreplaced : ∃ row ∈ (run (step sevenKeyring 10) (init 1) startedBatch).world.db.transfers.rows,
      Waiting (run (step sevenKeyring 10) (init 1) startedBatch) row ∧
      ∀ row' ∈ (step sevenKeyring 10 (run (step sevenKeyring 10) (init 1) startedBatch)
        (sevenSend "second" none)).world.db.transfers.rows,
        row'.statechainId = row.statechainId → row'.batchId ≠ row.batchId := by decide +kernel
  intro h
  obtain ⟨row, hrow, hwaiting, hafter⟩ := hreplaced
  obtain ⟨⟨row', hrow', hid, -, -, hbatch⟩, -⟩ := h row hrow hwaiting
  exact hafter row' hrow' hid hbatch

end Seven

end MercuryLayer.Server.Batch
