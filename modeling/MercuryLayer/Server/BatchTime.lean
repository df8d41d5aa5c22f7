import MercuryLayer.Server.Batch

namespace MercuryLayer.Server.BatchTime

open Library.Runs Library.Tables Library.XOnlyCurve Lockbox.Enclave Musig.Session Sender Server.Database
open Server.Batch (depositTwo sevenSend sevenUnlock startedBatch)
open Server.Effects Server.System

variable {n : ℕ} {E : Type} [AddCommGroup E] [Module (ZMod n) E] [DecidableEq E]
variable {enclave : Keyring n E} {batchTimeout : ℕ} {w w' : World E}

/-- All rows of a batch have the time of the batch. -/
def Agree (w : World E) : Prop :=
  ∀ row ∈ w.db.transfers.rows, ∀ row' ∈ w.db.transfers.rows, row.batchId.isSome → row'.batchId = row.batchId →
    row'.batchTime = row.batchTime

omit [Module (ZMod n) E] [DecidableEq E] in
instance (w : World E) : Decidable (Agree w) := by
  unfold Agree
  infer_instance

/-- A coin joins a batch while one of its rows is locked, or when no other coin is in it. -/
def JoinsOpenBatch (w : World E) : Event n E → Prop
  | .request (.sender payload) _ =>
    payload.batchId.isSome → (∃ row ∈ w.db.transfers.rows, row.batchId = payload.batchId ∧ row.locked = true) ∨
      ∀ row ∈ w.db.transfers.rows, row.batchId = payload.batchId → row.statechainId = payload.statechainId
  | _ => True

instance (w : World E) (event : Event n E) : Decidable (JoinsOpenBatch w event) := by
  unfold JoinsOpenBatch
  split <;> infer_instance

omit [Module (ZMod n) E] [DecidableEq E] in
theorem Agree.of_kept {g : StatechainTransfer (Point E) → StatechainTransfer (Point E)} (h : Agree w)
    (hrows : ∀ row', row' ∈ w'.db.transfers.rows ↔ ∃ row ∈ w.db.transfers.rows, row' = g row)
    (hg : ∀ row, Keeps row (g row)) : Agree w' := by
  intro row' hrow' other' hother' hbatch hsame
  obtain ⟨row, hrow, rfl⟩ := (hrows row').mp hrow'
  obtain ⟨other, hother, rfl⟩ := (hrows other').mp hother'
  rw [(hg row).batchId] at hbatch hsame
  rw [(hg other).batchId] at hsame
  rw [(hg row).batchTime, (hg other).batchTime]
  exact h row hrow other hother hbatch hsame

omit [Module (ZMod n) E] [DecidableEq E] in
/-- The time of a batch of which a row is locked is the time of all its rows. -/
theorem joiningTime_of_locked (h : Agree w) {batchId : String}
    (hlocked : ∃ row ∈ w.db.transfers.rows, row.batchId = some batchId ∧ row.locked = true)
    (htimed : ∀ row ∈ w.db.transfers.rows, row.batchId.isSome → row.batchTime.isSome)
    {row : StatechainTransfer (Point E)} (hrow : row ∈ w.db.transfers.rows) (hbatch : row.batchId = some batchId) :
    row.batchTime = some (joiningTime w batchId) := by
  obtain ⟨locked, hmem, hid, hopen⟩ := hlocked
  have hsome : (w.db.transfers.rows.find? (fun row => row.batchId == some batchId && row.locked)).isSome := by
    rw [List.find?_isSome]
    exact ⟨locked, hmem, by simp [hid, hopen]⟩
  obtain ⟨found, hfound⟩ := Option.isSome_iff_exists.mp hsome
  have hfoundId : found.batchId = some batchId := by
    have hcond := List.find?_some hfound
    simp only [Bool.and_eq_true, beq_iff_eq] at hcond
    exact hcond.1
  have hfoundMem := List.mem_of_find?_eq_some hfound
  obtain ⟨time, htime⟩ := Option.isSome_iff_exists.mp (htimed found hfoundMem (by rw [hfoundId]; rfl))
  have hsame : row.batchTime = found.batchTime :=
    h found hfoundMem row hrow (by rw [hfoundId]; rfl) (hbatch.trans hfoundId.symm)
  rw [hsame, joiningTime, Db.batchTimeOf, hfound, Option.map_some, htime]
  rfl

structure Inv (w : World E) : Prop where
  agree : Agree w
  timed : ∀ row ∈ w.db.transfers.rows, row.batchId.isSome → row.batchTime.isSome

theorem inv_step (w : World E) (event : Event n E) (hinv : Inv w) (hguard : JoinsOpenBatch w event) :
    Inv (step enclave batchTimeout w event) := by
  have hchange := step_change enclave batchTimeout w event
  generalize step enclave batchTimeout w event = w' at hchange
  cases hchange with
  | kept g hrows hg =>
    refine ⟨hinv.agree.of_kept hrows hg, fun row' hrow' hbatch => ?_⟩
    obtain ⟨row, hrow, rfl⟩ := (hrows row').mp hrow'
    rw [(hg row).batchId] at hbatch
    rw [(hg row).batchTime]
    exact hinv.timed row hrow hbatch
  | ticked elapsed hevent h =>
    rw [h]
    exact ⟨hinv.agree, hinv.timed⟩
  | sent payload choices new hevent hsigned hrows hid hbatch htimed hnew hnow hkey hadmitted hfresh htime =>
    subst hevent
    have hnewTime : ∀ row ∈ w.db.transfers.rows, row.statechainId ≠ new.statechainId → new.batchId.isSome →
        row.batchId = new.batchId → row.batchTime = new.batchTime := by
      intro row hrow hother hsome hsame
      obtain ⟨batchId, hbatchId⟩ := Option.isSome_iff_exists.mp hsome
      rw [hbatchId] at hsame
      rw [hbatchId] at hbatch
      obtain hlocked | hown := hguard (by rw [← hbatch]; rfl)
      · rw [← hbatch] at hlocked
        rw [htime, ← hbatch, Option.map_some]
        exact joiningTime_of_locked hinv.agree hlocked hinv.timed hrow hsame
      · exact absurd ((hown row hrow (hsame.trans hbatch)).trans hid.symm) hother
    refine ⟨fun row hrow row' hrow' hsome hsame => ?_, fun row hrow hsome => ?_⟩
    · rw [hrows, Table.mem_replace] at hrow hrow'
      obtain ⟨hrow, hne⟩ | rfl := hrow
      · obtain ⟨hrow', -⟩ | rfl := hrow'
        · exact hinv.agree row hrow row' hrow' hsome hsame
        · rw [← hsame] at hsome
          exact (hnewTime row hrow hne hsome hsame.symm).symm
      · obtain ⟨hrow', hne⟩ | rfl := hrow'
        · exact hnewTime row' hrow' hne hsome hsame
        · rfl
    · rw [hrows, Table.mem_replace] at hrow
      obtain ⟨hrow, -⟩ | rfl := hrow
      · exact hinv.timed row hrow hsome
      · exact htimed hsome

omit [Module (ZMod n) E] [DecidableEq E] in
theorem inv_init (enclaves : ℕ) : Inv (System.init enclaves : World E) := ⟨nofun, nofun⟩

/-- In every run in which coins join open batches only, the rows of a batch agree on its time in every
state reached. -/
theorem batch_time_agreement {enclaves : ℕ} {events later : List (Event n E)}
    (h : Guarded (step enclave batchTimeout) JoinsOpenBatch (System.init enclaves) (events ++ later)) :
    Agree (run (step enclave batchTimeout) (System.init enclaves) events) :=
  (invariant_reached inv_step (inv_init enclaves) h).agree

section Seven

/-- The first coin is sent in a batch and unlocked; then time passes. -/
def unlockedBatch : List (Event 7 (ZMod 7)) :=
  depositTwo ++ [sevenSend "first" (some "batch"), sevenUnlock "first", .tick 5]

theorem batch_time_agreement_seven :
    Guarded (step sevenKeyring 10) JoinsOpenBatch (System.init 1) (startedBatch ++ []) ∧
    Agree (run (step sevenKeyring 10) (System.init 1) startedBatch) := by
  have h : Guarded (step sevenKeyring 10) JoinsOpenBatch (System.init 1) (startedBatch ++ []) := by decide +kernel
  exact ⟨h, batch_time_agreement h⟩

/-- No row of the batch is locked, so that the second coin joins it with a time of its own. -/
theorem batch_times_differ :
    ¬Agree (run (step sevenKeyring 10) (System.init 1)
      (unlockedBatch ++ [sevenSend "second" (some "batch")])) := by decide +kernel

end Seven

end MercuryLayer.Server.BatchTime
