import MercuryLayer.Library.Programs
import Mathlib.Data.List.Perm.Basic
import Mathlib.Data.List.Perm.Subperm

namespace MercuryLayer.Library.Holdings

open Library.Programs

variable {C : Type} {R : C → Type} {α β : Type} (held : Prog C R α → Option β)

/-- What the programs under way hold, each at most one thing. -/
def holdings (threads : List (Prog C R α)) : List β := threads.filterMap held

variable {held} {threads : List (Prog C R α)} {p : Prog C R α} {i : ℕ}

theorem holdings_append (h : held p = none) : holdings held (threads ++ [p]) = holdings held threads := by
  simp [holdings, h]

theorem mem_holdings {b : β} : b ∈ holdings held threads ↔ ∃ p ∈ threads, held p = some b :=
  List.mem_filterMap

variable (held) in
theorem holdings_set (h : threads[i]? = some p) (q : Prog C R α) :
    ∃ rest, (holdings held threads).Perm ((held p).toList ++ rest) ∧
      (holdings held (threads.set i q)).Perm ((held q).toList ++ rest) := by
  obtain ⟨hi, rfl⟩ := List.getElem?_eq_some_iff.mp h
  have hcons : ∀ r : Prog C R α, List.filterMap held (r :: threads.eraseIdx i) =
      (held r).toList ++ holdings held (threads.eraseIdx i) := by
    intro r
    cases hr : held r with
    | none => simp [holdings, hr]
    | some b => simp [holdings, hr]
  have hold := (List.getElem_cons_eraseIdx_perm hi).filterMap held
  have hnew := (List.set_perm_cons_eraseIdx hi q).filterMap held
  rw [hcons] at hold hnew
  exact ⟨_, hold.symm, hnew⟩

theorem holdings_set_subperm (h : threads[i]? = some p) {q : Prog C R α} (hq : ∀ b, held q = some b → held p = some b) :
    (holdings held (threads.set i q)).Subperm (holdings held threads) := by
  obtain ⟨rest, hold, hnew⟩ := holdings_set held h q
  have hsub : ((held q).toList ++ rest).Sublist ((held p).toList ++ rest) := by
    cases hb : held q with
    | none => exact List.sublist_append_right _ _
    | some b => rw [hq b hb]
  exact hnew.subperm.trans (hsub.subperm.trans hold.symm.subperm)

theorem holdings_stop_subperm {q : Prog C R α} (hq : held q = none) :
    (holdings held (threads.set i q)).Subperm (holdings held threads) := by
  cases h : threads[i]? with
  | none => rw [List.set_eq_of_length_le (List.getElem?_eq_none_iff.mp h)]
  | some p =>
    apply holdings_set_subperm h
    intro b hb
    rw [hq] at hb
    cases hb

theorem holdings_take (h : threads[i]? = some p) (hp : held p = none) {q : Prog C R α} {b : β} (hq : held q = some b) :
    (holdings held (threads.set i q)).Perm (b :: holdings held threads) := by
  obtain ⟨rest, hold, hnew⟩ := holdings_set held h q
  rw [hp] at hold
  rw [hq] at hnew
  exact hnew.trans (hold.symm.cons b)

/-- What a program gives up passes from the holdings to the list of what has been given up. -/
theorem holdings_release (h : threads[i]? = some p) {b : β} (hp : held p = some b) {q : Prog C R α}
    (hq : held q = none) (released : List β) :
    (holdings held (threads.set i q) ++ (released ++ [b])).Perm (holdings held threads ++ released) := by
  obtain ⟨rest, hold, hnew⟩ := holdings_set held h q
  rw [hp] at hold
  rw [hq] at hnew
  calc (holdings held (threads.set i q) ++ (released ++ [b])).Perm (rest ++ (released ++ [b])) := hnew.append_right _
    List.Perm _ (rest ++ released ++ [b]) := by rw [List.append_assoc]
    List.Perm _ (b :: (rest ++ released)) := List.perm_append_singleton b _
    List.Perm _ (holdings held threads ++ released) := (hold.append_right released).symm

theorem nodup_of_subperm {l k : List β} (h : l.Subperm k) (hk : k.Nodup) : l.Nodup := by
  obtain ⟨m, hm, hsub⟩ := h
  exact hm.nodup_iff.mp (hk.sublist hsub)

end MercuryLayer.Library.Holdings
