import Mathlib.Data.List.Forall2
import Mathlib.Data.List.Perm.Basic
import MercuryLayer.Library.Validation

namespace MercuryLayer.Library.Matching

open Library.Validation

variable {α β γ : Type}

/-- Every element of the first list has one of its own in the second, to which it is related. -/
def Continues (R : α → β → Prop) (l : List α) (l' : List β) : Prop :=
  ∃ kept, List.Forall₂ R l kept ∧ kept.Subperm l'

theorem exists_forall₂_sublist {R : α → β → Prop} {l₁ l : List α} {l' : List β} (hsub : l₁.Sublist l)
    (h : List.Forall₂ R l l') : ∃ l₁', List.Forall₂ R l₁ l₁' ∧ l₁'.Sublist l' := by
  induction hsub generalizing l' with
  | slnil =>
    cases h
    exact ⟨[], .nil, .slnil⟩
  | cons a _ ih =>
    cases h with
    | cons hab h =>
      obtain ⟨l₁', hl₁', hsub'⟩ := ih h
      exact ⟨l₁', hl₁', hsub'.cons _⟩
  | cons_cons a _ ih =>
    cases h with
    | cons hab h =>
      obtain ⟨l₁', hl₁', hsub'⟩ := ih h
      exact ⟨_ :: l₁', .cons hab hl₁', hsub'.cons_cons _⟩

variable {R : α → β → Prop} {S : β → γ → Prop} {T : α → γ → Prop} {l : List α} {l' m : List β} {l'' : List γ}

theorem forall₂_trans (hT : ∀ a b c, R a b → S b c → T a c) (h : List.Forall₂ R l l') (h' : List.Forall₂ S l' l'') :
    List.Forall₂ T l l'' := by
  induction h generalizing l'' with
  | nil =>
    cases h'
    exact .nil
  | cons hab _ ih =>
    cases h' with
    | cons hbc h' => exact .cons (hT _ _ _ hab hbc) (ih h')

theorem continues_of_forall₂ (h : List.Forall₂ R l l') : Continues R l l' := ⟨l', h, List.Subperm.refl l'⟩

theorem continues_refl {R : α → α → Prop} (hR : ∀ a, R a a) (l : List α) : Continues R l l :=
  continues_of_forall₂ (List.forall₂_same.mpr (fun a _ => hR a))

theorem Continues.append_right (h : Continues R l l') (m : List β) : Continues R l (l' ++ m) := by
  obtain ⟨kept, hkept, hsub⟩ := h
  exact ⟨kept, hkept, hsub.trans (List.sublist_append_left l' m).subperm⟩

theorem Continues.perm (h : Continues R l l') (hperm : l'.Perm m) : Continues R l m := by
  obtain ⟨kept, hkept, hsub⟩ := h
  exact ⟨kept, hkept, hsub.trans hperm.subperm⟩

theorem Continues.imp {R' : α → β → Prop} (hR : ∀ a b, R a b → R' a b) (h : Continues R l l') :
    Continues R' l l' := by
  obtain ⟨kept, hkept, hsub⟩ := h
  exact ⟨kept, hkept.imp hR, hsub⟩

theorem Continues.trans (hT : ∀ a b c, R a b → S b c → T a c) (h : Continues R l l') (h' : Continues S l' l'') :
    Continues T l l'' := by
  obtain ⟨kept, hkept, middle, hperm, hsub⟩ := h
  obtain ⟨kept', hkept', hsub'⟩ := h'
  obtain ⟨middle', hmiddle, hmiddle'⟩ := exists_forall₂_sublist hsub hkept'
  obtain ⟨last, hlast, hlast'⟩ := List.perm_comp_forall₂ hperm.symm hmiddle
  exact ⟨last, forall₂_trans hT hkept hlast, hlast'.subperm.trans (hmiddle'.subperm.trans hsub')⟩

theorem forall₂_set {a : α} {b : β} {i : ℕ} (h : List.Forall₂ R l l') (hi : l[i]? = some a) (hab : R a b) :
    List.Forall₂ R l (l'.set i b) := by
  induction h generalizing i with
  | nil => cases hi
  | cons hcd h ih =>
    cases i with
    | zero =>
      cases Option.some.inj hi
      exact .cons hab h
    | succ i => exact .cons hcd (ih hi)

theorem forall₂_set_modify {a : α} {f : β → β} {i : ℕ} (h : List.Forall₂ R l l')
    (ha : ∀ b, l'[i]? = some b → R a (f b)) : List.Forall₂ R (l.set i a) (l'.modify i f) := by
  induction h generalizing i with
  | nil =>
    rw [List.set_nil, List.modify_nil]
    exact .nil
  | cons hcd h ih =>
    cases i with
    | zero => exact .cons (ha _ rfl) h
    | succ i => exact .cons hcd (ih ha)

theorem forall₂_getElem? {a : α} {i : ℕ} (h : List.Forall₂ R l l') (ha : l[i]? = some a) :
    ∃ b, l'[i]? = some b ∧ R a b := by
  induction h generalizing i with
  | nil => cases ha
  | cons hcd h ih =>
    cases i with
    | zero =>
      cases Option.some.inj ha
      exact ⟨_, rfl, hcd⟩
    | succ i => exact ih ha

theorem pairwise_of_forall₂ {P : α → α → Prop} {Q : β → β → Prop} (hQ : ∀ a a' b b', R a b → R a' b' → P a a' → Q b b')
    (h : List.Forall₂ R l l') (hl : l.Pairwise P) : l'.Pairwise Q := by
  induction h with
  | nil => exact .nil
  | cons hab h ih =>
    obtain ⟨hfirst, hl⟩ := List.pairwise_cons.mp hl
    refine List.pairwise_cons.mpr ⟨fun b' hb' => ?_, ih hl⟩
    obtain ⟨i, hi⟩ := List.mem_iff_getElem?.mp hb'
    obtain ⟨a', ha', hab'⟩ := forall₂_getElem? h.flip hi
    exact hQ _ _ _ _ hab hab' (hfirst a' (List.mem_of_getElem? ha'))

theorem mapM_forall₂_iff {ε : Type} {xs : List α} {f : α → Except ε β} {R : α → β → Prop} :
    (∃ ys, xs.mapM f = .ok ys ∧ List.Forall₂ R xs ys) ↔ ∀ x ∈ xs, ∃ y, f x = .ok y ∧ R x y := by
  induction xs with
  | nil => exact iff_of_true ⟨[], rfl, .nil⟩ (fun _ h => absurd h List.not_mem_nil)
  | cons x xs ih =>
    rw [List.forall_mem_cons, ← ih]
    constructor
    · rintro ⟨ys, hys, hall⟩
      rw [List.mapM_cons] at hys
      obtain ⟨y, hy, hys⟩ := bind_eq_ok.mp hys
      obtain ⟨rest, hrest, hys⟩ := bind_eq_ok.mp hys
      cases Except.ok.inj hys
      cases hall with
      | cons hxy hall => exact ⟨⟨y, hy, hxy⟩, rest, hrest, hall⟩
    · rintro ⟨⟨y, hy, hxy⟩, rest, hrest, hall⟩
      refine ⟨y :: rest, ?_, .cons hxy hall⟩
      rw [List.mapM_cons, hy, ok_bind, hrest, ok_bind]
      rfl

end MercuryLayer.Library.Matching
