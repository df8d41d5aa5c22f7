import Mathlib.Data.List.Basic

namespace MercuryLayer.Library.Runs

variable {σ ℓ : Type} (step : σ → ℓ → σ) (guard : σ → ℓ → Prop)

def run (s : σ) (ls : List ℓ) : σ := ls.foldl step s

/-- Every step of the run meets the guard in the state in which it is taken. -/
def Guarded : σ → List ℓ → Prop
  | _, [] => True
  | s, l :: ls => guard s l ∧ Guarded (step s l) ls

instance Guarded.decidable [∀ s l, Decidable (guard s l)] (s : σ) (ls : List ℓ) :
    Decidable (Guarded step guard s ls) :=
  match ls with
  | [] => isTrue trivial
  | l :: ls =>
    have := Guarded.decidable (step s l) ls
    inferInstanceAs (Decidable (guard s l ∧ Guarded step guard (step s l) ls))

@[simp] theorem run_nil (s : σ) : run step s [] = s := rfl

@[simp] theorem run_cons (s : σ) (l : ℓ) (ls : List ℓ) : run step s (l :: ls) = run step (step s l) ls := rfl

theorem run_append (s : σ) (ls ms : List ℓ) : run step s (ls ++ ms) = run step (run step s ls) ms :=
  List.foldl_append

variable {step guard}

theorem guarded_append {s : σ} {ls ms : List ℓ} :
    Guarded step guard s (ls ++ ms) ↔ Guarded step guard s ls ∧ Guarded step guard (run step s ls) ms := by
  induction ls generalizing s with
  | nil => exact ⟨fun h => ⟨trivial, h⟩, fun h => h.2⟩
  | cons l ls ih =>
    constructor
    · rintro ⟨hl, hls⟩
      obtain ⟨h1, h2⟩ := ih.mp hls
      exact ⟨⟨hl, h1⟩, h2⟩
    · rintro ⟨⟨hl, h1⟩, h2⟩
      exact ⟨hl, ih.mpr ⟨h1, h2⟩⟩

/-- An invariant that every guarded step preserves holds at the end of a guarded run. -/
theorem invariant_run {inv : σ → Prop} (hstep : ∀ s l, inv s → guard s l → inv (step s l)) {s : σ}
    {ls : List ℓ} (hs : inv s) (hg : Guarded step guard s ls) : inv (run step s ls) := by
  induction ls generalizing s with
  | nil => exact hs
  | cons l ls ih =>
    obtain ⟨hl, hls⟩ := hg
    exact ih (hstep s l hs hl) hls

/-- A relation that every guarded step keeps up holds between the start and the end of a guarded run. -/
theorem related_run {inv : σ → Prop} {R : σ → σ → Prop} (hrefl : ∀ s, R s s)
    (htrans : ∀ a b c, R a b → R b c → R a c) (hinv : ∀ s l, inv s → guard s l → inv (step s l))
    (hstep : ∀ s l, inv s → guard s l → R s (step s l)) {s : σ} {ls : List ℓ} (hs : inv s)
    (hg : Guarded step guard s ls) : R s (run step s ls) := by
  induction ls generalizing s with
  | nil => exact hrefl s
  | cons l ls ih =>
    obtain ⟨hl, hls⟩ := hg
    exact htrans _ _ _ (hstep s l hs hl) (ih (hinv s l hs hl) hls)

theorem invariant_reached {inv : σ → Prop} (hstep : ∀ s l, inv s → guard s l → inv (step s l)) {s : σ}
    {ls ms : List ℓ} (hs : inv s) (hg : Guarded step guard s (ls ++ ms)) : inv (run step s ls) :=
  invariant_run hstep hs (guarded_append.mp hg).1

end MercuryLayer.Library.Runs
