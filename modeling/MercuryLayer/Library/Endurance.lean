import MercuryLayer.Library.Programs

namespace MercuryLayer.Library.Endurance

open Library.Programs

variable {C : Type} {R : C → Type} {α β η σ ε : Type} {handle : ε → (c : C) → σ → R c × σ}
variable {ok : ε → C → σ → Prop}

section Parts

variable (handle) in
/-- The decisions that are left to the environment once the program has ended. -/
def remaining : Prog C R α → (ℕ → ε) → σ → ℕ → ε
  | .ret _, choices, _ => choices
  | .abort, choices, _ => choices
  | .call c next, choices, s =>
    remaining (next (handle (choices 0) c s).1) (fun i => choices (i + 1)) (handle (choices 0) c s).2

theorem exec_bind_remaining (p : Prog C R α) (f : α → Prog C R β) (choices : ℕ → ε) (s : σ) :
    exec handle (p >>= f) choices s =
      match exec handle p choices s with
      | (some a, s') => exec handle (f a) (remaining handle p choices s) s'
      | (none, s') => (none, s') := by
  induction p generalizing choices s with
  | ret a => rfl
  | abort => rfl
  | call c next ih => exact ih _ _ _

variable {choices : ℕ → ε} {s s' : σ} {p : ExceptT η (Prog C R) α}

theorem exec_bind_of_ok {a : α} (f : α → ExceptT η (Prog C R) β)
    (h : exec handle p.run choices s = (some (.ok a), s')) :
    exec handle (p >>= f).run choices s = exec handle (f a).run (remaining handle p.run choices s) s' := by
  rw [ExceptT.run_bind, exec_bind_remaining, h]

theorem exec_bind_of_error {e : η} (f : α → ExceptT η (Prog C R) β)
    (h : exec handle p.run choices s = (some (.error e), s')) :
    exec handle (p >>= f).run choices s = (some (.error e), s') := by
  rw [ExceptT.run_bind, exec_bind_remaining, h]
  rfl

end Parts

section WpIf

theorem wpIf_mono {post post' : Option α → σ → Prop} (h : ∀ a s, post a s → post' a s) {p : Prog C R α} {s : σ}
    (hp : wpIf handle ok post p s) : wpIf handle ok post' p s := by
  induction p generalizing s with
  | ret a => exact h _ _ hp
  | abort => exact h _ _ hp
  | call c next ih => exact fun e he => ih _ (hp e he)

theorem wpIf_bind {post : Option β → σ → Prop} {p : Prog C R α} {f : α → Prog C R β} {s : σ}
    (h : wpIf handle ok (fun a s' => match a with
      | some a => wpIf handle ok post (f a) s'
      | none => post none s') p s) : wpIf handle ok post (p >>= f) s := by
  induction p generalizing s with
  | ret a => exact h
  | abort => exact h
  | call c next ih => exact fun e he => ih _ (h e he)

end WpIf

variable (handle ok) in
/-- As long as the environment's decisions meet `ok`, a program that is not cut short succeeds with `post` or
fails with `err`. -/
def Endures (post : α → σ → Prop) (err : η → σ → Prop) (p : ExceptT η (Prog C R) α) (s : σ) : Prop :=
  wpIf handle ok (fun r s' => ∀ x, r = some x → match x with
    | .ok a => post a s'
    | .error e => err e s') p.run s

variable {post post' : α → σ → Prop} {err err' : η → σ → Prop} {s : σ}

theorem endures_pure {a : α} (h : post a s) : Endures handle ok post err (pure a : ExceptT η (Prog C R) α) s := by
  intro x hx
  cases Option.some.inj hx
  exact h

theorem endures_lift {r : Except η α} (herr : ∀ e, r = .error e → err e s) (h : ∀ a, r = .ok a → post a s) :
    Endures handle ok post err (liftM r : ExceptT η (Prog C R) α) s := by
  intro x hx
  cases Option.some.inj hx
  cases r with
  | ok a => exact h a rfl
  | error e => exact herr e rfl

theorem endures_mono (h : ∀ a s, post a s → post' a s) (herr : ∀ e s, err e s → err' e s)
    {p : ExceptT η (Prog C R) α} (hp : Endures handle ok post err p s) : Endures handle ok post' err' p s := by
  refine wpIf_mono (fun r s' hr x hx => ?_) hp
  have hr := hr x hx
  cases x with
  | ok a => exact h a s' hr
  | error e => exact herr e s' hr

theorem endures_bind {post : β → σ → Prop} {p : ExceptT η (Prog C R) α} {f : α → ExceptT η (Prog C R) β}
    (h : Endures handle ok (fun a s' => Endures handle ok post err (f a) s') err p s) :
    Endures handle ok post err (p >>= f) s := by
  rw [Endures, ExceptT.run_bind]
  refine wpIf_bind (wpIf_mono (fun r s' hr => ?_) h)
  cases r with
  | none => exact fun x hx => nomatch hx
  | some r =>
    have hr := hr r rfl
    cases r with
    | ok a => exact hr
    | error e =>
      intro x hx
      cases Option.some.inj hx
      exact hr

theorem endures_lift_bind {post : β → σ → Prop} {r : Except η α} {f : α → ExceptT η (Prog C R) β}
    (herr : ∀ e, r = .error e → err e s) (hf : ∀ a, r = .ok a → Endures handle ok post err (f a) s) :
    Endures handle ok post err (liftM r >>= f) s :=
  endures_bind (endures_lift herr hf)

theorem endures_ask_bind {post : β → σ → Prop} (c : C) (f : R c → ExceptT η (Prog C R) β)
    (hf : ∀ e, ok e c s → Endures handle ok post err (f (handle e c s).1) (handle e c s).2) :
    Endures handle ok post err (ask c >>= f) s :=
  hf

theorem endures_of_yields {P : C → Prop} {I : σ → Prop} {given : α → Prop} {p : ExceptT η (Prog C R) α}
    (h : Yields P given p) (hP : ∀ e c s, P c → I s → I (handle e c s).2) (hs : I s) :
    Endures handle ok (fun a s' => I s' ∧ given a) (fun _ s' => I s') p s := by
  suffices hwp : ∀ (q : Prog C R (Except η α)) (s : σ), Prog.Gives P (fun r => ∀ a, r = .ok a → given a) q → I s →
      wpIf handle ok (fun r s' => ∀ x, r = some x → match x with
        | .ok a => I s' ∧ given a
        | .error _ => I s') q s from hwp p.run s h hs
  intro q
  induction q with
  | ret r =>
    intro s hq hs x hx
    cases Option.some.inj hx
    cases r with
    | ok a => exact ⟨hs, hq a rfl⟩
    | error e => exact hs
  | abort => exact fun s hq => hq.elim
  | call c next ih => exact fun s hq hs e _ => ih _ _ (hq.2 _) (hP e c s hq.1 hs)

theorem endures_yields_bind {P : C → Prop} {I : σ → Prop} {given : α → Prop} {post : β → σ → Prop}
    {p : ExceptT η (Prog C R) α} {f : α → ExceptT η (Prog C R) β} (hp : Yields P given p)
    (hP : ∀ e c s, P c → I s → I (handle e c s).2) (hs : I s) (herr : ∀ e s', I s' → err e s')
    (hf : ∀ a s', I s' → given a → Endures handle ok post err (f a) s') :
    Endures handle ok post err (p >>= f) s :=
  endures_bind (endures_mono (fun a s' h => hf a s' h.1 h.2) herr (endures_of_yields hp hP hs))

theorem admits_of_forall (h : ∀ e c s, ok e c s) (p : Prog C R α) (choices : ℕ → ε) (s : σ) :
    Admits handle ok p choices s := by
  induction p generalizing choices s with
  | ret a => trivial
  | abort => trivial
  | call c next ih => exact ⟨h _ _ _, ih _ _ _⟩

theorem exec_of_endures {p : ExceptT η (Prog C R) α} (h : Endures handle ok post err p s) {choices : ℕ → ε}
    (hok : Admits handle ok p.run choices s) :
    (∀ a, (exec handle p.run choices s).1 = some (.ok a) → post a (exec handle p.run choices s).2) ∧
      ∀ e, (exec handle p.run choices s).1 = some (.error e) → err e (exec handle p.run choices s).2 := by
  have hpost := exec_of_wpIf h hok
  exact ⟨fun a ha => hpost _ ha, fun e he => hpost _ he⟩

end MercuryLayer.Library.Endurance
