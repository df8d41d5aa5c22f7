import Mathlib.Data.List.Basic

namespace MercuryLayer.Library.Programs

/-- A program that calls its environment and goes on with the reply. It ends with a result or
is cut short. -/
inductive Prog (C : Type) (R : C → Type) (α : Type)
  | ret (a : α)
  | abort
  | call (c : C) (next : R c → Prog C R α)

variable {C : Type} {R : C → Type} {α β σ ε : Type}

namespace Prog

def bind : Prog C R α → (α → Prog C R β) → Prog C R β
  | .ret a, f => f a
  | .abort, _ => .abort
  | .call c next, f => .call c (fun r => (next r).bind f)

instance : Monad (Prog C R) where
  pure := .ret
  bind := bind

def perform (c : C) : Prog C R (R c) := .call c .ret

/-- `Option::unwrap`: a missing value cuts the program short. -/
def unwrap : Option α → Prog C R α
  | some a => .ret a
  | none => .abort

def next? : Prog C R α → Option C
  | .call c _ => some c
  | _ => none

@[simp] theorem pure_eq (a : α) : (pure a : Prog C R α) = .ret a := rfl

@[simp] theorem ret_bind (a : α) (f : α → Prog C R β) : (.ret a >>= f) = f a := rfl

@[simp] theorem abort_bind (f : α → Prog C R β) : (.abort >>= f) = .abort := rfl

@[simp] theorem call_bind (c : C) (next : R c → Prog C R α) (f : α → Prog C R β) :
    (.call c next >>= f) = .call c (fun r => next r >>= f) := rfl

@[simp] theorem perform_bind (c : C) (f : R c → Prog C R β) : (perform c >>= f) = .call c f := rfl

theorem id_map_eq (p : Prog C R α) : id <$> p = p := by
  induction p with
  | ret a => rfl
  | abort => rfl
  | call c next ih => exact congrArg (Prog.call c) (funext ih)

theorem bind_assoc_eq {γ : Type} (p : Prog C R α) (f : α → Prog C R β) (g : β → Prog C R γ) :
    p >>= f >>= g = p >>= fun a => f a >>= g := by
  induction p with
  | ret a => rfl
  | abort => rfl
  | call c next ih => exact congrArg (Prog.call c) (funext ih)

instance : LawfulMonad (Prog C R) :=
  LawfulMonad.mk' _ id_map_eq (fun _ _ => rfl) bind_assoc_eq

/-- Every call that the program can make meets `P`. -/
def Only (P : C → Prop) : Prog C R α → Prop
  | .ret _ => True
  | .abort => True
  | .call c next => P c ∧ ∀ r, Only P (next r)

variable {P Q : C → Prop}

theorem Only.bind {p : Prog C R α} {f : α → Prog C R β} (hp : Only P p) (hf : ∀ a, Only P (f a)) :
    Only P (p >>= f) := by
  induction p with
  | ret a => exact hf a
  | abort => trivial
  | call c next ih => exact ⟨hp.1, fun r => ih r (hp.2 r)⟩

theorem Only.mono (h : ∀ c, P c → Q c) {p : Prog C R α} (hp : Only P p) : Only Q p := by
  induction p with
  | ret a => trivial
  | abort => trivial
  | call c next ih => exact ⟨h c hp.1, fun r => ih r (hp.2 r)⟩

theorem only_unwrap (o : Option α) : Only P (unwrap o : Prog C R α) := by
  cases o <;> trivial

/-- Every call that the program can make meets `P`, and it ends with a result that meets `post`. -/
def Gives (P : C → Prop) (post : α → Prop) : Prog C R α → Prop
  | .ret a => post a
  | .abort => False
  | .call c next => P c ∧ ∀ r, Gives P post (next r)

theorem Gives.bind {post : α → Prop} {post' : β → Prop} {p : Prog C R α} {f : α → Prog C R β} (hp : Gives P post p)
    (hf : ∀ a, post a → Gives P post' (f a)) : Gives P post' (p >>= f) := by
  induction p with
  | ret a => exact hf a hp
  | abort => exact hp
  | call c next ih => exact ⟨hp.1, fun r => ih r (hp.2 r)⟩

theorem Gives.mono {post post' : α → Prop} (hP : ∀ c, P c → Q c) (h : ∀ a, post a → post' a) {p : Prog C R α}
    (hp : Gives P post p) : Gives Q post' p := by
  induction p with
  | ret a => exact h a hp
  | abort => exact hp
  | call c next ih => exact ⟨hP c hp.1, fun r => ih r (hp.2 r)⟩

section Embed

variable {C' : Type} {R' : C' → Type}

/-- The program as a part of one that can make more calls. -/
def embed (f : C → C') : Prog C (fun c => R' (f c)) α → Prog C' R' α
  | .ret a => .ret a
  | .abort => .abort
  | .call c next => .call (f c) (fun r => embed f (next r))

theorem next?_embed (f : C → C') (p : Prog C (fun c => R' (f c)) α) :
    (embed f p).next? = p.next?.map f := by
  cases p <;> rfl

theorem Gives.embed {f : C → C'} {P' : C' → Prop} {post : α → Prop} {p : Prog C (fun c => R' (f c)) α}
    (hp : Gives P post p) (h : ∀ c, P c → P' (f c)) : Gives P' post (Prog.embed f p) := by
  induction p with
  | ret a => exact hp
  | abort => exact hp
  | call c next ih => exact ⟨h c hp.1, fun r => ih r (hp.2 r)⟩

end Embed

/-- The program with its calls marked by whom they come from, and numbered. -/
def tag {τ : Type} (t : τ) : Prog C R α → ℕ → Prog (τ × ℕ × C) (fun c => R c.2.2) α
  | .ret a, _ => .ret a
  | .abort, _ => .abort
  | .call c next, k => .call (t, k, c) (fun r => tag t (next r) (k + 1))

theorem next?_tag {τ : Type} (t : τ) (p : Prog C R α) (k : ℕ) :
    (tag t p k).next? = p.next?.map (fun c => (t, k, c)) := by
  cases p <;> rfl

end Prog

section Exec

variable (handle : ε → (c : C) → σ → R c × σ)

/-- The program alone, from start to end. The environment decides call by call. -/
def exec : Prog C R α → (ℕ → ε) → σ → Option α × σ
  | .ret a, _, s => (some a, s)
  | .abort, _, s => (none, s)
  | .call c next, choices, s =>
    let (r, s') := handle (choices 0) c s
    exec (next r) (fun i => choices (i + 1)) s'

/-- Whatever the environment decides, the program ends with `post`. -/
def wp (post : Option α → σ → Prop) : Prog C R α → σ → Prop
  | .ret a, s => post (some a) s
  | .abort, s => post none s
  | .call c next, s => ∀ e, wp post (next (handle e c s).1) (handle e c s).2

variable {handle}

@[simp] theorem wp_ret {post : Option α → σ → Prop} {a : α} {s : σ} :
    wp handle post (.ret a : Prog C R α) s ↔ post (some a) s := Iff.rfl

@[simp] theorem wp_abort {post : Option α → σ → Prop} {s : σ} :
    wp handle post (.abort : Prog C R α) s ↔ post none s := Iff.rfl

theorem wp_bind {post : Option β → σ → Prop} {p : Prog C R α} {f : α → Prog C R β} {s : σ} :
    wp handle post (p >>= f) s ↔
      wp handle (fun a s' => match a with
        | some a => wp handle post (f a) s'
        | none => post none s') p s := by
  induction p generalizing s with
  | ret a => exact Iff.rfl
  | abort => exact Iff.rfl
  | call c next ih => exact forall_congr' (fun e => ih _)

theorem wp_mono {post post' : Option α → σ → Prop} (h : ∀ a s, post a s → post' a s) {p : Prog C R α} {s : σ}
    (hp : wp handle post p s) : wp handle post' p s := by
  induction p generalizing s with
  | ret a => exact h _ _ hp
  | abort => exact h _ _ hp
  | call c next ih => exact fun e => ih _ (hp e)

theorem exec_of_wp {post : Option α → σ → Prop} {p : Prog C R α} {s : σ} (h : wp handle post p s)
    (choices : ℕ → ε) : post (exec handle p choices s).1 (exec handle p choices s).2 := by
  induction p generalizing s choices with
  | ret a => exact h
  | abort => exact h
  | call c next ih => exact ih _ (h (choices 0)) _

variable (handle) in
/-- Every call of the execution meets `ok` in the state in which it is made. -/
def Admits (ok : ε → C → σ → Prop) : Prog C R α → (ℕ → ε) → σ → Prop
  | .ret _, _, _ => True
  | .abort, _, _ => True
  | .call c next, choices, s =>
    ok (choices 0) c s ∧
      Admits ok (next (handle (choices 0) c s).1) (fun i => choices (i + 1)) (handle (choices 0) c s).2

instance Admits.decidable (ok : ε → C → σ → Prop) [∀ e c s, Decidable (ok e c s)] :
    (p : Prog C R α) → (choices : ℕ → ε) → (s : σ) → Decidable (Admits handle ok p choices s)
  | .ret _, _, _ => isTrue trivial
  | .abort, _, _ => isTrue trivial
  | .call c next, choices, s =>
    have := Admits.decidable ok (next (handle (choices 0) c s).1) (fun i => choices (i + 1))
      (handle (choices 0) c s).2
    inferInstanceAs (Decidable (_ ∧ _))

variable (handle) in
/-- The environment with a record of the calls made to it, the last one first. -/
def recording (e : ε) (c : C) (s : σ × List C) : R c × σ × List C :=
  ((handle e c s.1).1, (handle e c s.1).2, c :: s.2)

variable (handle) in
/-- The states that the program passes through, the first and the last included. -/
def trail : Prog C R α → (ℕ → ε) → σ → List σ
  | .ret _, _, s => [s]
  | .abort, _, s => [s]
  | .call c next, choices, s =>
    s :: trail (next (handle (choices 0) c s).1) (fun i => choices (i + 1)) (handle (choices 0) c s).2

variable (handle) in
/-- As long as the environment's decisions meet `ok`, the program ends with `post`. -/
def wpIf (ok : ε → C → σ → Prop) (post : Option α → σ → Prop) : Prog C R α → σ → Prop
  | .ret a, s => post (some a) s
  | .abort, s => post none s
  | .call c next, s => ∀ e, ok e c s → wpIf ok post (next (handle e c s).1) (handle e c s).2

theorem exec_of_wpIf {ok : ε → C → σ → Prop} {post : Option α → σ → Prop} {p : Prog C R α} {s : σ}
    (h : wpIf handle ok post p s) {choices : ℕ → ε} (hok : Admits handle ok p choices s) :
    post (exec handle p choices s).1 (exec handle p choices s).2 := by
  induction p generalizing s choices with
  | ret a => exact h
  | abort => exact h
  | call c next ih => exact ih _ (h (choices 0) hok.1) hok.2

theorem admits_of_forall {ok : ε → Prop} {p : Prog C R α} {s : σ} {choices : ℕ → ε} (h : ∀ i, ok (choices i)) :
    Admits handle (fun e _ _ => ok e) p choices s := by
  induction p generalizing s choices with
  | ret a => trivial
  | abort => trivial
  | call c next ih => exact ⟨h 0, ih _ (fun i => h (i + 1))⟩

/-- In an environment that decides every call alike, a sequence is executed part by part. -/
theorem exec_bind (e : ε) (p : Prog C R α) (f : α → Prog C R β) (s : σ) :
    exec handle (p >>= f) (fun _ => e) s =
      match exec handle p (fun _ => e) s with
      | (some a, s') => exec handle (f a) (fun _ => e) s'
      | (none, s') => (none, s') := by
  induction p generalizing s with
  | ret a => rfl
  | abort => rfl
  | call c next ih => exact ih _ _

end Exec

section Fallible

variable {η : Type} (handle : ε → (c : C) → σ → R c × σ)

/-- One call of a program that can also end with an error. -/
def ask (c : C) : ExceptT η (Prog C R) (R c) := ExceptT.lift (Prog.perform c)

/-- Whatever the environment decides, a program that is not cut short ends with `post`. -/
def wpe (post : Except η α → σ → Prop) (p : ExceptT η (Prog C R) α) (s : σ) : Prop :=
  wp handle (fun r s' => ∀ x, r = some x → post x s') p.run s

/-- Every call that the program can make meets `P`, and what it succeeds with meets `post`. -/
def Yields (P : C → Prop) (post : α → Prop) (p : ExceptT η (Prog C R) α) : Prop :=
  Prog.Gives P (fun r => ∀ a, r = .ok a → post a) p.run

section Yields

variable {P Q : C → Prop}

theorem yields_pure {post : α → Prop} {a : α} (h : post a) : Yields P post (pure a : ExceptT η (Prog C R) α) :=
  fun _ ha => Except.ok.inj ha ▸ h

theorem yields_lift {post : α → Prop} {r : Except η α} (h : ∀ a, r = .ok a → post a) :
    Yields P post (liftM r : ExceptT η (Prog C R) α) := h

theorem yields_mono {post post' : α → Prop} (hP : ∀ c, P c → Q c) (h : ∀ a, post a → post' a)
    {p : ExceptT η (Prog C R) α} (hp : Yields P post p) : Yields Q post' p :=
  Prog.Gives.mono hP (fun _ hr a ha => h a (hr a ha)) hp

theorem yields_bind {post : α → Prop} {post' : β → Prop} {p : ExceptT η (Prog C R) α}
    {f : α → ExceptT η (Prog C R) β} (hp : Yields P post p) (hf : ∀ a, post a → Yields P post' (f a)) :
    Yields P post' (p >>= f) := by
  rw [Yields, ExceptT.run_bind]
  refine Prog.Gives.bind hp (fun r hr => ?_)
  cases r with
  | ok a => exact hf a (hr a rfl)
  | error e => exact fun a ha => nomatch ha

theorem yields_lift_bind {post : β → Prop} {r : Except η α} {f : α → ExceptT η (Prog C R) β}
    (hf : ∀ a, r = .ok a → Yields P post (f a)) : Yields P post (liftM r >>= f) :=
  yields_bind (yields_lift fun _ h => h) hf

theorem yields_ask_bind {post : β → Prop} (c : C) (f : R c → ExceptT η (Prog C R) β) (hc : P c)
    (hf : ∀ r, Yields P post (f r)) : Yields P post (ask c >>= f) :=
  ⟨hc, hf⟩

theorem yields_forM {given : α → Prop} {as : List α} {f : α → ExceptT η (Prog C R) PUnit}
    (h : ∀ a ∈ as, Yields P (fun _ => given a) (f a)) : Yields P (fun _ => ∀ a ∈ as, given a) (as.forM f) := by
  induction as with
  | nil => exact yields_pure (fun _ ha => absurd ha List.not_mem_nil)
  | cons a as ih =>
    obtain ⟨ha, has⟩ := List.forall_mem_cons.mp h
    refine yields_bind ha (fun _ hgiven => ?_)
    exact yields_mono (fun _ hc => hc) (fun _ hall => List.forall_mem_cons.mpr ⟨hgiven, hall⟩) (ih has)

end Yields

variable {handle} {post : Except η β → σ → Prop} {s : σ}

theorem wpe_pure {post : Except η α → σ → Prop} {a : α} :
    wpe handle post (pure a : ExceptT η (Prog C R) α) s ↔ post (.ok a) s :=
  ⟨fun h => h _ rfl, fun h _ hx => Option.some.inj hx ▸ h⟩

theorem wpe_lift {post : Except η α → σ → Prop} {r : Except η α} :
    wpe handle post (liftM r : ExceptT η (Prog C R) α) s ↔ post r s :=
  ⟨fun h => h _ rfl, fun h _ hx => Option.some.inj hx ▸ h⟩

theorem wpe_ask {c : C} {post : Except η (R c) → σ → Prop} :
    wpe handle post (ask c : ExceptT η (Prog C R) (R c)) s ↔
      ∀ e, post (.ok (handle e c s).1) (handle e c s).2 :=
  ⟨fun h e => h e _ rfl, fun h e _ hx => Option.some.inj hx ▸ h e⟩

theorem wpe_bind {p : ExceptT η (Prog C R) α} {f : α → ExceptT η (Prog C R) β}
    (h : wpe handle (fun r s' => match r with
      | .ok a => wpe handle post (f a) s'
      | .error e => post (.error e) s') p s) :
    wpe handle post (p >>= f) s := by
  rw [wpe, ExceptT.run_bind, wp_bind]
  refine wp_mono (fun r s' hr => ?_) h
  cases r with
  | none => exact nofun
  | some r =>
    have hr := hr r rfl
    cases r with
    | ok a => exact hr
    | error e => exact fun x hx => Option.some.inj hx ▸ hr

theorem wpe_ask_bind (c : C) (f : R c → ExceptT η (Prog C R) β)
    (h : ∀ e, wpe handle post (f (handle e c s).1) (handle e c s).2) : wpe handle post (ask c >>= f) s :=
  wpe_bind (wpe_ask.mpr h)

theorem wpe_mono {post post' : Except η α → σ → Prop} (h : ∀ r s, post r s → post' r s)
    {p : ExceptT η (Prog C R) α} (hp : wpe handle post p s) : wpe handle post' p s :=
  wp_mono (fun _ _ hr x hx => h _ _ (hr x hx)) hp

theorem exec_of_wpe {post : Except η α → σ → Prop} {p : ExceptT η (Prog C R) α} (h : wpe handle post p s)
    {choices : ℕ → ε} {r : Except η α} (hr : (exec handle p.run choices s).1 = some r) :
    post r (exec handle p.run choices s).2 :=
  exec_of_wp h choices r hr

variable (handle) in
/-- Whatever the environment decides, a program that succeeds ends with `post`. -/
def Ensures (post : α → σ → Prop) (p : ExceptT η (Prog C R) α) (s : σ) : Prop :=
  wpe handle (fun r s' => ∀ a, r = .ok a → post a s') p s

theorem ensures_pure {post : α → σ → Prop} {a : α} (h : post a s) :
    Ensures handle post (pure a : ExceptT η (Prog C R) α) s :=
  wpe_pure.mpr (fun _ ha => Except.ok.inj ha ▸ h)

theorem ensures_lift {post : α → σ → Prop} {r : Except η α} (h : ∀ a, r = .ok a → post a s) :
    Ensures handle post (liftM r : ExceptT η (Prog C R) α) s :=
  wpe_lift.mpr h

theorem ensures_bind {post : β → σ → Prop} {p : ExceptT η (Prog C R) α} {f : α → ExceptT η (Prog C R) β}
    (h : Ensures handle (fun a s' => Ensures handle post (f a) s') p s) : Ensures handle post (p >>= f) s := by
  refine wpe_bind (wpe_mono (fun r s' hr => ?_) h)
  cases r with
  | ok a => exact hr a rfl
  | error e => exact nofun

theorem ensures_ask_bind {post : β → σ → Prop} (c : C) (f : R c → ExceptT η (Prog C R) β)
    (h : ∀ e, Ensures handle post (f (handle e c s).1) (handle e c s).2) : Ensures handle post (ask c >>= f) s :=
  wpe_ask_bind c f h

theorem ensures_mono {post post' : α → σ → Prop} (h : ∀ a s, post a s → post' a s)
    {p : ExceptT η (Prog C R) α} (hp : Ensures handle post p s) : Ensures handle post' p s :=
  wpe_mono (fun _ _ hr a ha => h _ _ (hr a ha)) hp

theorem ensures_of_forall {post : α → σ → Prop} (h : ∀ a s, post a s) {p : ExceptT η (Prog C R) α} :
    Ensures handle post p s := by
  suffices hwp : ∀ (q : Prog C R (Except η α)) (s : σ),
      wp handle (fun r s' => ∀ x, r = some x → ∀ a, x = .ok a → post a s') q s from hwp p.run s
  intro q
  induction q with
  | ret r => exact fun s x _ a _ => h a s
  | abort => exact fun s x hx => nomatch hx
  | call c next ih => exact fun s e => ih _ _

theorem exec_of_ensures {post : α → σ → Prop} {p : ExceptT η (Prog C R) α} (h : Ensures handle post p s)
    {choices : ℕ → ε} {a : α} (ha : (exec handle p.run choices s).1 = some (.ok a)) :
    post a (exec handle p.run choices s).2 :=
  exec_of_wpe h ha a rfl

variable (handle) in
/-- Whatever the environment decides, a program succeeds with `ok` or fails with `err`. -/
def Attempts (ok : α → σ → Prop) (err : σ → Prop) (p : ExceptT η (Prog C R) α) (s : σ) : Prop :=
  wpe handle (fun r s' => match r with
    | .ok a => ok a s'
    | .error _ => err s') p s

section Attempts

variable {ok ok' : α → σ → Prop} {err err' : σ → Prop}

theorem attempts_pure {a : α} (h : ok a s) : Attempts handle ok err (pure a : ExceptT η (Prog C R) α) s :=
  wpe_pure.mpr h

theorem attempts_lift {r : Except η α} (herr : err s) (hok : ∀ a, r = .ok a → ok a s) :
    Attempts handle ok err (liftM r : ExceptT η (Prog C R) α) s := by
  refine wpe_lift.mpr ?_
  cases r with
  | ok a => exact hok a rfl
  | error e => exact herr

theorem attempts_mono (hok : ∀ a s, ok a s → ok' a s) (herr : ∀ s, err s → err' s) {p : ExceptT η (Prog C R) α}
    (h : Attempts handle ok err p s) : Attempts handle ok' err' p s := by
  refine wpe_mono (fun r s' hr => ?_) h
  cases r with
  | ok a => exact hok a s' hr
  | error e => exact herr s' hr

theorem attempts_bind {ok : β → σ → Prop} {p : ExceptT η (Prog C R) α} {f : α → ExceptT η (Prog C R) β}
    (h : Attempts handle (fun a s' => Attempts handle ok err (f a) s') err p s) :
    Attempts handle ok err (p >>= f) s := by
  refine wpe_bind (wpe_mono (fun r s' hr => ?_) h)
  cases r with
  | ok a => exact hr
  | error e => exact hr

theorem attempts_ask_bind {ok : β → σ → Prop} (c : C) (f : R c → ExceptT η (Prog C R) β)
    (h : ∀ e, Attempts handle ok err (f (handle e c s).1) (handle e c s).2) :
    Attempts handle ok err (ask c >>= f) s :=
  wpe_ask_bind c f h

theorem attempts_forM {as : List α} {f : α → ExceptT η (Prog C R) PUnit}
    (h : ∀ a ∈ as, Attempts handle (fun _ s' => s' = s) (fun s' => s' = s) (f a) s) :
    Attempts handle (fun _ s' => s' = s) (fun s' => s' = s) (as.forM f) s := by
  induction as with
  | nil => exact attempts_pure rfl
  | cons a as ih =>
    obtain ⟨ha, has⟩ := List.forall_mem_cons.mp h
    refine attempts_bind (attempts_mono (fun _ s' hs' => ?_) (fun _ h => h) ha)
    rw [hs']
    exact ih has

theorem attempts_of_yields {P : C → Prop} {I : σ → Prop} {post : α → Prop} {p : ExceptT η (Prog C R) α}
    (h : Yields P post p) (hP : ∀ e c s, P c → I s → I (handle e c s).2) (hs : I s) :
    Attempts handle (fun a s' => I s' ∧ post a) I p s := by
  suffices hwp : ∀ (q : Prog C R (Except η α)) (s : σ), Prog.Gives P (fun r => ∀ a, r = .ok a → post a) q → I s →
      wp handle (fun r s' => ∀ x, r = some x → match x with
        | .ok a => I s' ∧ post a
        | .error _ => I s') q s from hwp p.run s h hs
  intro q
  induction q with
  | ret r =>
    intro s hq hs x hx
    cases Option.some.inj hx
    cases r with
    | ok a => exact ⟨hs, hq a rfl⟩
    | error e => exact hs
  | abort => exact fun s hq => hq.elim
  | call c next ih => exact fun s hq hs e => ih _ _ (hq.2 _) (hP e c s hq.1 hs)

/-- A program whose calls leave the state as it is leaves it so. -/
theorem attempts_of_yields_still {P : C → Prop} {post : α → Prop} {p : ExceptT η (Prog C R) α} (h : Yields P post p)
    (hP : ∀ e c s, P c → (handle e c s).2 = s) :
    Attempts handle (fun a s' => s' = s ∧ post a) (fun s' => s' = s) p s := by
  refine attempts_of_yields h (fun e c s' hc hs' => ?_) rfl
  rw [hP e c s' hc]
  exact hs'

theorem attempts_and_yields {P : C → Prop} {post : α → Prop} {p : ExceptT η (Prog C R) α}
    (h : Attempts handle ok err p s) (hp : Yields P post p) :
    Attempts handle (fun a s' => ok a s' ∧ post a) err p s := by
  suffices hwp : ∀ (q : Prog C R (Except η α)) (s : σ), Prog.Gives P (fun r => ∀ a, r = .ok a → post a) q →
      wp handle (fun r s' => ∀ x, r = some x → match x with
        | .ok a => ok a s'
        | .error _ => err s') q s →
      wp handle (fun r s' => ∀ x, r = some x → match x with
        | .ok a => ok a s' ∧ post a
        | .error _ => err s') q s from hwp p.run s hp h
  intro q
  induction q with
  | ret r =>
    intro s hq h x hx
    have h := h x hx
    cases Option.some.inj hx
    cases r with
    | ok a => exact ⟨h, hq a rfl⟩
    | error e => exact h
  | abort => exact fun s hq => hq.elim
  | call c next ih => exact fun s hq h e => ih _ _ (hq.2 _) (h e)

theorem exec_of_yields {P : C → Prop} {post : α → Prop} {p : ExceptT η (Prog C R) α} (h : Yields P post p)
    (choices : ℕ → ε) : ∃ r, (exec handle p.run choices s).1 = some r := by
  suffices hexec : ∀ (q : Prog C R (Except η α)) (choices : ℕ → ε) (s : σ),
      Prog.Gives P (fun r => ∀ a, r = .ok a → post a) q → ∃ r, (exec handle q choices s).1 = some r from
    hexec p.run choices s h
  intro q
  induction q with
  | ret r => exact fun _ _ _ => ⟨r, rfl⟩
  | abort => exact fun _ _ hq => hq.elim
  | call c next ih => exact fun _ _ hq => ih _ _ _ (hq.2 _)

theorem ensures_of_attempts {p : ExceptT η (Prog C R) α} (h : Attempts handle ok err p s) :
    Ensures handle ok p s := by
  refine wpe_mono (fun r s' hr a ha => ?_) h
  subst ha
  exact hr

theorem ensures_yields_bind {P : C → Prop} {I : σ → Prop} {given : α → Prop} {post : β → σ → Prop}
    {p : ExceptT η (Prog C R) α} {f : α → ExceptT η (Prog C R) β} (hp : Yields P given p)
    (hP : ∀ e c s, P c → I s → I (handle e c s).2) (hs : I s)
    (hf : ∀ a s', I s' → given a → Ensures handle post (f a) s') : Ensures handle post (p >>= f) s :=
  ensures_bind (ensures_mono (fun a s' h => hf a s' h.1 h.2) (ensures_of_attempts (attempts_of_yields hp hP hs)))

theorem exec_of_attempts {p : ExceptT η (Prog C R) α} (h : Attempts handle ok err p s) (choices : ℕ → ε) :
    (∀ a, (exec handle p.run choices s).1 = some (.ok a) → ok a (exec handle p.run choices s).2) ∧
      ∀ e, (exec handle p.run choices s).1 = some (.error e) → err (exec handle p.run choices s).2 :=
  ⟨fun _ ha => exec_of_wpe h ha, fun _ he => exec_of_wpe h he⟩

end Attempts

theorem exec_map_eq_ok {p : ExceptT η (Prog C R) α} {f : α → β} {choices : ℕ → ε} {b : β}
    (h : (exec handle (p >>= fun a => pure (f a)).run choices s).1 = some (.ok b)) :
    ∃ a, (exec handle p.run choices s).1 = some (.ok a) ∧ b = f a := by
  suffices hexec : ∀ (q : Prog C R (Except η α)) (choices : ℕ → ε) (s : σ),
      (exec handle (q >>= ExceptT.bindCont fun a => pure (f a)) choices s).1 = some (.ok b) →
        ∃ a, (exec handle q choices s).1 = some (.ok a) ∧ b = f a from hexec p.run choices s h
  intro q
  induction q with
  | ret r =>
    intro choices s h
    cases r with
    | ok a => exact ⟨a, rfl, (Except.ok.inj (Option.some.inj h)).symm⟩
    | error e => cases Option.some.inj h
  | abort => exact fun choices s h => nomatch h
  | call c next ih => exact fun choices s h => ih _ _ _ h

section Comes

variable {e : ε} {η : Type}

variable (handle e s) in
/-- In an environment that decides every call in one way and that the calls leave as it is, the program
ends with the result. -/
def Comes (p : ExceptT η (Prog C R) α) (r : Except η α) : Prop :=
  exec handle p.run (fun _ => e) s = (some r, s)

theorem comes_lift {r : Except η α} : Comes handle s e (liftM r : ExceptT η (Prog C R) α) r := rfl

theorem comes_pure {a : α} : Comes handle s e (pure a : ExceptT η (Prog C R) α) (.ok a) := rfl

theorem comes_ask_bind {c : C} {f : R c → ExceptT η (Prog C R) β} {r : Except η β} (hc : (handle e c s).2 = s)
    (h : Comes handle s e (f (handle e c s).1) r) : Comes handle s e (ask c >>= f) r := by
  rw [Comes] at h ⊢
  rw [← h, ← congrArg (exec handle (f (handle e c s).1).run fun _ => e) hc]
  rfl

theorem exec_bind_of_comes_ok {p : ExceptT η (Prog C R) α} {a : α} (f : α → ExceptT η (Prog C R) β)
    (hp : Comes handle s e p (.ok a)) :
    exec handle (p >>= f).run (fun _ => e) s = exec handle (f a).run (fun _ => e) s := by
  rw [ExceptT.run_bind, exec_bind, hp]

theorem exec_bind_of_comes_error {p : ExceptT η (Prog C R) α} {x : η} (f : α → ExceptT η (Prog C R) β)
    (hp : Comes handle s e p (.error x)) : exec handle (p >>= f).run (fun _ => e) s = (some (.error x), s) := by
  rw [ExceptT.run_bind, exec_bind, hp]
  rfl

theorem comes_bind {p : ExceptT η (Prog C R) α} {r : Except η α} {f : α → ExceptT η (Prog C R) β}
    {g : α → Except η β} (hp : Comes handle s e p r) (hf : ∀ a, r = .ok a → Comes handle s e (f a) (g a)) :
    Comes handle s e (p >>= f) (r >>= g) := by
  cases r with
  | ok a => exact (exec_bind_of_comes_ok f hp).trans (hf a rfl)
  | error x => exact exec_bind_of_comes_error f hp

theorem comes_forM {as : List α} {f : α → ExceptT η (Prog C R) PUnit} {g : α → Except η PUnit}
    (h : ∀ a ∈ as, Comes handle s e (f a) (g a)) : Comes handle s e (as.forM f) (as.forM g) := by
  induction as with
  | nil => exact comes_pure
  | cons a as ih =>
    obtain ⟨ha, has⟩ := List.forall_mem_cons.mp h
    exact comes_bind ha (fun _ _ => ih has)

variable (handle e s) in
/-- The program fails with what the checks fail with, or goes on from their result. -/
def Opens (p : ExceptT η (Prog C R) α) (r : Except η β) (rest : β → ExceptT η (Prog C R) α) : Prop :=
  exec handle p.run (fun _ => e) s =
    match r with
    | .ok b => exec handle (rest b).run (fun _ => e) s
    | .error x => (some (.error x), s)

theorem opens_bind {γ : Type} {p : ExceptT η (Prog C R) α} {r : Except η α} {f : α → ExceptT η (Prog C R) β}
    {g : α → Except η γ} {rest : γ → ExceptT η (Prog C R) β} (hp : Comes handle s e p r)
    (hf : ∀ a, r = .ok a → Opens handle s e (f a) (g a) rest) : Opens handle s e (p >>= f) (r >>= g) rest := by
  cases r with
  | ok a => exact (exec_bind_of_comes_ok f hp).trans (hf a rfl)
  | error x => exact exec_bind_of_comes_error f hp

theorem opens_last {p : ExceptT η (Prog C R) α} {r : Except η α} {f rest : α → ExceptT η (Prog C R) β}
    (hp : Comes handle s e p r) (hf : ∀ a, Opens handle s e (f a) (.ok a) rest) : Opens handle s e (p >>= f) r rest := by
  cases r with
  | ok a => exact (exec_bind_of_comes_ok f hp).trans (hf a)
  | error x => exact exec_bind_of_comes_error f hp

end Comes

end Fallible

section Interleaving

/-- A store and the programs that share it, those that have ended included. -/
structure Config (C : Type) (R : C → Type) (α σ : Type) where
  store : σ
  threads : List (Prog C R α)

inductive Event (ρ ε : Type)
  | start (request : ρ)
  | advance (i : ℕ) (choice : ε)
  | stop (i : ℕ)

/-- A program makes its next calls, all with the same outcome. -/
def advances {ρ ε τ : Type} (thread : Event ρ ε → τ) (i calls : ℕ) (choice : ε) : List τ :=
  List.replicate calls (thread (.advance i choice))

variable {ρ : Type} (program : ρ → Prog C R α) (handle : ε → (c : C) → σ → R c × σ)

/-- One step of the interleaving: a program starts, makes its next call, or is stopped. -/
def Config.step (cfg : Config C R α σ) : Event ρ ε → Config C R α σ
  | .start request => { cfg with threads := cfg.threads ++ [program request] }
  | .advance i choice =>
    match cfg.threads[i]? with
    | some (.call c next) =>
      let (r, store') := handle choice c cfg.store
      ⟨store', cfg.threads.set i (next r)⟩
    | _ => cfg
  | .stop i => { cfg with threads := cfg.threads.set i .abort }

/-- Every program meets `P`, but for the one at the given place. -/
def AllBut (P : Prog C R α → Prop) (i : Option ℕ) (threads : List (Prog C R α)) : Prop :=
  ∀ j p, some j ≠ i → threads[j]? = some p → P p

/-- No program has a call left to make. -/
def Config.Idle (cfg : Config C R α σ) : Prop := ∀ p ∈ cfg.threads, p.next? = none

variable {program handle}

section AllBut

variable {P : Prog C R α → Prop} {i : Option ℕ} {threads : List (Prog C R α)} {p : Prog C R α}

theorem allBut_nil : AllBut P i ([] : List (Prog C R α)) := by
  intro j q _ hq
  simp at hq

theorem AllBut.append (h : AllBut P i threads) (hp : P p) : AllBut P i (threads ++ [p]) := by
  intro j q hj hq
  by_cases hlt : j < threads.length
  · rw [List.getElem?_append_left hlt] at hq
    exact h j q hj hq
  · rw [List.getElem?_append_right (Nat.le_of_not_lt hlt)] at hq
    rw [List.mem_singleton.mp (List.mem_of_getElem? hq)]
    exact hp

theorem AllBut.set (h : AllBut P i threads) (hp : P p) (k : ℕ) : AllBut P i (threads.set k p) := by
  intro j q hj hq
  by_cases hk : k = j
  · subst hk
    obtain ⟨hlt, rfl⟩ := List.getElem?_eq_some_iff.mp hq
    rw [List.getElem_set_self]
    exact hp
  · rw [List.getElem?_set_ne hk] at hq
    exact h j q hj hq

theorem AllBut.set_self {k : ℕ} (h : AllBut P (some k) threads) : AllBut P (some k) (threads.set k p) := by
  intro j q hj hq
  rw [List.getElem?_set_ne (fun hk => hj (congrArg some hk.symm))] at hq
  exact h j q hj hq

theorem AllBut.close {k : ℕ} (h : AllBut P (some k) threads) (hp : P p) : AllBut P none (threads.set k p) := by
  intro j q _ hq
  by_cases hk : k = j
  · subst hk
    obtain ⟨hlt, rfl⟩ := List.getElem?_eq_some_iff.mp hq
    rw [List.getElem_set_self]
    exact hp
  · rw [List.getElem?_set_ne hk] at hq
    exact h j q (fun hj => hk (Option.some.inj hj).symm) hq

theorem AllBut.leave (h : AllBut P none threads) : AllBut P i threads := by
  intro j q _ hq
  exact h j q nofun hq

end AllBut

theorem step_advance {cfg : Config C R α σ} {i : ℕ} {c : C} {next : R c → Prog C R α}
    (h : cfg.threads[i]? = some (.call c next)) (choice : ε) :
    cfg.step program handle (.advance i choice) =
      ⟨(handle choice c cfg.store).2, cfg.threads.set i (next (handle choice c cfg.store).1)⟩ := by
  simp only [Config.step, h]

variable (program handle) in
theorem step_advance_cases (cfg : Config C R α σ) (i : ℕ) (choice : ε) :
    cfg.step program handle (.advance i choice) = cfg ∨
      ∃ c next, cfg.threads[i]? = some (.call c next) ∧
        cfg.step program handle (.advance i choice) =
          ⟨(handle choice c cfg.store).2, cfg.threads.set i (next (handle choice c cfg.store).1)⟩ := by
  cases h : cfg.threads[i]? with
  | none => exact .inl (by simp only [Config.step, h])
  | some p =>
    cases p with
    | ret a => exact .inl (by simp only [Config.step, h])
    | abort => exact .inl (by simp only [Config.step, h])
    | call c next => exact .inr ⟨c, next, rfl, step_advance h choice⟩

end Interleaving

end MercuryLayer.Library.Programs
