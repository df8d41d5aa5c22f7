import MercuryLayer.Library.Matching
import MercuryLayer.Library.Programs

namespace MercuryLayer.Library.Monitors

open Library.Matching Library.Programs

variable {C : Type} {R : C → Type} {α β τ η σ ε : Type}

/-- What is noted along the calls of a program and their replies, and which calls are allowed
after it. -/
structure Monitor (C : Type) (R : C → Type) (τ : Type) where
  Allows : τ → C → Prop
  note : τ → (c : C) → R c → τ

/-- Every call of the program is allowed by what was noted before it. The program ends with
`post`. -/
def Holds (m : Monitor C R τ) (post : Option α → τ → Prop) : Prog C R α → τ → Prop
  | .ret a, t => post (some a) t
  | .abort, t => post none t
  | .call c next, t => m.Allows t c ∧ ∀ r, Holds m post (next r) (m.note t c r)

variable {m : Monitor C R τ} {t : τ}

theorem holds_mono {post post' : Option α → τ → Prop} (h : ∀ a t, post a t → post' a t) {p : Prog C R α}
    (hp : Holds m post p t) : Holds m post' p t := by
  induction p generalizing t with
  | ret a => exact h _ _ hp
  | abort => exact h _ _ hp
  | call c next ih => exact ⟨hp.1, fun r => ih r (hp.2 r)⟩

theorem holds_bind {post : Option β → τ → Prop} {p : Prog C R α} {f : α → Prog C R β}
    (h : Holds m (fun a t' => match a with
      | some a => Holds m post (f a) t'
      | none => post none t') p t) : Holds m post (p >>= f) t := by
  induction p generalizing t with
  | ret a => exact h
  | abort => exact h
  | call c next ih => exact ⟨h.1, fun r => ih r (h.2 r)⟩

section Embed

variable {C' : Type} {R' : C' → Type} {f : C → C'}

/-- The monitor for a part of the calls. -/
def Monitor.restrict (m : Monitor C' R' τ) (f : C → C') : Monitor C (fun c => R' (f c)) τ where
  Allows t c := m.Allows t (f c)
  note t c r := m.note t (f c) r

theorem holds_embed {m : Monitor C' R' τ} {post : Option α → τ → Prop} {p : Prog C (fun c => R' (f c)) α}
    (hp : Holds (m.restrict f) post p t) : Holds m post (Prog.embed f p) t := by
  induction p generalizing t with
  | ret a => exact hp
  | abort => exact hp
  | call c next ih => exact ⟨hp.1, fun r => ih r (hp.2 r)⟩

end Embed

/-- States that follow each other by an allowed call are related, so the trail of the program is
a chain. -/
theorem isChain_trail {handle : ε → (c : C) → σ → R c × σ} {Sim : σ → τ → Prop} {Succ : σ → σ → Prop}
    (hsim : ∀ e c s t, Sim s t → m.Allows t c → Sim (handle e c s).2 (m.note t c (handle e c s).1))
    (hsucc : ∀ e c s t, Sim s t → m.Allows t c → Succ s (handle e c s).2)
    {post : Option α → τ → Prop} {p : Prog C R α} {s : σ} (hp : Holds m post p t) (hs : Sim s t)
    (choices : ℕ → ε) : (trail handle p choices s).IsChain Succ := by
  induction p generalizing s t choices with
  | ret a => exact .singleton s
  | abort => exact .singleton s
  | call c next ih =>
    have hrest := ih _ (hp.2 _) (hsim (choices 0) c s t hs hp.1) (fun i => choices (i + 1))
    have hhead : ∀ (q : Prog C R α) (choices : ℕ → ε) (s : σ), ∃ rest, trail handle q choices s = s :: rest := by
      intro q choices s
      cases q <;> exact ⟨_, rfl⟩
    obtain ⟨rest, hrest'⟩ := hhead (next (handle (choices 0) c s).1) (fun i => choices (i + 1))
      (handle (choices 0) c s).2
    rw [trail, hrest']
    rw [hrest'] at hrest
    exact hrest.cons_cons (hsucc (choices 0) c s t hs hp.1)

section Fallible

/-- As `Holds`, for a program that succeeds with `ok` or fails with `err`. -/
def Keeps (m : Monitor C R τ) (ok : α → τ → Prop) (err : τ → Prop) (p : ExceptT η (Prog C R) α) (t : τ) : Prop :=
  Holds m (fun r t' => ∀ x, r = some x → match x with
    | .ok a => ok a t'
    | .error _ => err t') p.run t

variable {ok ok' : α → τ → Prop} {err err' : τ → Prop}

theorem keeps_pure {a : α} (h : ok a t) : Keeps m ok err (pure a : ExceptT η (Prog C R) α) t := by
  intro x hx
  cases Option.some.inj hx
  exact h

theorem keeps_lift {r : Except η α} (herr : err t) (hok : ∀ a, r = .ok a → ok a t) :
    Keeps m ok err (liftM r : ExceptT η (Prog C R) α) t := by
  intro x hx
  cases Option.some.inj hx
  cases r with
  | ok a => exact hok a rfl
  | error e => exact herr

theorem keeps_mono (hok : ∀ a t, ok a t → ok' a t) (herr : ∀ t, err t → err' t) {p : ExceptT η (Prog C R) α}
    (h : Keeps m ok err p t) : Keeps m ok' err' p t := by
  refine holds_mono (fun r t' hr x hx => ?_) h
  have hr := hr x hx
  cases x with
  | ok a => exact hok a t' hr
  | error e => exact herr t' hr

theorem keeps_bind {ok : β → τ → Prop} {p : ExceptT η (Prog C R) α} {f : α → ExceptT η (Prog C R) β}
    (h : Keeps m (fun a t' => Keeps m ok err (f a) t') err p t) : Keeps m ok err (p >>= f) t := by
  rw [Keeps, ExceptT.run_bind]
  refine holds_bind (holds_mono (fun r t' hr => ?_) h)
  cases r with
  | none => exact nofun
  | some r =>
    have hr := hr r rfl
    cases r with
    | ok a => exact hr
    | error e =>
      intro x hx
      cases Option.some.inj hx
      exact hr

theorem keeps_ask_bind {ok : β → τ → Prop} (c : C) (f : R c → ExceptT η (Prog C R) β) (hc : m.Allows t c)
    (hf : ∀ r, Keeps m ok err (f r) (m.note t c r)) : Keeps m ok err (ask c >>= f) t :=
  ⟨hc, hf⟩

/-- Calls that are always allowed and never noted leave the notes as they are. -/
theorem keeps_of_yields {P : C → Prop} {post : α → Prop} {p : ExceptT η (Prog C R) α} (h : Yields P post p)
    (hP : ∀ t c, P c → m.Allows t c ∧ ∀ r, m.note t c r = t) :
    Keeps m (fun a t' => t' = t ∧ post a) (fun t' => t' = t) p t := by
  suffices hholds : ∀ q : Prog C R (Except η α), Prog.Gives P (fun r => ∀ a, r = .ok a → post a) q →
      Holds m (fun r t' => ∀ x, r = some x → match x with
        | .ok a => t' = t ∧ post a
        | .error _ => t' = t) q t from hholds p.run h
  intro q
  induction q with
  | ret r =>
    intro hq x hx
    cases Option.some.inj hx
    cases r with
    | ok a => exact ⟨rfl, hq a rfl⟩
    | error e => rfl
  | abort => exact fun _ x hx => nomatch hx
  | call c next ih =>
    intro hq
    refine ⟨(hP t c hq.1).1, fun r => ?_⟩
    rw [(hP t c hq.1).2]
    exact ih r (hq.2 r)

theorem keeps_yields_bind {ok : β → τ → Prop} {P : C → Prop} {post : α → Prop} {p : ExceptT η (Prog C R) α}
    {f : α → ExceptT η (Prog C R) β} (hp : Yields P post p)
    (hP : ∀ t c, P c → m.Allows t c ∧ ∀ r, m.note t c r = t) (herr : err t)
    (hf : ∀ a, post a → Keeps m ok err (f a) t) : Keeps m ok err (p >>= f) t := by
  refine keeps_bind (keeps_mono (fun a t' h => ?_) (fun t' h => ?_) (keeps_of_yields hp hP))
  · rw [h.1]
    exact hf a h.2
  · rw [h]
    exact herr

end Fallible

section Watched

/-- Programs that share a store, with what has been noted along each of them. -/
structure Watched (C : Type) (R : C → Type) (α σ τ : Type) where
  config : Config C R α σ
  notes : List τ

variable {ρ : Type} (program : ρ → Prog C R α) (handle : ε → (c : C) → σ → R c × σ) (m : Monitor C R τ) (first : τ)

/-- The notes along the program that moves. -/
def Watched.noted (w : Watched C R α σ τ) : Event ρ ε → List τ
  | .start _ => w.notes ++ [first]
  | .advance i choice =>
    match w.config.threads[i]? with
    | some (.call c _) => w.notes.modify i (fun t => m.note t c (handle choice c w.config.store).1)
    | _ => w.notes
  | .stop _ => w.notes

def Watched.step (w : Watched C R α σ τ) (event : Event ρ ε) : Watched C R α σ τ :=
  ⟨w.config.step program handle event, w.noted handle m first event⟩

/-- What is left of each program is allowed by what has been noted along it. -/
def Watched.Followed (w : Watched C R α σ τ) : Prop :=
  List.Forall₂ (fun p t => Holds m (fun _ _ => True) p t) w.config.threads w.notes

variable {program handle m first} {w : Watched C R α σ τ}

theorem Watched.Followed.step (hprogram : ∀ request, Holds m (fun _ _ => True) (program request) first)
    (h : w.Followed m) (event : Event ρ ε) : (w.step program handle m first event).Followed m := by
  cases event with
  | start request => exact List.rel_append h (.cons (hprogram request) .nil)
  | stop i =>
    have habort : ∀ t, Holds m (fun _ _ => True) (.abort : Prog C R α) t := fun _ => trivial
    have hset := forall₂_set_modify (f := id) (i := i) h (fun t _ => habort t)
    rw [List.modify_id] at hset
    exact hset
  | advance i choice =>
    cases hp : w.config.threads[i]? with
    | none => simpa only [Followed, Watched.step, Config.step, Watched.noted, hp] using h
    | some p =>
      cases p with
      | ret a => simpa only [Followed, Watched.step, Config.step, Watched.noted, hp] using h
      | abort => simpa only [Followed, Watched.step, Config.step, Watched.noted, hp] using h
      | call c next =>
        obtain ⟨t, ht, hholds⟩ := forall₂_getElem? h hp
        simp only [Followed, Watched.step, Config.step, Watched.noted, hp]
        refine forall₂_set_modify h (fun t' ht' => ?_)
        cases Option.some.inj (ht.symm.trans ht')
        exact hholds.2 _

theorem Watched.Followed.allows (h : w.Followed m) {i : ℕ} {c : C} {next : R c → Prog C R α}
    (hp : w.config.threads[i]? = some (.call c next)) : ∃ t, w.notes[i]? = some t ∧ m.Allows t c := by
  obtain ⟨t, ht, hholds⟩ := forall₂_getElem? h hp
  exact ⟨t, ht, hholds.1⟩

end Watched

end MercuryLayer.Library.Monitors
