import MercuryLayer.Library.Programs

namespace MercuryLayer.Library.Reliance

open Library.Programs

variable {C : Type} {R : C → Type} {α β η σ ε : Type}

/-- As long as every reply meets `ok`, every call meets `P`, and the program ends with a result that meets
`post`. -/
def Relies (ok : (c : C) → R c → Prop) (P : C → Prop) (post : α → Prop) : Prog C R α → Prop
  | .ret a => post a
  | .abort => False
  | .call c next => P c ∧ ∀ r, ok c r → Relies ok P post (next r)

variable {ok : (c : C) → R c → Prop} {P Q : C → Prop}

theorem Relies.bind {post : α → Prop} {post' : β → Prop} {p : Prog C R α} {f : α → Prog C R β}
    (hp : Relies ok P post p) (hf : ∀ a, post a → Relies ok P post' (f a)) : Relies ok P post' (p >>= f) := by
  induction p with
  | ret a => exact hf a hp
  | abort => exact hp
  | call c next ih => exact ⟨hp.1, fun r hr => ih r (hp.2 r hr)⟩

theorem Relies.mono {post post' : α → Prop} (hP : ∀ c, P c → Q c) (h : ∀ a, post a → post' a) {p : Prog C R α}
    (hp : Relies ok P post p) : Relies ok Q post' p := by
  induction p with
  | ret a => exact h a hp
  | abort => exact hp
  | call c next ih => exact ⟨hP c hp.1, fun r hr => ih r (hp.2 r hr)⟩

theorem Relies.embed {C' : Type} {R' : C' → Type} {ok : (c : C') → R' c → Prop} {P : C' → Prop} {f : C → C'}
    {post : α → Prop} {p : Prog C (fun c => R' (f c)) α}
    (hp : Relies (fun c r => ok (f c) r) (fun c => P (f c)) post p) : Relies ok P post (Prog.embed f p) := by
  induction p with
  | ret a => exact hp
  | abort => exact hp
  | call c next ih => exact ⟨hp.1, fun r hr => ih r (hp.2 r hr)⟩

section Execution

variable (handle : ε → (c : C) → σ → R c × σ)

def calls : Prog C R α → (ℕ → ε) → σ → List C
  | .ret _, _, _ => []
  | .abort, _, _ => []
  | .call c next, choices, s =>
    c :: calls (next (handle (choices 0) c s).1) (fun i => choices (i + 1)) (handle (choices 0) c s).2

variable {handle} {s : σ} {choices : ℕ → ε}

theorem Relies.calls {post : α → Prop} {p : Prog C R α} (hp : Relies ok P post p)
    (hok : Admits handle (fun e c s => ok c (handle e c s).1) p choices s) : ∀ c ∈ calls handle p choices s, P c := by
  induction p generalizing s choices with
  | ret a => nofun
  | abort => nofun
  | call c next ih => exact List.forall_mem_cons.mpr ⟨hp.1, ih _ (hp.2 _ hok.1) hok.2⟩

theorem Relies.exec {post : α → Prop} {p : Prog C R α} (hp : Relies ok P post p)
    (hok : Admits handle (fun e c s => ok c (handle e c s).1) p choices s) :
    ∃ a, (exec handle p choices s).1 = some a ∧ post a := by
  induction p generalizing s choices with
  | ret a => exact ⟨a, rfl, hp⟩
  | abort => exact hp.elim
  | call c next ih => exact ih _ (hp.2 _ hok.1) hok.2

/-- What the replies rely on and the calls keep holds in every state that the program passes through. -/
theorem Relies.trail {I : σ → Prop} {post : α → Prop} {p : Prog C R α} (hp : Relies ok P post p)
    (hok : ∀ e c s, I s → ok c (handle e c s).1) (hI : ∀ e c s, P c → I s → I (handle e c s).2) (hs : I s) :
    ∀ s' ∈ trail handle p choices s, I s' := by
  induction p generalizing s choices with
  | ret a => exact List.forall_mem_singleton.mpr hs
  | abort => exact List.forall_mem_singleton.mpr hs
  | call c next ih =>
    exact List.forall_mem_cons.mpr ⟨hs, ih _ (hp.2 _ (hok _ _ _ hs)) (hI _ _ _ hp.1 hs)⟩

theorem admits_of_replies {p : Prog C R α} (h : ∀ i c s, ok c (handle (choices i) c s).1) :
    Admits handle (fun e c s => ok c (handle e c s).1) p choices s := by
  induction p generalizing s choices with
  | ret a => trivial
  | abort => trivial
  | call c next ih => exact ⟨h 0 c s, ih _ (fun i => h (i + 1))⟩

end Execution

section Fallible

/-- As `Relies`, for a program that succeeds with `post` or fails with `err`. -/
def Assures (ok : (c : C) → R c → Prop) (P : C → Prop) (post : α → Prop) (err : η → Prop)
    (p : ExceptT η (Prog C R) α) : Prop :=
  Relies ok P (fun r => match r with
    | .ok a => post a
    | .error e => err e) p.run

variable {post : α → Prop} {err : η → Prop}

theorem assures_pure {a : α} (h : post a) : Assures ok P post err (pure a : ExceptT η (Prog C R) α) := h

theorem assures_lift {r : Except η α} (herr : ∀ e, r = .error e → err e) (h : ∀ a, r = .ok a → post a) :
    Assures ok P post err (liftM r : ExceptT η (Prog C R) α) := by
  cases r with
  | ok a => exact h a rfl
  | error e => exact herr e rfl

theorem assures_mono {post' : α → Prop} {err' : η → Prop} (hP : ∀ c, P c → Q c) (h : ∀ a, post a → post' a)
    (herr : ∀ e, err e → err' e) {p : ExceptT η (Prog C R) α} (hp : Assures ok P post err p) :
    Assures ok Q post' err' p := by
  refine Relies.mono hP (fun r hr => ?_) hp
  cases r with
  | ok a => exact h a hr
  | error e => exact herr e hr

theorem assures_bind {post' : β → Prop} {p : ExceptT η (Prog C R) α} {f : α → ExceptT η (Prog C R) β}
    (hp : Assures ok P post err p) (hf : ∀ a, post a → Assures ok P post' err (f a)) :
    Assures ok P post' err (p >>= f) := by
  rw [Assures, ExceptT.run_bind]
  refine Relies.bind hp (fun r hr => ?_)
  cases r with
  | ok a => exact hf a hr
  | error e => exact hr

theorem assures_and_yields {Q : C → Prop} {post' : α → Prop} {p : ExceptT η (Prog C R) α}
    (hp : Assures ok P post err p) (h : Yields Q post' p) : Assures ok P (fun a => post a ∧ post' a) err p := by
  suffices hrelies : ∀ q : Prog C R (Except η α), Relies ok P (fun r => match r with
      | .ok a => post a
      | .error e => err e) q → Prog.Gives Q (fun r => ∀ a, r = .ok a → post' a) q →
      Relies ok P (fun r => match r with
        | .ok a => post a ∧ post' a
        | .error e => err e) q from hrelies p.run hp h
  intro q
  induction q with
  | ret r =>
    intro hq hgives
    cases r with
    | ok a => exact ⟨hq, hgives a rfl⟩
    | error e => exact hq
  | abort => exact fun hq _ => hq
  | call c next ih => exact fun hq hgives => ⟨hq.1, fun r hr => ih r (hq.2 r hr) (hgives.2 r)⟩

theorem assures_error_bind {post : β → Prop} {p : ExceptT η (Prog C R) α} (f : α → ExceptT η (Prog C R) β)
    (hp : Assures ok P (fun _ => False) err p) : Assures ok P post err (p >>= f) :=
  assures_bind hp (fun _ h => h.elim)

theorem assures_lift_bind {post : β → Prop} {r : Except η α} {f : α → ExceptT η (Prog C R) β}
    (herr : ∀ e, r = .error e → err e) (hf : ∀ a, r = .ok a → Assures ok P post err (f a)) :
    Assures ok P post err (liftM r >>= f) :=
  assures_bind (assures_lift herr fun _ h => h) hf

theorem assures_lift_of_ne {bad : η} {r : Except η α} (hr : r ≠ .error bad) (h : ∀ a, r = .ok a → post a) :
    Assures ok P post (· ≠ bad) (liftM r : ExceptT η (Prog C R) α) :=
  assures_lift (fun _ he hbad => hr (hbad ▸ he)) h

theorem assures_bind_of_ne {post : β → Prop} {bad : η} {r : Except η α} {f : α → ExceptT η (Prog C R) β}
    (hr : r ≠ .error bad) (hf : ∀ a, r = .ok a → Assures ok P post (· ≠ bad) (f a)) :
    Assures ok P post (· ≠ bad) (liftM r >>= f) :=
  assures_bind (assures_lift_of_ne hr fun _ h => h) hf

theorem assures_ask_bind {post : β → Prop} (c : C) (f : R c → ExceptT η (Prog C R) β) (hc : P c)
    (hf : ∀ r, ok c r → Assures ok P post err (f r)) : Assures ok P post err (ask c >>= f) :=
  ⟨hc, hf⟩

theorem yields_of_assures {p : ExceptT η (Prog C R) α}
    (h : Assures (fun _ _ => True) P post (fun _ => True) p) : Yields P post p := by
  suffices hgives : ∀ q : Prog C R (Except η α), Relies (fun _ _ => True) P (fun r => match r with
      | .ok a => post a
      | .error _ => True) q → Prog.Gives P (fun r => ∀ a, r = .ok a → post a) q from hgives p.run h
  intro q
  induction q with
  | ret r =>
    rintro hq a rfl
    exact hq
  | abort => exact fun hq => hq
  | call c next ih => exact fun hq => ⟨hq.1, fun r => ih r (hq.2 r trivial)⟩

theorem assures_of_yields {p : ExceptT η (Prog C R) α} (herr : ∀ e, err e) (h : Yields P post p) :
    Assures ok P post err p := by
  suffices hrelies : ∀ q : Prog C R (Except η α), Prog.Gives P (fun r => ∀ a, r = .ok a → post a) q →
      Relies ok P (fun r => match r with
        | .ok a => post a
        | .error e => err e) q from hrelies p.run h
  intro q
  induction q with
  | ret r =>
    intro hq
    cases r with
    | ok a => exact hq a rfl
    | error e => exact herr e
  | abort => exact False.elim
  | call c next ih => exact fun hq => ⟨hq.1, fun r _ => ih r (hq.2 r)⟩

section Careless

theorem assures_try_bind {post : β → Prop} {r : Except η α} {f : α → ExceptT η (Prog C R) β}
    (hf : ∀ a, r = .ok a → Assures ok P post (fun _ => True) (f a)) :
    Assures ok P post (fun _ => True) (liftM r >>= f) :=
  assures_lift_bind (fun _ _ => trivial) hf

theorem assures_yields_bind {post' : β → Prop} {p : ExceptT η (Prog C R) α} {f : α → ExceptT η (Prog C R) β}
    (hp : Yields P post p) (hf : ∀ a, post a → Assures ok P post' (fun _ => True) (f a)) :
    Assures ok P post' (fun _ => True) (p >>= f) :=
  assures_bind (assures_of_yields (fun _ => trivial) hp) hf

end Careless

section Shadow

/-- An environment that answers every call on its own. -/
def reply (answer : (c : C) → R c) (c : C) (_ : Unit) : R c × Unit := (answer c, ())

/-- Against the given answers the program ends as `r`. Against other replies that are allowed it can only
fail softly before that. -/
structure Shadows (answer : (c : C) → R c) (ok : (c : C) → R c → Prop) (P : C → Prop) (soft : η → Prop)
    (p : ExceptT η (Prog C R) α) (r : Except η α) : Prop where
  assures : Assures ok P (fun a => r = .ok a) (fun e => r = .error e ∨ soft e) p
  comes : Comes reply () answer p r

variable {answer : (c : C) → R c} {soft : η → Prop}

theorem shadows_lift (r : Except η α) : Shadows answer ok P soft (liftM r : ExceptT η (Prog C R) α) r :=
  ⟨assures_lift (fun _ h => .inl h) fun _ h => h, comes_lift⟩

theorem shadows_pure (a : α) : Shadows answer ok P soft (pure a : ExceptT η (Prog C R) α) (.ok a) :=
  ⟨assures_pure rfl, comes_pure⟩

theorem shadows_bind {p : ExceptT η (Prog C R) α} {r : Except η α} {f : α → ExceptT η (Prog C R) β}
    {g : α → Except η β} (hp : Shadows answer ok P soft p r)
    (hf : ∀ a, r = .ok a → Shadows answer ok P soft (f a) (g a)) :
    Shadows answer ok P soft (p >>= f) (r >>= g) := by
  refine ⟨assures_bind (assures_mono (fun _ h => h) (fun _ h => h) (fun e he => ?_) hp.assures) (fun a ha => ?_),
    comes_bind hp.comes (fun a ha => (hf a ha).comes)⟩
  · obtain rfl | he := he
    · exact .inl rfl
    · exact .inr he
  · subst ha
    exact (hf a rfl).assures

theorem shadows_ok_bind {p : ExceptT η (Prog C R) α} {a : α} {f : α → ExceptT η (Prog C R) β} {r : Except η β}
    (hp : Shadows answer ok P soft p (.ok a)) (hf : Shadows answer ok P soft (f a) r) :
    Shadows answer ok P soft (p >>= f) r :=
  shadows_bind (g := fun _ => r) hp (fun _ h => Except.ok.inj h ▸ hf)

theorem shadows_ask_lift {c : C} {g : R c → Except η α} {told : α} (hc : P c)
    (hok : ∀ reply, ok c reply → ∀ a, g reply = .ok a → a = told)
    (hsoft : ∀ reply e, g reply = .error e → soft e) (hanswer : g (answer c) = .ok told) :
    Shadows answer ok P soft (ask c >>= fun reply => liftM (g reply)) (.ok told) := by
  constructor
  · refine assures_ask_bind c _ hc (fun reply hreply => assures_lift (fun e he => .inr (hsoft reply e he)) ?_)
    exact fun a ha => congrArg Except.ok (hok reply hreply a ha).symm
  · refine comes_ask_bind rfl ?_
    rw [← hanswer]
    exact comes_lift

theorem shadows_ask_lift_bind {c : C} {g : R c → Except η α} {told : α} {f : α → ExceptT η (Prog C R) β}
    {r : Except η β} (hc : P c) (hok : ∀ reply, ok c reply → ∀ a, g reply = .ok a → a = told)
    (hsoft : ∀ reply e, g reply = .error e → soft e) (hanswer : g (answer c) = .ok told)
    (hf : Shadows answer ok P soft (f told) r) :
    Shadows answer ok P soft (ask c >>= fun reply => liftM (g reply) >>= f) r := by
  rw [← bind_assoc]
  exact shadows_ok_bind (shadows_ask_lift hc hok hsoft hanswer) hf

theorem shadows_forM {as : List α} {f : α → ExceptT η (Prog C R) PUnit} {g : α → Except η PUnit}
    (h : ∀ a ∈ as, Shadows answer ok P soft (f a) (g a)) : Shadows answer ok P soft (as.forM f) (as.forM g) := by
  induction as with
  | nil => exact shadows_pure _
  | cons a as ih =>
    obtain ⟨ha, has⟩ := List.forall_mem_cons.mp h
    exact shadows_bind ha (fun _ _ => ih has)

theorem calls_bind {p : Prog C R α} {a : α} (f : α → Prog C R β)
    (h : (exec reply p (fun _ => answer) ()).1 = some a) :
    calls reply (p >>= f) (fun _ => answer) () =
      calls reply p (fun _ => answer) () ++ calls reply (f a) (fun _ => answer) () := by
  induction p with
  | ret b =>
    cases Option.some.inj h
    rfl
  | abort => cases h
  | call c next ih => exact congrArg (c :: ·) (ih (answer c) h)

theorem mem_calls_of_first {p : Prog C R α} (f : α → Prog C R β) {c : C}
    (hc : c ∈ calls reply p (fun _ => answer) ()) : c ∈ calls reply (p >>= f) (fun _ => answer) () := by
  induction p with
  | ret a => cases hc
  | abort => cases hc
  | call first next ih =>
    obtain rfl | hc := List.mem_cons.mp hc
    · exact List.mem_cons_self
    · exact List.mem_cons_of_mem first (ih (answer first) hc)

theorem mem_calls_first {p : ExceptT η (Prog C R) α} {f : α → ExceptT η (Prog C R) β} {c : C}
    (hc : c ∈ calls reply p.run (fun _ => answer) ()) : c ∈ calls reply (p >>= f).run (fun _ => answer) () := by
  rw [ExceptT.run_bind]
  exact mem_calls_of_first _ hc

theorem mem_calls_bind {p : ExceptT η (Prog C R) α} {a : α} {f : α → ExceptT η (Prog C R) β}
    (hp : Comes reply () answer p (.ok a)) {c : C} (hc : c ∈ calls reply (f a).run (fun _ => answer) ()) :
    c ∈ calls reply (p >>= f).run (fun _ => answer) () := by
  rw [ExceptT.run_bind, calls_bind _ (congrArg Prod.fst hp)]
  exact List.mem_append_right _ hc

/-- A program is answered alike by whoever answers its calls in the same way. -/
theorem comes_of_comes_reply {ε σ : Type} {handle : ε → (c : C) → σ → R c × σ} {e : ε} {s : σ}
    {p : ExceptT η (Prog C R) α} {r : Except η α} (hp : Yields P post p)
    (h : ∀ c, P c → handle e c s = (answer c, s)) (hcomes : Comes reply () answer p r) : Comes handle s e p r := by
  have hexec : ∀ q : Prog C R (Except η α), q.Gives P (fun r => ∀ a, r = .ok a → post a) → ∀ r,
      exec reply q (fun _ => answer) () = (some r, ()) → exec handle q (fun _ => e) s = (some r, s) := by
    intro q
    induction q with
    | ret a =>
      intro _ r hr
      cases Option.some.inj (congrArg Prod.fst hr)
      rfl
    | abort =>
      intro hq
      exact hq.elim
    | call c next ih =>
      intro hq r hr
      rw [exec, h c hq.1]
      exact ih (answer c) (hq.2 _) r hr
  exact hexec p.run hp r hcomes

end Shadow

end Fallible

end MercuryLayer.Library.Reliance
