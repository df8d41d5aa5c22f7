import Mathlib

namespace MercuryLayer.Library.Validation

variable {ε α β : Type}

/-- An early return: fail with `e` when the condition holds. -/
def throwIf (p : Prop) [Decidable p] (e : ε) : Except ε Unit := if p then .error e else .ok ()

def orThrow (e : ε) : Option α → Except ε α
  | some a => .ok a
  | none => .error e

@[simp] theorem throwIf_eq_ok {p : Prop} [Decidable p] {e : ε} {u : Unit} :
    throwIf p e = .ok u ↔ ¬p := by
  by_cases hp : p <;> simp [throwIf, hp]

@[simp] theorem orThrow_eq_ok {o : Option α} {e : ε} {a : α} : orThrow e o = .ok a ↔ o = some a := by
  cases o <;> simp [orThrow]

@[simp] theorem orThrow_some {e : ε} {a : α} : orThrow e (some a) = .ok a := rfl

@[simp] theorem bind_eq_ok {x : Except ε α} {f : α → Except ε β} {b : β} :
    (x >>= f) = .ok b ↔ ∃ a, x = .ok a ∧ f a = .ok b := by
  cases x <;> simp [bind, Except.bind]

@[simp] theorem map_eq_ok {x : Except ε α} {f : α → β} {b : β} :
    (f <$> x) = .ok b ↔ ∃ a, x = .ok a ∧ f a = b := by
  cases x <;> simp [Functor.map, Except.map]

@[simp] theorem mapError_eq_ok {ε' : Type} {x : Except ε α} {f : ε → ε'} {a : α} :
    x.mapError f = .ok a ↔ x = .ok a := by
  cases x <;> simp [Except.mapError]

@[simp] theorem pure_eq_ok {a b : α} : (pure a : Except ε α) = .ok b ↔ a = b := by
  simp [pure, Except.pure]

@[simp] theorem exists_unit_eq_ok {x : Except ε Unit} {p : Prop} :
    (∃ u, x = .ok u ∧ p) ↔ x = .ok () ∧ p :=
  ⟨fun ⟨_, h⟩ => h, fun h => ⟨(), h⟩⟩

@[simp] theorem ok_bind {a : α} {f : α → Except ε β} : ((.ok a : Except ε α) >>= f) = f a := rfl

@[simp] theorem error_bind {e : ε} {f : α → Except ε β} :
    ((.error e : Except ε α) >>= f) = .error e := rfl

theorem bind_eq_error {x : Except ε α} {f : α → Except ε β} {e : ε} :
    (x >>= f) = .error e ↔ x = .error e ∨ ∃ a, x = .ok a ∧ f a = .error e := by
  cases x <;> simp [bind, Except.bind]

theorem throwIf_eq_error {p : Prop} [Decidable p] {e e' : ε} : throwIf p e = .error e' ↔ p ∧ e = e' := by
  by_cases hp : p <;> simp [throwIf, hp]

theorem orThrow_eq_error {o : Option α} {e e' : ε} : orThrow e o = .error e' ↔ o = none ∧ e = e' := by
  cases o <;> simp [orThrow]

theorem forM_eq_error {xs : List α} {f : α → Except ε Unit} {e : ε} :
    xs.forM f = .error e ↔
      ∃ before a after, xs = before ++ a :: after ∧ (∀ b ∈ before, f b = .ok ()) ∧ f a = .error e := by
  induction xs with
  | nil =>
    constructor
    · intro h
      cases h
    · rintro ⟨before, a, after, h, -⟩
      cases before <;> cases h
  | cons x xs ih =>
    rw [List.forM, bind_eq_error]
    constructor
    · rintro (hx | ⟨_, hx, hxs⟩)
      · exact ⟨[], x, xs, rfl, nofun, hx⟩
      · obtain ⟨before, a, after, rfl, hbefore, ha⟩ := ih.mp hxs
        exact ⟨x :: before, a, after, rfl, List.forall_mem_cons.mpr ⟨hx, hbefore⟩, ha⟩
    · rintro ⟨before, a, after, hsplit, hbefore, ha⟩
      cases before with
      | nil =>
        obtain ⟨rfl, rfl⟩ := List.cons.inj hsplit
        exact .inl ha
      | cons b before =>
        obtain ⟨rfl, rfl⟩ := List.cons.inj hsplit
        obtain ⟨hb, hbefore⟩ := List.forall_mem_cons.mp hbefore
        exact .inr ⟨(), hb, ih.mpr ⟨before, a, after, rfl, hbefore, ha⟩⟩

theorem forM_eq_ok {xs : List α} {f : α → Except ε Unit} :
    xs.forM f = .ok () ↔ ∀ a ∈ xs, f a = .ok () := by
  induction xs with
  | nil => simp [List.forM]
  | cons a xs ih => simp only [List.forM, bind_eq_ok, exists_unit_eq_ok, ih, List.forall_mem_cons]

theorem mapM_eq_ok {xs : List α} {f : α → Except ε β} {g : α → β} (h : ∀ a ∈ xs, f a = .ok (g a)) :
    xs.mapM f = .ok (xs.map g) := by
  induction xs with
  | nil => rfl
  | cons a xs ih =>
    obtain ⟨ha, hxs⟩ := List.forall_mem_cons.mp h
    rw [List.mapM_cons, ha, ok_bind, ih hxs, ok_bind, List.map_cons]
    rfl

theorem exists_of_mapM_eq_ok {xs : List α} {f : α → Except ε β} {ys : List β} (h : xs.mapM f = .ok ys) :
    ∀ a ∈ xs, ∃ b, f a = .ok b := by
  induction xs generalizing ys with
  | nil => nofun
  | cons a xs ih =>
    rw [List.mapM_cons] at h
    obtain ⟨b, hb, h⟩ := bind_eq_ok.mp h
    obtain ⟨bs, hbs, -⟩ := bind_eq_ok.mp h
    exact List.forall_mem_cons.mpr ⟨⟨b, hb⟩, ih hbs⟩

theorem exists_of_mapM_eq_error {xs : List α} {f : α → Except ε β} {e : ε} (h : xs.mapM f = .error e) :
    ∃ a ∈ xs, f a = .error e := by
  induction xs with
  | nil => cases h
  | cons a xs ih =>
    rw [List.mapM_cons, bind_eq_error] at h
    obtain ha | ⟨b, -, h⟩ := h
    · exact ⟨a, List.mem_cons_self, ha⟩
    · obtain hxs | ⟨_, -, h⟩ := bind_eq_error.mp h
      · obtain ⟨a', hmem, ha'⟩ := ih hxs
        exact ⟨a', List.mem_cons_of_mem a hmem, ha'⟩
      · cases h

theorem filterAuxM_eq_ok {xs acc : List α} {f : α → Except ε Bool} {g : α → Bool} (h : ∀ a ∈ xs, f a = .ok (g a)) :
    xs.filterAuxM f acc = .ok ((xs.filter g).reverse ++ acc) := by
  induction xs generalizing acc with
  | nil => rfl
  | cons a xs ih =>
    obtain ⟨ha, hxs⟩ := List.forall_mem_cons.mp h
    rw [List.filterAuxM, ha, ok_bind, ih hxs, List.filter_cons]
    cases g a with
    | true => rw [if_pos rfl, List.reverse_cons, List.append_assoc]; rfl
    | false => rfl

theorem filterM_eq_ok {xs : List α} {f : α → Except ε Bool} {g : α → Bool} (h : ∀ a ∈ xs, f a = .ok (g a)) :
    xs.filterM f = .ok (xs.filter g) := by
  rw [List.filterM, filterAuxM_eq_ok h, ok_bind, List.append_nil, List.reverse_reverse]
  rfl

theorem exists_of_filterAuxM_eq_ok {xs acc ys : List α} {f : α → Except ε Bool} (h : xs.filterAuxM f acc = .ok ys) :
    ∀ a ∈ xs, ∃ b, f a = .ok b := by
  induction xs generalizing acc with
  | nil => nofun
  | cons a xs ih =>
    rw [List.filterAuxM] at h
    obtain ⟨b, hb, h⟩ := bind_eq_ok.mp h
    exact List.forall_mem_cons.mpr ⟨⟨b, hb⟩, ih h⟩

theorem exists_of_filterM_eq_ok {xs ys : List α} {f : α → Except ε Bool} (h : xs.filterM f = .ok ys) :
    ∀ a ∈ xs, ∃ b, f a = .ok b := by
  obtain ⟨_, hfiltered, -⟩ := bind_eq_ok.mp h
  exact exists_of_filterAuxM_eq_ok hfiltered

theorem exists_of_filterAuxM_eq_error {xs acc : List α} {f : α → Except ε Bool} {e : ε}
    (h : xs.filterAuxM f acc = .error e) : ∃ a ∈ xs, f a = .error e := by
  induction xs generalizing acc with
  | nil => cases h
  | cons a xs ih =>
    rw [List.filterAuxM] at h
    obtain ha | ⟨b, -, h⟩ := bind_eq_error.mp h
    · exact ⟨a, List.mem_cons_self, ha⟩
    · obtain ⟨a', ha', h⟩ := ih h
      exact ⟨a', List.mem_cons_of_mem a ha', h⟩

theorem exists_of_filterM_eq_error {xs : List α} {f : α → Except ε Bool} {e : ε} (h : xs.filterM f = .error e) :
    ∃ a ∈ xs, f a = .error e := by
  obtain h | ⟨_, -, h⟩ := bind_eq_error.mp h
  · exact exists_of_filterAuxM_eq_error h
  · cases h

theorem anyM_eq_ok {xs : List α} {f : α → Except ε Bool} {g : α → Bool} (h : ∀ a ∈ xs, f a = .ok (g a)) :
    xs.anyM f = .ok (xs.any g) := by
  induction xs with
  | nil => rfl
  | cons a xs ih =>
    obtain ⟨ha, hxs⟩ := List.forall_mem_cons.mp h
    rw [List.anyM, ha, ok_bind, List.any_cons]
    cases g a with
    | true => rfl
    | false => exact ih hxs

theorem exists_of_anyM_eq_error {xs : List α} {f : α → Except ε Bool} {e : ε} (h : xs.anyM f = .error e) :
    ∃ a ∈ xs, f a = .error e := by
  induction xs with
  | nil => cases h
  | cons a xs ih =>
    rw [List.anyM] at h
    obtain ha | ⟨b, -, h⟩ := bind_eq_error.mp h
    · exact ⟨a, List.mem_cons_self, ha⟩
    · cases b with
      | true => cases h
      | false =>
        obtain ⟨a', hmem, ha'⟩ := ih h
        exact ⟨a', List.mem_cons_of_mem a hmem, ha'⟩

theorem exists_of_anyM_eq_true {xs : List α} {f : α → Except ε Bool} (h : xs.anyM f = .ok true) :
    ∃ a ∈ xs, f a = .ok true := by
  induction xs with
  | nil => cases h
  | cons a xs ih =>
    rw [List.anyM] at h
    obtain ⟨b, hb, h⟩ := bind_eq_ok.mp h
    cases b with
    | true => exact ⟨a, List.mem_cons_self, hb⟩
    | false =>
      obtain ⟨a', hmem, ha'⟩ := ih h
      exact ⟨a', List.mem_cons_of_mem a hmem, ha'⟩

end MercuryLayer.Library.Validation
