import Mathlib.Data.List.Nodup

namespace MercuryLayer.Library.Tables

/-- Rows of which no two have the same key. -/
structure Table (α κ : Type) (key : α → κ) where
  rows : List α
  unique : (rows.map key).Nodup

variable {α κ : Type} {key : α → κ} [DecidableEq κ]

namespace Table

def empty : Table α κ key := ⟨[], List.nodup_nil⟩

def get (t : Table α κ key) (k : κ) : Option α := t.rows.find? (fun a => key a = k)

theorem map_modify (rows : List α) (k : κ) (f : α → α) (hf : ∀ a, key (f a) = key a) :
    (rows.map (fun a => if key a = k then f a else a)).map key = rows.map key := by
  rw [List.map_map]
  apply List.map_congr_left
  intro a _
  by_cases ha : key a = k
  · rw [Function.comp_apply, if_pos ha, hf]
  · rw [Function.comp_apply, if_neg ha]

/-- The row with the key is changed, its key excepted. -/
def modify (t : Table α κ key) (k : κ) (f : α → α) (hf : ∀ a, key (f a) = key a) : Table α κ key :=
  ⟨t.rows.map (fun a => if key a = k then f a else a), by rw [map_modify t.rows k f hf]; exact t.unique⟩

omit [DecidableEq κ] in
theorem nodup_filter (t : Table α κ key) (p : α → Bool) : ((t.rows.filter p).map key).Nodup :=
  t.unique.sublist ((List.filter_sublist).map key)

def filter (t : Table α κ key) (p : α → Bool) : Table α κ key := ⟨t.rows.filter p, t.nodup_filter p⟩

/-- A new row takes the place of the one with its key. -/
def replace (t : Table α κ key) (a : α) : Table α κ key where
  rows := t.rows.filter (fun b => key b ≠ key a) ++ [a]
  unique := by
    rw [List.map_append, List.nodup_append]
    refine ⟨t.nodup_filter _, List.nodup_singleton _, ?_⟩
    rintro _ hb _ ha rfl
    obtain ⟨b, hb, hkey⟩ := List.mem_map.mp hb
    rw [List.map_singleton, List.mem_singleton] at ha
    exact absurd (hkey.trans ha) (by simpa using (List.mem_filter.mp hb).2)

/-- A new row, if its key is free. -/
def insert? (t : Table α κ key) (a : α) : Option (Table α κ key) :=
  if h : key a ∈ t.rows.map key then none
  else some ⟨t.rows ++ [a], by
    rw [List.map_append, List.map_singleton]
    exact List.nodup_append.mpr ⟨t.unique, List.nodup_singleton _, by
      rintro _ hb _ ha rfl
      exact h (List.mem_singleton.mp ha ▸ hb)⟩⟩

variable {t : Table α κ key} {k : κ} {a : α}

omit [DecidableEq κ] in
theorem key_injective {a b : α} (ha : a ∈ t.rows) (hb : b ∈ t.rows) (h : key a = key b) : a = b :=
  List.inj_on_of_nodup_map t.unique ha hb h

theorem get_eq_some : t.get k = some a ↔ a ∈ t.rows ∧ key a = k := by
  constructor
  · intro h
    exact ⟨List.mem_of_find?_eq_some h, by simpa using List.find?_some h⟩
  · rintro ⟨ha, rfl⟩
    cases hb : t.get (key a) with
    | none => exact absurd (List.find?_eq_none.mp hb a ha) (by simp)
    | some b =>
      have hkey : key b = key a := by simpa using List.find?_some hb
      rw [key_injective (List.mem_of_find?_eq_some hb) ha hkey]

theorem get_eq_none : t.get k = none ↔ ∀ a ∈ t.rows, key a ≠ k := by
  simp [get]

theorem mem_modify {f : α → α} {hf : ∀ a, key (f a) = key a} :
    a ∈ (t.modify k f hf).rows ↔ ∃ b ∈ t.rows, a = if key b = k then f b else b := by
  simp [modify, eq_comm]

theorem rows_of_insert? {t' : Table α κ key} (h : t.insert? a = some t') :
    t'.rows = t.rows ++ [a] ∧ key a ∉ t.rows.map key := by
  simp only [insert?] at h
  split_ifs at h with hused
  rw [← Option.some.inj h]
  exact ⟨rfl, hused⟩

theorem mem_insert? {t' : Table α κ key} {b : α} (h : t.insert? a = some t') (hb : b ∈ t'.rows) :
    b ∈ t.rows ∨ b = a := by
  rw [(rows_of_insert? h).1] at hb
  simpa using hb

theorem mem_replace {b : α} : b ∈ (t.replace a).rows ↔ b ∈ t.rows ∧ key b ≠ key a ∨ b = a := by
  simp [replace]

theorem get_modify_self {f : α → α} {hf : ∀ a, key (f a) = key a} : (t.modify k f hf).get k = (t.get k).map f := by
  cases h : t.get k with
  | none =>
    rw [Option.map_none, get_eq_none]
    intro a ha
    obtain ⟨b, hb, rfl⟩ := mem_modify.mp ha
    have hne := get_eq_none.mp h b hb
    rwa [if_neg hne]
  | some b =>
    obtain ⟨hb, hk⟩ := get_eq_some.mp h
    rw [Option.map_some, get_eq_some, hf]
    exact ⟨mem_modify.mpr ⟨b, hb, by rw [if_pos hk]⟩, hk⟩

theorem get_modify_of_ne {f : α → α} {hf : ∀ a, key (f a) = key a} {k' : κ} (hk : k' ≠ k) :
    (t.modify k f hf).get k' = t.get k' := by
  cases h : t.get k' with
  | none =>
    rw [get_eq_none]
    intro a ha
    obtain ⟨b, hb, rfl⟩ := mem_modify.mp ha
    have hne := get_eq_none.mp h b hb
    by_cases hbk : key b = k
    · rwa [if_pos hbk, hf]
    · rwa [if_neg hbk]
  | some b =>
    obtain ⟨hb, hbk⟩ := get_eq_some.mp h
    rw [get_eq_some]
    refine ⟨mem_modify.mpr ⟨b, hb, ?_⟩, hbk⟩
    rw [if_neg (by rwa [hbk])]

theorem modify_eq_self {f : α → α} (h : ∀ a, t.get k = some a → f a = a) (hf : ∀ a, key (f a) = key a) :
    t.modify k f hf = t := by
  obtain ⟨rows, unique⟩ := t
  have hrows : rows.map (fun a => if key a = k then f a else a) = rows := by
    conv_rhs => rw [← List.map_id rows]
    apply List.map_congr_left
    intro a ha
    by_cases hk : key a = k
    · rw [if_pos hk, id, h a (get_eq_some.mpr ⟨ha, hk⟩)]
    · rw [if_neg hk, id]
  simp only [modify, hrows]

theorem get_replace_self : (t.replace a).get (key a) = some a :=
  get_eq_some.mpr ⟨mem_replace.mpr (.inr rfl), rfl⟩

theorem get_replace_of_ne (hk : k ≠ key a) : (t.replace a).get k = t.get k := by
  cases h : t.get k with
  | none =>
    rw [get_eq_none]
    intro b hb
    rcases mem_replace.mp hb with ⟨hb, -⟩ | rfl
    · exact get_eq_none.mp h b hb
    · exact hk.symm
  | some b =>
    obtain ⟨hb, rfl⟩ := get_eq_some.mp h
    exact get_eq_some.mpr ⟨mem_replace.mpr (.inl ⟨hb, hk⟩), rfl⟩

end Table

end MercuryLayer.Library.Tables
