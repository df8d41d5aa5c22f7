import Mathlib.Data.List.Induction
import Mathlib.Data.List.Nodup
import Mathlib.Data.List.Perm.Basic
import Mathlib.Logic.Function.Basic

namespace MercuryLayer.Library.Grouping

variable {κ α : Type} [DecidableEq κ]

/-- Rows collected under their keys, with the keys in order of first appearance. -/
structure Grouped (κ α : Type) where
  grouped : κ → Option (List α)
  orderOfAppearance : List κ
  seen : List κ

def empty : Grouped κ α := ⟨fun _ => none, [], []⟩

def push (g : Grouped κ α) (row : κ × α) : Grouped κ α :=
  { grouped := Function.update g.grouped row.1 (some ((g.grouped row.1).getD [] ++ [row.2]))
    orderOfAppearance := if row.1 ∈ g.seen then g.orderOfAppearance else g.orderOfAppearance ++ [row.1]
    seen := if row.1 ∈ g.seen then g.seen else row.1 :: g.seen }

/-- Take the groups out of the map in the given order of keys. -/
def collect : List κ → (κ → Option (List α)) → List (List α)
  | [], _ => []
  | key :: keys, m =>
    match m key with
    | some rows => rows :: collect keys (Function.update m key none)
    | none => collect keys m

def rowsOf (key : κ) (rows : List (κ × α)) : List α := (rows.filter (fun row => row.1 = key)).map Prod.snd

@[simp] theorem mem_rowsOf {key : κ} {rows : List (κ × α)} {a : α} :
    a ∈ rowsOf key rows ↔ (key, a) ∈ rows := by
  simp [rowsOf]

theorem rowsOf_append (key : κ) (rows : List (κ × α)) (row : κ × α) :
    rowsOf key (rows ++ [row]) = if row.1 = key then rowsOf key rows ++ [row.2] else rowsOf key rows := by
  by_cases h : row.1 = key <;> simp [rowsOf, h]

theorem eraseDups_append_singleton (keys : List κ) (key : κ) :
    (keys ++ [key]).eraseDups = if key ∈ keys then keys.eraseDups else keys.eraseDups ++ [key] := by
  rw [List.eraseDups_append]
  by_cases h : key ∈ keys <;> simp [List.removeAll, List.eraseDups_cons, h]

theorem nodup_eraseDups (keys : List κ) : keys.eraseDups.Nodup := by
  induction keys using List.reverseRecOn with
  | nil => simp
  | append_singleton keys key ih =>
    rw [eraseDups_append_singleton]
    split_ifs with h
    · exact ih
    · refine List.nodup_append.mpr ⟨ih, List.nodup_singleton key, ?_⟩
      intro a ha b hb hab
      rw [List.mem_singleton] at hb
      exact h (List.mem_eraseDups.mp (hb ▸ hab ▸ ha))

/-- What the grouping loop has built after any prefix of the rows. -/
structure Built (rows : List (κ × α)) (g : Grouped κ α) : Prop where
  order : g.orderOfAppearance = (rows.map Prod.fst).eraseDups
  seen : ∀ key, key ∈ g.seen ↔ key ∈ rows.map Prod.fst
  grouped : ∀ key, g.grouped key = if key ∈ rows.map Prod.fst then some (rowsOf key rows) else none

theorem built_empty : Built [] (empty : Grouped κ α) := ⟨rfl, by simp [empty], by simp [empty]⟩

theorem rowsOf_eq_nil {key : κ} {rows : List (κ × α)} (h : key ∉ rows.map Prod.fst) :
    rowsOf key rows = [] := by
  rw [List.eq_nil_iff_forall_not_mem]
  intro a ha
  exact h (List.mem_map.mpr ⟨(key, a), mem_rowsOf.mp ha, rfl⟩)

theorem built_push {rows : List (κ × α)} {g : Grouped κ α} (h : Built rows g) (row : κ × α) :
    Built (rows ++ [row]) (push g row) := by
  have hmap : (rows ++ [row]).map Prod.fst = rows.map Prod.fst ++ [row.1] := by simp
  refine ⟨?_, ?_, ?_⟩
  · rw [hmap, eraseDups_append_singleton, ← h.order]
    simp only [push, h.seen]
  · intro key
    rw [hmap]
    by_cases hs : row.1 ∈ g.seen
    · by_cases hk : key = row.1
      · subst hk; simp [push, hs]
      · simp [push, hs, hk, h.seen]
    · simp [push, hs, h.seen, or_comm]
  · intro key
    rw [hmap, rowsOf_append]
    by_cases hk : key = row.1
    · subst hk
      by_cases hm : row.1 ∈ rows.map Prod.fst
      · simp [push, h.grouped, hm]
      · simp [push, h.grouped, hm, rowsOf_eq_nil hm]
    · have hk' : ¬row.1 = key := fun he => hk he.symm
      have hmem : key ∈ rows.map Prod.fst ++ [row.1] ↔ key ∈ rows.map Prod.fst := by simp [hk]
      simp only [push, Function.update_of_ne hk, h.grouped, hmem, if_neg hk']

theorem built_foldl (rows : List (κ × α)) : Built rows (rows.foldl push empty) := by
  induction rows using List.reverseRecOn with
  | nil => exact built_empty
  | append_singleton rows row ih =>
    rw [List.foldl_append]
    exact built_push ih row

theorem collect_eq_map (keys : List κ) (hn : keys.Nodup) (m : κ → Option (List α)) (f : κ → List α)
    (hm : ∀ key ∈ keys, m key = some (f key)) : collect keys m = keys.map f := by
  induction keys generalizing m with
  | nil => rfl
  | cons key keys ih =>
    obtain ⟨hk, hn'⟩ := List.nodup_cons.mp hn
    have hrest : ∀ k ∈ keys, Function.update m key none k = some (f k) := by
      intro k hk'
      have hne : k ≠ key := fun he => hk (he ▸ hk')
      rw [Function.update_of_ne hne]
      exact hm k (List.mem_cons_of_mem key hk')
    simp only [collect, hm key List.mem_cons_self, List.map_cons, ih hn' _ hrest]

/-- Grouping is the partition of the rows by key, in order of first appearance, each
group keeping its rows in input order. -/
theorem collect_foldl (rows : List (κ × α)) :
    collect (rows.foldl push empty).orderOfAppearance (rows.foldl push empty).grouped =
      (rows.map Prod.fst).eraseDups.map (fun key => rowsOf key rows) := by
  have h := built_foldl rows
  rw [h.order]
  apply collect_eq_map _ (nodup_eraseDups _)
  intro key hk
  rw [h.grouped, if_pos (List.mem_eraseDups.mp hk)]

section Share

variable {p : κ → α → Bool} {keys : List κ}

omit [DecidableEq κ] in
theorem flatMap_filter_cons (a : α) (as : List α) :
    (keys.flatMap (fun key => (a :: as).filter (p key))).Perm
      ((keys.filter (fun key => p key a)).map (fun _ => a) ++ keys.flatMap (fun key => as.filter (p key))) := by
  induction keys with
  | nil => exact List.Perm.refl _
  | cons key keys ih =>
    rw [List.flatMap_cons, List.flatMap_cons, List.filter_cons, List.filter_cons]
    cases p key a with
    | true =>
      rw [if_pos rfl, if_pos rfl, List.map_cons, List.cons_append, List.cons_append]
      refine List.Perm.cons a ((ih.append_left _).trans ?_)
      rw [← List.append_assoc, ← List.append_assoc]
      exact List.perm_append_comm.append_right _
    | false =>
      rw [if_neg Bool.false_ne_true, if_neg Bool.false_ne_true]
      refine (ih.append_left _).trans ?_
      rw [← List.append_assoc, ← List.append_assoc]
      exact List.perm_append_comm.append_right _

omit [DecidableEq κ] in
/-- Rows of which each has one taker are shared out among the takers without loss. -/
theorem flatMap_filter_perm {as : List α} (h : ∀ a ∈ as, (keys.filter (fun key => p key a)).length = 1) :
    (keys.flatMap (fun key => as.filter (p key))).Perm as := by
  induction as with
  | nil =>
    have hnil : keys.flatMap (fun key => ([] : List α).filter (p key)) = [] :=
      List.flatMap_eq_nil_iff.mpr (fun _ _ => rfl)
    rw [hnil]
  | cons a as ih =>
    obtain ⟨ha, has⟩ := List.forall_mem_cons.mp h
    obtain ⟨key, hkey⟩ := List.length_eq_one_iff.mp ha
    refine (flatMap_filter_cons a as).trans ?_
    rw [hkey]
    exact List.Perm.cons a (ih has)

omit [DecidableEq κ] in
theorem length_filter_eq_one {q : κ → Bool} (hpair : keys.Pairwise (fun k k' => q k = true → ¬q k' = true))
    (hex : ∃ key ∈ keys, q key = true) : (keys.filter q).length = 1 := by
  induction hpair with
  | nil =>
    obtain ⟨key, hkey, -⟩ := hex
    cases hkey
  | @cons first rest hfirst hrest ih =>
    rw [List.filter_cons]
    by_cases hq : q first = true
    · have hnil : rest.filter q = [] := List.filter_eq_nil_iff.mpr (fun key hkey => hfirst key hkey hq)
      rw [if_pos hq, hnil]
      rfl
    · rw [if_neg hq]
      apply ih
      obtain ⟨key, hkey, hqkey⟩ := hex
      obtain rfl | hkey := List.mem_cons.mp hkey
      · exact absurd hqkey hq
      · exact ⟨key, hkey, hqkey⟩

end Share

theorem exists_mem_of_forall₂ {α β : Type} {P : α → β → Prop} {as : List α} {bs : List β} {b : β}
    (h : List.Forall₂ P as bs) (hb : b ∈ bs) : ∃ a ∈ as, P a b := by
  induction h with
  | nil => cases hb
  | cons hhead htail ih =>
    obtain rfl | hb := List.mem_cons.mp hb
    · exact ⟨_, List.mem_cons_self, hhead⟩
    · obtain ⟨a, ha, hab⟩ := ih hb
      exact ⟨a, List.mem_cons_of_mem _ ha, hab⟩

end MercuryLayer.Library.Grouping
