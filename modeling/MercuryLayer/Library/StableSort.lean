import Mathlib.Data.List.Sort
import Mathlib.Data.Prod.Lex
import MercuryLayer.Library.Grouping

namespace MercuryLayer.Library.StableSort

open Library.Grouping

variable {α κ ρ : Type}

/-- A stable sort keeps the order of rows of which any may come before any other. -/
theorem filter_insertionSort {r : α → α → Prop} [DecidableRel r] {p : α → Bool} (rows : List α)
    (h : ∀ a b, p a = true → p b = true → r a b) : (rows.insertionSort r).filter p = rows.filter p := by
  have hsorted : (rows.filter p).Pairwise r :=
    List.pairwise_iff_forall_sublist.mpr fun {a b} hsub => by
      have ha := hsub.subset List.mem_cons_self
      have hb := hsub.subset (List.mem_cons_of_mem a List.mem_cons_self)
      exact h a b (List.mem_filter.mp ha).2 (List.mem_filter.mp hb).2
  have hsub := (List.sublist_insertionSort hsorted List.filter_sublist).filter p
  have hlength := ((List.perm_insertionSort r rows).filter p).length_eq
  simp only [List.filter_filter, Bool.and_self] at hsub
  exact (hsub.eq_of_length hlength.symm).symm

theorem insertionSort_congr {r s : α → α → Prop} [DecidableRel r] [DecidableRel s] {rows : List α}
    (h : ∀ a ∈ rows, ∀ b ∈ rows, r a b ↔ s a b) : rows.insertionSort r = rows.insertionSort s := by
  have hmap := List.map_insertionSort r s id rows h
  rwa [List.map_id, List.map_id] at hmap

section Partition

variable [DecidableEq κ] [LinearOrder ρ] {key : α → κ} {rank : α → ρ} {rows : List α}

/-- Groups of the rows with one key each, in the order in which the keys come first. Each group is sorted by rank,
and rows of one rank are in the order of the list. -/
structure OrderedPartition (key : α → κ) (rank : α → ρ) (rows : List α) (groups : List (List α)) : Prop where
  perm : groups.flatten.Perm rows
  same_group : ∀ a ∈ rows, ∀ b ∈ rows, (∃ group ∈ groups, a ∈ group ∧ b ∈ group) ↔ key a = key b
  in_order : groups.Pairwise fun group later => ∀ a ∈ group, ∀ b ∈ later,
    (rows.map key).idxOf (key a) < (rows.map key).idxOf (key b)
  sorted : ∀ group ∈ groups, group.Pairwise fun a b => rank a ≤ rank b
  stable : ∀ group ∈ groups, ∀ a ∈ group,
    group.filter (fun b => rank b = rank a) = rows.filter (fun b => key b = key a ∧ rank b = rank a)

def group (key : α → κ) (rank : α → ρ) (rows : List α) (k : κ) : List α :=
  (rows.filter (fun a => key a = k)).insertionSort (fun a b => rank a ≤ rank b)

def partition (key : α → κ) (rank : α → ρ) (rows : List α) : List (List α) :=
  (rows.map key).eraseDups.map (group key rank rows)

theorem mem_group {k : κ} {a : α} : a ∈ group key rank rows k ↔ a ∈ rows ∧ key a = k := by
  rw [group, List.mem_insertionSort, List.mem_filter, decide_eq_true_iff]

theorem exists_of_mem_partition {rows' : List α} (h : rows' ∈ partition key rank rows) :
    ∃ k, rows' = group key rank rows k := by
  obtain ⟨k, -, rfl⟩ := List.mem_map.mp h
  exact ⟨k, rfl⟩

theorem pairwise_idxOf_eraseDups (keys : List κ) :
    keys.eraseDups.Pairwise fun k k' => keys.idxOf k < keys.idxOf k' := by
  induction keys using List.reverseRecOn with
  | nil => exact List.Pairwise.nil
  | append_singleton keys key ih =>
    have hkeep : keys.eraseDups.Pairwise fun k k' => (keys ++ [key]).idxOf k < (keys ++ [key]).idxOf k' := by
      refine ih.imp_of_mem ?_
      intro k k' hk hk' hlt
      rwa [List.idxOf_append_of_mem (List.mem_eraseDups.mp hk), List.idxOf_append_of_mem (List.mem_eraseDups.mp hk')]
    rw [eraseDups_append_singleton]
    split_ifs with hmem
    · exact hkeep
    · refine List.pairwise_append.mpr ⟨hkeep, List.pairwise_singleton _ _, ?_⟩
      intro k hk k' hk'
      rw [List.mem_singleton.mp hk', List.idxOf_append_of_mem (List.mem_eraseDups.mp hk),
        List.idxOf_append_of_notMem hmem]
      exact Nat.lt_add_right _ (List.idxOf_lt_length_of_mem (List.mem_eraseDups.mp hk))

theorem eraseDups_map {κ' : Type} [DecidableEq κ'] {f : κ → κ'} (hf : Function.Injective f) (keys : List κ) :
    (keys.map f).eraseDups = keys.eraseDups.map f := by
  induction keys using List.reverseRecOn with
  | nil => rfl
  | append_singleton keys key ih =>
    rw [List.map_append, List.map_singleton, eraseDups_append_singleton, ih, eraseDups_append_singleton]
    by_cases hkey : key ∈ keys
    · rw [if_pos (List.mem_map_of_mem hkey), if_pos hkey]
    · rw [if_neg (fun h => hkey ((List.mem_map_of_injective hf).mp h)), if_neg hkey, List.map_append,
        List.map_singleton]

theorem flatten_partition_perm : (partition key rank rows).flatten.Perm rows := by
  have hsorts : (partition key rank rows).flatten.Perm
      ((rows.map key).eraseDups.flatMap fun k => rows.filter fun a => key a = k) := by
    rw [partition, ← List.flatMap_def]
    exact List.Perm.flatMap_left _ fun k _ => List.perm_insertionSort _ _
  refine hsorts.trans (flatMap_filter_perm fun a ha => length_filter_eq_one ?_ ?_)
  · refine (nodup_eraseDups _).imp ?_
    intro k k' hne hk hk'
    exact hne ((decide_eq_true_iff.mp hk).symm.trans (decide_eq_true_iff.mp hk'))
  · exact ⟨key a, List.mem_eraseDups.mpr (List.mem_map_of_mem ha), decide_eq_true rfl⟩

theorem orderedPartition_partition : OrderedPartition key rank rows (partition key rank rows) where
  perm := flatten_partition_perm
  same_group := by
    intro a ha b hb
    constructor
    · rintro ⟨rows', hrows', ha', hb'⟩
      obtain ⟨k, rfl⟩ := exists_of_mem_partition hrows'
      exact (mem_group.mp ha').2.trans (mem_group.mp hb').2.symm
    · intro heq
      have hkey : key a ∈ (rows.map key).eraseDups := List.mem_eraseDups.mpr (List.mem_map_of_mem ha)
      exact ⟨_, List.mem_map_of_mem hkey, mem_group.mpr ⟨ha, rfl⟩, mem_group.mpr ⟨hb, heq.symm⟩⟩
  in_order := by
    refine List.pairwise_map.mpr ((pairwise_idxOf_eraseDups _).imp ?_)
    intro k k' hlt a ha b hb
    rwa [(mem_group.mp ha).2, (mem_group.mp hb).2]
  sorted := by
    intro rows' hrows'
    obtain ⟨k, rfl⟩ := exists_of_mem_partition hrows'
    have htotal : Std.Total fun a b : α => rank a ≤ rank b := ⟨fun a b => le_total _ _⟩
    have htrans : IsTrans α fun a b : α => rank a ≤ rank b := ⟨fun _ _ _ => le_trans⟩
    exact List.pairwise_insertionSort _ _
  stable := by
    intro rows' hrows' a ha
    obtain ⟨k, rfl⟩ := exists_of_mem_partition hrows'
    rw [group, filter_insertionSort, List.filter_filter]
    · refine List.filter_congr fun b _ => ?_
      rw [(mem_group.mp ha).2, Bool.and_comm, ← Bool.decide_and]
    · intro b c hb hc
      exact ((decide_eq_true_iff.mp hb).trans (decide_eq_true_iff.mp hc).symm).le

end Partition

section GroupSort

variable [DecidableEq κ] [LinearOrder ρ] {key : α → Option κ} {index : α → ρ} {rows : List α} {a b : α}

/-- A comparison that always answers for the rows of a list, and there as a total preorder does. -/
structure TotalPreorderOn (rows : List α) (cmp : α → α → Option Ordering) : Prop where
  swap : ∀ a ∈ rows, ∀ b ∈ rows, ∃ o, cmp a b = some o ∧ cmp b a = some o.swap
  trans : ∀ a ∈ rows, ∀ b ∈ rows, ∀ c ∈ rows, ∀ o o', cmp a b = some o → o.isLE = true → cmp b c = some o' →
    o'.isLE = true → ∃ o'', cmp a c = some o'' ∧ o''.isLE = true

/-- The rows of each key side by side, the keys in the order in which they come first and the rows without one last.
The rows of one key are in the order of their indices, and with one index in the order of the list. -/
structure GroupSorted (key : α → Option κ) (index : α → ρ) (rows sorted : List α) : Prop where
  perm : sorted.Perm rows
  contiguous : ∀ front middle back a b, sorted = front ++ a :: (middle ++ b :: back) → key a = key b →
    ∀ c ∈ middle, key c = key a
  in_order : sorted.Pairwise fun a b => ∀ k k', key a = some k → key b = some k' → k ≠ k' →
    (rows.map key).idxOf (some k) < (rows.map key).idxOf (some k')
  by_index : sorted.Pairwise fun a b => key a = key b → index a ≤ index b
  stable : ∀ a ∈ rows, sorted.filter (fun b => key b = key a ∧ index b = index a) =
    rows.filter (fun b => key b = key a ∧ index b = index a)
  without_last : sorted.Pairwise fun a b => key a = none → key b = none

/-- Where the key of a row comes first. The rows without one are behind all others. -/
def position (key : α → Option κ) (rows : List α) (a : α) : ℕ :=
  match key a with
  | some k => (rows.map key).idxOf (some k)
  | none => rows.length

def rank (key : α → Option κ) (index : α → ρ) (rows : List α) (a : α) : ℕ ×ₗ ρ :=
  toLex (position key rows a, index a)

def groupSort (key : α → Option κ) (index : α → ρ) (rows : List α) : List α :=
  rows.insertionSort (fun a b => rank key index rows a ≤ rank key index rows b)

theorem position_of_none (h : key a = none) : position key rows a = rows.length := by
  rw [position, h]

theorem position_of_some {k : κ} (h : key a = some k) : position key rows a = (rows.map key).idxOf (some k) := by
  rw [position, h]

theorem position_lt {k : κ} (ha : a ∈ rows) (h : key a = some k) : position key rows a < rows.length := by
  have hmem : some k ∈ rows.map key := h ▸ List.mem_map_of_mem ha
  rw [position_of_some h]
  simpa using List.idxOf_lt_length_of_mem hmem

theorem position_eq_iff (ha : a ∈ rows) (hb : b ∈ rows) :
    position key rows a = position key rows b ↔ key a = key b := by
  constructor
  · intro h
    cases hka : key a with
    | none =>
      cases hkb : key b with
      | none => rfl
      | some k =>
        have hlt := position_lt hb hkb
        rw [← h, position_of_none hka] at hlt
        exact absurd hlt (lt_irrefl _)
    | some k =>
      cases hkb : key b with
      | none =>
        have hlt := position_lt ha hka
        rw [h, position_of_none hkb] at hlt
        exact absurd hlt (lt_irrefl _)
      | some k' =>
        have hmem : some k ∈ rows.map key := hka ▸ List.mem_map_of_mem ha
        rw [position_of_some hka, position_of_some hkb] at h
        exact (List.idxOf_inj hmem).mp h
  · intro h
    rw [position, position, h]

theorem rank_le_iff :
    rank key index rows a ≤ rank key index rows b ↔
      position key rows a < position key rows b ∨ position key rows a = position key rows b ∧ index a ≤ index b :=
  Prod.Lex.toLex_le_toLex

theorem position_le_of_rank_le (h : rank key index rows a ≤ rank key index rows b) :
    position key rows a ≤ position key rows b := by
  obtain hlt | ⟨heq, -⟩ := rank_le_iff.mp h
  · exact hlt.le
  · exact heq.le

theorem mem_groupSort : a ∈ groupSort key index rows ↔ a ∈ rows := List.mem_insertionSort _

theorem pairwise_groupSort :
    (groupSort key index rows).Pairwise fun a b => rank key index rows a ≤ rank key index rows b := by
  have htotal : Std.Total fun a b : α => rank key index rows a ≤ rank key index rows b := ⟨fun a b => le_total _ _⟩
  have htrans : IsTrans α fun a b : α => rank key index rows a ≤ rank key index rows b := ⟨fun _ _ _ => le_trans⟩
  exact List.pairwise_insertionSort _ _

theorem groupSorted_groupSort : GroupSorted key index rows (groupSort key index rows) where
  perm := List.perm_insertionSort _ _
  contiguous := by
    intro front middle back a b hsorted heq c hc
    have hmem : ∀ d ∈ a :: (middle ++ b :: back), d ∈ rows := fun d hd =>
      mem_groupSort.mp (hsorted ▸ List.mem_append_right front hd)
    have hb : b ∈ middle ++ b :: back := List.mem_append_right _ List.mem_cons_self
    have hc' : c ∈ middle ++ b :: back := List.mem_append_left _ hc
    have hpair : (groupSort key index rows).Pairwise fun a b => rank key index rows a ≤ rank key index rows b :=
      pairwise_groupSort
    rw [hsorted] at hpair
    obtain ⟨hfirst, hrest⟩ := List.pairwise_cons.mp (List.pairwise_append.mp hpair).2.1
    have hac := position_le_of_rank_le (hfirst c hc')
    have hcb := position_le_of_rank_le ((List.pairwise_append.mp hrest).2.2 c hc b List.mem_cons_self)
    have hab := (position_eq_iff (hmem a List.mem_cons_self) (hmem b (List.mem_cons_of_mem a hb))).mpr heq
    exact (position_eq_iff (hmem c (List.mem_cons_of_mem a hc')) (hmem a List.mem_cons_self)).mp (by omega)
  in_order := by
    refine pairwise_groupSort.imp_of_mem ?_
    intro a b ha hb hle k k' hka hkb hne
    have hpositions := position_le_of_rank_le hle
    have hdiffer : position key rows a ≠ position key rows b := by
      rw [ne_eq, position_eq_iff (mem_groupSort.mp ha) (mem_groupSort.mp hb), hka, hkb, Option.some.injEq]
      exact hne
    rw [position_of_some hka, position_of_some hkb] at hpositions hdiffer
    exact lt_of_le_of_ne hpositions hdiffer
  by_index := by
    refine pairwise_groupSort.imp_of_mem ?_
    intro a b ha hb hle heq
    have hposition := (position_eq_iff (mem_groupSort.mp ha) (mem_groupSort.mp hb)).mpr heq
    obtain hlt | ⟨-, hindex⟩ := rank_le_iff.mp hle
    · exact absurd hposition hlt.ne
    · exact hindex
  stable := by
    intro a ha
    refine filter_insertionSort rows ?_
    intro b c hb hc
    obtain ⟨hkb, hib⟩ := decide_eq_true_iff.mp hb
    obtain ⟨hkc, hic⟩ := decide_eq_true_iff.mp hc
    refine rank_le_iff.mpr (.inr ⟨?_, (hib.trans hic.symm).le⟩)
    rw [position, position, hkb, hkc]
  without_last := by
    refine pairwise_groupSort.imp_of_mem ?_
    intro a b ha hb hle hka
    have hposition := position_le_of_rank_le hle
    rw [position_of_none hka] at hposition
    cases hkb : key b with
    | none => rfl
    | some k => exact absurd (position_lt (mem_groupSort.mp hb) hkb) (not_lt_of_ge hposition)

theorem idxOf_le {keys : List (Option κ)} {k : Option κ} {i : ℕ} (hi : i < keys.length) (h : keys[i] = k) :
    keys.idxOf k ≤ i := by
  by_contra hlt
  have hother := List.not_of_lt_findIdx (not_le.mp hlt)
  rw [h, beq_self_eq_true] at hother
  cases hother

/-- In a list that is sorted, the keys come first in the same order as in the list that it was made from. -/
theorem idxOf_lt_of_groupSorted {sorted : List α} (h : GroupSorted key index rows sorted) {i j : ℕ} {k k' : κ}
    (hi : i < sorted.length) (hj : j < sorted.length) (hij : i < j) (hki : key sorted[i] = some k)
    (hkj : key sorted[j] = some k') (hne : k ≠ k') :
    (sorted.map key).idxOf (some k) < (sorted.map key).idxOf (some k') := by
  have horder := List.pairwise_iff_getElem.mp h.in_order
  have hforward := horder i j hi hj hij k k' hki hkj hne
  have hmem : some k' ∈ sorted.map key := hkj ▸ List.mem_map_of_mem (List.getElem_mem hj)
  have hfirst : (sorted.map key).idxOf (some k) ≤ i := idxOf_le (by simpa using hi) (by simpa using hki)
  have hlt : (sorted.map key).idxOf (some k') < sorted.length := by simpa using List.idxOf_lt_length_of_mem hmem
  have hkey : key sorted[(sorted.map key).idxOf (some k')] = some k' := by
    rw [← List.getElem_map key]
    exact List.getElem_idxOf (List.idxOf_lt_length_of_mem hmem)
  by_contra hle
  have hdiffer : (sorted.map key).idxOf (some k') ≠ (sorted.map key).idxOf (some k) := by
    intro heq
    exact hne (Option.some.inj ((List.idxOf_inj hmem).mp heq)).symm
  have hbackward := horder _ i hlt hi (by omega) k' k hkey hki hne.symm
  exact lt_asymm hforward hbackward

theorem pairwise_rank_of_groupSorted {sorted : List α} (h : GroupSorted key index rows sorted) :
    sorted.Pairwise fun a b => rank key index sorted a ≤ rank key index sorted b := by
  refine List.pairwise_iff_getElem.mpr ?_
  intro i j hi hj hij
  rw [rank_le_iff]
  by_cases heq : key sorted[i] = key sorted[j]
  · refine .inr ⟨?_, List.pairwise_iff_getElem.mp h.by_index i j hi hj hij heq⟩
    rw [position, position, heq]
  · left
    cases hki : key sorted[i] with
    | none => exact absurd (hki.trans (List.pairwise_iff_getElem.mp h.without_last i j hi hj hij hki).symm) heq
    | some k =>
      cases hkj : key sorted[j] with
      | none =>
        rw [position_of_none hkj]
        exact position_lt (List.getElem_mem hi) hki
      | some k' =>
        rw [position_of_some hki, position_of_some hkj]
        refine idxOf_lt_of_groupSorted h hi hj hij hki hkj ?_
        rintro rfl
        exact heq (hki.trans hkj.symm)

theorem groupSort_groupSort : groupSort key index (groupSort key index rows) = groupSort key index rows :=
  (pairwise_rank_of_groupSorted groupSorted_groupSort).insertionSort_eq

theorem compare_rank :
    compare (rank key index rows a) (rank key index rows b) =
      (compare (position key rows a) (position key rows b)).then (compare (index a) (index b)) := by
  rw [rank, rank, Prod.Lex.compare_def]
  rfl

theorem compare_rank_of_ne (h : position key rows a ≠ position key rows b) :
    compare (rank key index rows a) (rank key index rows b) =
      compare (position key rows a) (position key rows b) := by
  rw [compare_rank]
  cases hcompare : compare (position key rows a) (position key rows b) with
  | eq => exact absurd (compare_eq_iff_eq.mp hcompare) h
  | lt => rfl
  | gt => rfl

theorem compare_rank_of_eq (h : position key rows a = position key rows b) :
    compare (rank key index rows a) (rank key index rows b) = compare (index a) (index b) := by
  rw [compare_rank, h, compare_eq_iff_eq.mpr rfl, Ordering.eq_then]

/-- The rows of a list are compared by their keys first. -/
theorem compare_rank_of_mem (ha : a ∈ rows) (hb : b ∈ rows) :
    compare (rank key index rows a) (rank key index rows b) =
      match key a, key b with
      | none, none => compare (index a) (index b)
      | none, some _ => .gt
      | some _, none => .lt
      | some k, some k' =>
        if k = k' then compare (index a) (index b) else compare (position key rows a) (position key rows b) := by
  cases hka : key a with
  | none =>
    cases hkb : key b with
    | none => exact compare_rank_of_eq ((position_eq_iff ha hb).mpr (hka.trans hkb.symm))
    | some k =>
      have hgt : position key rows b < position key rows a := position_of_none hka ▸ position_lt hb hkb
      rw [compare_rank_of_ne hgt.ne', compare_gt_iff_gt.mpr hgt]
  | some k =>
    cases hkb : key b with
    | none =>
      have hlt : position key rows a < position key rows b := position_of_none hkb ▸ position_lt ha hka
      rw [compare_rank_of_ne hlt.ne, compare_lt_iff_lt.mpr hlt]
    | some k' =>
      dsimp only
      split_ifs with heq
      · exact compare_rank_of_eq ((position_eq_iff ha hb).mpr (by rw [hka, hkb, heq]))
      · refine compare_rank_of_ne ?_
        rw [ne_eq, position_eq_iff ha hb, hka, hkb, Option.some.injEq]
        exact heq

theorem totalPreorderOn_of_rank {cmp : α → α → Option Ordering}
    (h : ∀ a ∈ rows, ∀ b ∈ rows, cmp a b = some (compare (rank key index rows a) (rank key index rows b))) :
    TotalPreorderOn rows cmp where
  swap := by
    intro a ha b hb
    exact ⟨_, h a ha b hb, (h b hb a ha).trans (congrArg some Std.OrientedCmp.eq_swap)⟩
  trans := by
    intro a ha b hb c hc o o' hab hle hbc hle'
    cases (h a ha b hb).symm.trans hab
    cases (h b hb c hc).symm.trans hbc
    refine ⟨_, h a ha c hc, ?_⟩
    rw [Ordering.isLE_iff_ne_gt, ← ne_eq, compare_le_iff_le] at hle hle' ⊢
    exact hle.trans hle'

end GroupSort

section FirstPositions

variable [DecidableEq κ]

/-- One turn of the loop that records where each key comes first. -/
def record (key : α → Option κ) (positions : κ → Option ℕ) (row : α × ℕ) : κ → Option ℕ :=
  match key row.1 with
  | some k => if (positions k).isSome then positions else Function.update positions k (some row.2)
  | none => positions

def firstPositions (key : α → Option κ) (rows : List α) : κ → Option ℕ :=
  rows.zipIdx.foldl (record key) fun _ => none

theorem record_apply (key : α → Option κ) (positions : κ → Option ℕ) (row : α × ℕ) (k : κ) :
    record key positions row k = (positions k).or (if key row.1 = some k then some row.2 else none) := by
  rw [record]
  cases hkey : key row.1 with
  | none => simp
  | some k' =>
    by_cases hk : k = k'
    · subst hk
      cases hposition : positions k with
      | none => simp [hposition]
      | some i => simp [hposition]
    · have hother : ¬some k' = some k := fun h => hk (Option.some.inj h).symm
      rw [if_neg hother, Option.or_none]
      dsimp only
      split_ifs
      · rfl
      · exact Function.update_of_ne hk _ _

theorem firstPositions_append (key : α → Option κ) (rows : List α) (row : α) :
    firstPositions key (rows ++ [row]) = record key (firstPositions key rows) (row, rows.length) := by
  rw [firstPositions, List.zipIdx_append, List.foldl_append, Nat.zero_add]
  rfl

/-- The loop finds the first position of every key that there is. -/
theorem firstPositions_eq (key : α → Option κ) (rows : List α) (k : κ) :
    firstPositions key rows k =
      if some k ∈ rows.map key then some ((rows.map key).idxOf (some k)) else none := by
  induction rows using List.reverseRecOn with
  | nil => rfl
  | append_singleton rows row ih =>
    rw [firstPositions_append, record_apply, ih, List.map_append, List.map_singleton]
    by_cases hmem : some k ∈ rows.map key
    · rw [if_pos hmem, if_pos (List.mem_append_left _ hmem), List.idxOf_append_of_mem hmem]
      rfl
    · rw [if_neg hmem, List.idxOf_append_of_notMem hmem, Option.none_or, List.length_map]
      by_cases hrow : key row = some k
      · rw [if_pos hrow, hrow, if_pos (by simp), List.idxOf_cons_self]
        rfl
      · rw [if_neg hrow, if_neg]
        rw [List.mem_append, List.mem_singleton]
        exact not_or.mpr ⟨hmem, fun h => hrow h.symm⟩

theorem firstPositions_of_mem {key : α → Option κ} {rows : List α} {a : α} {k : κ} (ha : a ∈ rows)
    (h : key a = some k) : firstPositions key rows k = some (position key rows a) := by
  have hmem : some k ∈ rows.map key := h ▸ List.mem_map_of_mem ha
  rw [firstPositions_eq, if_pos hmem, position_of_some h]

end FirstPositions

end MercuryLayer.Library.StableSort
