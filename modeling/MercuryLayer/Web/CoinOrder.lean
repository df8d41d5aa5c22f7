import MercuryLayer.Client.Receive

namespace MercuryLayer.Web.CoinOrder

open Client.Receive Error Library.StableSort Library.Validation WalletData

section Source

/-- A coin in the web wallet, which can be without a `duplicate_index`. -/
structure WebCoin where
  coin : Coin
  duplicateIndex : Option UInt32
deriving DecidableEq, Repr

/-- A `statechain_id` that is true. The empty text is not. -/
def WebCoin.statechainId (coin : WebCoin) : Option String := coin.coin.statechainId.filter (· ≠ "")

def WebCoin.index (coin : WebCoin) : ℕ := (coin.duplicateIndex.getD 0).toNat

def compareDuplicateIndex (x y : WebCoin) : ℤ := x.index - y.index

/-- The comparison of `sortCoinsByStatechain`. A missing position makes the difference `NaN`, which is `none`. -/
def compareWebCoins (firstPositions : String → Option ℕ) (a b : WebCoin) : Option ℤ :=
  match a.statechainId, b.statechainId with
  | none, none => some (compareDuplicateIndex a b)
  | none, some _ => some 1
  | some _, none => some (-1)
  | some idA, some idB =>
    if idA = idB then some (compareDuplicateIndex a b)
    else do
      let posA ← firstPositions idA
      let posB ← firstPositions idB
      return (posA : ℤ) - posB

/-- `sortCoinsByStatechain` of the web client. A sort takes `NaN` for zero. -/
def sortWebCoins (coins : List WebCoin) : List WebCoin :=
  coins.insertionSort
    (fun a b => (compareWebCoins (firstPositions WebCoin.statechainId coins) a b).getD 0 ≤ 0)

end Source

section Coins

variable {coins : List Coin} {a b : Coin}

def coinIndex (coin : Coin) : ℕ := coin.duplicateIndex.toNat

theorem compareCoins_eq (ha : a ∈ coins) (hb : b ∈ coins) :
    compareCoins (firstPositions Coin.statechainId coins) a b =
      .ok (compare (rank Coin.statechainId coinIndex coins a) (rank Coin.statechainId coinIndex coins b)) := by
  rw [compare_rank_of_mem ha hb]
  unfold compareCoins
  cases hA : a.statechainId with
  | none => cases b.statechainId <;> rfl
  | some idA =>
    cases hB : b.statechainId with
    | none => rfl
    | some idB =>
      dsimp only
      rw [firstPositions_of_mem ha hA, firstPositions_of_mem hb hB]
      split_ifs <;> rfl

theorem totalPreorderOn_compareCoins (coins : List Coin) :
    TotalPreorderOn coins (fun a b => (compareCoins (firstPositions Coin.statechainId coins) a b).toOption) := by
  have hrank : ∀ a ∈ coins, ∀ b ∈ coins,
      (compareCoins (firstPositions Coin.statechainId coins) a b).toOption =
        some (compare (rank Coin.statechainId coinIndex coins a) (rank Coin.statechainId coinIndex coins b)) := by
    intro a ha b hb
    rw [compareCoins_eq ha hb]
    rfl
  exact totalPreorderOn_of_rank hrank

theorem sortCoinsByStatechain_eq (coins : List Coin) :
    sortCoinsByStatechain coins = groupSort Coin.statechainId coinIndex coins := by
  refine insertionSort_congr fun a ha b hb => ?_
  rw [compareCoins_eq ha hb, ← compare_le_iff_le]
  exact Option.some_inj.not

end Coins

section WebCoins

variable {coins : List WebCoin} {a b : WebCoin}

theorem compare_sub_zero (x y : ℕ) : compare ((x : ℤ) - y) 0 = compare x y := by
  obtain hlt | heq | hgt := lt_trichotomy x y
  · rw [compare_lt_iff_lt.mpr hlt, compare_lt_iff_lt]
    omega
  · rw [compare_eq_iff_eq.mpr heq, compare_eq_iff_eq]
    omega
  · rw [compare_gt_iff_gt.mpr hgt, compare_gt_iff_gt]
    omega

theorem compareWebCoins_eq (ha : a ∈ coins) (hb : b ∈ coins) :
    ∃ difference, compareWebCoins (firstPositions WebCoin.statechainId coins) a b = some difference ∧
      compare difference 0 =
        compare (rank WebCoin.statechainId WebCoin.index coins a) (rank WebCoin.statechainId WebCoin.index coins b) := by
  rw [compare_rank_of_mem ha hb]
  unfold compareWebCoins
  cases hA : a.statechainId with
  | none =>
    cases b.statechainId with
    | none => exact ⟨_, rfl, compare_sub_zero _ _⟩
    | some idB => exact ⟨1, rfl, rfl⟩
  | some idA =>
    cases hB : b.statechainId with
    | none => exact ⟨-1, rfl, rfl⟩
    | some idB =>
      dsimp only
      rw [firstPositions_of_mem ha hA, firstPositions_of_mem hb hB]
      split_ifs
      · exact ⟨_, rfl, compare_sub_zero _ _⟩
      · exact ⟨_, rfl, compare_sub_zero _ _⟩

theorem totalPreorderOn_compareWebCoins (coins : List WebCoin) :
    TotalPreorderOn coins (fun a b =>
      (compareWebCoins (firstPositions WebCoin.statechainId coins) a b).map (compare · 0)) := by
  have hrank : ∀ a ∈ coins, ∀ b ∈ coins,
      (compareWebCoins (firstPositions WebCoin.statechainId coins) a b).map (compare · 0) =
        some (compare (rank WebCoin.statechainId WebCoin.index coins a)
          (rank WebCoin.statechainId WebCoin.index coins b)) := by
    intro a ha b hb
    obtain ⟨difference, hcompare, hrank⟩ := compareWebCoins_eq ha hb
    rw [hcompare, Option.map_some, hrank]
  exact totalPreorderOn_of_rank hrank

theorem sortWebCoins_eq (coins : List WebCoin) :
    sortWebCoins coins = groupSort WebCoin.statechainId WebCoin.index coins := by
  refine insertionSort_congr fun a ha b hb => ?_
  obtain ⟨difference, hcompare, hrank⟩ := compareWebCoins_eq ha hb
  rw [hcompare, Option.getD_some, ← compare_le_iff_le, hrank, compare_le_iff_le]

end WebCoins

/-- Both comparisons are total preorders on the coins of the list, and both sorts group the coins. -/
theorem coins_group_sorted (coins : List Coin) (webCoins : List WebCoin) :
    (TotalPreorderOn coins (fun a b => (compareCoins (firstPositions Coin.statechainId coins) a b).toOption) ∧
      GroupSorted Coin.statechainId coinIndex coins (sortCoinsByStatechain coins) ∧
      sortCoinsByStatechain (sortCoinsByStatechain coins) = sortCoinsByStatechain coins) ∧
    TotalPreorderOn webCoins (fun a b =>
        (compareWebCoins (firstPositions WebCoin.statechainId webCoins) a b).map (compare · 0)) ∧
      GroupSorted WebCoin.statechainId WebCoin.index webCoins (sortWebCoins webCoins) ∧
      sortWebCoins (sortWebCoins webCoins) = sortWebCoins webCoins := by
  refine ⟨⟨totalPreorderOn_compareCoins coins, ?_, ?_⟩, totalPreorderOn_compareWebCoins webCoins, ?_, ?_⟩
  · rw [sortCoinsByStatechain_eq]
    exact groupSorted_groupSort
  · rw [sortCoinsByStatechain_eq coins, sortCoinsByStatechain_eq]
    exact groupSort_groupSort
  · rw [sortWebCoins_eq]
    exact groupSorted_groupSort
  · rw [sortWebCoins_eq webCoins, sortWebCoins_eq]
    exact groupSort_groupSort

end MercuryLayer.Web.CoinOrder
