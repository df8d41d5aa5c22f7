import MercuryLayer.Client.TransferReceiver
import MercuryLayer.Library.StableSort

namespace MercuryLayer.Web.BackupGroups

open Client.TransferReceiver (groupByOutpoint splitBackupTransactions_eq exists_outpointOf)
open Crates Error Library Library.StableSort Library.Validation WalletData

section Source

/-- The text under which the web client keeps a group. -/
def keyOf (outpoint : OutPoint) : String := outpoint.txid ++ ":" ++ toString outpoint.vout.toNat

/-- `splitBackupTransactions` of the web client, which leaves the groups in the map. If an outpoint cannot be read
the wasm module panics, and the exception is thrown on. -/
def splitBackupTransactions (btc : Bitcoin) (backupTransactions : List BackupTx) : Res (List (List BackupTx)) := do
  let rows ← backupTransactions.mapM (fun tx => do
    let outpoint ← expect (getPreviousOutpoint btc tx)
    return (keyOf outpoint, tx))
  let g := rows.foldl Grouping.push Grouping.empty
  return g.orderOfAppearance.filterMap (fun key => (g.grouped key).map sortByTxN)

end Source

section Keys

theorem append_cons_inj {x y z w : List Char} {c : Char} (hz : c ∉ z) (hw : c ∉ w)
    (h : x ++ c :: z = y ++ c :: w) : x = y ∧ z = w := by
  obtain ⟨more, hy, hcons⟩ | ⟨more, hx, hcons⟩ := List.append_eq_append_iff.mp h
  · cases more with
    | nil => exact ⟨by rw [hy, List.append_nil], (List.cons.inj hcons).2⟩
    | cons d more =>
      refine absurd ?_ hz
      rw [(List.cons.inj hcons).2]
      exact List.mem_append_right _ List.mem_cons_self
  · cases more with
    | nil => exact ⟨by rw [hx, List.append_nil], (List.cons.inj hcons).2.symm⟩
    | cons d more =>
      refine absurd ?_ hw
      rw [(List.cons.inj hcons).2]
      exact List.mem_append_right _ List.mem_cons_self

theorem colon_notMem (n : ℕ) : ':' ∉ Nat.toDigits 10 n := by
  intro hmem
  cases Nat.isDigit_of_mem_toDigits (by decide) (by decide) hmem

/-- The number after the last colon is that of the output, so the text stands for one outpoint. -/
theorem keyOf_injective : Function.Injective keyOf := by
  intro a b h
  have hlist : a.txid.toList ++ ':' :: Nat.toDigits 10 a.vout.toNat =
      b.txid.toList ++ ':' :: Nat.toDigits 10 b.vout.toNat := by
    have hdigits : ∀ n : ℕ, (toString n).toList = Nat.toDigits 10 n := fun n => Nat.toList_repr
    have hchars := congrArg String.toList h
    simp only [keyOf, String.toList_append, List.append_assoc, hdigits] at hchars
    exact hchars
  obtain ⟨htxid, hvout⟩ := append_cons_inj (colon_notMem _) (colon_notMem _) hlist
  have hnumber : a.vout.toNat = b.vout.toNat := by
    have hread := congrArg (Nat.ofDigitChars 10 · 0) hvout
    simpa only [Nat.ofDigitChars_toDigits (show 1 < 10 by decide) le_rfl] using hread
  exact congrArg₂ OutPoint.mk (String.toList_inj.mp htxid) (UInt32.toNat_inj.mp hnumber)

end Keys

section Groups

variable {btc : Bitcoin} {outpointOf : String → OutPoint} {txs : List BackupTx}

theorem rowsOf_keyOf (key : OutPoint) :
    Grouping.rowsOf (keyOf key) (txs.map (fun b => (keyOf (outpointOf b.tx), b))) =
      txs.filter (fun b => outpointOf b.tx = key) := by
  rw [Grouping.rowsOf, List.filter_map, List.map_map]
  refine (List.map_id _).trans (List.filter_congr fun b _ => ?_)
  exact decide_eq_decide.mpr keyOf_injective.eq_iff

theorem web_splitBackupTransactions_eq (h : ∀ b ∈ txs, getPreviousOutpoint btc b = .ok (outpointOf b.tx)) :
    splitBackupTransactions btc txs = .ok (groupByOutpoint outpointOf txs) := by
  have hrows : txs.mapM (fun tx => do
      let outpoint ← expect (getPreviousOutpoint btc tx)
      return (keyOf outpoint, tx)) = Except.ok (txs.map (fun b => (keyOf (outpointOf b.tx), b))) := by
    apply mapM_eq_ok
    intro b hb
    rw [h b hb]
    rfl
  have hbuilt := Grouping.built_foldl (txs.map (fun b => (keyOf (outpointOf b.tx), b)))
  have hkeys : (txs.map (fun b => (keyOf (outpointOf b.tx), b))).map Prod.fst =
      (txs.map (fun b => outpointOf b.tx)).map keyOf := by
    rw [List.map_map, List.map_map]
    rfl
  rw [splitBackupTransactions, hrows, ok_bind]
  refine congrArg Except.ok ?_
  rw [hbuilt.order, hkeys, eraseDups_map keyOf_injective, List.filterMap_map, groupByOutpoint]
  refine (List.filterMap_congr fun key hkey => ?_).trans (congrFun List.filterMap_eq_map _)
  have hmem : keyOf key ∈ (txs.map (fun b => outpointOf b.tx)).map keyOf :=
    List.mem_map_of_mem (List.mem_eraseDups.mp hkey)
  rw [Function.comp_apply, hbuilt.grouped, hkeys, if_pos hmem, rowsOf_keyOf]
  rfl

theorem sortByTxN_eq (txs : List BackupTx) :
    sortByTxN txs = txs.insertionSort (fun a b => a.txN.toNat ≤ b.txN.toNat) :=
  insertionSort_congr fun _ _ _ _ => UInt32.le_iff_toNat_le

theorem groupByOutpoint_eq (outpointOf : String → OutPoint) (txs : List BackupTx) :
    groupByOutpoint outpointOf txs = partition (fun b => outpointOf b.tx) (fun b => b.txN.toNat) txs := by
  rw [groupByOutpoint, partition]
  refine List.map_congr_left fun key _ => ?_
  rw [sortByTxN_eq, group]

def SingleInput (btc : Bitcoin) (tx : String) : Prop :=
  ∃ parsed, btc.deserialize tx = .ok parsed ∧ parsed.input.length = 1

def AtMostOneOutput (btc : Bitcoin) (tx : String) : Prop :=
  ∀ parsed, btc.deserialize tx = .ok parsed → parsed.output.length ≤ 1

/-- The outpoint that a transaction with a single input spends. -/
def spentBy (btc : Bitcoin) (tx : String) : OutPoint :=
  match btc.deserialize tx with
  | .ok parsed => (parsed.input.head?.map (·.previousOutput)).getD ⟨"", 0⟩
  | .error _ => ⟨"", 0⟩

theorem getPreviousOutpoint_of_singleInput {b : BackupTx} (hsingle : SingleInput btc b.tx)
    (hone : AtMostOneOutput btc b.tx) : getPreviousOutpoint btc b = .ok (spentBy btc b.tx) := by
  obtain ⟨parsed, hparsed, hlength⟩ := hsingle
  obtain ⟨input, hinput⟩ := List.length_eq_one_iff.mp hlength
  have houtput := hone parsed hparsed
  simp only [getPreviousOutpoint, spentBy, hparsed, question_ok, ok_bind, hinput]
  simp [throwIf, unwrap, not_lt_of_ge houtput]

theorem atMostOneOutput_of_read {b : BackupTx} {outpoint : OutPoint}
    (h : getPreviousOutpoint btc b = .ok outpoint) : AtMostOneOutput btc b.tx := by
  intro parsed hparsed
  simp only [getPreviousOutpoint, hparsed, question_ok, ok_bind, bind_eq_ok, throwIf_eq_ok] at h
  obtain ⟨-, -, -, h, -⟩ := h
  exact not_lt.mp h

theorem mapM_eq_panic {β : Type} (f : OutPoint → BackupTx → β) {b : BackupTx} (hb : b ∈ txs)
    (hmore : ¬AtMostOneOutput btc b.tx) :
    txs.mapM (fun tx => do
      let outpoint ← expect (getPreviousOutpoint btc tx)
      return f outpoint tx) = .error .panic := by
  cases hrows : txs.mapM (fun tx => do
      let outpoint ← expect (getPreviousOutpoint btc tx)
      return f outpoint tx) with
  | ok rows =>
    obtain ⟨row, hrow⟩ := exists_of_mapM_eq_ok hrows b hb
    obtain ⟨outpoint, hread, -⟩ := bind_eq_ok.mp hrow
    exact absurd (atMostOneOutput_of_read (expect_eq_ok.mp hread)) hmore
  | error e =>
    obtain ⟨tx, -, herror⟩ := exists_of_mapM_eq_error hrows
    obtain hread | ⟨outpoint, -, hreturn⟩ := bind_eq_error.mp herror
    · rw [(expect_eq_error.mp hread).1]
    · cases hreturn

/-- Transactions with a single input are split, by both clients, into an ordered partition by the outpoints that
they spend, exactly if each of them has at most one output. If one has more, each of the clients panics. -/
theorem split_iff (btc : Bitcoin) (txs : List BackupTx) (hsingle : ∀ b ∈ txs, SingleInput btc b.tx) :
    ((∃ groups, Client.TransferReceiver.splitBackupTransactions btc txs = .ok groups ∧
      OrderedPartition (fun b => spentBy btc b.tx) (fun b => b.txN.toNat) txs groups ∧
      splitBackupTransactions btc txs = .ok groups) ↔
    ∀ b ∈ txs, AtMostOneOutput btc b.tx) ∧
    ((∃ b ∈ txs, ¬AtMostOneOutput btc b.tx) →
      Client.TransferReceiver.splitBackupTransactions btc txs = .error .panic ∧
      splitBackupTransactions btc txs = .error .panic) := by
  refine ⟨⟨?_, fun hone => ?_⟩, ?_⟩
  · rintro ⟨groups, hsplit, -, -⟩ b hb
    obtain ⟨outpointOf, hread⟩ := exists_outpointOf hsplit
    exact atMostOneOutput_of_read (hread b hb)
  · have hread : ∀ b ∈ txs, getPreviousOutpoint btc b = .ok (spentBy btc b.tx) := fun b hb =>
      getPreviousOutpoint_of_singleInput (hsingle b hb) (hone b hb)
    refine ⟨groupByOutpoint (spentBy btc) txs, splitBackupTransactions_eq hread, ?_,
      web_splitBackupTransactions_eq hread⟩
    rw [groupByOutpoint_eq]
    exact orderedPartition_partition
  · rintro ⟨b, hb, hmore⟩
    constructor
    · rw [Client.TransferReceiver.splitBackupTransactions, mapM_eq_panic Prod.mk hb hmore]
      rfl
    · rw [splitBackupTransactions, mapM_eq_panic (fun outpoint tx => (keyOf outpoint, tx)) hb hmore]
      rfl

/-- Transactions whose text names the transaction that they spend, with as many outputs as it has letters. -/
def letterBtc : Bitcoin where
  deserialize text :=
    .ok { version := 2, lockTime := 0, input := [⟨⟨text, 0⟩, [], 0, []⟩]
          output := List.replicate text.length ⟨0, []⟩ }
  serialize _ := ""
  txid _ := ""
  txidFromStr _ := none
  vsize _ := 0
  sighash _ _ := none
  addressToStr _ _ := ""
  addressFromScript _ _ := none
  scriptOfAddress _ _ := none

def numbered (txN : UInt32) (tx : String) : BackupTx := ⟨txN, tx, "", "", "", "", ""⟩

theorem singleInput_letterBtc (tx : String) : SingleInput letterBtc tx := ⟨_, rfl, rfl⟩

theorem not_atMostOneOutput_letterBtc : ¬AtMostOneOutput letterBtc "ab" := fun h => absurd (h _ rfl) (by decide)

theorem split_iff_letters :
    ((∀ b ∈ [numbered 2 "a", numbered 1 "b", numbered 1 "a"], SingleInput letterBtc b.tx) ∧
      ∃ groups, Client.TransferReceiver.splitBackupTransactions letterBtc
          [numbered 2 "a", numbered 1 "b", numbered 1 "a"] = .ok groups ∧
        OrderedPartition (fun b => spentBy letterBtc b.tx) (fun b => b.txN.toNat)
          [numbered 2 "a", numbered 1 "b", numbered 1 "a"] groups ∧
        splitBackupTransactions letterBtc [numbered 2 "a", numbered 1 "b", numbered 1 "a"] = .ok groups) ∧
    Client.TransferReceiver.splitBackupTransactions letterBtc [numbered 1 "a", numbered 1 "ab"] = .error .panic ∧
    splitBackupTransactions letterBtc [numbered 1 "a", numbered 1 "ab"] = .error .panic := by
  refine ⟨⟨fun b _ => singleInput_letterBtc b.tx,
    (split_iff _ _ fun b _ => singleInput_letterBtc b.tx).1.mpr ?_⟩,
    (split_iff _ _ fun b _ => singleInput_letterBtc b.tx).2
      ⟨numbered 1 "ab", by simp, not_atMostOneOutput_letterBtc⟩⟩
  intro b hb parsed hparsed
  cases hparsed
  have hlength : ∀ b ∈ [numbered 2 "a", numbered 1 "b", numbered 1 "a"], b.tx.length ≤ 1 := by decide
  exact List.length_replicate.le.trans (hlength b hb)

/-- With two outputs there is no outpoint, and neither client returns. -/
theorem two_outputs_not_split :
    SingleInput letterBtc (numbered 1 "ab").tx ∧
      Client.TransferReceiver.splitBackupTransactions letterBtc [numbered 1 "ab"] = .error .panic ∧
      splitBackupTransactions letterBtc [numbered 1 "ab"] = .error .panic :=
  ⟨singleInput_letterBtc _, rfl, rfl⟩

end Groups

end MercuryLayer.Web.BackupGroups
