import MercuryLayer.Client.CoinSteps
import MercuryLayer.Client.BackupChoice
import MercuryLayer.Web.TransferSend

namespace MercuryLayer.Web.SendersAgree

open Client.Duplicates (View exists_head_of_checked)
open Client.Transaction Client.TransferReceiver
open Client.TransferSender (CoinBackup collect createBackupTxToReceiver firstBackupTx sortConfirmedFirst
  sortConfirmedFirst_perm validateAddress)
open Crates hiding Session
open Error Library.Programs Library.Validation Library.XOnlyCurve Receiver WalletData Web.TransferSend

variable {E K F : Type} (setup : Setup E K F)

section Signing

variable {setup} {σ : Type} {view : View} {transfer : Transfer} {sign : (c : Call F) → σ → Reply c × σ} {memory : σ}
variable [Mul F] [NatCast F] [LT F] [DecidableLT F]

theorem refuses_of_checks {failure : Failure} (h : rustChecks setup view transfer = .error failure) :
    Refuses (outcome view sign memory (rustTransfer setup transfer)) := by
  have hopens : Opens (answers view sign) ⟨false, memory⟩ () (rustTransfer setup transfer)
      (rustChecks setup view transfer) (rustSigns setup view transfer) := opens_rustTransfer transfer
  rw [h] at hopens
  rw [outcome, hopens]
  exact ⟨⟨failure, rfl⟩, rfl⟩

omit [Mul F] [NatCast F] [LT F] [DecidableLT F] in
theorem filteredTransactions_error {stored : List BackupTx} (coin : Coin) {backupTx : BackupTx}
    (hmem : backupTx ∈ stored) (hpanic : getPreviousOutpoint setup.btc backupTx = .error .panic) :
    ∃ failure, Client.TransferSender.filteredTransactions setup.btc coin stored = .error failure := by
  cases hfiltered : Client.TransferSender.filteredTransactions setup.btc coin stored with
  | error failure => exact ⟨failure, rfl⟩
  | ok txs =>
    obtain ⟨filtered, hfilter, -⟩ := bind_eq_ok.mp hfiltered
    obtain ⟨b, hb⟩ := exists_of_filterM_eq_ok hfilter backupTx hmem
    rw [Client.TransferSender.backsUp, hpanic] at hb
    cases hb

/-- A stored transaction without any input makes the client in Rust panic, if not in a check, then when it looks
for those of the first coin. -/
theorem refuses_of_panic {backupTx : BackupTx} (hmem : backupTx ∈ view.stored)
    (hpanic : getPreviousOutpoint setup.btc backupTx = .error .panic) :
    Refuses (outcome view sign memory (rustTransfer setup transfer)) := by
  have hopens : Opens (answers view sign) ⟨false, memory⟩ () (rustTransfer setup transfer)
      (rustChecks setup view transfer) (rustSigns setup view transfer) := opens_rustTransfer transfer
  cases hchecks : rustChecks setup view transfer with
  | error failure => exact refuses_of_checks hchecks
  | ok coins =>
    rw [hchecks] at hopens
    obtain ⟨_, -, hchecked⟩ := bind_eq_ok.mp hchecks
    obtain ⟨first, rest, hfirst⟩ := exists_head_of_checked hchecked
    obtain ⟨failure, hfailure⟩ := filteredTransactions_error first.1 hmem hpanic
    have hturn : Comes (answers view sign) ⟨false, memory⟩ () (Client.TransferSender.backUpCoin setup view.stored
        transfer.recipientAddress transfer.wallet.network first.1 first.2 view.stored.length.toUInt32)
        (.error failure) := by
      refine exec_bind_of_comes_error _ ?_
      rw [hfailure]
      exact comes_lift
    have hsigns : Comes (answers view sign) ⟨false, memory⟩ () (rustSigns setup view transfer coins)
        (.error failure) := by
      refine exec_bind_of_comes_error _ ?_
      rw [hfirst]
      exact exec_bind_of_comes_error _ hturn
    rw [outcome, hopens]
    dsimp only
    rw [hsigns]
    exact ⟨⟨failure, rfl⟩, rfl⟩

open Client.CoinSteps (unsigned yields_createBackupTxToReceiver yields_createTx1)
open Client.Operations (KeepsWallet)

theorem yields_firstBackupTx (filtered : List BackupTx) (coin : Coin) (network : String) (newTxN : UInt32) :
    Yields KeepsWallet
      (fun r => unsigned r.1 = unsigned coin ∧ r.2.1.map BackupTx.txN = (if filtered = [] then [newTxN + 1] else []) ∧
        r.2.2 = if filtered = [] then newTxN + 1 else newTxN)
      (firstBackupTx setup filtered coin network newTxN) := by
  unfold firstBackupTx
  split_ifs
  · refine yields_bind (yields_createTx1 _ _ _) (fun r hr => yields_pure ⟨hr.1, ?_, rfl⟩)
    rw [← hr.2]
    rfl
  · exact yields_pure ⟨rfl, rfl, rfl⟩

theorem yields_backUpCoin_numbers (stored : List BackupTx) (recipientAddress network : String) (coin : Coin)
    (place : ℕ) (newTxN : UInt32) :
    Yields KeepsWallet
      (fun r => r.1.coin.duplicateIndex = coin.duplicateIndex ∧
        (r.1.stored ++ r.1.created).map BackupTx.txN = groupNumbers setup stored coin newTxN ∧
          r.2 = newTxN + made setup stored coin)
      (backUpCoin setup stored recipientAddress network coin place newTxN) := by
  refine yields_bind (yields_firstBackupTx _ _ _ _) (fun first hfirst => ?_)
  obtain ⟨hsame, hnumbers, hlast⟩ := hfirst
  refine yields_lift_bind (fun bkpTx1 _ => ?_)
  refine yields_bind (yields_createBackupTxToReceiver _ _ _ _ _) (fun second hsecond => ?_)
  refine yields_lift_bind (fun backupTx hbackupTx => ?_)
  have hindex := congrArg Coin.duplicateIndex (hsecond.trans hsame)
  have hnumber : backupTx.txN = first.2.2 + 1 := (backupTxOf_eq_ok hbackupTx).2.1
  have htwo : newTxN + 1 + 1 = newTxN + 2 := UInt32.add_assoc newTxN 1 1
  refine yields_pure ⟨hindex, ?_, ?_⟩
  · rw [List.map_append, List.map_append, List.map_singleton, hnumbers, hnumber, hlast, groupNumbers]
    by_cases hnil : filteredTransactions setup.btc coin stored = []
    · simp [storedNumbers, hnil, htwo]
    · simp [storedNumbers, hnil]
  · rw [hlast, made]
    by_cases hnil : filteredTransactions setup.btc coin stored = []
    · simp [storedNumbers, hnil, htwo]
    · simp [storedNumbers, hnil]

theorem yields_backUpCoins_numbers (stored : List BackupTx) (recipientAddress network : String)
    (coins : List (Coin × ℕ)) (newTxN : UInt32) :
    Yields KeepsWallet
      (fun backups => ∀ txs : List BackupTx,
        (backups.foldl (fun txs backup => if backup.coin.duplicateIndex = 0 then backup.stored ++ backup.created ++ txs
          else txs ++ (backup.stored ++ backup.created)) txs).map BackupTx.txN =
          collectNumbers setup stored coins newTxN (txs.map BackupTx.txN))
      (backUpCoins setup stored recipientAddress network coins newTxN) := by
  induction coins generalizing newTxN with
  | nil => exact yields_pure fun _ => rfl
  | cons first coins ih =>
    obtain ⟨coin, place⟩ := first
    refine yields_bind (yields_backUpCoin_numbers _ _ _ _ _ _) (fun r hr => ?_)
    obtain ⟨hindex, hnumbers, hlast⟩ := hr
    refine yields_bind (ih r.2) (fun backups hbackups => yields_pure fun txs => ?_)
    rw [List.foldl_cons, hbackups, collectNumbers, hlast]
    congr 1
    rw [hindex]
    split_ifs
    · rw [List.map_append, hnumbers]
    · rw [List.map_append, hnumbers]

variable (setup view transfer sign memory) in
/-- The one who signs does so for all the coins that are sent. -/
def Signs : Prop :=
  ∃ backups s, exec (answers view sign) (backUpCoins setup view.stored transfer.recipientAddress
    transfer.wallet.network (sortConfirmedFirst (coinList setup view transfer)) view.stored.length.toUInt32).run
      (fun _ => ()) ⟨false, memory⟩ = (some (.ok backups), s)

theorem signs_of_isOk (h : ((exec (answers view sign) (backUpCoins setup view.stored transfer.recipientAddress
    transfer.wallet.network (sortConfirmedFirst (coinList setup view transfer)) view.stored.length.toUInt32).run
      (fun _ => ()) ⟨false, memory⟩).1.any Except.isOk) = true) : Signs setup view transfer sign memory := by
  obtain ⟨result, hresult, hisOk⟩ := (Option.any_eq_true _ _).mp h
  cases result with
  | error failure => cases hisOk
  | ok backups => exact ⟨backups, _, Prod.ext hresult rfl⟩

omit [Mul F] [NatCast F] [LT F] [DecidableLT F] in
theorem exec_bind_pure {α β : Type} {p : Action F α} {a : α} {s s' : Session σ} (g : α → β)
    (h : exec (answers view sign) p.run (fun _ => ()) s = (some (.ok a), s')) :
    exec (answers view sign) (p >>= fun a => pure (g a)).run (fun _ => ()) s = (some (.ok (g a)), s') := by
  rw [ExceptT.run_bind, exec_bind, h]
  rfl

theorem ascending_iff (txs : List BackupTx) : Ascending txs ↔ (txs.map BackupTx.txN).Pairwise (· ≤ ·) :=
  List.pairwise_map.symm

theorem outcome_web {view : ChainView} (hsigns : Accepted setup view.toView transfer →
      Signs setup view.toView transfer sign memory) :
    (¬(Accepted setup view.toView transfer ∧ ¬WebRefuses setup view.toView transfer) ∧
        Refuses (outcome view.toView sign memory (webTransfer setup transfer))) ∨
      (Accepted setup view.toView transfer ∧ ¬WebRefuses setup view.toView transfer) ∧
        ∃ backups s, exec (answers view.toView sign) (backUpCoins setup view.stored transfer.recipientAddress
            transfer.wallet.network (sortConfirmedFirst (coinList setup view.toView transfer))
            view.stored.length.toUInt32).run (fun _ => ()) ⟨false, memory⟩ = (some (.ok backups), s) ∧
          (outcome view.toView sign memory (webTransfer setup transfer)).1 = some (.ok (collect backups)) := by
  have hopens : Opens (answers view.toView sign) ⟨false, memory⟩ () (webTransfer setup transfer)
      (webChecks setup view.toView transfer) (webSigns setup view.toView transfer) := opens_webTransfer transfer
  cases hchecks : webChecks setup view.toView transfer with
  | error failure =>
    refine .inl ⟨?_, ?_⟩
    · rintro ⟨haccepted, hrefuses⟩
      cases hchecks.symm.trans (webChecks_eq_ok.mpr ⟨haccepted, hrefuses, rfl⟩)
    · rw [hchecks] at hopens
      rw [outcome, hopens]
      exact ⟨⟨failure, rfl⟩, rfl⟩
  | ok coins =>
    obtain ⟨haccepted, hrefuses, rfl⟩ := webChecks_eq_ok.mp hchecks
    obtain ⟨backups, s, hbackups⟩ := hsigns haccepted
    refine .inr ⟨⟨haccepted, hrefuses⟩, backups, s, hbackups, ?_⟩
    rw [hchecks] at hopens
    rw [outcome, hopens]
    exact congrArg Prod.fst (exec_bind_pure collect hbackups)

theorem outcome_rust {view : ChainView} (hids : Identified setup.btc view.stored)
    (hsigns : Accepted setup view.toView transfer → Signs setup view.toView transfer sign memory) :
    (¬(Accepted setup view.toView transfer ∧ ¬RustRefuses setup view.toView transfer) ∧
        Refuses (outcome view.toView sign memory (rustTransfer setup transfer))) ∨
      (Accepted setup view.toView transfer ∧ ¬RustRefuses setup view.toView transfer) ∧
        ∃ backups s, exec (answers view.toView sign) (backUpCoins setup view.stored transfer.recipientAddress
            transfer.wallet.network (sortConfirmedFirst (coinList setup view.toView transfer))
            view.stored.length.toUInt32).run (fun _ => ()) ⟨false, memory⟩ = (some (.ok backups), s) ∧
          (outcome view.toView sign memory (rustTransfer setup transfer)).1 =
            some (.ok (sortByTxN (collect backups))) := by
  by_cases hpanics : ∃ backupTx ∈ view.stored, getPreviousOutpoint setup.btc backupTx = .error .panic
  · obtain ⟨backupTx, hmem, hpanic⟩ := hpanics
    exact .inl ⟨fun h => h.2 (.inr ⟨backupTx, hmem, hpanic⟩), refuses_of_panic hmem hpanic⟩
  · have hread : ∀ backupTx ∈ view.stored, getPreviousOutpoint setup.btc backupTx ≠ .error .panic :=
      fun backupTx hmem hpanic => hpanics ⟨backupTx, hmem, hpanic⟩
    cases hchecks : rustChecks setup view.toView transfer with
    | error failure =>
      refine .inl ⟨?_, refuses_of_checks hchecks⟩
      rintro ⟨haccepted, hrefuses⟩
      have hvalid := not_not.mp (not_or.mp hrefuses).1
      cases hchecks.symm.trans ((rustChecks_eq_ok hread hids).mpr ⟨haccepted, hvalid, rfl⟩)
    | ok coins =>
      obtain ⟨haccepted, hvalid, rfl⟩ := (rustChecks_eq_ok hread hids).mp hchecks
      obtain ⟨backups, s, hbackups⟩ := hsigns haccepted
      have hrefuses : ¬RustRefuses setup view.toView transfer := not_or.mpr ⟨not_not.mpr hvalid, hpanics⟩
      refine .inr ⟨⟨haccepted, hrefuses⟩, backups, s, hbackups, ?_⟩
      have hopens : Opens (answers view.toView sign) ⟨false, memory⟩ () (rustTransfer setup transfer)
          (rustChecks setup view.toView transfer) (rustSigns setup view.toView transfer) :=
        opens_rustTransfer transfer
      rw [hchecks] at hopens
      rw [outcome, hopens]
      have hbackups' := hbackups
      rw [← backUpCoins_eq hread hids] at hbackups'
      exact congrArg Prod.fst (exec_bind_pure (fun backups => sortByTxN (collect backups)) hbackups')

omit [Mul F] [NatCast F] [LT F] [DecidableLT F] in
theorem not_refuses {p : Action F (List BackupTx)} {txs : List BackupTx}
    (h : (outcome view sign memory p).1 = some (.ok txs)) : ¬Refuses (outcome view sign memory p) := by
  rintro ⟨⟨failure, hfailure⟩, -⟩
  cases h.symm.trans hfailure

theorem ascending_collect {backups : List CoinBackup} {s : Session σ}
    (h : exec (answers view sign) (backUpCoins setup view.stored transfer.recipientAddress transfer.wallet.network
      (sortConfirmedFirst (coinList setup view transfer)) view.stored.length.toUInt32).run (fun _ => ())
        ⟨false, memory⟩ = (some (.ok backups), s)) :
    Ascending (collect backups) ↔ InOrder setup view transfer := by
  have hyields : Yields KeepsWallet _ (backUpCoins setup view.stored transfer.recipientAddress
      transfer.wallet.network (sortConfirmedFirst (coinList setup view transfer)) view.stored.length.toUInt32) :=
    yields_backUpCoins_numbers _ _ _ _ _
  have hattempts : Attempts (answers view sign) _ (fun _ => True) _ ⟨false, memory⟩ :=
    attempts_of_yields hyields (fun _ _ _ _ _ => trivial) trivial
  have hnumbers := ((exec_of_attempts hattempts (fun _ => ())).1 backups (congrArg Prod.fst h)).2 []
  rw [ascending_iff, collect, hnumbers]
  rfl

/-- The two clients agree on a transfer, before one who signs for both, exactly where what only one of them
refuses meets what only the other one refuses, or where there is neither and the transactions are collected in the
order of their numbers. -/
theorem senders_agree_iff {view : ChainView} (hids : Identified setup.btc view.stored)
    (hsigns : Accepted setup view.toView transfer → Signs setup view.toView transfer sign memory) :
    Agree (outcome view.toView sign memory (rustTransfer setup transfer))
        (outcome view.toView sign memory (webTransfer setup transfer)) ↔
      Alike setup view.toView transfer := by
  obtain ⟨hrust, hrustRefuses⟩ | ⟨hrust, backups, s, hbackups, hrustOk⟩ := outcome_rust hids hsigns
  · obtain ⟨hweb, hwebRefuses⟩ | ⟨hweb, _, _, _, hwebOk⟩ := outcome_web hsigns
    · refine iff_of_true (.inl ⟨hrustRefuses, hwebRefuses⟩) (fun haccepted => ?_)
      have hrefuses := not_not.mp (fun h => hrust ⟨haccepted, h⟩)
      exact ⟨iff_of_true hrefuses (not_not.mp (fun h => hweb ⟨haccepted, h⟩)), fun h => absurd hrefuses h⟩
    · refine iff_of_false ?_ (fun halike => ?_)
      · rintro (⟨-, h⟩ | ⟨txs, h, -⟩)
        · exact not_refuses hwebOk h
        · exact not_refuses h hrustRefuses
      · exact hrust ⟨hweb.1, fun h => hweb.2 ((halike hweb.1).1.mp h)⟩
  · obtain ⟨hweb, hwebRefuses⟩ | ⟨hweb, backups', s', hbackups', hwebOk⟩ := outcome_web hsigns
    · refine iff_of_false ?_ (fun halike => ?_)
      · rintro (⟨h, -⟩ | ⟨txs, -, h, -⟩)
        · exact not_refuses hrustOk h
        · exact not_refuses h hwebRefuses
      · exact hweb ⟨hrust.1, fun h => hrust.2 ((halike hrust.1).1.mpr h)⟩
    · cases hbackups.symm.trans hbackups'
      rw [Alike]
      constructor
      · rintro (⟨h, -⟩ | ⟨txs, hrustTxs, hwebTxs, hascending⟩) _
        · exact absurd h (not_refuses hrustOk)
        · refine ⟨iff_of_false hrust.2 hweb.2, fun _ => (ascending_collect hbackups).mp ?_⟩
          cases hwebOk.symm.trans hwebTxs
          exact hascending
      · intro halike
        have hascending := (ascending_collect hbackups).mpr ((halike hrust.1).2 hrust.2)
        have hsorted : sortByTxN (collect backups) = collect backups := List.Pairwise.insertionSort_eq hascending
        rw [hsorted] at hrustOk
        exact .inr ⟨collect backups, hrustOk, hwebOk, hascending⟩

end Signing

section Renumbering

variable {setup} {stored : List BackupTx} {coin : Coin} {newTxN : UInt32}

theorem toNat_next (hroom : newTxN.toNat + 2 < 2 ^ 32) :
    (newTxN + 1).toNat = newTxN.toNat + 1 ∧ (newTxN + 2).toNat = newTxN.toNat + 2 := by
  have hone : newTxN.toNat + 1 < 2 ^ 32 := by omega
  rw [UInt32.toNat_add, UInt32.toNat_add]
  exact ⟨Nat.mod_eq_of_lt hone, Nat.mod_eq_of_lt hroom⟩

theorem toNat_add_made (setup : Setup E K F) (stored : List BackupTx) (coin : Coin)
    (hroom : newTxN.toNat + 2 < 2 ^ 32) :
    newTxN.toNat < (newTxN + made setup stored coin).toNat ∧
      (newTxN + made setup stored coin).toNat ≤ newTxN.toNat + 2 := by
  obtain ⟨hone, htwo⟩ := toNat_next hroom
  rw [made]
  split_ifs <;> omega

theorem sublist_collectNumbers (coins : List (Coin × ℕ)) (newTxN : UInt32) (numbers : List UInt32) :
    numbers.Sublist (collectNumbers setup stored coins newTxN numbers) := by
  induction coins generalizing newTxN numbers with
  | nil => exact List.Sublist.refl numbers
  | cons first coins ih =>
    refine List.Sublist.trans ?_ (ih _ _)
    split_ifs
    · exact List.sublist_append_right _ _
    · exact List.sublist_append_left _ _

/-- The group of a coin ends with the last number given, and that is its greatest. -/
theorem groupNumbers_spec (hroom : newTxN.toNat + 2 < 2 ^ 32)
    (hstored : ∀ k ∈ storedNumbers setup stored coin, k ≤ newTxN) :
    newTxN + made setup stored coin ∈ groupNumbers setup stored coin newTxN ∧
      (∀ k ∈ groupNumbers setup stored coin newTxN, k ≤ newTxN + made setup stored coin) ∧
      (groupNumbers setup stored coin newTxN).Pairwise (· ≤ ·) := by
  have hsorted : (storedNumbers setup stored coin).Pairwise (· ≤ ·) :=
    List.pairwise_map.mpr (List.pairwise_insertionSort _ _)
  have hone : newTxN ≤ newTxN + 1 ∧ newTxN + 1 ≤ newTxN + 2 := by
    obtain ⟨hone, htwo⟩ := toNat_next hroom
    rw [UInt32.le_iff_toNat_le, UInt32.le_iff_toNat_le]
    omega
  rw [made, groupNumbers]
  split_ifs with hempty
  · simp [hone.2]
  · refine ⟨by simp, ?_, ?_⟩
    · intro k hk
      obtain hk | hk := List.mem_append.mp hk
      · exact UInt32.le_trans (hstored k hk) hone.1
      · exact UInt32.le_of_eq (List.mem_singleton.mp hk)
    · refine List.pairwise_append.mpr ⟨hsorted, List.pairwise_singleton _ _, fun k hk l hl => ?_⟩
      cases List.mem_singleton.mp hl
      exact UInt32.le_trans (hstored k hk) hone.1

theorem le_of_mem_groupNumbers (hroom : newTxN.toNat + 2 < 2 ^ 32) (hempty : storedNumbers setup stored coin = [])
    {k : UInt32} (h : k ∈ groupNumbers setup stored coin newTxN) : newTxN ≤ k := by
  obtain ⟨hone, htwo⟩ := toNat_next hroom
  rw [groupNumbers, if_pos hempty] at h
  rw [UInt32.le_iff_toNat_le]
  obtain rfl | h := List.mem_cons.mp h
  · omega
  · cases List.mem_singleton.mp h
    omega

theorem collectNumbers_pairwise (coins : List (Coin × ℕ)) {numbers : List UInt32} (hlast : newTxN ∈ numbers)
    (hle : ∀ k ∈ numbers, k ≤ newTxN) (hpairwise : numbers.Pairwise (· ≤ ·))
    (hroom : newTxN.toNat + 2 * coins.length < 2 ^ 32)
    (hstored : ∀ coin ∈ coins, ∀ k ∈ storedNumbers setup stored coin.1, k < newTxN) :
    (collectNumbers setup stored coins newTxN numbers).Pairwise (· ≤ ·) ↔
      ∀ coin ∈ coins, coin.1.duplicateIndex ≠ 0 ∧ storedNumbers setup stored coin.1 = [] := by
  induction coins generalizing newTxN numbers with
  | nil => exact iff_of_true hpairwise (fun coin hcoin => by cases hcoin)
  | cons first coins ih =>
    obtain ⟨coin, place⟩ := first
    rw [List.length_cons] at hroom
    have hnext : newTxN.toNat + 2 < 2 ^ 32 := by omega
    have hbelow : ∀ k ∈ storedNumbers setup stored coin, k ≤ newTxN :=
      fun k hk => UInt32.le_of_lt (hstored _ List.mem_cons_self k hk)
    have hmade := toNat_add_made setup stored coin hnext
    obtain ⟨hmem, hgreatest, hsorted⟩ := groupNumbers_spec hnext hbelow
    rw [List.forall_mem_cons, collectNumbers]
    by_cases hmain : coin.duplicateIndex = 0
    · refine iff_of_false (fun h => ?_) (fun h => h.1.1 hmain)
      rw [if_pos hmain] at h
      have hpair := h.sublist (sublist_collectNumbers _ _ _)
      have hbefore := (List.pairwise_append.mp hpair).2.2 _ hmem _ hlast
      rw [UInt32.le_iff_toNat_le] at hbefore
      omega
    · rw [if_neg hmain]
      by_cases hempty : storedNumbers setup stored coin = []
      · have hnumbers : ∀ k ∈ numbers, ∀ l ∈ groupNumbers setup stored coin newTxN, k ≤ l :=
          fun k hk l hl => UInt32.le_trans (hle k hk) (le_of_mem_groupNumbers hnext hempty hl)
        rw [ih (List.mem_append_right _ hmem) ?_ ?_ ?_ ?_]
        · exact ⟨fun h => ⟨⟨hmain, hempty⟩, h⟩, fun h => h.2⟩
        · intro k hk
          obtain hk | hk := List.mem_append.mp hk
          · exact hnumbers k hk _ hmem
          · exact hgreatest k hk
        · exact List.pairwise_append.mpr ⟨hpairwise, hsorted, hnumbers⟩
        · omega
        · intro coin' hcoin' k hk
          have hlt := hstored coin' (List.mem_cons_of_mem _ hcoin') k hk
          rw [UInt32.lt_iff_toNat_lt] at hlt ⊢
          omega
      · refine iff_of_false (fun h => ?_) (fun h => hempty h.1.2)
        have hpair := h.sublist (sublist_collectNumbers _ _ _)
        obtain ⟨k, hk⟩ := List.exists_mem_of_ne_nil _ hempty
        have hkept : k ∈ groupNumbers setup stored coin newTxN := by
          rw [groupNumbers, if_neg hempty]
          exact List.mem_append_left _ hk
        have hbefore := (List.pairwise_append.mp hpair).2.2 _ hlast _ hkept
        have hlt := hstored _ List.mem_cons_self k hk
        rw [UInt32.le_iff_toNat_le] at hbefore
        rw [UInt32.lt_iff_toNat_lt] at hlt
        omega

/-- As long as the numbers are given one after another, the transactions are in order exactly if the main coin
comes first and no other coin has been sent before. -/
theorem inOrder_iff {view : View} {transfer : Transfer}
    (hstored : ∀ backupTx ∈ view.stored, backupTx.txN.toNat ≤ view.stored.length)
    (hroom : view.stored.length + 2 * (coinList setup view transfer).length < 2 ^ 32) :
    InOrder setup view transfer ↔
      ∀ coin ∈ (sortConfirmedFirst (coinList setup view transfer)).tail,
        coin.1.duplicateIndex ≠ 0 ∧ storedNumbers setup view.stored coin.1 = [] := by
  have hlength : view.stored.length.toUInt32.toNat = view.stored.length := by
    rw [Nat.toUInt32, UInt32.toNat_ofNat']
    exact Nat.mod_eq_of_lt (by omega)
  have hbelow : ∀ coin, ∀ k ∈ storedNumbers setup view.stored coin, k ≤ view.stored.length.toUInt32 := by
    intro coin k hk
    obtain ⟨backupTx, hmem, rfl⟩ := List.mem_map.mp hk
    rw [UInt32.le_iff_toNat_le, hlength]
    exact hstored backupTx (List.mem_filter.mp ((sortByTxN_perm _).mem_iff.mp hmem)).1
  rw [← (sortConfirmedFirst_perm (coinList setup view transfer)).length_eq] at hroom
  rw [InOrder]
  cases hcoins : sortConfirmedFirst (coinList setup view transfer) with
  | nil => exact iff_of_true List.Pairwise.nil (fun coin hcoin => by cases hcoin)
  | cons first coins =>
    obtain ⟨coin, place⟩ := first
    rw [hcoins, List.length_cons] at hroom
    have hnext : view.stored.length.toUInt32.toNat + 2 < 2 ^ 32 := by omega
    have hmade := toNat_add_made setup view.stored coin hnext
    obtain ⟨hmem, hgreatest, hsorted⟩ := groupNumbers_spec hnext (hbelow coin)
    rw [collectNumbers, List.append_nil, List.nil_append, ite_self, List.tail_cons]
    refine collectNumbers_pairwise coins hmem hgreatest hsorted (by omega) (fun coin' _ k hk => ?_)
    have hle := hbelow coin'.1 k hk
    rw [UInt32.le_iff_toNat_le] at hle
    rw [UInt32.lt_iff_toNat_lt]
    omega

end Renumbering

section Seven

open Client.BackupChoice (pairAnswers pairDuplicate pairMain pairSent pairSetup scriptBtc)
open Client.Duplicates (sentWithIt signing twoDeposits)
open Client.LocktimeGuard

/-- The second deposit is listed in the block before the last one. -/
def sevenView (stored : List BackupTx) : ChainView where
  stored := stored
  unspents _ := [⟨"h", 0, 999, 1000⟩]
  height := 1000
  height_lt := by decide
  below _ := by decide
  position _ := by decide

def sevenSign (c : Call ℕ) (memory : Unit) : Reply c × Unit := (signing [] c, memory)

/-- The transfer is forced, to an address of the network. -/
def sevenTransfer (wallet : Wallet) (duplicatedIndexes : Option (List UInt32)) : Transfer :=
  ⟨wallet, "statechain", "tml", duplicatedIndexes, true⟩

def numbers {σ : Type} (r : Outcome σ) : Option (List UInt32) :=
  r.1.bind (fun r => r.toOption.map (fun txs => txs.map BackupTx.txN))

/-- A deposit that has been sent once is sent again, with one that has not. -/
def pairTransfer : Transfer := sevenTransfer ⟨"wallet", "regtest", [], [pairMain, pairDuplicate]⟩ (some [1])

theorem pairSent_outpoint : getPreviousOutpoint scriptBtc pairSent = .ok ⟨"f", 0⟩ := by
  rw [getPreviousOutpoint, pairSent, scriptBtc, wireBtc_codec]
  rfl

theorem inOrder_pair :
    InOrder pairSetup (sevenView [pairSent]).toView pairTransfer ∧
      (coinList pairSetup (sevenView [pairSent]).toView pairTransfer).length = 2 := by
  refine ⟨(inOrder_iff ?_ ?_).mpr ?_, by decide +kernel⟩
  · intro backupTx hmem
    rw [List.mem_singleton.mp hmem]
    decide
  · decide +kernel
  · decide +kernel

def pairSign (c : Call ℕ) (memory : Unit) : Reply c × Unit := (pairAnswers c, memory)

/-- The stored transaction, the next one, and the two of the second deposit. -/
theorem senders_agree_pair :
    Agree (outcome (sevenView [pairSent]).toView pairSign () (rustTransfer pairSetup pairTransfer))
      (outcome (sevenView [pairSent]).toView pairSign () (webTransfer pairSetup pairTransfer)) ∧
    numbers (outcome (sevenView [pairSent]).toView pairSign () (webTransfer pairSetup pairTransfer)) =
      some [1, 2, 3, 4] := by
  have hsigns : Signs pairSetup (sevenView [pairSent]).toView pairTransfer pairSign () :=
    signs_of_isOk (by decide +kernel)
  refine ⟨(senders_agree_iff ?_ (fun _ => hsigns)).mpr (fun _ => ⟨iff_of_false ?_ ?_, fun _ => ?_⟩), ?_⟩
  · intro backupTx hmem outpoint houtpoint
    cases List.mem_singleton.mp hmem
    cases pairSent_outpoint.symm.trans houtpoint
    decide
  · rintro (hinvalid | ⟨backupTx, hmem, hpanic⟩)
    · exact hinvalid (by decide +kernel)
    · cases List.mem_singleton.mp hmem
      cases pairSent_outpoint.symm.trans hpanic
  · have hkept : ∀ coin ∈ pairTransfer.wallet.coins, coin.status ≠ .withdrawn := by decide +kernel
    have hlocked : ∀ coin ∈ coinList pairSetup (sevenView [pairSent]).toView pairTransfer,
        coin.1.locktime ≠ some 0 := by decide +kernel
    rintro (⟨coin, hmem, -, hwithdrawn, -⟩ | ⟨coin, hmem, hlocktime⟩)
    · exact hkept coin hmem hwithdrawn
    · exact hlocked coin hmem hlocktime
  · rw [InOrder]
    decide +kernel
  · decide +kernel

/-- Both deposits have been sent once and are sent again. The web client keeps the transactions coin by coin: `1, 3`
for the first deposit, then `2, 4`. -/
theorem senders_disagree_seven :
    ¬Agree (outcome (sevenView [sentOnce, sentWithIt]).toView sevenSign ()
        (rustTransfer sevenSetup (sevenTransfer twoDeposits (some [1]))))
      (outcome (sevenView [sentOnce, sentWithIt]).toView sevenSign ()
        (webTransfer sevenSetup (sevenTransfer twoDeposits (some [1])))) := by
  have hrust : numbers (outcome (sevenView [sentOnce, sentWithIt]).toView sevenSign ()
      (rustTransfer sevenSetup (sevenTransfer twoDeposits (some [1])))) = some [1, 2, 3, 4] := by decide +kernel
  have hweb : numbers (outcome (sevenView [sentOnce, sentWithIt]).toView sevenSign ()
      (webTransfer sevenSetup (sevenTransfer twoDeposits (some [1])))) = some [1, 3, 2, 4] := by decide +kernel
  rintro (⟨⟨⟨failure, hfailure⟩, -⟩, -⟩ | ⟨txs, hrustTxs, hwebTxs, -⟩)
  · rw [numbers, hfailure] at hrust
    cases hrust
  · rw [numbers, hrustTxs] at hrust
    rw [numbers, hwebTxs] at hweb
    cases hrust.symm.trans hweb

end Seven

end MercuryLayer.Web.SendersAgree
