import MercuryLayer.Client.CoinStatus
import MercuryLayer.Client.Receive
import MercuryLayer.Library.Matching
import MercuryLayer.Library.Reliance

namespace MercuryLayer.Client.CoinSteps

open Client.Operations
open Client.TransferReceiver (Unspent InfoConfig)
open Client.Transaction hiding Call Reply
open Error Library.Matching Library.Programs Library.Reliance Library.Validation Receiver WalletData

section Steps

/-- The changes of a coin's status. -/
def mayBecome : CoinStatus → CoinStatus → Bool
  | .initialised, .inMempool | .initialised, .unconfirmed | .initialised, .confirmed => true
  | .inMempool, .unconfirmed | .inMempool, .confirmed => true
  | .unconfirmed, .confirmed => true
  | .confirmed, .inTransfer | .confirmed, .withdrawing => true
  | .inTransfer, .transferred | .inTransfer, .withdrawing => true
  | .duplicated, .inTransfer | .duplicated, .withdrawing | .duplicated, .invalidated => true
  | .withdrawing, .withdrawn => true
  | _, _ => false

/-- What a coin keeps all its life. -/
def identityOf (coin : Coin) : UInt32 × String × String × String × String × String × String × String × String ×
    UInt32 :=
  (coin.index, coin.userPrivkey, coin.userPubkey, coin.authPrivkey, coin.authPubkey, coin.derivationPath,
    coin.fingerprint, coin.address, coin.backupAddress, coin.duplicateIndex)

/-- What a coin keeps once it has been funded. -/
def fundingOf (coin : Coin) : Option String × Option String × Option UInt32 :=
  (coin.statechainId, coin.utxoTxid, coin.utxoVout)

/-- One coin at two saves of the wallet that follow each other. -/
structure Steps (old new : Coin) : Prop where
  identity : identityOf new = identityOf old
  funding : old.status ≠ .initialised → fundingOf new = fundingOf old
  status : new.status = old.status ∨ mayBecome old.status new.status = true

theorem steps_refl (coin : Coin) : Steps coin coin := ⟨rfl, fun _ => rfl, .inl rfl⟩

theorem steps_of_same {old new : Coin} (hid : identityOf new = identityOf old) (hfund : fundingOf new = fundingOf old)
    (h : mayBecome old.status new.status = true) : Steps old new :=
  ⟨hid, fun _ => hfund, .inr h⟩

end Steps

section Sending

variable {E K F : Type} {setup : Setup E K F} [Mul F] [NatCast F] [LT F] [DecidableLT F]

/-- The coin is the same, but for its lock time and its nonces. -/
structure SameCoin (old new : Coin) : Prop where
  identity : identityOf new = identityOf old
  funding : fundingOf new = fundingOf old
  status : new.status = old.status

/-- The coin without what is changed by signing for it. -/
def unsigned (coin : Coin) : Coin :=
  { coin with
    secretNonce := none, publicNonce := none, blindingFactor := none, serverPublicNonce := none, locktime := none }

theorem sameCoin_of_unsigned {old new : Coin} (h : unsigned new = unsigned old) : SameCoin old new := by
  have hidentity := congrArg identityOf h
  have hfunding := congrArg fundingOf h
  have hstatus := congrArg Coin.status h
  exact ⟨hidentity, hfunding, hstatus⟩

omit [LT F] [DecidableLT F] in
theorem yields_newTransaction_unsigned (coin : Coin) (toAddress : String) (qtBackupTx : UInt32)
    (withdrawal : Option (ℕ × ℕ)) (blockHeight : Option UInt32) (network : String) (feeRateSatsPerByte : F)
    (initlock interval : UInt32) :
    Yields KeepsWallet (fun r => unsigned r.1 = unsigned coin)
      (newTransaction setup coin toAddress qtBackupTx withdrawal blockHeight network feeRateSatsPerByte initlock
        interval) := by
  refine yields_mono (fun _ h => h) (fun r hr => ?_) (yields_newTransaction _ _ _ _ _ _ _ _ _)
  obtain ⟨coinNonce, serverPublicNonce, hcoin⟩ := hr
  rw [hcoin]
  rfl

theorem yields_createTx1 (coin : Coin) (network : String) (txN : UInt32) :
    Yields KeepsWallet (fun r => unsigned r.1 = unsigned coin ∧ r.2.txN = txN) (createTx1 setup coin network txN) := by
  refine yields_lift_bind (fun toAddress _ => ?_)
  refine yields_bind yields_infoConfig (fun serverInfo _ => ?_)
  refine yields_bind (yields_newTransaction_unsigned _ _ _ _ _ _ _ _ _) (fun r hr => ?_)
  refine yields_lift_bind (fun _ _ => ?_)
  refine yields_lift_bind (fun _ _ => ?_)
  refine yields_lift_bind (fun _ _ => ?_)
  refine yields_lift_bind (fun backupTx hbackupTx => ?_)
  refine yields_lift_bind (fun blockHeight _ => ?_)
  exact yields_pure ⟨hr, (backupTxOf_eq_ok hbackupTx).2.1⟩

open Client.TransferSender

theorem yields_createBackupTxToReceiver (coin : Coin) (bkpTx1 : BackupTx) (recipientAddress : String)
    (qtBackupTx : UInt32) (network : String) :
    Yields KeepsWallet (fun r => unsigned r.1 = unsigned coin)
      (createBackupTxToReceiver setup coin bkpTx1 recipientAddress qtBackupTx network) := by
  refine yields_lift_bind (fun blockHeight _ => ?_)
  exact yields_bind yields_infoConfig (fun serverInfo _ => yields_newTransaction_unsigned _ _ _ _ _ _ _ _ _)

theorem yields_backUpCoin (backupTransactions : List BackupTx) (recipientAddress network : String) (coin : Coin)
    (place : ℕ) (newTxN : UInt32) :
    Yields KeepsWallet
      (fun r => r.1.place = place ∧ unsigned r.1.coin = { unsigned coin with status := .inTransfer })
      (backUpCoin setup backupTransactions recipientAddress network coin place newTxN) := by
  refine yields_lift_bind (fun stored _ => ?_)
  have hfirst : Yields KeepsWallet (fun r => unsigned r.1 = unsigned coin)
      (firstBackupTx setup stored coin network newTxN) := by
    unfold firstBackupTx
    split_ifs
    · exact yields_bind (yields_createTx1 _ _ _) (fun r hr => yields_pure hr.1)
    · exact yields_pure rfl
  refine yields_bind hfirst (fun first hfirst => ?_)
  refine yields_lift_bind (fun bkpTx1 _ => ?_)
  refine yields_bind (yields_createBackupTxToReceiver _ _ _ _ _) (fun second hsecond => ?_)
  refine yields_lift_bind (fun backupTx _ => ?_)
  exact yields_pure ⟨rfl, congrArg (fun coin => { coin with status := .inTransfer }) (hsecond.trans hfirst)⟩

/-- A coin that is sent on. -/
structure SentOn (old new : Coin) : Prop where
  transferable : isTransferable old.status = true
  same : unsigned new = { unsigned old with status := .inTransfer }

theorem SentOn.steps {old new : Coin} (h : SentOn old new) : Steps old new := by
  obtain ⟨htransferable, hsame⟩ := h
  have hidentity := congrArg identityOf hsame
  have hfunding := congrArg fundingOf hsame
  have hstatus : (unsigned new).status = .inTransfer := congrArg Coin.status hsame
  refine ⟨hidentity, fun _ => hfunding, ?_⟩
  change new.status = .inTransfer at hstatus
  rw [hstatus]
  revert htransferable
  cases old.status <;> first | exact fun _ => .inl rfl | exact fun _ => .inr rfl | exact fun h => nomatch h

theorem yields_backUpCoins (backupTransactions : List BackupTx) (recipientAddress network : String)
    (coins : List (Coin × ℕ)) (newTxN : UInt32)
    (hcoins : ∀ coin ∈ coins, isTransferable coin.1.status = true) :
    Yields KeepsWallet (fun backups => ∀ backup ∈ backups, ∃ coin, (coin, backup.place) ∈ coins ∧ SentOn coin backup.coin)
      (backUpCoins setup backupTransactions recipientAddress network coins newTxN) := by
  induction coins generalizing newTxN with
  | nil => exact yields_pure (fun _ h => nomatch h)
  | cons coin coins ih =>
    obtain ⟨hcoin, hcoins⟩ := List.forall_mem_cons.mp hcoins
    refine yields_bind (yields_backUpCoin _ _ _ _ _ _) (fun r hr => ?_)
    obtain ⟨hplace, hsame⟩ := hr
    refine yields_bind (ih r.2 hcoins) (fun backups hbackups => yields_pure ?_)
    refine List.forall_mem_cons.mpr ⟨⟨coin.1, ?_, hcoin, hsame⟩, fun backup hbackup => ?_⟩
    · rw [hplace]
      exact List.mem_cons_self
    · obtain ⟨coin', hcoin', hsent⟩ := hbackups backup hbackup
      exact ⟨coin', List.mem_cons_of_mem coin hcoin', hsent⟩

theorem forall₂_storeCoins {R : Coin → Coin → Prop} {coins stored : List Coin} {backups : List CoinBackup}
    (h : List.Forall₂ R coins stored)
    (hbackups : ∀ backup ∈ backups, ∃ coin, coins[backup.place]? = some coin ∧ R coin backup.coin) :
    List.Forall₂ R coins (storeCoins stored backups) := by
  induction backups generalizing stored with
  | nil => exact h
  | cons backup backups ih =>
    obtain ⟨⟨coin, hcoin, hbackup⟩, hbackups⟩ := List.forall_mem_cons.mp hbackups
    exact ih (forall₂_set h hcoin hbackup) hbackups

theorem isTransferable_of_sent {btc : Crates.Bitcoin} {backupTransactions : List BackupTx} {statechainId : String}
    {duplicatedIndexes : Option (List UInt32)} {coin : Coin}
    (h : Sent btc backupTransactions statechainId duplicatedIndexes coin) : isTransferable coin.status = true := by
  obtain hmatching | hadd := h
  · obtain ⟨backupTx, -, hbackupTx⟩ := exists_of_anyM_eq_true hmatching
    obtain ⟨spends, -, hboth⟩ := bind_eq_ok.mp hbackupTx
    exact (Bool.and_eq_true_iff.mp (pure_eq_ok.mp hboth)).2
  · cases duplicatedIndexes with
    | none => cases hadd
    | some indexes =>
      obtain ⟨-, hstatus⟩ := Bool.and_eq_true_iff.mp hadd
      revert hstatus
      cases coin.status <;> first | exact fun _ => rfl | exact fun h => nomatch h

omit [Mul F] [NatCast F] [LT F] [DecidableLT F] in
theorem keepsWallet_of_views (c : Transaction.Call F) (h : Views c) : KeepsWallet c := by
  cases c <;> trivial

omit [Mul F] [NatCast F] [LT F] [DecidableLT F] in
theorem keepsWallet_of_consults (c : Transaction.Call F) (h : Consults c) : KeepsWallet c :=
  keepsWallet_of_views c (views_of_consults c h)

theorem yields_createCoinBackups (recipientAddress : String) (wallet : Wallet) (statechainId : String)
    (duplicatedIndexes : Option (List UInt32)) :
    Yields KeepsWallet
      (fun backups => ∀ backup ∈ backups, ∃ coin, wallet.coins[backup.place]? = some coin ∧ SentOn coin backup.coin)
      (createCoinBackups setup recipientAddress wallet statechainId duplicatedIndexes) := by
  refine yields_bind (yields_mono keepsWallet_of_views (fun _ h => h) (yields_checkCoins setup _ _ _))
    (fun selected hselected => ?_)
  obtain ⟨stored, hselected⟩ := hselected
  refine yields_bind (yields_getBackupTxs _ _) (fun backupTransactions _ => ?_)
  have hmem : ∀ coin ∈ sortConfirmedFirst selected, coin ∈ selected := by
    intro coin hcoin
    exact (sortConfirmedFirst_perm selected).mem_iff.mp hcoin
  refine yields_mono (fun _ h => h) (fun backups hbackups backup hbackup => ?_)
    (yields_backUpCoins _ _ _ _ _ (fun coin hcoin => ?_))
  · obtain ⟨coin, hcoin, hsent⟩ := hbackups backup hbackup
    exact ⟨coin, List.mem_zipIdx_iff_getElem?.mp ((hselected _).mp (hmem _ hcoin)).1, hsent⟩
  · exact isTransferable_of_sent ((hselected coin).mp (hmem coin hcoin)).2

theorem yields_createBackupTransactions (recipientAddress : String) (wallet : Wallet) (statechainId : String)
    (duplicatedIndexes : Option (List UInt32)) :
    Yields KeepsWallet
      (fun r => r.1.name = wallet.name ∧
        List.Forall₂ (fun old new => new = old ∨ SentOn old new) wallet.coins r.1.coins)
      (createBackupTransactions setup recipientAddress wallet statechainId duplicatedIndexes) := by
  refine yields_bind (yields_createCoinBackups recipientAddress wallet statechainId duplicatedIndexes)
    (fun backups hbackups => yields_pure ⟨rfl, ?_⟩)
  refine forall₂_storeCoins (List.forall₂_same.mpr fun _ _ => .inl rfl) (fun backup hbackup => ?_)
  obtain ⟨coin, hcoin, hsent⟩ := hbackups backup hbackup
  exact ⟨coin, hcoin, .inr hsent⟩

end Sending

section Updating

open Client.CoinStatus

variable {E K F : Type} {kit : Kit E K F}

theorem asks_blockHeadersSubscribeRaw :
    Yields Asks (fun _ => True) (send blockHeadersSubscribeRaw : Operation F UInt64) := by
  refine yields_send (TransferSender.yields_blockHeadersSubscribeRaw) (fun c hc => ?_)
  cases c <;> trivial

theorem yields_blockHeadersSubscribeRaw :
    Yields Quiet (fun _ => True) (send blockHeadersSubscribeRaw : Operation F UInt64) :=
  yields_mono quiet_of_asks (fun _ h => h) asks_blockHeadersSubscribeRaw

theorem mem_of_findDeposit {coin : Coin} {unspents : List Unspent} {utxo : Unspent}
    (h : findDeposit coin unspents = .ok (some utxo)) :
    utxo ∈ unspents ∧ coin.amount = some utxo.value.toUInt32 := by
  cases unspents with
  | nil => cases h
  | cons unspent unspents =>
    simp only [findDeposit, bind_eq_ok, unwrap_eq_ok, pure_eq_ok] at h
    obtain ⟨amount, hamount, hfind⟩ := h
    refine ⟨List.mem_of_find?_eq_some hfind, ?_⟩
    have hvalue : utxo.value = amount.toUInt64 := by
      simpa only [beq_iff_eq] using List.find?_some hfind
    rw [hamount, hvalue, UInt32.toUInt32_toUInt64]

/-- What the first loop of `update_coins` does to a coin. A further deposit is left to the last. -/
structure Updated (old new : Coin) : Prop where
  steps : Steps old new
  duplicated : new.status = .duplicated → new = old

theorem updated_refl (coin : Coin) : Updated coin coin := ⟨steps_refl coin, fun _ => rfl⟩

/-- A coin before its deposit has been confirmed. -/
def isWaiting (status : CoinStatus) : Prop := status = .initialised ∨ status = .inMempool ∨ status = .unconfirmed

instance (status : CoinStatus) : Decidable (isWaiting status) :=
  inferInstanceAs (Decidable (_ ∨ _ ∨ _))

theorem status_of_waiting {old new : WalletData.CoinStatus} (hold : isWaiting old)
    (hnew : new = .confirmed ∨ new = .unconfirmed ∨ new = old) :
    (new = old ∨ mayBecome old new = true) ∧ new ≠ .duplicated := by
  obtain rfl | rfl | rfl := hold <;> obtain rfl | rfl | rfl := hnew <;> decide

theorem statusAt_cases (status : WalletData.CoinStatus) (blockheight : UInt64) (utxo : Unspent) :
    statusAt kit status blockheight utxo = .confirmed ∨ statusAt kit status blockheight utxo = .unconfirmed ∨
      statusAt kit status blockheight utxo = status := by
  unfold statusAt
  split_ifs
  · exact .inl rfl
  · exact .inr (.inl rfl)
  · exact .inr (.inr rfl)

theorem asks_checkWithdrawal (coin : Coin) :
    Yields Asks (fun new => new = coin ∨ new = { coin with status := .withdrawn }) (checkWithdrawal kit coin) := by
  refine yields_lift_bind (fun txid _ => ?_)
  refine yields_lift_bind (fun withdrawalAddress _ => ?_)
  refine yields_lift_bind (fun script _ => ?_)
  refine yields_bind (asks_scriptListUnspent script) (fun utxoList _ => ?_)
  cases utxoList.find? (fun unspent => unspent.txHash == txid) with
  | none => exact yields_pure (.inl rfl)
  | some utxo =>
    dsimp only
    split_ifs
    · refine yields_bind asks_blockHeadersSubscribeRaw (fun blockheight _ => yields_pure ?_)
      split_ifs
      · exact .inr rfl
      · exact .inl rfl
    · exact yields_pure (.inl rfl)

theorem yields_checkWithdrawal (coin : Coin) :
    Yields Quiet (fun new => new = coin ∨ new = { coin with status := .withdrawn }) (checkWithdrawal kit coin) :=
  yields_mono quiet_of_asks (fun _ h => h) (asks_checkWithdrawal coin)

theorem asks_checkTransfer [DecidableEq E] (coin : Coin) :
    Yields Asks (fun _ => True) (checkTransfer kit coin) := by
  refine yields_lift_bind (fun statechainId _ => ?_)
  refine yields_bind (asks_getStatechainInfo statechainId) (fun info _ => ?_)
  cases info with
  | none => exact yields_pure trivial
  | some info => exact yields_lift_bind (fun _ _ => yields_pure trivial)

theorem yields_checkTransfer [DecidableEq E] (coin : Coin) :
    Yields Quiet (fun _ => True) (checkTransfer kit coin) :=
  yields_mono quiet_of_asks (fun _ h => h) (asks_checkTransfer coin)

theorem status_of_duplicatesOf {existingCoins : List Coin} {coin duplicate : Coin} {unspents : List Unspent}
    {maxDuplicatedIndex : UInt32} (h : duplicate ∈ duplicatesOf existingCoins coin unspents maxDuplicatedIndex) :
    duplicate.status = .duplicated := by
  induction unspents generalizing maxDuplicatedIndex with
  | nil => cases h
  | cons unspent unspents ih =>
    rw [duplicatesOf] at h
    split_ifs at h
    · exact ih h
    · obtain rfl | h := List.mem_cons.mp h
      · rfl
      · exact ih h

theorem asks_duplicatesFor (existingCoins coins : List Coin) :
    Yields Asks (fun duplicated => ∀ coin ∈ duplicated, coin.status = .duplicated)
      (duplicatesFor kit existingCoins coins) := by
  induction coins with
  | nil => exact yields_pure (fun _ h => absurd h List.not_mem_nil)
  | cons coin coins ih =>
    unfold duplicatesFor
    split_ifs
    · refine yields_lift_bind (fun aggregatedAddress _ => ?_)
      refine yields_lift_bind (fun script _ => ?_)
      refine yields_bind (asks_scriptListUnspent script) (fun utxoList _ => ?_)
      refine yields_lift_bind (fun maxDuplicatedIndex _ => ?_)
      refine yields_bind ih (fun duplicated hduplicated => yields_pure (fun coin hcoin => ?_))
      obtain hcoin | hcoin := List.mem_append.mp hcoin
      · exact status_of_duplicatesOf hcoin
      · exact hduplicated coin hcoin
    · exact ih

theorem yields_duplicatesFor (existingCoins coins : List Coin) :
    Yields Quiet (fun _ => True) (duplicatesFor kit existingCoins coins) :=
  yields_mono quiet_of_asks (fun _ _ => trivial) (asks_duplicatesFor existingCoins coins)

theorem continues_invalidateDuplicated {coins updated duplicated : List Coin}
    (h : List.Forall₂ Updated coins updated) :
    Continues Steps coins (invalidateDuplicated (updated ++ duplicated)) := by
  rw [invalidateDuplicated, List.map_append]
  refine (continues_of_forall₂ (List.forall₂_map_right_iff.mpr (h.imp fun old new hnew => ?_))).append_right _
  split_ifs with hinvalid
  · rw [← hnew.duplicated hinvalid.1]
    exact steps_of_same rfl rfl (by rw [hinvalid.1]; rfl)
  · exact hnew.steps

section Deposits

variable [Mul F] [NatCast F] [LT F] [DecidableLT F]

theorem yields_recordDeposit (coin : Coin) (network : String) (utxo : Unspent) :
    Yields Quiet
      (fun r => (coin.status = .initialised ∧ identityOf r.1 = identityOf coin ∧ r.1.status = .inMempool) ∨
        r.1 = coin)
      (recordDeposit kit coin network utxo) := by
  unfold recordDeposit
  split_ifs with hnew
  · refine yields_bind (yields_send_quiet (yields_createTx1 _ _ _)) (fun r hr => ?_)
    refine yields_bind (yields_createActivity _ _ _) (fun activity _ => ?_)
    exact yields_pure (.inl ⟨hnew, (sameCoin_of_unsigned hr.1).identity, (sameCoin_of_unsigned hr.1).status⟩)
  · exact yields_pure (.inr rfl)

theorem yields_checkDeposit (coin : Coin) (network : String) (hcoin : isWaiting coin.status) :
    Yields Quiet (fun r => Updated coin r.1) (checkDeposit kit coin network) := by
  unfold checkDeposit
  split_ifs
  · exact yields_lift_bind (fun _ _ => yields_pure (updated_refl coin))
  · refine yields_lift_bind (fun aggregatedAddress _ => ?_)
    refine yields_lift_bind (fun script _ => ?_)
    refine yields_bind (yields_scriptListUnspent script) (fun utxoList _ => ?_)
    refine yields_lift_bind (fun utxo _ => ?_)
    cases utxo with
    | none => exact yields_pure (updated_refl coin)
    | some utxo =>
      dsimp only
      split_ifs with hmempool
      · exact yields_pure (updated_refl coin)
      · refine yields_bind yields_blockHeadersSubscribeRaw (fun blockheight _ => ?_)
        refine yields_bind (yields_recordDeposit coin network utxo) (fun r hr => yields_pure ?_)
        have hcases : statusAt kit r.1.status blockheight utxo = _ ∨ _ := statusAt_cases r.1.status blockheight utxo
        generalize statusAt kit r.1.status blockheight utxo = status at hcases ⊢
        obtain ⟨hnew, hid, hstatus⟩ | hsame := hr
        · rw [hstatus] at hcases
          refine ⟨⟨hid, fun h => absurd hnew h, .inr ?_⟩, fun h => ?_⟩
          · rw [hnew]
            obtain rfl | rfl | rfl := hcases <;> rfl
          · obtain rfl | rfl | rfl := hcases <;> cases h
        · rw [hsame] at hcases ⊢
          have hstatus := status_of_waiting hcoin hcases
          exact ⟨⟨rfl, fun _ => rfl, hstatus.1⟩, fun h => absurd h hstatus.2⟩

end Deposits

variable [DecidableEq E] [Mul F] [NatCast F] [LT F] [DecidableLT F]

theorem yields_updateCoin (walletName network : String) (coin : Coin) :
    Yields Quiet (fun r => Updated coin r.1) (updateCoin kit walletName network coin) := by
  have hdeposit : isWaiting coin.status → Yields Quiet (fun r => Updated coin r.1) (updateDeposit kit walletName network coin) := by
    intro hwaiting
    refine yields_bind (yields_checkDeposit coin network hwaiting) (fun r hr => ?_)
    obtain ⟨new, depositResult⟩ := r
    cases depositResult with
    | none => exact yields_pure hr
    | some depositResult =>
      refine yields_lift_bind (fun statechainId _ => ?_)
      exact yields_bind (yields_insertBackupTxs _ _ _) (fun _ _ => yields_pure hr)
  unfold updateCoin
  cases hstatus : coin.status with
  | initialised => exact hdeposit (.inl hstatus)
  | inMempool => exact hdeposit (.inr (.inl hstatus))
  | unconfirmed => exact hdeposit (.inr (.inr hstatus))
  | inTransfer =>
    refine yields_bind (yields_checkTransfer coin) (fun isTransferred _ => yields_pure ?_)
    cases isTransferred with
    | true => exact ⟨steps_of_same rfl rfl (by rw [hstatus]; rfl), fun h => by cases h⟩
    | false => exact updated_refl coin
  | withdrawing =>
    refine yields_bind (yields_checkWithdrawal coin) (fun new hnew => yields_pure ?_)
    obtain rfl | rfl := hnew
    · exact updated_refl new
    · exact ⟨steps_of_same rfl rfl (by rw [hstatus]; rfl), fun h => by cases h⟩
  | confirmed => exact yields_pure (updated_refl coin)
  | transferred => exact yields_pure (updated_refl coin)
  | withdrawn => exact yields_pure (updated_refl coin)
  | duplicated => exact yields_pure (updated_refl coin)
  | invalidated => exact yields_pure (updated_refl coin)

theorem yields_updateEach (walletName network : String) (coins : List Coin) :
    Yields Quiet (fun r => List.Forall₂ Updated coins r.1) (updateEach kit walletName network coins) := by
  induction coins with
  | nil => exact yields_pure .nil
  | cons coin coins ih =>
    refine yields_bind (yields_updateCoin walletName network coin) (fun r hr => ?_)
    exact yields_bind ih (fun rs hrs => yields_pure (.cons hr hrs))

end Updating

section Receiving

open Client.Receive

variable {E K F : Type} {kit : Kit E K F}

theorem reads_getTx0 (tx0Txid : String) :
    Yields Reads (fun _ => ∃ txid, kit.btc.txidFromStr tx0Txid = some txid) (getTx0 kit tx0Txid) := by
  refine yields_lift_bind (fun txid htxid => ?_)
  refine yields_ask_bind (Call.batchTransactionGetRaw txid) _ trivial (fun reply => ?_)
  exact yields_lift_bind (fun txBytes _ => yields_lift fun _ _ => ⟨txid, orThrow_eq_ok.mp htxid⟩)

theorem yields_getTx0 (tx0Txid : String) : Yields Quiet (fun _ => True) (getTx0 kit tx0Txid) :=
  yields_mono quiet_of_reads (fun _ _ => trivial) (reads_getTx0 tx0Txid)

theorem asks_verifyTx0OutputIsUnspentAndConfirmed (tx0Outpoint : Crates.OutPoint) (tx0Hex network : String) :
    Yields Asks (fun r => r.2 = .confirmed ∨ r.2 = .unconfirmed)
      (verifyTx0OutputIsUnspentAndConfirmed kit tx0Outpoint tx0Hex network) := by
  refine yields_lift_bind (fun outputAddress _ => ?_)
  refine yields_lift_bind (fun network _ => ?_)
  refine yields_lift_bind (fun script _ => ?_)
  refine yields_bind (asks_scriptListUnspent script) (fun res _ => ?_)
  refine yields_bind asks_blockHeadersSubscribeRaw (fun blockheight _ => ?_)
  split
  · refine yields_lift_bind (fun _ _ => yields_pure ?_)
    dsimp only
    split_ifs
    · exact .inl rfl
    · exact .inr rfl
  · exact yields_pure (.inr rfl)

theorem yields_verifyTx0OutputIsUnspentAndConfirmed (tx0Outpoint : Crates.OutPoint) (tx0Hex network : String) :
    Yields Quiet (fun r => r.2 = .confirmed ∨ r.2 = .unconfirmed)
      (verifyTx0OutputIsUnspentAndConfirmed kit tx0Outpoint tx0Hex network) :=
  yields_mono quiet_of_asks (fun _ h => h) (asks_verifyTx0OutputIsUnspentAndConfirmed _ _ _)

section Validate

variable [Add F] [Sub F] [Div F] [NatCast F] [LT F] [DecidableLT F]

/-- A group that passes names an output of a transaction that could be asked for. -/
theorem reads_validateGroup (coin : Coin) (network : String) (infoConfig : InfoConfig F) (blockheight : UInt32)
    (transferMsg : TransferMsg) (index : ℕ) (backupTransactions : List BackupTx) :
    Yields Reads
      (fun _ => ∃ tx0Outpoint txid, getTx0Outpoint kit.btc backupTransactions = .ok tx0Outpoint ∧
        kit.btc.txidFromStr tx0Outpoint.txid = some txid)
      (validateGroup kit coin network infoConfig blockheight transferMsg index backupTransactions) := by
  unfold validateGroup
  refine yields_lift_bind (fun tx0Outpoint houtpoint => ?_)
  refine yields_bind (reads_getTx0 _) (fun tx0Hex htxid => ?_)
  obtain ⟨txid, htxid⟩ := htxid
  extract_lets rest
  have hrest : ∀ u, Yields Reads (fun _ => ∃ tx0Outpoint txid,
      getTx0Outpoint kit.btc backupTransactions = .ok tx0Outpoint ∧
        kit.btc.txidFromStr tx0Outpoint.txid = some txid) (rest u) := by
    intro u
    refine yields_bind (yields_mono reads_of_asks (fun _ h => h) (asks_getStatechainInfo _)) (fun info _ => ?_)
    refine yields_lift_bind (fun statechainInfo _ => ?_)
    refine yields_lift_bind (fun _ _ => ?_)
    refine yields_lift_bind (fun _ _ => ?_)
    refine yields_lift_bind (fun _ _ => ?_)
    refine yields_lift_bind (fun _ _ => ?_)
    refine yields_lift_bind (fun _ _ => ?_)
    refine yields_bind (yields_mono reads_of_asks (fun _ h => h)
      (asks_verifyTx0OutputIsUnspentAndConfirmed _ _ _)) (fun _ _ => ?_)
    refine yields_lift_bind (fun _ _ => ?_)
    exact yields_lift_bind (fun _ _ => yields_pure ⟨tx0Outpoint, txid, houtpoint, htxid⟩)
  split_ifs
  · refine yields_lift_bind (fun _ _ => ?_)
    exact yields_lift_bind (fun _ _ => hrest ())
  · exact hrest ()

theorem reads_validateEncryptedMessage (coin : Coin) (encMessage network : String) (infoConfig : InfoConfig F)
    (blockheight : UInt32) :
    Yields Reads
      (fun _ => ∃ transferMsg groups,
        decryptTransferMsg kit.secp kit.ecies encMessage coin.authPrivkey = .ok transferMsg ∧
        TransferReceiver.splitBackupTransactions kit.btc transferMsg.backupTransactions = .ok groups ∧
        ∀ group ∈ groups, ∃ tx0Outpoint txid, getTx0Outpoint kit.btc group = .ok tx0Outpoint ∧
          kit.btc.txidFromStr tx0Outpoint.txid = some txid)
      (validateEncryptedMessage kit coin encMessage network infoConfig blockheight) := by
  refine yields_lift_bind (fun transferMsg htransferMsg => ?_)
  refine yields_lift_bind (fun groups hgroups => ?_)
  refine yields_mono (fun _ h => h) (fun _ hall => ?_) (yields_forM (fun group _ => reads_validateGroup _ _ _ _ _ _ _))
  refine ⟨transferMsg, groups, htransferMsg, hgroups, fun group hgroup => ?_⟩
  obtain ⟨index, hindex⟩ := List.mem_iff_getElem?.mp hgroup
  exact hall (group, index) (List.mem_zipIdx_iff_getElem?.mpr hindex)

theorem yields_validateEncryptedMessage (coin : Coin) (encMessage network : String) (infoConfig : InfoConfig F)
    (blockheight : UInt32) :
    Yields Quiet (fun _ => True) (validateEncryptedMessage kit coin encMessage network infoConfig blockheight) :=
  yields_mono quiet_of_reads (fun _ _ => trivial) (reads_validateEncryptedMessage _ _ _ _ _)

end Validate

theorem yields_unlockStatecoin (statechainId signedStatechainId authPubkey : String) :
    Yields Quiet (fun _ => True) (unlockStatecoin statechainId signedStatechainId authPubkey : Operation F Unit) := by
  refine yields_ask_bind (Call.transferUnlock ⟨statechainId, signedStatechainId, some authPubkey⟩) _ trivial
    (fun reply => ?_)
  exact yields_lift_bind (fun response _ => yields_lift fun _ _ => trivial)

theorem yields_sendTransferReceiverRequestPayload (payload : TransferReceiverRequestPayload) :
    Yields Quiet (fun _ => True) (sendTransferReceiverRequestPayload payload : Operation F (Option String)) := by
  refine yields_ask_bind (Call.transferReceiver payload) _ trivial (fun reply => ?_)
  refine yields_lift_bind (fun response _ => ?_)
  split_ifs
  · split
    · exact yields_pure trivial
    · exact yields_fail _
    · exact yields_fail _
  · exact yields_bind (yields_lift fun _ _ => trivial) (fun _ _ => yields_pure trivial)
  · exact yields_fail _

/-- The coin of a message: it is the same or has been received with it. -/
structure Received (old new : Coin) : Prop where
  identity : identityOf new = identityOf old
  status : new.status = .confirmed ∨ new.status = .unconfirmed

variable (kit) in
/-- What a coin becomes that is received. -/
def Taken (old new : Coin) : Prop :=
  ∃ serverPublicKeyHex newKeyInfo statechainId tx0Outpoint tx0Hex network locktime status,
    getNewKeyInfo kit.btc kit.secp serverPublicKeyHex old statechainId tx0Outpoint tx0Hex network = .ok newKeyInfo ∧
    (status = .confirmed ∨ status = .unconfirmed) ∧
    new = received old serverPublicKeyHex newKeyInfo statechainId tx0Outpoint locktime status

theorem Taken.received {old new : Coin} (h : Taken kit old new) : Received old new := by
  obtain ⟨_, _, _, _, _, _, _, status, -, hstatus, rfl⟩ := h
  exact ⟨rfl, hstatus⟩

variable (kit) in
/-- What processing a message leaves of its coin, with the data of further deposits. -/
def Leaves (old new : Coin) (data : List DuplicatedCoinData) : Prop :=
  new = old ∧ data = [] ∨ Taken kit old new

variable [DecidableEq E]

theorem yields_takeOver (coin : Coin) (network : String) (transferMsg : TransferMsg)
    (backupTransactions : List BackupTx) :
    Yields Quiet (fun r => ∀ taken, r = some taken → Taken kit coin taken.1)
      (takeOver kit coin network transferMsg backupTransactions) := by
  unfold takeOver
  refine yields_lift_bind (fun tx0Outpoint _ => ?_)
  refine yields_bind (yields_getTx0 _) (fun tx0Hex _ => ?_)
  refine yields_bind (yields_getStatechainInfo _) (fun info _ => ?_)
  refine yields_lift_bind (fun statechainInfo _ => ?_)
  refine yields_bind (yields_verifyTx0OutputIsUnspentAndConfirmed _ _ _) (fun tx0 htx0 => ?_)
  refine yields_lift_bind (fun backupTx _ => ?_)
  refine yields_lift_bind (fun lastTxLockTime _ => ?_)
  refine yields_lift_bind (fun payload _ => ?_)
  refine yields_lift_bind (fun signedStatechainIdForUnlock _ => ?_)
  refine yields_bind (yields_unlockStatecoin _ _ _) (fun _ _ => ?_)
  refine yields_bind (yields_withContext _ (yields_sendTransferReceiverRequestPayload _)) (fun serverPubkey _ => ?_)
  cases serverPubkey with
  | none => exact yields_pure (fun _ h => nomatch h)
  | some serverPublicKeyHex =>
    refine yields_lift_bind (fun newKeyInfo hinfo => ?_)
    refine yields_bind (yields_createActivity _ _ _) (fun activity _ => yields_pure ?_)
    intro taken htaken
    cases Option.some.inj htaken
    exact ⟨_, newKeyInfo, _, tx0Outpoint, _, _, lastTxLockTime, tx0.2, hinfo, htx0, rfl⟩

omit [DecidableEq E] in
theorem yields_storeReceived (walletName : String) (transferMsg : TransferMsg) (rest : List (List BackupTx × ℕ)) :
    Yields Quiet (fun _ => True) (storeReceived kit walletName transferMsg rest) := by
  have hdata : Yields Quiet (fun _ => True) (duplicatedCoinsData kit rest) := by
    induction rest with
    | nil => exact yields_pure trivial
    | cons group groups ih =>
      have hgroup : Yields Quiet (fun _ => True) (duplicatedCoinData kit group.2 group.1) := by
        refine yields_lift_bind (fun tx0Outpoint _ => ?_)
        refine yields_bind (yields_getTx0 _) (fun tx0Hex _ => ?_)
        refine yields_lift_bind (fun firstBackupTx _ => ?_)
        refine yields_lift_bind (fun txOutpoint _ => ?_)
        exact yields_lift_bind (fun amount _ => yields_pure trivial)
      exact yields_bind hgroup (fun _ _ => yields_bind ih (fun _ _ => yields_pure trivial))
  refine yields_bind (yields_insertOrUpdateBackupTxs _ _ _) (fun _ _ => ?_)
  exact yields_bind hdata (fun _ _ => yields_pure trivial)

theorem yields_processEncryptedMessage (coin : Coin) (encMessage network walletName : String)
    (activities : List Activity) :
    Yields Quiet (fun r => Leaves kit coin r.1 (dataOf r.2.2))
      (processEncryptedMessage kit coin encMessage network walletName activities) := by
  unfold processEncryptedMessage
  refine yields_bind (yields_attempt (yields_lift fun _ _ => trivial)) (fun message _ => ?_)
  split
  · exact yields_pure (.inl ⟨rfl, rfl⟩)
  · exact yields_pure (.inl ⟨rfl, rfl⟩)
  · refine yields_bind (yields_attempt (yields_takeOver _ _ _ _)) (fun taken htaken => ?_)
    split
    · exact yields_pure (.inl ⟨rfl, rfl⟩)
    · exact yields_pure (.inl ⟨rfl, rfl⟩)
    · refine yields_bind (yields_attempt (yields_storeReceived _ _ _)) (fun result _ => ?_)
      exact yields_pure (.inr (htaken _ rfl _ rfl))

/-- A coin of the wallet among those gathered: it is the same or has been received. -/
structure Gathers (old new : Coin) : Prop where
  same : new.status = .initialised → new = old
  steps : Steps old new

theorem gathers_refl (coin : Coin) : Gathers coin coin := ⟨fun _ => rfl, steps_refl coin⟩

theorem Received.gathers {old new : Coin} (h : Received old new) (hold : old.status = .initialised) :
    Gathers old new := by
  refine ⟨fun hnew => ?_, h.identity, fun hne => absurd hold hne, .inr ?_⟩
  · obtain hstatus | hstatus := h.status <;> rw [hstatus] at hnew <;> cases hnew
  · rw [hold]
    obtain hstatus | hstatus := h.status <;> rw [hstatus] <;> rfl

/-- What every message keeps of what has been gathered, by what it leaves of the coin that it is received with: a new
coin of the wallet or a copy of one. -/
structure Gathering (leaves : Coin → Coin → List DuplicatedCoinData → Prop) (wallet : Wallet)
    (Inv : Gathered → Prop) : Prop where
  same : ∀ {gathered gathered'}, Inv gathered → gathered'.tempCoins = gathered.tempCoins →
    gathered'.duplicatedCoins = gathered.duplicatedCoins → Inv gathered'
  own : ∀ {gathered place old new data}, Inv gathered → gathered.tempCoins[place]? = some old →
    old.status = .initialised → leaves old new data →
      Inv { gathered with
        tempCoins := gathered.tempCoins.set place new
        duplicatedCoins := gathered.duplicatedCoins ++ data.map (duplicateOf new) }
  copy : ∀ {gathered authPubkey coin new data}, Inv gathered →
    duplicateCoinToInitializedState wallet authPubkey = .ok coin → leaves coin new data →
      Inv { gathered with
        tempCoins := gathered.tempCoins ++ [new]
        duplicatedCoins := gathered.duplicatedCoins ++ data.map (duplicateOf new) }

theorem yields_encMsgsPerAuthPubkey (authPubkeys : List String) :
    Yields Quiet (fun _ => True)
      (encMsgsPerAuthPubkey authPubkeys : Operation F (List (String × List String))) := by
  induction authPubkeys with
  | nil => exact yields_pure trivial
  | cons authPubkey authPubkeys ih =>
    have hmessages : Yields Quiet (fun _ => True) (getMsgAddr authPubkey : Operation F (List String)) :=
      yields_ask_bind (Call.getMsgAddr authPubkey) _ trivial (fun _ => yields_lift fun _ _ => trivial)
    exact yields_bind hmessages (fun _ _ => yields_bind ih (fun _ _ => yields_pure trivial))

variable [Add F] [Sub F] [Div F] [NatCast F] [LT F] [DecidableLT F]

section Walk

variable {ok : (c : Call F) → Reply c → Prop} {leaves : Coin → Coin → List DuplicatedCoinData → Prop}
  {Inv : Gathered → Prop} {gathered : Gathered} {wallet : Wallet}

theorem assures_receiveWith {coin : Coin} {keep : Coin → List Activity → Option MessageResult → Res Gathered}
    (hprocess : ∀ encMessage network walletName activities, Assures ok Quiet (fun r => leaves coin r.1 (dataOf r.2.2))
      (fun _ => True) (processEncryptedMessage kit coin encMessage network walletName activities))
    (infoConfig : InfoConfig F) (blockheight : UInt32) (encMessage : String) (h : Inv gathered)
    (hkeep : ∀ new activities result gathered', leaves coin new (dataOf result) →
      keep new activities result = .ok gathered' → Inv gathered') :
    Assures ok Quiet Inv (fun _ => True)
      (receiveWith kit wallet infoConfig blockheight gathered coin encMessage keep) := by
  refine assures_yields_bind (yields_attempt (yields_validateEncryptedMessage _ _ _ _ _)) (fun validated _ => ?_)
  cases validated with
  | none => exact assures_pure h
  | some validated =>
    refine assures_bind (hprocess _ _ _ _) (fun r hr => ?_)
    exact assures_lift (fun _ _ => trivial) (fun gathered' hgathered' => hkeep _ _ _ gathered' hr hgathered')

variable (hprocess : ∀ coin encMessage network walletName activities, Assures ok Quiet
  (fun r => leaves coin r.1 (dataOf r.2.2)) (fun _ => True)
  (processEncryptedMessage kit coin encMessage network walletName activities))

include hprocess

theorem assures_receiveMessage (hInv : Gathering leaves wallet Inv) (infoConfig : InfoConfig F) (blockheight : UInt32)
    (authPubkey encMessage : String) (h : Inv gathered) :
    Assures ok Quiet Inv (fun _ => True)
      (receiveMessage kit wallet infoConfig blockheight gathered authPubkey encMessage) := by
  unfold receiveMessage
  split
  next coin place hfind =>
    obtain ⟨hplace, hstatus⟩ := waiting_of_find hfind
    refine assures_receiveWith (hprocess coin) infoConfig blockheight encMessage h ?_
    intro new activities result gathered' hleaves hkept
    obtain ⟨hcoins, -, hduplicates⟩ := keepOwn_eq_ok hkept
    exact hInv.same (hInv.own h hplace hstatus hleaves) hcoins hduplicates
  next =>
    refine assures_try_bind (fun newCoin hnewCoin => ?_)
    cases newCoin with
    | none => exact assures_pure h
    | some newCoin =>
      refine assures_receiveWith (hprocess newCoin) infoConfig blockheight encMessage h ?_
      intro new activities result gathered' hleaves hkept
      obtain ⟨hcoins, -, hduplicates⟩ := keepNew_eq_ok hkept
      cases result with
      | none => exact hInv.same h (hcoins.trans (List.append_nil _)) (hduplicates.trans (List.append_nil _))
      | some result =>
        exact hInv.same (hInv.copy h (handled_eq_some.mp hnewCoin) hleaves) hcoins hduplicates

theorem assures_receiveMessages (hInv : Gathering leaves wallet Inv) (infoConfig : InfoConfig F) (blockheight : UInt32)
    (messages : List (String × String)) (h : Inv gathered) :
    Assures ok Quiet Inv (fun _ => True)
      (receiveMessages kit wallet infoConfig blockheight messages gathered) := by
  induction messages generalizing gathered with
  | nil => exact assures_pure h
  | cons message messages ih =>
    exact assures_bind (assures_receiveMessage hprocess hInv infoConfig blockheight _ _ h) (fun _ h' => ih h')

theorem assures_gatherMessages (hInv : Gathering leaves wallet Inv)
    (h : Inv ⟨wallet.coins, wallet.activities, [], false, []⟩) :
    Assures ok Quiet Inv (fun _ => True) (gatherMessages kit wallet) := by
  have hheight : Yields KeepsWallet (fun _ => True) (currentBlockheight : Action F UInt32) :=
    yields_mono keepsWallet_of_consults (fun _ h => h) TransferSender.yields_currentBlockheight
  refine assures_yields_bind (yields_expectOk (yields_send_quiet yields_infoConfig)) (fun infoConfig _ => ?_)
  refine assures_ask_bind Call.hashOrder _ trivial (fun setOrder _ => ?_)
  refine assures_yields_bind (yields_encMsgsPerAuthPubkey _) (fun encMsgs _ => ?_)
  refine assures_yields_bind (yields_send_quiet hheight) (fun blockheight _ => ?_)
  refine assures_ask_bind Call.hashOrder _ trivial (fun mapOrder _ => ?_)
  exact assures_receiveMessages hprocess hInv infoConfig blockheight _ h

end Walk

theorem yields_gatherMessages {Inv : Gathered → Prop} {wallet : Wallet} (hInv : Gathering (Leaves kit) wallet Inv)
    (h : Inv ⟨wallet.coins, wallet.activities, [], false, []⟩) : Yields Quiet Inv (gatherMessages kit wallet) :=
  yields_of_assures (assures_gatherMessages
    (fun _ _ _ _ _ => assures_of_yields (fun _ => trivial) (yields_processEncryptedMessage _ _ _ _ _)) hInv h)

/-- The coins of the wallet come first among those gathered. -/
def Holding (coins : List Coin) (gathered : Gathered) : Prop :=
  ∃ kept added, gathered.tempCoins = kept ++ added ∧ List.Forall₂ Gathers coins kept

omit [DecidableEq E] [Add F] [Sub F] [Div F] [NatCast F] [LT F] [DecidableLT F] in
theorem gathering_holding (wallet : Wallet) (coins : List Coin) : Gathering (Leaves kit) wallet (Holding coins) where
  same := by
    rintro gathered gathered' ⟨kept, added, hkept, hall⟩ hcoins -
    exact ⟨kept, added, hcoins.trans hkept, hall⟩
  copy := by
    rintro gathered authPubkey coin new data ⟨kept, added, hkept, hall⟩ - -
    exact ⟨kept, added ++ [new], by rw [hkept, List.append_assoc], hall⟩
  own := by
    rintro gathered place old new data ⟨kept, added, hkept, hall⟩ hold hstatus hnew
    rw [hkept] at hold
    by_cases hplace : place < kept.length
    · rw [List.getElem?_append_left hplace] at hold
      refine ⟨kept.set place new, added, ?_, ?_⟩
      · rw [hkept, List.set_append_left _ _ hplace]
      · obtain ⟨_, rfl⟩ := List.getElem?_eq_some_iff.mp hold
        have hplace' : place < coins.length := hall.length_eq ▸ hplace
        have hsame := (hall.get hplace' hplace).same hstatus
        have hcoin : coins[place]? = some kept[place] := List.getElem?_eq_some_iff.mpr ⟨hplace', hsame.symm⟩
        refine forall₂_set hall hcoin ?_
        obtain ⟨rfl, -⟩ | hnew := hnew
        · exact gathers_refl _
        · exact hnew.received.gathers hstatus
    · refine ⟨kept, added.set (place - kept.length) new, ?_, hall⟩
      rw [hkept, List.set_append_right _ _ (Nat.le_of_not_lt hplace)]

theorem continues_of_holding {coins : List Coin} {gathered : Gathered} (h : Holding coins gathered) :
    Continues Steps coins (sortCoinsByStatechain (gathered.tempCoins ++ gathered.duplicatedCoins)) := by
  obtain ⟨kept, added, hkept, hall⟩ := h
  have hsteps : Continues Steps coins (gathered.tempCoins ++ gathered.duplicatedCoins) := by
    rw [hkept, List.append_assoc]
    exact (continues_of_forall₂ (hall.imp fun _ _ h => h.steps)).append_right _
  exact hsteps.perm (List.perm_insertionSort _ _).symm

end Receiving

end MercuryLayer.Client.CoinSteps
