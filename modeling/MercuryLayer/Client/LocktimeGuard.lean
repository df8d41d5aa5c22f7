import MercuryLayer.Client.TransferSender
import MercuryLayer.Library.Grouping
import MercuryLayer.Library.Wire
import MercuryLayer.Musig.Cosign

namespace MercuryLayer.Client.LocktimeGuard

open Client.Transaction Client.TransferReceiver Client.TransferSender Crates Error Library Library.Programs
open Library.Validation Library.XOnlyCurve Musig.Cosign Musig.Session Receiver Sender Server.Transfer
open MercuryLayer.Transaction WalletData

/-- What does not change while the backup transactions are made. -/
structure Surroundings where
  height : UInt64
  stored : List BackupTx
  initlock : UInt32
  interval : UInt32

def Surroundings.blockheight (around : Surroundings) : UInt32 := around.height.toUInt32

section Environment

variable {F : Type} (around : Surroundings)

/-- Every call may fail. If it does not, the chain has one height, the sqlite file one list of
transactions and the statechain entity one configuration; everything else is open. -/
def answer (oracle : (c : Call F) → Reply c) : (c : Call F) → Reply c
  | .blockHeadersSubscribeRaw =>
    (oracle .blockHeadersSubscribeRaw : Except String UInt64).map (fun _ => around.height)
  | .getBackupTxs walletName statechainId =>
    (oracle (.getBackupTxs walletName statechainId) : Except String (List BackupTx)).map (fun _ => around.stored)
  | .infoConfig => (oracle .infoConfig : Except String (InfoConfig F)).map (fun info =>
      { info with initlock := around.initlock, interval := around.interval })
  | c => oracle c

def handle (oracle : (c : Call F) → Reply c) (c : Call F) (s : Unit) : Reply c × Unit := (answer around oracle c, s)

variable {around}

theorem map_eq_ok_const {α β : Type} {r : Except String α} {a b : β} (h : r.map (fun _ => a) = .ok b) : b = a := by
  cases r with
  | error text => cases h
  | ok x => exact (Except.ok.inj h).symm

theorem ensures_blockHeadersSubscribeRaw :
    Ensures (handle around) (fun height _ => height = around.height) (blockHeadersSubscribeRaw : Action F UInt64) () := by
  refine ensures_ask_bind Call.blockHeadersSubscribeRaw _ (fun oracle => ensures_lift (fun height hheight => ?_))
  exact map_eq_ok_const (anyhow_eq_ok.mp hheight)

theorem ensures_currentBlockheight :
    Ensures (handle around) (fun height _ => height = around.blockheight) (currentBlockheight : Action F UInt32) () := by
  refine ensures_bind (ensures_mono (fun height _ hheight => ?_) ensures_blockHeadersSubscribeRaw)
  rw [hheight]
  exact ensures_pure rfl

theorem ensures_blockHeightOr (blockHeight : Option UInt32) :
    Ensures (handle around) (fun height _ => height = blockHeight.getD around.blockheight)
      (blockHeightOr blockHeight : Action F UInt32) () := by
  cases blockHeight with
  | some height => exact ensures_pure rfl
  | none => exact ensures_currentBlockheight

theorem ensures_getBackupTxs (walletName statechainId : String) :
    Ensures (handle around) (fun txs _ => txs = around.stored)
      (getBackupTxs walletName statechainId : Action F (List BackupTx)) () := by
  refine ensures_ask_bind (Call.getBackupTxs walletName statechainId) _ (fun oracle => ensures_lift (fun txs htxs => ?_))
  exact map_eq_ok_const (anyhow_eq_ok.mp htxs)

theorem ensures_infoConfig :
    Ensures (handle around) (fun info _ => info.initlock = around.initlock ∧ info.interval = around.interval)
      (infoConfig : Action F (InfoConfig F)) () := by
  refine ensures_ask_bind Call.infoConfig _ (fun oracle => ensures_lift (fun info hinfo => ?_))
  have hmap : (oracle .infoConfig : Except String (InfoConfig F)).map (fun info =>
      { info with initlock := around.initlock, interval := around.interval }) = .ok info := anyhow_eq_ok.mp hinfo
  cases horacle : (oracle .infoConfig : Except String (InfoConfig F)) with
  | error text =>
    rw [horacle] at hmap
    cases hmap
  | ok info' =>
    rw [horacle] at hmap
    cases hmap
    exact ⟨rfl, rfl⟩

end Environment

section Built

variable {btc : Bitcoin} {lockTime : UInt32} {text : String}

variable (btc lockTime text) in
/-- The text is a signed backup transaction with the given lock time. -/
def LocksUntil : Prop := ∃ outpoint, Built btc outpoint lockTime text

theorem getBlockheight_of_locksUntil (hcodec : ∀ tx, btc.deserialize (btc.serialize tx) = .ok tx)
    {backupTx : BackupTx} (h : LocksUntil btc lockTime backupTx.tx) : getBlockheight btc backupTx = .ok lockTime := by
  obtain ⟨outpoint, hbuilt⟩ := h
  exact getBlockheight_of_built hcodec hbuilt

/-- The receiver's check on a transaction of the sender's is one of its lock time. -/
theorem verify_of_locksUntil (hcodec : ∀ tx, btc.deserialize (btc.serialize tx) = .ok tx)
    (h : LocksUntil btc lockTime text) (height initlock : UInt32) :
    verifyIfLocktimeIsReasonableTxVersionAndOutputSize btc text height initlock = .ok () ↔
      height < lockTime ∧ lockTime ≤ height + initlock := by
  obtain ⟨outpoint, hheight, output, signature, rfl⟩ := h
  have hlock : (signTx (unsignedTx outpoint lockTime output) signature).lockTime = lockTime := rfl
  have hversion : (signTx (unsignedTx outpoint lockTime output) signature).version = 2 := rfl
  have houtput : (signTx (unsignedTx outpoint lockTime output) signature).output.length = 1 := rfl
  simp only [verifyIfLocktimeIsReasonableTxVersionAndOutputSize, hcodec, question_ok, ok_bind, hlock, hversion,
    houtput, hheight, overflow_release, bind_eq_ok, throwIf_eq_ok]
  simp only [UInt32.not_le, UInt32.not_lt, gt_iff_lt, lt_self_iff_false, not_false_eq_true, ne_eq, not_true_eq_false,
    Bool.true_eq_false, true_and, exists_const]

end Built

section Emit

variable {E K F : Type} {setup : Setup E K F} {around : Surroundings} [Mul F] [NatCast F] [LT F] [DecidableLT F]
  (hcodec : ∀ tx, setup.btc.deserialize (setup.btc.serialize tx) = .ok tx)

include hcodec

omit [LT F] [DecidableLT F] in
/-- Whatever is signed has the calculated lock time, over the given height or over that of the chain. -/
theorem ensures_newTransaction (coin : Coin) (toAddress : String) (qtBackupTx : UInt32) (withdrawal : Option (ℕ × ℕ))
    (blockHeight : Option UInt32) (network : String) (feeRate : F) (initlock interval : UInt32) :
    Ensures (handle around)
      (fun r _ => LocksUntil setup.btc
        (calculateBlockHeight (blockHeight.getD around.blockheight) initlock interval qtBackupTx withdrawal) r.2)
      (newTransaction setup coin toAddress qtBackupTx withdrawal blockHeight network feeRate initlock interval) () := by
  refine ensures_bind (ensures_of_forall (fun coinNonce _ => ?_))
  refine ensures_bind (ensures_of_forall (fun serverPublicNonce _ => ?_))
  refine ensures_bind (ensures_mono (fun height _ hheight => ?_) (ensures_blockHeightOr blockHeight))
  subst hheight
  refine ensures_bind (ensures_lift (fun request hrequest => ?_))
  refine ensures_bind (ensures_of_forall (fun serverPartialSig _ => ?_))
  refine ensures_bind (ensures_lift (fun signature _ => ?_))
  refine ensures_bind (ensures_lift (fun signedTx hsigned => ?_))
  obtain ⟨outpoint, -, hbuilt⟩ := built_of_request hcodec hrequest hsigned
  exact ensures_pure ⟨outpoint, hbuilt⟩

theorem ensures_createTx1 (coin : Coin)
    (network : String) (txN : UInt32) :
    Ensures (handle around)
      (fun r _ => LocksUntil setup.btc (calculateBlockHeight around.blockheight around.initlock around.interval 0 none)
        r.2.tx)
      (createTx1 setup coin network txN) () := by
  refine ensures_bind (ensures_lift (fun toAddress _ => ?_))
  refine ensures_bind (ensures_mono (fun info _ hinfo => ?_) ensures_infoConfig)
  refine ensures_bind (ensures_mono (fun r _ hr => ?_) (ensures_newTransaction hcodec _ _ _ _ _ _ _ _ _))
  rw [hinfo.1, hinfo.2] at hr
  refine ensures_bind (ensures_lift (fun _ _ => ?_))
  refine ensures_bind (ensures_lift (fun _ _ => ?_))
  refine ensures_bind (ensures_lift (fun _ _ => ?_))
  refine ensures_bind (ensures_lift (fun backupTx hbackupTx => ?_))
  refine ensures_bind (ensures_lift (fun _ _ => ?_))
  apply ensures_pure
  rw [(backupTxOf_eq_ok hbackupTx).1]
  exact hr

theorem ensures_createBackupTxToReceiver (coin : Coin) (bkpTx1 : BackupTx) (recipientAddress : String) (qtBackupTx : UInt32) (network : String) :
    Ensures (handle around)
      (fun r _ => ∃ base, getBlockheight setup.btc bkpTx1 = .ok base ∧ LocksUntil setup.btc
        (calculateBlockHeight base around.initlock around.interval qtBackupTx none) r.2)
      (createBackupTxToReceiver setup coin bkpTx1 recipientAddress qtBackupTx network) () := by
  refine ensures_bind (ensures_lift (fun base hbase => ?_))
  refine ensures_bind (ensures_mono (fun info _ hinfo => ?_) ensures_infoConfig)
  refine ensures_mono (fun r _ hr => ?_) (ensures_newTransaction hcodec _ _ _ _ _ _ _ _ _)
  rw [hinfo.1, hinfo.2] at hr
  exact ⟨base, hbase, hr⟩

variable (setup around) in
/-- The lock times of what is made for a coin with the given stored transactions. -/
def Made (stored created : List BackupTx) : Prop :=
  match stored with
  | [] => ∃ bkpTx1 backupTx, created = [bkpTx1, backupTx] ∧
      LocksUntil setup.btc (calculateBlockHeight around.blockheight around.initlock around.interval 0 none) bkpTx1.tx ∧
      LocksUntil setup.btc (calculateBlockHeight
        (calculateBlockHeight around.blockheight around.initlock around.interval 0 none)
        around.initlock around.interval 1 none) backupTx.tx
  | bkpTx1 :: rest => ∃ base backupTx, created = [backupTx] ∧ getBlockheight setup.btc bkpTx1 = .ok base ∧
      LocksUntil setup.btc (calculateBlockHeight base around.initlock around.interval (rest.length + 1).toUInt32 none)
        backupTx.tx

variable (setup) in
/-- The outcome of one turn: the stored transactions of the coin at that place, and what is made. -/
def Turn (around : Surroundings) (coin : Coin) (place : ℕ) (backup : CoinBackup) : Prop :=
  backup.place = place ∧ filteredTransactions setup.btc coin around.stored = .ok backup.stored ∧
    Made setup around backup.stored backup.created

theorem ensures_backUpCoin (recipientAddress network : String) (coin : Coin) (place : ℕ) (newTxN : UInt32) :
    Ensures (handle around) (fun r _ => Turn setup around coin place r.1)
      (backUpCoin setup around.stored recipientAddress network coin place newTxN) () := by
  refine ensures_bind (ensures_lift (fun stored hstored => ?_))
  cases stored with
  | nil =>
    refine ensures_bind ?_
    rw [firstBackupTx, if_pos rfl]
    refine ensures_bind (ensures_mono (fun r _ hfirst => ?_) (ensures_createTx1 hcodec _ _ _))
    apply ensures_pure
    refine ensures_bind (ensures_lift (fun bkpTx1 hhead => ?_))
    cases unwrap_eq_ok.mp hhead
    refine ensures_bind (ensures_mono (fun r' _ hsecond => ?_) (ensures_createBackupTxToReceiver hcodec _ _ _ _ _))
    refine ensures_bind (ensures_lift (fun backupTx hbackupTx => ?_))
    obtain ⟨base, hbase, hbuilt⟩ := hsecond
    rw [getBlockheight_of_locksUntil hcodec hfirst] at hbase
    cases hbase
    rw [← (backupTxOf_eq_ok hbackupTx).1] at hbuilt
    exact ensures_pure ⟨rfl, hstored, r.2, backupTx, rfl, hfirst, hbuilt⟩
  | cons first rest =>
    refine ensures_bind ?_
    rw [firstBackupTx, if_neg (List.cons_ne_nil _ _)]
    apply ensures_pure
    refine ensures_bind (ensures_lift (fun bkpTx1 hhead => ?_))
    cases unwrap_eq_ok.mp hhead
    refine ensures_bind (ensures_mono (fun r' _ hsecond => ?_) (ensures_createBackupTxToReceiver hcodec _ _ _ _ _))
    refine ensures_bind (ensures_lift (fun backupTx hbackupTx => ?_))
    obtain ⟨base, hbase, hbuilt⟩ := hsecond
    rw [List.append_nil, List.length_cons, ← (backupTxOf_eq_ok hbackupTx).1] at hbuilt
    exact ensures_pure ⟨rfl, hstored, base, backupTx, rfl, hbase, hbuilt⟩

theorem ensures_backUpCoins (recipientAddress network : String) (coins : List (Coin × ℕ)) (newTxN : UInt32) :
    Ensures (handle around)
      (fun backups _ => List.Forall₂ (fun coin backup => Turn setup around coin.1 coin.2 backup) coins backups)
      (backUpCoins setup around.stored recipientAddress network coins newTxN) () := by
  induction coins generalizing newTxN with
  | nil => exact ensures_pure List.Forall₂.nil
  | cons coin coins ih =>
    refine ensures_bind (ensures_mono (fun r _ hturn => ?_) (ensures_backUpCoin hcodec _ _ _ _ _))
    refine ensures_bind (ensures_mono (fun backups _ hbackups => ?_) (ih r.2))
    exact ensures_pure (List.Forall₂.cons hturn hbackups)

theorem ensures_createCoinBackups (recipientAddress : String) (wallet : Wallet) (statechainId : String)
    (duplicatedIndexes : Option (List UInt32)) :
    Ensures (handle around)
      (fun backups _ => ∃ coinList : List (Coin × ℕ),
        (∀ coin, coin ∈ coinList ↔
          coin ∈ wallet.coins.zipIdx ∧ Sent setup.btc around.stored statechainId duplicatedIndexes coin.1) ∧
        List.Forall₂ (fun coin backup => Turn setup around coin.1 coin.2 backup) coinList backups)
      (createCoinBackups setup recipientAddress wallet statechainId duplicatedIndexes) () := by
  refine ensures_bind (ensures_bind (ensures_lift (fun _ _ => ?_)))
  refine ensures_bind (ensures_mono (fun txs _ htxs => ?_) (ensures_getBackupTxs _ _))
  subst htxs
  refine ensures_bind (ensures_mono (fun selected _ hselected => ?_)
    (ensures_of_attempts (attempts_of_yields_still (yields_selectCoins _ _ _ _ _) (fun _ _ _ _ => rfl))))
  refine ensures_bind (ensures_lift (fun _ _ => ?_))
  refine ensures_bind (ensures_of_forall (fun _ _ => ensures_pure ?_))
  refine ensures_bind (ensures_mono (fun txs _ htxs => ?_) (ensures_getBackupTxs _ _))
  subst htxs
  refine ensures_mono (fun backups _ hbackups => ⟨sortConfirmedFirst selected, fun coin => ?_, hbackups⟩)
    (ensures_backUpCoins hcodec _ _ _ _)
  rw [(sortConfirmedFirst_perm selected).mem_iff]
  exact hselected.2.2 coin

end Emit

section Room

variable (btc : Bitcoin) (around : Surroundings)

/-- Whether `calculate_block_height` subtracts more than it has. -/
def Underflows (blockHeight qtBackupTx : UInt32) : Prop :=
  (blockHeight + if qtBackupTx = 0 then around.initlock else 0).toNat < around.interval.toNat * qtBackupTx.toNat

/-- The height that the lock time of a coin's transaction number `qtBackupTx` is counted from. -/
def baseHeight (txs : List BackupTx) (qtBackupTx : ℕ) : Res UInt32 :=
  if qtBackupTx = 0 then .ok around.blockheight
  else (unwrap txs.head?).bind (getBlockheight btc)

/-- What the receiver will ask of each new transaction of a coin, and that nothing underflowed. -/
def Reasonable (backup : CoinBackup) : Prop :=
  ∀ i backupTx, backup.created[i]? = some backupTx →
    verifyIfLocktimeIsReasonableTxVersionAndOutputSize btc backupTx.tx around.blockheight around.initlock = .ok () ∧
    ∀ base, baseHeight btc around (backup.stored ++ backup.created) (backup.stored.length + i) = .ok base →
      ¬Underflows around base (backup.stored.length + i).toUInt32

/-- There is room between the chain's height and the base for all the intervals, and no more than
`initlock` above them. -/
def Room (blockHeight qtBackupTx : UInt32) : Prop :=
  let start := (blockHeight + if qtBackupTx = 0 then around.initlock else 0).toNat
  let height := around.blockheight.toNat
  let spent := around.interval.toNat * qtBackupTx.toNat
  height + spent < start ∧ start ≤ height + around.initlock.toNat + spent ∧
    height + around.initlock.toNat < 2 ^ 32

/-- The condition on a coin by its stored transactions: the first one's lock time, their number, the
height and the constants. -/
def RoomFor (stored : List BackupTx) : Prop :=
  match stored with
  | [] => Room around around.blockheight 0 ∧ Room around (around.blockheight + around.initlock) 1
  | bkpTx1 :: rest => ∀ base, getBlockheight btc bkpTx1 = .ok base → Room around base (rest.length + 1).toUInt32

variable {btc around} {blockHeight qtBackupTx : UInt32} {text : String}

theorem toNat_calculateBlockHeight (h : ¬Underflows around blockHeight qtBackupTx) :
    (calculateBlockHeight blockHeight around.initlock around.interval qtBackupTx none).toNat =
      (blockHeight + if qtBackupTx = 0 then around.initlock else 0).toNat -
        around.interval.toNat * qtBackupTx.toNat := by
  rw [Underflows, not_lt] at h
  have hlt := (blockHeight + if qtBackupTx = 0 then around.initlock else 0).toNat_lt
  have hmul : (around.interval * qtBackupTx).toNat = around.interval.toNat * qtBackupTx.toNat := by
    rw [UInt32.toNat_mul, Nat.mod_eq_of_lt (by omega)]
  rw [calculateBlockHeight, UInt32.toNat_sub_of_le _ _ (by rw [UInt32.le_iff_toNat_le, hmul]; exact h), hmul]

theorem reasonable_iff_room (hcodec : ∀ tx, btc.deserialize (btc.serialize tx) = .ok tx)
    (h : LocksUntil btc (calculateBlockHeight blockHeight around.initlock around.interval qtBackupTx none) text) :
    (verifyIfLocktimeIsReasonableTxVersionAndOutputSize btc text around.blockheight around.initlock = .ok () ∧
      ¬Underflows around blockHeight qtBackupTx) ↔ Room around blockHeight qtBackupTx := by
  rw [verify_of_locksUntil hcodec h, UInt32.lt_iff_toNat_lt, UInt32.le_iff_toNat_le, UInt32.toNat_add]
  have hheight := around.blockheight.toNat_lt
  have hinit := around.initlock.toNat_lt
  by_cases hunder : Underflows around blockHeight qtBackupTx
  · refine iff_of_false (fun h => h.2 hunder) (fun hroom => ?_)
    rw [Underflows] at hunder
    rw [Room] at hroom
    omega
  · rw [toNat_calculateBlockHeight hunder, Room]
    simp only [hunder, not_false_eq_true, and_true]
    rw [Underflows, not_lt] at hunder
    by_cases hwrap : around.blockheight.toNat + around.initlock.toNat < 2 ^ 32
    · rw [Nat.mod_eq_of_lt hwrap]
      omega
    · rw [Nat.mod_eq_sub_mod (by omega), Nat.mod_eq_of_lt (by omega)]
      omega

theorem calculateBlockHeight_zero (blockHeight initlock interval : UInt32) :
    calculateBlockHeight blockHeight initlock interval 0 none = blockHeight + initlock := by
  simp [calculateBlockHeight]

theorem reasonable_nil {place : ℕ} {coin : Coin} {bkpTx1 backupTx : BackupTx}
    (hcodec : ∀ tx, btc.deserialize (btc.serialize tx) = .ok tx)
    (hfirst : LocksUntil btc (calculateBlockHeight around.blockheight around.initlock around.interval 0 none) bkpTx1.tx)
    (hsecond : LocksUntil btc (calculateBlockHeight
      (calculateBlockHeight around.blockheight around.initlock around.interval 0 none)
      around.initlock around.interval 1 none) backupTx.tx) :
    Reasonable btc around ⟨place, coin, [], [bkpTx1, backupTx]⟩ ↔ RoomFor btc around [] := by
  have hbase := getBlockheight_of_locksUntil hcodec hfirst
  rw [RoomFor, ← reasonable_iff_room hcodec hfirst]
  rw [calculateBlockHeight_zero] at hsecond hbase
  rw [← reasonable_iff_room hcodec hsecond]
  constructor
  · intro h
    exact ⟨⟨(h 0 bkpTx1 rfl).1, (h 0 bkpTx1 rfl).2 _ rfl⟩, (h 1 backupTx rfl).1, (h 1 backupTx rfl).2 _ hbase⟩
  · rintro ⟨hone, htwo⟩ i tx htx
    match i, htx with
    | 0, htx =>
      cases htx
      refine ⟨hone.1, fun base h => ?_⟩
      cases h
      exact hone.2
    | 1, htx =>
      cases htx
      refine ⟨htwo.1, fun base h => ?_⟩
      cases hbase.symm.trans h
      exact htwo.2

theorem reasonable_cons {place : ℕ} {coin : Coin} {bkpTx1 backupTx : BackupTx} {rest : List BackupTx} {base : UInt32}
    (hcodec : ∀ tx, btc.deserialize (btc.serialize tx) = .ok tx) (hbase : getBlockheight btc bkpTx1 = .ok base)
    (hbuilt : LocksUntil btc (calculateBlockHeight base around.initlock around.interval (rest.length + 1).toUInt32 none)
      backupTx.tx) :
    Reasonable btc around ⟨place, coin, bkpTx1 :: rest, [backupTx]⟩ ↔ RoomFor btc around (bkpTx1 :: rest) := by
  have hroom : RoomFor btc around (bkpTx1 :: rest) ↔ Room around base (rest.length + 1).toUInt32 := by
    rw [RoomFor, hbase]
    exact ⟨fun h => h base rfl, fun h base' hbase' => Except.ok.inj hbase' ▸ h⟩
  rw [hroom, ← reasonable_iff_room hcodec hbuilt]
  constructor
  · intro h
    exact ⟨(h 0 backupTx rfl).1, (h 0 backupTx rfl).2 _ hbase⟩
  · rintro ⟨hverify, hunder⟩ i tx htx
    match i, htx with
    | 0, htx =>
      cases htx
      refine ⟨hverify, fun base' h => ?_⟩
      cases hbase.symm.trans h
      exact hunder

end Room

section Guard

variable {E K F : Type} {setup : Setup E K F} {around : Surroundings}

theorem reasonable_of_turn {coin : Coin} {place : ℕ} {backup : CoinBackup}
    (hcodec : ∀ tx, setup.btc.deserialize (setup.btc.serialize tx) = .ok tx)
    (h : Turn setup around coin place backup) :
    Reasonable setup.btc around backup ↔ RoomFor setup.btc around backup.stored := by
  obtain ⟨place', coin', stored, created⟩ := backup
  obtain ⟨-, -, hmade⟩ := h
  cases stored with
  | nil =>
    obtain ⟨bkpTx1, backupTx, rfl, hfirst, hsecond⟩ := hmade
    exact reasonable_nil hcodec hfirst hsecond
  | cons bkpTx1 rest =>
    obtain ⟨base, backupTx, rfl, hbase, hbuilt⟩ := hmade
    exact reasonable_cons hcodec hbase hbuilt

variable [Mul F] [NatCast F] [LT F] [DecidableLT F]

/-- The new transactions of a run that succeeds all have a reasonable lock time, without any underflow,
exactly if there is room for every coin that is sent. The sender's own guard does not see to it. -/
theorem backups_reasonable_iff (hcodec : ∀ tx, setup.btc.deserialize (setup.btc.serialize tx) = .ok tx)
    {recipientAddress statechainId : String} {wallet wallet' : Wallet} {duplicatedIndexes : Option (List UInt32)}
    {txs : List BackupTx} {choices : ℕ → (c : Call F) → Reply c}
    (hrun : (exec (handle around)
      (createBackupTransactions setup recipientAddress wallet statechainId duplicatedIndexes).run choices ()).1 =
        some (.ok (wallet', txs))) :
    ∃ backups, (exec (handle around)
        (createCoinBackups setup recipientAddress wallet statechainId duplicatedIndexes).run choices ()).1 =
          some (.ok backups) ∧
      txs = sortByTxN (collect backups) ∧
      ((∀ backup ∈ backups, Reasonable setup.btc around backup) ↔
        ∀ coin ∈ wallet.coins, Sent setup.btc around.stored statechainId duplicatedIndexes coin →
          ∀ stored, filteredTransactions setup.btc coin around.stored = .ok stored →
            RoomFor setup.btc around stored) := by
  obtain ⟨backups, hbackups, hresult⟩ := exec_map_eq_ok hrun
  refine ⟨backups, hbackups, (Prod.mk.inj hresult).2, ?_⟩
  obtain ⟨coinList, hlist, hturns⟩ := exec_of_ensures
    (ensures_createCoinBackups hcodec recipientAddress wallet statechainId duplicatedIndexes) hbackups
  constructor
  · intro hreasonable coin hcoin hsent stored hstored
    obtain ⟨place, hplace⟩ := List.mem_iff_getElem?.mp hcoin
    have hmem : (coin, place) ∈ coinList :=
      (hlist _).mpr ⟨List.mem_zipIdx_iff_getElem?.mpr hplace, hsent⟩
    obtain ⟨backup, hbackup, hturn⟩ := Grouping.exists_mem_of_forall₂ hturns.flip hmem
    have hroom := (reasonable_of_turn hcodec hturn).mp (hreasonable backup hbackup)
    cases hstored.symm.trans hturn.2.1
    exact hroom
  · intro hroom backup hbackup
    obtain ⟨⟨coin, place⟩, hmem, hturn⟩ := Grouping.exists_mem_of_forall₂ hturns hbackup
    obtain ⟨hzip, hsent⟩ := (hlist _).mp hmem
    have hcoin := List.mem_of_getElem? (List.mem_zipIdx_iff_getElem?.mp hzip)
    exact (reasonable_of_turn hcodec hturn).mpr (hroom coin hcoin hsent _ hturn.2.1)

end Guard

section Seven

def bytesWire : Wire.Encoding Bytes := Wire.list Wire.uint8

def outPointWire : Wire.Encoding OutPoint :=
  Wire.map (Wire.pair Wire.string Wire.uint32) (fun r => ⟨r.1, r.2⟩) (fun o => (o.txid, o.vout)) (fun _ => rfl)

def txInWire : Wire.Encoding TxIn :=
  Wire.map (Wire.pair outPointWire (Wire.pair bytesWire (Wire.pair Wire.uint32 (Wire.list bytesWire))))
    (fun r => ⟨r.1, r.2.1, r.2.2.1, r.2.2.2⟩)
    (fun i => (i.previousOutput, i.scriptSig, i.sequence, i.witness)) (fun _ => rfl)

def txOutWire : Wire.Encoding TxOut :=
  Wire.map (Wire.pair Wire.uint64 bytesWire) (fun r => ⟨r.1, r.2⟩) (fun o => (o.value, o.scriptPubkey)) (fun _ => rfl)

def transactionWire : Wire.Encoding Crates.Transaction :=
  Wire.map (Wire.pair Wire.uint32 (Wire.pair Wire.uint32 (Wire.pair (Wire.list txInWire) (Wire.list txOutWire))))
    (fun r => ⟨r.1.toInt32, r.2.1, r.2.2.1, r.2.2.2⟩)
    (fun tx => (tx.version.toUInt32, tx.lockTime, tx.input, tx.output)) (fun _ => rfl)

/-- A crate that reads every transaction back as it was written. -/
def wireBtc : Bitcoin where
  deserialize text := match Wire.ofText transactionWire text with
    | some tx => .ok tx
    | none => .error .bitcoinConsensusEncodeError
  serialize := Wire.toText transactionWire
  txid _ := ""
  txidFromStr _ := some []
  vsize _ := 1
  sighash _ _ := some []
  addressToStr _ _ := "address"
  addressFromScript _ _ := some "address"
  scriptOfAddress _ _ := some []

theorem wireBtc_codec (tx : Crates.Transaction) : wireBtc.deserialize (wireBtc.serialize tx) = .ok tx := by
  simp only [wireBtc, Wire.ofText_toText]

def sevenSetup : Setup (Point (ZMod 7)) (ZMod 7) ℕ where
  btc := wireBtc
  secp := seven.secp
  musig := seven.musig
  envelope :=
    { decodeTransferAddress := fun _ => .ok (0, seven.publicKey 2, seven.publicKey 1)
      bytes32FromHex := fun _ => .ok []
      transferMsgToJson := fun _ => []
      encrypt := fun _ _ => some "" }
  isAddress _ := true
  ceilU64 k := k.toUInt64
  newMusigNoncePair _ _ _ := .ok
    (hexCodec.encode (seven.secnonceBytes.encode ⟨1, 1, seven.publicKey 1⟩),
      seven.nonceText (seven.publicKey 1, seven.publicKey 1))
  network := .regtest
  clientConfig := ⟨0, 1, 1⟩

theorem sevenSetup_codec (tx : Crates.Transaction) :
    sevenSetup.btc.deserialize (sevenSetup.btc.serialize tx) = .ok tx := by
  rw [show sevenSetup.btc = wireBtc from rfl]
  exact wireBtc_codec tx

/-- Sent once: the deposit transaction is locked until 1100. -/
def sentOnce : BackupTx :=
  { txN := 1, tx := wireBtc.serialize (unsignedTx ⟨"f", 0⟩ 1100 ⟨1, []⟩), clientPublicNonce := ""
    serverPublicNonce := "", clientPublicKey := "", serverPublicKey := "", blindingFactor := "" }

def fundedCoin : Coin :=
  { sevenCoin with
    serverPubkey := some "", aggregatedAddress := some "address", utxoTxid := some "f", utxoVout := some 0
    amount := some 1000, locktime := some 1100 }

def fundedWallet : Wallet := ⟨"wallet", "regtest", [], [fundedCoin]⟩

def obliging : (c : Call ℕ) → Reply c
  | .getWallet _ => (.ok fundedWallet : Except String Wallet)
  | .updateWallet _ => (.ok () : Except String Unit)
  | .getBackupTxs _ _ => (.ok [] : Except String (List BackupTx))
  | .updateBackupTxs _ _ _ => (.ok () : Except String Unit)
  | .blockHeadersSubscribeRaw => (.ok 0 : Except String UInt64)
  | .scriptListUnspent _ => (.ok [] : Except String (List Unspent))
  | .infoConfig => (.ok ⟨0, 0, 1⟩ : Except String (InfoConfig ℕ))
  | .drawNonce => (⟨[], seven.secp.secretHex 2⟩ : NonceDraw)
  | .signFirst _ => (.ok (some ⟨200, .fields [("server_pubnonce",
      .text (seven.nonceText (seven.publicKey 1, seven.publicKey 1)))]⟩) : Response)
  | .signSecond _ => (.ok (some ⟨200, .fields [("partial_sig",
      .text (seven.musig.partialSigToStr (sevenSecrets.response [] 1 1 1)))]⟩) : Response)
  | .transferSender _ => (.ok none : Response)
  | .transferUpdateMsg _ => (.ok none : Response)
  | .utcNow => ("" : String)

def sevenAround (height : UInt64) : Surroundings := ⟨height, [sentOnce], 1000, 10⟩

def sendAt (height : UInt64) : Option (Except Failure (Wallet × List BackupTx)) :=
  (exec (handle (sevenAround height))
    (createBackupTransactions sevenSetup "ml" fundedWallet "statechain" none).run (fun _ => obliging) ()).1

theorem sentOnce_blockheight : getBlockheight wireBtc sentOnce = .ok 1100 := by
  simp only [getBlockheight, sentOnce, wireBtc_codec, question_ok, ok_bind]
  rfl

theorem sevenAround_room : RoomFor wireBtc (sevenAround 1000) [sentOnce] := by
  intro base hbase
  cases sentOnce_blockheight.symm.trans hbase
  change 1000 + 10 * 1 < 1100 ∧ 1100 ≤ 1000 + 1000 + 10 * 1 ∧ 1000 + 1000 < 2 ^ 32
  omega

/-- A hundred blocks before the coin expires there is room for its second transaction. -/
theorem backups_reasonable_seven :
    ∃ backups, (exec (handle (sevenAround 1000))
        (createCoinBackups sevenSetup "ml" fundedWallet "statechain" none).run (fun _ => obliging) ()).1 =
          some (.ok backups) ∧
      ∀ backup ∈ backups, Reasonable wireBtc (sevenAround 1000) backup := by
  have hsent : filteredTransactions wireBtc fundedCoin [sentOnce] = .ok [sentOnce] ∧
      (sendAt 1000).any Except.isOk = true := by decide +kernel
  obtain ⟨result, hresult, hok⟩ := (Option.any_eq_true _ _).mp hsent.2
  cases result with
  | error failure => cases hok
  | ok result =>
    obtain ⟨wallet', txs⟩ := result
    obtain ⟨backups, hrun, -, hiff⟩ := backups_reasonable_iff wireBtc_codec hresult
    refine ⟨backups, hrun, hiff.mpr (fun coin hcoin _ stored hstored => ?_)⟩
    cases List.mem_singleton.mp hcoin
    cases hsent.1.symm.trans hstored
    exact sevenAround_room

/-- Five blocks before the coin expires it is still sent, with a transaction that has expired. -/
theorem stale_backup_seven :
    (sendAt 1095).map (Except.map (fun result => result.2.map (fun backupTx =>
        (backupTx.txN, verifyIfLocktimeIsReasonableTxVersionAndOutputSize wireBtc backupTx.tx 1095 1000)))) =
      some (.ok [(1, .ok ()), (2, .error (.mercury .locktimeTooLow))]) := by decide +kernel

end Seven

end MercuryLayer.Client.LocktimeGuard
