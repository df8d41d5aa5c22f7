import MercuryLayer.Client.ReceiverSoundness
import Mathlib.Tactic.Ring

namespace MercuryLayer.Client.SignatureScheme

open Client.ReceiverSoundness Client.TransferReceiver Crates Error Library.Validation Library.XOnlyCurve Receiver
open WalletData

theorem toNat_lt_of_isBlockHeight {lockTime : UInt32} (h : isBlockHeight lockTime = true) :
    lockTime.toNat < 500000000 := UInt32.lt_iff_toNat_lt.mp (of_decide_eq_true h)

theorem toNat_getBlockheight_lt {btc : Bitcoin} {backupTx : BackupTx} {lockTime : UInt32}
    (h : getBlockheight btc backupTx = .ok lockTime) : lockTime.toNat < 500000000 := by
  simp only [getBlockheight, bind_eq_ok, throwIf_eq_ok, pure_eq_ok, Bool.not_eq_false] at h
  obtain ⟨tx, -, -, hheight, rfl⟩ := h
  exact toNat_lt_of_isBlockHeight hheight

/-- As exact integers, the lock time is the one before minus the interval. -/
def Descends (interval prevLockTime currentLockTime : UInt32) : Prop :=
  (currentLockTime.toNat : ℤ) = prevLockTime.toNat - interval.toNat

/-- Two block heights are less than half the range of a `u32` apart, so that the wrapping difference is the
interval only if the exact one is. -/
theorem isIntervalCorrect_iff {interval prevLockTime currentLockTime : UInt32} (hinterval : interval.toNat < 2 ^ 31)
    (hprev : prevLockTime.toNat < 500000000) (hcurrent : currentLockTime.toNat < 500000000) :
    isIntervalCorrect interval (some prevLockTime) currentLockTime = true ↔
      Descends interval prevLockTime currentLockTime := by
  have hexact : isIntervalCorrect interval (some prevLockTime) currentLockTime = true ↔
      (prevLockTime - currentLockTime).toNat = interval.toNat := by
    have hinjective : Function.Injective UInt32.toInt32 := Function.LeftInverse.injective UInt32.toUInt32_toInt32
    rw [isIntervalCorrect, beq_iff_eq, hinjective.eq_iff, UInt32.toNat_inj]
  rw [hexact, UInt32.toNat_sub, Descends]
  omega

section Exact

variable {E K F : Type} [Add F] [Sub F] [Div F] [NatCast F] [LT F] [DecidableLT F]
  (btc : Bitcoin) (secp : Secp E K) (statechainInfo : StatechainInfoResponsePayload) (tx0Hex : String)
  (height : UInt32) (tolerance feeRate : F) (initlock interval : UInt32)

/-- The transaction passes all checks against the first row with its number. -/
def Checked [Build] (backupTx : BackupTx) : Prop :=
  ∃ row, statechainInfo.statechainInfo.find? (fun info => info.txN == backupTx.txN) = some row ∧
    verifyBackupTx btc secp tx0Hex height tolerance feeRate initlock
      backupTx row = .ok ()

/-- What the validator is for: checked transactions whose lock times go down by the interval. -/
structure Conforms (backupTransactions : List BackupTx) (lockTimes : List UInt32) : Prop where
  times : List.Forall₂ (fun backupTx lockTime => getBlockheight btc backupTx = .ok lockTime) backupTransactions
    lockTimes
  checked : ∀ backupTx ∈ backupTransactions, Checked btc secp statechainInfo tx0Hex height
    tolerance feeRate initlock backupTx
  descends : lockTimes.IsChain (Descends interval)

variable {btc secp statechainInfo tx0Hex height tolerance feeRate initlock
  interval}

theorem loop_cons_eq_ok [Build] {backupTx : BackupTx} {rest : List BackupTx}
    {previousLockTime result : Option UInt32} :
    signatureSchemeLoop btc secp statechainInfo tx0Hex height tolerance feeRate
        initlock interval (backupTx :: rest) previousLockTime = .ok (some result) ↔
      Checked btc secp statechainInfo tx0Hex height tolerance feeRate
          initlock backupTx ∧
        ∃ lockTime, getBlockheight btc backupTx = .ok lockTime ∧
          overflow (previousLockTime.any (· < lockTime) = true) = .ok () ∧
          isIntervalCorrect interval previousLockTime lockTime = true ∧
          signatureSchemeLoop btc secp statechainInfo tx0Hex height tolerance
            feeRate initlock interval rest (some lockTime) = .ok (some result) := by
  rw [signatureSchemeLoop, Checked]
  cases hrow : statechainInfo.statechainInfo.find? (fun info => info.txN == backupTx.txN) with
  | none => simp
  | some row =>
    simp only [bind_eq_ok, Option.some.injEq, exists_eq_left']
    constructor
    · rintro ⟨checked, hchecked, hrest⟩
      cases checked with
      | none => cases hrest
      | some _ =>
        obtain ⟨lockTime, hlockTime, hrest⟩ := bind_eq_ok.mp hrest
        obtain ⟨_, hfits, hrest⟩ := bind_eq_ok.mp hrest
        split_ifs at hrest with hcorrect
        · exact ⟨handled_eq_some.mp hchecked, lockTime, hlockTime, hfits, hcorrect, hrest⟩
        · cases hrest
    · rintro ⟨hchecked, lockTime, hlockTime, hfits, hcorrect, hrest⟩
      refine ⟨some (), handled_eq_some.mpr hchecked, bind_eq_ok.mpr ⟨lockTime, hlockTime, ?_⟩⟩
      rw [hfits, ok_bind, if_pos hcorrect, hrest]

theorem checked_of_loop {backupTransactions : List BackupTx} {previousLockTime result : Option UInt32}
    (h : signatureSchemeLoop btc secp statechainInfo tx0Hex height tolerance
      feeRate initlock interval backupTransactions previousLockTime = .ok (some result)) :
    ∀ backupTx ∈ backupTransactions, Checked btc secp statechainInfo tx0Hex height tolerance
      feeRate initlock backupTx := by
  induction backupTransactions generalizing previousLockTime with
  | nil => nofun
  | cons backupTx rest ih =>
    obtain ⟨hchecked, lockTime, -, -, -, hrest⟩ := loop_cons_eq_ok.mp h
    exact List.forall_mem_cons.mpr ⟨hchecked, ih hrest⟩

theorem checked_of_validateSignatureScheme {backupTransactions : List BackupTx} {l : UInt32}
    (h : validateSignatureScheme btc secp statechainInfo tx0Hex height tolerance
      feeRate initlock interval backupTransactions = .ok l) :
    ∀ backupTx ∈ backupTransactions, Checked btc secp statechainInfo tx0Hex height tolerance
      feeRate initlock backupTx := by
  obtain ⟨result, hloop, hresult⟩ := bind_eq_ok.mp h
  cases result with
  | none => cases hresult
  | some last => exact checked_of_loop hloop

/-- The invariant of the loop: with the lock time before them, the lock times so far go down by the
interval, and the last of them is kept. -/
theorem loop_eq_ok (hinterval : interval.toNat < 2 ^ 31) {backupTransactions : List BackupTx}
    {previousLockTime result : Option UInt32} (hprevious : ∀ t ∈ previousLockTime, t.toNat < 500000000) :
    signatureSchemeLoop btc secp statechainInfo tx0Hex height tolerance feeRate
        initlock interval backupTransactions previousLockTime = .ok (some result) ↔
      ∃ lockTimes,
        List.Forall₂ (fun backupTx lockTime => getBlockheight btc backupTx = .ok lockTime) backupTransactions
          lockTimes ∧
        (∀ backupTx ∈ backupTransactions, Checked btc secp statechainInfo tx0Hex height
          tolerance feeRate initlock backupTx) ∧
        (previousLockTime.toList ++ lockTimes).IsChain (Descends interval) ∧
        result = (previousLockTime.toList ++ lockTimes).getLast? := by
  induction backupTransactions generalizing previousLockTime with
  | nil =>
    rw [signatureSchemeLoop]
    constructor
    · intro h
      cases h
      refine ⟨[], .nil, fun _ h => absurd h List.not_mem_nil, ?_, ?_⟩
      · cases result <;> simp
      · cases result <;> rfl
    · rintro ⟨lockTimes, htimes, -, -, rfl⟩
      cases htimes
      cases previousLockTime <;> rfl
  | cons backupTx rest ih =>
    rw [loop_cons_eq_ok]
    constructor
    · rintro ⟨hchecked, lockTime, hlockTime, -, hcorrect, hrest⟩
      have hlt := toNat_getBlockheight_lt hlockTime
      obtain ⟨lockTimes, htimes, hall, hchain, hresult⟩ := (ih (by simpa using hlt)).mp hrest
      refine ⟨lockTime :: lockTimes, .cons hlockTime htimes, List.forall_mem_cons.mpr ⟨hchecked, hall⟩, ?_, ?_⟩
      · cases previousLockTime with
        | none => exact hchain
        | some previous =>
          exact .cons_cons ((isIntervalCorrect_iff hinterval (hprevious previous rfl) hlt).mp hcorrect) hchain
      · cases previousLockTime with
        | none => exact hresult
        | some previous => exact hresult
    · rintro ⟨_, _ | ⟨hlockTime, htimes⟩, hall, hchain, hresult⟩
      rename_i lockTime lockTimes
      have hlt := toNat_getBlockheight_lt hlockTime
      obtain ⟨hchecked, hrest⟩ := List.forall_mem_cons.mp hall
      cases previousLockTime with
      | none =>
        exact ⟨hchecked, lockTime, hlockTime, rfl, rfl,
          (ih (by simpa using hlt)).mpr ⟨lockTimes, htimes, hrest, hchain, hresult⟩⟩
      | some previous =>
        obtain ⟨hdescends, hchain⟩ := List.isChain_cons_cons.mp hchain
        exact ⟨hchecked, lockTime, hlockTime, rfl,
          (isIntervalCorrect_iff hinterval (hprevious previous rfl) hlt).mpr hdescends,
          (ih (by simpa using hlt)).mpr ⟨lockTimes, htimes, hrest, hchain, hresult⟩⟩

theorem validateSignatureScheme_eq_ok (hinterval : interval.toNat < 2 ^ 31) {backupTransactions : List BackupTx}
    {l : UInt32} :
    validateSignatureScheme btc secp statechainInfo tx0Hex height tolerance
        feeRate initlock interval backupTransactions = .ok l ↔
      ∃ lockTimes, Conforms btc secp statechainInfo tx0Hex height tolerance
        feeRate initlock interval backupTransactions lockTimes ∧
        lockTimes.getLast? = some l := by
  have hnone : ∀ t ∈ (none : Option UInt32), t.toNat < 500000000 := by simp
  rw [validateSignatureScheme]
  constructor
  · intro h
    obtain ⟨result, hloop, hresult⟩ := bind_eq_ok.mp h
    cases result with
    | none => cases hresult
    | some last =>
      obtain ⟨lockTimes, htimes, hall, hchain, rfl⟩ := (loop_eq_ok hinterval hnone).mp hloop
      exact ⟨lockTimes, ⟨htimes, hall, hchain⟩, orErr_eq_ok.mp hresult⟩
  · rintro ⟨lockTimes, ⟨htimes, hall, hchain⟩, hlast⟩
    refine bind_eq_ok.mpr ⟨some (some l), (loop_eq_ok hinterval hnone).mpr ⟨lockTimes, htimes, hall, hchain, ?_⟩, ?_⟩
    · exact hlast.symm
    · exact orErr_eq_ok.mpr rfl

/-- Down by the interval at each step: the last lock time is the lowest, and the first minus
all the intervals. -/
theorem last_of_descends {first last : UInt32} {rest : List UInt32}
    (hchain : (first :: rest).IsChain (Descends interval)) (hlast : (first :: rest).getLast? = some last) :
    (last.toNat : ℤ) = first.toNat - interval.toNat * rest.length ∧
      ∀ lockTime ∈ first :: rest, last.toNat ≤ lockTime.toNat := by
  induction rest generalizing first with
  | nil =>
    cases hlast
    simp
  | cons second rest ih =>
    obtain ⟨hdescends, hchain⟩ := List.isChain_cons_cons.mp hchain
    rw [List.getLast?_cons_cons] at hlast
    obtain ⟨hvalue, hlowest⟩ := ih hchain hlast
    have hsecond := hlowest second List.mem_cons_self
    rw [Descends] at hdescends
    refine ⟨?_, List.forall_mem_cons.mpr ⟨?_, hlowest⟩⟩
    · rw [List.length_cons, hvalue, hdescends]
      push_cast
      ring
    · omega

/-- The validator accepts exactly the lists that conform, with the lowest lock time of the list. -/
theorem validateSignatureScheme_exact (hinterval : interval.toNat < 2 ^ 31) (backupTransactions : List BackupTx) :
    ((∃ l, validateSignatureScheme btc secp statechainInfo tx0Hex height tolerance
        feeRate initlock interval backupTransactions = .ok l) ↔
      backupTransactions ≠ [] ∧ ∃ lockTimes, Conforms btc secp statechainInfo tx0Hex height
        tolerance feeRate initlock interval backupTransactions lockTimes) ∧
    ∀ l, validateSignatureScheme btc secp statechainInfo tx0Hex height tolerance
        feeRate initlock interval backupTransactions = .ok l →
      ∃ first lockTimes, Conforms btc secp statechainInfo tx0Hex height tolerance
          feeRate initlock interval backupTransactions lockTimes ∧
        lockTimes.head? = some first ∧
        (l.toNat : ℤ) = first.toNat - interval.toNat * (backupTransactions.length - 1) ∧
        l ∈ lockTimes ∧ ∀ lockTime ∈ lockTimes, l.toNat ≤ lockTime.toNat := by
  refine ⟨⟨?_, ?_⟩, ?_⟩
  · rintro ⟨l, hl⟩
    obtain ⟨lockTimes, hconforms, hlast⟩ := (validateSignatureScheme_eq_ok hinterval).mp hl
    refine ⟨?_, lockTimes, hconforms⟩
    rintro rfl
    cases hconforms.times
    cases hlast
  · rintro ⟨hne, lockTimes, hconforms⟩
    have htimes : lockTimes ≠ [] := by
      rintro rfl
      exact hne (List.forall₂_nil_right_iff.mp hconforms.times)
    exact ⟨lockTimes.getLast htimes, (validateSignatureScheme_eq_ok hinterval).mpr
      ⟨lockTimes, hconforms, List.getLast?_eq_some_getLast htimes⟩⟩
  · intro l hl
    obtain ⟨lockTimes, hconforms, hlast⟩ := (validateSignatureScheme_eq_ok hinterval).mp hl
    cases lockTimes with
    | nil => cases hlast
    | cons first rest =>
      obtain ⟨hvalue, hlowest⟩ := last_of_descends hconforms.descends hlast
      refine ⟨first, first :: rest, hconforms, rfl, ?_, List.mem_of_getLast? hlast, hlowest⟩
      rw [hvalue, hconforms.times.length_eq, List.length_cons]
      push_cast
      ring

end Exact

/-- Two transactions with lock times 1000 and 990, at an interval of 10. -/
theorem validateSignatureScheme_exact_swapped :
    ∃ first lockTimes, Conforms swappedEnv.btc swappedEnv.secp (standInInfo swappedMsg) "tx0" 0 0 0 1000 10
        swappedMsg.backupTransactions.reverse lockTimes ∧
      lockTimes.head? = some first ∧ (990 : ℤ) = first.toNat - 10 * (2 - 1) ∧ (990 : UInt32) ∈ lockTimes ∧
        ∀ lockTime ∈ lockTimes, 990 ≤ lockTime.toNat := by
  have hvalid : validateSignatureScheme swappedEnv.btc swappedEnv.secp (standInInfo swappedMsg) "tx0" 0 0 0 1000 10
      swappedMsg.backupTransactions.reverse = .ok 990 := by
    refine standIn_signatureScheme (by decide) (by decide) (by decide) (fun b hb => ?_) ?_
    · have hall : ∀ b ∈ swappedMsg.backupTransactions.reverse, swappedLock b.tx ≠ 0 ∧ swappedLock b.tx ≤ 1000 ∧
          isBlockHeight (swappedLock b.tx) = true := by decide
      obtain ⟨hzero, hle, hheight⟩ := hall b hb
      exact ⟨hzero, hle, hheight⟩
    · exact List.isChain_pair.mpr
        (by decide : isIntervalCorrect 10 (some (swappedLock "older")) (swappedLock "latest") = true)
  exact (validateSignatureScheme_exact (by decide) swappedMsg.backupTransactions.reverse).2 990 hvalid

end MercuryLayer.Client.SignatureScheme
