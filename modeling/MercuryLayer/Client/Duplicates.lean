import MercuryLayer.Client.LocktimeGuard
import MercuryLayer.Library.Reliance

namespace MercuryLayer.Client.Duplicates

open Client.Transaction Client.TransferReceiver Client.TransferSender Crates Error Library.Programs Library.Reliance
open Library.Validation Library.XOnlyCurve Receiver Server.Sign MercuryLayer.Transaction WalletData

/-- What is stored for a statechain, and what the electrum server says of the chain. -/
structure View where
  stored : List BackupTx
  unspents : Bytes → List Unspent
  height : UInt64

/-- A reply tells what the view has, or the request fails. -/
def View.Allows {F : Type} (view : View) : (c : Call F) → Reply c → Prop
  | .getBackupTxs _ _, r => ∀ stored, r = .ok stored → stored = view.stored
  | .blockHeadersSubscribeRaw, r => ∀ height, r = .ok height → height = view.height
  | .scriptListUnspent script, r => ∀ unspents, r = .ok unspents → unspents = view.unspents script
  | _, _ => True

/-- The requests for a part of a signature. -/
def Cosigns {F : Type} : Call F → Prop
  | .signFirst _ => True
  | .signSecond _ => True
  | _ => False

/-- A result that is an error for the caller to handle. -/
def Refused {α : Type} (r : Res α) : Prop := ∃ failure, failure ≠ .panic ∧ r = .error failure

section Refused

variable {α β : Type} {r : Res α} {f : α → Res β}

theorem Refused.of_bind (h : Refused (r >>= f)) : r ≠ .error .panic ∧ ∀ a, r = .ok a → Refused (f a) := by
  constructor
  · rintro rfl
    obtain ⟨failure, hne, hfailure⟩ := h
    exact hne (Except.error.inj hfailure).symm
  · rintro a rfl
    exact h

theorem Refused.bind (h : Refused r) (f : α → Res β) : Refused (r >>= f) := by
  obtain ⟨failure, hne, rfl⟩ := h
  exact ⟨failure, hne, rfl⟩

theorem refused_bind (hpanic : r ≠ .error .panic) (hf : ∀ a, r = .ok a → Refused (f a)) : Refused (r >>= f) := by
  cases r with
  | ok a => exact hf a rfl
  | error failure => exact ⟨failure, fun hfailure => hpanic (congrArg _ hfailure), rfl⟩

theorem refused_or_of_bind (h : Refused (r >>= f)) : Refused r ∨ ∃ a, r = .ok a ∧ Refused (f a) := by
  cases r with
  | ok a => exact .inr ⟨a, rfl, h⟩
  | error failure =>
    obtain ⟨failure', hne, hfailure⟩ := h
    cases Except.error.inj hfailure
    exact .inl ⟨failure, hne, rfl⟩

theorem refused_failIf {p : Prop} [Decidable p] {text : String} : Refused (failIf p text) ↔ p := by
  constructor
  · rintro ⟨_, -, h⟩
    exact (throwIf_eq_error.mp h).1
  · exact fun hp => ⟨_, Failure.noConfusion, throwIf_eq_error.mpr ⟨hp, rfl⟩⟩

theorem refused_forM {g : α → Res Unit} {before : List α} {a : α} {after : List α}
    (hbefore : ∀ b ∈ before, g b ≠ .error .panic) (ha : Refused (g a)) : Refused ((before ++ a :: after).forM g) := by
  induction before with
  | nil => exact ha.bind _
  | cons b before ih =>
    obtain ⟨hb, hbefore⟩ := List.forall_mem_cons.mp hbefore
    exact refused_bind hb (fun _ _ => ih hbefore)

theorem refused_of_forM {g : α → Res Unit} {xs : List α} (h : Refused (xs.forM g)) :
    ∃ before a after, xs = before ++ a :: after ∧ (∀ b ∈ before, g b = .ok ()) ∧ Refused (g a) := by
  obtain ⟨failure, hne, hfailure⟩ := h
  obtain ⟨before, a, after, hxs, hbefore, ha⟩ := forM_eq_error.mp hfailure
  exact ⟨before, a, after, hxs, hbefore, failure, hne, ha⟩

theorem forM_ne_panic {g : α → Res Unit} {xs : List α} (h : ∀ a ∈ xs, g a ≠ .error .panic) :
    xs.forM g ≠ .error .panic := by
  intro hpanic
  obtain ⟨before, a, after, rfl, -, ha⟩ := forM_eq_error.mp hpanic
  exact h a (List.mem_append_right _ List.mem_cons_self) ha

theorem panic_of_not_refused (h : ¬Refused r) {failure : Failure} (hfailure : r = .error failure) :
    failure = .panic := by
  by_contra hne
  exact h ⟨failure, hne, hfailure⟩

theorem not_refused_of_bind (h : ¬Refused (r >>= f)) : ¬Refused r ∧ ∀ a, r = .ok a → ¬Refused (f a) := by
  refine ⟨fun hr => h (hr.bind f), ?_⟩
  rintro a rfl
  exact h

end Refused

variable {E K F : Type} (setup : Setup E K F) (view : View)

section Checks

def checkExpiryAt (coin : Coin) : Res Unit := do
  let locktime ← orFail "coin.locktime is None" coin.locktime
  failIf (view.height.toUInt32 > locktime)
    ("The coin is expired. Coin locktime is " ++ toString locktime ++ " and current blockheight is " ++
      toString view.height.toUInt32)

def selectedCoins (statechainId : String) (duplicatedIndexes : Option (List UInt32)) :
    List (Coin × ℕ) → Res (List (Coin × ℕ))
  | [] => .ok []
  | (coin, place) :: coins => do
    let matching ← hasMatchingTx setup.btc coin view.stored
    if matching || coinToAdd coin statechainId duplicatedIndexes then
      checkExpiryAt view coin
      let selected ← selectedCoins statechainId duplicatedIndexes coins
      return (coin, place) :: selected
    else selectedCoins statechainId duplicatedIndexes coins

def isConfirmedAt (unspent : Unspent) : Bool :=
  decide (0 < unspent.height ∧
    setup.clientConfig.confirmationTarget ≤ (view.height - unspent.height + 1).toUInt32)

def listed (coin : Coin) (script : Bytes) : Option Unspent :=
  (view.unspents script).find? (fun unspent => spends coin ⟨unspent.txHash, unspent.txPos.toUInt32⟩)

def checkConfirmedAt (coin : Coin) : Res Unit := do
  if coin.status = .duplicated then
    let aggregatedAddress ← unwrap coin.aggregatedAddress
    let script ← orFail "bitcoin::address::Error" (setup.btc.scriptOfAddress aggregatedAddress setup.network)
    match listed view coin script with
    | none => return ()
    | some unspent =>
      failIf (isConfirmedAt setup view unspent = false)
        ("The coin with duplicated index " ++ toString coin.duplicateIndex ++
          " has not yet been confirmed. This transfer cannot be performed.")
  else return ()

/-- The coins to back up, if no check against the view fails. -/
def checkedCoins (wallet : Wallet) (statechainId : String) (duplicatedIndexes : Option (List UInt32)) :
    Res (List (Coin × ℕ)) := do
  checkIndexes wallet duplicatedIndexes
  let coinList ← selectedCoins setup view statechainId duplicatedIndexes wallet.coins.zipIdx
  checkMain coinList
  coinList.forM (fun coin => checkConfirmedAt setup view coin.1)
  return coinList

end Checks

section Shadows

/-- Everything is answered from the view, with the given random values for a nonce. -/
def View.answer (draw : NonceDraw) : (c : Call F) → Reply c
  | .getWallet _ => (.error "" : Except String Wallet)
  | .updateWallet _ => (.error "" : Except String Unit)
  | .getBackupTxs _ _ => (.ok view.stored : Except String (List BackupTx))
  | .updateBackupTxs _ _ _ => (.error "" : Except String Unit)
  | .blockHeadersSubscribeRaw => (.ok view.height : Except String UInt64)
  | .scriptListUnspent script => (.ok (view.unspents script) : Except String (List Unspent))
  | .infoConfig => (.ok ⟨0, 0, setup.clientConfig.maxFeeRate⟩ : Except String (InfoConfig F))
  | .drawNonce => draw
  | .signFirst _ => (.error "" : Response)
  | .signSecond _ => (.error "" : Response)
  | .transferSender _ => (.error "" : Response)
  | .transferUpdateMsg _ => (.error "" : Response)
  | .utcNow => ("" : String)

theorem View.allows_of_told {answer : (c : Call F) → Reply c}
    (hstored : ∀ walletName statechainId, answer (.getBackupTxs walletName statechainId) = .ok view.stored)
    (hheight : answer .blockHeadersSubscribeRaw = .ok view.height)
    (hunspents : ∀ script, answer (.scriptListUnspent script) = .ok (view.unspents script)) (c : Call F) :
    view.Allows c (answer c) := by
  cases c with
  | getBackupTxs walletName statechainId => exact fun _ h => Except.ok.inj (h.symm.trans (hstored _ _))
  | blockHeadersSubscribeRaw => exact fun _ h => Except.ok.inj (h.symm.trans hheight)
  | scriptListUnspent script => exact fun _ h => Except.ok.inj (h.symm.trans (hunspents script))
  | _ => trivial

/-- A part that asks for no signature and that comes, in the view, to what the pure function says. -/
abbrev Agrees (draw : NonceDraw) {α : Type} (p : Action F α) (r : Res α) : Prop :=
  Shadows (view.answer setup draw) view.Allows (fun c => ¬Cosigns c) (· ≠ .panic) p r

variable {setup view} {draw : NonceDraw}

theorem anyhow_told {α : Type} {told : α} {reply : Except String α} (h : ∀ a, reply = .ok a → a = told) :
    ∀ a, anyhow reply = .ok a → a = told := by
  intro a ha
  cases reply with
  | ok b =>
    rw [← Except.ok.inj ha]
    exact h b rfl
  | error text => cases ha

theorem agrees_getBackupTxs (walletName statechainId : String) :
    Agrees setup view draw (getBackupTxs walletName statechainId) (.ok view.stored) :=
  shadows_ask_lift id (fun _ hreply => anyhow_told hreply) (fun _ => failure_ne_panic anyhow_ne_panic) rfl

theorem agrees_blockHeadersSubscribeRaw :
    Agrees setup view draw blockHeadersSubscribeRaw (.ok view.height) :=
  shadows_ask_lift id (fun _ hreply => anyhow_told hreply) (fun _ => failure_ne_panic anyhow_ne_panic) rfl

theorem assures_part_bind {α β : Type} {p : Action F α} {r : Res α} {f : α → Action F β} {post : β → Prop}
    (hp : Agrees setup view draw p r) (herr : r ≠ .error .panic)
    (hf : ∀ a, r = .ok a → Assures view.Allows (fun c => ¬Cosigns c) post (· ≠ .panic) (f a)) :
    Assures view.Allows (fun c => ¬Cosigns c) post (· ≠ .panic) (p >>= f) := by
  refine assures_bind (assures_mono (fun _ h => h) (fun _ h => h) (fun failure h => ?_) hp.assures) hf
  obtain h | h := h
  · exact failure_ne_panic herr failure h
  · exact h

theorem agrees_checkExpiry (coin : Coin) : Agrees setup view draw (checkExpiry coin) (checkExpiryAt view coin) := by
  refine shadows_bind (shadows_lift _) (fun locktime _ => ?_)
  have hheight : Agrees setup view draw currentBlockheight (.ok view.height.toUInt32) :=
    shadows_ok_bind agrees_blockHeadersSubscribeRaw (shadows_pure _)
  exact shadows_ok_bind hheight (shadows_lift _)

theorem agrees_selectCoins (statechainId : String) (duplicatedIndexes : Option (List UInt32))
    (coins : List (Coin × ℕ)) :
    Agrees setup view draw (selectCoins setup view.stored statechainId duplicatedIndexes coins)
      (selectedCoins setup view statechainId duplicatedIndexes coins) := by
  induction coins with
  | nil => exact shadows_pure _
  | cons first coins ih =>
    refine shadows_bind (shadows_lift _) (fun matching _ => ?_)
    split_ifs
    · refine shadows_bind (agrees_checkExpiry first.1) (fun _ _ => ?_)
      exact shadows_bind ih (fun selected _ => shadows_pure _)
    · exact ih

theorem agrees_isConfirmed (unspent : Unspent) :
    Agrees setup view draw (isConfirmed setup unspent) (.ok (isConfirmedAt setup view unspent)) := by
  unfold isConfirmed isConfirmedAt
  by_cases hheight : 0 < unspent.height
  · rw [if_pos hheight]
    simp only [hheight, true_and]
    exact shadows_ok_bind agrees_blockHeadersSubscribeRaw (shadows_pure _)
  · rw [if_neg hheight]
    simp only [hheight, false_and, decide_false]
    exact shadows_pure _

theorem agrees_checkConfirmed (coin : Coin) :
    Agrees setup view draw (checkConfirmed setup coin) (checkConfirmedAt setup view coin) := by
  unfold checkConfirmed checkConfirmedAt
  split_ifs
  · refine shadows_bind (shadows_lift _) (fun address _ => ?_)
    refine shadows_bind (shadows_lift _) (fun script _ => ?_)
    refine shadows_ask_lift_bind id (fun _ hreply => anyhow_told hreply) (fun _ => failure_ne_panic anyhow_ne_panic) rfl ?_
    unfold listed
    cases (view.unspents script).find? (fun unspent => spends coin ⟨unspent.txHash, unspent.txPos.toUInt32⟩) with
    | none => exact shadows_pure _
    | some unspent => exact shadows_ok_bind (agrees_isConfirmed unspent) (shadows_lift _)
  · exact shadows_pure _

theorem agrees_checkCoins (wallet : Wallet) (statechainId : String) (duplicatedIndexes : Option (List UInt32)) :
    Agrees setup view draw (checkCoins setup wallet statechainId duplicatedIndexes)
      (checkedCoins setup view wallet statechainId duplicatedIndexes) := by
  refine shadows_bind (shadows_lift _) (fun _ _ => ?_)
  refine shadows_ok_bind (agrees_getBackupTxs _ _) ?_
  refine shadows_bind (agrees_selectCoins _ _ _) (fun coinList _ => ?_)
  refine shadows_bind (shadows_lift _) (fun _ _ => ?_)
  exact shadows_bind (shadows_forM fun coin _ => agrees_checkConfirmed coin.1) (fun _ _ => shadows_pure _)

end Shadows

section Selection

variable {setup view} {coin : Coin} {statechainId : String} {duplicatedIndexes : Option (List UInt32)}

theorem backsUp_error {btc : Bitcoin} {backupTx : BackupTx} {failure : Failure}
    (h : backsUp btc coin backupTx = .error failure) :
    failure = .panic ∧ getPreviousOutpoint btc backupTx = .error .panic := by
  obtain h | ⟨outpoint, -, h⟩ := bind_eq_error.mp h
  · cases houtpoint : getPreviousOutpoint btc backupTx with
    | ok outpoint =>
      rw [houtpoint] at h
      cases h
    | error failure' =>
      rw [houtpoint] at h
      cases failure' <;> cases h
      exact ⟨rfl, rfl⟩
  · cases outpoint <;> cases h

theorem hasMatchingTx_error {backupTransactions : List BackupTx} {failure : Failure}
    (h : hasMatchingTx setup.btc coin backupTransactions = .error failure) :
    failure = .panic ∧ ∃ backupTx ∈ backupTransactions, getPreviousOutpoint setup.btc backupTx = .error .panic := by
  obtain ⟨backupTx, hmem, h⟩ := exists_of_anyM_eq_error h
  obtain h | ⟨_, -, h⟩ := bind_eq_error.mp h
  · exact ⟨(backsUp_error h).1, backupTx, hmem, (backsUp_error h).2⟩
  · cases h

theorem filteredTransactions_error {failure : Failure}
    (h : filteredTransactions setup.btc coin view.stored = .error failure) : failure = .panic := by
  obtain h | ⟨_, -, h⟩ := bind_eq_error.mp h
  · obtain ⟨_, -, h⟩ := exists_of_filterM_eq_error h
    exact (backsUp_error h).1
  · cases h

variable (setup view) in
/-- The search for a stored transaction of the coin does not come upon one without an input. -/
def Readable (coin : Coin) : Prop := hasMatchingTx setup.btc coin view.stored ≠ .error .panic

variable (view) in
/-- The coin has no lock time, or the chain is past it. -/
def Expired (coin : Coin) : Prop := ∀ locktime, coin.locktime = some locktime → locktime < view.height.toUInt32

theorem refused_checkExpiryAt : Refused (checkExpiryAt view coin) ↔ Expired view coin := by
  unfold checkExpiryAt Expired
  cases coin.locktime with
  | none => exact iff_of_true ⟨_, Failure.noConfusion, rfl⟩ (fun _ h => absurd h (Option.some_ne_none _).symm)
  | some locktime =>
    refine refused_failIf.trans ?_
    simp

theorem checkExpiryAt_ne_panic : checkExpiryAt view coin ≠ .error .panic := by
  intro h
  obtain h | ⟨_, -, h⟩ := bind_eq_error.mp h
  · cases (orThrow_eq_error.mp h).2
  · exact failIf_ne_panic h

theorem selectedCoins_cons {first : Coin × ℕ} (h : Readable setup view first.1) (coins : List (Coin × ℕ)) :
    selectedCoins setup view statechainId duplicatedIndexes (first :: coins) =
      if Sent setup.btc view.stored statechainId duplicatedIndexes first.1 then do
        checkExpiryAt view first.1
        let selected ← selectedCoins setup view statechainId duplicatedIndexes coins
        return first :: selected
      else selectedCoins setup view statechainId duplicatedIndexes coins := by
  cases hmatching : hasMatchingTx setup.btc first.1 view.stored with
  | error failure => exact absurd (hmatching.trans (congrArg _ (hasMatchingTx_error hmatching).1)) h
  | ok matching =>
    have hsent : (matching || coinToAdd first.1 statechainId duplicatedIndexes) = true ↔
        Sent setup.btc view.stored statechainId duplicatedIndexes first.1 := by
      rw [Sent, hmatching, Except.ok.injEq, Bool.or_eq_true]
    rw [selectedCoins, hmatching, ok_bind]
    by_cases hfirst : Sent setup.btc view.stored statechainId duplicatedIndexes first.1
    · rw [if_pos (hsent.mpr hfirst), if_pos hfirst]
    · rw [if_neg (fun h => hfirst (hsent.mp h)), if_neg hfirst]

theorem selectedCoins_eq_ok {coins selected : List (Coin × ℕ)}
    (h : selectedCoins setup view statechainId duplicatedIndexes coins = .ok selected) :
    (∀ coin ∈ coins, Readable setup view coin.1) ∧
      selected = coins.filter (fun coin => Sent setup.btc view.stored statechainId duplicatedIndexes coin.1) := by
  induction coins generalizing selected with
  | nil => exact ⟨fun _ h => absurd h List.not_mem_nil, (Except.ok.inj h).symm⟩
  | cons first coins ih =>
    have hfirst : Readable setup view first.1 := by
      intro hpanic
      rw [selectedCoins, hpanic] at h
      cases h
    rw [selectedCoins_cons hfirst] at h
    split_ifs at h with hsent
    · obtain ⟨_, -, h⟩ := bind_eq_ok.mp h
      obtain ⟨rest, hrest, h⟩ := bind_eq_ok.mp h
      obtain ⟨hread, rfl⟩ := ih hrest
      refine ⟨List.forall_mem_cons.mpr ⟨hfirst, hread⟩, ?_⟩
      rw [List.filter_cons, if_pos (decide_eq_true hsent)]
      exact (Except.ok.inj h).symm
    · obtain ⟨hread, rfl⟩ := ih h
      refine ⟨List.forall_mem_cons.mpr ⟨hfirst, hread⟩, ?_⟩
      rw [List.filter_cons, if_neg (by simpa using hsent)]

theorem panic_of_selectedCoins {coins : List (Coin × ℕ)}
    (h : selectedCoins setup view statechainId duplicatedIndexes coins = .error .panic) :
    ∃ coin ∈ coins, ¬Readable setup view coin.1 := by
  induction coins with
  | nil => cases h
  | cons first coins ih =>
    by_cases hfirst : Readable setup view first.1
    · have hrest : selectedCoins setup view statechainId duplicatedIndexes coins = .error .panic := by
        rw [selectedCoins_cons hfirst] at h
        split_ifs at h
        · obtain h | ⟨_, -, h⟩ := bind_eq_error.mp h
          · exact absurd h checkExpiryAt_ne_panic
          · obtain h | ⟨_, -, h⟩ := bind_eq_error.mp h
            · exact h
            · cases h
        · exact h
      obtain ⟨coin, hmem, hcoin⟩ := ih hrest
      exact ⟨coin, List.mem_cons_of_mem _ hmem, hcoin⟩
    · exact ⟨first, List.mem_cons_self, hfirst⟩

theorem refused_selectedCoins {coins : List (Coin × ℕ)} :
    Refused (selectedCoins setup view statechainId duplicatedIndexes coins) ↔
      ∃ before coin after, coins = before ++ coin :: after ∧
        (∀ other ∈ before ++ [coin], Readable setup view other.1) ∧
        Sent setup.btc view.stored statechainId duplicatedIndexes coin.1 ∧ Expired view coin.1 := by
  constructor
  · intro h
    induction coins with
    | nil =>
      obtain ⟨_, -, h⟩ := h
      cases h
    | cons first coins ih =>
      have hfirst : Readable setup view first.1 := by
        intro hpanic
        obtain ⟨failure, hne, h⟩ := h
        rw [selectedCoins, hpanic] at h
        exact hne (Except.error.inj h).symm
      have hcases : Sent setup.btc view.stored statechainId duplicatedIndexes first.1 ∧ Expired view first.1 ∨
          Refused (selectedCoins setup view statechainId duplicatedIndexes coins) := by
        rw [selectedCoins_cons hfirst] at h
        split_ifs at h with hsent
        · obtain h | ⟨_, -, h⟩ := refused_or_of_bind h
          · exact .inl ⟨hsent, refused_checkExpiryAt.mp h⟩
          · obtain h | ⟨_, -, _, -, h⟩ := refused_or_of_bind h
            · exact .inr h
            · cases h
        · exact .inr h
      obtain ⟨hsent, hexpired⟩ | hrest := hcases
      · exact ⟨[], first, coins, rfl, by simpa using hfirst, hsent, hexpired⟩
      · obtain ⟨before, coin, after, rfl, hread, hcoin⟩ := ih hrest
        exact ⟨first :: before, coin, after, rfl, List.forall_mem_cons.mpr ⟨hfirst, hread⟩, hcoin⟩
  · rintro ⟨before, coin, after, rfl, hread, hsent, hexpired⟩
    induction before with
    | nil =>
      rw [List.nil_append, selectedCoins_cons (hread coin List.mem_cons_self), if_pos hsent]
      exact (refused_checkExpiryAt.mpr hexpired).bind _
    | cons first before ih =>
      obtain ⟨hfirst, hread⟩ := List.forall_mem_cons.mp hread
      rw [List.cons_append, selectedCoins_cons hfirst]
      split_ifs
      · exact refused_bind checkExpiryAt_ne_panic (fun _ _ => (ih hread).bind _)
      · exact ih hread

theorem unaddressed_of_checkConfirmedAt (h : checkConfirmedAt setup view coin = .error .panic) :
    coin.status = .duplicated ∧ coin.aggregatedAddress = none := by
  unfold checkConfirmedAt at h
  split_ifs at h with hstatus
  · refine ⟨hstatus, ?_⟩
    obtain h | ⟨address, -, h⟩ := bind_eq_error.mp h
    · exact unwrap_eq_panic.mp h
    · obtain h | ⟨script, -, h⟩ := bind_eq_error.mp h
      · cases (orThrow_eq_error.mp h).2
      · cases hlisted : listed view coin script with
        | none =>
          rw [hlisted] at h
          cases h
        | some unspent =>
          rw [hlisted] at h
          cases (throwIf_eq_error.mp h).2
  · cases h

theorem checkConfirmedAt_ne_panic (h : coin.status = .duplicated → coin.aggregatedAddress ≠ none) :
    checkConfirmedAt setup view coin ≠ .error .panic := by
  intro hpanic
  obtain ⟨hstatus, hnone⟩ := unaddressed_of_checkConfirmedAt hpanic
  exact h hstatus hnone

theorem addressed_of_checkConfirmedAt (h : checkConfirmedAt setup view coin = .ok ())
    (hstatus : coin.status = .duplicated) : coin.aggregatedAddress ≠ none := by
  intro hnone
  rw [checkConfirmedAt, if_pos hstatus, hnone] at h
  cases h

variable (setup view) in
/-- The coins that go along, with their places in the wallet. -/
def sentCoins (wallet : Wallet) (statechainId : String) (duplicatedIndexes : Option (List UInt32)) :
    List (Coin × ℕ) :=
  wallet.coins.zipIdx.filter (fun coin => Sent setup.btc view.stored statechainId duplicatedIndexes coin.1)

variable {wallet : Wallet}

theorem checkedCoins_eq_ok {coinList : List (Coin × ℕ)}
    (h : checkedCoins setup view wallet statechainId duplicatedIndexes = .ok coinList) :
    coinList = sentCoins setup view wallet statechainId duplicatedIndexes ∧
      (∀ coin ∈ wallet.coins.zipIdx, Readable setup view coin.1) ∧ checkMain coinList = .ok () ∧
      ∀ coin ∈ coinList, checkConfirmedAt setup view coin.1 = .ok () := by
  obtain ⟨_, -, h⟩ := bind_eq_ok.mp h
  obtain ⟨selected, hselected, h⟩ := bind_eq_ok.mp h
  obtain ⟨_, hmain, h⟩ := bind_eq_ok.mp h
  obtain ⟨_, hconfirmed, h⟩ := bind_eq_ok.mp h
  cases Except.ok.inj h
  obtain ⟨hread, hsent⟩ := selectedCoins_eq_ok hselected
  exact ⟨hsent, hread, hmain, forM_eq_ok.mp hconfirmed⟩

theorem exists_head_of_checked {coinList : List (Coin × ℕ)}
    (h : checkedCoins setup view wallet statechainId duplicatedIndexes = .ok coinList) :
    ∃ first coins, sortConfirmedFirst coinList = first :: coins :=
  List.exists_cons_of_ne_nil (ne_nil_of_checkMain (checkedCoins_eq_ok h).2.2.1)

theorem panic_of_checkedCoins (h : checkedCoins setup view wallet statechainId duplicatedIndexes = .error .panic) :
    (∃ coin ∈ wallet.coins.zipIdx, ¬Readable setup view coin.1) ∨
      ∃ coin ∈ sentCoins setup view wallet statechainId duplicatedIndexes,
        coin.1.status = .duplicated ∧ coin.1.aggregatedAddress = none := by
  obtain h | ⟨_, -, h⟩ := bind_eq_error.mp h
  · exact absurd h (forM_ne_panic fun _ _ => failIf_ne_panic)
  obtain h | ⟨selected, hselected, h⟩ := bind_eq_error.mp h
  · exact .inl (panic_of_selectedCoins h)
  obtain h | ⟨_, -, h⟩ := bind_eq_error.mp h
  · exact absurd h failIf_ne_panic
  obtain h | ⟨_, -, h⟩ := bind_eq_error.mp h
  · obtain ⟨before, coin, after, hsplit, -, h⟩ := forM_eq_error.mp h
    refine .inr ⟨coin, ?_, unaddressed_of_checkConfirmedAt h⟩
    rw [sentCoins, ← (selectedCoins_eq_ok hselected).2, hsplit]
    exact List.mem_append_right _ List.mem_cons_self
  · cases h

end Selection

section Request

/-- What precedes the first request for a signature: a look at the stored transactions of the coin, and a
nonce. -/
def firstRequest (network : String) (coin : Coin) (draw : NonceDraw) : Res CoinNonce := do
  let stored ← filteredTransactions setup.btc coin view.stored
  match stored with
  | [] => do
    let _ ← getUserBackupAddress setup coin network
    commitNonces setup coin draw
  | bkpTx1 :: _ => do
    let _ ← getBlockheight setup.btc bkpTx1
    commitNonces setup coin draw

/-- All that precedes the first request for a signature. -/
def prepare (wallet : Wallet) (statechainId : String) (duplicatedIndexes : Option (List UInt32)) (draw : NonceDraw) :
    Res CoinNonce := do
  let coinList ← checkedCoins setup view wallet statechainId duplicatedIndexes
  let coin ← unwrap (sortConfirmedFirst coinList).head?
  firstRequest setup view wallet.network coin.1 draw

section Refusing

variable {setup view}

variable (view) in
/-- The program comes to an error for the caller, and asks for no signature. -/
abbrev Declines {α : Type} (p : Action F α) : Prop :=
  Assures view.Allows (fun c => ¬Cosigns c) (fun _ => False) (· ≠ .panic) p

theorem assures_infoConfig :
    Assures view.Allows (fun c => ¬Cosigns c) (fun _ => True) (· ≠ .panic) (infoConfig : Action F (InfoConfig F)) :=
  assures_ask_bind Call.infoConfig _ id (fun _ _ => assures_lift_of_ne anyhow_ne_panic fun _ _ => trivial)

variable [Mul F] [NatCast F]

theorem assures_newTransaction_refused {coin : Coin} (h : ∀ draw, Refused (commitNonces setup coin draw))
    (toAddress : String) (qtBackupTx : UInt32) (withdrawal : Option (ℕ × ℕ)) (blockHeight : Option UInt32)
    (network : String) (feeRateSatsPerByte : F) (initlock interval : UInt32) :
    Declines view (newTransaction setup coin toAddress qtBackupTx withdrawal blockHeight network feeRateSatsPerByte
      initlock interval) := by
  have hnonces : Declines view (createAndCommitNonces setup coin) := by
    refine assures_ask_bind Call.drawNonce _ id (fun draw _ => ?_)
    obtain ⟨failure, hne, hfailure⟩ := h draw
    refine assures_lift (fun e he => ?_) (fun a ha => ?_)
    · cases Except.error.inj (hfailure.symm.trans he)
      exact hne
    · cases hfailure.symm.trans ha
  exact assures_error_bind _ hnonces

variable [LT F] [DecidableLT F]

theorem assures_backUpCoin_refused {network : String} {coin : Coin}
    (h : ∀ draw, Refused (firstRequest setup view network coin draw)) (recipientAddress : String) (place : ℕ)
    (newTxN : UInt32) :
    Declines view (backUpCoin setup view.stored recipientAddress network coin place newTxN) := by
  refine assures_bind_of_ne (h ⟨[], ""⟩).of_bind.1 (fun stored hstored => ?_)
  replace h := fun draw => (h draw).of_bind.2 stored hstored
  cases stored with
  | nil =>
    have hfirst : Declines view (createTx1 setup coin network (newTxN + 1)) := by
      refine assures_bind_of_ne (h ⟨[], ""⟩).of_bind.1 (fun toAddress htoAddress => ?_)
      replace h := fun draw => (h draw).of_bind.2 toAddress htoAddress
      refine assures_bind assures_infoConfig (fun serverInfo _ => ?_)
      exact assures_error_bind _ (assures_newTransaction_refused h _ _ _ _ _ _ _ _)
    rw [backUpWith, firstBackupTx, if_pos rfl]
    exact assures_error_bind _ (assures_error_bind _ hfirst)
  | cons bkpTx1 stored =>
    have hreceiver : ∀ qtBackupTx, Declines view
        (createBackupTxToReceiver setup coin bkpTx1 recipientAddress qtBackupTx network) := by
      intro qtBackupTx
      refine assures_bind_of_ne (h ⟨[], ""⟩).of_bind.1 (fun blockHeight hblockHeight => ?_)
      replace h := fun draw => (h draw).of_bind.2 blockHeight hblockHeight
      refine assures_bind assures_infoConfig (fun serverInfo _ => ?_)
      exact assures_newTransaction_refused h _ _ _ _ _ _ _ _
    rw [backUpWith, firstBackupTx, if_neg (List.cons_ne_nil _ _), pure_bind]
    refine assures_lift_bind (fun _ h => by cases h) (fun first hfirst => ?_)
    cases hfirst
    exact assures_error_bind _ (hreceiver _)

end Refusing

section Exposing

variable (draw : NonceDraw) {α β : Type}

/-- Against the view the program panics or asks for a signature. -/
def Exposed (p : Action F α) : Prop :=
  Comes reply () (view.answer setup draw) p (.error .panic) ∨
    ∃ c ∈ calls reply p.run (fun _ => view.answer setup draw) (), Cosigns c

variable {setup view draw}

theorem Exposed.bind {p : Action F α} (h : Exposed setup view draw p) (f : α → Action F β) :
    Exposed setup view draw (p >>= f) := by
  obtain hpanic | ⟨c, hc, hcosigns⟩ := h
  · exact .inl (exec_bind_of_comes_error f hpanic)
  · exact .inr ⟨c, mem_calls_first hc, hcosigns⟩

theorem exposed_bind {p : Action F α} {a : α} {f : α → Action F β}
    (hp : Comes reply () (view.answer setup draw) p (.ok a)) (hf : Exposed setup view draw (f a)) :
    Exposed setup view draw (p >>= f) := by
  obtain hpanic | ⟨c, hc, hcosigns⟩ := hf
  · exact .inl ((exec_bind_of_comes_ok f hp).trans hpanic)
  · exact .inr ⟨c, mem_calls_bind hp hc, hcosigns⟩

theorem exposed_part_bind {p : Action F α} {r : Res α} {f : α → Action F β}
    (hp : Comes reply () (view.answer setup draw) p r) (h : ¬Refused r)
    (hf : ∀ a, r = .ok a → Exposed setup view draw (f a)) : Exposed setup view draw (p >>= f) := by
  cases r with
  | ok a => exact exposed_bind hp (hf a rfl)
  | error failure =>
    cases panic_of_not_refused h rfl
    exact .inl (exec_bind_of_comes_error f hp)

variable [Mul F] [NatCast F]

theorem exposed_newTransaction {coin : Coin} (h : ¬Refused (commitNonces setup coin draw)) (toAddress : String)
    (qtBackupTx : UInt32) (withdrawal : Option (ℕ × ℕ)) (blockHeight : Option UInt32) (network : String)
    (feeRateSatsPerByte : F) (initlock interval : UInt32) :
    Exposed setup view draw
      (newTransaction setup coin toAddress qtBackupTx withdrawal blockHeight network feeRateSatsPerByte initlock
        interval) := by
  have hnonces : Comes reply () (view.answer setup draw) (createAndCommitNonces setup coin)
      (commitNonces setup coin draw) := comes_ask_bind rfl comes_lift
  refine exposed_part_bind hnonces h (fun coinNonce _ => Exposed.bind (.inr ?_) _)
  exact ⟨.signFirst coinNonce.signFirstRequestPayload, List.mem_cons_self, trivial⟩

variable [LT F] [DecidableLT F]

theorem exposed_backUpCoin {network : String} {coin : Coin} (h : ¬Refused (firstRequest setup view network coin draw))
    (recipientAddress : String) (place : ℕ) (newTxN : UInt32) :
    Exposed setup view draw (backUpCoin setup view.stored recipientAddress network coin place newTxN) := by
  have hinfo : Comes reply () (view.answer setup draw) infoConfig (.ok ⟨0, 0, setup.clientConfig.maxFeeRate⟩) := rfl
  obtain ⟨hfiltered, h⟩ := not_refused_of_bind h
  refine exposed_part_bind comes_lift hfiltered (fun stored hstored => ?_)
  replace h := h stored hstored
  cases stored with
  | nil =>
    obtain ⟨haddress, h⟩ := not_refused_of_bind h
    rw [backUpWith, firstBackupTx, if_pos rfl]
    refine Exposed.bind (Exposed.bind ?_ _) _
    refine exposed_part_bind comes_lift haddress (fun toAddress htoAddress => ?_)
    exact exposed_bind hinfo (Exposed.bind (exposed_newTransaction (h toAddress htoAddress) _ _ _ _ _ _ _ _) _)
  | cons bkpTx1 stored =>
    obtain ⟨hheight, h⟩ := not_refused_of_bind h
    rw [backUpWith, firstBackupTx, if_neg (List.cons_ne_nil _ _), pure_bind]
    refine exposed_bind (comes_lift : Comes _ _ _ _ (.ok bkpTx1)) (Exposed.bind ?_ _)
    refine exposed_part_bind comes_lift hheight (fun blockHeight hblockHeight => ?_)
    exact exposed_bind hinfo (exposed_newTransaction (h blockHeight hblockHeight) _ _ _ _ _ _ _ _)

end Exposing

variable {setup view}

variable [Mul F] [NatCast F] [LT F] [DecidableLT F]

theorem exposed_createBackupTransactions {draw : NonceDraw} {wallet : Wallet} {statechainId : String}
    {duplicatedIndexes : Option (List UInt32)}
    (h : ¬Refused (prepare setup view wallet statechainId duplicatedIndexes draw)) (recipientAddress : String) :
    Exposed setup view draw
      (createBackupTransactions setup recipientAddress wallet statechainId duplicatedIndexes) := by
  obtain ⟨hchecked, h⟩ := not_refused_of_bind h
  refine Exposed.bind ?_ _
  refine exposed_part_bind (agrees_checkCoins _ _ _).comes hchecked (fun coinList hcoinList => ?_)
  replace h := h coinList hcoinList
  obtain ⟨first, coins, hfirst⟩ := exists_head_of_checked hcoinList
  rw [hfirst] at h ⊢
  refine exposed_bind (agrees_getBackupTxs _ _).comes ?_
  exact Exposed.bind (exposed_backUpCoin h _ _ _) _

theorem assures_refused {wallet : Wallet} {statechainId : String} {duplicatedIndexes : Option (List UInt32)}
    (h : ∀ draw, Refused (prepare setup view wallet statechainId duplicatedIndexes draw)) (recipientAddress : String) :
    Declines view (createBackupTransactions setup recipientAddress wallet statechainId duplicatedIndexes) := by
  refine assures_error_bind _ ?_
  have hchecks : Agrees setup view ⟨[], ""⟩ (checkCoins setup wallet statechainId duplicatedIndexes) _ :=
    agrees_checkCoins _ _ _
  have hstored : Agrees setup view ⟨[], ""⟩ (getBackupTxs wallet.name statechainId) _ := agrees_getBackupTxs _ _
  refine assures_part_bind hchecks (h ⟨[], ""⟩).of_bind.1 (fun coinList hcoinList => ?_)
  replace h := fun draw => (h draw).of_bind.2 coinList hcoinList
  obtain ⟨first, coins, hfirst⟩ := exists_head_of_checked hcoinList
  rw [hfirst] at h ⊢
  refine assures_part_bind hstored nofun (fun stored h => ?_)
  cases h
  exact assures_error_bind _ (assures_backUpCoin_refused h _ _ _)

end Request

section Spendable

variable (coin : Coin)

/-- A further deposit to the address of a coin, also one that has been sent before. -/
def IsDuplicate : Prop := coin.status = .duplicated ∨ coin.status = .inTransfer ∧ 0 < coin.duplicateIndex

/-- The coin's output is listed for its address, as deep in the chain as the client demands. -/
def Spendable : Prop :=
  ∃ address script unspent, coin.aggregatedAddress = some address ∧
    setup.btc.scriptOfAddress address setup.network = some script ∧ unspent ∈ view.unspents script ∧
    coin.utxoTxid = some unspent.txHash ∧ coin.utxoVout.map UInt32.toNat = some unspent.txPos.toNat ∧
    0 < unspent.height.toNat ∧
    unspent.height.toNat + setup.clientConfig.confirmationTarget.toNat ≤ view.height.toNat + 1

/-- The checks do not refuse the coin: it has been sent before, it has no address or a stored transaction
has no input, both of which are a panic, or its output is not listed, or at a height for which the
confirmations overflow. -/
def Unchecked : Prop :=
  coin.status ≠ .duplicated ∨ coin.aggregatedAddress = none ∨
    (∃ backupTx ∈ view.stored, getPreviousOutpoint setup.btc backupTx = .error .panic) ∨
    ∃ address script, coin.aggregatedAddress = some address ∧
      setup.btc.scriptOfAddress address setup.network = some script ∧
      ∀ unspent, listed view coin script = some unspent → isConfirmedAt setup view unspent = true

/-- A duplicate that cannot be spent and that no check refuses. -/
def Missed : Prop := IsDuplicate coin ∧ ¬Spendable setup view coin ∧ Unchecked setup view coin

variable {setup view} {coin}

theorem unchecked_of_checkConfirmedAt (h : checkConfirmedAt setup view coin = .ok ()) : Unchecked setup view coin := by
  by_cases hstatus : coin.status = .duplicated
  · rw [checkConfirmedAt, if_pos hstatus] at h
    obtain ⟨address, haddress, h⟩ := bind_eq_ok.mp h
    obtain ⟨script, hscript, h⟩ := bind_eq_ok.mp h
    refine .inr (.inr (.inr ⟨address, script, unwrap_eq_ok.mp haddress, orThrow_eq_ok.mp hscript, ?_⟩))
    intro unspent hunspent
    rw [hunspent] at h
    exact Bool.eq_true_of_not_eq_false (throwIf_eq_ok.mp h)
  · exact .inl hstatus

variable {wallet : Wallet} {statechainId : String} {duplicatedIndexes : Option (List UInt32)}

theorem refused_of_unspendable
    (hmissed : ∀ coin ∈ wallet.coins, Sent setup.btc view.stored statechainId duplicatedIndexes coin →
      ¬Missed setup view coin)
    (hcoin : coin ∈ wallet.coins) (hsent : Sent setup.btc view.stored statechainId duplicatedIndexes coin)
    (hduplicate : IsDuplicate coin) (hspendable : ¬Spendable setup view coin) :
    Refused (checkedCoins setup view wallet statechainId duplicatedIndexes) := by
  have hchecked : ¬Unchecked setup view coin := fun h => hmissed coin hcoin hsent ⟨hduplicate, hspendable, h⟩
  cases hresult : checkedCoins setup view wallet statechainId duplicatedIndexes with
  | ok coinList =>
    obtain ⟨rfl, -, -, hconfirmed⟩ := checkedCoins_eq_ok hresult
    obtain ⟨place, hplace⟩ := List.mem_iff_getElem?.mp hcoin
    have hmem : (coin, place) ∈ sentCoins setup view wallet statechainId duplicatedIndexes :=
      List.mem_filter.mpr ⟨List.mem_zipIdx_iff_getElem?.mpr hplace, decide_eq_true hsent⟩
    exact absurd (unchecked_of_checkConfirmedAt (hconfirmed _ hmem)) hchecked
  | error failure =>
    refine ⟨failure, ?_, rfl⟩
    rintro rfl
    obtain ⟨other, -, hpanic⟩ | ⟨other, hother, hstatus, haddress⟩ := panic_of_checkedCoins hresult
    · exact hchecked (.inr (.inr (.inl (hasMatchingTx_error (not_not.mp hpanic)).2)))
    · obtain ⟨hzip, hsent'⟩ := List.mem_filter.mp hother
      have hin := List.mem_of_getElem? (List.mem_zipIdx_iff_getElem?.mp hzip)
      refine hmissed other.1 hin (of_decide_eq_true hsent') ⟨.inl hstatus, ?_, .inr (.inl haddress)⟩
      rintro ⟨address, _, _, h, -⟩
      cases haddress.symm.trans h

end Spendable

section Causes

variable (wallet : Wallet) (statechainId : String) (duplicatedIndexes : Option (List UInt32))

/-- The coin is a duplicate whose address cannot be read or lists it with too few confirmations. -/
def Unconfirmed (coin : Coin) : Prop :=
  coin.status = .duplicated ∧ ∃ address, coin.aggregatedAddress = some address ∧
    ∀ script, setup.btc.scriptOfAddress address setup.network = some script →
      ∃ unspent, listed view coin script = some unspent ∧ isConfirmedAt setup view unspent = false

/-- The coin's keys cannot be read, or have no nonces. -/
def NoNonce (coin : Coin) : Prop :=
  ∀ key pubkey, setup.secp.privateKeyFromWif coin.userPrivkey = some key →
    setup.secp.publicKeyFromStr coin.userPubkey = some pubkey →
      ∀ sessionId nonces, setup.newMusigNoncePair sessionId key pubkey ≠ .ok nonces

/-- Nothing makes the checks panic, and the coin is the first one to be backed up, with the stored transactions. -/
structure ComesFirst (coin : Coin) (stored : List BackupTx) : Prop where
  readable : ∀ other ∈ wallet.coins.zipIdx, Readable setup view other.1
  addressed : ∀ other ∈ sentCoins setup view wallet statechainId duplicatedIndexes,
    other.1.status = .duplicated → other.1.aggregatedAddress ≠ none
  first : ∃ place,
    (sortConfirmedFirst (sentCoins setup view wallet statechainId duplicatedIndexes)).head? = some (coin, place)
  stored : filteredTransactions setup.btc coin view.stored = .ok stored

/-- What is refused with an error before the first request for a signature: an index out of range, an expired coin,
another number of main coins than one, a duplicate that is not confirmed, or a first coin without an address of its
own, a height to count from, or nonces. -/
inductive Hindered : Prop
  | index (index : UInt32) (hindex : index ∈ duplicatedIndexes.getD []) (hrange : wallet.coins.length ≤ index.toNat)
  | expired (before : List (Coin × ℕ)) (coin : Coin × ℕ) (after : List (Coin × ℕ))
    (hcoins : wallet.coins.zipIdx = before ++ coin :: after)
    (hread : ∀ other ∈ before ++ [coin], Readable setup view other.1)
    (hsent : Sent setup.btc view.stored statechainId duplicatedIndexes coin.1) (hexpired : Expired view coin.1)
  | main (hread : ∀ coin ∈ wallet.coins.zipIdx, Readable setup view coin.1)
    (hmain : ((sentCoins setup view wallet statechainId duplicatedIndexes).filter
      (fun coin => isMain coin.1)).length ≠ 1)
  | unconfirmed (before : List (Coin × ℕ)) (coin : Coin × ℕ) (after : List (Coin × ℕ))
    (hread : ∀ coin ∈ wallet.coins.zipIdx, Readable setup view coin.1)
    (hsent : sentCoins setup view wallet statechainId duplicatedIndexes = before ++ coin :: after)
    (hbefore : ∀ other ∈ before, other.1.status = .duplicated → other.1.aggregatedAddress ≠ none)
    (hcoin : Unconfirmed setup view coin.1)
  | address (coin : Coin) (hfirst : ComesFirst setup view wallet statechainId duplicatedIndexes coin [])
    (haddress : (∀ net, getNetwork wallet.network ≠ .ok net) ∨ setup.secp.publicKeyFromStr coin.userPubkey = none)
  | height (coin : Coin) (bkpTx1 : BackupTx) (stored : List BackupTx)
    (hfirst : ComesFirst setup view wallet statechainId duplicatedIndexes coin (bkpTx1 :: stored))
    (hheight : ∀ height, getBlockheight setup.btc bkpTx1 ≠ .ok height)
  | nonce (coin : Coin) (stored : List BackupTx)
    (hfirst : ComesFirst setup view wallet statechainId duplicatedIndexes coin stored)
    (haddress : stored = [] → ∃ address, getUserBackupAddress setup coin wallet.network = .ok address)
    (hnonce : NoNonce setup coin)

variable {setup view wallet statechainId duplicatedIndexes} {coin : Coin}

theorem refused_checkConfirmedAt : Refused (checkConfirmedAt setup view coin) ↔ Unconfirmed setup view coin := by
  unfold checkConfirmedAt Unconfirmed
  by_cases hstatus : coin.status = .duplicated
  · rw [if_pos hstatus, and_iff_right hstatus]
    cases coin.aggregatedAddress with
    | none =>
      refine iff_of_false ?_ ?_
      · rintro ⟨failure, hne, h⟩
        exact hne (Except.error.inj h).symm
      · rintro ⟨_, h, -⟩
        cases h
    | some address =>
      simp only [unwrap_some, ok_bind, Option.some.injEq, exists_eq_left']
      cases setup.btc.scriptOfAddress address setup.network with
      | none => exact iff_of_true ⟨_, Failure.noConfusion, rfl⟩ (fun _ h => absurd h (Option.some_ne_none _).symm)
      | some script =>
        have hscript : orFail "bitcoin::address::Error" (some script) = .ok script := rfl
        simp only [hscript, ok_bind, Option.some.injEq, forall_eq']
        cases listed view coin script with
        | none =>
          refine iff_of_false ?_ ?_
          · rintro ⟨_, -, h⟩
            cases h
          · rintro ⟨_, h, -⟩
            cases h
        | some unspent =>
          simp only [Option.some.injEq, exists_eq_left']
          exact refused_failIf
  · rw [if_neg hstatus]
    refine iff_of_false ?_ (fun h => hstatus h.1)
    rintro ⟨_, -, h⟩
    cases h

theorem refused_commitNonces : (∀ draw, Refused (commitNonces setup coin draw)) ↔ NoNonce setup coin := by
  constructor
  · intro h key pubkey hkey hpubkey sessionId nonces hnonces
    obtain ⟨failure, hne, hfailure⟩ := h ⟨sessionId, ""⟩
    simp only [commitNonces, publicKeyFromStr, hkey, hpubkey, hnonces, orErr_some, question_ok, ok_bind] at hfailure
    obtain h | ⟨_, -, h⟩ := bind_eq_error.mp hfailure
    · exact hne (orThrow_eq_error.mp h).2.symm
    · obtain h | ⟨_, -, h⟩ := bind_eq_error.mp h
      · exact hne (orThrow_eq_error.mp h).2.symm
      · cases h
  · intro h draw
    refine refused_bind orErr_ne_panic (fun key hkey => ?_)
    refine refused_bind orErr_ne_panic (fun pubkey hpubkey => ?_)
    cases hnonces : setup.newMusigNoncePair draw.sessionId key pubkey with
    | ok nonces => exact absurd hnonces (h key pubkey (orErr_eq_ok.mp hkey) (orErr_eq_ok.mp hpubkey) _ _)
    | error e => exact ⟨_, Failure.noConfusion, rfl⟩

theorem refused_getUserBackupAddress {network : String} :
    Refused (getUserBackupAddress setup coin network) ↔
      (∀ net, getNetwork network ≠ .ok net) ∨ setup.secp.publicKeyFromStr coin.userPubkey = none := by
  constructor
  · intro h
    obtain ⟨failure, -, h⟩ | ⟨net, -, h⟩ := refused_or_of_bind h
    · refine .inl (fun net hnet => ?_)
      cases hnet.symm.trans h
    · obtain ⟨failure, -, h⟩ | ⟨pubkey, -, h⟩ := refused_or_of_bind h
      · exact .inr (orThrow_eq_error.mp h).1
      · obtain ⟨failure, hne, h⟩ | ⟨script, -, _, -, h⟩ := refused_or_of_bind h
        · obtain h | ⟨_, -, h⟩ := bind_eq_error.mp h
          · exact absurd (orThrow_eq_error.mp h).2.symm hne
          · cases h
        · cases h
  · rintro (h | h)
    · exact refused_bind getNetwork_ne_panic (fun net hnet => absurd hnet (h net))
    · refine refused_bind getNetwork_ne_panic (fun net _ => refused_bind orErr_ne_panic (fun pubkey hpubkey => ?_))
      cases h.symm.trans (orErr_eq_ok.mp hpubkey)

theorem hindered_of_checkedCoins (h : Refused (checkedCoins setup view wallet statechainId duplicatedIndexes)) :
    Hindered setup view wallet statechainId duplicatedIndexes := by
  obtain h | ⟨_, -, h⟩ := refused_or_of_bind h
  · obtain ⟨before, index, after, hindexes, -, h⟩ := refused_of_forM h
    exact .index index (hindexes ▸ List.mem_append_right _ List.mem_cons_self) (refused_failIf.mp h)
  obtain h | ⟨selected, hselected, h⟩ := refused_or_of_bind h
  · obtain ⟨before, coin, after, hcoins, hread, hsent, hexpired⟩ := refused_selectedCoins.mp h
    exact .expired before coin after hcoins hread hsent hexpired
  obtain ⟨hread, rfl⟩ := selectedCoins_eq_ok hselected
  obtain h | ⟨_, -, h⟩ := refused_or_of_bind h
  · exact .main hread (refused_failIf.mp h)
  obtain h | ⟨_, -, _, -, h⟩ := refused_or_of_bind h
  · obtain ⟨before, coin, after, hsent, hbefore, h⟩ := refused_of_forM h
    exact .unconfirmed before coin after hread hsent
      (fun other hother => addressed_of_checkConfirmedAt (hbefore other hother)) (refused_checkConfirmedAt.mp h)
  · cases h

theorem ComesFirst.refused {stored : List BackupTx}
    (h : ComesFirst setup view wallet statechainId duplicatedIndexes coin stored) {draw : NonceDraw}
    (hrefused : Refused (firstRequest setup view wallet.network coin draw)) :
    Refused (prepare setup view wallet statechainId duplicatedIndexes draw) := by
  have hchecked : checkedCoins setup view wallet statechainId duplicatedIndexes ≠ .error .panic := by
    intro hpanic
    obtain ⟨other, hother, hread⟩ | ⟨other, hother, hstatus, hnone⟩ := panic_of_checkedCoins hpanic
    · exact hread (h.readable other hother)
    · exact h.addressed other hother hstatus hnone
  refine refused_bind hchecked (fun coinList hcoinList => ?_)
  obtain ⟨place, hfirst⟩ := h.first
  rw [(checkedCoins_eq_ok hcoinList).1, hfirst]
  exact hrefused

theorem ComesFirst.hindered {stored : List BackupTx}
    (hfirst : ComesFirst setup view wallet statechainId duplicatedIndexes coin stored)
    (h : ∀ draw, Refused (firstRequest setup view wallet.network coin draw)) :
    Hindered setup view wallet statechainId duplicatedIndexes := by
  replace h := fun draw => (h draw).of_bind.2 stored hfirst.stored
  cases stored with
  | nil =>
    obtain haddress | ⟨address, haddress, -⟩ := refused_or_of_bind (h ⟨[], ""⟩)
    · exact .address coin hfirst (refused_getUserBackupAddress.mp haddress)
    · exact .nonce coin [] hfirst (fun _ => ⟨address, haddress⟩)
        (refused_commitNonces.mp fun draw => (h draw).of_bind.2 address haddress)
  | cons bkpTx1 stored =>
    obtain ⟨failure, -, hheight⟩ | ⟨height, hheight, -⟩ := refused_or_of_bind (h ⟨[], ""⟩)
    · refine .height coin bkpTx1 stored hfirst (fun height hok => ?_)
      cases hok.symm.trans hheight
    · exact .nonce coin _ hfirst (fun hnil => absurd hnil (List.cons_ne_nil _ _))
        (refused_commitNonces.mp fun draw => (h draw).of_bind.2 height hheight)

theorem refused_prepare_iff :
    (∀ draw, Refused (prepare setup view wallet statechainId duplicatedIndexes draw)) ↔
      Hindered setup view wallet statechainId duplicatedIndexes := by
  constructor
  · intro h
    obtain hchecked | ⟨coinList, hchecked, -⟩ := refused_or_of_bind (h ⟨[], ""⟩)
    · exact hindered_of_checkedCoins hchecked
    obtain ⟨first, coins, hfirst⟩ := exists_head_of_checked hchecked
    replace h := fun draw => (h draw).of_bind.2 coinList hchecked
    obtain ⟨rfl, hread, -, hconfirmed⟩ := checkedCoins_eq_ok hchecked
    rw [hfirst] at h
    replace h : ∀ draw, Refused (firstRequest setup view wallet.network first.1 draw) := h
    obtain ⟨failure, hne, hstored⟩ | ⟨stored, hstored, -⟩ := refused_or_of_bind (h ⟨[], ""⟩)
    · exact absurd (filteredTransactions_error hstored) hne
    · refine ComesFirst.hindered ⟨hread, fun other hother => ?_, ⟨first.2, ?_⟩, hstored⟩ h
      · exact addressed_of_checkConfirmedAt (hconfirmed other hother)
      · rw [hfirst]
        rfl
  · intro h draw
    have hindexes : checkIndexes wallet duplicatedIndexes ≠ .error .panic := forM_ne_panic fun _ _ => failIf_ne_panic
    have hselects : (∀ coin ∈ wallet.coins.zipIdx, Readable setup view coin.1) →
        selectedCoins setup view statechainId duplicatedIndexes wallet.coins.zipIdx ≠ .error .panic := by
      intro hread hpanic
      obtain ⟨coin, hmem, hcoin⟩ := panic_of_selectedCoins hpanic
      exact hcoin (hread coin hmem)
    cases h with
    | index index hindex hrange =>
      obtain ⟨before, after, hsplit⟩ := List.append_of_mem hindex
      refine Refused.bind (Refused.bind ?_ _) _
      rw [checkIndexes, hsplit]
      exact refused_forM (fun _ _ => failIf_ne_panic) (refused_failIf.mpr hrange)
    | expired before coin after hcoins hread hsent hexpired =>
      refine Refused.bind (refused_bind hindexes (fun _ _ => Refused.bind ?_ _)) _
      exact refused_selectedCoins.mpr ⟨before, coin, after, hcoins, hread, hsent, hexpired⟩
    | main hread hmain =>
      refine Refused.bind (refused_bind hindexes (fun _ _ => ?_)) _
      refine refused_bind (hselects hread) (fun selected hselected => Refused.bind ?_ _)
      rw [(selectedCoins_eq_ok hselected).2]
      exact refused_failIf.mpr hmain
    | unconfirmed before coin after hread hsent hbefore hcoin =>
      refine Refused.bind (refused_bind hindexes (fun _ _ => ?_)) _
      refine refused_bind (hselects hread) (fun selected hselected => ?_)
      refine refused_bind failIf_ne_panic (fun _ _ => Refused.bind ?_ _)
      rw [(selectedCoins_eq_ok hselected).2.trans hsent]
      exact refused_forM (fun other hother => checkConfirmedAt_ne_panic (hbefore other hother))
        (refused_checkConfirmedAt.mpr hcoin)
    | address coin hfirst haddress =>
      refine hfirst.refused ?_
      rw [firstRequest, hfirst.stored, ok_bind]
      exact (refused_getUserBackupAddress.mpr haddress).bind _
    | height coin bkpTx1 stored hfirst hheight =>
      refine hfirst.refused ?_
      rw [firstRequest, hfirst.stored, ok_bind]
      exact refused_bind getBlockheight_ne_panic (fun height hok => absurd hok (hheight height))
    | nonce coin stored hfirst haddress hnonce =>
      refine hfirst.refused ?_
      rw [firstRequest, hfirst.stored, ok_bind]
      cases stored with
      | nil =>
        obtain ⟨address, haddress⟩ := haddress rfl
        refine refused_bind ?_ (fun _ _ => refused_commitNonces.mpr hnonce draw)
        rw [haddress]
        exact pure_ne_panic
      | cons bkpTx1 stored =>
        exact refused_bind getBlockheight_ne_panic (fun _ _ => refused_commitNonces.mpr hnonce draw)

end Causes

section Signing

variable [Mul F] [NatCast F] [LT F] [DecidableLT F]

/-- The transfer returns an error, and no signature has been asked for. -/
def Refrains (recipientAddress : String) (wallet : Wallet) (statechainId : String)
    (duplicatedIndexes : Option (List UInt32)) (choices : ℕ → (c : Call F) → Reply c) : Prop :=
  (∃ failure, failure ≠ .panic ∧
    (exec reply (createBackupTransactions setup recipientAddress wallet statechainId duplicatedIndexes).run choices ()).1 =
      some (.error failure)) ∧
  ∀ c ∈ calls reply (createBackupTransactions setup recipientAddress wallet statechainId duplicatedIndexes).run
    choices (), ¬Cosigns c

/-- Every duplicate that goes along is spendable, or the transfer refrains from any signature, exactly
where no duplicate is missed by the checks, or where something else is refused before. -/
theorem duplicates_spendable_iff (recipientAddress : String) (wallet : Wallet) (statechainId : String)
    (duplicatedIndexes : Option (List UInt32)) :
    (∀ choices : ℕ → (c : Call F) → Reply c, (∀ i c, view.Allows c (choices i c)) →
      (∀ coin ∈ wallet.coins, Sent setup.btc view.stored statechainId duplicatedIndexes coin → IsDuplicate coin →
        Spendable setup view coin) ∨
      Refrains setup recipientAddress wallet statechainId duplicatedIndexes choices) ↔
    (∀ coin ∈ wallet.coins, Sent setup.btc view.stored statechainId duplicatedIndexes coin → ¬Missed setup view coin) ∨
      Hindered setup view wallet statechainId duplicatedIndexes := by
  rw [← refused_prepare_iff]
  constructor
  · intro h
    by_contra hcondition
    obtain ⟨hmissed, hprepare⟩ := not_or.mp hcondition
    obtain ⟨draw, hdraw⟩ := not_forall.mp hprepare
    obtain hspendable | ⟨⟨failure, hne, hfailure⟩, hcalls⟩ :=
      h (fun _ => view.answer setup draw) (fun _ => view.allows_of_told (fun _ _ => rfl) rfl (fun _ => rfl))
    · exact hmissed (fun coin hcoin hsent hmiss => hmiss.2.1 (hspendable coin hcoin hsent hmiss.1))
    · obtain hpanic | ⟨c, hc, hcosigns⟩ := exposed_createBackupTransactions hdraw recipientAddress
      · cases hfailure.symm.trans (congrArg Prod.fst hpanic)
        exact hne rfl
      · exact hcalls c hc hcosigns
  · intro h choices hallows
    by_cases hspendable : ∀ coin ∈ wallet.coins, Sent setup.btc view.stored statechainId duplicatedIndexes coin →
        IsDuplicate coin → Spendable setup view coin
    · exact .inl hspendable
    have hrefused : ∀ draw, Refused (prepare setup view wallet statechainId duplicatedIndexes draw) := by
      obtain hmissed | hrefused := h
      · push Not at hspendable
        obtain ⟨coin, hcoin, hsent, hduplicate, hspendable⟩ := hspendable
        exact fun draw => (refused_of_unspendable hmissed hcoin hsent hduplicate hspendable).bind _
      · exact hrefused
    have hassures := assures_refused hrefused recipientAddress
    have hadmits : Admits reply (fun answer c s => view.Allows c (reply answer c s).1)
        (createBackupTransactions setup recipientAddress wallet statechainId duplicatedIndexes).run choices () :=
      admits_of_replies (fun i c _ => hallows i c)
    obtain ⟨r, hr, hresult⟩ := Relies.exec hassures hadmits
    cases r with
    | ok result => exact hresult.elim
    | error failure => exact .inr ⟨⟨failure, hresult, hr⟩, Relies.calls hassures hadmits⟩

end Signing

section Seven

open Client.LocktimeGuard

def secondDeposit : Coin :=
  { fundedCoin with status := .duplicated, utxoTxid := some "h", utxoVout := some 0, duplicateIndex := 1 }

/-- The second deposit has come with the first one, in a transfer. -/
def sentWithIt : BackupTx :=
  { sentOnce with txN := 2, tx := wireBtc.serialize (unsignedTx ⟨"h", 0⟩ 1100 ⟨1, []⟩) }

def twoDeposits : Wallet := ⟨"wallet", "regtest", [], [fundedCoin, secondDeposit]⟩

/-- The electrum server lists the outputs that are given. -/
def listing (unspents : List Unspent) : View := ⟨[sentOnce, sentWithIt], fun _ => unspents, 1000⟩

def signing (unspents : List Unspent) : (c : Call ℕ) → Reply c
  | .getBackupTxs _ _ => (.ok [sentOnce, sentWithIt] : Except String (List BackupTx))
  | .blockHeadersSubscribeRaw => (.ok 1000 : Except String UInt64)
  | .scriptListUnspent _ => (.ok unspents : Except String (List Unspent))
  | .infoConfig => (.ok ⟨1000, 10, 1⟩ : Except String (InfoConfig ℕ))
  | c => obliging c

theorem allows_signing (unspents : List Unspent) (c : Call ℕ) : (listing unspents).Allows c (signing unspents c) :=
  (listing unspents).allows_of_told (fun _ _ => rfl) rfl (fun _ => rfl) c

/-- A second deposit that is listed in the last block can go along. -/
theorem duplicates_spendable_seven :
    (∀ coin ∈ twoDeposits.coins, Sent wireBtc [sentOnce, sentWithIt] "statechain" (some [1]) coin →
      IsDuplicate coin → Spendable sevenSetup (listing [⟨"h", 0, 1000, 1000⟩]) coin) ∨
    Refrains sevenSetup "ml" twoDeposits "statechain" (some [1]) (fun _ => signing [⟨"h", 0, 1000, 1000⟩]) := by
  refine (duplicates_spendable_iff sevenSetup (listing [⟨"h", 0, 1000, 1000⟩]) "ml" twoDeposits "statechain"
    (some [1])).mpr (.inl ?_) (fun _ => signing [⟨"h", 0, 1000, 1000⟩]) (fun _ => allows_signing _)
  rintro coin hcoin - ⟨hduplicate, hspendable, -⟩
  obtain rfl | hcoin := List.mem_cons.mp hcoin
  · cases hduplicate with
    | inl h => cases h
    | inr h => cases h.1
  · cases List.mem_singleton.mp hcoin
    exact hspendable ⟨"address", [], ⟨"h", 0, 1000, 1000⟩, rfl, rfl, List.mem_singleton.mpr rfl, rfl, rfl, by decide,
      by decide⟩

/-- A second deposit that has been spent is not listed any more. It goes along all the same. -/
theorem spent_duplicate_seven :
    (∀ c, (listing []).Allows c (signing [] c)) ∧
    ¬((∀ coin ∈ twoDeposits.coins, Sent wireBtc [sentOnce, sentWithIt] "statechain" (some [1]) coin → IsDuplicate coin →
        Spendable sevenSetup (listing []) coin) ∨
      Refrains sevenSetup "ml" twoDeposits "statechain" (some [1]) (fun _ => signing [])) := by
  have hsigned : ((exec reply (createBackupTransactions sevenSetup "ml" twoDeposits "statechain" (some [1])).run
      (fun _ => signing []) ()).1.any Except.isOk) = true := by decide +kernel
  refine ⟨allows_signing [], ?_⟩
  rintro (hspendable | ⟨⟨failure, -, hfailure⟩, -⟩)
  · have hsent : Sent wireBtc [sentOnce, sentWithIt] "statechain" (some [1]) secondDeposit := .inr rfl
    obtain ⟨_, _, unspent, -, -, hunspent, -⟩ :=
      hspendable secondDeposit (List.mem_cons_of_mem _ List.mem_cons_self) hsent (.inl rfl)
    cases hunspent
  · rw [hfailure] at hsigned
    cases hsigned

end Seven

end MercuryLayer.Client.Duplicates
