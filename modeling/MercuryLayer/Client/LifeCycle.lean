import MercuryLayer.Client.BroadcastBackupTx
import MercuryLayer.Client.CoinSteps
import MercuryLayer.Client.Deposit
import MercuryLayer.Client.Withdraw
import MercuryLayer.Library.Monitors

namespace MercuryLayer.Client.LifeCycle

open Client.CoinSteps Client.Operations
open Client.TransferReceiver (anyhow_eq_ok)
open Client.Transaction hiding Call Reply
open Error Library.Matching Library.Monitors Library.Programs Library.Tables Library.Validation WalletData

section Ledger

variable {E K F α β : Type} {kit : Kit E K F}

/-- Whether the wallet may be saved over another one. -/
def Follows (old new : Wallet) : Prop := new.name = old.name ∧ Continues Steps old.coins new.coins

theorem follows_of_forall₂ {old new : Wallet} (hname : new.name = old.name)
    (h : List.Forall₂ Steps old.coins new.coins) : Follows old new := ⟨hname, continues_of_forall₂ h⟩

/-- What an operation knows to be in the file, as long as no other one runs, and that it only saves what
may follow it. -/
def ledger : Monitor (Call F) Reply (Option Wallet) where
  Allows seen
    | .sending (.updateWallet wallet) => ∃ old, seen = some old ∧ Follows old wallet
    | _ => True
  note seen
    | .sending (.getWallet _), reply => match (reply : Except String Wallet) with
      | .ok wallet => some wallet
      | .error _ => seen
    | .sending (.updateWallet wallet), reply => match (reply : Except String Unit) with
      | .ok _ => some wallet
      | .error _ => none
    | _, _ => seen

/-- An operation that saves only what may follow what it has read. -/
def Orderly (p : Operation F α) (seen : Option Wallet) : Prop :=
  Keeps ledger (fun _ _ => True) (fun _ => True) p seen

theorem ledger_offWallet (seen : Option Wallet) (c : Call F) (hc : OffWallet c) :
    ledger.Allows seen c ∧ ∀ reply, ledger.note seen c reply = seen := by
  cases c with
  | sending c => cases c <;> first | exact ⟨trivial, fun _ => rfl⟩ | cases hc
  | _ => exact ⟨trivial, fun _ => rfl⟩

variable {seen : Option Wallet}

theorem orderly_of_yields {post : α → Prop} {p : Operation F α} (h : Yields OffWallet post p) : Orderly p seen :=
  keeps_mono (fun _ _ _ => trivial) (fun _ _ => trivial) (keeps_of_yields h ledger_offWallet)

theorem orderly_lift_bind {r : Res α} {f : α → Operation F β} (hf : ∀ a, r = .ok a → Orderly (f a) seen) :
    Orderly (liftM r >>= f) seen :=
  keeps_bind (keeps_lift trivial hf)

theorem orderly_yields_bind {post : α → Prop} {p : Operation F α} {f : α → Operation F β} (hp : Yields Quiet post p)
    (hf : ∀ a, post a → Orderly (f a) seen) : Orderly (p >>= f) seen :=
  keeps_yields_bind hp (fun seen c hc => ledger_offWallet seen c (offWallet_of_quiet hc)) trivial hf

theorem orderly_getWallet_bind {walletName : String} {f : Wallet → Operation F β}
    (hf : ∀ wallet, Orderly (f wallet) (some wallet)) : Orderly (getWallet walletName >>= f) seen := by
  refine keeps_bind (keeps_ask_bind (Call.sending (.getWallet walletName)) _ trivial (fun reply => ?_))
  refine keeps_lift trivial (fun wallet hwallet => ?_)
  cases anyhow_eq_ok.mp hwallet
  exact hf wallet

theorem keeps_updateWallet {old wallet : Wallet} (h : Follows old wallet) :
    Keeps ledger (fun _ seen => seen = some wallet) (fun _ => True) (updateWallet wallet : Operation F Unit)
      (some old) := by
  refine keeps_ask_bind (Call.sending (.updateWallet wallet)) _ ⟨old, rfl, h⟩ (fun reply => ?_)
  refine keeps_lift trivial (fun _ hstored => ?_)
  cases anyhow_eq_ok.mp hstored
  rfl

theorem orderly_updateWallet_bind {old wallet : Wallet} {f : Unit → Operation F β} (h : Follows old wallet)
    (hf : Orderly (f ()) (some wallet)) : Orderly (updateWallet wallet >>= f) (some old) := by
  refine keeps_bind (keeps_mono (fun _ seen hseen => ?_) (fun _ _ => trivial) (keeps_updateWallet h))
  rw [hseen]
  exact hf

theorem orderly_updateWallet {old wallet : Wallet} (h : Follows old wallet) :
    Orderly (updateWallet wallet : Operation F Unit) (some old) :=
  keeps_mono (fun _ _ _ => trivial) (fun _ _ => trivial) (keeps_updateWallet h)

theorem orderly_send {p : Action F α}
    (h : Keeps (ledger.restrict Call.sending) (fun _ _ => True) (fun _ => True) p seen) : Orderly (send p) seen :=
  holds_embed h

theorem yields_completeWithdraw (statechainId signedStatechainId : String) :
    Yields OffWallet (fun _ => True) (completeWithdraw statechainId signedStatechainId : Operation F Unit) := by
  refine yields_ask_bind (Call.withdrawComplete ⟨statechainId, signedStatechainId⟩) _ trivial (fun reply => ?_)
  exact yields_lift_bind (fun response _ => yields_lift fun _ _ => trivial)

end Ledger

section Deposits

open Client.Deposit

variable {E K F : Type} {kit : Kit E K F} {seen : Option Wallet}

theorem orderly_newTransferAddress (walletName : String) : Orderly (newTransferAddress kit walletName) seen := by
  refine orderly_getWallet_bind (fun wallet => ?_)
  refine orderly_lift_bind (fun coin _ => ?_)
  refine orderly_updateWallet_bind ⟨rfl, (continues_refl steps_refl wallet.coins).append_right [coin]⟩ ?_
  exact keeps_pure trivial

def EndsNew (wallet : Wallet) : Prop := ∃ coins coin, wallet.coins = coins ++ [coin] ∧ coin.status = .initialised

theorem endsNew_modifyLast {wallet wallet' : Wallet} {f : Coin → Coin} (h : EndsNew wallet)
    (hmodify : modifyLast wallet f = .ok wallet')
    (hf : ∀ coin, identityOf (f coin) = identityOf coin ∧ (f coin).status = coin.status) : EndsNew wallet' ∧ Follows wallet wallet' := by
  obtain ⟨coins, coin, hcoins, hstatus⟩ := h
  obtain ⟨last, hlast, hwallet'⟩ := bind_eq_ok.mp hmodify
  cases pure_eq_ok.mp hwallet'
  rw [hcoins, unwrap_eq_ok, List.getLast?_concat] at hlast
  cases Option.some.inj hlast
  have hnew : wallet.coins.dropLast ++ [f coin] = coins ++ [f coin] := by rw [hcoins, List.dropLast_concat]
  refine ⟨⟨coins, f coin, hnew, (hf coin).2.trans hstatus⟩, follows_of_forall₂ rfl ?_⟩
  rw [hcoins]
  have hcoin : Steps coin (f coin) := ⟨(hf coin).1, fun h => absurd hstatus h, .inl (hf coin).2⟩
  rw [List.dropLast_concat]
  exact List.rel_append (List.forall₂_same.mpr fun coin _ => steps_refl coin) (.cons hcoin .nil)

theorem keeps_init {wallet : Wallet} (tokenId : String) :
    Keeps ledger (fun wallet' seen => seen = some wallet' ∧ EndsNew wallet') (fun _ => True)
      (init kit wallet tokenId) (some wallet) := by
  refine keeps_bind (keeps_lift trivial (fun coin hcoin => ?_))
  have hnew : EndsNew { wallet with coins := wallet.coins ++ [coin] } :=
    ⟨wallet.coins, coin, rfl, MercuryLayer.Deposit.getNewCoin_status hcoin⟩
  have hfollows : Follows wallet { wallet with coins := wallet.coins ++ [coin] } :=
    ⟨rfl, (continues_refl steps_refl wallet.coins).append_right [coin]⟩
  refine keeps_bind (keeps_mono (fun _ seen hseen => ?_) (fun _ _ => trivial) (keeps_updateWallet hfollows))
  subst hseen
  refine keeps_bind (keeps_lift trivial (fun depositMsg1 _ => ?_))
  refine keeps_ask_bind (Call.depositInit depositMsg1) _ trivial (fun reply => ?_)
  refine keeps_bind (keeps_lift trivial (fun response _ => ?_))
  refine keeps_bind (keeps_lift trivial (fun _ _ => ?_))
  refine keeps_bind (keeps_lift trivial (fun depositMsg1Response _ => ?_))
  refine keeps_bind (keeps_lift trivial (fun depositInitResult _ => ?_))
  refine keeps_bind (keeps_lift trivial (fun wallet' hwallet' => ?_))
  obtain ⟨hnew', hfollows'⟩ := endsNew_modifyLast hnew hwallet' (fun _ => ⟨rfl, rfl⟩)
  refine keeps_bind (keeps_mono (fun _ seen hseen => ?_) (fun _ _ => trivial) (keeps_updateWallet hfollows'))
  exact keeps_pure ⟨hseen, hnew'⟩

theorem orderly_getDepositBitcoinAddress (walletName tokenId : String) (amount : UInt32) :
    Orderly (getDepositBitcoinAddress kit walletName tokenId amount) seen := by
  refine orderly_lift_bind (fun tokenId _ => ?_)
  refine orderly_getWallet_bind (fun wallet => ?_)
  refine keeps_bind (keeps_mono (fun wallet' seen hseen => ?_) (fun _ _ => trivial) (keeps_init tokenId))
  obtain ⟨rfl, hnew⟩ := hseen
  refine orderly_lift_bind (fun coin _ => ?_)
  refine orderly_lift_bind (fun aggregatedPublicKey _ => ?_)
  refine orderly_lift_bind (fun wallet'' hwallet'' => ?_)
  refine orderly_updateWallet_bind (endsNew_modifyLast hnew hwallet'' (fun _ => ⟨rfl, rfl⟩)).2 ?_
  exact keeps_pure trivial

end Deposits

section Operations

variable {E K F : Type} {kit : Kit E K F} {seen : Option Wallet}

section Update

variable [DecidableEq E] [Mul F] [NatCast F] [LT F] [DecidableLT F]

theorem orderly_updateCoins (walletName : String) : Orderly (CoinStatus.updateCoins kit walletName) seen := by
  refine orderly_getWallet_bind (fun wallet => ?_)
  refine orderly_yields_bind (yields_updateEach _ _ _) (fun r hr => ?_)
  refine orderly_yields_bind (yields_duplicatesFor _ _) (fun duplicatedCoins _ => ?_)
  exact orderly_updateWallet ⟨rfl, continues_invalidateDuplicated hr⟩

end Update

theorem follows_set {wallet wallet' : Wallet} {place : ℕ} {old new : Coin} (hname : wallet'.name = wallet.name)
    (hcoins : wallet'.coins = wallet.coins.set place new) (hold : wallet.coins[place]? = some old)
    (hsteps : Steps old new) : Follows wallet wallet' := by
  refine follows_of_forall₂ hname ?_
  rw [hcoins]
  exact forall₂_set (List.forall₂_same.mpr fun coin _ => steps_refl coin) hold hsteps

variable [Mul F] [NatCast F] [LT F] [DecidableLT F]

omit [Mul F] [NatCast F] [LT F] [DecidableLT F] in
theorem yields_getNewX1 (statechainId signedStatechainId recipientAuthPubkey : String) (batchId : Option String) :
    Yields KeepsWallet (fun _ => True)
      (TransferSender.getNewX1 statechainId signedStatechainId recipientAuthPubkey batchId : Action F String) := by
  refine yields_ask_bind (Transaction.Call.transferSender _) _ trivial (fun reply => ?_)
  refine yields_lift_bind (fun response _ => ?_)
  refine yields_lift_bind (fun answer _ => ?_)
  exact yields_lift_bind (fun _ _ => yields_lift fun _ _ => trivial)

theorem orderly_transferSender (recipientAddress walletName statechainId : String)
    (duplicatedIndexes : Option (List UInt32)) (forceSend : Bool) (batchId : Option String) :
    Orderly (send (TransferSender.execute kit.toSetup recipientAddress walletName statechainId duplicatedIndexes
      forceSend batchId)) seen := by
  have hquiet : ∀ (seen : Option Wallet) (c : Transaction.Call F), KeepsWallet c →
      (ledger.restrict Call.sending).Allows seen c ∧
        ∀ reply, (ledger.restrict Call.sending).note seen c reply = seen :=
    fun seen c hc => ledger_offWallet seen (.sending c) hc
  refine orderly_send ?_
  refine keeps_ask_bind (Transaction.Call.getWallet walletName) _ trivial (fun reply => ?_)
  refine keeps_bind (keeps_lift trivial (fun wallet hwallet => ?_))
  cases anyhow_eq_ok.mp hwallet
  refine keeps_bind (keeps_lift trivial (fun _ _ => ?_))
  refine keeps_bind (keeps_lift trivial (fun _ _ => ?_))
  refine keeps_bind (keeps_lift trivial (fun _ _ => ?_))
  refine keeps_bind (keeps_lift trivial (fun coin _ => ?_))
  refine keeps_bind (keeps_lift trivial (fun statechainId _ => ?_))
  refine keeps_bind (keeps_lift trivial (fun signedStatechainId _ => ?_))
  refine keeps_bind (keeps_lift trivial (fun recipient _ => ?_))
  refine keeps_yields_bind (yields_getNewX1 _ _ _ _) hquiet trivial (fun x1 _ => ?_)
  refine keeps_bind (keeps_lift trivial (fun inputTxid _ => ?_))
  refine keeps_bind (keeps_lift trivial (fun inputVout _ => ?_))
  refine keeps_bind (keeps_lift trivial (fun coinAmount _ => ?_))
  refine keeps_bind (keeps_lift trivial (fun transferSignature _ => ?_))
  refine keeps_yields_bind (yields_createBackupTransactions _ _ _ _) hquiet trivial (fun r hr => ?_)
  obtain ⟨wallet', backupTransactions⟩ := r
  have hfollows : List.Forall₂ Steps wallet.coins wallet'.coins := by
    refine hr.2.imp (fun old new hnew => ?_)
    obtain rfl | hsent := hnew
    · exact steps_refl new
    · exact hsent.steps
  refine keeps_bind (keeps_lift trivial (fun payload _ => ?_))
  refine keeps_ask_bind (Transaction.Call.transferUpdateMsg payload) _ trivial (fun reply => ?_)
  refine keeps_bind (keeps_lift trivial (fun response _ => ?_))
  refine keeps_bind (keeps_lift trivial (fun answer _ => ?_))
  refine keeps_bind (keeps_lift trivial (fun _ _ => ?_))
  refine keeps_ask_bind (Transaction.Call.updateBackupTxs wallet'.name statechainId backupTransactions) _ trivial
    (fun reply => ?_)
  refine keeps_bind (keeps_lift trivial (fun _ _ => ?_))
  refine keeps_ask_bind Transaction.Call.utcNow _ trivial (fun date => ?_)
  refine keeps_ask_bind (Transaction.Call.updateWallet _) _ ⟨wallet, rfl, follows_of_forall₂ hr.1 hfollows⟩
    (fun reply => ?_)
  exact keeps_lift trivial (fun _ _ => trivial)

theorem mayBecome_withdrawing {status : CoinStatus}
    (h : ¬(status ≠ .confirmed ∧ status ≠ .inTransfer ∧ status ≠ .duplicated)) :
    mayBecome status .withdrawing = true := by
  revert h
  cases status <;> decide

theorem orderly_withdraw (walletName statechainId toAddress : String) (feeRate : Option F)
    (duplicatedIndex : Option UInt32) :
    Orderly (Withdraw.execute kit walletName statechainId toAddress feeRate duplicatedIndex) seen := by
  refine orderly_getWallet_bind (fun wallet => ?_)
  refine orderly_lift_bind (fun _ _ => ?_)
  refine orderly_lift_bind (fun _ _ => ?_)
  refine orderly_yields_bind (yields_send_quiet (yields_getBackupTxs _ _)) (fun backupTxs _ => ?_)
  refine orderly_lift_bind (fun _ _ => ?_)
  refine orderly_lift_bind (fun target htarget => ?_)
  obtain ⟨coin, place⟩ := target
  refine orderly_lift_bind (fun _ _ => ?_)
  refine orderly_lift_bind (fun _ hstatus => ?_)
  refine orderly_yields_bind (Withdraw.yields_signAndBroadcast _ _ _ _ _) (fun r hr => ?_)
  obtain ⟨signed, txid⟩ := r
  refine orderly_lift_bind (fun amount _ => ?_)
  refine orderly_yields_bind (yields_createActivity _ _ _) (fun activity _ => ?_)
  refine orderly_lift_bind (fun signedStatechainId _ => ?_)
  have hplace : wallet.coins[place]? = some coin := getElem?_of_minByLocktime (orThrow_eq_ok.mp htarget)
  obtain ⟨coinNonce, serverPublicNonce, rfl⟩ := hr
  refine orderly_updateWallet_bind (follows_set rfl rfl hplace (steps_of_same rfl rfl ?_)) ?_
  · exact mayBecome_withdrawing (throwIf_eq_ok.mp hstatus)
  · split_ifs
    · exact keeps_pure trivial
    · exact orderly_of_yields (yields_completeWithdraw _ _)

theorem yields_broadcast (wallet : Wallet) (coin : Coin) (backupTxs : List BackupTx) (toAddress : Option String)
    (feeRate : Option F) :
    Yields Quiet (fun _ => True) (BroadcastBackupTx.broadcast kit wallet coin backupTxs toAddress feeRate) := by
  refine yields_lift_bind (fun backupTx _ => ?_)
  cases toAddress with
  | none => exact yields_transactionBroadcastRaw _
  | some toAddress =>
    have hrate : Yields Quiet (fun _ => True) (BroadcastBackupTx.feeRateOr kit feeRate) := by
      cases feeRate with
      | some feeRate => exact yields_pure trivial
      | none =>
        refine yields_ask_bind Call.estimateFee _ trivial (fun estimate => ?_)
        exact yields_lift_bind (fun _ _ => yields_pure trivial)
    refine yields_bind hrate (fun feeRate _ => ?_)
    refine yields_lift_bind (fun cpfpTx _ => ?_)
    exact yields_bind (yields_transactionBroadcastRaw _) (fun _ _ => yields_transactionBroadcastRaw _)

theorem orderly_broadcastBackupTx (walletName statechainId : String) (toAddress : Option String)
    (feeRate : Option F) :
    Orderly (BroadcastBackupTx.execute kit walletName statechainId toAddress feeRate) seen := by
  refine orderly_getWallet_bind (fun wallet => ?_)
  refine orderly_lift_bind (fun _ _ => ?_)
  refine orderly_yields_bind (yields_send_quiet (yields_getBackupTxs _ _)) (fun backupTxs _ => ?_)
  refine orderly_lift_bind (fun target htarget => ?_)
  obtain ⟨coin, place⟩ := target
  refine orderly_lift_bind (fun _ hstatus => ?_)
  refine orderly_yields_bind (yields_broadcast _ _ _ _ _) (fun txid _ => ?_)
  refine orderly_lift_bind (fun signedStatechainId _ => ?_)
  have hplace : wallet.coins[place]? = some coin := getElem?_of_minByLocktime (orThrow_eq_ok.mp htarget)
  refine orderly_updateWallet_bind (follows_set rfl rfl hplace (steps_of_same rfl rfl ?_)) ?_
  · exact mayBecome_withdrawing (fun h => throwIf_eq_ok.mp hstatus ⟨h.1, h.2.1⟩)
  · exact orderly_of_yields (yields_completeWithdraw _ _)

end Operations

section Receipt

open Client.Receive

variable {E K F : Type} {kit : Kit E K F} {seen : Option Wallet}

theorem orderly_receive [DecidableEq E] [Add F] [Sub F] [Div F] [NatCast F] [LT F] [DecidableLT F]
    (walletName : String) : Orderly (Receive.execute kit walletName) seen := by
  refine orderly_getWallet_bind (fun wallet => ?_)
  have hstart : Holding wallet.coins ⟨wallet.coins, wallet.activities, [], false, []⟩ :=
    ⟨wallet.coins, [], (List.append_nil _).symm, List.forall₂_same.mpr fun coin _ => gathers_refl coin⟩
  refine orderly_yields_bind (yields_gatherMessages (gathering_holding wallet wallet.coins) hstart)
    (fun gathered hgathered => ?_)
  refine orderly_updateWallet_bind ⟨rfl, continues_of_holding hgathered⟩ ?_
  exact keeps_pure trivial

end Receipt

section Runs

variable {E K F : Type} (kit : Kit E K F) [DecidableEq E] [Add F] [Sub F] [Mul F] [Div F] [NatCast F] [LT F]
  [DecidableLT F]

/-- What the client can be asked to do. -/
inductive Request (F : Type)
  | updateCoins (walletName : String)
  | transferSender (recipientAddress walletName statechainId : String) (duplicatedIndexes : Option (List UInt32))
    (forceSend : Bool) (batchId : Option String)
  | transferReceiver (walletName : String)
  | withdraw (walletName statechainId toAddress : String) (feeRate : Option F) (duplicatedIndex : Option UInt32)
  | broadcastBackupTx (walletName statechainId : String) (toAddress : Option String) (feeRate : Option F)
  | getDepositBitcoinAddress (walletName tokenId : String) (amount : UInt32)
  | newTransferAddress (walletName : String)

def program : Request F → Prog (Call F) Reply Unit
  | .updateCoins walletName => do
    let _ ← (CoinStatus.updateCoins kit walletName).run
  | .transferSender recipientAddress walletName statechainId duplicatedIndexes forceSend batchId => do
    let _ ← (send (TransferSender.execute kit.toSetup recipientAddress walletName statechainId duplicatedIndexes
      forceSend batchId)).run
  | .transferReceiver walletName => do
    let _ ← (Receive.execute kit walletName).run
  | .withdraw walletName statechainId toAddress feeRate duplicatedIndex => do
    let _ ← (Withdraw.execute kit walletName statechainId toAddress feeRate duplicatedIndex).run
  | .broadcastBackupTx walletName statechainId toAddress feeRate => do
    let _ ← (BroadcastBackupTx.execute kit walletName statechainId toAddress feeRate).run
  | .getDepositBitcoinAddress walletName tokenId amount => do
    let _ ← (Deposit.getDepositBitcoinAddress kit walletName tokenId amount).run
  | .newTransferAddress walletName => do
    let _ ← (Deposit.newTransferAddress kit walletName).run

/-- One operation after the other, whether it succeeds or not. -/
def runAll : List (Request F) → Prog (Call F) Reply Unit
  | [] => return ()
  | request :: requests => do
    program kit request
    runAll requests

variable {kit}

theorem orderly_program (request : Request F) (seen : Option Wallet) :
    Holds ledger (fun _ _ => True) (program kit request) seen := by
  have hrun : ∀ {α : Type} {p : Operation F α}, Orderly p seen →
      Holds ledger (fun _ _ => True) (p.run >>= fun _ => pure ()) seen := by
    intro α p h
    refine holds_bind (holds_mono (fun r seen _ => ?_) h)
    cases r <;> trivial
  cases request with
  | updateCoins walletName => exact hrun (orderly_updateCoins walletName)
  | transferSender recipientAddress walletName statechainId duplicatedIndexes forceSend batchId =>
    exact hrun (orderly_transferSender _ _ _ _ _ _)
  | transferReceiver walletName => exact hrun (orderly_receive walletName)
  | withdraw walletName statechainId toAddress feeRate duplicatedIndex => exact hrun (orderly_withdraw _ _ _ _ _)
  | broadcastBackupTx walletName statechainId toAddress feeRate => exact hrun (orderly_broadcastBackupTx _ _ _ _)
  | getDepositBitcoinAddress walletName tokenId amount => exact hrun (orderly_getDepositBitcoinAddress _ _ _)
  | newTransferAddress walletName => exact hrun (orderly_newTransferAddress walletName)

theorem orderly_runAll (requests : List (Request F)) (seen : Option Wallet) :
    Holds ledger (fun _ _ => True) (runAll kit requests) seen := by
  induction requests generalizing seen with
  | nil => trivial
  | cons request requests ih =>
    refine holds_bind (holds_mono (fun r seen _ => ?_) (orderly_program request seen))
    cases r with
    | none => trivial
    | some r => exact ih seen

end Runs

section Saves

variable {F : Type}

/-- What the operation has seen is what is in the file. -/
def Sees (wallets : Wallets) (seen : Option Wallet) : Prop :=
  ∀ wallet, seen = some wallet → wallets.get wallet.name = some wallet

/-- Every wallet is still there, and every coin of it as one that is related to it. -/
def Advances (R : Coin → Coin → Prop) (before after : Wallets) : Prop :=
  ∀ walletName wallet, before.get walletName = some wallet →
    ∃ wallet', after.get walletName = some wallet' ∧ Continues R wallet.coins wallet'.coins

theorem advances_refl {R : Coin → Coin → Prop} (hR : ∀ coin, R coin coin) (wallets : Wallets) :
    Advances R wallets wallets :=
  fun _ wallet hwallet => ⟨wallet, hwallet, continues_refl hR wallet.coins⟩

theorem Advances.imp {R S : Coin → Coin → Prop} (hS : ∀ a b, R a b → S a b) {before after : Wallets}
    (h : Advances R before after) : Advances S before after := by
  intro walletName wallet hwallet
  obtain ⟨wallet', hwallet', hcoins⟩ := h walletName wallet hwallet
  exact ⟨wallet', hwallet', hcoins.imp hS⟩

theorem Advances.trans {R S T : Coin → Coin → Prop} (hT : ∀ a b c, R a b → S b c → T a c) {a b c : Wallets}
    (h : Advances R a b) (h' : Advances S b c) : Advances T a c := by
  intro walletName wallet hwallet
  obtain ⟨wallet', hwallet', hcoins⟩ := h walletName wallet hwallet
  obtain ⟨wallet'', hwallet'', hcoins'⟩ := h' walletName wallet' hwallet'
  exact ⟨wallet'', hwallet'', hcoins.trans hT hcoins'⟩

theorem advances_saveWallet {wallets : Wallets} {old wallet : Wallet} (hold : wallets.get old.name = some old)
    (h : Follows old wallet) : Advances Steps wallets (saveWallet wallets wallet) := by
  intro walletName before hbefore
  by_cases hname : wallet.name = walletName
  · subst hname
    rw [← h.1, hbefore] at hold
    cases Option.some.inj hold
    exact ⟨wallet, get_saveWallet hbefore, h.2⟩
  · exact ⟨before, (get_saveWallet_of_ne hname).trans hbefore, continues_refl steps_refl before.coins⟩

theorem call_cases (c : Call F) :
    OffWallet c ∨ (∃ walletName, c = .sending (.getWallet walletName)) ∨
      ∃ wallet, c = .sending (.updateWallet wallet) := by
  cases c with
  | sending c =>
    cases c with
    | getWallet walletName => exact .inr (.inl ⟨walletName, rfl⟩)
    | updateWallet wallet => exact .inr (.inr ⟨wallet, rfl⟩)
    | _ => exact .inl trivial
  | _ => exact .inl trivial

theorem sees_handle (oracle : Oracle F) (c : Call F) (wallets : Wallets) (seen : Option Wallet)
    (h : Sees wallets seen) (hc : ledger.Allows seen c) :
    Sees (handle oracle c wallets).2 (ledger.note seen c (handle oracle c wallets).1) := by
  obtain hoff | ⟨walletName, rfl⟩ | ⟨wallet, rfl⟩ := call_cases c
  · rw [(ledger_offWallet seen c hoff).2, handle_offWallet oracle c wallets hoff]
    exact h
  · have hhandle : handle oracle (.sending (.getWallet walletName)) wallets =
        (System.selectRow oracle.fault (wallets.get walletName), wallets) := rfl
    rw [hhandle]
    cases hreply : System.selectRow oracle.fault (wallets.get walletName) with
    | error text => exact h
    | ok wallet =>
      intro wallet' hwallet'
      cases Option.some.inj hwallet'
      have hget := System.selectRow_eq_ok hreply
      have hname : wallet.name = walletName := (Table.get_eq_some.mp hget).2
      rw [hname]
      exact hget
  · obtain ⟨old, rfl, hfollows⟩ := hc
    have hrow : wallets.get wallet.name = some old := by
      rw [hfollows.1]
      exact h old rfl
    obtain ⟨fault, answer⟩ := oracle
    cases fault with
    | ok =>
      intro wallet' hwallet'
      cases Option.some.inj hwallet'
      exact get_saveWallet hrow
    | failed text =>
      intro wallet' hwallet'
      cases hwallet'
    | lost text =>
      intro wallet' hwallet'
      cases hwallet'

theorem advances_handle (oracle : Oracle F) (c : Call F) (wallets : Wallets) (seen : Option Wallet)
    (h : Sees wallets seen) (hc : ledger.Allows seen c) : Advances Steps wallets (handle oracle c wallets).2 := by
  obtain hoff | ⟨walletName, rfl⟩ | ⟨wallet, rfl⟩ := call_cases c
  · rw [handle_offWallet oracle c wallets hoff]
    exact advances_refl steps_refl wallets
  · exact advances_refl steps_refl wallets
  · obtain ⟨old, rfl, hfollows⟩ := hc
    have hsaved := advances_saveWallet (h old rfl) hfollows
    obtain ⟨fault, answer⟩ := oracle
    cases fault with
    | ok => exact hsaved
    | failed text => exact advances_refl steps_refl wallets
    | lost text => exact hsaved

def isFinal : CoinStatus → Bool
  | .transferred | .withdrawn | .invalidated => true
  | _ => false

/-- A coin at two times: it is the same coin, and a final status has stayed. -/
structure Outlives (old new : Coin) : Prop where
  identity : identityOf new = identityOf old
  final : isFinal old.status = true → new.status = old.status

theorem outlives_of_steps {old new : Coin} (h : Steps old new) : Outlives old new := by
  refine ⟨h.identity, fun hfinal => ?_⟩
  obtain hsame | hstep := h.status
  · exact hsame
  · revert hfinal hstep
    cases old.status <;> cases new.status <;> decide

theorem Outlives.trans {a b c : Coin} (h : Outlives a b) (h' : Outlives b c) : Outlives a c := by
  refine ⟨h'.identity.trans h.identity, fun hfinal => ?_⟩
  have hstatus := h.final hfinal
  exact (h'.final (hstatus ▸ hfinal)).trans hstatus

instance : Trans (Advances Outlives) (Advances Outlives) (Advances Outlives) :=
  ⟨Advances.trans fun _ _ _ h h' => h.trans h'⟩

variable {E K : Type} (kit : Kit E K F) [DecidableEq E] [Add F] [Sub F] [Mul F] [Div F] [NatCast F] [LT F]
  [DecidableLT F]

/-- From one save to the next every coin goes at most one step on, and at any later time it is
still there, with its status if that is final. -/
theorem coins_advance (requests : List (Request F)) (choices : ℕ → Oracle F) (wallets : Wallets) :
    (trail handle (runAll kit requests) choices wallets).IsChain (Advances Steps) ∧
      (trail handle (runAll kit requests) choices wallets).Pairwise (Advances Outlives) := by
  have hchain : (trail handle (runAll kit requests) choices wallets).IsChain (Advances Steps) :=
    isChain_trail sees_handle advances_handle (orderly_runAll requests none) (fun _ h => nomatch h) choices
  exact ⟨hchain, List.isChain_iff_pairwise.mp (hchain.imp fun _ _ h => h.imp fun _ _ h => outlives_of_steps h)⟩

end Saves

end MercuryLayer.Client.LifeCycle
