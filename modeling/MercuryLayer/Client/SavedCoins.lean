import MercuryLayer.Client.LifeCycle
import MercuryLayer.Library.Reliance

namespace MercuryLayer.Client.SavedCoins

open Client.CoinSteps Client.LifeCycle Client.Operations
open Client.TransferReceiver (Unspent anyhow anyhow_eq_ok)
open Client.Transaction hiding Call Reply
open Crates MercuryLayer.Deposit Error Library.Matching Library.Programs Library.Reliance Library.Tables
open Library.Validation Receiver WalletData

variable {E K F : Type} (kit : Kit E K F)

section Coins

/-- What the client's keys rest on: the text forms are read back, and a derived public key is that of its
secret key. -/
structure KeyLaws : Prop where
  wif : ∀ k k' network, kit.secp.privateKeyFromWif (kit.derivation.toWif k network) = some k' → k' = k
  text : ∀ key, kit.secp.publicKeyFromStr (kit.secp.publicKeyToStr key) = some key
  derived : ∀ walletName network path change index keyData,
    kit.derivation.generateNewKey walletName network path change index = .ok keyData →
      keyData.publicKey = kit.secp.publicKey keyData.secretKey

def Payable (key : E) : Prop := kit.secp.p2trOutputKey (kit.secp.xOnly key) ≠ none

/-- The user keys of a coin belong together, and have an address. -/
structure Keyed (coin : Coin) : Prop where
  pair : ∀ k, kit.secp.privateKeyFromWif coin.userPrivkey = some k →
    kit.secp.publicKeyFromStr coin.userPubkey = some (kit.secp.publicKey k)
  payable : ∀ key, kit.secp.publicKeyFromStr coin.userPubkey = some key → Payable kit key

/-- A coin that has been deposited for or received: everything that is read of it later is there. -/
structure Whole (coin : Coin) : Prop where
  statechainId : coin.statechainId ≠ none
  signedStatechainId : coin.signedStatechainId ≠ none
  serverPubkey : coin.serverPubkey ≠ none
  amount : coin.amount ≠ none
  aggregatedAddress : coin.aggregatedAddress ≠ none
  aggregatedPubkey : ∃ text key, coin.aggregatedPubkey = some text ∧
    kit.secp.publicKeyFromStr text = some key ∧ Payable kit key

/-- A coin that has been left half-initialised: it has no address to which it could be paid. -/
def IsUnfinished (coin : Coin) : Prop := coin.status = .initialised ∧ coin.aggregatedAddress = none

instance (coin : Coin) : Decidable (IsUnfinished coin) := inferInstanceAs (Decidable (_ ∧ _))

/-- What a coin is as long as it has no address. -/
structure Bare (coin : Coin) : Prop where
  unfinished : IsUnfinished coin
  utxoTxid : coin.utxoTxid = none
  utxoVout : coin.utxoVout = none

structure Sane (coin : Coin) : Prop where
  keyed : Keyed kit coin
  formed : Bare coin ∨ Whole kit coin

def AllSane (coins : List Coin) : Prop := ∀ coin ∈ coins, Sane kit coin

variable {kit} {coin old new : Coin}

theorem Sane.whole (h : Sane kit coin) (hstatus : coin.status ≠ .initialised) : Whole kit coin := by
  obtain hbare | hwhole := h.formed
  · exact absurd hbare.unfinished.1 hstatus
  · exact hwhole

theorem sane_of_whole (hkeyed : Keyed kit coin) (hwhole : Whole kit coin) : Sane kit coin := ⟨hkeyed, .inr hwhole⟩

theorem sane_of_unsigned (h : Sane kit old) (hwhole : Whole kit old) (hsame : unsigned new = unsigned old) :
    Sane kit new := by
  have hkeyed : Keyed kit (unsigned old) := { h.keyed with }
  have hwhole : Whole kit (unsigned old) := { hwhole with }
  rw [← hsame] at hkeyed hwhole
  exact sane_of_whole { hkeyed with } { hwhole with }

theorem sane_of_sentOn (h : Sane kit old) (hsent : SentOn old new) : Sane kit new := by
  have hwhole : Whole kit old := by
    refine h.whole (fun hstatus => ?_)
    have htransferable := hsent.transferable
    rw [hstatus] at htransferable
    cases htransferable
  have hkeyed : Keyed kit { unsigned old with status := .inTransfer } := { h.keyed with }
  have hwhole : Whole kit { unsigned old with status := .inTransfer } := { hwhole with }
  rw [← hsent.same] at hkeyed hwhole
  exact sane_of_whole { hkeyed with } { hwhole with }

theorem payable_of_p2trScript {key : E} {script : Library.XOnlyCurve.Bytes}
    (h : p2trScript kit.secp (kit.secp.xOnly key) = .ok script) : Payable kit key := by
  obtain ⟨out, hout, -⟩ := p2trScript_eq_ok.mp h
  rw [Payable, hout]
  exact Option.some_ne_none out

theorem sane_of_taken (hlaws : KeyLaws kit) (h : Sane kit old) (htaken : Taken kit old new) :
    Sane kit new ∧ Whole kit new := by
  obtain ⟨serverPublicKeyHex, newKeyInfo, statechainId, tx0Outpoint, tx0Hex, network, locktime, status, hinfo, -, rfl⟩ :=
    htaken
  have hkey : ∃ key, kit.secp.publicKeyFromStr newKeyInfo.aggregatePubkey = some key ∧ Payable kit key := by
    simp only [getNewKeyInfo, bind_eq_ok, pure_eq_ok] at hinfo
    obtain ⟨_, -, _, -, _, -, _, -, aggregatePubkey, -, _, hscript, _, -, _, -, _, -, _, -, rfl⟩ := hinfo
    exact ⟨aggregatePubkey, hlaws.text aggregatePubkey, payable_of_p2trScript hscript⟩
  obtain ⟨key, hkey⟩ := hkey
  have hwhole : Whole kit (Receive.received old serverPublicKeyHex newKeyInfo statechainId tx0Outpoint locktime status) :=
    { statechainId := Option.some_ne_none _
      signedStatechainId := Option.some_ne_none _
      serverPubkey := Option.some_ne_none _
      amount := Option.some_ne_none _
      aggregatedAddress := Option.some_ne_none _
      aggregatedPubkey := ⟨_, key, rfl, hkey⟩ }
  exact ⟨sane_of_whole { h.keyed with } hwhole, hwhole⟩

theorem sane_of_getNewCoin (hlaws : KeyLaws kit) {wallet : Wallet}
    (h : getNewCoin kit.btc kit.secp kit.derivation wallet = .ok coin) : Keyed kit coin ∧ Bare coin := by
  simp only [getNewCoin, bind_eq_ok, pure_eq_ok] at h
  obtain ⟨network, -, keyData, hkeyData, script, hscript, _, -, _, -, _, -, rfl⟩ := h
  have hpublic := hlaws.derived _ _ _ _ _ keyData hkeyData
  refine ⟨⟨fun k hk => ?_, fun key hkey => ?_⟩, ⟨⟨rfl, rfl⟩, rfl, rfl⟩⟩
  · rw [hlaws.wif _ _ _ hk]
    exact hlaws.text _
  · cases Option.some.inj ((hlaws.text _).symm.trans hkey)
    rw [hpublic] at hscript
    exact payable_of_p2trScript hscript

theorem sane_of_copy {wallet : Wallet} {authPubkey : String} (h : AllSane kit wallet.coins)
    (hcopy : duplicateCoinToInitializedState wallet authPubkey = .ok coin) : Sane kit coin := by
  obtain ⟨old, hold, hcoin⟩ := bind_eq_ok.mp hcopy
  cases pure_eq_ok.mp hcoin
  have hold := h old (List.mem_of_find?_eq_some (orErr_eq_ok.mp hold))
  exact ⟨{ hold.keyed with }, .inl ⟨⟨rfl, rfl⟩, rfl, rfl⟩⟩

end Coins

section Saves

variable {α β : Type} {good : Wallet → Prop}

/-- The wallets that are read are good. -/
def Told (good : Wallet → Prop) : (c : Call F) → Reply c → Prop
  | .sending (.getWallet _), reply => ∀ wallet : Wallet, reply = (.ok wallet : Except String Wallet) → good wallet
  | _, _ => True

/-- The wallets that are saved are good. -/
def Saved (good : Wallet → Prop) : Call F → Prop
  | .sending (.updateWallet wallet) => good wallet
  | _ => True

/-- An operation that is told good wallets saves good ones. -/
def Preserves (good : Wallet → Prop) (p : Operation F α) : Prop :=
  Assures (Told good) (Saved good) (fun _ => True) (fun _ => True) p

theorem saved_of_offWallet (c : Call F) (h : OffWallet c) : Saved good c := by
  cases c with
  | sending c => cases c <;> trivial
  | _ => trivial

theorem saved_of_quiet (c : Call F) (h : Quiet c) : Saved good c := saved_of_offWallet c (offWallet_of_quiet h)

theorem preserves_quiet_bind {post : α → Prop} {p : Operation F α} {f : α → Operation F β} (hp : Yields Quiet post p)
    (hf : ∀ a, post a → Preserves good (f a)) : Preserves good (p >>= f) :=
  assures_yields_bind (yields_mono saved_of_quiet (fun _ h => h) hp) hf

theorem preserves_getWallet_bind {walletName : String} {f : Wallet → Operation F β}
    (hf : ∀ wallet, good wallet → Preserves good (f wallet)) : Preserves good (getWallet walletName >>= f) := by
  have hget : Assures (Told good) (Saved good) good (fun _ => True) (getWallet walletName : Operation F Wallet) :=
    assures_ask_bind (Call.sending (.getWallet walletName)) _ trivial
      (fun _ hreply => assures_lift (fun _ _ => trivial) fun wallet hwallet => hreply wallet (anyhow_eq_ok.mp hwallet))
  exact assures_bind hget hf

theorem preserves_updateWallet {wallet : Wallet} (h : good wallet) :
    Preserves good (updateWallet wallet : Operation F Unit) :=
  assures_ask_bind (Call.sending (.updateWallet wallet)) _ h
    (fun _ _ => assures_lift (fun _ _ => trivial) fun _ _ => trivial)

theorem preserves_updateWallet_bind {wallet : Wallet} {f : Unit → Operation F β} (h : good wallet)
    (hf : Preserves good (f ())) : Preserves good (updateWallet wallet >>= f) :=
  assures_bind (preserves_updateWallet h) (fun _ _ => hf)

end Saves

variable {kit}

section Deposits

open Client.Deposit

variable (kit) in
def SaneWallet (wallet : Wallet) : Prop := AllSane kit wallet.coins

theorem preserves_newTransferAddress (hlaws : KeyLaws kit) (walletName : String) :
    Preserves (SaneWallet kit) (newTransferAddress kit walletName) := by
  refine preserves_getWallet_bind (fun wallet hwallet => ?_)
  refine assures_try_bind (fun coin hcoin => ?_)
  obtain ⟨hkeyed, hbare⟩ := sane_of_getNewCoin hlaws hcoin
  refine preserves_updateWallet_bind (fun c hc => ?_) (assures_pure trivial)
  obtain hc | hc := List.mem_append.mp hc
  · exact hwallet c hc
  · cases List.mem_singleton.mp hc
    exact ⟨hkeyed, .inl hbare⟩

theorem modifyLast_eq_ok {wallet wallet' : Wallet} {f : Coin → Coin} (h : modifyLast wallet f = .ok wallet') :
    ∃ coins coin, wallet.coins = coins ++ [coin] ∧ wallet' = { wallet with coins := coins ++ [f coin] } := by
  obtain ⟨coin, hcoin, hwallet'⟩ := bind_eq_ok.mp h
  cases pure_eq_ok.mp hwallet'
  obtain ⟨coins, hcoins⟩ := List.getLast?_eq_some_iff.mp (unwrap_eq_ok.mp hcoin)
  refine ⟨coins, coin, hcoins, ?_⟩
  rw [hcoins, List.dropLast_concat]

def EndsKnown (wallet : Wallet) : Prop :=
  ∃ coins coin, wallet.coins = coins ++ [coin] ∧ coin.statechainId ≠ none ∧ coin.signedStatechainId ≠ none ∧
    coin.serverPubkey ≠ none

theorem assures_init (hlaws : KeyLaws kit) {wallet : Wallet} (hwallet : SaneWallet kit wallet) (tokenId : String) :
    Assures (Told (SaneWallet kit)) (Saved (SaneWallet kit)) (fun wallet' => SaneWallet kit wallet' ∧ EndsKnown wallet')
      (fun _ => True) (init kit wallet tokenId) := by
  refine assures_try_bind (fun coin hcoin => ?_)
  obtain ⟨hkeyed, hbare⟩ := sane_of_getNewCoin hlaws hcoin
  have hnew : SaneWallet kit { wallet with coins := wallet.coins ++ [coin] } := by
    intro c hc
    obtain hc | hc := List.mem_append.mp hc
    · exact hwallet c hc
    · cases List.mem_singleton.mp hc
      exact ⟨hkeyed, .inl hbare⟩
  refine assures_bind (preserves_updateWallet hnew) (fun _ _ => ?_)
  refine assures_try_bind (fun depositMsg1 _ => ?_)
  refine assures_ask_bind (Call.depositInit depositMsg1) _ trivial (fun reply _ => ?_)
  refine assures_try_bind (fun response _ => ?_)
  refine assures_try_bind (fun _ _ => ?_)
  refine assures_try_bind (fun depositMsg1Response _ => ?_)
  refine assures_try_bind (fun depositInitResult _ => ?_)
  refine assures_try_bind (fun wallet' hwallet' => ?_)
  obtain ⟨coins, last, hcoins, rfl⟩ := modifyLast_eq_ok hwallet'
  obtain ⟨rfl, hlast⟩ := List.append_inj' hcoins rfl
  cases List.singleton_inj.mp hlast
  have hsaved : SaneWallet kit { wallet with coins := wallet.coins ++ [{ coin with
      statechainId := some depositInitResult.statechainId
      signedStatechainId := some depositInitResult.signedStatechainId
      serverPubkey := some depositInitResult.serverPubkey }] } := by
    intro c hc
    obtain hc | hc := List.mem_append.mp hc
    · exact hwallet c hc
    · cases List.mem_singleton.mp hc
      exact ⟨{ hkeyed with }, .inl ⟨⟨hbare.unfinished.1, hbare.unfinished.2⟩, hbare.utxoTxid, hbare.utxoVout⟩⟩
  refine assures_bind (preserves_updateWallet hsaved) (fun _ _ => assures_pure ⟨hsaved, ?_⟩)
  exact ⟨wallet.coins, _, rfl, Option.some_ne_none _, Option.some_ne_none _, Option.some_ne_none _⟩

theorem preserves_getDepositBitcoinAddress (hlaws : KeyLaws kit) (walletName tokenId : String) (amount : UInt32) :
    Preserves (SaneWallet kit) (getDepositBitcoinAddress kit walletName tokenId amount) := by
  refine assures_try_bind (fun tokenId _ => ?_)
  refine preserves_getWallet_bind (fun wallet hwallet => ?_)
  refine assures_bind (assures_init hlaws hwallet tokenId) (fun wallet' hwallet' => ?_)
  obtain ⟨hsane, coins, last, hcoins, hid, hsigned, hserver⟩ := hwallet'
  refine assures_try_bind (fun coin hcoin => ?_)
  refine assures_try_bind (fun aggregated haggregated => ?_)
  refine assures_try_bind (fun wallet'' hwallet'' => ?_)
  obtain ⟨coins', last', hcoins', rfl⟩ := modifyLast_eq_ok hwallet''
  obtain ⟨rfl, hlast⟩ := List.append_inj' (hcoins.symm.trans hcoins') rfl
  cases List.singleton_inj.mp hlast
  refine preserves_updateWallet_bind (fun c hc => ?_) (assures_pure trivial)
  obtain hc | hc := List.mem_append.mp hc
  · exact hsane c (hcoins ▸ List.mem_append_left _ hc)
  · cases List.mem_singleton.mp hc
    have hlast := hsane last (hcoins ▸ List.mem_append_right _ (List.mem_singleton.mpr rfl))
    simp only [createAggregatedAddress, bind_eq_ok, pure_eq_ok] at haggregated
    obtain ⟨_, -, _, -, _, -, _, -, key, -, script, hscript, rfl⟩ := haggregated
    exact sane_of_whole { hlast.keyed with }
      { statechainId := hid
        signedStatechainId := hsigned
        serverPubkey := hserver
        amount := Option.some_ne_none _
        aggregatedAddress := Option.some_ne_none _
        aggregatedPubkey := ⟨_, key, rfl, hlaws.text key, payable_of_p2trScript hscript⟩ }

end Deposits

section Updates

open Client.CoinStatus

section Deposited

variable [Mul F] [NatCast F] [LT F] [DecidableLT F]

theorem yields_recordDeposit_sane {coin : Coin} (hsane : Sane kit coin) (hwhole : Whole kit coin) (network : String)
    (utxo : Unspent) :
    Yields Quiet (fun r => Sane kit r.1 ∧ Whole kit r.1) (recordDeposit kit coin network utxo) := by
  unfold recordDeposit
  split_ifs
  · have hfound : Sane kit { coin with
        utxoTxid := some utxo.txHash, utxoVout := some utxo.txPos.toUInt32, status := .inMempool } :=
      sane_of_whole { hsane.keyed with } { hwhole with }
    refine yields_bind (yields_send_quiet (yields_createTx1 _ _ _)) (fun r hr => ?_)
    have hcoin := sane_of_unsigned hfound (hfound.whole nofun) hr.1
    have hstatus : r.1.status = .inMempool := (sameCoin_of_unsigned hr.1).status
    refine yields_bind (yields_createActivity _ _ _) (fun activity _ => yields_pure ⟨hcoin, hcoin.whole ?_⟩)
    rw [hstatus]
    decide
  · exact yields_pure ⟨hsane, hwhole⟩

theorem yields_checkDeposit_sane {coin : Coin} (hsane : Sane kit coin) (network : String) :
    Yields Quiet (fun r => Sane kit r.1) (checkDeposit kit coin network) := by
  unfold checkDeposit
  split_ifs
  · exact yields_lift_bind (fun _ _ => yields_pure hsane)
  · refine yields_lift_bind (fun aggregatedAddress haddress => ?_)
    have hwhole : Whole kit coin := by
      obtain hbare | hwhole := hsane.formed
      · cases hbare.unfinished.2.symm.trans (unwrap_eq_ok.mp haddress)
      · exact hwhole
    refine yields_lift_bind (fun script _ => ?_)
    refine yields_bind (yields_scriptListUnspent script) (fun utxoList _ => ?_)
    refine yields_lift_bind (fun utxo _ => ?_)
    cases utxo with
    | none => exact yields_pure hsane
    | some utxo =>
      dsimp only
      split_ifs
      · exact yields_pure hsane
      · refine yields_bind yields_blockHeadersSubscribeRaw (fun blockheight _ => ?_)
        refine yields_bind (yields_recordDeposit_sane hsane hwhole network utxo) (fun r hr => yields_pure ?_)
        exact sane_of_whole { hr.1.keyed with } { hr.2 with }

end Deposited

theorem sane_withStatus {coin : Coin} {status : CoinStatus} (hsane : Sane kit coin) (hwhole : Whole kit coin) :
    Sane kit { coin with status := status } :=
  sane_of_whole { hsane.keyed with } { hwhole with }

theorem sane_of_duplicatesOf {existingCoins : List Coin} {coin duplicate : Coin} (hsane : Sane kit coin)
    (hwhole : Whole kit coin) {unspents : List Unspent} {index : UInt32}
    (h : duplicate ∈ duplicatesOf existingCoins coin unspents index) : Sane kit duplicate := by
  induction unspents generalizing index with
  | nil => cases h
  | cons unspent unspents ih =>
    rw [duplicatesOf] at h
    split_ifs at h
    · exact ih h
    · obtain rfl | h := List.mem_cons.mp h
      · exact sane_of_whole { hsane.keyed with } { hwhole with amount := Option.some_ne_none _ }
      · exact ih h

theorem yields_duplicatesFor_sane {existingCoins coins : List Coin} (h : AllSane kit coins) :
    Yields Quiet (AllSane kit) (duplicatesFor kit existingCoins coins) := by
  induction coins with
  | nil => exact yields_pure (fun _ h => nomatch h)
  | cons coin coins ih =>
    obtain ⟨hcoin, hcoins⟩ := List.forall_mem_cons.mp h
    rw [duplicatesFor]
    split_ifs with hstatus
    · have hwhole : Whole kit coin := by
        refine hcoin.whole (fun hnew => ?_)
        rw [hnew] at hstatus
        exact absurd hstatus (by decide)
      refine yields_lift_bind (fun aggregatedAddress _ => ?_)
      refine yields_lift_bind (fun script _ => ?_)
      refine yields_bind (yields_scriptListUnspent script) (fun utxoList _ => ?_)
      refine yields_lift_bind (fun index _ => ?_)
      refine yields_bind (ih hcoins) (fun duplicated hduplicated => yields_pure (fun c hc => ?_))
      obtain hc | hc := List.mem_append.mp hc
      · exact sane_of_duplicatesOf hcoin hwhole hc
      · exact hduplicated c hc
    · exact ih hcoins

theorem allSane_invalidateDuplicated {coins : List Coin} (h : AllSane kit coins) :
    AllSane kit (invalidateDuplicated coins) := by
  intro c hc
  obtain ⟨coin, hcoin, rfl⟩ := List.mem_map.mp hc
  have hsane := h coin hcoin
  split_ifs with hinvalid
  · refine sane_withStatus hsane (hsane.whole ?_)
    rw [hinvalid.1]
    decide
  · exact hsane

variable [DecidableEq E] [Mul F] [NatCast F] [LT F] [DecidableLT F]

theorem yields_updateCoin_sane {coin : Coin} (hsane : Sane kit coin) (walletName network : String) :
    Yields Quiet (fun r => Sane kit r.1) (updateCoin kit walletName network coin) := by
  have hdeposit : Yields Quiet (fun r => Sane kit r.1) (updateDeposit kit walletName network coin) := by
    refine yields_bind (yields_checkDeposit_sane hsane network) (fun r hr => ?_)
    obtain ⟨new, depositResult⟩ := r
    cases depositResult with
    | none => exact yields_pure hr
    | some depositResult =>
      refine yields_lift_bind (fun statechainId _ => ?_)
      exact yields_bind (yields_insertBackupTxs _ _ _) (fun _ _ => yields_pure hr)
  have hwhole {status : CoinStatus} (hstatus : coin.status = status) (hne : status ≠ .initialised) : Whole kit coin :=
    hsane.whole (hstatus ▸ hne)
  unfold updateCoin
  cases hstatus : coin.status with
  | initialised => exact hdeposit
  | inMempool => exact hdeposit
  | unconfirmed => exact hdeposit
  | inTransfer =>
    refine yields_bind (yields_checkTransfer coin) (fun isTransferred _ => yields_pure ?_)
    cases isTransferred with
    | true => exact sane_withStatus hsane (hwhole hstatus (by decide))
    | false => exact hsane
  | withdrawing =>
    refine yields_bind (yields_checkWithdrawal coin) (fun new hnew => yields_pure ?_)
    obtain rfl | rfl := hnew
    · exact hsane
    · exact sane_withStatus hsane (hwhole hstatus (by decide))
  | confirmed => exact yields_pure hsane
  | transferred => exact yields_pure hsane
  | withdrawn => exact yields_pure hsane
  | duplicated => exact yields_pure hsane
  | invalidated => exact yields_pure hsane

theorem yields_updateEach_sane {coins : List Coin} (h : AllSane kit coins) (walletName network : String) :
    Yields Quiet (fun r => AllSane kit r.1) (updateEach kit walletName network coins) := by
  induction coins with
  | nil => exact yields_pure h
  | cons coin coins ih =>
    obtain ⟨hcoin, hcoins⟩ := List.forall_mem_cons.mp h
    refine yields_bind (yields_updateCoin_sane hcoin walletName network) (fun r hr => ?_)
    exact yields_bind (ih hcoins) (fun rs hrs => yields_pure (List.forall_mem_cons.mpr ⟨hr, hrs⟩))

theorem preserves_updateCoins (walletName : String) : Preserves (SaneWallet kit) (updateCoins kit walletName) := by
  refine preserves_getWallet_bind (fun wallet hwallet => ?_)
  refine preserves_quiet_bind (yields_updateEach_sane hwallet _ _) (fun r hr => ?_)
  refine preserves_quiet_bind (yields_duplicatesFor_sane hr) (fun duplicated hduplicated => ?_)
  refine preserves_updateWallet (allSane_invalidateDuplicated (fun c hc => ?_))
  obtain hc | hc := List.mem_append.mp hc
  · exact hr c hc
  · exact hduplicated c hc

end Updates

section Spends

theorem allSane_set {coins : List Coin} {place : ℕ} {new : Coin} (h : AllSane kit coins) (hnew : Sane kit new) :
    AllSane kit (coins.set place new) := by
  intro c hc
  obtain hc | rfl := List.mem_or_eq_of_mem_set hc
  · exact h c hc
  · exact hnew

theorem allSane_of_forall₂ {coins coins' : List Coin} (h : AllSane kit coins)
    (hcoins : List.Forall₂ (fun old new => new = old ∨ SentOn old new) coins coins') : AllSane kit coins' := by
  intro new hnew
  obtain ⟨i, hi⟩ := List.mem_iff_getElem?.mp hnew
  obtain ⟨old, hold, hcases⟩ := forall₂_getElem? hcoins.flip hi
  have hsane := h old (List.mem_of_getElem? hold)
  obtain rfl | hsent := hcases
  · exact hsane
  · exact sane_of_sentOn hsane hsent

variable [Mul F] [NatCast F] [LT F] [DecidableLT F]

theorem preserves_transferSender (recipientAddress walletName statechainId : String)
    (duplicatedIndexes : Option (List UInt32)) (forceSend : Bool) (batchId : Option String) :
    Preserves (SaneWallet kit) (send (TransferSender.execute kit.toSetup recipientAddress walletName statechainId
      duplicatedIndexes forceSend batchId)) := by
  have hquiet : ∀ c : Transaction.Call F, KeepsWallet c → Saved (SaneWallet kit) (.sending c) :=
    fun c hc => saved_of_offWallet (.sending c) hc
  refine assures_send ?_
  refine assures_ask_bind (Transaction.Call.getWallet walletName) _ trivial (fun reply hreply => ?_)
  refine assures_try_bind (fun wallet hwallet => ?_)
  have hwallet : SaneWallet kit wallet := hreply wallet (anyhow_eq_ok.mp hwallet)
  refine assures_try_bind (fun _ _ => ?_)
  refine assures_try_bind (fun _ _ => ?_)
  refine assures_try_bind (fun _ _ => ?_)
  refine assures_try_bind (fun coin _ => ?_)
  refine assures_try_bind (fun statechainId _ => ?_)
  refine assures_try_bind (fun signedStatechainId _ => ?_)
  refine assures_try_bind (fun recipient _ => ?_)
  refine assures_yields_bind (yields_mono hquiet (fun _ h => h) (yields_getNewX1 _ _ _ _)) (fun x1 _ => ?_)
  refine assures_try_bind (fun inputTxid _ => ?_)
  refine assures_try_bind (fun inputVout _ => ?_)
  refine assures_try_bind (fun coinAmount _ => ?_)
  refine assures_try_bind (fun transferSignature _ => ?_)
  refine assures_yields_bind (yields_mono hquiet (fun _ h => h) (yields_createBackupTransactions _ _ _ _))
    (fun r hr => ?_)
  obtain ⟨wallet', backupTransactions⟩ := r
  refine assures_try_bind (fun payload _ => ?_)
  refine assures_ask_bind (Transaction.Call.transferUpdateMsg payload) _ trivial (fun reply _ => ?_)
  refine assures_try_bind (fun response _ => ?_)
  refine assures_try_bind (fun answer _ => ?_)
  refine assures_try_bind (fun _ _ => ?_)
  refine assures_ask_bind (Transaction.Call.updateBackupTxs wallet'.name statechainId backupTransactions) _ trivial
    (fun reply _ => ?_)
  refine assures_try_bind (fun _ _ => ?_)
  refine assures_ask_bind Transaction.Call.utcNow _ trivial (fun date _ => ?_)
  refine assures_ask_bind (Transaction.Call.updateWallet _) _ (allSane_of_forall₂ hwallet hr.2) (fun reply _ => ?_)
  exact assures_lift (fun _ _ => trivial) (fun _ _ => trivial)

theorem preserves_withdraw (walletName statechainId toAddress : String) (feeRate : Option F)
    (duplicatedIndex : Option UInt32) :
    Preserves (SaneWallet kit) (Withdraw.execute kit walletName statechainId toAddress feeRate duplicatedIndex) := by
  refine preserves_getWallet_bind (fun wallet hwallet => ?_)
  refine assures_try_bind (fun _ _ => ?_)
  refine assures_try_bind (fun _ _ => ?_)
  refine preserves_quiet_bind (yields_send_quiet (yields_getBackupTxs _ _)) (fun backupTxs _ => ?_)
  refine assures_try_bind (fun _ _ => ?_)
  refine assures_try_bind (fun target htarget => ?_)
  obtain ⟨coin, place⟩ := target
  refine assures_try_bind (fun _ _ => ?_)
  refine assures_try_bind (fun _ hstatus => ?_)
  have hplace : wallet.coins[place]? = some coin := getElem?_of_minByLocktime (orThrow_eq_ok.mp htarget)
  have hsane := hwallet coin (List.mem_of_getElem? hplace)
  have hwhole : Whole kit coin := by
    refine hsane.whole (fun hnew => ?_)
    rw [hnew] at hstatus
    exact throwIf_eq_ok.mp hstatus (by decide)
  refine preserves_quiet_bind (Withdraw.yields_signAndBroadcast _ _ _ _ _) (fun r hr => ?_)
  obtain ⟨signed, txid⟩ := r
  refine assures_try_bind (fun amount _ => ?_)
  refine preserves_quiet_bind (yields_createActivity _ _ _) (fun activity _ => ?_)
  refine assures_try_bind (fun signedStatechainId _ => ?_)
  obtain ⟨coinNonce, serverPublicNonce, rfl⟩ := hr
  refine preserves_updateWallet_bind (allSane_set hwallet (sane_of_whole { hsane.keyed with } { hwhole with })) ?_
  split_ifs
  · exact assures_pure trivial
  · exact assures_of_yields (fun _ => trivial) (yields_mono saved_of_offWallet (fun _ h => h)
      (yields_completeWithdraw _ _))

theorem preserves_broadcastBackupTx (walletName statechainId : String) (toAddress : Option String)
    (feeRate : Option F) :
    Preserves (SaneWallet kit) (BroadcastBackupTx.execute kit walletName statechainId toAddress feeRate) := by
  refine preserves_getWallet_bind (fun wallet hwallet => ?_)
  refine assures_try_bind (fun _ _ => ?_)
  refine preserves_quiet_bind (yields_send_quiet (yields_getBackupTxs _ _)) (fun backupTxs _ => ?_)
  refine assures_try_bind (fun target htarget => ?_)
  obtain ⟨coin, place⟩ := target
  refine assures_try_bind (fun _ hstatus => ?_)
  have hplace : wallet.coins[place]? = some coin := getElem?_of_minByLocktime (orThrow_eq_ok.mp htarget)
  have hsane := hwallet coin (List.mem_of_getElem? hplace)
  have hwhole : Whole kit coin := by
    refine hsane.whole (fun hnew => ?_)
    rw [hnew] at hstatus
    exact throwIf_eq_ok.mp hstatus (by decide)
  refine preserves_quiet_bind (yields_broadcast _ _ _ _ _) (fun txid _ => ?_)
  refine assures_try_bind (fun signedStatechainId _ => ?_)
  refine preserves_updateWallet_bind (allSane_set hwallet (sane_of_whole { hsane.keyed with } { hwhole with })) ?_
  exact assures_of_yields (fun _ => trivial) (yields_mono saved_of_offWallet (fun _ h => h)
    (yields_completeWithdraw _ _))

end Spends

section Receipts

open Client.Receive

variable (kit) in
def SaneGathered (gathered : Gathered) : Prop :=
  AllSane kit gathered.tempCoins ∧ AllSane kit gathered.duplicatedCoins

theorem sane_of_leaves (hlaws : KeyLaws kit) {old new : Coin} {data : List DuplicatedCoinData} (hold : Sane kit old)
    (h : Leaves kit old new data) : Sane kit new ∧ AllSane kit (data.map (duplicateOf new)) := by
  obtain ⟨rfl, rfl⟩ | htaken := h
  · exact ⟨hold, fun _ hc => absurd hc List.not_mem_nil⟩
  · have hsane := (sane_of_taken hlaws hold htaken).1
    have hwhole : Whole kit new := by
      refine hsane.whole (fun hstatus => ?_)
      obtain hreceived | hreceived := htaken.received.status <;> cases hreceived.symm.trans hstatus
    refine ⟨hsane, fun c hc => ?_⟩
    obtain ⟨d, -, rfl⟩ := List.mem_map.mp hc
    exact sane_of_whole { hsane.keyed with } { hwhole with amount := Option.some_ne_none _ }

theorem gathering_sane (hlaws : KeyLaws kit) {wallet : Wallet} (hwallet : SaneWallet kit wallet) :
    Gathering (Leaves kit) wallet (SaneGathered kit) where
  same := by
    intro gathered gathered' h hcoins hduplicated
    rw [SaneGathered, hcoins, hduplicated]
    exact h
  own := by
    intro gathered place old new data h hold _ hnew
    obtain ⟨hsane, hdata⟩ := sane_of_leaves hlaws (h.1 old (List.mem_of_getElem? hold)) hnew
    exact ⟨allSane_set h.1 hsane, List.forall_mem_append.mpr ⟨h.2, hdata⟩⟩
  copy := by
    intro gathered authPubkey coin new data h hcopy hnew
    obtain ⟨hsane, hdata⟩ := sane_of_leaves hlaws (sane_of_copy hwallet hcopy) hnew
    refine ⟨List.forall_mem_append.mpr ⟨h.1, ?_⟩, List.forall_mem_append.mpr ⟨h.2, hdata⟩⟩
    exact List.forall_mem_singleton.mpr hsane

variable [DecidableEq E] [Add F] [Sub F] [Div F] [NatCast F] [LT F] [DecidableLT F]

theorem preserves_receive (hlaws : KeyLaws kit) (walletName : String) :
    Preserves (SaneWallet kit) (Receive.execute kit walletName) := by
  refine preserves_getWallet_bind (fun wallet hwallet => ?_)
  have hstart : SaneGathered kit ⟨wallet.coins, wallet.activities, [], false, []⟩ :=
    ⟨hwallet, fun _ h => absurd h List.not_mem_nil⟩
  refine preserves_quiet_bind (yields_gatherMessages (gathering_sane hlaws hwallet) hstart)
    (fun gathered hgathered => ?_)
  refine preserves_updateWallet_bind (fun c hc => ?_) (assures_pure trivial)
  have hmem := (List.perm_insertionSort _ (gathered.tempCoins ++ gathered.duplicatedCoins)).mem_iff.mp hc
  obtain hc | hc := List.mem_append.mp hmem
  · exact hgathered.1 c hc
  · exact hgathered.2 c hc

end Receipts

section Disk

variable [DecidableEq E] [Add F] [Sub F] [Mul F] [Div F] [NatCast F] [LT F] [DecidableLT F]

theorem preserves_program (hlaws : KeyLaws kit) (request : Request F) :
    Relies (Told (SaneWallet kit)) (Saved (SaneWallet kit)) (fun _ => True) (program kit request) := by
  have hrun : ∀ {α : Type} {p : Operation F α}, Preserves (SaneWallet kit) p →
      Relies (Told (SaneWallet kit)) (Saved (SaneWallet kit)) (fun _ => True) (p.run >>= fun _ => pure ()) :=
    fun h => Relies.bind h (fun _ _ => trivial)
  cases request with
  | updateCoins walletName => exact hrun (preserves_updateCoins walletName)
  | transferSender recipientAddress walletName statechainId duplicatedIndexes forceSend batchId =>
    exact hrun (preserves_transferSender _ _ _ _ _ _)
  | transferReceiver walletName => exact hrun (preserves_receive hlaws walletName)
  | withdraw walletName statechainId toAddress feeRate duplicatedIndex => exact hrun (preserves_withdraw _ _ _ _ _)
  | broadcastBackupTx walletName statechainId toAddress feeRate => exact hrun (preserves_broadcastBackupTx _ _ _ _)
  | getDepositBitcoinAddress walletName tokenId amount =>
    exact hrun (preserves_getDepositBitcoinAddress hlaws _ _ _)
  | newTransferAddress walletName => exact hrun (preserves_newTransferAddress hlaws walletName)

variable (kit) in
/-- What can be in the file: wallets that have no coins yet, and whatever is there when an operation has
been cut off at any point. -/
inductive OnDisk : Wallets → Prop
  | start {wallets : Wallets} (h : ∀ walletName wallet, wallets.get walletName = some wallet → wallet.coins = []) :
    OnDisk wallets
  | cutOff {wallets wallets' : Wallets} (request : Request F) (choices : ℕ → Oracle F) (h : OnDisk wallets)
    (hcut : wallets' ∈ trail handle (program kit request) choices wallets) : OnDisk wallets'

def AllWallets (good : Wallet → Prop) (wallets : Wallets) : Prop :=
  ∀ walletName wallet, wallets.get walletName = some wallet → good wallet

omit [DecidableEq E] [Add F] [Sub F] [Mul F] [Div F] [NatCast F] [LT F] [DecidableLT F] in
theorem told_handle {good : Wallet → Prop} (oracle : Oracle F) (c : Call F) (wallets : Wallets)
    (h : AllWallets good wallets) : Told good c (handle oracle c wallets).1 := by
  obtain hoff | ⟨walletName, rfl⟩ | ⟨wallet, rfl⟩ := call_cases c
  · cases c with
    | sending c => cases c <;> trivial
    | _ => trivial
  · intro wallet hwallet
    exact h walletName wallet (System.selectRow_eq_ok hwallet)
  · trivial

omit [DecidableEq E] [Add F] [Sub F] [Mul F] [Div F] [NatCast F] [LT F] [DecidableLT F] in
theorem allWallets_saveWallet {good : Wallet → Prop} {wallets : Wallets} {wallet : Wallet}
    (h : AllWallets good wallets) (hgood : good wallet) : AllWallets good (saveWallet wallets wallet) := by
  intro walletName row hrow
  by_cases hname : wallet.name = walletName
  · subst hname
    cases hold : wallets.get wallet.name with
    | none =>
      rw [saveWallet, Table.get_modify_self, hold] at hrow
      cases hrow
    | some old =>
      cases Option.some.inj ((get_saveWallet hold).symm.trans hrow)
      exact hgood
  · rw [get_saveWallet_of_ne hname] at hrow
    exact h walletName row hrow

omit [DecidableEq E] [Add F] [Sub F] [Mul F] [Div F] [NatCast F] [LT F] [DecidableLT F] in
theorem allWallets_handle {good : Wallet → Prop} (oracle : Oracle F) (c : Call F) (wallets : Wallets)
    (hc : Saved good c) (h : AllWallets good wallets) : AllWallets good (handle oracle c wallets).2 := by
  obtain hoff | ⟨walletName, rfl⟩ | ⟨wallet, rfl⟩ := call_cases c
  · rw [handle_offWallet oracle c wallets hoff]
    exact h
  · exact h
  · have hsaved := allWallets_saveWallet h hc
    obtain ⟨fault, answer⟩ := oracle
    cases fault with
    | ok => exact hsaved
    | failed text => exact h
    | lost text => exact hsaved

theorem sane_of_onDisk (hlaws : KeyLaws kit) {wallets : Wallets} (h : OnDisk kit wallets) :
    AllWallets (SaneWallet kit) wallets := by
  induction h with
  | start hempty =>
    intro walletName wallet hwallet coin hcoin
    rw [hempty walletName wallet hwallet] at hcoin
    cases hcoin
  | cutOff request choices _ hcut ih =>
    exact (preserves_program hlaws request).trail told_handle allWallets_handle ih _ hcut

end Disk

end MercuryLayer.Client.SavedCoins
