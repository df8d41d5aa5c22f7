import MercuryLayer.Client.CoinSteps
import MercuryLayer.Client.Withdraw
import MercuryLayer.Library.Runs

namespace MercuryLayer.Client.DepositWatch

open Client.CoinStatus Client.CoinSteps Client.Operations
open Client.TransferReceiver (Unspent anyhow anyhow_eq_ok)
open Client.Transaction hiding Call Reply
open Crates Error Library.Matching Library.Programs Library.Runs Library.Validation
open Library.XOnlyCurve (Bytes)
open Client.System (selectRow selectRow_eq_ok updateRow updateRow_cases)
open Receiver WalletData

section Environment

/-- What the electrum server lists, and the height of its chain. -/
structure Chain where
  unspents : Bytes → List Unspent
  height : UInt64

/-- The row of the wallet, and the rows of `backup_txs` in their order. -/
structure File where
  wallet : Wallet
  rows : List (String × List BackupTx)

variable {F : Type}

/-- Requests to the electrum server are answered from the chain, or fail. -/
def handle (chain : Chain) (oracle : Oracle F) : (c : Call F) → File → Reply c × File
  | .sending (.getWallet _), file => (selectRow oracle.fault (some file.wallet), file)
  | .sending (.updateWallet wallet), file => updateRow oracle.fault file { file with wallet := wallet }
  | .insertBackupTxs _ statechainId backupTxs, file =>
    updateRow oracle.fault file { file with rows := file.rows ++ [(statechainId, backupTxs)] }
  | .sending (.scriptListUnspent script), file => (selectRow oracle.fault (some (chain.unspents script)), file)
  | .sending .blockHeadersSubscribeRaw, file => (selectRow oracle.fault (some chain.height), file)
  | c, file => (oracle.answer c, file)

def OffFile : Call F → Prop
  | .sending (.updateWallet _) => False
  | .insertBackupTxs _ _ _ => False
  | _ => True

theorem handle_offFile (chain : Chain) (oracle : Oracle F) (c : Call F) (file : File) (h : OffFile c) :
    (handle chain oracle c file).2 = file := by
  cases c with
  | sending c => cases c <;> first | rfl | cases h
  | insertBackupTxs walletName statechainId backupTxs => cases h
  | _ => rfl

theorem offFile_of_asks (c : Call F) (h : Asks c) : OffFile c := by
  cases c with
  | sending c => cases c <;> trivial
  | insertBackupTxs walletName statechainId backupTxs => cases h
  | _ => trivial

end Environment

variable {E K F : Type} (kit : Kit E K F)

section Deposits

variable (chain : Chain) (coin : Coin)

def outpointOf (unspent : Unspent) : OutPoint := ⟨unspent.txHash, unspent.txPos.toUInt32⟩

/-- The coin's output is listed for its address, as deep in the chain as the client demands. -/
def Listed : Prop :=
  ∃ address script unspent, coin.aggregatedAddress = some address ∧
    kit.btc.scriptOfAddress address kit.network = some script ∧ unspent ∈ chain.unspents script ∧
    coin.utxoTxid = some unspent.txHash ∧ coin.utxoVout.map UInt32.toNat = some unspent.txPos.toNat ∧
    0 < unspent.height.toNat ∧ unspent.height.toNat + kit.clientConfig.confirmationTarget.toNat ≤ chain.height.toNat + 1

/-- The first transaction of a row of `backup_txs` spends the output. -/
def RowSpends (row : String × List BackupTx) (outpoint : OutPoint) : Prop :=
  ∃ backupTx, row.2.head? = some backupTx ∧ getPreviousOutpoint kit.btc backupTx = .ok outpoint

def rowOf (rows : List (String × List BackupTx)) (statechainId : String) : Option (String × List BackupTx) :=
  rows.find? (fun row => row.1 == statechainId)

/-- The first backup transaction of the coin spends the coin's output. -/
def Backed (rows : List (String × List BackupTx)) : Prop :=
  ∃ statechainId row outpoint, coin.statechainId = some statechainId ∧ rowOf rows statechainId = some row ∧
    RowSpends kit row outpoint ∧ HasOutPoint coin outpoint

/-- The output that is found for the coin is the one that it has, or that has been backed up for it, and
is listed at a height that the chain has reached. -/
def Plain (rows : List (String × List BackupTx)) : Prop :=
  ∀ address script unspent, coin.aggregatedAddress = some address →
    kit.btc.scriptOfAddress address kit.network = some script →
    findDeposit coin (chain.unspents script) = .ok (some unspent) →
      unspent.txPos.toNat < 2 ^ 32 ∧ unspent.height ≤ chain.height ∧
      (coin.status ≠ .initialised → HasOutPoint coin (outpointOf unspent)) ∧
      (coin.status = .initialised → ∀ statechainId row, coin.statechainId = some statechainId →
        rowOf rows statechainId = some row → RowSpends kit row (outpointOf unspent))

end Deposits

section Step

variable {kit} {chain : Chain} {coin : Coin} {file : File}

theorem rowOf_append {rows added : List (String × List BackupTx)} {statechainId : String} {row : String × List BackupTx}
    (h : rowOf rows statechainId = some row) : rowOf (rows ++ added) statechainId = some row := by
  rw [rowOf, List.find?_append, ← rowOf, h]
  rfl

theorem Backed.append {rows : List (String × List BackupTx)} (h : Backed kit coin rows)
    (added : List (String × List BackupTx)) : Backed kit coin (rows ++ added) := by
  obtain ⟨statechainId, row, outpoint, hid, hrow, hspends, houtpoint⟩ := h
  exact ⟨statechainId, row, outpoint, hid, rowOf_append hrow, hspends, houtpoint⟩

theorem confirmations_of_isConfirmedAt {unspent : Unspent} (hpos : 0 < unspent.height) (hle : unspent.height ≤ chain.height)
    (h : isConfirmedAt kit chain.height unspent = true) :
    0 < unspent.height.toNat ∧
      unspent.height.toNat + kit.clientConfig.confirmationTarget.toNat ≤ chain.height.toNat + 1 := by
  have hpos : 0 < unspent.height.toNat := UInt64.lt_iff_toNat_lt.mp hpos
  have hle : unspent.height.toNat ≤ chain.height.toNat := UInt64.le_iff_toNat_le.mp hle
  have htarget : kit.clientConfig.confirmationTarget.toNat ≤ (chain.height - unspent.height + 1).toUInt32.toNat :=
    UInt32.le_iff_toNat_le.mp (of_decide_eq_true h)
  have hcount : (chain.height - unspent.height + 1).toNat = chain.height.toNat - unspent.height.toNat + 1 := by
    have := chain.height.toNat_lt
    rw [UInt64.toNat_add, UInt64.toNat_sub_of_le _ _ (UInt64.le_iff_toNat_le.mpr hle)]
    exact Nat.mod_eq_of_lt (by simp; omega)
  rw [UInt64.toNat_toUInt32, hcount] at htarget
  have := Nat.mod_le (chain.height.toNat - unspent.height.toNat + 1) (2 ^ 32)
  omega

theorem listed_of_found {address : String} {script : Bytes} {unspent : Unspent}
    (haddress : coin.aggregatedAddress = some address)
    (hscript : kit.btc.scriptOfAddress address kit.network = some script) (hmem : unspent ∈ chain.unspents script)
    (houtpoint : HasOutPoint coin (outpointOf unspent)) (hpos : unspent.txPos.toNat < 2 ^ 32)
    (hle : unspent.height ≤ chain.height) {status : WalletData.CoinStatus} (hstatus : status ≠ .confirmed)
    (h : statusAt kit status chain.height unspent = .confirmed) : Listed kit chain coin := by
  unfold statusAt at h
  split_ifs at h with hheight hconfirmed
  · refine ⟨address, script, unspent, haddress, hscript, hmem, houtpoint.1, ?_,
      confirmations_of_isConfirmedAt hheight hle hconfirmed⟩
    rw [houtpoint.2, Option.map_some, outpointOf, UInt64.toNat_toUInt32, Nat.mod_eq_of_lt hpos]
  · exact absurd h hstatus

section Record

variable [Mul F] [NatCast F] [LT F] [DecidableLT F]

theorem yields_createTx1_spends {setup : Setup E K F}
    (hcodec : ∀ tx, setup.btc.deserialize (setup.btc.serialize tx) = .ok tx) (coin : Coin) (network : String)
    (txN : UInt32) :
    Yields KeepsWallet
      (fun r => SameCoin coin r.1 ∧ r.1.aggregatedAddress = coin.aggregatedAddress ∧
        ∃ outpoint, HasOutPoint coin outpoint ∧ getPreviousOutpoint setup.btc r.2 = .ok outpoint)
      (createTx1 setup coin network txN) := by
  refine yields_lift_bind (fun toAddress _ => ?_)
  refine yields_bind yields_infoConfig (fun serverInfo _ => ?_)
  refine yields_bind (yields_newTransaction_request _ _ _ _ _ _ _ _ _) (fun r hr => ?_)
  obtain ⟨coinNonce, serverPublicNonce, height, request, signature, hcoin, hrequest, hsigned⟩ := hr
  refine yields_lift_bind (fun _ _ => ?_)
  refine yields_lift_bind (fun _ _ => ?_)
  refine yields_lift_bind (fun _ _ => ?_)
  refine yields_lift_bind (fun backupTx hbackupTx => ?_)
  refine yields_lift_bind (fun blockHeight _ => ?_)
  obtain ⟨outpoint, houtpoint, hbuilt⟩ := built_of_request hcodec hrequest hsigned
  rw [← (backupTxOf_eq_ok hbackupTx).1] at hbuilt
  rw [hcoin] at houtpoint ⊢
  exact yields_pure ⟨⟨rfl, rfl, rfl⟩, rfl, outpoint, houtpoint, getPreviousOutpoint_of_built hcodec hbuilt⟩

variable (kit) in
/-- A new coin gets the output, and a transaction that spends it. -/
def Recorded (coin : Coin) (unspent : Unspent) (r : Coin × Option DepositResult) : Prop :=
  if coin.status = .initialised then
    r.1.statechainId = coin.statechainId ∧ r.1.aggregatedAddress = coin.aggregatedAddress ∧ r.1.status = .inMempool ∧
      HasOutPoint r.1 (outpointOf unspent) ∧
      ∃ result, r.2 = some result ∧ getPreviousOutpoint kit.btc result.backupTx = .ok (outpointOf unspent)
  else r = (coin, none)

theorem yields_recordDeposit_spends (hcodec : ∀ tx, kit.btc.deserialize (kit.btc.serialize tx) = .ok tx) (coin : Coin)
    (network : String) (unspent : Unspent) :
    Yields OffFile (Recorded kit coin unspent) (recordDeposit kit coin network unspent) := by
  unfold recordDeposit Recorded
  split_ifs with hnew
  · refine yields_bind (yields_send (yields_createTx1_spends hcodec _ _ _) (fun c hc => ?_)) (fun r hr => ?_)
    · cases c <;> trivial
    · obtain ⟨hsame, haddress, outpoint, houtpoint, hspends⟩ := hr
      refine yields_bind (yields_ask_bind (Call.sending .utcNow) _ trivial (fun date => yields_pure trivial))
        (fun activity (_ : True) => yields_pure ?_)
      have hfunding := hsame.funding
      refine ⟨congrArg Prod.fst hfunding, haddress, hsame.status, ⟨?_, ?_⟩, _, rfl, ?_⟩
      · exact congrArg (fun f => f.2.1) hfunding
      · exact congrArg (fun f => f.2.2) hfunding
      · rw [hspends]
        obtain ⟨txid, vout⟩ := outpoint
        cases Option.some.inj houtpoint.1
        cases Option.some.inj houtpoint.2
        rfl
  · exact yields_pure rfl

end Record

section Read

variable {α : Type} {ok : α → File → Prop} {err : File → Prop}

theorem attempts_scriptListUnspent_bind {script : Bytes} {f : List Unspent → Operation F α} (herr : err file)
    (h : Attempts (handle chain) ok err (f (chain.unspents script)) file) :
    Attempts (handle chain) ok err (scriptListUnspent script >>= f) file := by
  refine attempts_bind (attempts_ask_bind _ _ (fun oracle => attempts_lift herr (fun unspents hunspents => ?_)))
  rw [← Option.some.inj (selectRow_eq_ok (anyhow_eq_ok.mp hunspents))]
  exact h

theorem attempts_blockHeadersSubscribeRaw_bind {f : UInt64 → Operation F α} (herr : err file)
    (h : Attempts (handle chain) ok err (f chain.height) file) :
    Attempts (handle chain) ok err (send blockHeadersSubscribeRaw >>= f) file := by
  have hsend : (send blockHeadersSubscribeRaw : Operation F UInt64) =
      ask (Call.sending .blockHeadersSubscribeRaw : Call F) >>= fun height : Except String UInt64 =>
        liftM (anyhow height) := rfl
  rw [hsend]
  refine attempts_bind (attempts_ask_bind _ _ (fun oracle => attempts_lift herr (fun height hheight => ?_)))
  rw [← Option.some.inj (selectRow_eq_ok (anyhow_eq_ok.mp hheight))]
  exact h

end Read

section Check

variable (kit chain) in
/-- What `check_deposit` makes of a coin: it is confirmed only as one that is listed, and it is backed up
by what is stored or by the transaction that comes with it. -/
structure Deposited (rows : List (String × List BackupTx)) (coin : Coin) (r : Coin × Option DepositResult) : Prop where
  statechainId : r.1.statechainId = coin.statechainId
  listed : r.1.status = .confirmed → Listed kit chain r.1
  stored : r.2 = none → r.1.status ≠ .initialised → Backed kit r.1 rows
  made : ∀ result, r.2 = some result → ∃ outpoint, HasOutPoint r.1 outpoint ∧
    getPreviousOutpoint kit.btc result.backupTx = .ok outpoint ∧
    ∀ statechainId row, coin.statechainId = some statechainId → rowOf rows statechainId = some row →
      RowSpends kit row outpoint

theorem deposited_same {rows : List (String × List BackupTx)} (hwaiting : isWaiting coin.status)
    (hbacked : coin.status ≠ .initialised → Backed kit coin rows) : Deposited kit chain rows coin (coin, none) := by
  refine ⟨rfl, fun h => ?_, fun _ => hbacked, nofun⟩
  obtain hstatus | hstatus | hstatus := hwaiting <;> cases h.symm.trans hstatus

theorem deposited_of_recorded {rows : List (String × List BackupTx)} {address : String} {script : Bytes}
    {unspent : Unspent} {r : Coin × Option DepositResult} (hwaiting : isWaiting coin.status)
    (hplain : Plain kit chain coin rows) (hbacked : coin.status ≠ .initialised → Backed kit coin rows)
    (haddress : coin.aggregatedAddress = some address)
    (hscript : kit.btc.scriptOfAddress address kit.network = some script)
    (hfound : findDeposit coin (chain.unspents script) = .ok (some unspent)) (h : Recorded kit coin unspent r) :
    Deposited kit chain rows coin ({ r.1 with status := statusAt kit r.1.status chain.height unspent }, r.2) := by
  obtain ⟨hpos, hle, hrecorded, hnew⟩ := hplain address script unspent haddress hscript hfound
  have hmem := (mem_of_findDeposit hfound).1
  have hcases : statusAt kit r.1.status chain.height unspent = .confirmed ∨ _ ∨ _ :=
    statusAt_cases r.1.status chain.height unspent
  unfold Recorded at h
  split_ifs at h with hstatus
  · obtain ⟨hid, hsame, hmempool, houtpoint, result, hresult, hspends⟩ := h
    refine ⟨hid, fun hconfirmed => ?_, fun hnone => ?_, fun result' hresult' => ?_⟩
    · exact listed_of_found (hsame.trans haddress) hscript hmem houtpoint hpos hle
        (fun h => by cases hmempool.symm.trans h) hconfirmed
    · cases hresult.symm.trans hnone
    · cases Option.some.inj (hresult.symm.trans hresult')
      exact ⟨outpointOf unspent, houtpoint, hspends, hnew hstatus⟩
  · subst h
    refine ⟨rfl, fun hconfirmed => ?_, fun _ _ => hbacked hstatus, nofun⟩
    refine listed_of_found haddress hscript hmem (hrecorded hstatus) hpos hle ?_ hconfirmed
    rintro h
    obtain hwaiting | hwaiting | hwaiting := hwaiting <;> cases h.symm.trans hwaiting

variable [Mul F] [NatCast F] [LT F] [DecidableLT F]

theorem attempts_checkDeposit (hcodec : ∀ tx, kit.btc.deserialize (kit.btc.serialize tx) = .ok tx) {network : String}
    (hwaiting : isWaiting coin.status) (hplain : Plain kit chain coin file.rows)
    (hbacked : coin.status ≠ .initialised → Backed kit coin file.rows) :
    Attempts (handle chain) (fun r file' => file' = file ∧ Deposited kit chain file.rows coin r)
      (fun file' => file' = file) (checkDeposit kit coin network) file := by
  unfold checkDeposit
  split_ifs
  · exact attempts_bind (attempts_lift rfl fun _ _ => attempts_pure ⟨rfl, deposited_same hwaiting hbacked⟩)
  · refine attempts_bind (attempts_lift rfl fun address haddress => ?_)
    refine attempts_bind (attempts_lift rfl fun script hscript => ?_)
    refine attempts_scriptListUnspent_bind rfl ?_
    refine attempts_bind (attempts_lift rfl fun found hfound => ?_)
    cases found with
    | none => exact attempts_pure ⟨rfl, deposited_same hwaiting hbacked⟩
    | some unspent =>
      dsimp only
      split_ifs
      · exact attempts_pure ⟨rfl, deposited_same hwaiting hbacked⟩
      · refine attempts_blockHeadersSubscribeRaw_bind rfl ?_
        refine attempts_bind (attempts_mono (fun r file' hr => ?_) (fun _ h => h)
          (attempts_of_yields_still (yields_recordDeposit_spends hcodec coin network unspent)
            (fun oracle c file hc => handle_offFile chain oracle c file hc)))
        obtain ⟨rfl, hr⟩ := hr
        exact attempts_pure ⟨rfl, deposited_of_recorded hwaiting hplain hbacked (unwrap_eq_ok.mp haddress)
          (orThrow_eq_ok.mp hscript) hfound hr⟩

end Check

section Loop

/-- Rows are added for coins that wait for their deposit, and for no other ones. -/
structure Grows (coins : List Coin) (file file' : File) : Prop where
  wallet : file'.wallet = file.wallet
  rows : ∃ added, file'.rows = file.rows ++ added ∧
    ∀ row ∈ added, ∃ coin ∈ coins, isWaiting coin.status ∧ coin.statechainId = some row.1

theorem grows_refl (coins : List Coin) (file : File) : Grows coins file file :=
  ⟨rfl, [], (List.append_nil _).symm, nofun⟩

theorem Grows.cons {first : Coin} {coins : List Coin} {a b c : File} (h : Grows [first] a b) (h' : Grows coins b c) :
    Grows (first :: coins) a c := by
  obtain ⟨hwallet, added, hrows, hadded⟩ := h
  obtain ⟨hwallet', added', hrows', hadded'⟩ := h'
  refine ⟨hwallet'.trans hwallet, added ++ added', ?_, fun row hrow => ?_⟩
  · rw [hrows', hrows, List.append_assoc]
  · obtain hrow | hrow := List.mem_append.mp hrow
    · obtain ⟨coin, hcoin, hrow⟩ := hadded row hrow
      exact ⟨coin, List.mem_cons.mpr (.inl (List.mem_singleton.mp hcoin)), hrow⟩
    · obtain ⟨coin, hcoin, hrow⟩ := hadded' row hrow
      exact ⟨coin, List.mem_cons_of_mem first hcoin, hrow⟩

/-- Two coins that wait for their deposits do so for different statechains. -/
def Apart (a b : Coin) : Prop :=
  isWaiting a.status → isWaiting b.status → ∀ statechainId, a.statechainId = some statechainId →
    b.statechainId ≠ some statechainId

variable (kit chain) in
/-- A waiting coin finds its own output, and once it has one its first transaction spends it. -/
def Settled (rows : List (String × List BackupTx)) (coin : Coin) : Prop :=
  isWaiting coin.status → Plain kit chain coin rows ∧ (coin.status ≠ .initialised → Backed kit coin rows)

theorem Settled.grows {first : Coin} {file' : File} (h : Settled kit chain file.rows coin)
    (hgrows : Grows [first] file file') (hapart : Apart first coin) : Settled kit chain file'.rows coin := by
  intro hwaiting
  obtain ⟨-, added, hrows, hadded⟩ := hgrows
  obtain ⟨hplain, hbacked⟩ := h hwaiting
  rw [hrows]
  refine ⟨fun address script unspent haddress hscript hfound => ?_, fun hstatus => (hbacked hstatus).append added⟩
  obtain ⟨hpos, hle, hrecorded, hnew⟩ := hplain address script unspent haddress hscript hfound
  refine ⟨hpos, hle, hrecorded, fun hstatus statechainId row hid hrow => ?_⟩
  refine hnew hstatus statechainId row hid ?_
  rw [rowOf, List.find?_append, ← rowOf, Option.or_eq_some_iff] at hrow
  obtain hrow | ⟨-, hrow⟩ := hrow
  · exact hrow
  · obtain ⟨other, hother, hwaiting', hid'⟩ := hadded row (List.mem_of_find?_eq_some hrow)
    cases List.mem_singleton.mp hother
    have hname : row.1 = statechainId := by simpa using List.find?_some hrow
    rw [hname] at hid'
    exact absurd hid (hapart hwaiting' hwaiting statechainId hid')

variable (kit chain) in
/-- What the loop makes of a waiting coin. -/
structure Watched (rows : List (String × List BackupTx)) (old new : Coin) : Prop where
  statechainId : new.statechainId = old.statechainId
  listed : isWaiting old.status → new.status = .confirmed → Listed kit chain new
  backed : isWaiting old.status → new.status ≠ .initialised → Backed kit new rows

theorem Watched.grows {coins : List Coin} {old new : Coin} {file' : File} (h : Watched kit chain file.rows old new)
    (hgrows : Grows coins file file') : Watched kit chain file'.rows old new := by
  obtain ⟨-, added, hrows, -⟩ := hgrows
  rw [hrows]
  exact ⟨h.statechainId, h.listed, fun hwaiting hnew => (h.backed hwaiting hnew).append added⟩

theorem watched_of_not_waiting {rows : List (String × List BackupTx)} {old new : Coin} (hid : new.statechainId = old.statechainId)
    (h : ¬isWaiting old.status) : Watched kit chain rows old new :=
  ⟨hid, fun hwaiting => absurd hwaiting h, fun hwaiting => absurd hwaiting h⟩

/-- The transaction that comes with a deposit is stored behind those that are there. -/
theorem watched_of_made {coin' : Coin} {result : DepositResult} {statechainId : String}
    (h : Deposited kit chain file.rows coin (coin', some result)) (hid : coin'.statechainId = some statechainId) :
    Watched kit chain (file.rows ++ [(statechainId, [result.backupTx])]) coin coin' := by
  obtain ⟨outpoint, houtpoint, hspends, hstored⟩ := h.made result rfl
  refine ⟨h.statechainId, fun _ => h.listed, fun _ _ => ?_⟩
  cases hrow : rowOf file.rows statechainId with
  | some row =>
    exact ⟨statechainId, row, outpoint, hid, rowOf_append hrow, hstored statechainId row (h.statechainId ▸ hid) hrow,
      houtpoint⟩
  | none =>
    refine ⟨statechainId, (statechainId, [result.backupTx]), outpoint, hid, ?_, ⟨result.backupTx, rfl, hspends⟩, houtpoint⟩
    rw [rowOf, List.find?_append, ← rowOf, hrow, Option.none_or]
    simp

variable [DecidableEq E] [Mul F] [NatCast F] [LT F] [DecidableLT F] (hcodec : ∀ tx, kit.btc.deserialize (kit.btc.serialize tx) = .ok tx)

include hcodec

theorem attempts_updateCoin (walletName network : String) (hsettled : Settled kit chain file.rows coin) :
    Attempts (handle chain) (fun r file' => Grows [coin] file file' ∧ Watched kit chain file'.rows coin r.1)
      (fun file' => Grows [coin] file file') (updateCoin kit walletName network coin) file := by
  have hsame : ¬isWaiting coin.status → Attempts (handle chain)
      (fun r file' => Grows [coin] file file' ∧ Watched kit chain file'.rows coin r.1)
      (fun file' => Grows [coin] file file') (pure (coin, []) : Operation F (Coin × List Activity)) file :=
    fun h => attempts_pure ⟨grows_refl _ _, watched_of_not_waiting rfl h⟩
  have hdeposit : isWaiting coin.status → Attempts (handle chain)
      (fun r file' => Grows [coin] file file' ∧ Watched kit chain file'.rows coin r.1)
      (fun file' => Grows [coin] file file') (updateDeposit kit walletName network coin) file := by
    intro hwaiting
    obtain ⟨hplain, hbacked⟩ := hsettled hwaiting
    refine attempts_bind (attempts_mono (fun r file' hr => ?_) (fun file' h => h ▸ grows_refl _ _)
      (attempts_checkDeposit hcodec hwaiting hplain hbacked))
    obtain ⟨rfl, hr⟩ := hr
    obtain ⟨coin', depositResult⟩ := r
    cases depositResult with
    | none =>
      exact attempts_pure ⟨grows_refl _ _, hr.statechainId, fun _ => hr.listed, fun _ => hr.stored rfl⟩
    | some depositResult =>
      refine attempts_bind (attempts_lift (grows_refl _ _) fun statechainId hid => ?_)
      have hid := unwrap_eq_ok.mp hid
      have hinserted : Grows [coin] file'
          { file' with rows := file'.rows ++ [(statechainId, [depositResult.backupTx])] } := by
        refine ⟨rfl, _, rfl, fun row hrow => ⟨coin, List.mem_singleton.mpr rfl, hwaiting, ?_⟩⟩
        rw [List.mem_singleton.mp hrow, ← hr.statechainId]
        exact hid
      refine attempts_bind (attempts_ask_bind (Call.insertBackupTxs walletName statechainId _) _ (fun oracle => ?_))
      obtain ⟨hcases, hwritten⟩ := updateRow_cases oracle.fault file'
        { file' with rows := file'.rows ++ [(statechainId, [depositResult.backupTx])] }
      refine attempts_lift ?_ (fun _ hstored => ?_)
      · change Grows [coin] file' (updateRow _ _ _).2
        obtain h | h := hcases
        · rw [h]
          exact grows_refl _ _
        · rw [h]
          exact hinserted
      · have hfile := hwritten (anyhow_eq_ok.mp hstored)
        change Attempts _ _ _ _ (updateRow _ _ _).2
        rw [hfile]
        exact attempts_pure ⟨hinserted, watched_of_made hr hid⟩
  have hasks {α : Type} {p : Operation F α} {post : α → Prop} (h : Yields Asks post p) :
      Attempts (handle chain) (fun a file' => file' = file ∧ post a) (fun file' => Grows [coin] file file') p file :=
    attempts_mono (fun _ _ h => h) (fun file' h => h ▸ grows_refl _ _)
      (attempts_of_yields_still h (fun oracle c file hc => handle_offFile chain oracle c file (offFile_of_asks c hc)))
  have hwaits {status : WalletData.CoinStatus} (hstatus : coin.status = status) (h : ¬isWaiting status) :
      ¬isWaiting coin.status := by
    rw [hstatus]
    exact h
  unfold updateCoin
  cases hstatus : coin.status with
  | initialised => exact hdeposit (.inl hstatus)
  | inMempool => exact hdeposit (.inr (.inl hstatus))
  | unconfirmed => exact hdeposit (.inr (.inr hstatus))
  | inTransfer =>
    refine attempts_bind (attempts_mono (fun isTransferred file' hfile => ?_) (fun _ h => h)
      (hasks (asks_checkTransfer coin)))
    obtain ⟨rfl, -⟩ := hfile
    refine attempts_pure ⟨grows_refl _ _, watched_of_not_waiting ?_ (hwaits hstatus (by decide))⟩
    cases isTransferred <;> rfl
  | withdrawing =>
    refine attempts_bind (attempts_mono (fun new file' hfile => ?_) (fun _ h => h)
      (hasks (asks_checkWithdrawal coin)))
    obtain ⟨rfl, hnew⟩ := hfile
    refine attempts_pure ⟨grows_refl _ _, watched_of_not_waiting ?_ (hwaits hstatus (by decide))⟩
    obtain rfl | rfl := hnew <;> rfl
  | confirmed => exact hsame (hwaits hstatus (by decide))
  | transferred => exact hsame (hwaits hstatus (by decide))
  | withdrawn => exact hsame (hwaits hstatus (by decide))
  | duplicated => exact hsame (hwaits hstatus (by decide))
  | invalidated => exact hsame (hwaits hstatus (by decide))

theorem attempts_updateEach (walletName network : String) (coins : List Coin) (file : File)
    (hsettled : ∀ coin ∈ coins, Settled kit chain file.rows coin) (hapart : coins.Pairwise Apart) :
    Attempts (handle chain)
      (fun r file' => Grows coins file file' ∧ List.Forall₂ (Watched kit chain file'.rows) coins r.1)
      (fun file' => Grows coins file file') (updateEach kit walletName network coins) file := by
  induction coins generalizing file with
  | nil => exact attempts_pure ⟨grows_refl _ _, .nil⟩
  | cons first coins ih =>
    obtain ⟨hfirst, hsettled⟩ := List.forall_mem_cons.mp hsettled
    obtain ⟨hfirstApart, hapart⟩ := List.pairwise_cons.mp hapart
    refine attempts_bind (attempts_mono (fun r file' hr => ?_) (fun file' h => h.cons (grows_refl _ _))
      (attempts_updateCoin hcodec walletName network hfirst))
    obtain ⟨hgrows, hwatched⟩ := hr
    have hrest := ih file' (fun coin hcoin => (hsettled coin hcoin).grows hgrows (hfirstApart coin hcoin)) hapart
    refine attempts_bind (attempts_mono (fun rs file'' hrs => ?_) (fun file'' h => hgrows.cons h) hrest)
    exact attempts_pure ⟨hgrows.cons hrs.1, .cons (hwatched.grows hrs.1) hrs.2⟩

end Loop

section Save

variable (kit) in
/-- Waiting coins wait for different statechains, and those that have an output are backed up. -/
structure Sound (file : File) : Prop where
  apart : file.wallet.coins.Pairwise Apart
  backed : ∀ coin ∈ file.wallet.coins, isWaiting coin.status → coin.status ≠ .initialised → Backed kit coin file.rows

variable (kit) in
/-- Every waiting coin finds its own output. -/
def AllPlain (chain : Chain) (file : File) : Prop :=
  ∀ coin ∈ file.wallet.coins, isWaiting coin.status → Plain kit chain coin file.rows

variable (kit) in
/-- A coin that is confirmed from one file to the next is listed, with the output that its first backup
transaction spends. -/
def ConfirmsListed (chain : Chain) (file file' : File) : Prop :=
  ∀ (place : ℕ) (old new : Coin), file.wallet.coins[place]? = some old → file'.wallet.coins[place]? = some new →
    isWaiting old.status → new.status = .confirmed → Listed kit chain new ∧ Backed kit new file'.rows

theorem sound_of_grows {file' : File} (h : Sound kit file) (hgrows : Grows file.wallet.coins file file') :
    Sound kit file' := by
  obtain ⟨hwallet, added, hrows, -⟩ := hgrows
  refine ⟨hwallet.symm ▸ h.apart, fun coin hcoin hwaiting hstatus => ?_⟩
  rw [hwallet] at hcoin
  rw [hrows]
  exact (h.backed coin hcoin hwaiting hstatus).append added

theorem confirmsListed_of_grows {file' : File} (hgrows : Grows file.wallet.coins file file') :
    ConfirmsListed kit chain file file' := by
  intro place old new hold hnew hwaiting hconfirmed
  rw [hgrows.wallet] at hnew
  cases Option.some.inj (hold.symm.trans hnew)
  rw [hconfirmed] at hwaiting
  exact absurd hwaiting (by decide)

theorem isWaiting_of_updated {old new : Coin} (h : Updated old new) (hnew : isWaiting new.status) :
    isWaiting old.status := by
  obtain hsame | hbecome := h.steps.status
  · rw [← hsame]
    exact hnew
  · revert hnew hbecome
    cases old.status <;> cases new.status <;> decide

theorem eq_of_invalidated {coins : List Coin} {place : ℕ} {new : Coin}
    (h : (invalidateDuplicated coins)[place]? = some new) (hnew : new.status ≠ .invalidated) :
    coins[place]? = some new := by
  rw [invalidateDuplicated, List.getElem?_map, Option.map_eq_some_iff] at h
  obtain ⟨coin, hcoin, rfl⟩ := h
  split_ifs at hnew ⊢
  · exact absurd rfl hnew
  · exact hcoin

theorem pairwise_invalidateDuplicated {coins : List Coin} (h : coins.Pairwise Apart) :
    (invalidateDuplicated coins).Pairwise Apart := by
  refine List.pairwise_map.mpr (h.imp fun {a b} hab => ?_)
  intro ha hb
  split_ifs at ha hb ⊢
  · exact absurd ha (by simp [isWaiting])
  · exact absurd ha (by simp [isWaiting])
  · exact absurd hb (by simp [isWaiting])
  · exact hab ha hb

theorem sound_of_saved {wallet : Wallet} {coins duplicated : List Coin} (hsound : Sound kit file)
    (hwatched : List.Forall₂ (Watched kit chain file.rows) file.wallet.coins coins)
    (hupdated : List.Forall₂ Updated file.wallet.coins coins)
    (hduplicated : ∀ coin ∈ duplicated, coin.status = .duplicated)
    (hwallet : wallet.coins = invalidateDuplicated (coins ++ duplicated)) : Sound kit { file with wallet := wallet } := by
  have hboth := List.Forall₂.mp (S := fun old new => Watched kit chain file.rows old new ∧ Updated old new)
    (fun _ _ h h' => ⟨h, h'⟩) hwatched hupdated
  have hnot : ∀ coin ∈ duplicated, ¬isWaiting coin.status := by
    intro coin hcoin
    rw [hduplicated coin hcoin]
    decide
  constructor
  · change wallet.coins.Pairwise Apart
    rw [hwallet]
    refine pairwise_invalidateDuplicated (List.pairwise_append.mpr ⟨?_, ?_, fun a _ b hb _ hwaiting => ?_⟩)
    · refine pairwise_of_forall₂ (fun a a' b b' hab hab' hapart hb hb' => ?_) hboth hsound.apart
      rw [hab.1.statechainId, hab'.1.statechainId]
      exact hapart (isWaiting_of_updated hab.2 hb) (isWaiting_of_updated hab'.2 hb')
    · exact List.pairwise_of_forall_mem_list (fun a ha b _ hwaiting => absurd hwaiting (hnot a ha))
    · exact absurd hwaiting (hnot b hb)
  · intro coin hcoin hwaiting hstatus
    change coin ∈ wallet.coins at hcoin
    rw [hwallet] at hcoin
    obtain ⟨place, hplace⟩ := List.mem_iff_getElem?.mp hcoin
    have hne : coin.status ≠ .invalidated := by
      intro h
      rw [h] at hwaiting
      exact absurd hwaiting (by decide)
    obtain hcoin | hcoin := List.mem_append.mp (List.mem_of_getElem? (eq_of_invalidated hplace hne))
    · obtain ⟨i, hi⟩ := List.mem_iff_getElem?.mp hcoin
      obtain ⟨old, -, hold⟩ := forall₂_getElem? hboth.flip hi
      exact hold.1.backed (isWaiting_of_updated hold.2 hwaiting) hstatus
    · exact absurd hwaiting (hnot coin hcoin)

theorem confirmsListed_of_saved {file' : File} {wallet : Wallet} {coins duplicated : List Coin}
    (hwatched : List.Forall₂ (Watched kit chain file'.rows) file.wallet.coins coins)
    (hwallet : wallet.coins = invalidateDuplicated (coins ++ duplicated)) :
    ConfirmsListed kit chain file { file' with wallet := wallet } := by
  intro place old new hold hnew hwaiting hconfirmed
  change wallet.coins[place]? = some new at hnew
  rw [hwallet] at hnew
  have hnew := eq_of_invalidated hnew (by rw [hconfirmed]; decide)
  obtain ⟨coin, hcoin, hwatch⟩ := forall₂_getElem? hwatched hold
  rw [List.getElem?_append_left (List.getElem?_eq_some_iff.mp hcoin).1, hcoin] at hnew
  cases Option.some.inj hnew
  refine ⟨hwatch.listed hwaiting hconfirmed, hwatch.backed hwaiting ?_⟩
  rw [hconfirmed]
  decide

theorem attempts_save {good : File → Prop} {wallet : Wallet} (h : good file) (h' : good { file with wallet := wallet }) :
    Attempts (handle chain) (fun _ => good) good (updateWallet wallet : Operation F Unit) file := by
  refine attempts_ask_bind (Call.sending (.updateWallet wallet)) _ (fun oracle => ?_)
  have hend : good (updateRow oracle.fault file { file with wallet := wallet }).2 := by
    obtain hwritten | hwritten := (updateRow_cases oracle.fault file { file with wallet := wallet }).1
    · rw [hwritten]
      exact h
    · rw [hwritten]
      exact h'
  exact attempts_lift hend (fun _ _ => hend)

variable [DecidableEq E] [Mul F] [NatCast F] [LT F] [DecidableLT F]

theorem attempts_updateCoins (hcodec : ∀ tx, kit.btc.deserialize (kit.btc.serialize tx) = .ok tx) (walletName : String)
    (hsound : Sound kit file) (hplain : AllPlain kit chain file) :
    Attempts (handle chain) (fun _ file' => Sound kit file' ∧ ConfirmsListed kit chain file file')
      (fun file' => Sound kit file' ∧ ConfirmsListed kit chain file file') (updateCoins kit walletName) file := by
  have hgood {file' : File} (h : Grows file.wallet.coins file file') :
      Sound kit file' ∧ ConfirmsListed kit chain file file' :=
    ⟨sound_of_grows hsound h, confirmsListed_of_grows h⟩
  have hsettled : ∀ coin ∈ file.wallet.coins, Settled kit chain file.rows coin :=
    fun coin hcoin hwaiting => ⟨hplain coin hcoin hwaiting, hsound.backed coin hcoin hwaiting⟩
  refine attempts_bind (attempts_ask_bind (Call.sending (.getWallet walletName)) _ (fun oracle => ?_))
  refine attempts_lift (hgood (grows_refl _ _)) (fun wallet hwallet => ?_)
  cases Option.some.inj (selectRow_eq_ok (anyhow_eq_ok.mp hwallet))
  refine attempts_bind (attempts_mono (fun r file' hr => ?_) (fun _ h => hgood h) (attempts_and_yields
    (attempts_updateEach hcodec file.wallet.name file.wallet.network _ file hsettled hsound.apart)
    (yields_updateEach file.wallet.name file.wallet.network file.wallet.coins)))
  obtain ⟨⟨hgrows, hwatched⟩, hupdated⟩ := hr
  refine attempts_bind (attempts_mono (fun duplicated file'' h => ?_) (fun _ h => h ▸ hgood hgrows)
    (attempts_of_yields_still (asks_duplicatesFor r.1 r.1)
      (fun oracle c file hc => handle_offFile chain oracle c file (offFile_of_asks c hc))))
  obtain ⟨rfl, hduplicated⟩ := h
  have hcoins : file''.wallet.coins = file.wallet.coins := congrArg Wallet.coins hgrows.wallet
  have hwatched' : List.Forall₂ (Watched kit chain file''.rows) file''.wallet.coins r.1 := by
    rw [hcoins]
    exact hwatched
  have hupdated' : List.Forall₂ Updated file''.wallet.coins r.1 := by
    rw [hcoins]
    exact hupdated
  exact attempts_save (hgood hgrows) ⟨sound_of_saved (hgood hgrows).1 hwatched' hupdated' hduplicated rfl,
    confirmsListed_of_saved hwatched rfl⟩

theorem yields_updateCoins (walletName : String) :
    Yields (fun _ => True) (fun _ => True) (updateCoins kit walletName) := by
  refine yields_bind (yields_ask_bind (Call.sending (.getWallet walletName)) _ trivial
    (fun _ => yields_lift fun _ _ => trivial)) (fun wallet (_ : True) => ?_)
  refine yields_bind (yields_mono (fun _ _ => trivial) (fun _ h => h) (yields_updateEach _ _ _)) (fun r _ => ?_)
  refine yields_bind (yields_mono (fun _ _ => trivial) (fun _ h => h) (yields_duplicatesFor _ _)) (fun duplicated _ => ?_)
  exact yields_ask_bind (Call.sending (.updateWallet _)) _ trivial (fun _ => yields_lift fun _ _ => trivial)

end Save

end Step

section Run

variable [DecidableEq E] [Mul F] [NatCast F] [LT F] [DecidableLT F]

/-- One call of `update_coins`, with what the chain is at that time and what the environment decides. -/
def update (walletName : String) (file : File) (visit : Chain × (ℕ → Oracle F)) : File :=
  (exec (handle visit.1) (updateCoins kit walletName).run visit.2 file).2

variable {kit}

theorem update_sound (hcodec : ∀ tx, kit.btc.deserialize (kit.btc.serialize tx) = .ok tx) {walletName : String}
    {file : File} {visit : Chain × (ℕ → Oracle F)} (hsound : Sound kit file) (hplain : AllPlain kit visit.1 file) :
    Sound kit (update kit walletName file visit) ∧
      ConfirmsListed kit visit.1 file (update kit walletName file visit) := by
  obtain ⟨hok, herr⟩ := exec_of_attempts (attempts_updateCoins hcodec walletName hsound hplain) visit.2
  obtain ⟨r, hr⟩ : ∃ r, (exec (handle visit.1) (updateCoins kit walletName).run visit.2 file).1 = some r :=
    exec_of_yields (yields_updateCoins walletName) visit.2
  cases r with
  | ok a => exact hok a hr
  | error e => exact herr e hr

/-- Along calls of `update_coins` in which every waiting coin finds its own output, a coin is confirmed
only as one whose output is listed, the one that its first backup transaction spends. -/
theorem confirmed_only_listed (hcodec : ∀ tx, kit.btc.deserialize (kit.btc.serialize tx) = .ok tx)
    (walletName : String) {file : File} (hsound : Sound kit file) {before after : List (Chain × (ℕ → Oracle F))}
    {visit : Chain × (ℕ → Oracle F)}
    (hplain : Guarded (update kit walletName) (fun file visit => AllPlain kit visit.1 file) file
      (before ++ visit :: after)) :
    ConfirmsListed kit visit.1 (run (update kit walletName) file before)
      (run (update kit walletName) file (before ++ [visit])) := by
  obtain ⟨hbefore, hvisit, -⟩ := guarded_append.mp hplain
  have hkeeps : ∀ file visit, Sound kit file → AllPlain kit visit.1 file → Sound kit (update kit walletName file visit) :=
    fun _ _ hsound hplain => (update_sound hcodec hsound hplain).1
  rw [run_append, run_cons, run_nil]
  exact (update_sound hcodec (invariant_run hkeeps hsound hbefore) hvisit).2

end Run

section Seven

open Client.LocktimeGuard Client.Withdraw

/-- A coin whose deposit has been seen, with its first backup transaction. -/
def seenFile : File :=
  ⟨⟨"wallet", "regtest", [], [{ fundedCoin with status := .inMempool }]⟩, [("statechain", [sentOnce])]⟩

/-- An output of the coin's amount, in the last block. -/
def mined (txid : String) : Chain × (ℕ → Oracle ℕ) := (⟨fun _ => [⟨txid, 0, 1000, 1000⟩], 1000⟩, fun _ => calm)

theorem update_seenFile (txid : String) (htxid : txid = "f" ∨ txid = "g") :
    (update sevenKit "wallet" seenFile (mined txid)).wallet.coins[0]? = some fundedCoin := by
  obtain rfl | rfl := htxid <;> decide +kernel

theorem sound_seenFile : Sound sevenKit seenFile := by
  refine ⟨List.pairwise_singleton _ _, fun coin hcoin _ _ => ?_⟩
  cases List.mem_singleton.mp hcoin
  refine ⟨"statechain", ("statechain", [sentOnce]), ⟨"f", 0⟩, rfl, rfl, ⟨sentOnce, rfl, ?_⟩, rfl, rfl⟩
  decide +kernel

/-- The output that was seen is confirmed. -/
theorem confirmed_only_listed_seven :
    Listed sevenKit (mined "f").1 fundedCoin ∧
      Backed sevenKit fundedCoin (update sevenKit "wallet" seenFile (mined "f")).rows := by
  have hplain : AllPlain sevenKit (mined "f").1 seenFile := by
    intro coin hcoin _ address script unspent _ _ hfound
    cases List.mem_singleton.mp hcoin
    cases Option.some.inj (Except.ok.inj hfound)
    refine ⟨by decide, by decide, fun _ => ⟨rfl, rfl⟩, fun h => nomatch h⟩
  have hguarded : Guarded (update sevenKit "wallet") (fun file visit => AllPlain sevenKit visit.1 file) seenFile
      ([] ++ mined "f" :: []) := ⟨hplain, trivial⟩
  exact confirmed_only_listed wireBtc_codec "wallet" sound_seenFile hguarded 0 _ _ rfl
    (update_seenFile "f" (.inl rfl)) (by decide) rfl

/-- Another output of the same amount confirms the coin, although its own is not listed any more. -/
theorem other_output_confirmed_seven :
    Sound sevenKit seenFile ∧
      ¬ConfirmsListed sevenKit (mined "g").1 seenFile (update sevenKit "wallet" seenFile (mined "g")) := by
  refine ⟨sound_seenFile, fun h => ?_⟩
  obtain ⟨⟨_, _, unspent, -, -, hunspent, htxid, -⟩, -⟩ := h 0 _ _ rfl (update_seenFile "g" (.inr rfl)) (by decide) rfl
  cases List.mem_singleton.mp hunspent
  exact absurd (Option.some.inj htxid) (by decide)

end Seven

end MercuryLayer.Client.DepositWatch
