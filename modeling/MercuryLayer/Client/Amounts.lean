import MercuryLayer.Client.LifeCycle

namespace MercuryLayer.Client.Amounts

open Client.CoinSteps Client.Operations
open Client.TransferReceiver (Unspent InfoConfig anyhow_eq_ok)
open Client.Transaction hiding Call Reply
open Crates Error Library.Programs Library.Reliance
open Library.XOnlyCurve (Bytes)
open Library.Validation Receiver MercuryLayer.Transaction WalletData

variable {E K F : Type}

section Chain

/-- The values of the outputs on the chain. -/
abbrev Values : Type := OutPoint → Option UInt64

variable (kit : Kit E K F) (values : Values) (wallet : Wallet)

/-- The outputs of a fetched transaction are on the chain, under the id it was asked for by and under
its own. -/
def Tells (text : String) (txid : String) : Prop :=
  ∀ tx, kit.btc.deserialize text = .ok tx → ∀ (vout : UInt32) output, tx.output[vout.toNat]? = some output →
    values ⟨txid, vout⟩ = some output.value ∧ values ⟨kit.btc.txid tx, vout⟩ = some output.value

/-- The replies of an electrum server that tells the values on the chain, and of a file that holds
the wallet. -/
def Faithful : (c : Call F) → Reply c → Prop
  | .sending (.getWallet _), r => ∀ stored, r = Except.ok stored → stored = wallet
  | .sending (.scriptListUnspent _), r => ∀ unspents, r = Except.ok unspents → ∀ unspent ∈ unspents,
      values ⟨unspent.txHash, unspent.txPos.toUInt32⟩ = some unspent.value
  | .batchTransactionGetRaw bytes, r => ∀ texts text txid, r = Except.ok texts → texts[0]? = some text →
      kit.btc.txidFromStr txid = some bytes → Tells kit values text txid
  | _, _ => True

/-- The coin has the amount of its output. What is signed for it commits to that amount. -/
def Commits (coin : Coin) (outpoint : OutPoint) (value : UInt64) : Prop :=
  (∃ amount, coin.amount = some amount ∧ amount.toNat = value.toNat) ∧
    ∀ blockHeight output network msg,
      getMusigSession kit.secp kit.musig kit.btc coin blockHeight output network = .ok msg →
        ∃ script hash,
          kit.btc.sighash (unsignedTx outpoint blockHeight output) [{ value := value, scriptPubkey := script }] =
            some hash ∧
          calculateMusigSession kit.secp kit.musig coin hash
            (kit.btc.serialize (unsignedTx outpoint blockHeight output)) = .ok msg

/-- What a coin records of its output. -/
def outputOf (coin : Coin) : Option String × Option UInt32 × Option UInt32 :=
  (coin.utxoTxid, coin.utxoVout, coin.amount)

/-- The coin is recorded with the low half of the value of its output. -/
def Noted (coin : Coin) : Prop :=
  ∃ outpoint value, HasOutPoint coin outpoint ∧ values outpoint = some value ∧
    coin.amount = some value.toUInt32

/-- Where the output of a coin comes from: from the wallet, or from the chain. -/
def Sourced (coin : Coin) : Prop :=
  coin.utxoTxid = none ∨ (∃ old ∈ wallet.coins, outputOf coin = outputOf old) ∨ Noted values coin

def SavesSourced : Call F → Prop
  | .sending (.updateWallet saved) => ∀ coin ∈ saved.coins, Sourced values wallet coin
  | _ => True

end Chain

section Commits

variable {kit : Kit E K F} {values : Values}

theorem commits_of_amount {coin : Coin} {outpoint : OutPoint} {value : UInt64} {amount : UInt32}
    (hcoin : HasOutPoint coin outpoint) (hamount : coin.amount = some amount) (h : amount.toNat = value.toNat) :
    Commits kit coin outpoint value := by
  have hvalue : amount.toUInt64 = value := UInt64.toNat_inj.mp h
  refine ⟨⟨amount, hamount, h⟩, fun blockHeight output network msg hmsg => ?_⟩
  simp only [getMusigSession, bind_eq_ok, unwrap_eq_ok, orErr_eq_ok] at hmsg
  obtain ⟨_, -, _, -, _, -, txid, htxid, _, -, vout, hvout, _, hamount', _, -, script, -, hash, hhash, hmsg⟩ := hmsg
  cases hcoin.1.symm.trans htxid
  cases hcoin.2.symm.trans hvout
  cases hamount.symm.trans hamount'
  rw [hvalue] at hhash
  exact ⟨script, hash, hhash, hmsg⟩

/-- The low half is the value where the value has no other. -/
theorem Noted.commits_iff {coin : Coin} {outpoint : OutPoint} (h : Noted values coin)
    (hcoin : HasOutPoint coin outpoint) :
    ∃ value, values outpoint = some value ∧ (Commits kit coin outpoint value ↔ value.toNat < 2 ^ 32) := by
  obtain ⟨outpoint', value, hcoin', hvalue, hamount⟩ := h
  have hsame : outpoint' = outpoint := by
    obtain ⟨txid, vout⟩ := outpoint
    obtain ⟨txid', vout'⟩ := outpoint'
    cases hcoin'.1.symm.trans hcoin.1
    cases hcoin'.2.symm.trans hcoin.2
    rfl
  subst hsame
  have hlow : value.toUInt32.toNat = value.toNat % 2 ^ 32 := UInt64.toNat_toUInt32 value
  refine ⟨value, hvalue, fun hcommits => ?_, fun hsmall => ?_⟩
  · obtain ⟨amount, hamount', hvalue'⟩ := hcommits.1
    cases hamount.symm.trans hamount'
    rw [← hvalue', hlow]
    exact Nat.mod_lt _ (by decide)
  · exact commits_of_amount hcoin hamount (hlow.trans (Nat.mod_eq_of_lt hsmall))

end Commits

section Fetch

variable {kit : Kit E K F} {values : Values} {wallet : Wallet}

theorem assures_getTx0 (txid : String) :
    Assures (Faithful kit values wallet) Quiet (fun text => Tells kit values text txid) (fun _ => True)
      (Receive.getTx0 kit txid) := by
  refine assures_try_bind (fun bytes hbytes => ?_)
  refine assures_ask_bind (Call.batchTransactionGetRaw bytes) _ trivial (fun reply hreply => ?_)
  refine assures_try_bind (fun texts htexts => ?_)
  refine assures_lift (fun _ _ => trivial) (fun text htext => ?_)
  exact hreply texts text txid (anyhow_eq_ok.mp htexts) (orThrow_eq_ok.mp htext) (orThrow_eq_ok.mp hbytes)

theorem assures_scriptListUnspent (script : Bytes) :
    Assures (Faithful kit values wallet) Quiet
      (fun unspents => ∀ unspent ∈ unspents, values ⟨unspent.txHash, unspent.txPos.toUInt32⟩ = some unspent.value)
      (fun _ => True) (scriptListUnspent script : Operation F (List Unspent)) := by
  refine assures_ask_bind (Call.sending (.scriptListUnspent script)) _ trivial (fun reply hreply => ?_)
  exact assures_lift (fun _ _ => trivial) (fun unspents h => hreply unspents (anyhow_eq_ok.mp h))

theorem noted_of_value {coin : Coin} {outpoint : OutPoint} {value : UInt64} (hcoin : HasOutPoint coin outpoint)
    (hvalue : values outpoint = some value) (hamount : coin.amount = some value.toUInt32) : Noted values coin :=
  ⟨outpoint, value, hcoin, hvalue, hamount⟩

end Fetch

theorem savesSourced_of_quiet {values : Values} {wallet : Wallet} (c : Call F) (h : Quiet c) :
    SavesSourced values wallet c := by
  cases c with
  | sending c => cases c <;> trivial
  | _ => trivial

section Receiving

open Client.Receive

variable {kit : Kit E K F} {values : Values} {wallet : Wallet}

theorem value_of_txOutput {text txid : String} {vout : UInt32} {output : TxOut} (h : Tells kit values text txid)
    (houtput : txOutput kit.btc text vout = .ok output) : values ⟨txid, vout⟩ = some output.value := by
  simp only [txOutput, bind_eq_ok, question_eq_ok, unwrap_eq_ok] at houtput
  obtain ⟨tx, htx, houtput⟩ := houtput
  exact (h tx htx vout output houtput).1

theorem value_of_getNewKeyInfo {serverPublicKeyHex statechainId text network : String} {coin : Coin}
    {outpoint : OutPoint} {info : NewKeyInfo} (h : Tells kit values text outpoint.txid)
    (hinfo : getNewKeyInfo kit.btc kit.secp serverPublicKeyHex coin statechainId outpoint text network = .ok info) :
    ∃ value, values outpoint = some value ∧ info.amount = value.toUInt32 := by
  simp only [getNewKeyInfo, bind_eq_ok, pure_eq_ok] at hinfo
  obtain ⟨_, -, _, -, _, -, _, -, _, -, _, -, _, -, output, houtput, _, -, _, -, rfl⟩ := hinfo
  exact ⟨output.value, value_of_txOutput h houtput, rfl⟩

theorem value_of_getAmountFromTx0 {text txid : String} {outpoint : OutPoint} {amount : UInt64}
    (h : Tells kit values text txid) (hamount : getAmountFromTx0 kit.btc text outpoint = .ok amount) :
    values outpoint = some amount := by
  simp only [getAmountFromTx0, bind_eq_ok, question_eq_ok, throwIf_eq_ok, unwrap_eq_ok, pure_eq_ok] at hamount
  obtain ⟨tx, htx, _, htxid, output, houtput, rfl⟩ := hamount
  have hvalue := (h tx htx outpoint.vout output houtput).2
  rw [← not_ne_iff.mp htxid] at hvalue
  exact hvalue

variable [DecidableEq E]

theorem assures_takeOver (coin : Coin) (network : String) (transferMsg : TransferMsg)
    (backupTransactions : List BackupTx) :
    Assures (Faithful kit values wallet) Quiet (fun r => ∀ taken, r = some taken → Noted values taken.1)
      (fun _ => True) (takeOver kit coin network transferMsg backupTransactions) := by
  unfold takeOver
  refine assures_try_bind (fun tx0Outpoint _ => ?_)
  refine assures_bind (assures_getTx0 _) (fun tx0Hex htx0 => ?_)
  refine assures_yields_bind (yields_getStatechainInfo _) (fun info _ => ?_)
  refine assures_try_bind (fun statechainInfo _ => ?_)
  refine assures_yields_bind (yields_verifyTx0OutputIsUnspentAndConfirmed _ _ _)
    (fun tx0 _ => ?_)
  refine assures_try_bind (fun backupTx _ => ?_)
  refine assures_try_bind (fun lastTxLockTime _ => ?_)
  refine assures_try_bind (fun payload _ => ?_)
  refine assures_try_bind (fun signedStatechainIdForUnlock _ => ?_)
  refine assures_yields_bind (yields_unlockStatecoin _ _ _) (fun _ _ => ?_)
  refine assures_yields_bind (yields_withContext _ (yields_sendTransferReceiverRequestPayload _))
    (fun serverPubkey _ => ?_)
  cases serverPubkey with
  | none => exact assures_pure (fun _ h => nomatch h)
  | some serverPublicKeyHex =>
    refine assures_try_bind (fun newKeyInfo hinfo => ?_)
    refine assures_yields_bind (yields_createActivity _ _ _) (fun activity _ => ?_)
    refine assures_pure (fun taken htaken => ?_)
    cases Option.some.inj htaken
    obtain ⟨value, hvalue, hamount⟩ := value_of_getNewKeyInfo htx0 hinfo
    exact noted_of_value ⟨rfl, rfl⟩ hvalue (congrArg some hamount)

omit [DecidableEq E] in
theorem assures_duplicatedCoinsData (groups : List (List BackupTx × ℕ)) :
    Assures (Faithful kit values wallet) Quiet (fun data => ∀ d ∈ data, values ⟨d.txid, d.vout⟩ = some d.amount)
      (fun _ => True) (duplicatedCoinsData kit groups) := by
  induction groups with
  | nil => exact assures_pure (fun _ h => nomatch h)
  | cons group groups ih =>
    refine assures_bind (?_ : Assures _ _ (fun d => values ⟨d.txid, d.vout⟩ = some d.amount) _ _) (fun d hd => ?_)
    · refine assures_try_bind (fun tx0Outpoint _ => ?_)
      refine assures_bind (assures_getTx0 _) (fun tx0Hex htx0 => ?_)
      refine assures_try_bind (fun firstBackupTx _ => ?_)
      refine assures_try_bind (fun txOutpoint _ => ?_)
      refine assures_try_bind (fun amount hamount => ?_)
      exact assures_pure (value_of_getAmountFromTx0 htx0 hamount)
    · exact assures_bind ih (fun data hdata => assures_pure (List.forall_mem_cons.mpr ⟨hd, hdata⟩))

/-- What the message leaves of its coin, and the further deposits it brings. -/
def LeavesNoted (values : Values) (old new : Coin) (data : List DuplicatedCoinData) : Prop :=
  (new = old ∨ Noted values new) ∧ ∀ d ∈ data, values ⟨d.txid, d.vout⟩ = some d.amount

theorem assures_processEncryptedMessage (coin : Coin) (encMessage network walletName : String)
    (activities : List Activity) :
    Assures (Faithful kit values wallet) Quiet (fun r => LeavesNoted values coin r.1 (dataOf r.2.2))
      (fun _ => True) (processEncryptedMessage kit coin encMessage network walletName activities) := by
  unfold processEncryptedMessage
  have hsame : LeavesNoted values coin coin [] := ⟨.inl rfl, fun _ hd => absurd hd List.not_mem_nil⟩
  refine assures_yields_bind (yields_attempt (yields_lift fun _ _ => trivial)) (fun message _ => ?_)
  split
  · exact assures_pure hsame
  · exact assures_pure hsame
  · refine assures_bind (assures_attempt (assures_takeOver _ _ _ _)) (fun taken htaken => ?_)
    split
    · exact assures_pure hsame
    · exact assures_pure hsame
    · have hstore : ∀ walletName transferMsg rest, Assures (Faithful kit values wallet) Quiet
          (fun result : MessageResult => ∀ d ∈ result.duplicatedCoins, values ⟨d.txid, d.vout⟩ = some d.amount)
          (fun _ => True) (storeReceived kit walletName transferMsg rest) := by
        intro walletName transferMsg rest
        refine assures_yields_bind (yields_insertOrUpdateBackupTxs _ _ _) (fun _ _ => ?_)
        exact assures_bind (assures_duplicatedCoinsData rest) (fun data hdata => assures_pure hdata)
      refine assures_bind (assures_attempt (hstore _ _ _)) (fun result hresult => ?_)
      refine assures_pure ⟨.inr (htaken.1 _ rfl _ rfl), ?_⟩
      cases result with
      | none => exact fun _ hd => absurd hd List.not_mem_nil
      | some result => exact hresult.1 result rfl

/-- What `execute` has gathered comes from the wallet or from the chain. -/
def GathersSourced (values : Values) (wallet : Wallet) (gathered : Gathered) : Prop :=
  (∀ coin ∈ gathered.tempCoins, Sourced values wallet coin) ∧
    ∀ coin ∈ gathered.duplicatedCoins, Noted values coin

omit [DecidableEq E] in
theorem noted_of_leaves {old new : Coin} {data : List DuplicatedCoinData} (hold : Sourced values wallet old)
    (h : LeavesNoted values old new data) :
    Sourced values wallet new ∧ ∀ coin ∈ data.map (duplicateOf new), Noted values coin := by
  obtain ⟨hnew, hdata⟩ := h
  constructor
  · obtain rfl | hnew := hnew
    · exact hold
    · exact .inr (.inr hnew)
  · intro coin hcoin
    obtain ⟨d, hd, rfl⟩ := List.mem_map.mp hcoin
    exact noted_of_value ⟨rfl, rfl⟩ (hdata d hd) rfl

omit [DecidableEq E] in
theorem gathering_sourced : Gathering (LeavesNoted values) wallet (GathersSourced values wallet) where
  same := by
    intro gathered gathered' h hcoins hduplicated
    rw [GathersSourced, hcoins, hduplicated]
    exact h
  own := by
    intro gathered place old new data h hold _ hnew
    obtain ⟨hnew, hdata⟩ := noted_of_leaves (h.1 old (List.mem_of_getElem? hold)) hnew
    refine ⟨fun other hother => ?_, List.forall_mem_append.mpr ⟨h.2, hdata⟩⟩
    obtain hother | rfl := List.mem_or_eq_of_mem_set hother
    · exact h.1 other hother
    · exact hnew
  copy := by
    intro gathered authPubkey coin new data h hcopy hnew
    simp only [duplicateCoinToInitializedState, bind_eq_ok, pure_eq_ok] at hcopy
    obtain ⟨_, -, hcopy⟩ := hcopy
    have hcoin : Sourced values wallet coin := by
      refine .inl ?_
      rw [← hcopy]
    obtain ⟨hnew, hdata⟩ := noted_of_leaves hcoin hnew
    refine ⟨List.forall_mem_append.mpr ⟨h.1, ?_⟩, List.forall_mem_append.mpr ⟨h.2, hdata⟩⟩
    exact List.forall_mem_singleton.mpr hnew

variable [Add F] [Sub F] [Div F] [NatCast F] [LT F] [DecidableLT F]

theorem relies_receive (walletName : String) :
    Assures (Faithful kit values wallet) (SavesSourced values wallet) (fun _ => True) (fun _ => True)
      (Receive.execute kit walletName) := by
  refine assures_ask_bind (Call.sending (.getWallet walletName)) _ trivial (fun reply hreply => ?_)
  refine assures_try_bind (fun stored hstored => ?_)
  cases hreply stored (anyhow_eq_ok.mp hstored)
  have hstart : GathersSourced values wallet ⟨wallet.coins, wallet.activities, [], false, []⟩ :=
    ⟨fun coin hcoin => .inr (.inl ⟨coin, hcoin, rfl⟩), fun _ h => absurd h List.not_mem_nil⟩
  refine assures_bind (assures_mono savesSourced_of_quiet (fun _ h => h) (fun _ h => h)
    (assures_gatherMessages assures_processEncryptedMessage gathering_sourced hstart)) (fun gathered hgathered => ?_)
  refine assures_bind (?_ : Assures _ _ (fun _ => True) _ _) (fun _ _ => assures_pure trivial)
  refine assures_ask_bind (Call.sending (.updateWallet _)) _ (fun coin hcoin => ?_)
    (fun reply _ => assures_lift (fun _ _ => trivial) fun _ _ => trivial)
  obtain hcoin | hcoin := List.mem_append.mp ((List.perm_insertionSort _ _).mem_iff.mp hcoin)
  · exact hgathered.1 coin hcoin
  · exact .inr (.inr (hgathered.2 coin hcoin))

end Receiving

section Updating

open Client.CoinStatus

variable {kit : Kit E K F} {values : Values} {wallet : Wallet}

section Deposits

variable [Mul F] [NatCast F] [LT F] [DecidableLT F]

theorem yields_createTx1_output {setup : Setup E K F} (coin : Coin) (network : String) (txN : UInt32) :
    Yields KeepsWallet (fun r => outputOf r.1 = outputOf coin) (createTx1 setup coin network txN) := by
  refine yields_lift_bind (fun toAddress _ => ?_)
  refine yields_bind yields_infoConfig (fun serverInfo _ => ?_)
  refine yields_bind (yields_newTransaction _ _ _ _ _ _ _ _ _) (fun r hr => ?_)
  refine yields_lift_bind (fun _ _ => ?_)
  refine yields_lift_bind (fun _ _ => ?_)
  refine yields_lift_bind (fun _ _ => ?_)
  refine yields_lift_bind (fun backupTx _ => ?_)
  refine yields_lift_bind (fun blockHeight _ => ?_)
  obtain ⟨coinNonce, serverPublicNonce, hcoin⟩ := hr
  refine yields_pure ?_
  rw [hcoin]
  rfl

theorem yields_recordDeposit_output (coin : Coin) (network : String) (utxo : Unspent) :
    Yields Quiet
      (fun r => outputOf r.1 = outputOf coin ∨
        outputOf r.1 = (some utxo.txHash, some utxo.txPos.toUInt32, coin.amount))
      (recordDeposit kit coin network utxo) := by
  unfold recordDeposit
  split_ifs
  · refine yields_bind (yields_send_quiet (yields_createTx1_output _ _ _)) (fun r hr => ?_)
    exact yields_bind (yields_createActivity _ _ _) (fun activity _ => yields_pure (.inr hr))
  · exact yields_pure (.inl rfl)

theorem assures_checkDeposit (coin : Coin) (network : String) :
    Assures (Faithful kit values wallet) Quiet (fun r => outputOf r.1 = outputOf coin ∨ Noted values r.1)
      (fun _ => True) (checkDeposit kit coin network) := by
  unfold checkDeposit
  split_ifs
  · exact assures_try_bind (fun _ _ => assures_pure (.inl rfl))
  · refine assures_try_bind (fun aggregatedAddress _ => ?_)
    refine assures_try_bind (fun script _ => ?_)
    refine assures_bind (assures_scriptListUnspent script) (fun utxoList hlist => ?_)
    refine assures_try_bind (fun utxo hutxo => ?_)
    cases utxo with
    | none => exact assures_pure (.inl rfl)
    | some utxo =>
      dsimp only
      split_ifs
      · exact assures_pure (.inl rfl)
      · refine assures_yields_bind yields_blockHeadersSubscribeRaw (fun blockheight _ => ?_)
        refine assures_yields_bind (yields_recordDeposit_output coin network utxo) (fun r hr => assures_pure ?_)
        obtain ⟨hmem, hamount⟩ := mem_of_findDeposit hutxo
        obtain hsame | hnew := hr
        · exact .inl hsame
        · refine .inr ⟨⟨utxo.txHash, utxo.txPos.toUInt32⟩, utxo.value, ⟨?_, ?_⟩, hlist utxo hmem, ?_⟩
          · exact congrArg Prod.fst hnew
          · exact congrArg (fun o => o.2.1) hnew
          · exact (congrArg (fun o => o.2.2) hnew).trans hamount

end Deposits

theorem noted_of_duplicatesOf (existingCoins : List Coin) (coin : Coin) {unspents : List Unspent}
    (h : ∀ unspent ∈ unspents, values ⟨unspent.txHash, unspent.txPos.toUInt32⟩ = some unspent.value) (index : UInt32) :
    ∀ new ∈ duplicatesOf existingCoins coin unspents index, Noted values new := by
  induction unspents generalizing index with
  | nil => exact fun _ h => absurd h List.not_mem_nil
  | cons unspent unspents ih =>
    obtain ⟨hunspent, hunspents⟩ := List.forall_mem_cons.mp h
    unfold duplicatesOf
    split_ifs
    · exact ih hunspents index
    · exact List.forall_mem_cons.mpr ⟨noted_of_value ⟨rfl, rfl⟩ hunspent rfl, ih hunspents _⟩

theorem assures_duplicatesFor (existingCoins coins : List Coin) :
    Assures (Faithful kit values wallet) Quiet (fun duplicated => ∀ coin ∈ duplicated, Noted values coin)
      (fun _ => True) (duplicatesFor kit existingCoins coins) := by
  induction coins with
  | nil => exact assures_pure (fun _ h => absurd h List.not_mem_nil)
  | cons coin coins ih =>
    unfold duplicatesFor
    split_ifs
    · refine assures_try_bind (fun aggregatedAddress _ => ?_)
      refine assures_try_bind (fun script _ => ?_)
      refine assures_bind (assures_scriptListUnspent script) (fun utxoList hlist => ?_)
      refine assures_try_bind (fun maxDuplicatedIndex _ => ?_)
      refine assures_bind ih (fun duplicated hduplicated => assures_pure (fun new hnew => ?_))
      obtain hnew | hnew := List.mem_append.mp hnew
      · exact noted_of_duplicatesOf existingCoins coin hlist maxDuplicatedIndex new hnew
      · exact hduplicated new hnew
    · exact ih

variable [DecidableEq E] [Mul F] [NatCast F] [LT F] [DecidableLT F]

theorem assures_updateCoin (walletName network : String) (coin : Coin) :
    Assures (Faithful kit values wallet) Quiet (fun r => outputOf r.1 = outputOf coin ∨ Noted values r.1)
      (fun _ => True) (updateCoin kit walletName network coin) := by
  have hdeposit : Assures (Faithful kit values wallet) Quiet (fun r => outputOf r.1 = outputOf coin ∨ Noted values r.1)
      (fun _ => True) (updateDeposit kit walletName network coin) := by
    refine assures_bind (assures_checkDeposit coin network) (fun r hr => ?_)
    obtain ⟨new, depositResult⟩ := r
    cases depositResult with
    | none => exact assures_pure hr
    | some depositResult =>
      refine assures_try_bind (fun statechainId _ => ?_)
      exact assures_yields_bind (yields_insertBackupTxs _ _ _) (fun _ _ => assures_pure hr)
  unfold updateCoin
  cases coin.status with
  | initialised => exact hdeposit
  | inMempool => exact hdeposit
  | unconfirmed => exact hdeposit
  | inTransfer =>
    refine assures_yields_bind (yields_checkTransfer coin) (fun isTransferred _ => assures_pure (.inl ?_))
    cases isTransferred <;> rfl
  | withdrawing =>
    refine assures_yields_bind (yields_checkWithdrawal coin) (fun new hnew => assures_pure (.inl ?_))
    obtain rfl | rfl := hnew <;> rfl
  | _ => exact assures_pure (.inl rfl)

theorem assures_updateEach (walletName network : String) (coins : List Coin) :
    Assures (Faithful kit values wallet) Quiet
      (fun r => ∀ new ∈ r.1, (∃ old ∈ coins, outputOf new = outputOf old) ∨ Noted values new)
      (fun _ => True) (updateEach kit walletName network coins) := by
  induction coins with
  | nil => exact assures_pure (fun _ h => absurd h List.not_mem_nil)
  | cons coin coins ih =>
    refine assures_bind (assures_updateCoin walletName network coin) (fun r hr => ?_)
    refine assures_bind ih (fun rs hrs => assures_pure (List.forall_mem_cons.mpr ⟨?_, fun new hnew => ?_⟩))
    · exact hr.imp_left (fun h => ⟨coin, List.mem_cons_self, h⟩)
    · exact (hrs new hnew).imp_left (fun ⟨old, hold, h⟩ => ⟨old, List.mem_cons_of_mem _ hold, h⟩)

theorem sourced_of_outputOf {old new : Coin} (h : outputOf new = outputOf old) (hold : Sourced values wallet old) :
    Sourced values wallet new := by
  obtain hnone | ⟨first, hfirst, hsame⟩ | ⟨outpoint, value, hcoin, hvalue, hamount⟩ := hold
  · exact .inl ((congrArg Prod.fst h).trans hnone)
  · exact .inr (.inl ⟨first, hfirst, h.trans hsame⟩)
  · refine .inr (.inr ⟨outpoint, value, ⟨?_, ?_⟩, hvalue, ?_⟩)
    · exact (congrArg Prod.fst h).trans hcoin.1
    · exact (congrArg (fun o => o.2.1) h).trans hcoin.2
    · exact (congrArg (fun o => o.2.2) h).trans hamount

theorem relies_updateCoins (walletName : String) :
    Assures (Faithful kit values wallet) (SavesSourced values wallet) (fun _ => True) (fun _ => True)
      (CoinStatus.updateCoins kit walletName) := by
  refine assures_ask_bind (Call.sending (.getWallet walletName)) _ trivial (fun reply hreply => ?_)
  refine assures_try_bind (fun stored hstored => ?_)
  cases hreply stored (anyhow_eq_ok.mp hstored)
  refine assures_bind (assures_mono savesSourced_of_quiet (fun _ h => h) (fun _ h => h)
    (assures_updateEach _ _ _)) (fun r hr => ?_)
  refine assures_bind (assures_mono savesSourced_of_quiet (fun _ h => h) (fun _ h => h)
    (assures_duplicatesFor _ _)) (fun duplicated hduplicated => ?_)
  refine assures_ask_bind (Call.sending (.updateWallet _)) _ (fun coin hcoin => ?_)
    (fun reply _ => assures_lift (fun _ _ => trivial) fun _ _ => trivial)
  obtain ⟨old, hold, rfl⟩ := List.mem_map.mp hcoin
  have hsourced : Sourced values wallet old := by
    obtain hold | hold := List.mem_append.mp hold
    · exact .inr (hr old hold)
    · exact .inr (.inr (hduplicated old hold))
  split_ifs
  · exact sourced_of_outputOf rfl hsourced
  · exact hsourced

end Updating

section Recording

open Client.LifeCycle

def savedBy : Call F → Option Wallet
  | .sending (.updateWallet saved) => some saved
  | _ => none

theorem eq_of_savedBy {c : Call F} {saved : Wallet} (h : savedBy c = some saved) :
    c = .sending (.updateWallet saved) := by
  cases c with
  | sending c => cases c <;> cases h; rfl
  | _ => cases h

variable [DecidableEq E] [Add F] [Sub F] [Mul F] [Div F] [NatCast F] [LT F] [DecidableLT F]

/-- The operations that record coins for outputs they find. -/
def Records (walletName : String) (request : Request F) : Prop :=
  request = .updateCoins walletName ∨ request = .transferReceiver walletName

/-- Against a server that tells the values on the chain, a coin that an operation records commits to
the value of its output exactly where the value fits the coin. -/
theorem amounts_committed_iff (kit : Kit E K F) (values : Values) (wallet : Wallet) (walletName : String)
    (request : Request F) (hrequest : Records walletName request) (choices : ℕ → (c : Call F) → Reply c)
    (hfaithful : Admits reply (fun answer c s => Faithful kit values wallet c (reply answer c s).1)
      (program kit request) choices ()) :
    ∀ saved ∈ (calls reply (program kit request) choices ()).filterMap savedBy, ∀ coin ∈ saved.coins,
      ∀ outpoint, HasOutPoint coin outpoint →
        (∃ old ∈ wallet.coins, HasOutPoint old outpoint ∧ coin.amount = old.amount) ∨
          ∃ value, values outpoint = some value ∧ (Commits kit coin outpoint value ↔ value.toNat < 2 ^ 32) := by
  have hrelies : Relies (Faithful kit values wallet) (SavesSourced values wallet) (fun _ => True)
      (program kit request) := by
    obtain rfl | rfl := hrequest
    · exact Relies.bind (relies_updateCoins walletName) (fun _ _ => trivial)
    · exact Relies.bind (relies_receive walletName) (fun _ _ => trivial)
  intro saved hsaved coin hcoin outpoint houtpoint
  obtain ⟨c, hc, hsaved⟩ := List.mem_filterMap.mp hsaved
  cases eq_of_savedBy hsaved
  have hsourced : SavesSourced values wallet (.sending (.updateWallet saved) : Call F) := hrelies.calls hfaithful _ hc
  obtain hnone | ⟨old, hold, hsame⟩ | hnoted := hsourced coin hcoin
  · cases hnone.symm.trans houtpoint.1
  · refine .inl ⟨old, hold, ⟨?_, ?_⟩, congrArg (fun o => o.2.2) hsame⟩
    · exact (congrArg Prod.fst hsame).symm.trans houtpoint.1
    · exact (congrArg (fun o => o.2.1) hsame).symm.trans houtpoint.2
  · exact .inr (hnoted.commits_iff houtpoint)

section Seven

open Client.LocktimeGuard Client.Withdraw

/-- A second output of the given value has been paid to the coin's address. -/
def paidTwice (value : UInt64) : (c : Call ℕ) → Reply c
  | .sending (.scriptListUnspent _) => (.ok [⟨"f", 0, 1, 1000⟩, ⟨"h", 0, 1, value⟩] : Except String (List Unspent))
  | c => granting c

def twoOutputs (value : UInt64) : Values := fun outpoint =>
  if outpoint = ⟨"f", 0⟩ then some 1000 else if outpoint = ⟨"h", 0⟩ then some value else none

theorem faithful_paidTwice (value : UInt64) (c : Call ℕ) :
    Faithful sevenKit (twoOutputs value) fundedWallet c (paidTwice value c) := by
  cases c with
  | sending c =>
    cases c with
    | getWallet walletName =>
      intro stored hstored
      exact (Except.ok.inj hstored).symm
    | scriptListUnspent script =>
      intro unspents hunspents
      cases Except.ok.inj hunspents
      intro unspent hunspent
      simp only [List.mem_cons, List.not_mem_nil, or_false] at hunspent
      obtain rfl | rfl := hunspent <;> rfl
    | _ => trivial
  | batchTransactionGetRaw bytes =>
    intro texts text txid htexts htext
    cases Except.ok.inj htexts
    cases htext
  | _ => trivial

def savedAfter (value : UInt64) : List Wallet :=
  (calls reply (program sevenKit (.updateCoins "wallet")) (fun _ => paidTwice value) ()).filterMap savedBy

def duplicateWorth (amount : UInt32) : Coin :=
  { fundedCoin with
    status := .duplicated, utxoTxid := some "h", utxoVout := some 0, amount := some amount, duplicateIndex := 1 }

/-- A duplicate of two thousand satoshis is recorded and signed as such. -/
theorem amounts_committed_seven : Commits sevenKit (duplicateWorth 2000) ⟨"h", 0⟩ 2000 := by
  have hsaved : savedAfter 2000 = [{ fundedWallet with coins := [fundedCoin, duplicateWorth 2000] }] := by
    decide +kernel
  have hamounts := amounts_committed_iff sevenKit (twoOutputs 2000) fundedWallet "wallet" (.updateCoins "wallet")
    (.inl rfl) (fun _ => paidTwice 2000) (admits_of_replies fun _ c _ => faithful_paidTwice 2000 c)
    { fundedWallet with coins := [fundedCoin, duplicateWorth 2000] } (by
      change _ ∈ savedAfter 2000
      rw [hsaved]
      exact List.mem_cons_self) (duplicateWorth 2000) (by decide +kernel) ⟨"h", 0⟩ ⟨rfl, rfl⟩
  obtain ⟨old, hold, hsame, -⟩ | ⟨value, hvalue, hiff⟩ := hamounts
  · cases List.mem_singleton.mp hold
    exact absurd hsame.1 (by decide)
  · cases Option.some.inj (hvalue.symm.trans (by decide : twoOutputs 2000 ⟨"h", 0⟩ = some 2000))
    exact hiff.mpr (by decide)

/-- A duplicate of 4294968296 satoshis is recorded with a thousand. -/
theorem amount_cut_seven :
    savedAfter 4294968296 = [{ fundedWallet with coins := [fundedCoin, duplicateWorth 1000] }] ∧
      twoOutputs 4294968296 ⟨"h", 0⟩ = some 4294968296 := by
  decide +kernel

end Seven

end Recording

end MercuryLayer.Client.Amounts
