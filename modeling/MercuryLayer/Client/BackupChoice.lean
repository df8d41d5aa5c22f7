import MercuryLayer.Client.BroadcastBackupTx
import MercuryLayer.Client.Duplicates
import MercuryLayer.Client.Withdraw

namespace MercuryLayer.Client.BackupChoice

open Client.BroadcastBackupTx Client.Operations Client.TransferReceiver
open Client.Transaction hiding Call Reply
open Client.TransferSender (getBackupTxs)
open Crates CpfpTx Error Library.Programs Library.Reliance Library.Validation Library.XOnlyCurve WalletData

section Choice

variable (btc : Bitcoin) (coin : Coin) (paying : List BackupTx)

def SpendsCoin (tx : Crates.Transaction) : Prop := ∃ input ∈ tx.input, HasOutPoint coin input.previousOutput

/-- The transaction spends the coin, and no other one that does so can be used earlier. -/
def Rightful (backupTx : BackupTx) : Prop :=
  ∃ tx, btc.deserialize backupTx.tx = .ok tx ∧ SpendsCoin coin tx ∧
    ∀ other ∈ paying, ∀ tx', btc.deserialize other.tx = .ok tx' → SpendsCoin coin tx' → tx.lockTime ≤ tx'.lockTime

/-- A transaction that is not rightful has a lower number than a rightful one, or the same number and an
earlier place. -/
def Outranked : Prop :=
  ∀ (i : ℕ) (wrong : BackupTx), paying[i]? = some wrong → ¬Rightful btc coin paying wrong →
    ∃ (j : ℕ) (right : BackupTx), paying[j]? = some right ∧ Rightful btc coin paying right ∧
      (wrong.txN.toNat < right.txN.toNat ∨ wrong.txN.toNat = right.txN.toNat ∧ i < j)

theorem eq_nil_of_maxByTxN {backupTxs : List BackupTx} (h : maxByTxN backupTxs = none) : backupTxs = [] := by
  cases backupTxs with
  | nil => rfl
  | cons first backupTxs =>
    rw [maxByTxN] at h
    cases hlater : maxByTxN backupTxs with
    | none =>
      rw [hlater] at h
      cases h
    | some later =>
      rw [hlater] at h
      dsimp only at h
      split_ifs at h

/-- The last one of those with the highest number is taken. -/
theorem getElem?_of_maxByTxN {backupTxs : List BackupTx} {best : BackupTx} (h : maxByTxN backupTxs = some best) :
    ∃ k : ℕ, backupTxs[k]? = some best ∧ ∀ (i : ℕ) (backupTx : BackupTx), backupTxs[i]? = some backupTx →
      backupTx.txN.toNat < best.txN.toNat ∨ backupTx.txN.toNat = best.txN.toNat ∧ i ≤ k := by
  induction backupTxs generalizing best with
  | nil => cases h
  | cons first backupTxs ih =>
    rw [maxByTxN] at h
    cases hlater : maxByTxN backupTxs with
    | none =>
      rw [hlater] at h
      cases Option.some.inj h
      cases eq_nil_of_maxByTxN hlater
      refine ⟨0, rfl, fun i backupTx hi => ?_⟩
      cases i with
      | zero =>
        cases Option.some.inj hi
        exact .inr ⟨rfl, le_rfl⟩
      | succ i => cases hi
    | some later =>
      rw [hlater] at h
      obtain ⟨k, hk, hmax⟩ := ih hlater
      dsimp only at h
      split_ifs at h with hlt
      · cases Option.some.inj h
        rw [UInt32.lt_iff_toNat_lt] at hlt
        refine ⟨0, rfl, fun i backupTx hi => ?_⟩
        cases i with
        | zero =>
          cases Option.some.inj hi
          exact .inr ⟨rfl, le_rfl⟩
        | succ i => have := hmax i backupTx hi; omega
      · cases Option.some.inj h
        rw [UInt32.lt_iff_toNat_lt] at hlt
        refine ⟨k + 1, hk, fun i backupTx hi => ?_⟩
        cases i with
        | zero =>
          cases Option.some.inj hi
          omega
        | succ i => have := hmax i backupTx hi; omega

variable {btc coin paying}

theorem rightful_iff_outranked {best : BackupTx} (h : maxByTxN paying = some best) :
    Rightful btc coin paying best ↔ Outranked btc coin paying := by
  obtain ⟨k, hk, hmax⟩ := getElem?_of_maxByTxN h
  constructor
  · intro hbest i wrong hi hwrong
    refine ⟨k, best, hk, hbest, ?_⟩
    obtain hlt | ⟨heq, hle⟩ := hmax i wrong hi
    · exact .inl hlt
    · refine .inr ⟨heq, lt_of_le_of_ne hle ?_⟩
      rintro rfl
      cases Option.some.inj (hk.symm.trans hi)
      exact hwrong hbest
  · intro houtranked
    by_contra hwrong
    obtain ⟨j, right, hj, -, hrank⟩ := houtranked k best hk hwrong
    have := hmax j right hj
    omega

end Choice

section Run

variable {E K F : Type} (kit : Kit E K F) (wallet : Wallet) (stored : List BackupTx) (statechainId : String)

/-- The file has the wallet and the stored transactions. -/
def Reads : (c : Call F) → Reply c → Prop
  | .sending (.getWallet _), reply => ∀ row, reply = .ok row → row = wallet
  | .sending (.getBackupTxs _ _), reply => ∀ backupTxs, reply = .ok backupTxs → backupTxs = stored
  | _, _ => True

/-- The coin that is withdrawn, and the transaction that is broadcast for it. -/
def Selects (coin : Coin) (backupTx : BackupTx) : Prop :=
  (∃ place, coinToBroadcast wallet statechainId = some (coin, place)) ∧
    (coin.status = .confirmed ∨ coin.status = .inTransfer) ∧
    latestBackupTxPaysToUserPubkey kit.btc stored coin wallet.network = .ok backupTx

variable [Mul F] [NatCast F]

/-- What is broadcast is the transaction that is selected, or a child of it. -/
def IsSelected (text : String) (coin : Coin) (backupTx : BackupTx) : Prop :=
  Selects kit wallet stored statechainId coin backupTx ∧
    (text = backupTx.tx ∨ ∃ toAddress feeRate,
      createCpfpTx kit.btc kit.ceilU64 kit.createTransaction backupTx coin toAddress feeRate wallet.network = .ok text)

def BroadcastsSelected : Call F → Prop
  | .transactionBroadcastRaw text => ∃ coin backupTx, IsSelected kit wallet stored statechainId text coin backupTx
  | _ => True

variable {kit wallet stored statechainId} [LT F] [DecidableLT F]

theorem assures_broadcast {coin : Coin} {place : ℕ} (hcoin : coinToBroadcast wallet statechainId = some (coin, place))
    (hstatus : coin.status = .confirmed ∨ coin.status = .inTransfer) (toAddress : Option String) (feeRate : Option F) :
    Assures (Reads wallet stored) (BroadcastsSelected kit wallet stored statechainId) (fun _ => True)
      (fun _ => True) (broadcast kit wallet coin stored toAddress feeRate) := by
  have hsend (text : String) (h : BroadcastsSelected kit wallet stored statechainId (.transactionBroadcastRaw text)) :
      Assures (Reads wallet stored) (BroadcastsSelected kit wallet stored statechainId) (fun _ => True)
        (fun _ => True) (transactionBroadcastRaw text) :=
    assures_ask_bind (Call.transactionBroadcastRaw text) _ h
      (fun _ _ => assures_lift (fun _ _ => trivial) fun _ _ => trivial)
  refine assures_try_bind (fun backupTx hbackupTx => ?_)
  have hselects : Selects kit wallet stored statechainId coin backupTx := ⟨⟨place, hcoin⟩, hstatus, hbackupTx⟩
  have hparent := hsend backupTx.tx ⟨coin, backupTx, hselects, .inl rfl⟩
  cases toAddress with
  | none => exact hparent
  | some toAddress =>
    have hrate : Assures (Reads wallet stored) (BroadcastsSelected kit wallet stored statechainId)
        (fun _ => True) (fun _ => True) (feeRateOr kit feeRate) := by
      cases feeRate with
      | some feeRate => exact assures_pure trivial
      | none =>
        exact assures_ask_bind Call.estimateFee _ trivial (fun _ _ => assures_try_bind fun _ _ => assures_pure trivial)
    refine assures_bind hrate (fun feeRate _ => ?_)
    refine assures_try_bind (fun cpfpTx hcpfpTx => ?_)
    refine assures_bind hparent (fun _ _ => ?_)
    exact hsend cpfpTx ⟨coin, backupTx, hselects, .inr ⟨toAddress, feeRate, hcpfpTx⟩⟩

theorem assures_execute (walletName : String) (toAddress : Option String) (feeRate : Option F) :
    Assures (Reads wallet stored) (BroadcastsSelected kit wallet stored statechainId) (fun _ => True)
      (fun _ => True) (execute kit walletName statechainId toAddress feeRate) := by
  have hstored : Assures (Reads wallet stored) (BroadcastsSelected kit wallet stored statechainId)
      (fun backupTxs => backupTxs = stored) (fun _ => True) (send (getBackupTxs wallet.name statechainId)) := by
    refine assures_send (assures_ask_bind (Transaction.Call.getBackupTxs wallet.name statechainId) _ trivial ?_)
    exact fun reply hreply => assures_lift (fun _ _ => trivial) fun _ h => hreply _ (anyhow_eq_ok.mp h)
  refine assures_ask_bind (Call.sending (.getWallet walletName)) _ trivial (fun reply hreply => ?_)
  refine assures_try_bind (fun row hrow => ?_)
  cases hreply row (anyhow_eq_ok.mp hrow)
  refine assures_try_bind (fun _ _ => ?_)
  refine assures_bind hstored (fun backupTxs h => ?_)
  cases h
  refine assures_try_bind (fun chosen hchosen => ?_)
  refine assures_try_bind (fun _ hstatus => ?_)
  have hstatus : chosen.1.status = .confirmed ∨ chosen.1.status = .inTransfer := by
    by_contra h
    exact throwIf_eq_ok.mp hstatus (not_or.mp h)
  refine assures_bind (assures_broadcast (orThrow_eq_ok.mp hchosen) hstatus toAddress feeRate) (fun txid _ => ?_)
  refine assures_try_bind (fun signedStatechainId _ => ?_)
  refine assures_ask_bind (Call.sending (.updateWallet _)) _ trivial (fun _ _ => assures_try_bind fun _ _ => ?_)
  refine assures_ask_bind (Call.withdrawComplete _) _ trivial (fun _ _ => assures_try_bind fun _ _ => ?_)
  exact assures_lift (fun _ _ => trivial) fun _ _ => trivial

/-- What is broadcast, or the parent of it, spends the coin that is withdrawn as early as possible exactly
where no other transaction to the same address outranks those that do. -/
theorem backup_rightful_iff (walletName : String) (toAddress : Option String) (feeRate : Option F)
    (choices : ℕ → (c : Call F) → Reply c)
    (hreads : Admits reply (fun answer c s => Reads wallet stored c (reply answer c s).1)
      (execute kit walletName statechainId toAddress feeRate).run choices ())
    {text : String}
    (htext : .transactionBroadcastRaw text ∈
      calls reply (execute kit walletName statechainId toAddress feeRate).run choices ()) :
    ∃ coin backupTx network script, IsSelected kit wallet stored statechainId text coin backupTx ∧
      getNetwork wallet.network = .ok network ∧ kit.btc.scriptOfAddress coin.backupAddress network = some script ∧
      (Rightful kit.btc coin (stored.filter (paysOnly kit.btc script)) backupTx ↔
        Outranked kit.btc coin (stored.filter (paysOnly kit.btc script))) := by
  obtain ⟨coin, backupTx, hselected⟩ := Relies.calls (assures_execute walletName toAddress feeRate) hreads _ htext
  have hlatest := hselected.1.2.2
  obtain ⟨network, hnetwork, hlatest⟩ := bind_eq_ok.mp hlatest
  obtain ⟨script, hscript, hlatest⟩ := bind_eq_ok.mp hlatest
  exact ⟨coin, backupTx, network, script, hselected, hnetwork, orErr_eq_ok.mp hscript,
    rightful_iff_outranked (orErr_eq_ok.mp hlatest)⟩

end Run

section Seven

open Client.LocktimeGuard Client.Withdraw Library Library.Texts
open Client.Duplicates (signing)
open Client.TransferSender (createBackupTransactions)
open Musig.Cosign Musig.Session Receiver MercuryLayer.Transaction

def sentTwice : BackupTx :=
  { sentOnce with txN := 2, tx := wireBtc.serialize (unsignedTx ⟨"f", 0⟩ 1090 ⟨1, []⟩) }

/-- The transaction of the deposit, of a transfer after it, and one of another output that is locked for less. -/
def severalTxs : List BackupTx :=
  [{ sentOnce with tx := wireBtc.serialize (unsignedTx ⟨"h", 0⟩ 1000 ⟨1, []⟩) }, sentOnce, sentTwice]

def severalCoins : Wallet := ⟨"wallet", "regtest", [], [strangeCoin, fundedCoin]⟩

def answering : (c : Call ℕ) → Reply c
  | .sending (.getWallet _) => (.ok severalCoins : Except String Wallet)
  | .sending (.getBackupTxs _ _) => (.ok severalTxs : Except String (List BackupTx))
  | c => granting c

theorem reads_answering (c : Call ℕ) : Reads severalCoins severalTxs c (answering c) := by
  cases c with
  | sending c =>
    cases c with
    | getWallet walletName => exact fun _ h => (Except.ok.inj h).symm
    | getBackupTxs walletName statechainId => exact fun _ h => (Except.ok.inj h).symm
    | _ => trivial
  | _ => trivial

def broadcastOf : Call ℕ → Option String
  | .transactionBroadcastRaw text => some text
  | _ => none

theorem eq_of_broadcastOf {c : Call ℕ} {text : String} (h : broadcastOf c = some text) :
    c = .transactionBroadcastRaw text := by
  cases c <;> cases h
  rfl

theorem rightful_sentTwice : Rightful wireBtc fundedCoin severalTxs sentTwice := by
  refine ⟨_, wireBtc_codec _, ⟨_, List.mem_singleton.mpr rfl, rfl, rfl⟩, fun other hother tx htx hspends => ?_⟩
  simp only [severalTxs, List.mem_cons, List.not_mem_nil, or_false] at hother
  obtain rfl | rfl | rfl := hother
  · cases Except.ok.inj ((wireBtc_codec _).symm.trans htx)
    obtain ⟨input, hinput, htxid, -⟩ := hspends
    cases List.mem_singleton.mp hinput
    exact absurd htxid (by decide)
  · cases Except.ok.inj ((wireBtc_codec _).symm.trans htx)
    decide
  · cases Except.ok.inj ((wireBtc_codec _).symm.trans htx)
    exact UInt32.le_refl _

/-- The latest backup transaction of the coin is broadcast. -/
theorem backup_rightful_seven :
    .transactionBroadcastRaw sentTwice.tx ∈
        calls reply (execute sevenKit "wallet" "statechain" none none).run (fun _ => answering) () ∧
      Rightful wireBtc fundedCoin severalTxs sentTwice ∧ Outranked wireBtc fundedCoin severalTxs := by
  have hcalls : (calls reply (execute sevenKit "wallet" "statechain" none none).run (fun _ => answering) ()).filterMap
      broadcastOf = [sentTwice.tx] := by decide +kernel
  have hcoin : coinToBroadcast severalCoins "statechain" = some (fundedCoin, 1) := by decide +kernel
  have hlatest : latestBackupTxPaysToUserPubkey wireBtc severalTxs fundedCoin "regtest" = .ok sentTwice := by
    decide +kernel
  have hpaying : severalTxs.filter (paysOnly wireBtc []) = severalTxs := by decide +kernel
  have hmem : sentTwice.tx ∈ (calls reply (execute sevenKit "wallet" "statechain" none none).run
      (fun _ => answering) ()).filterMap broadcastOf := by
    rw [hcalls]
    exact List.mem_singleton.mpr rfl
  obtain ⟨c, hc, htext⟩ := List.mem_filterMap.mp hmem
  cases eq_of_broadcastOf htext
  obtain ⟨coin, backupTx, network, script, ⟨⟨⟨place, hplace⟩, -, hselected⟩, -⟩, -, hscript, hiff⟩ :=
    backup_rightful_iff "wallet" none none (fun _ => answering)
      (admits_of_replies (fun _ c _ => reads_answering c)) hc
  cases Option.some.inj (hcoin.symm.trans hplace)
  cases Except.ok.inj (hlatest.symm.trans hselected)
  cases Option.some.inj hscript
  rw [show sevenKit.btc = wireBtc from rfl, hpaying] at hiff
  exact ⟨hc, rightful_sentTwice, hiff.mp rightful_sentTwice⟩

/-- The owner of two outputs, whose keys are those of the secrets. -/
def pairSecrets : Secrets seven where
  o := 2
  s := 3
  k0 := 1
  k1 := 1
  l0 := 1
  l1 := 1
  f := 2
  t := 1
  o_ne_zero := two_ne_zero_seven
  s_ne_zero := three_ne_zero_seven
  sum_ne_zero := by decide
  k0_ne_zero := one_ne_zero_seven
  k1_ne_zero := one_ne_zero_seven
  l0_ne_zero := one_ne_zero_seven
  l1_ne_zero := one_ne_zero_seven
  f_ne_zero := two_ne_zero_seven
  tweak := rfl
  output_ne_zero := by decide

/-- An address is the text of its script. -/
def scriptBtc : Bitcoin :=
  { wireBtc with
    addressToStr := fun script _ => Wire.toText bytesWire script
    scriptOfAddress := fun address _ => Wire.ofText bytesWire address }

def pairSetup : Setup (Point (ZMod 7)) (ZMod 7) ℕ :=
  { sevenSetup with
    btc := scriptBtc
    envelope := { sevenSetup.envelope with
      decodeTransferAddress := fun _ => .ok (0, seven.publicKey 3, seven.publicKey 1) }
    newMusigNoncePair := fun _ _ _ => .ok
      (hexCodec.encode (seven.secnonceBytes.encode ⟨1, 1, seven.publicKey 2⟩),
        seven.nonceText (seven.publicKey 1, seven.publicKey 1)) }

def pairMain : Coin :=
  { fundedCoin with
    userPrivkey := seven.wif.encode 2, userPubkey := seven.secp.publicKeyToStr (seven.publicKey 2)
    aggregatedPubkey := some (seven.secp.publicKeyToStr pairSecrets.aggregate)
    aggregatedAddress := some (Wire.toText bytesWire []), backupAddress := Wire.toText bytesWire [81, 32, 3] }

def pairDuplicate : Coin :=
  { pairMain with status := .duplicated, utxoTxid := some "h", utxoVout := some 0, duplicateIndex := 1 }

def pairSent : BackupTx := { sentOnce with tx := wireBtc.serialize (unsignedTx ⟨"f", 0⟩ 1100 ⟨888, [81, 32, 3]⟩) }

def pairAnswers : (c : Transaction.Call ℕ) → Transaction.Reply c
  | .getBackupTxs _ _ => (.ok [pairSent] : Except String (List BackupTx))
  | .signSecond _ => (.ok (some ⟨200, .fields [("partial_sig",
      .text (seven.musig.partialSigToStr (pairSecrets.response [] 3 1 1)))]⟩) : Response)
  | c => signing [⟨"h", 0, 1000, 1000⟩] c

/-- The outpoint of the coin that is withdrawn, and the one that the selected transaction spends. -/
def chosenOutpoints (wallet : Wallet) (stored : List BackupTx) : Res (Option String × OutPoint) := do
  let (coin, _) ← orFail "" (coinToBroadcast wallet "statechain")
  let backupTx ← latestBackupTxPaysToUserPubkey scriptBtc stored coin wallet.network
  let outpoint ← getPreviousOutpoint scriptBtc backupTx
  return (coin.utxoTxid, outpoint)

/-- After a transfer with a second deposit the sender's first coin is withdrawn with the transaction of
the second one. -/
theorem duplicate_broadcast_seven :
    (exec reply (createBackupTransactions pairSetup "ml" ⟨"wallet", "regtest", [], [pairMain, pairDuplicate]⟩
        "statechain" (some [1])).run (fun _ => pairAnswers) ()).1.map
      (Except.map fun result => chosenOutpoints result.1 result.2) =
    some (.ok (.ok (some "f", ⟨"h", 0⟩))) := by
  delta chosenOutpoints pairSetup sevenSetup Params.secp Params.musig scriptBtc wireBtc Wire.ofText
  rw [hexCodec_decode, Hex.decode_eq_chars, toList_eq_chars]
  decide +kernel

end Seven

end MercuryLayer.Client.BackupChoice
