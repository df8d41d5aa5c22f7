import MercuryLayer.Client.TransferReceiver
import Mathlib.Data.Fintype.EquivFin

namespace MercuryLayer.Client.ReceiverSoundness

open Client.TransferReceiver Crates Error Library.Validation Library.XOnlyCurve Receiver WalletData

variable {E K F : Type}

/-- The only output that matters of a backup transaction pays the backup address of a key. -/
def PaysTo (env : Env E K F) (tx userPubkey : String) : Prop :=
  ∃ decoded output, env.btc.deserialize tx = .ok decoded ∧ decoded.output[0]? = some output ∧
    backupScript env.secp userPubkey = .ok output.scriptPubkey

theorem verifyLatest_eq_true {env : Env E K F} {transferMsg : TransferMsg} {userPubkey network : String}
    (h : verifyLatestBackupTxPaysToUserPubkey env.btc env.secp transferMsg userPubkey network = .ok true) :
    ∃ last, transferMsg.backupTransactions.getLast? = some last ∧ PaysTo env last.tx userPubkey := by
  simp only [verifyLatestBackupTxPaysToUserPubkey, bind_eq_ok, orErr_eq_ok, question_eq_ok, unwrap_eq_ok,
    pure_eq_ok, beq_iff_eq] at h
  obtain ⟨key, hkey, _, -, last, hlast, decoded, hdec, output, hout, script, hscript, rfl⟩ := h
  refine ⟨last, hlast, decoded, output, hdec, hout, ?_⟩
  simp only [backupScript, hkey, ok_bind]
  exact hscript

section Sound

variable [Add F] [Sub F] [Div F] [NatCast F] [LT F] [DecidableLT F]

/-- Receiver soundness at one message: acceptance means that in every outpoint group the
last transaction in `tx_n` order pays the receiving coin. -/
def ReceiverSound (env : Env E K F) (coin : Coin) (encMessage network : String) (infoConfig : InfoConfig F)
    (blockheight : UInt32) (transferMsg : TransferMsg) : Prop :=
  validateEncryptedMessage env coin encMessage network infoConfig blockheight = .ok () →
    ∀ groups, splitBackupTransactions env.btc transferMsg.backupTransactions = .ok groups →
      ∀ group ∈ groups, ∃ last, group.getLast? = some last ∧ PaysTo env last.tx coin.userPubkey

/-- Every group ends, in `tx_n` order, with the very transaction listed last in the message. -/
def LatestListedLast (outpointOf : String → OutPoint) (txs : List BackupTx) : Prop :=
  ∀ group ∈ groupByOutpoint outpointOf txs, group.getLast?.map BackupTx.tx = txs.getLast?.map BackupTx.tx

theorem receiverSound_of_latestListedLast {env : Env E K F} {coin : Coin} {encMessage network : String}
    {infoConfig : InfoConfig F} {blockheight : UInt32} {transferMsg : TransferMsg}
    {outpointOf : String → OutPoint}
    (hmsg : decryptTransferMsg env.secp env.ecies encMessage coin.authPrivkey = .ok transferMsg)
    (hop : ∀ b ∈ transferMsg.backupTransactions, getPreviousOutpoint env.btc b = .ok (outpointOf b.tx))
    (hlast : LatestListedLast outpointOf transferMsg.backupTransactions) :
    ReceiverSound env coin encMessage network infoConfig blockheight transferMsg := by
  intro hok groups hsplit group hgroup
  rw [splitBackupTransactions_eq hop, Except.ok.injEq] at hsplit
  subst hsplit
  simp only [validateEncryptedMessage, hmsg, ok_bind, splitBackupTransactions_eq hop, forM_eq_ok] at hok
  obtain ⟨i, hi⟩ := List.getElem?_of_mem hgroup
  obtain ⟨_, _, _, _, _, -, -, -, -, -, hv, -⟩ :=
    validateGroup_eq_ok.mp (hok _ (List.mk_mem_zipIdx_iff_getElem?.mpr hi))
  obtain ⟨flat, hflat, hpays⟩ := verifyLatest_eq_true hv
  have hsame := hlast group hgroup
  rw [hflat, Option.map_some, Option.map_eq_some_iff] at hsame
  obtain ⟨last, hl, htx⟩ := hsame
  exact ⟨last, hl, htx ▸ hpays⟩

end Sound

section StandIn

/-- What is read in the text of a backup transaction. -/
structure Reading where
  outpointOf : String → OutPoint
  lockOf : String → UInt32
  paysUser : String → Bool

variable (reading : Reading)

/-- A backup transaction whose witness spells its own hex text. -/
def standInTx (tx : String) : Transaction :=
  { version := 2
    lockTime := reading.lockOf tx
    input := [{ previousOutput := reading.outpointOf tx
                scriptSig := []
                sequence := 0
                witness := [0] :: tx.toList.map (fun ch => List.replicate ch.toNat 0) }]
    output := [{ value := 0, scriptPubkey := if reading.paysUser tx then [0x51, 0x20] else [] }] }

def standInTx0 : Transaction :=
  { version := 2, lockTime := 0, input := []
    output := List.replicate 4294967296 { value := 0, scriptPubkey := [0x51, 0x20] } }

def standInSecp : Secp Unit Unit where
  publicKeyFromStr _ := some ()
  publicKeyToStr _ := ""
  serialize _ := []
  xOnly _ := []
  xOnlyFromSlice _ := some []
  combine _ _ := some ()
  tapTweakHash _ := []
  p2trOutputKey _ := some []
  secretKeyFromSlice _ := some ()
  secretBytes _ := []
  secretHex _ := ""
  scalarFromBeBytes _ := some ()
  privateKeyFromWif _ := some ()
  publicKey _ := ()
  negate _ := ()
  addTweak _ _ := some ()
  sha256 _ := []
  signatureFromStr _ := some ⟨[], []⟩
  signatureToStr _ := ""
  signatureFromSlice _ := some ⟨[], []⟩
  verifySchnorr _ _ _ := true
  signSchnorr _ _ := ⟨[], []⟩
  pubNonceFromStr _ := .ok ((), ())
  blindingFactorFromStr _ := .ok ()
  pubkeyXonlyTweakAdd _ _ := some (false, (), ())
  newBlindedSession _ _ _ _ _ := some ⟨false, [], (), (), ()⟩

def standInRow (txN : UInt32) : StatechainInfo :=
  { statechainId := "", serverPubnonce := "", challenge := "", txN := txN }

def standInInfo (transferMsg : TransferMsg) : StatechainInfoResponsePayload :=
  { enclavePublicKey := ""
    numSigs := transferMsg.backupTransactions.length.toUInt32
    statechainInfo := transferMsg.backupTransactions.map (fun b => standInRow b.txN)
    x1Pub := none }

def standInBtc (tx0Hex : String) : Bitcoin where
  deserialize tx := .ok (if tx = tx0Hex then standInTx0 else standInTx reading tx)
  serialize tx := match tx.input with
    | [] => ""
    | input :: _ => String.ofList (input.witness.tail.map (fun w => Char.ofNat w.length))
  txid _ := ""
  txidFromStr _ := some []
  vsize _ := 1
  sighash _ _ := some []
  addressToStr _ _ := ""
  addressFromScript _ _ := some ""
  scriptOfAddress _ _ := some []

/-- Oracles that accept every transaction of a message: each signature verifies, the funding
output is always unspent, and the server lists a row for every transaction. -/
def standIn (tx0Hex : String) (transferMsg : TransferMsg) : Env Unit Unit ℕ where
  btc := standInBtc reading tx0Hex
  secp := standInSecp
  ecies :=
    { hexDecode := fun _ => some []
      decrypt := fun _ _ => some []
      transferMsgFromJson := fun _ => some transferMsg }
  clientConfig := { feeRateTolerance := 0, confirmationTarget := 0, maxFeeRate := 0 }
  electrum :=
    { batchTransactionGetRaw := fun _ => .ok [tx0Hex]
      scriptListUnspent := fun _ => .ok (transferMsg.backupTransactions.map (fun b =>
        ⟨(reading.outpointOf b.tx).txid, (reading.outpointOf b.tx).vout.toUInt64, 0, 0⟩))
      blockHeadersSubscribeRaw := .ok 0 }
  getStatechainInfo := fun _ => .ok (some (standInInfo transferMsg))

variable {reading} {tx0Hex : String} {transferMsg : TransferMsg} {b : BackupTx}

theorem standIn_deserialize {tx : String} (h : tx ≠ tx0Hex) :
    (standInBtc reading tx0Hex).deserialize tx =
      .ok (standInTx reading tx) := by
  simp [standInBtc, h]

theorem standIn_deserialize_tx0 :
    (standInBtc reading tx0Hex).deserialize tx0Hex = .ok standInTx0 := by
  simp [standInBtc]

theorem standInTx0_output (vout : UInt32) :
    standInTx0.output[vout.toNat]? = some { value := 0, scriptPubkey := [0x51, 0x20] } := by
  rw [standInTx0, List.getElem?_replicate, if_pos vout.toNat_lt]

theorem standIn_previousOutpoint (h : b.tx ≠ tx0Hex) :
    getPreviousOutpoint (standInBtc reading tx0Hex) b =
      .ok (reading.outpointOf b.tx) := by
  simp [getPreviousOutpoint, standIn_deserialize h, standInTx]

theorem standIn_serialize {tx : String} :
    (standInBtc reading tx0Hex).serialize
      (standInTx reading tx) = tx := by
  have hchars : (tx.toList.map (fun ch => List.replicate ch.toNat (0 : UInt8))).map
      (fun w => Char.ofNat w.length) = tx.toList := by
    rw [List.map_map]
    exact (List.map_congr_left (fun ch _ => by simp)).trans (List.map_id _)
  simp [standInBtc, standInTx, hchars]

theorem standIn_xOnlyOfScript :
    xOnlyOfScript standInSecp [0x51, 0x20] = .ok [] := rfl

theorem standIn_txOutput (vout : UInt32) :
    txOutput (standInBtc reading tx0Hex) tx0Hex vout =
      .ok { value := 0, scriptPubkey := [0x51, 0x20] } := by
  simp [txOutput, standIn_deserialize_tx0, standInTx0_output]

theorem standIn_transactionSignature (h : b.tx ≠ tx0Hex) :
    verifyTransactionSignature (standInBtc reading tx0Hex)
      standInSecp b.tx tx0Hex (0 : ℕ) 0 = .ok () := by
  simp only [verifyTransactionSignature, standIn_deserialize h, standIn_txOutput, standIn_xOnlyOfScript,
    question_ok, ok_bind]
  simp [standInBtc, standInSecp, standInTx]

theorem standIn_blindedMusigScheme (h : b.tx ≠ tx0Hex) :
    verifyBlindedMusigScheme (standInBtc reading tx0Hex)
      standInSecp b tx0Hex
      (standInRow b.txN) = .ok () := by
  have hhash : getTxHash (standInBtc reading tx0Hex) standInTx0
      (standInTx reading b.tx) = .ok [] := by
    simp [getTxHash, standInTx, standInTx0_output]
    rfl
  simp [verifyBlindedMusigScheme, recomputeSession, standIn_deserialize h, standIn_deserialize_tx0, hhash]
  simp [standInSecp, publicKeyFromStr, standInRow]

theorem standIn_sequence (h : b.tx ≠ tx0Hex) :
    verifyTransactionSequence (standInBtc reading tx0Hex) b.tx = .ok () := by
  simp [verifyTransactionSequence, standIn_deserialize h, standInTx]

theorem standIn_locktime {initlock : UInt32} (h : b.tx ≠ tx0Hex) (h0 : reading.lockOf b.tx ≠ 0)
    (hi : reading.lockOf b.tx ≤ initlock) (hb : isBlockHeight (reading.lockOf b.tx) = true) :
    verifyIfLocktimeIsReasonableTxVersionAndOutputSize
      (standInBtc reading tx0Hex) b.tx 0 initlock = .ok () := by
  simp [verifyIfLocktimeIsReasonableTxVersionAndOutputSize, standIn_deserialize h, standInTx, h0, hi, hb]

theorem standIn_reconstruct (h : b.tx ≠ tx0Hex) :
    reconstructTransaction (standInBtc reading tx0Hex) b.tx = .ok () := by
  simp only [reconstructTransaction, standIn_deserialize h, question_ok, ok_bind]
  have hs : (standInBtc reading tx0Hex).serialize
      (standInTx reading b.tx) = b.tx := standIn_serialize
  simp only [standInTx] at hs ⊢
  simp [hs]

/-- The lock times of the transactions that the stand-in answers for: block heights above
zero and within the initial lock of a chain at height zero. -/
structure Reasonable (lockOf : String → UInt32) (initlock : UInt32) (tx : String) : Prop where
  ne_zero : lockOf tx ≠ 0
  le_initlock : lockOf tx ≤ initlock
  height : isBlockHeight (lockOf tx) = true

def Spaced (lockOf : String → UInt32) (interval : UInt32) (a b : BackupTx) : Prop :=
  isIntervalCorrect interval (some (lockOf a.tx)) (lockOf b.tx) = true

theorem standIn_verifyBackupTx {initlock : UInt32} (h : b.tx ≠ tx0Hex)
    (hr : Reasonable reading.lockOf initlock b.tx) :
    verifyBackupTx (standInBtc reading tx0Hex)
      standInSecp tx0Hex 0 (0 : ℕ) 0 initlock b
      (standInRow b.txN) = .ok () := by
  simp only [verifyBackupTx, standIn_transactionSignature h, standIn_blindedMusigScheme h, standIn_sequence h,
    standIn_locktime h hr.ne_zero hr.le_initlock hr.height, standIn_reconstruct h, ok_bind]

theorem standIn_row {rows : List BackupTx} (hb : b ∈ rows) :
    (rows.map (fun r => standInRow r.txN)).find? (fun info => info.txN == b.txN) =
      some (standInRow b.txN) := by
  have hmem : standInRow b.txN ∈ rows.map (fun r => standInRow r.txN) := List.mem_map_of_mem hb
  cases hf : (rows.map (fun r => standInRow r.txN)).find? (fun info => info.txN == b.txN) with
  | none => simpa [standInRow] using List.find?_eq_none.mp hf _ hmem
  | some row =>
    obtain ⟨r, -, rfl⟩ := List.mem_map.mp (List.mem_of_find?_eq_some hf)
    have htxN : r.txN = b.txN := by simpa [standInRow] using List.find?_some hf
    rw [htxN]

variable {initlock interval : UInt32} {group : List BackupTx}

theorem standIn_loop (hmem : ∀ b ∈ group, b ∈ transferMsg.backupTransactions)
    (hne : ∀ b ∈ group, b.tx ≠ tx0Hex) (hr : ∀ b ∈ group, Reasonable reading.lockOf initlock b.tx)
    (prev : Option UInt32) (hhead : ∀ b, group.head? = some b → isIntervalCorrect interval prev (reading.lockOf b.tx))
    (hchain : group.IsChain (Spaced reading.lockOf interval)) :
    signatureSchemeLoop (standInBtc reading tx0Hex)
      standInSecp (standInInfo transferMsg) tx0Hex 0 (0 : ℕ) 0
      initlock interval group prev =
      .ok (some (group.getLast?.elim prev (fun b => some (reading.lockOf b.tx)))) := by
  induction group generalizing prev with
  | nil => rfl
  | cons b rest ih =>
    obtain ⟨hb, hmem'⟩ := List.forall_mem_cons.mp hmem
    obtain ⟨hbne, hne'⟩ := List.forall_mem_cons.mp hne
    obtain ⟨hbr, hr'⟩ := List.forall_mem_cons.mp hr
    have hheight : getBlockheight (standInBtc reading tx0Hex) b =
        .ok (reading.lockOf b.tx) := by
      simp [getBlockheight, standIn_deserialize hbne, standInTx, hbr.height]
    have hrow : (standInInfo transferMsg).statechainInfo.find? (fun info => info.txN == b.txN) =
        some (standInRow b.txN) := standIn_row hb
    have hrest := ih hmem' hne' hr' (some (reading.lockOf b.tx)) (fun b' hb' => hchain.rel_head? hb') hchain.tail
    simp only [signatureSchemeLoop, hrow, standIn_verifyBackupTx hbne hbr, handled_ok, ok_bind, hheight,
      hhead b rfl, if_true, hrest]
    cases rest with
    | nil => rfl
    | cons b' rest =>
      rw [List.getLast?_cons_cons, List.getLast?_eq_some_getLast (List.cons_ne_nil b' rest)]
      rfl

theorem standIn_signatureScheme (hg : group ≠ []) (hmem : ∀ b ∈ group, b ∈ transferMsg.backupTransactions)
    (hne : ∀ b ∈ group, b.tx ≠ tx0Hex) (hr : ∀ b ∈ group, Reasonable reading.lockOf initlock b.tx)
    (hchain : group.IsChain (Spaced reading.lockOf interval)) :
    validateSignatureScheme (standInBtc reading tx0Hex)
      standInSecp (standInInfo transferMsg) tx0Hex 0 (0 : ℕ) 0
      initlock interval group = .ok (reading.lockOf (group.getLast hg).tx) := by
  rw [validateSignatureScheme, standIn_loop hmem hne hr none (fun _ _ => rfl) hchain,
    List.getLast?_eq_some_getLast hg]
  rfl

theorem standIn_tx0Outpoint {key : OutPoint} (hg : group ≠ []) (hne : ∀ b ∈ group, b.tx ≠ tx0Hex)
    (hkey : ∀ b ∈ group, reading.outpointOf b.tx = key) :
    getTx0Outpoint (standInBtc reading tx0Hex) group = .ok key := by
  have hs : sortByTxN group ≠ [] := fun he => hg (List.perm_nil.mp (he ▸ (sortByTxN_perm group).symm))
  have hmem : (sortByTxN group).head hs ∈ group := (sortByTxN_perm group).mem_iff.mp (List.head_mem hs)
  rw [getTx0Outpoint, List.head?_eq_some_head hs, orErr_some, ok_bind, standIn_previousOutpoint (hne _ hmem),
    hkey _ hmem]

theorem standIn_unspent (hb : b ∈ transferMsg.backupTransactions) :
    verifyTx0OutputIsUnspentAndConfirmed (standIn reading tx0Hex transferMsg)
      (reading.outpointOf b.tx) tx0Hex "regtest" = .ok (true, .confirmed) := by
  have haddr : getOutputAddressFromTx0 (standInBtc reading tx0Hex)
      (reading.outpointOf b.tx) tx0Hex "regtest" = .ok "" := by
    simp only [getOutputAddressFromTx0, getNetwork, standIn_txOutput, ok_bind]
    rfl
  have hfind : ((transferMsg.backupTransactions.map (fun b : BackupTx =>
      ({ txHash := (reading.outpointOf b.tx).txid, txPos := (reading.outpointOf b.tx).vout.toUInt64, height := 0, value := 0 } : Unspent))).find?
      (fun unspent => unspent.txHash == (reading.outpointOf b.tx).txid &&
        unspent.txPos.toUInt32 == (reading.outpointOf b.tx).vout)).isSome := by
    rw [List.find?_isSome]
    exact ⟨_, List.mem_map_of_mem hb, by simp⟩
  obtain ⟨unspent, hu⟩ := Option.isSome_iff_exists.mp hfind
  simp only [verifyTx0OutputIsUnspentAndConfirmed, standIn, haddr, ok_bind]
  simp only [standInBtc, getNetwork, orThrow_some, anyhow, ok_bind, hu]
  simp

theorem standIn_latest (coin : Coin)
    (hlast : ∀ last, transferMsg.backupTransactions.getLast? = some last →
      reading.paysUser last.tx = true ∧ last.tx ≠ tx0Hex) (hne : transferMsg.backupTransactions ≠ []) :
    verifyLatestBackupTxPaysToUserPubkey (standInBtc reading tx0Hex)
      standInSecp transferMsg coin.userPubkey "regtest" =
      .ok true := by
  obtain ⟨hpays, htx0⟩ := hlast _ (List.getLast?_eq_some_getLast hne)
  simp only [verifyLatestBackupTxPaysToUserPubkey, getNetwork, List.getLast?_eq_some_getLast hne, orErr_some,
    ok_bind, standIn_deserialize htx0, question_ok]
  simp [standInSecp, standInTx, hpays, publicKeyFromStr, p2trScript]

/-- The stand-in accepts every message whose groups are spaced by the interval and whose
last listed transaction pays the user, whatever the other transactions pay. -/
theorem standIn_accepts (coin : Coin) (encMessage : String)
    (hne : ∀ b ∈ transferMsg.backupTransactions, b.tx ≠ tx0Hex)
    (hr : ∀ b ∈ transferMsg.backupTransactions, Reasonable reading.lockOf initlock b.tx)
    (hchain : ∀ group ∈ groupByOutpoint reading.outpointOf transferMsg.backupTransactions,
      group.IsChain (Spaced reading.lockOf interval))
    (hlast : ∀ last, transferMsg.backupTransactions.getLast? = some last → reading.paysUser last.tx = true) :
    validateEncryptedMessage (standIn reading tx0Hex transferMsg) coin encMessage "regtest"
      { initlock := initlock, interval := interval, feeRateSatsPerByte := 0 } 0 = .ok () := by
  have hdec : decryptTransferMsg (standIn reading tx0Hex transferMsg).secp
      (standIn reading tx0Hex transferMsg).ecies encMessage coin.authPrivkey = .ok transferMsg := rfl
  have hsplit : splitBackupTransactions (standIn reading tx0Hex transferMsg).btc
      transferMsg.backupTransactions = .ok (groupByOutpoint reading.outpointOf transferMsg.backupTransactions) :=
    splitBackupTransactions_eq (fun b hb => standIn_previousOutpoint (hne b hb))
  simp only [validateEncryptedMessage, hdec, ok_bind, hsplit, forM_eq_ok]
  rintro ⟨group, index⟩ hmem
  have hg := List.mem_of_getElem? (List.mk_mem_zipIdx_iff_getElem?.mp hmem)
  have hin : ∀ b ∈ group, b ∈ transferMsg.backupTransactions := fun b hb => mem_of_mem_group hg hb
  obtain ⟨key, hkey, rfl⟩ := List.mem_map.mp hg
  obtain ⟨b, hb, rfl⟩ := List.mem_map.mp (List.mem_eraseDups.mp hkey)
  have hkeys : ∀ b' ∈ sortByTxN (transferMsg.backupTransactions.filter
      (fun b' => reading.outpointOf b'.tx = reading.outpointOf b.tx)), reading.outpointOf b'.tx = reading.outpointOf b.tx := by
    intro b' hb'
    rw [(sortByTxN_perm _).mem_iff] at hb'
    simpa using (List.mem_filter.mp hb').2
  have hg' := groupByOutpoint_ne_nil hg
  refine validateGroup_eq_ok.mpr ⟨reading.outpointOf b.tx, tx0Hex, standInInfo transferMsg, .confirmed,
    reading.lockOf (List.getLast _ hg').tx, standIn_tx0Outpoint hg' (fun b hb => hne b (hin b hb)) hkeys, rfl,
    fun _ => rfl, rfl, ?_,
    standIn_latest coin (fun last hl => ⟨hlast last hl, hne last (List.mem_of_getLast? hl)⟩)
      (List.ne_nil_of_mem hb),
    rfl, standIn_unspent hb,
    standIn_signatureScheme hg' hin (fun b hb => hne b (hin b hb)) (fun b hb => hr b (hin b hb)) (hchain _ hg)⟩
  simp only [validateTx0OutputPubkey, standIn, getNetwork, standIn_txOutput, ok_bind]
  rfl

theorem standIn_not_paysTo {tx userPubkey : String} (htx : tx ≠ tx0Hex) (hpays : reading.paysUser tx = false) :
    ¬PaysTo (standIn reading tx0Hex transferMsg) tx userPubkey := by
  rintro ⟨decoded, output, hdec, hout, hscript⟩
  cases Except.ok.inj ((standIn_deserialize htx).symm.trans hdec)
  simp only [standInTx, hpays, List.getElem?_cons_zero, Option.some.injEq] at hout
  subst hout
  have hs : backupScript (standIn reading tx0Hex transferMsg).secp userPubkey =
      .ok [0x51, 0x20] := rfl
  rw [hs] at hscript
  simp at hscript

theorem exists_fresh (txs : List BackupTx) : ∃ tx0Hex, ∀ b ∈ txs, b.tx ≠ tx0Hex := by
  have hinj : Function.Injective (fun k : ℕ => String.ofList (List.replicate k 'a')) := by
    intro a b hab
    have hlist := String.ofList_injective hab
    simpa using congrArg List.length hlist
  have : Infinite String := Infinite.of_injective _ hinj
  obtain ⟨tx0Hex, hfresh⟩ := Infinite.exists_notMem_finset (txs.map BackupTx.tx).toFinset
  refine ⟨tx0Hex, fun b hb he => hfresh ?_⟩
  rw [List.mem_toFinset, ← he]
  exact List.mem_map_of_mem hb

end StandIn

/-- Acceptance implies that every group's latest transaction pays the receiver, for all
oracles, exactly when each group ends with the transaction listed last in the message. -/
theorem receiver_sound_iff (outpointOf : String → OutPoint) (txs : List BackupTx) :
    (∀ (E K F : Type) [Add F] [Sub F] [Div F] [NatCast F] [LT F] [DecidableLT F] (env : Env E K F)
        (coin : Coin) (encMessage network : String) (infoConfig : InfoConfig F) (blockheight : UInt32)
        (transferMsg : TransferMsg),
        decryptTransferMsg env.secp env.ecies encMessage coin.authPrivkey = .ok transferMsg →
        transferMsg.backupTransactions = txs →
        (∀ b ∈ txs, getPreviousOutpoint env.btc b = .ok (outpointOf b.tx)) →
        ReceiverSound env coin encMessage network infoConfig blockheight transferMsg) ↔
      LatestListedLast outpointOf txs := by
  constructor
  · intro hall group hgroup
    obtain ⟨tx0Hex, hfresh⟩ := exists_fresh txs
    have hne : txs ≠ [] := by
      rintro rfl
      simp [groupByOutpoint] at hgroup
    let flat := txs.getLast hne
    have hflat : txs.getLast? = some flat := List.getLast?_eq_some_getLast hne
    let transferMsg : TransferMsg := ⟨"", "", txs, [], ""⟩
    let coin : Coin := ⟨0, "", "", "", "", "", "", "", "", none, none, none, none, none, none, none, none, none,
      none, none, none, none, none, none, none, .initialised, 0⟩
    let reading : Reading := ⟨outpointOf, fun _ => 1, fun tx => tx == flat.tx⟩
    have hop : ∀ b ∈ txs, getPreviousOutpoint (standIn reading tx0Hex transferMsg).btc b = .ok (outpointOf b.tx) := fun b hb => standIn_previousOutpoint (hfresh b hb)
    have hspaced : ∀ a b : BackupTx, Spaced (fun _ => 1) 0 a b :=
      fun _ _ => (by decide : isIntervalCorrect 0 (some 1) 1 = true)
    have hok : validateEncryptedMessage (standIn reading tx0Hex transferMsg) coin "" "regtest" { initlock := 1, interval := 0, feeRateSatsPerByte := 0 } 0 = .ok () := by
      apply standIn_accepts coin "" hfresh
      · exact fun _ _ => ⟨(by decide : (1 : UInt32) ≠ 0), (by decide : (1 : UInt32) ≤ 1), (by decide : isBlockHeight 1 = true)⟩
      · exact fun group _ => (List.pairwise_of_forall hspaced).isChain
      · intro last hl
        cases Option.some.inj (hflat.symm.trans hl)
        exact beq_self_eq_true _
    obtain ⟨last, hl, hp⟩ := hall Unit Unit ℕ _ coin "" "regtest" _ 0 transferMsg rfl rfl hop hok _
      (splitBackupTransactions_eq hop) group hgroup
    rw [hl, hflat, Option.map_some, Option.map_some, Option.some.injEq]
    by_contra htx
    have hmem : last ∈ txs := mem_of_mem_group hgroup (List.mem_of_getLast? hl)
    exact standIn_not_paysTo (hfresh last hmem) (beq_eq_false_iff_ne.mpr htx) hp
  · intro hlast E K F _ _ _ _ _ _ env coin encMessage network infoConfig blockheight transferMsg hmsg htxs hop
    subst htxs
    exact receiverSound_of_latestListedLast hmsg hop hlast

def swappedOutpoint : String → OutPoint := fun _ => ⟨"funding", 0⟩

def swappedLock (tx : String) : UInt32 := if tx = "latest" then 990 else 1000

/-- One outpoint, the latest transaction listed first: it pays the sender, while the older
one, listed last, pays the receiver. -/
def swappedMsg : TransferMsg :=
  { statechainId := "statechain"
    transferSignature := "signature"
    backupTransactions :=
      [{ txN := 2, tx := "latest", clientPublicNonce := "", serverPublicNonce := "", clientPublicKey := "",
         serverPublicKey := "", blindingFactor := "" },
       { txN := 1, tx := "older", clientPublicNonce := "", serverPublicNonce := "", clientPublicKey := "",
         serverPublicKey := "", blindingFactor := "" }]
    t1 := []
    userPublicKey := "sender" }

def swappedEnv : Env Unit Unit ℕ := standIn ⟨swappedOutpoint, swappedLock, fun tx => tx == "older"⟩ "tx0" swappedMsg

def receivingCoin : Coin :=
  { index := 0, userPrivkey := "o2", userPubkey := "O2", authPrivkey := "a2", authPubkey := "A2"
    derivationPath := "", fingerprint := "", address := "", backupAddress := ""
    status := .initialised, duplicateIndex := 0 }

theorem swapped_message_accepted :
    validateEncryptedMessage swappedEnv receivingCoin "" "regtest"
        { initlock := 1000, interval := 10, feeRateSatsPerByte := 0 } 0 = .ok () ∧
      splitBackupTransactions swappedEnv.btc swappedMsg.backupTransactions =
        .ok [swappedMsg.backupTransactions.reverse] ∧
      swappedMsg.backupTransactions.reverse.getLast?.map BackupTx.tx = some "latest" ∧
      ¬PaysTo swappedEnv "latest" receivingCoin.userPubkey := by
  have hgroups : groupByOutpoint swappedOutpoint swappedMsg.backupTransactions =
      [swappedMsg.backupTransactions.reverse] := by decide
  have hfresh : ∀ b ∈ swappedMsg.backupTransactions, b.tx ≠ "tx0" := by decide
  refine ⟨?_, ?_, by decide, standIn_not_paysTo (by decide) (by decide)⟩
  · apply standIn_accepts _ _ hfresh
    · intro b hb
      simp only [swappedMsg, List.mem_cons, List.not_mem_nil, or_false] at hb
      rcases hb with rfl | rfl <;> exact ⟨by decide, by decide, by decide⟩
    · rw [hgroups]
      intro group hgroup
      rw [List.mem_singleton.mp hgroup]
      exact List.isChain_pair.mpr
        (by decide : isIntervalCorrect 10 (some (swappedLock "older")) (swappedLock "latest") = true)
    · intro last hlast
      simp only [swappedMsg, List.getLast?_cons_cons, List.getLast?_singleton, Option.some.injEq] at hlast
      rw [← hlast]
      rfl
  · rw [← hgroups]
    exact splitBackupTransactions_eq (fun b hb => standIn_previousOutpoint (hfresh b hb))

end MercuryLayer.Client.ReceiverSoundness
