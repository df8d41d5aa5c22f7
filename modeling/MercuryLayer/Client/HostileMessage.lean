import MercuryLayer.Client.Receive
import MercuryLayer.Client.SignatureScheme
import MercuryLayer.Client.Withdraw

namespace MercuryLayer.Client.HostileMessage

open Client.Operations
open Client.SignatureScheme (Checked loop_cons_eq_ok)
open Client.TransferReceiver (Env InfoConfig anyhow anyhow_eq_ok anyhow_ne_panic splitBackupTransactions
  signatureSchemeFailure currentFeeRateSatsPerByte)
open Client.Transaction hiding Call Reply
open Crates Error Library.Programs Library.Validation Library.XOnlyCurve Receiver WalletData

variable {E K F : Type}

section Answers

variable (kit : Kit E K F) (oracle : Oracle F)

/-- What `/info/statechain` comes to, from the server's answer. -/
def statechainInfoOf (statechainId : String) : Res (Option StatechainInfoResponsePayload) := do
  let response ← anyhow (oracle.answer (.statechainInfo statechainId) : Response)
  if statusOf response = 404 then return none
  else match response.map Server.Transfer.Answer.payload with
    | some (.statechainInfo info) => return some info
    | _ => .error (.anyhow "expected value")

/-- Everything that validation consults, with every request answered in one way. -/
def envOf : Env E K F where
  btc := kit.btc
  secp := kit.secp
  ecies := kit.ecies
  clientConfig := kit.clientConfig
  electrum :=
    { batchTransactionGetRaw := fun txid => oracle.answer (.batchTransactionGetRaw txid)
      scriptListUnspent := fun script => oracle.answer (.sending (.scriptListUnspent script))
      blockHeadersSubscribeRaw := oracle.answer (.sending .blockHeadersSubscribeRaw) }
  getStatechainInfo := statechainInfoOf oracle

variable {kit oracle} {wallets : Wallets}

theorem comes_getTx0 (tx0Txid : String) :
    Comes handle wallets oracle (Receive.getTx0 kit tx0Txid) (TransferReceiver.getTx0 (envOf kit oracle) tx0Txid) := by
  refine comes_bind comes_lift (fun txid _ => ?_)
  refine comes_ask_bind rfl ?_
  exact comes_bind comes_lift (fun txBytes _ => comes_lift)

theorem comes_getStatechainInfo (statechainId : String) :
    Comes handle wallets oracle (getStatechainInfo statechainId) (statechainInfoOf oracle statechainId) := by
  refine comes_ask_bind rfl ?_
  refine comes_bind comes_lift (fun response _ => ?_)
  split_ifs
  · exact comes_pure
  · cases response.map Server.Transfer.Answer.payload with
    | none => exact comes_lift
    | some payload =>
      cases payload with
      | statechainInfo info => exact comes_pure
      | _ => exact comes_lift

theorem comes_scriptListUnspent (script : Bytes) :
    Comes handle wallets oracle (scriptListUnspent script)
      (anyhow (oracle.answer (.sending (.scriptListUnspent script)))) :=
  comes_ask_bind rfl comes_lift

theorem comes_blockHeadersSubscribeRaw :
    Comes handle wallets oracle (send blockHeadersSubscribeRaw)
      (anyhow (oracle.answer (.sending .blockHeadersSubscribeRaw))) :=
  rfl

theorem comes_verifyTx0OutputIsUnspentAndConfirmed [Build] (tx0Outpoint : OutPoint) (tx0Hex network : String) :
    Comes handle wallets oracle (Receive.verifyTx0OutputIsUnspentAndConfirmed kit tx0Outpoint tx0Hex network)
      (TransferReceiver.verifyTx0OutputIsUnspentAndConfirmed (envOf kit oracle) tx0Outpoint tx0Hex network) := by
  refine comes_bind comes_lift (fun outputAddress _ => ?_)
  refine comes_bind comes_lift (fun network _ => ?_)
  refine comes_bind comes_lift (fun script _ => ?_)
  refine comes_bind (comes_scriptListUnspent script) (fun res _ => ?_)
  refine comes_bind comes_blockHeadersSubscribeRaw (fun blockheight _ => ?_)
  cases res.find? (fun unspent =>
      unspent.txHash == tx0Outpoint.txid && unspent.txPos.toUInt32 == tx0Outpoint.vout) with
  | none => exact comes_pure
  | some unspent => exact comes_bind comes_lift (fun _ _ => comes_pure)

variable [Build] [Add F] [Sub F] [Div F] [NatCast F] [LT F] [DecidableLT F]

theorem comes_validateGroup (coin : Coin) (network : String) (infoConfig : InfoConfig F) (blockheight : UInt32)
    (transferMsg : TransferMsg) (index : ℕ) (backupTransactions : List BackupTx) :
    Comes handle wallets oracle
      (Receive.validateGroup kit coin network infoConfig blockheight transferMsg index backupTransactions)
      (TransferReceiver.validateGroup (envOf kit oracle) coin network infoConfig blockheight transferMsg index
        backupTransactions) := by
  unfold Receive.validateGroup TransferReceiver.validateGroup
  refine comes_bind comes_lift (fun tx0Outpoint _ => ?_)
  refine comes_bind (comes_getTx0 _) (fun tx0Hex _ => ?_)
  extract_lets rest rest'
  have hrest : Comes handle wallets oracle (rest ()) (rest' ()) := by
    refine comes_bind (comes_getStatechainInfo _) (fun info _ => ?_)
    refine comes_bind comes_lift (fun statechainInfo _ => ?_)
    refine comes_bind comes_lift (fun _ _ => ?_)
    refine comes_bind comes_lift (fun _ _ => ?_)
    refine comes_bind comes_lift (fun _ _ => ?_)
    refine comes_bind comes_lift (fun _ _ => ?_)
    refine comes_bind comes_lift (fun _ _ => ?_)
    refine comes_bind (comes_verifyTx0OutputIsUnspentAndConfirmed _ _ _) (fun _ _ => ?_)
    refine comes_bind comes_lift (fun _ _ => ?_)
    exact comes_bind comes_lift (fun _ _ => comes_pure)
  split_ifs
  · refine comes_bind comes_lift (fun _ _ => ?_)
    exact comes_bind comes_lift (fun _ _ => hrest)
  · exact hrest

theorem comes_validateEncryptedMessage (coin : Coin) (encMessage network : String) (infoConfig : InfoConfig F)
    (blockheight : UInt32) :
    Comes handle wallets oracle
      (Receive.validateEncryptedMessage kit coin encMessage network infoConfig blockheight)
      (TransferReceiver.validateEncryptedMessage (envOf kit oracle) coin encMessage network infoConfig
        blockheight) := by
  refine comes_bind comes_lift (fun transferMsg _ => ?_)
  refine comes_bind comes_lift (fun grouped _ => ?_)
  exact comes_forM (fun group _ => comes_validateGroup _ _ _ _ _ _ _)

end Answers

section Panics

variable {btc : Bitcoin} {secp : Secp E K}

theorem eq_none_or_exists {α : Type} {o : Option α} {P : α → Prop} :
    (o = none ∨ ∃ a, o = some a ∧ P a) ↔ ∀ a, o = some a → P a := by
  cases o <;> simp

/-- A text that is hexadecimal and not the encryption of a message. -/
def Garbled (secp : Secp E K) (ecies : Ecies K) (encMessage privateKeyWif : String) : Prop :=
  ∃ key bytes, secp.privateKeyFromWif privateKeyWif = some key ∧ ecies.hexDecode encMessage = some bytes ∧
    (ecies.decrypt key bytes).bind ecies.transferMsgFromJson = none

theorem decryptTransferMsg_eq_panic {ecies : Ecies K} {encMessage privateKeyWif : String} :
    decryptTransferMsg secp ecies encMessage privateKeyWif = .error .panic ↔
      Garbled secp ecies encMessage privateKeyWif := by
  simp only [decryptTransferMsg, bind_eq_error, orErr_ne_panic, orErr_eq_ok, unwrap_eq_panic, unwrap_eq_ok, false_or,
    Garbled]
  constructor
  · rintro ⟨key, hkey, bytes, hbytes, hplain | ⟨plain, hplain, hmsg⟩⟩
    · exact ⟨key, bytes, hkey, hbytes, by rw [hplain]; rfl⟩
    · exact ⟨key, bytes, hkey, hbytes, by rw [hplain]; exact hmsg⟩
  · rintro ⟨key, bytes, hkey, hbytes, hmsg⟩
    refine ⟨key, hkey, bytes, hbytes, ?_⟩
    cases hplain : ecies.decrypt key bytes with
    | none => exact .inl rfl
    | some plain =>
      rw [hplain] at hmsg
      exact .inr ⟨plain, rfl, hmsg⟩

/-- A text that is no transaction with one input and at most one output. -/
def Misshapen (btc : Bitcoin) (tx : String) : Prop :=
  ∀ txN, btc.deserialize tx = .ok txN → txN.input.length ≠ 1 ∨ 1 < txN.output.length

theorem getPreviousOutpoint_ne_ok {backupTx : BackupTx} :
    (∀ outpoint, getPreviousOutpoint btc backupTx ≠ .ok outpoint) ↔ Misshapen btc backupTx.tx := by
  have hok : (∃ outpoint, getPreviousOutpoint btc backupTx = .ok outpoint) ↔
      ∃ txN, btc.deserialize backupTx.tx = .ok txN ∧ txN.input.length = 1 ∧ txN.output.length ≤ 1 := by
    simp only [getPreviousOutpoint, bind_eq_ok, question_eq_ok, throwIf_eq_ok, unwrap_eq_ok, pure_eq_ok]
    constructor
    · rintro ⟨outpoint, txN, htxN, _, hinput, _, houtput, input, hget, rfl⟩
      have hlt := (List.getElem?_eq_some_iff.mp hget).1
      exact ⟨txN, htxN, by omega, by omega⟩
    · rintro ⟨txN, htxN, hinput, houtput⟩
      have hlt : 0 < txN.input.length := by omega
      exact ⟨_, txN, htxN, (), by omega, (), by omega, _, List.getElem?_eq_getElem hlt, rfl⟩
  rw [← not_exists, hok, Misshapen]
  constructor
  · intro h txN htxN
    by_contra hnot
    exact h ⟨txN, htxN, by omega, by omega⟩
  · rintro h ⟨txN, htxN, hinput, houtput⟩
    have := h txN htxN
    omega

theorem splitBackupTransactions_eq_panic {txs : List BackupTx} :
    splitBackupTransactions btc txs = .error .panic ↔ ∃ backupTx ∈ txs, Misshapen btc backupTx.tx := by
  constructor
  · intro h
    obtain hrows | ⟨_, -, h⟩ := bind_eq_error.mp h
    · obtain ⟨backupTx, hmem, hrow⟩ := exists_of_mapM_eq_error hrows
      obtain houtpoint | ⟨_, -, h⟩ := bind_eq_error.mp hrow
      · exact ⟨backupTx, hmem, getPreviousOutpoint_ne_ok.mp (expect_eq_error.mp houtpoint).2⟩
      · cases h
    · cases h
  · rintro ⟨backupTx, hmem, hshape⟩
    cases hsplit : splitBackupTransactions btc txs with
    | ok groups =>
      obtain ⟨outpointOf, houtpoint⟩ := TransferReceiver.exists_outpointOf hsplit
      exact absurd (houtpoint backupTx hmem) (getPreviousOutpoint_ne_ok.mpr hshape _)
    | error f =>
      obtain hrows | ⟨_, -, h⟩ := bind_eq_error.mp hsplit
      · obtain ⟨_, -, hrow⟩ := exists_of_mapM_eq_error hrows
        obtain houtpoint | ⟨_, -, h⟩ := bind_eq_error.mp hrow
        · rw [(expect_eq_error.mp houtpoint).1]
        · cases h
      · cases h

/-- A script that does not carry an x-only key after its first two bytes. -/
def Keyless (secp : Secp E K) (script : Bytes) : Prop :=
  script.length < 2 ∨ secp.xOnlyFromSlice (script.drop 2) = none

theorem xOnlyOfScript_eq_panic {script : Bytes} : xOnlyOfScript secp script = .error .panic ↔ Keyless secp script := by
  rw [xOnlyOfScript, unwrap_eq_panic, Keyless]
  split_ifs with hlength
  · exact iff_of_true rfl (.inl hlength)
  · exact ⟨.inr, fun h => h.resolve_left hlength⟩

def NoOutput (btc : Bitcoin) (tx0Hex : String) (vout : UInt32) : Prop :=
  ∃ tx0, btc.deserialize tx0Hex = .ok tx0 ∧ tx0.output.length ≤ vout.toNat

theorem txOutput_eq_panic {tx0Hex : String} {vout : UInt32} :
    txOutput btc tx0Hex vout = .error .panic ↔ NoOutput btc tx0Hex vout := by
  simp only [txOutput, bind_eq_error, question_ne_panic, question_eq_ok, unwrap_eq_panic, false_or,
    List.getElem?_eq_none_iff, NoOutput]

/-- An output key that does not exist, or is no x-only key. -/
def NoOutputKey (secp : Secp E K) (internalKey : Bytes) : Prop :=
  (secp.p2trOutputKey internalKey).bind secp.xOnlyFromSlice = none

/-- What `validate_tx0_output_pubkey` cannot handle: a key of the enclave that cannot be read, two keys
without a sum, or a funding output that is missing or does not carry a key. -/
def TripsOverKey (btc : Bitcoin) (secp : Secp E K) (enclavePublicKey userPublicKey : String) (vout : UInt32)
    (tx0Hex network : String) : Prop :=
  (∃ net, getNetwork network = .ok net) ∧
    ∀ enclave, secp.publicKeyFromStr enclavePublicKey = some enclave →
      ∃ sender, secp.publicKeyFromStr userPublicKey = some sender ∧
        ∀ aggregate, secp.combine sender enclave = some aggregate →
          NoOutputKey secp (secp.xOnly aggregate) ∨ NoOutput btc tx0Hex vout ∨
            ∃ tx0Output, txOutput btc tx0Hex vout = .ok tx0Output ∧ Keyless secp tx0Output.scriptPubkey

theorem p2trScript_eq_panic {internalKey : Bytes} :
    p2trScript secp internalKey = .error .panic ↔ secp.p2trOutputKey internalKey = none := by
  rw [p2trScript, bind_eq_error, unwrap_eq_panic]
  refine or_iff_left ?_
  rintro ⟨_, _, h⟩
  cases h

theorem keyless_p2tr {key : Bytes} : Keyless secp (0x51 :: 0x20 :: key) ↔ secp.xOnlyFromSlice key = none := by
  simp [Keyless]

theorem validateTx0OutputPubkey_eq_panic {enclavePublicKey : String} {transferMsg : TransferMsg}
    {tx0Outpoint : OutPoint} {tx0Hex network : String} :
    validateTx0OutputPubkey btc secp enclavePublicKey transferMsg tx0Outpoint tx0Hex network = .error .panic ↔
      TripsOverKey btc secp enclavePublicKey transferMsg.userPublicKey tx0Outpoint.vout tx0Hex network := by
  have hscript : ∀ aggregate, (p2trScript secp (secp.xOnly aggregate) = .error .panic ∨
      ∃ script, p2trScript secp (secp.xOnly aggregate) = .ok script ∧
        (Keyless secp script ∨ (∃ key, xOnlyOfScript secp script = .ok key) ∧
          (NoOutput btc tx0Hex tx0Outpoint.vout ∨ ∃ tx0Output, txOutput btc tx0Hex tx0Outpoint.vout = .ok tx0Output ∧
            Keyless secp tx0Output.scriptPubkey))) ↔
      NoOutputKey secp (secp.xOnly aggregate) ∨ NoOutput btc tx0Hex tx0Outpoint.vout ∨
        ∃ tx0Output, txOutput btc tx0Hex tx0Outpoint.vout = .ok tx0Output ∧ Keyless secp tx0Output.scriptPubkey := by
    intro aggregate
    simp only [p2trScript_eq_panic, p2trScript_eq_ok, NoOutputKey]
    cases secp.p2trOutputKey (secp.xOnly aggregate) with
    | none => simp
    | some key =>
      cases hkey : secp.xOnlyFromSlice key with
      | none => simp [keyless_p2tr, hkey]
      | some xonly => simp [keyless_p2tr, hkey, xOnlyOfScript]
  simp only [validateTx0OutputPubkey, publicKeyFromStr, bind_eq_error, getNetwork_ne_panic, false_or, unwrap_eq_panic,
    unwrap_eq_ok, orErr_ne_panic, orErr_eq_ok, xOnlyOfScript_eq_panic, txOutput_eq_panic, pure_ne_panic, and_false,
    exists_false, or_false, hscript, eq_none_or_exists, exists_and_right, TripsOverKey]

/-- What `verify_latest_backup_tx_pays_to_user_pubkey` cannot handle: a last transaction without an
output. -/
def TripsOverPayment (btc : Bitcoin) (secp : Secp E K) (backupTransactions : List BackupTx)
    (userPubkey network : String) : Prop :=
  ∃ key, secp.publicKeyFromStr userPubkey = some key ∧ (∃ net, getNetwork network = .ok net) ∧
    ∃ last lastTx, backupTransactions.getLast? = some last ∧ btc.deserialize last.tx = .ok lastTx ∧
      (lastTx.output = [] ∨ secp.p2trOutputKey (secp.xOnly key) = none)

theorem verifyLatestBackupTxPaysToUserPubkey_eq_panic {transferMsg : TransferMsg} {userPubkey network : String} :
    verifyLatestBackupTxPaysToUserPubkey btc secp transferMsg userPubkey network = .error .panic ↔
      TripsOverPayment btc secp transferMsg.backupTransactions userPubkey network := by
  have houtput : ∀ (outputs : List TxOut) (P : Prop),
      (outputs[0]? = none ∨ (∃ output, outputs[0]? = some output) ∧ P) ↔ (outputs = [] ∨ P) := by
    intro outputs P
    cases outputs <;> simp
  simp only [verifyLatestBackupTxPaysToUserPubkey, publicKeyFromStr, bind_eq_error, orErr_ne_panic, orErr_eq_ok,
    getNetwork_ne_panic, question_ne_panic, question_eq_ok, unwrap_eq_panic, unwrap_eq_ok, p2trScript_eq_panic,
    pure_ne_panic, and_false, exists_false, or_false, false_or, houtput, exists_and_right, exists_and_left,
    TripsOverPayment]

section Signature

/-- What `verify_transaction_signature` cannot handle: a first input without a signature in its
witness, a funding output that is missing or does not carry a key, no output, or, with overflow checks, an output
above the funding output. -/
def TripsOverSignature [build : Build] (btc : Bitcoin) (secp : Secp E K) (txNHex tx0Hex : String) : Prop :=
  ∃ txN, btc.deserialize txNHex = .ok txN ∧
    ∀ input, txN.input[0]? = some input → ∀ witness, input.witness[0]? = some witness → witness ≠ [] →
      ∀ signature, secp.signatureFromSlice witness.dropLast = some signature →
        NoOutput btc tx0Hex input.previousOutput.vout ∨
          ∃ tx0Output, txOutput btc tx0Hex input.previousOutput.vout = .ok tx0Output ∧
            (Keyless secp tx0Output.scriptPubkey ∨ btc.sighash txN [tx0Output] = none ∨ txN.output = [] ∨
              ∃ output, txN.output[0]? = some output ∧ build.overflowChecks = true ∧ tx0Output.value < output.value)

/-- What `verify_blinded_musig_scheme` cannot handle: a sum of the keys without a tweaked key, or a
session that cannot be made, as with a blinding factor of zero. -/
def TripsOverSession (btc : Bitcoin) (secp : Secp E K) (backupTx : BackupTx) (tx0Hex : String) : Prop :=
  ∃ clientNonce serverNonce clientKey serverKey blindingFactor aggregate tweak,
    secp.pubNonceFromStr backupTx.clientPublicNonce = .ok clientNonce ∧
    secp.pubNonceFromStr backupTx.serverPublicNonce = .ok serverNonce ∧
    secp.publicKeyFromStr backupTx.clientPublicKey = some clientKey ∧
    secp.publicKeyFromStr backupTx.serverPublicKey = some serverKey ∧
    secp.blindingFactorFromStr backupTx.blindingFactor = .ok blindingFactor ∧
    secp.combine clientKey serverKey = some aggregate ∧
    secp.secretKeyFromSlice (secp.tapTweakHash (secp.xOnly aggregate)) = some tweak ∧
    ∀ tweaked, secp.pubkeyXonlyTweakAdd aggregate tweak = some tweaked →
      ∃ tx0 txN msg, btc.deserialize tx0Hex = .ok tx0 ∧ btc.deserialize backupTx.tx = .ok txN ∧
        getTxHash btc tx0 txN = .ok msg ∧
        secp.newBlindedSession tweaked.2.1 [clientNonce, serverNonce] msg blindingFactor tweaked.2.2 = none

/-- What `verify_if_locktime_is_reasonable_tx_version_and_output_size` cannot handle with overflow checks: a height
and a number of blocks with a sum above all lock times, if the transaction passes the checks before. -/
def TripsOverLocktime [build : Build] (btc : Bitcoin) (txNHex : String) (height initlock : UInt32) :
    Prop :=
  ∃ txN, btc.deserialize txNHex = .ok txN ∧ txN.version = 2 ∧ txN.output.length ≤ 1 ∧
    isBlockHeight txN.lockTime = true ∧ height < txN.lockTime ∧ build.overflowChecks = true ∧
    2 ^ 32 ≤ height.toNat + initlock.toNat

variable [build : Build] [Add F] [Sub F] [Div F] [NatCast F] [LT F] [DecidableLT F]
  {tolerance feeRate : F}

theorem verifyTransactionSignature_eq_panic {txNHex tx0Hex : String} :
    verifyTransactionSignature btc secp txNHex tx0Hex tolerance feeRate = .error .panic ↔
      TripsOverSignature btc secp txNHex tx0Hex := by
  have hwitness : ∀ (witness : Bytes) (P : Bytes → Prop),
      (((if witness = [] then none else some witness.dropLast) : Option Bytes) = none ∨
        ∃ data, (if witness = [] then none else some witness.dropLast) = some data ∧ P data) ↔
      (witness ≠ [] → P witness.dropLast) := by
    intro witness P
    by_cases h : witness = [] <;> simp [h]
  have hkey : ∀ (script : Bytes) (P : Prop),
      (Keyless secp script ∨ ∃ key, xOnlyOfScript secp script = .ok key ∧ P) ↔ (Keyless secp script ∨ P) := by
    intro script P
    rw [← xOnlyOfScript_eq_panic, xOnlyOfScript]
    generalize (if script.length < 2 then none else secp.xOnlyFromSlice (script.drop 2)) = o
    cases o <;> simp
  have hsighash : ∀ (msg : Option Bytes) (outputs : List TxOut) (P : TxOut → Prop),
      (∀ m, msg = some m → ∀ output, outputs[0]? = some output → P output) ↔
        (msg = none ∨ outputs = [] ∨ ∃ output, outputs[0]? = some output ∧ P output) := by
    intro msg outputs P
    cases msg <;> cases outputs <;> simp
  simp only [verifyTransactionSignature, bind_eq_error, question_ne_panic, question_eq_ok, unwrap_eq_panic,
    unwrap_eq_ok, throwIf_eq_error, overflow_eq_panic, txOutput_eq_panic, xOnlyOfScript_eq_panic, false_or, hwitness,
    eq_none_or_exists, reduceCtorEq, and_false, exists_false, or_false, hkey, hsighash, TripsOverSignature]

theorem of_verifyTransactionSignature {txNHex tx0Hex : String}
    (h : verifyTransactionSignature btc secp txNHex tx0Hex tolerance feeRate = .ok ()) :
    ∃ txN input witness tx0 tx0Output output, btc.deserialize txNHex = .ok txN ∧ txN.input[0]? = some input ∧
      input.witness[0]? = some witness ∧ btc.deserialize tx0Hex = .ok tx0 ∧
      tx0.output[input.previousOutput.vout.toNat]? = some tx0Output ∧ txN.output[0]? = some output := by
  simp only [verifyTransactionSignature, txOutput, bind_eq_ok, question_eq_ok, unwrap_eq_ok] at h
  obtain ⟨txN, htxN, input, hinput, witness, hwitness, _, -, _, -, tx0Output, ⟨tx0, htx0, htx0Output⟩, _, -, _, -,
    output, houtput, -⟩ := h
  exact ⟨txN, input, witness, tx0, tx0Output, output, htxN, hinput, hwitness, htx0, htx0Output, houtput⟩

theorem recomputeSession_eq_panic {backupTx : BackupTx} {tx0Hex : String}
    (h : verifyTransactionSignature btc secp backupTx.tx tx0Hex tolerance feeRate = .ok ()) :
    recomputeSession btc secp backupTx tx0Hex = .error .panic ↔ TripsOverSession btc secp backupTx tx0Hex := by
  obtain ⟨txN, input, witness, tx0, tx0Output, -, htxN, hinput, hwitness, htx0, htx0Output, -⟩ :=
    of_verifyTransactionSignature h
  have hhash : getTxHash btc tx0 txN ≠ .error .panic := by
    simp only [getTxHash, hinput, unwrap_some, ok_bind, hwitness, orErr_some, htx0Output, ne_eq, bind_eq_error,
      throwIf_eq_error, orErr_ne_panic, reduceCtorEq, and_false, exists_false, or_false, not_false_iff]
  simp only [recomputeSession, publicKeyFromStr, bind_eq_error, question_ne_panic, question_eq_ok, orErr_ne_panic,
    orErr_eq_ok, unwrap_eq_panic, unwrap_eq_ok, pure_ne_panic, and_false, exists_false, or_false, false_or,
    eq_none_or_exists, htxN, htx0, Except.ok.injEq, exists_eq_left', hhash, TripsOverSession, exists_and_left]

omit build in
theorem verifyTransactionSequence_ne_panic {txNHex : String} :
    verifyTransactionSequence btc txNHex ≠ .error .panic := by
  intro h
  simp only [verifyTransactionSequence, bind_eq_error, question_ne_panic, question_eq_ok, throwIf_eq_error,
    throwIf_eq_ok, unwrap_eq_panic, reduceCtorEq, and_false, exists_false, or_false, false_or] at h
  obtain ⟨txN, -, _, hinput, _, -, hnone⟩ := h
  exact hinput (List.head?_eq_none_iff.mp hnone)

theorem verifyIfLocktimeIsReasonableTxVersionAndOutputSize_eq_panic {txNHex : String}
    {height initlock : UInt32} :
    verifyIfLocktimeIsReasonableTxVersionAndOutputSize btc txNHex height initlock = .error .panic ↔
      TripsOverLocktime btc txNHex height initlock := by
  simp only [verifyIfLocktimeIsReasonableTxVersionAndOutputSize, bind_eq_error, question_ne_panic, question_eq_ok,
    throwIf_eq_error, throwIf_eq_ok, overflow_eq_panic, reduceCtorEq, and_false, exists_false, or_false, false_or,
    not_not, gt_iff_lt, not_lt, Bool.not_eq_false, UInt32.not_le, exists_const, TripsOverLocktime]

theorem reconstructTransaction_ne_panic {txNHex tx0Hex : String}
    (h : verifyTransactionSignature btc secp txNHex tx0Hex tolerance feeRate = .ok ()) :
    reconstructTransaction btc txNHex ≠ .error .panic := by
  obtain ⟨txN, input, -, -, -, output, htxN, hinput, -, -, -, houtput⟩ := of_verifyTransactionSignature h
  simp only [reconstructTransaction, htxN, question_ok, ok_bind, houtput, unwrap_some, hinput, throwIf_eq_error,
    ne_eq, reduceCtorEq, and_false, not_false_iff]

/-- A transaction trips the checks over its signature or, if that is right, over its session or, if that and the
sequence number are right, over its lock time. -/
def TripsOverBackupTx (btc : Bitcoin) (secp : Secp E K) (tx0Hex : String) (height : UInt32)
    (tolerance feeRate : F) (initlock : UInt32) (backupTx : BackupTx)
    (row : StatechainInfo) : Prop :=
  TripsOverSignature btc secp backupTx.tx tx0Hex ∨
    verifyTransactionSignature btc secp backupTx.tx tx0Hex tolerance feeRate = .ok () ∧
      (TripsOverSession btc secp backupTx tx0Hex ∨
        verifyBlindedMusigScheme btc secp backupTx tx0Hex row = .ok () ∧
          verifyTransactionSequence btc backupTx.tx = .ok () ∧
          TripsOverLocktime btc backupTx.tx height initlock)

theorem verifyBlindedMusigScheme_eq_panic {backupTx : BackupTx} {tx0Hex : String} {row : StatechainInfo}
    (h : verifyTransactionSignature btc secp backupTx.tx tx0Hex tolerance feeRate = .ok ()) :
    verifyBlindedMusigScheme btc secp backupTx tx0Hex row = .error .panic ↔
      TripsOverSession btc secp backupTx tx0Hex := by
  simp only [verifyBlindedMusigScheme, bind_eq_error, throwIf_eq_error, reduceCtorEq, and_false, exists_false, or_false,
    recomputeSession_eq_panic h]

theorem verifyBackupTx_eq_panic {tx0Hex : String} {height initlock : UInt32} {backupTx : BackupTx}
    {row : StatechainInfo} :
    verifyBackupTx btc secp tx0Hex height tolerance feeRate initlock
        backupTx row = .error .panic ↔
      TripsOverBackupTx btc secp tx0Hex height tolerance feeRate initlock
        backupTx row := by
  rw [verifyBackupTx, bind_eq_error, verifyTransactionSignature_eq_panic, TripsOverBackupTx]
  refine or_congr_right ?_
  rw [Unique.exists_iff, PUnit.default_eq_unit]
  refine and_congr_right (fun hsignature => ?_)
  simp only [bind_eq_error, verifyBlindedMusigScheme_eq_panic hsignature, verifyTransactionSequence_ne_panic,
    verifyIfLocktimeIsReasonableTxVersionAndOutputSize_eq_panic, reconstructTransaction_ne_panic hsignature,
    Unique.exists_iff, PUnit.default_eq_unit, and_false, or_false, false_or]

variable {statechainInfo : StatechainInfoResponsePayload} {tx0Hex : String}
  {height initlock interval : UInt32}

/-- What one turn of the loop cannot handle: a transaction with a row that trips the checks or, with overflow checks,
one that passes them with a lock time above the one before. -/
def TripsOverTurn (btc : Bitcoin) (secp : Secp E K) (statechainInfo : StatechainInfoResponsePayload)
    (tx0Hex : String) (height : UInt32) (tolerance feeRate : F)
    (initlock : UInt32) (previousLockTime : Option UInt32) (backupTx : BackupTx) : Prop :=
  (∃ row, statechainInfo.statechainInfo.find? (fun info => info.txN == backupTx.txN) = some row ∧
    TripsOverBackupTx btc secp tx0Hex height tolerance feeRate initlock
      backupTx row) ∨
  Checked btc secp statechainInfo tx0Hex height tolerance feeRate initlock
      backupTx ∧
    ∃ lockTime, getBlockheight btc backupTx = .ok lockTime ∧ build.overflowChecks = true ∧
      previousLockTime.any (· < lockTime) = true

theorem loop_cons_eq_panic {backupTx : BackupTx} {rest : List BackupTx} {previousLockTime : Option UInt32} :
    signatureSchemeLoop btc secp statechainInfo tx0Hex height tolerance feeRate
        initlock interval (backupTx :: rest) previousLockTime = .error .panic ↔
      TripsOverTurn btc secp statechainInfo tx0Hex height tolerance feeRate
        initlock previousLockTime backupTx ∨
      Checked btc secp statechainInfo tx0Hex height tolerance feeRate
          initlock backupTx ∧
        ∃ lockTime, getBlockheight btc backupTx = .ok lockTime ∧
          overflow (previousLockTime.any (· < lockTime) = true) = .ok () ∧
          isIntervalCorrect interval previousLockTime lockTime = true ∧
          signatureSchemeLoop btc secp statechainInfo tx0Hex height tolerance
            feeRate initlock interval rest (some lockTime) = .error .panic := by
  rw [signatureSchemeLoop, TripsOverTurn, Checked, or_assoc]
  cases hrow : statechainInfo.statechainInfo.find? (fun info => info.txN == backupTx.txN) with
  | none => simp
  | some row =>
    simp only [bind_eq_error, handled_eq_panic, verifyBackupTx_eq_panic, Option.some.injEq, exists_eq_left']
    refine or_congr_right ?_
    rw [← and_or_left]
    constructor
    · rintro ⟨checked, hchecked, hrest⟩
      cases checked with
      | none => cases hrest
      | some _ =>
        refine ⟨handled_eq_some.mp hchecked, ?_⟩
        obtain hheight | ⟨lockTime, hlockTime, hrest⟩ := bind_eq_error.mp hrest
        · exact absurd hheight getBlockheight_ne_panic
        · obtain hoverflow | ⟨_, hfits, hrest⟩ := bind_eq_error.mp hrest
          · exact .inl ⟨lockTime, hlockTime, overflow_eq_panic.mp hoverflow⟩
          · split_ifs at hrest with hcorrect
            exact .inr ⟨lockTime, hlockTime, hfits, hcorrect, hrest⟩
    · rintro ⟨hchecked, ⟨lockTime, hlockTime, hoverflow⟩ | ⟨lockTime, hlockTime, hfits, hcorrect, hrest⟩⟩
      · refine ⟨some (), handled_eq_some.mpr hchecked, ?_⟩
        rw [hlockTime, ok_bind, overflow_eq_panic.mpr hoverflow]
        rfl
      · refine ⟨some (), handled_eq_some.mpr hchecked, ?_⟩
        rw [hlockTime, ok_bind, hfits, ok_bind, if_pos hcorrect]
        exact hrest

/-- Some transaction of the group trips the checks, which those before it pass. -/
def TripsOverGroup (btc : Bitcoin) (secp : Secp E K) (statechainInfo : StatechainInfoResponsePayload)
    (tx0Hex : String) (height : UInt32) (tolerance feeRate : F)
    (initlock interval : UInt32) (previousLockTime : Option UInt32) (group : List BackupTx) : Prop :=
  ∃ before backupTx after passed, group = before ++ backupTx :: after ∧
    signatureSchemeLoop btc secp statechainInfo tx0Hex height tolerance feeRate
      initlock interval before previousLockTime = .ok (some passed) ∧
    TripsOverTurn btc secp statechainInfo tx0Hex height tolerance feeRate
      initlock passed backupTx

theorem signatureSchemeLoop_eq_panic {group : List BackupTx} {previousLockTime : Option UInt32} :
    signatureSchemeLoop btc secp statechainInfo tx0Hex height tolerance feeRate
        initlock interval group previousLockTime = .error .panic ↔
      TripsOverGroup btc secp statechainInfo tx0Hex height tolerance feeRate
        initlock interval previousLockTime group := by
  induction group generalizing previousLockTime with
  | nil =>
    constructor
    · intro h
      cases h
    · rintro ⟨before, _, _, _, h, -⟩
      cases before <;> cases h
  | cons backupTx group ih =>
    rw [loop_cons_eq_panic]
    constructor
    · rintro (hturn | ⟨hchecked, lockTime, hlockTime, hfits, hcorrect, hrest⟩)
      · exact ⟨[], backupTx, group, previousLockTime, rfl, rfl, hturn⟩
      · obtain ⟨before, next, after, passed, rfl, hbefore, hnext⟩ := ih.mp hrest
        exact ⟨backupTx :: before, next, after, passed, rfl,
          loop_cons_eq_ok.mpr ⟨hchecked, lockTime, hlockTime, hfits, hcorrect, hbefore⟩, hnext⟩
    · rintro ⟨before, next, after, passed, hgroup, hbefore, hnext⟩
      cases before with
      | nil =>
        obtain ⟨rfl, rfl⟩ := List.cons.inj hgroup
        cases Option.some.inj (Except.ok.inj hbefore)
        exact .inl hnext
      | cons first before =>
        obtain ⟨rfl, rfl⟩ := List.cons.inj hgroup
        obtain ⟨hchecked, lockTime, hlockTime, hfits, hcorrect, hbefore⟩ := loop_cons_eq_ok.mp hbefore
        exact .inr ⟨hchecked, lockTime, hlockTime, hfits, hcorrect,
          ih.mpr ⟨before, next, after, passed, rfl, hbefore, hnext⟩⟩

theorem validateSignatureScheme_eq_panic {group : List BackupTx} :
    (validateSignatureScheme btc secp statechainInfo tx0Hex height tolerance
        feeRate initlock interval group).mapError signatureSchemeFailure = .error .panic ↔
      TripsOverGroup btc secp statechainInfo tx0Hex height tolerance feeRate
        initlock interval none group := by
  have hmap : ∀ x : Res UInt32, x.mapError signatureSchemeFailure = .error .panic ↔ x = .error .panic := by
    intro x
    cases x with
    | ok a => exact iff_of_false nofun nofun
    | error f => cases f <;> simp [Except.mapError, signatureSchemeFailure]
  rw [hmap, validateSignatureScheme, bind_eq_error, signatureSchemeLoop_eq_panic]
  refine or_iff_left ?_
  rintro ⟨passed, -, h⟩
  cases passed with
  | none => cases h
  | some previousLockTime => exact orErr_ne_panic h

end Signature

end Panics

section Hostile

variable [build : Build] [Add F] [Sub F] [Div F] [NatCast F] [LT F] [DecidableLT F] (env : Env E K F) (coin : Coin)
  (network : String) (infoConfig : InfoConfig F) (blockheight : UInt32) (transferMsg : TransferMsg)

/-- What has been read and checked of a group before its key is. -/
structure Reaches (index : ℕ) (group : List BackupTx) (tx0Outpoint : OutPoint) (tx0Hex : String)
    (info : StatechainInfoResponsePayload) : Prop where
  outpoint : getTx0Outpoint env.btc group = .ok tx0Outpoint
  tx0 : TransferReceiver.getTx0 env tx0Outpoint.txid = .ok tx0Hex
  signature : index = 0 →
    verifyTransferSignature env.btc env.secp coin.userPubkey tx0Outpoint transferMsg = .ok true
  info : env.getStatechainInfo transferMsg.statechainId = .ok (some info)

/-- The checks of the whole message that come before the funding output is looked up. -/
structure Proceeds (info : StatechainInfoResponsePayload) : Prop where
  payment : verifyLatestBackupTxPaysToUserPubkey env.btc env.secp transferMsg coin.userPubkey network = .ok true
  numSigs : info.numSigs = transferMsg.backupTransactions.length.toUInt32

def Unspent (tx0Outpoint : OutPoint) (tx0Hex : String) : Prop :=
  ∃ status, TransferReceiver.verifyTx0OutputIsUnspentAndConfirmed env tx0Outpoint tx0Hex network = .ok (true, status)

/-- What `verify_tx0_output_is_unspent_and_confirmed` cannot handle with overflow checks: a funding output that is
listed above the tip. -/
def TripsOverConfirmations (tx0Outpoint : OutPoint) (tx0Hex : String) : Prop :=
  ∃ address net script listed blockheight unspent,
    getOutputAddressFromTx0 env.btc tx0Outpoint tx0Hex network = .ok address ∧ getNetwork network = .ok net ∧
    env.btc.scriptOfAddress address net = some script ∧ env.electrum.scriptListUnspent script = .ok listed ∧
    env.electrum.blockHeadersSubscribeRaw = .ok blockheight ∧
    listed.find? (fun unspent => unspent.txHash == tx0Outpoint.txid && unspent.txPos.toUInt32 == tx0Outpoint.vout) =
      some unspent ∧ build.overflowChecks = true ∧
    (blockheight < unspent.height ∨ 2 ^ 64 ≤ blockheight.toNat - unspent.height.toNat + 1)

def Accepts (index : ℕ) (group : List BackupTx) : Prop :=
  ∃ tx0Outpoint tx0Hex info lockTime, Reaches env coin transferMsg index group tx0Outpoint tx0Hex info ∧
    validateTx0OutputPubkey env.btc env.secp info.enclavePublicKey transferMsg tx0Outpoint tx0Hex network = .ok true ∧
    Proceeds env coin network transferMsg info ∧ Unspent env network tx0Outpoint tx0Hex ∧
    validateSignatureScheme env.btc env.secp info tx0Hex blockheight env.clientConfig.feeRateTolerance
      (currentFeeRateSatsPerByte env infoConfig) infoConfig.initlock infoConfig.interval group = .ok lockTime

/-- The checks from the key on come upon something that they cannot handle. -/
def TripsPast (group : List BackupTx) (tx0Outpoint : OutPoint) (tx0Hex : String)
    (info : StatechainInfoResponsePayload) : Prop :=
  TripsOverKey env.btc env.secp info.enclavePublicKey transferMsg.userPublicKey tx0Outpoint.vout tx0Hex network ∨
    validateTx0OutputPubkey env.btc env.secp info.enclavePublicKey transferMsg tx0Outpoint tx0Hex network = .ok true ∧
      (TripsOverPayment env.btc env.secp transferMsg.backupTransactions coin.userPubkey network ∨
        Proceeds env coin network transferMsg info ∧
          (TripsOverConfirmations env network tx0Outpoint tx0Hex ∨ Unspent env network tx0Outpoint tx0Hex ∧
            TripsOverGroup env.btc env.secp info tx0Hex blockheight env.clientConfig.feeRateTolerance
              (currentFeeRateSatsPerByte env infoConfig) infoConfig.initlock infoConfig.interval none group))

/-- The group comes, past checks that it passes, upon something that they cannot handle. -/
def Trips (index : ℕ) (group : List BackupTx) : Prop :=
  ∃ tx0Outpoint tx0Hex info, Reaches env coin transferMsg index group tx0Outpoint tx0Hex info ∧
    TripsPast env coin network infoConfig blockheight transferMsg group tx0Outpoint tx0Hex info

/-- The message cannot be read, one of its transactions has not the right shape, or a group of them trips
the checks that those before it pass. -/
def Hostile (encMessage : String) : Prop :=
  Garbled env.secp env.ecies encMessage coin.authPrivkey ∨
    ∃ transferMsg, decryptTransferMsg env.secp env.ecies encMessage coin.authPrivkey = .ok transferMsg ∧
      ((∃ backupTx ∈ transferMsg.backupTransactions, Misshapen env.btc backupTx.tx) ∨
        ∃ groups before group after, splitBackupTransactions env.btc transferMsg.backupTransactions = .ok groups ∧
          groups.zipIdx = before ++ group :: after ∧
          (∀ earlier ∈ before, Accepts env coin network infoConfig blockheight transferMsg earlier.2 earlier.1) ∧
          Trips env coin network infoConfig blockheight transferMsg group.2 group.1)

variable {env coin network infoConfig blockheight transferMsg}

theorem validateGroup_eq_ok_iff {index : ℕ} {group : List BackupTx} :
    TransferReceiver.validateGroup env coin network infoConfig blockheight transferMsg index group = .ok () ↔
      Accepts env coin network infoConfig blockheight transferMsg index group := by
  rw [TransferReceiver.validateGroup_eq_ok]
  constructor
  · rintro ⟨tx0Outpoint, tx0Hex, info, status, lockTime, houtpoint, htx0, hsignature, hinfo, hkey, hpayment, hnum,
      hunspent, hscheme⟩
    exact ⟨tx0Outpoint, tx0Hex, info, lockTime, ⟨houtpoint, htx0, hsignature, hinfo⟩, hkey,
      ⟨hpayment, hnum⟩, ⟨status, hunspent⟩, hscheme⟩
  · rintro ⟨tx0Outpoint, tx0Hex, info, lockTime, hreach, hkey, ⟨hpayment, hnum⟩, ⟨status, hunspent⟩, hscheme⟩
    exact ⟨tx0Outpoint, tx0Hex, info, status, lockTime, hreach.outpoint, hreach.tx0, hreach.signature, hreach.info,
      hkey, hpayment, hnum, hunspent, hscheme⟩

omit [Build] [Add F] [Sub F] [Div F] [NatCast F] [LT F] [DecidableLT F] in
theorem getTx0_ne_panic {tx0Txid : String} : TransferReceiver.getTx0 env tx0Txid ≠ .error .panic := by
  simp only [TransferReceiver.getTx0, ne_eq, bind_eq_error, orThrow_eq_error, anyhow_ne_panic, reduceCtorEq, and_false,
    exists_false, or_false, not_false_iff]

omit [Build] [Add F] [Sub F] [Div F] [NatCast F] [LT F] [DecidableLT F] in
theorem verifyTransferSignature_ne_panic {tx0Outpoint : OutPoint} :
    verifyTransferSignature env.btc env.secp coin.userPubkey tx0Outpoint transferMsg ≠ .error .panic := by
  simp only [verifyTransferSignature, publicKeyFromStr, ne_eq, bind_eq_error, orErr_ne_panic, pure_ne_panic, and_false,
    exists_false, or_false, not_false_iff]

omit [Add F] [Sub F] [Div F] [NatCast F] [LT F] [DecidableLT F] in
theorem verifyTx0Output_eq_panic {tx0Outpoint : OutPoint} {tx0Hex : String} {info : StatechainInfoResponsePayload}
    (h : validateTx0OutputPubkey env.btc env.secp info.enclavePublicKey transferMsg tx0Outpoint tx0Hex network =
      .ok true) :
    TransferReceiver.verifyTx0OutputIsUnspentAndConfirmed env tx0Outpoint tx0Hex network = .error .panic ↔
      TripsOverConfirmations env network tx0Outpoint tx0Hex := by
  obtain ⟨_, _, _, _, _, _, tx0Output, -, -, -, -, -, -, houtput, -⟩ := (validateTx0OutputPubkey_eq_true _ _).mp h
  have haddress : getOutputAddressFromTx0 env.btc tx0Outpoint tx0Hex network ≠ .error .panic := by
    simp only [getOutputAddressFromTx0, ne_eq, bind_eq_error, getNetwork_ne_panic, houtput, orErr_ne_panic,
      reduceCtorEq, and_false, exists_false, or_false, not_false_iff]
  simp only [TransferReceiver.verifyTx0OutputIsUnspentAndConfirmed, bind_eq_error, haddress, getNetwork_ne_panic,
    orThrow_eq_error, orThrow_eq_ok, anyhow_ne_panic, anyhow_eq_ok, reduceCtorEq, and_false, false_or]
  constructor
  · rintro ⟨address, haddress, net, hnet, script, hscript, listed, hlisted, blockheight, hblockheight, hpanic⟩
    cases hunspent : listed.find? (fun unspent => unspent.txHash == tx0Outpoint.txid &&
        unspent.txPos.toUInt32 == tx0Outpoint.vout) with
    | none =>
      rw [hunspent] at hpanic
      cases hpanic
    | some unspent =>
      rw [hunspent] at hpanic
      obtain hoverflow | ⟨_, -, hpanic⟩ := bind_eq_error.mp hpanic
      · exact ⟨address, net, script, listed, blockheight, unspent, haddress, hnet, hscript, hlisted, hblockheight,
          hunspent, overflow_eq_panic.mp hoverflow⟩
      · cases hpanic
  · rintro ⟨address, net, script, listed, blockheight, unspent, haddress, hnet, hscript, hlisted, hblockheight,
      hunspent, hoverflow⟩
    refine ⟨address, haddress, net, hnet, script, hscript, listed, hlisted, blockheight, hblockheight, ?_⟩
    rw [hunspent]
    exact bind_eq_error.mpr (.inl (overflow_eq_panic.mpr hoverflow))

omit [Build] [Add F] [Sub F] [Div F] [NatCast F] [LT F] [DecidableLT F] in
theorem exists_eq_true_iff {x : Res Bool} {P : Prop} :
    (∃ b, x = .ok b ∧ ∃ _ : Unit, ¬b = false ∧ P) ↔ x = .ok true ∧ P := by
  constructor
  · rintro ⟨b, hx, -, hb, hP⟩
    cases b with
    | true => exact ⟨hx, hP⟩
    | false => exact absurd rfl hb
  · rintro ⟨hx, hP⟩
    exact ⟨true, hx, (), by decide, hP⟩

omit [Add F] [Sub F] [Div F] [NatCast F] [LT F] [DecidableLT F] in
/-- The checks between the key and the transactions, as the code makes them. -/
theorem payment_or_proceeds_iff {tx0Outpoint : OutPoint} {tx0Hex : String} {info : StatechainInfoResponsePayload}
    {P Q : Prop} :
    validateTx0OutputPubkey env.btc env.secp info.enclavePublicKey transferMsg tx0Outpoint tx0Hex network =
        .ok true ∧
      (Q ∨ verifyLatestBackupTxPaysToUserPubkey env.btc env.secp transferMsg coin.userPubkey network = .ok true ∧
        ∃ _ : Unit, ¬info.numSigs ≠ transferMsg.backupTransactions.length.toUInt32 ∧
          (TransferReceiver.verifyTx0OutputIsUnspentAndConfirmed env tx0Outpoint tx0Hex network = .error .panic ∨
            ∃ unspent, TransferReceiver.verifyTx0OutputIsUnspentAndConfirmed env tx0Outpoint tx0Hex network =
              .ok unspent ∧ ∃ _ : Unit, ¬unspent.1 = false ∧ P)) ↔
    validateTx0OutputPubkey env.btc env.secp info.enclavePublicKey transferMsg tx0Outpoint tx0Hex network =
        .ok true ∧
      (Q ∨ Proceeds env coin network transferMsg info ∧
        (TripsOverConfirmations env network tx0Outpoint tx0Hex ∨ Unspent env network tx0Outpoint tx0Hex ∧ P)) := by
  refine and_congr_right (fun hkey => or_congr_right ?_)
  rw [verifyTx0Output_eq_panic hkey]
  constructor
  · rintro ⟨hpayment, -, hnum, hpanic | ⟨⟨isUnspent, status⟩, hunspent, -, htrue, hP⟩⟩
    · exact ⟨⟨hpayment, not_not.mp hnum⟩, .inl hpanic⟩
    · rw [Bool.not_eq_false] at htrue
      dsimp only at htrue
      subst htrue
      exact ⟨⟨hpayment, not_not.mp hnum⟩, .inr ⟨⟨status, hunspent⟩, hP⟩⟩
  · rintro ⟨⟨hpayment, hnum⟩, hpanic | ⟨⟨status, hunspent⟩, hP⟩⟩
    · exact ⟨hpayment, (), not_not.mpr hnum, .inl hpanic⟩
    · exact ⟨hpayment, (), not_not.mpr hnum, .inr ⟨_, hunspent, (), by simp, hP⟩⟩

theorem validateGroup_eq_panic {index : ℕ} {group : List BackupTx}
    (houtpoint : getTx0Outpoint env.btc group ≠ .error .panic)
    (hinfo : env.getStatechainInfo transferMsg.statechainId ≠ .error .panic) :
    TransferReceiver.validateGroup env coin network infoConfig blockheight transferMsg index group = .error .panic ↔
      Trips env coin network infoConfig blockheight transferMsg index group := by
  trans ∃ tx0Outpoint, getTx0Outpoint env.btc group = .ok tx0Outpoint ∧
    ∃ tx0Hex, TransferReceiver.getTx0 env tx0Outpoint.txid = .ok tx0Hex ∧
      (index = 0 → verifyTransferSignature env.btc env.secp coin.userPubkey tx0Outpoint transferMsg = .ok true) ∧
      ∃ found, env.getStatechainInfo transferMsg.statechainId = .ok found ∧ ∃ info, found = some info ∧
        TripsPast env coin network infoConfig blockheight transferMsg group tx0Outpoint tx0Hex info
  · by_cases hi : index = 0
    · simp only [TransferReceiver.validateGroup, TripsPast, hi, if_true, bind_eq_error, houtpoint, getTx0_ne_panic,
        hinfo, verifyTransferSignature_ne_panic, throwIf_eq_error, throwIf_eq_ok, orThrow_eq_error, orThrow_eq_ok,
        validateTx0OutputPubkey_eq_panic, verifyLatestBackupTxPaysToUserPubkey_eq_panic,
        validateSignatureScheme_eq_panic, pure_ne_panic, reduceCtorEq, and_false, exists_false, or_false, false_or,
        exists_eq_true_iff, payment_or_proceeds_iff, forall_const]
    · simp only [TransferReceiver.validateGroup, TripsPast, hi, if_false, bind_eq_error, houtpoint, getTx0_ne_panic,
        hinfo, throwIf_eq_error, throwIf_eq_ok, orThrow_eq_error, orThrow_eq_ok,
        validateTx0OutputPubkey_eq_panic, verifyLatestBackupTxPaysToUserPubkey_eq_panic,
        validateSignatureScheme_eq_panic, pure_ne_panic, reduceCtorEq, and_false, exists_false, or_false, false_or,
        exists_eq_true_iff, payment_or_proceeds_iff, false_imp_iff, true_and]
  · constructor
    · rintro ⟨tx0Outpoint, houtpoint, tx0Hex, htx0, hsignature, found, hinfo, info, rfl, htrips⟩
      exact ⟨tx0Outpoint, tx0Hex, info, ⟨houtpoint, htx0, hsignature, hinfo⟩, htrips⟩
    · rintro ⟨tx0Outpoint, tx0Hex, info, hreach, htrips⟩
      exact ⟨tx0Outpoint, hreach.outpoint, tx0Hex, hreach.tx0, hreach.signature, some info, hreach.info, info, rfl,
        htrips⟩

omit build in
theorem getTx0Outpoint_ne_panic {btc : Bitcoin} {txs group : List BackupTx} {groups : List (List BackupTx)}
    (h : splitBackupTransactions btc txs = .ok groups) (hgroup : group ∈ groups) :
    getTx0Outpoint btc group ≠ .error .panic := by
  obtain ⟨outpointOf, houtpoint⟩ := TransferReceiver.exists_outpointOf h
  rw [TransferReceiver.splitBackupTransactions_eq houtpoint] at h
  cases Except.ok.inj h
  intro hpanic
  obtain hnone | ⟨bkpTx1, hhead, hpanic⟩ := bind_eq_error.mp hpanic
  · exact orErr_ne_panic hnone
  · have hmem : bkpTx1 ∈ group := (sortByTxN_perm group).mem_iff.mp (List.mem_of_head? (orErr_eq_ok.mp hhead))
    rw [houtpoint bkpTx1 (TransferReceiver.mem_of_mem_group hgroup hmem)] at hpanic
    cases hpanic

theorem validateEncryptedMessage_eq_panic {encMessage : String}
    (hinfo : ∀ statechainId, env.getStatechainInfo statechainId ≠ .error .panic) :
    TransferReceiver.validateEncryptedMessage env coin encMessage network infoConfig blockheight = .error .panic ↔
      Hostile env coin network infoConfig blockheight encMessage := by
  rw [TransferReceiver.validateEncryptedMessage, bind_eq_error, decryptTransferMsg_eq_panic, Hostile]
  refine or_congr_right (exists_congr fun transferMsg => and_congr_right fun _ => ?_)
  rw [bind_eq_error, splitBackupTransactions_eq_panic]
  refine or_congr_right (exists_congr fun groups => ?_)
  simp only [forM_eq_error, exists_and_left]
  refine and_congr_right (fun hsplit => ?_)
  refine exists_congr fun before => exists_congr fun group => exists_congr fun after => and_congr_right fun hgroups => ?_
  have hmem : group.1 ∈ groups := by
    have hzip : group ∈ groups.zipIdx := by rw [hgroups]; simp
    exact (List.mem_zipIdx' hzip).2 ▸ List.getElem_mem _
  rw [validateGroup_eq_panic (getTx0Outpoint_ne_panic hsplit hmem) (hinfo _)]
  exact and_congr_left fun _ => forall_congr' fun earlier => imp_congr_right fun _ => validateGroup_eq_ok_iff

end Hostile

section Receiving

open Client.Receive (Gathered receiveMessages)

variable {kit : Kit E K F} {oracle : Oracle F} {wallets : Wallets}

theorem comes_attempt {α : Type} {p : Operation F α} {r : Res α} (h : Comes handle wallets oracle p r) :
    Comes handle wallets oracle (attempt p) (handled r) := by
  rw [Comes, attempt, ExceptT.run_mk, exec_bind, h]
  rfl

theorem statechainInfoOf_ne_panic (statechainId : String) : statechainInfoOf oracle statechainId ≠ .error .panic := by
  intro hpanic
  obtain hanyhow | ⟨response, -, hpanic⟩ := bind_eq_error.mp hpanic
  · generalize (oracle.answer (.statechainInfo statechainId) : Response) = reply at hanyhow
    cases reply <;> cases hanyhow
  · split_ifs at hpanic
    · cases hpanic
    · split at hpanic <;> cases hpanic

/-- The coin that a message for the key is validated with. -/
def MeantFor (wallet : Wallet) (gathered : Gathered) (authPubkey : String) (coin : Coin) : Prop :=
  let used := gathered.tempCoins.zipIdx.find? (fun coin =>
    coin.1.authPubkey == authPubkey && coin.1.status == .initialised)
  (∃ place, used = some (coin, place)) ∨ used = none ∧ duplicateCoinToInitializedState wallet authPubkey = .ok coin

variable [Build] [Add F] [Sub F] [Div F] [NatCast F] [LT F] [DecidableLT F] [DecidableEq E]

variable {wallet : Wallet} {infoConfig : InfoConfig F} {blockheight : UInt32} {gathered : Gathered}
  {authPubkey encMessage : String} {coin : Coin}

/-- A message that is not accepted changes nothing of what has been gathered. -/
theorem comes_receiveMessage (hcoin : MeantFor wallet gathered authPubkey coin) {f : Failure}
    (h : TransferReceiver.validateEncryptedMessage (envOf kit oracle) coin encMessage wallet.network infoConfig
      blockheight = .error f) :
    Comes handle wallets oracle
      (Receive.receiveMessage kit wallet infoConfig blockheight gathered authPubkey encMessage)
      (handled (.error f : Res Unit) >>= fun _ => .ok gathered) := by
  have hvalidate : Comes handle wallets oracle
      (attempt (Receive.validateEncryptedMessage kit coin encMessage wallet.network infoConfig blockheight))
      (handled (.error f)) := by
    rw [← h]
    exact comes_attempt (comes_validateEncryptedMessage coin encMessage wallet.network infoConfig blockheight)
  have hrefused : ∀ r, handled (.error f : Res Unit) = .ok r → r = none := by
    intro r hr
    cases r with
    | none => rfl
    | some u => cases handled_eq_some.mp hr
  have hwith : ∀ keep, Comes handle wallets oracle
      (Receive.receiveWith kit wallet infoConfig blockheight gathered coin encMessage keep)
      (handled (.error f : Res Unit) >>= fun _ => .ok gathered) := by
    refine fun keep => comes_bind hvalidate (fun r hr => ?_)
    cases hrefused r hr
    exact comes_pure
  unfold Receive.receiveMessage
  obtain ⟨place, hused⟩ | ⟨hused, hnew⟩ := hcoin
  · rw [hused]
    exact hwith _
  · rw [hused, hnew]
    exact hwith _

/-- Validation does not panic exactly when the message is not hostile. A hostile one ends the whole
receipt, without anything being saved; any other one that is refused is left out. -/
theorem harmless_iff_not_hostile (kit : Kit E K F) (oracle : Oracle F) (wallets : Wallets) (wallet : Wallet)
    (infoConfig : InfoConfig F) (blockheight : UInt32) (gathered : Gathered) (authPubkey encMessage : String)
    (coin : Coin) (hcoin : MeantFor wallet gathered authPubkey coin) :
    ((exec handle (Receive.validateEncryptedMessage kit coin encMessage wallet.network infoConfig blockheight).run
        (fun _ => oracle) wallets).1 ≠ some (.error .panic) ↔
      ¬Hostile (envOf kit oracle) coin wallet.network infoConfig blockheight encMessage) ∧
    ∀ messages,
      (Hostile (envOf kit oracle) coin wallet.network infoConfig blockheight encMessage →
        exec handle (receiveMessages kit wallet infoConfig blockheight ((authPubkey, encMessage) :: messages)
          gathered).run (fun _ => oracle) wallets = (some (.error .panic), wallets)) ∧
      (¬Hostile (envOf kit oracle) coin wallet.network infoConfig blockheight encMessage →
        (exec handle (Receive.validateEncryptedMessage kit coin encMessage wallet.network infoConfig blockheight).run
          (fun _ => oracle) wallets).1 ≠ some (.ok ()) →
        exec handle (receiveMessages kit wallet infoConfig blockheight ((authPubkey, encMessage) :: messages)
            gathered).run (fun _ => oracle) wallets =
          exec handle (receiveMessages kit wallet infoConfig blockheight messages gathered).run (fun _ => oracle)
            wallets) := by
  have hvalidate : exec handle (Receive.validateEncryptedMessage kit coin encMessage wallet.network infoConfig
      blockheight).run (fun _ => oracle) wallets = _ :=
    comes_validateEncryptedMessage coin encMessage wallet.network infoConfig blockheight
  have hpanic : TransferReceiver.validateEncryptedMessage (envOf kit oracle) coin encMessage wallet.network infoConfig
      blockheight = .error .panic ↔ Hostile (envOf kit oracle) coin wallet.network infoConfig blockheight encMessage :=
    validateEncryptedMessage_eq_panic statechainInfoOf_ne_panic
  rw [hvalidate]
  refine ⟨?_, fun messages => ⟨fun hhostile => ?_, fun hharmless hrefused => ?_⟩⟩
  · rw [← hpanic, ne_eq, Option.some.injEq]
  · exact exec_bind_of_comes_error _ (comes_receiveMessage hcoin (hpanic.mpr hhostile))
  · cases hresult : TransferReceiver.validateEncryptedMessage (envOf kit oracle) coin encMessage wallet.network
        infoConfig blockheight with
    | ok u => exact absurd (congrArg some hresult) hrefused
    | error f =>
      have hmessage : Comes handle wallets oracle _ _ := comes_receiveMessage hcoin hresult
      cases f with
      | panic => exact absurd (hpanic.mp hresult) hharmless
      | mercury e => exact exec_bind_of_comes_ok _ hmessage
      | anyhow text => exact exec_bind_of_comes_ok _ hmessage

end Receiving

section Seven

open Client.LocktimeGuard Client.Withdraw Musig.Session

/-- The kit that reads every text but one as hexadecimal, and none as an encryption. -/
def hostileKit : Kit (Point (ZMod 7)) (ZMod 7) ℕ :=
  { sevenKit with
    ecies :=
      { hexDecode := fun text => if text = "text" then none else some []
        decrypt := fun _ _ => none
        transferMsgFromJson := fun _ => none } }

def waitingCoin : Coin := { fundedCoin with authPrivkey := seven.wif.encode 3, authPubkey := "key", status := .initialised }

def delivering (messages : List String) : (c : Call ℕ) → Reply c
  | .getMsgAddr _ => (.ok messages : Except String (List String))
  | c => granting c

def waitingWallet : Wallet := ⟨"wallet", "regtest", [], [waitingCoin]⟩

/-- A text that is no hexadecimal number is left out. -/
theorem harmless_seven :
    MeantFor waitingWallet ⟨[waitingCoin], [], [], false, []⟩ "key" waitingCoin ∧
      ¬Hostile (envOf hostileKit ⟨.ok, delivering ["text"]⟩) waitingCoin "regtest" ⟨0, 0, 1⟩ 0 "text" := by
  have hcoin : MeantFor waitingWallet ⟨[waitingCoin], [], [], false, []⟩ "key" waitingCoin :=
    .inl ⟨0, by decide +kernel⟩
  have hresult : (exec handle (Receive.validateEncryptedMessage hostileKit waitingCoin "text" "regtest" ⟨0, 0, 1⟩
      0).run (fun _ => ⟨.ok, delivering ["text"]⟩) (walletsOf [waitingCoin])).1 ≠ some (.error .panic) := by
    decide +kernel
  exact ⟨hcoin, (harmless_iff_not_hostile hostileKit ⟨.ok, delivering ["text"]⟩ (walletsOf [waitingCoin]) waitingWallet
    ⟨0, 0, 1⟩ 0 ⟨[waitingCoin], [], [], false, []⟩ "key" "text" waitingCoin hcoin).1.mp hresult⟩

/-- Whether receiving the messages succeeds, whether it panics, and whether the wallet is saved. -/
def receiptOf (messages : List String) : Bool × Bool × Bool :=
  let (result, _, calls) := exec (recording handle) (Receive.execute hostileKit "wallet").run
    (fun _ => ⟨.ok, delivering messages⟩) (walletsOf [waitingCoin], [])
  (result.any Except.isOk, match result with
    | some (.error .panic) => true
    | _ => false,
    calls.any (fun c => match c with
      | .sending (.updateWallet _) => true
      | _ => false))

/-- A text that is no encryption ends the receipt of the other messages. -/
theorem receipt_aborted_seven :
    (exec handle (Receive.validateEncryptedMessage hostileKit waitingCoin "00" "regtest" ⟨0, 0, 1⟩ 0).run
        (fun _ => ⟨.ok, delivering ["00", "text"]⟩) (walletsOf [waitingCoin])).1 = some (.error .panic) ∧
      receiptOf ["text"] = (true, false, true) ∧ receiptOf ["00", "text"] = (false, true, false) := by
  decide +kernel

end Seven

end MercuryLayer.Client.HostileMessage
