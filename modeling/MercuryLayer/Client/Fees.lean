import MercuryLayer.Client.LocktimeGuard
import MercuryLayer.CpfpTx

namespace MercuryLayer.Client.Fees

open Client.LocktimeGuard Client.Transaction Crates Error Library.Validation Library.XOnlyCurve Musig.Cosign
open Musig.Session Receiver Sender MercuryLayer.Transaction WalletData CpfpTx

section Words

theorem toInt_toInt64 (a : UInt64) : a.toInt64.toInt = (a.toNat : ℤ).bmod (2 ^ 64) :=
  BitVec.toInt_eq_toNat_bmod a.toBitVec

theorem toInt_sub_toInt64 (a f : UInt64) :
    (a.toInt64 - f.toInt64).toInt = ((a.toNat : ℤ) - f.toNat).bmod (2 ^ 64) := by
  rw [Int64.toInt_sub, toInt_toInt64, toInt_toInt64, Int.bmod_sub_bmod, Int.sub_bmod_bmod]

theorem toNat_toUInt64 {x : Int64} (h : 0 ≤ x.toInt) : (x.toUInt64.toNat : ℤ) = x.toInt := by
  have hx : x.toInt = if 2 * x.toBitVec.toNat < 2 ^ 64 then (x.toBitVec.toNat : ℤ)
      else (x.toBitVec.toNat : ℤ) - (2 ^ 64 : ℕ) := BitVec.toInt_eq_toNat_cond x.toBitVec
  have hlt : x.toBitVec.toNat < 2 ^ 64 := x.toBitVec.isLt
  change ((x.toBitVec.toNat : ℕ) : ℤ) = x.toInt
  rw [hx] at h ⊢
  split_ifs at h ⊢
  · rfl
  · omega

/-- The difference of the casts is negative exactly where the words are half the range apart in the
wrong direction. -/
theorem sub_toInt64_neg_iff (a f : UInt64) :
    a.toInt64 - f.toInt64 < 0 ↔
      (a.toNat < f.toNat ∧ f.toNat ≤ a.toNat + 2 ^ 63) ∨ f.toNat + 2 ^ 63 ≤ a.toNat := by
  have ha := a.toNat_lt
  have hf := f.toNat_lt
  rw [Int64.lt_iff_toInt_lt, toInt_sub_toInt64, Int64.toInt_zero, Int.bmod_def]
  split_ifs <;> omega

theorem toNat_sub_toInt64 {a f : UInt64} (h : ¬a.toInt64 - f.toInt64 < 0) (hf : f.toNat ≤ a.toNat + 2 ^ 63) :
    (a.toInt64 - f.toInt64).toUInt64.toNat + f.toNat = a.toNat := by
  have ha' := a.toNat_lt
  have hf' := f.toNat_lt
  have hrange := h
  rw [sub_toInt64_neg_iff] at hrange
  rw [Int64.lt_iff_toInt_lt, Int64.toInt_zero, not_lt] at h
  have hvalue := toNat_toUInt64 h
  rw [toInt_sub_toInt64, Int.bmod_def] at hvalue
  split_ifs at hvalue <;> omega

theorem toNat_sub_add {a f : UInt64} (h : f.toNat ≤ a.toNat) : (a - f).toNat + f.toNat = a.toNat := by
  rw [UInt64.toNat_sub_of_le _ _ (UInt64.le_iff_toNat_le.mpr h)]
  omega

end Words

/-- An error that the caller can handle. -/
def Refuses {α : Type} (r : Res α) : Prop := ∃ failure, r = .error failure ∧ failure ≠ .panic

/-- What goes in comes out, but for the fee. -/
def PaysRest (btc : Bitcoin) (input fee : UInt64) (text : String) : Prop :=
  ∃ tx out, btc.deserialize text = .ok tx ∧ tx.output = [out] ∧ out.value.toNat + fee.toNat = input.toNat

variable {E K F : Type} [Mul F] [NatCast F]

section Backup

variable (secp : Secp E K) (musig : Musig E K) (btc : Bitcoin) (envelope : Envelope E) (isAddress : String → Bool)

/-- The script of the recipient of a backup transaction or a withdrawal. -/
def recipientScript (toAddress : String) (network : Network) : Res Bytes :=
  if isTransferAddress toAddress then do
    let (_, recipientUserPubkey, _) ← envelope.decodeTransferAddress toAddress
    p2trScript secp (secp.xOnly recipientUserPubkey)
  else do
    throwIf (isAddress toAddress = false) .panic
    orErr .bitcoinAddressError (btc.scriptOfAddress toAddress network)

/-- The output, and with it every transaction built and signed for it, keeps the value; a fee above
the input is refused. -/
def BackupConserves (coin : Coin) (amount : UInt32) (fee : UInt64) (rate : F) (toAddress network : String)
    (net : Network) : Prop :=
  (∀ out, createTxOut secp btc envelope isAddress (fun _ => fee) coin rate toAddress net = .ok out →
    out.value.toNat + fee.toNat = amount.toNat) ∧
  (∀ blockHeight initlock interval qtBackupTx withdrawal msg signatureHex signed,
    getPartialSigRequest secp musig btc envelope isAddress (fun _ => fee) coin blockHeight initlock interval rate
      qtBackupTx toAddress network withdrawal = .ok msg →
    newBackupTransaction secp btc msg.encodedUnsignedTx signatureHex = .ok signed →
    PaysRest btc amount.toUInt64 fee signed) ∧
  (amount.toNat < fee.toNat →
    Refuses (createTxOut secp btc envelope isAddress (fun _ => fee) coin rate toAddress net))

variable {secp musig btc envelope isAddress} {coin : Coin} {amount : UInt32} {fee : UInt64} {rate : F}
  {toAddress network : String} {net : Network}

theorem createTxOut_eq (hamount : coin.amount = some amount) :
    createTxOut secp btc envelope isAddress (fun _ => fee) coin rate toAddress net = do
      let script ← recipientScript secp btc envelope isAddress toAddress net
      return ⟨amount.toUInt64 - fee, script⟩ := by
  simp only [createTxOut, hamount, unwrap_some, ok_bind, recipientScript]
  split_ifs <;> simp only [bind_assoc]

theorem output_of_signed (hcodec : ∀ tx, tx.input ≠ [] → btc.deserialize (btc.serialize tx) = .ok tx)
    {blockHeight : UInt32} {output : TxOut} {msg : PartialSignatureMsg1} {signatureHex signed : String}
    (hmsg : getMusigSession secp musig btc coin blockHeight output net = .ok msg)
    (hsigned : newBackupTransaction secp btc msg.encodedUnsignedTx signatureHex = .ok signed) :
    ∃ tx, btc.deserialize signed = .ok tx ∧ tx.output = [output] := by
  simp only [getMusigSession, bind_eq_ok] at hmsg
  obtain ⟨_, -, _, -, _, -, txid, -, _, -, vout, -, _, -, _, -, _, -, _, -, hsession⟩ := hmsg
  have hread := hcodec (unsignedTx ⟨txid, vout⟩ blockHeight output) (List.cons_ne_nil _ _)
  rw [(request_of_calculateMusigSession hsession).1] at hsigned
  simp only [newBackupTransaction, hread, question_ok, ok_bind, bind_eq_ok, pure_eq_ok] at hsigned
  obtain ⟨_, -, _, -, _, -, signature, -, rfl⟩ := hsigned
  exact ⟨_, hcodec _ (List.cons_ne_nil _ _), rfl⟩

theorem backupConserves_iff (hcodec : ∀ tx, tx.input ≠ [] → btc.deserialize (btc.serialize tx) = .ok tx)
    (hamount : coin.amount = some amount) (hnet : getNetwork network = .ok net) :
    BackupConserves secp musig btc envelope isAddress coin amount fee rate toAddress network net ↔
      fee.toNat ≤ amount.toNat ∨ Refuses (recipientScript secp btc envelope isAddress toAddress net) := by
  have heq : createTxOut secp btc envelope isAddress (fun _ => fee) coin rate toAddress net = _ :=
    createTxOut_eq hamount
  constructor
  · rintro ⟨-, -, hrefuses⟩
    by_cases hfee : fee.toNat ≤ amount.toNat
    · exact .inl hfee
    · obtain ⟨failure, herror, hfailure⟩ := hrefuses (not_le.mp hfee)
      rw [heq, bind_eq_error] at herror
      obtain hscript | ⟨_, -, hpure⟩ := herror
      · exact .inr ⟨failure, hscript, hfailure⟩
      · cases hpure
  · intro hcondition
    have hout : ∀ out, createTxOut secp btc envelope isAddress (fun _ => fee) coin rate toAddress net = .ok out →
        out.value.toNat + fee.toNat = amount.toUInt64.toNat := by
      intro out hout
      rw [heq] at hout
      simp only [bind_eq_ok, pure_eq_ok] at hout
      obtain ⟨script, hscript, rfl⟩ := hout
      obtain hfee | ⟨failure, hfailure, -⟩ := hcondition
      · exact toNat_sub_add hfee
      · cases hscript.symm.trans hfailure
    refine ⟨hout, ?_, fun hfee => ?_⟩
    · intro blockHeight initlock interval qtBackupTx withdrawal msg signatureHex signed hmsg hsigned
      simp only [getPartialSigRequest, hnet, ok_bind, bind_eq_ok] at hmsg
      obtain ⟨out, hcreate, hsession⟩ := hmsg
      obtain ⟨tx, htx, houtput⟩ := output_of_signed hcodec hsession hsigned
      exact ⟨tx, out, htx, houtput, hout out hcreate⟩
    · obtain hle | ⟨failure, hfailure, hpanic⟩ := hcondition
      · exact absurd hfee (not_lt.mpr hle)
      · refine ⟨failure, ?_, hpanic⟩
        rw [heq, hfailure, error_bind]

end Backup

section Cpfp

variable (btc : Bitcoin) (secp : Secp E K) (psbt : Psbt K)

/-- The child keeps the value of the output it spends; a fee above it is refused. -/
def CpfpConserves (backupTx : BackupTx) (coin : Coin) (input fee : UInt64) (rate : F) (toAddress network : String) :
    Prop :=
  (∀ text, createCpfpTx btc (fun _ => fee) (createTransaction btc secp psbt) backupTx coin toAddress rate network =
    .ok text → PaysRest btc input fee text) ∧
  (input.toNat < fee.toNat → Refuses (createCpfpTx btc (fun _ => fee) (createTransaction btc secp psbt) backupTx coin
    toAddress rate network))

/-- What has to be readable for a child to be signed. -/
def signer (coin : Coin) : Res K := do
  let _ ← publicKeyFromStr secp coin.userPubkey
  throwIf (psbt.isFingerprint coin.fingerprint = false) .panic
  throwIf (psbt.isDerivationPath coin.derivationPath = false) .panic
  orErr .keyError (secp.privateKeyFromWif coin.userPrivkey)

/-- The checks on everything but the fee, in their order. -/
def checkInputs (output : TxOut) (coin : Coin) (toAddress network : String) : Res (Network × Bytes × Bytes × K) := do
  let network ← getNetwork network
  let backupScript ← orErr .bitcoinAddressError (btc.scriptOfAddress coin.backupAddress network)
  throwIf (backupScript ≠ output.scriptPubkey) (.mercury .backupTransactionDoesNotPayUser)
  let toScript ← orErr .bitcoinAddressError (btc.scriptOfAddress toAddress network)
  let key ← signer secp psbt coin
  return (network, backupScript, toScript, key)

variable {btc secp psbt} {backupTx : BackupTx} {coin : Coin} {tx : Crates.Transaction} {output : TxOut}
  {fee : UInt64} {rate : F} {toAddress network : String}

theorem createTransaction_eq (hsighash : ∀ tx prevouts, tx.input.length = 1 → prevouts.length = 1 →
      (btc.sighash tx prevouts).isSome) (inputTxHash : String) (coin : Coin) (inputAmount : UInt64)
    (outputs : List TxOut) {net : Network} {script : Bytes}
    (hscript : btc.scriptOfAddress coin.backupAddress net = some script) :
    ∃ hash, createTransaction btc secp psbt inputTxHash coin inputAmount outputs net = do
      let key ← signer secp psbt coin
      return childTx inputTxHash [psbt.signTapTweaked hash key] outputs := by
  obtain ⟨hash, hhash⟩ := Option.isSome_iff_exists.mp (hsighash (childTx inputTxHash [] outputs)
    [{ value := inputAmount, scriptPubkey := script }] rfl rfl)
  refine ⟨hash, ?_⟩
  simp only [createTransaction, signer, hscript, orErr_some, ok_bind, hhash, bind_assoc]

section Steps

variable (hsighash : ∀ tx prevouts, tx.input.length = 1 → prevouts.length = 1 → (btc.sighash tx prevouts).isSome)
  (htx : btc.deserialize backupTx.tx = .ok tx) (houtput : tx.output = [output])

include hsighash htx houtput

theorem createCpfpTx_of_error (fee : UInt64) (rate : F) {failure : Failure}
    (hcheck : checkInputs btc secp psbt output coin toAddress network = .error failure) :
    createCpfpTx btc (fun _ => fee) (createTransaction btc secp psbt) backupTx coin toAddress rate network =
      .error failure := by
  have hlength : throwIf (tx.output.length ≠ 1) (Failure.mercury .unkownNetwork) = .ok () := by
    rw [throwIf_eq_ok, houtput]
    exact fun h => h rfl
  have hfirst : unwrap tx.output[0]? = .ok output := by
    rw [houtput]
    rfl
  simp only [checkInputs, bind_eq_error] at hcheck
  obtain hnet | ⟨net, hnet, hscript | ⟨script, hscript, hpays | ⟨_, hpays, hto | ⟨toScript, hto,
    hkey | ⟨key, -, hpure⟩⟩⟩⟩⟩ := hcheck
  · simp only [createCpfpTx, hnet, error_bind]
  · simp only [createCpfpTx, hnet, htx, question_ok, ok_bind, hlength, hfirst, hscript, error_bind]
  · simp only [createCpfpTx, hnet, htx, question_ok, ok_bind, hlength, hfirst, hscript, hpays, error_bind]
  · simp only [createCpfpTx, hnet, htx, question_ok, ok_bind, hlength, hfirst, hscript, hpays, hto, error_bind]
  · obtain ⟨hash, hcreate⟩ := createTransaction_eq hsighash (btc.txid tx) coin output.value
      [{ value := output.value, scriptPubkey := toScript }] (orErr_eq_ok.mp hscript)
    rw [hkey, error_bind] at hcreate
    simp only [createCpfpTx, hnet, htx, question_ok, ok_bind, hlength, hfirst, hscript, hpays, hto, hcreate,
      error_bind]
  · cases hpure

/-- Once everything else is in order, the fee decides. -/
theorem createCpfpTx_of_ok (fee : UInt64) (rate : F) {checked : Network × Bytes × Bytes × K}
    (hcheck : checkInputs btc secp psbt output coin toAddress network = .ok checked) :
    ∃ child, child.input ≠ [] ∧
      child.output = [⟨(output.value.toInt64 - fee.toInt64).toUInt64, checked.2.2.1⟩] ∧
      createCpfpTx btc (fun _ => fee) (createTransaction btc secp psbt) backupTx coin toAddress rate network = do
        throwIf (output.value.toInt64 - fee.toInt64 < 0) (.mercury .feeTooHigh)
        return btc.serialize child := by
  simp only [checkInputs, bind_eq_ok, orErr_eq_ok, throwIf_eq_ok, pure_eq_ok] at hcheck
  obtain ⟨net, hnet, script, hscript, _, hpays, toScript, hto, key, hkey, rfl⟩ := hcheck
  obtain ⟨hash, hfirst⟩ := createTransaction_eq hsighash (btc.txid tx) coin output.value
    [{ value := output.value, scriptPubkey := toScript }] hscript
  obtain ⟨hash', hsecond⟩ := createTransaction_eq hsighash (btc.txid tx) coin output.value
    [{ value := (output.value.toInt64 - fee.toInt64).toUInt64, scriptPubkey := toScript }] hscript
  rw [hkey, ok_bind] at hfirst hsecond
  refine ⟨childTx (btc.txid tx) [psbt.signTapTweaked hash' key]
    [{ value := (output.value.toInt64 - fee.toInt64).toUInt64, scriptPubkey := toScript }],
    List.cons_ne_nil _ _, rfl, ?_⟩
  simp only [createCpfpTx, htx, question_ok, ok_bind, houtput, List.length_singleton, ne_eq, not_true_eq_false,
    throwIf, if_false, List.getElem?_cons_zero, unwrap_some, hnet, hscript, orErr_some, if_neg hpays, hto, hfirst,
    hsecond]
  rfl

theorem cpfpConserves_iff (hcodec : ∀ tx, tx.input ≠ [] → btc.deserialize (btc.serialize tx) = .ok tx) :
    CpfpConserves btc secp psbt backupTx coin output.value fee rate toAddress network ↔
      fee.toNat ≤ output.value.toNat ∨ Refuses (checkInputs btc secp psbt output coin toAddress network) ∨
        (fee.toNat ≤ output.value.toNat + 2 ^ 63 ∧
          ∃ checked, checkInputs btc secp psbt output coin toAddress network = .ok checked) := by
  cases hcheck : checkInputs btc secp psbt output coin toAddress network with
  | error failure =>
    have hcpfp := createCpfpTx_of_error hsighash htx houtput fee rate hcheck
    constructor
    · rintro ⟨-, hrefuses⟩
      by_cases hfee : fee.toNat ≤ output.value.toNat
      · exact .inl hfee
      · obtain ⟨_, herror, hpanic⟩ := hrefuses (not_le.mp hfee)
        cases hcpfp.symm.trans herror
        exact .inr (.inl ⟨failure, rfl, hpanic⟩)
    · intro hcondition
      refine ⟨fun text htext => absurd (hcpfp.symm.trans htext) (by simp), fun hfee => ?_⟩
      obtain hle | ⟨_, herror, hpanic⟩ | ⟨-, _, hok⟩ := hcondition
      · exact absurd hfee (not_lt.mpr hle)
      · cases herror
        exact ⟨failure, hcpfp, hpanic⟩
      · cases hok
  | ok checked =>
    obtain ⟨child, hinput, hchild, hcpfp⟩ := createCpfpTx_of_ok hsighash htx houtput fee rate hcheck
    have hrange := sub_toInt64_neg_iff output.value fee
    by_cases hneg : output.value.toInt64 - fee.toInt64 < 0
    · rw [throwIf, if_pos hneg, error_bind] at hcpfp
      have hcondition : fee.toNat ≤ output.value.toNat + 2 ^ 63 := by
        obtain ⟨-, h⟩ | h := hrange.mp hneg
        · exact h
        · omega
      refine iff_of_true ⟨fun text htext => absurd (hcpfp.symm.trans htext) (by simp), fun _ => ?_⟩
        (.inr (.inr ⟨hcondition, checked, rfl⟩))
      exact ⟨_, hcpfp, by simp⟩
    · rw [throwIf, if_neg hneg, ok_bind] at hcpfp
      constructor
      · rintro ⟨-, hrefuses⟩
        by_cases hfee : fee.toNat ≤ output.value.toNat
        · exact .inl hfee
        · obtain ⟨_, herror, -⟩ := hrefuses (not_le.mp hfee)
          cases hcpfp.symm.trans herror
      · intro hcondition
        have hle : fee.toNat ≤ output.value.toNat + 2 ^ 63 := by
          obtain hle | ⟨_, herror, -⟩ | ⟨hle, -⟩ := hcondition
          · omega
          · cases herror
          · exact hle
        have hsum := toNat_sub_toInt64 hneg hle
        refine ⟨fun text htext => ?_, fun hfee => absurd hfee (by omega)⟩
        cases hcpfp.symm.trans htext
        exact ⟨child, _, hcodec child hinput, hchild, hsum⟩

end Steps

end Cpfp

section Fees

def sevenPsbt : Psbt (ZMod 7) where
  isFingerprint _ := true
  isDerivationPath _ := true
  signTapTweaked _ _ := []

/-- The backup transaction that keeps ten of a thousand satoshis for the fee. -/
def paidBack : BackupTx := { sentOnce with tx := wireBtc.serialize (unsignedTx ⟨"f", 0⟩ 1100 ⟨990, []⟩) }

end Fees

end MercuryLayer.Client.Fees
