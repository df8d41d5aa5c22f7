import MercuryLayer.Musig.Session
import MercuryLayer.Transaction

namespace MercuryLayer.BackupSpend

open Crates Error Library.Validation Library.XOnlyCurve Musig.Session Receiver MercuryLayer.Transaction WalletData

variable {E K F : Type} (btc : Bitcoin) (secp : Secp E K)

/-- The form in which the sender builds a backup transaction: one input, signed with a
64-byte signature and the byte of its hash type, one output, and a height to wait for. -/
structure SenderForm (tx : Crates.Transaction) : Prop where
  version : tx.version = 2
  input : ∃ outpoint signature, signature.length = 64 ∧
    tx.input = [{ previousOutput := outpoint, scriptSig := [], sequence := 0
                  witness := [signature ++ [sighashAll]] }]
  output : ∃ output, tx.output = [output]
  height : isBlockHeight tx.lockTime = true

/-- The consensus rules for a key spend of an output of `tx0` that signs all of the
transaction. What is left is to wait for the lock time. -/
structure SpendsFunding (tx0 tx : Crates.Transaction) : Prop where
  spends : ∃ input funding signature parsed key msg,
    tx.input = [input] ∧ input.previousOutput.txid = btc.txid tx0 ∧
    tx0.output[input.previousOutput.vout.toNat]? = some funding ∧
    input.scriptSig = [] ∧ input.witness = [signature ++ [sighashAll]] ∧
    funding.scriptPubkey.take 2 = [0x51, 0x20] ∧ secp.xOnlyFromSlice (funding.scriptPubkey.drop 2) = some key ∧
    secp.signatureFromSlice signature = some parsed ∧ btc.sighash tx [funding] = some msg ∧
    secp.verifySchnorr parsed msg key = true ∧ ∀ output ∈ tx.output, output.value ≤ funding.value

/-- The bytes that none of the checks on a transaction looks at. -/
def UncheckedBytes (tx0 tx : Crates.Transaction) : Prop :=
  ∀ input ∈ tx.input, input.scriptSig = [] ∧ input.witness.length = 1 ∧
    (∀ data ∈ input.witness, data.getLast? = some sighashAll) ∧ input.previousOutput.txid = btc.txid tx0 ∧
    ∀ funding, tx0.output[input.previousOutput.vout.toNat]? = some funding →
      funding.scriptPubkey.take 2 = [0x51, 0x20] ∧ ∀ output ∈ tx.output, output.value ≤ funding.value

section Checks

variable [Add F] [Sub F] [Div F] [NatCast F] [LT F] [DecidableLT F]
variable {btc secp} {tx0Hex txNHex : String} {tx0 tx : Crates.Transaction} {feeRateTolerance currentFeeRate : F}

theorem verifyTransactionSignature_eq_ok (htx : btc.deserialize txNHex = .ok tx)
    (htx0 : btc.deserialize tx0Hex = .ok tx0)
    (h : verifyTransactionSignature btc secp txNHex tx0Hex feeRateTolerance currentFeeRate = .ok ()) :
    ∃ input data parsed funding key msg output, tx.input[0]? = some input ∧ input.witness[0]? = some data ∧
      secp.signatureFromSlice data.dropLast = some parsed ∧
      tx0.output[input.previousOutput.vout.toNat]? = some funding ∧
      secp.xOnlyFromSlice (funding.scriptPubkey.drop 2) = some key ∧ btc.sighash tx [funding] = some msg ∧
      tx.output[0]? = some output ∧ secp.verifySchnorr parsed msg key = true := by
  simp only [verifyTransactionSignature, txOutput, htx, htx0, question_ok, ok_bind, bind_eq_ok, unwrap_eq_ok,
    xOnlyOfScript_eq_ok, throwIf_eq_ok, Bool.not_eq_false] at h
  obtain ⟨input, hinput, data, hdata, signatureData, hsplit, parsed, hparsed, funding, hfunding, key, ⟨-, hkey⟩,
    msg, hmsg, output, houtput, -, -, -, -, -, -, hverified⟩ := h
  split_ifs at hsplit
  rw [Option.some.injEq] at hsplit
  subst hsplit
  exact ⟨input, data, parsed, funding, key, msg, output, hinput, hdata, hparsed, hfunding, hkey, hmsg,
    houtput, hverified⟩

theorem verifyTransactionSequence_eq_ok (htx : btc.deserialize txNHex = .ok tx)
    (h : verifyTransactionSequence btc txNHex = .ok ()) : ∃ input, tx.input = [input] ∧ input.sequence = 0 := by
  simp only [verifyTransactionSequence, htx, question_ok, ok_bind, bind_eq_ok, unwrap_eq_ok, throwIf_eq_ok,
    not_not] at h
  obtain ⟨-, hne, -, hlen, input, hhead, hseq⟩ := h
  cases hinput : tx.input with
  | nil => exact absurd hinput hne
  | cons first rest =>
    rw [hinput] at hlen hhead
    cases rest with
    | nil =>
      rw [List.head?_cons, Option.some.injEq] at hhead
      exact ⟨first, rfl, hhead ▸ hseq⟩
    | cons second rest => exact absurd (by simp) hlen

theorem verifyLocktime_eq_ok {currentBlockheight lockheightInit : UInt32} (htx : btc.deserialize txNHex = .ok tx)
    (h : verifyIfLocktimeIsReasonableTxVersionAndOutputSize btc txNHex currentBlockheight lockheightInit = .ok ()) :
    tx.version = 2 ∧ tx.output.length ≤ 1 ∧ isBlockHeight tx.lockTime = true := by
  simp only [verifyIfLocktimeIsReasonableTxVersionAndOutputSize, htx, question_ok, ok_bind, bind_eq_ok,
    throwIf_eq_ok, not_not, Bool.not_eq_false] at h
  obtain ⟨-, hversion, -, houtput, -, hheight, -, -, -⟩ := h
  exact ⟨hversion, Nat.le_of_not_lt houtput, hheight⟩

variable {currentBlockheight lockheightInit : UInt32} {backupTx : BackupTx} {row : StatechainInfo}

/-- What is left of a transaction once every check has passed: an input, an output and a
signature over them. -/
structure Seen (btc : Bitcoin) (secp : Secp E K) (tx0 tx : Crates.Transaction) (input : TxIn) (data : Bytes)
    (funding : TxOut) : Prop where
  version : tx.version = 2
  height : isBlockHeight tx.lockTime = true
  only : tx.input = [input]
  sequence : input.sequence = 0
  output : ∃ output, tx.output = [output]
  witness : input.witness[0]? = some data
  spent : tx0.output[input.previousOutput.vout.toNat]? = some funding
  signed : ∃ parsed key msg, secp.signatureFromSlice data.dropLast = some parsed ∧
    secp.xOnlyFromSlice (funding.scriptPubkey.drop 2) = some key ∧ btc.sighash tx [funding] = some msg ∧
    secp.verifySchnorr parsed msg key = true

theorem seen_of_verifyBackupTx (htx : btc.deserialize backupTx.tx = .ok tx)
    (htx0 : btc.deserialize tx0Hex = .ok tx0)
    (h : verifyBackupTx btc secp tx0Hex currentBlockheight feeRateTolerance currentFeeRate lockheightInit backupTx
      row = .ok ()) : ∃ input data funding, Seen btc secp tx0 tx input data funding := by
  simp only [verifyBackupTx, bind_eq_ok] at h
  obtain ⟨_, hsignature, _, -, _, hsequence, _, hlocktime, -⟩ := h
  obtain ⟨input, data, parsed, funding, key, msg, output, hinput, hwitness, hparsed, hfunding, hkey, hmsg,
    houtput, hverified⟩ := verifyTransactionSignature_eq_ok htx htx0 hsignature
  obtain ⟨single, hsingle, hseq⟩ := verifyTransactionSequence_eq_ok htx hsequence
  obtain ⟨hversion, hlen, hheight⟩ := verifyLocktime_eq_ok htx hlocktime
  have hsame : single = input := by
    rw [hsingle] at hinput
    exact Option.some.inj hinput
  subst hsame
  refine ⟨single, data, funding, hversion, hheight, hsingle, hseq, ⟨output, ?_⟩, hwitness, hfunding,
    parsed, key, msg, hparsed, hkey, hmsg, hverified⟩
  cases hout : tx.output with
  | nil =>
    rw [hout] at houtput
    cases houtput
  | cons first rest =>
    rw [hout] at houtput hlen
    obtain rfl : rest = [] := List.length_eq_zero_iff.mp (by simpa using hlen)
    rw [← Option.some.inj houtput]

variable {input : TxIn} {data : Bytes} {funding : TxOut}

theorem uncheckedBytes_of_form (hform : SenderForm tx) (hspends : SpendsFunding btc secp tx0 tx) : UncheckedBytes btc tx0 tx := by
  obtain ⟨outpoint, signature, -, hinput⟩ := hform.input
  obtain ⟨_, funding', _, _, _, _, hinput', htxid, hfunding, -, -, hscript, -, -, -, -, hvalues⟩ := hspends.spends
  intro input' hmem
  rw [hinput] at hmem hinput'
  rw [List.mem_singleton] at hmem
  subst hmem
  rw [List.singleton_inj] at hinput'
  subst hinput'
  refine ⟨rfl, rfl, ?_, htxid, ?_⟩
  · intro data hdata
    rw [List.mem_singleton.mp hdata, List.getLast?_append]
    rfl
  · intro other hother
    rw [Option.some.inj (hother.symm.trans hfunding)]
    exact ⟨hscript, hvalues⟩

/-- With one element in the witness, the signature checked is all of it but for its last byte. -/
theorem witness_of_uncheckedBytes (h : Seen btc secp tx0 tx input data funding) (hlen : input.witness.length = 1)
    (hlast : ∀ data ∈ input.witness, data.getLast? = some sighashAll) :
    input.witness = [data.dropLast ++ [sighashAll]] := by
  obtain ⟨only, hwitness⟩ := List.length_eq_one_iff.mp hlen
  have hdata := h.witness
  rw [hwitness] at hdata
  have hsame : only = data := Option.some.inj hdata
  subst hsame
  have hl := hlast only (by rw [hwitness]; exact List.mem_singleton_self only)
  rw [hwitness, List.dropLast_append_getLast? sighashAll hl]

theorem form_of_uncheckedBytes (hlength : ∀ bytes parsed, secp.signatureFromSlice bytes = some parsed → bytes.length = 64)
    (h : Seen btc secp tx0 tx input data funding) (hrest : UncheckedBytes btc tx0 tx) :
    SenderForm tx ∧ SpendsFunding btc secp tx0 tx := by
  obtain ⟨hscriptSig, hlen, hlast, htxid, hfunding⟩ := hrest input (by rw [h.only]; exact List.mem_singleton_self input)
  obtain ⟨parsed, key, msg, hparsed, hkey, hmsg, hverified⟩ := h.signed
  obtain ⟨hscript, hvalues⟩ := hfunding funding h.spent
  have hwitness := witness_of_uncheckedBytes h hlen hlast
  refine ⟨⟨h.version, ⟨input.previousOutput, data.dropLast, hlength _ _ hparsed, ?_⟩, h.output, h.height⟩,
    ⟨input, funding, data.dropLast, parsed, key, msg, h.only, htxid, h.spent, hscriptSig, hwitness, hscript, hkey,
      hparsed, hmsg, hverified, hvalues⟩⟩
  rw [h.only, ← hwitness, ← h.sequence, ← hscriptSig]

end Checks

section Built

variable {btc secp} {encodedUnsignedTx signatureHex txHex : String} {outpoint : OutPoint} {lockTime : UInt32}
  {output : TxOut}

/-- A transaction that the library signs has the sender's form, when its codec reads back what
it wrote and a signature in hex is 64 bytes long. -/
theorem senderForm_of_newBackupTransaction (hcodec : ∀ tx, tx.input ≠ [] → btc.deserialize (btc.serialize tx) = .ok tx)
    (hlength : ∀ text parsed bytes, secp.signatureFromStr text = some parsed → Hex.decode text = some bytes →
      bytes.length = 64)
    (hunsigned : encodedUnsignedTx = btc.serialize (unsignedTx outpoint lockTime output))
    (hheight : isBlockHeight lockTime = true)
    (h : newBackupTransaction secp btc encodedUnsignedTx signatureHex = .ok txHex) :
    ∃ tx, btc.deserialize txHex = .ok tx ∧ SenderForm tx ∧ tx.lockTime = lockTime ∧ tx.output = [output] ∧
      tx.input.map TxIn.previousOutput = [outpoint] := by
  subst hunsigned
  have hread := hcodec (unsignedTx outpoint lockTime output) (List.cons_ne_nil _ _)
  simp only [newBackupTransaction, hread, question_ok, ok_bind, bind_eq_ok, orErr_eq_ok, unwrap_eq_ok,
    pure_eq_ok] at h
  obtain ⟨_, -, _, -, parsed, hparsed, signature, hsignature, rfl⟩ := h
  refine ⟨signTx (unsignedTx outpoint lockTime output) signature, hcodec _ (List.cons_ne_nil _ _), ?_, rfl, rfl, rfl⟩
  exact ⟨rfl, ⟨outpoint, signature, hlength _ _ _ hparsed hsignature, rfl⟩, ⟨output, rfl⟩, hheight⟩

end Built

section Stray

/-- The curve of order seven, with signatures of 64 bytes. -/
def sevenSecp : Secp (Point (ZMod 7)) (ZMod 7) :=
  { seven.secp with
    signatureFromSlice := fun bytes =>
      if bytes.length = 64 then some ⟨(bytes.take 32).drop 31, bytes.drop 32⟩ else none }

theorem sevenSecp_signature_length (bytes : Bytes) (parsed : Signature)
    (h : sevenSecp.signatureFromSlice bytes = some parsed) : bytes.length = 64 := by
  simp only [sevenSecp] at h
  split_ifs at h with hlen
  exact hlen

def strayFunding : Crates.Transaction :=
  { version := 2, lockTime := 0, input := [], output := [{ value := 1000, scriptPubkey := [0x51, 0x20, 3] }] }

/-- A signed backup transaction, with a script, a hash type and further witness elements put
in after the signature was made. -/
def strayTx (scriptSig : Bytes) (hashType : UInt8) (further : List Bytes) : Crates.Transaction :=
  { version := 2
    lockTime := 100
    input := [{ previousOutput := ⟨"tx0", 0⟩, scriptSig := scriptSig, sequence := 0
                witness := (b32 2 ++ b32 6 ++ [hashType]) :: further }]
    output := [{ value := 1000, scriptPubkey := [] }] }

/-- The hash leaves out the script and the witness, as the taproot rules say. -/
def strayBtc (tx : Crates.Transaction) : Bitcoin where
  deserialize text := if text = "tx0" then .ok strayFunding else .ok tx
  serialize tx' := if tx' = tx then "backup" else ""
  txid _ := "tx0"
  txidFromStr _ := some []
  vsize _ := 1
  sighash tx _ := some [tx.lockTime.toUInt8]
  addressToStr _ _ := ""
  addressFromScript _ _ := none
  scriptOfAddress _ _ := none

def strayRow : StatechainInfo :=
  { statechainId := "statechain", serverPubnonce := "", challenge := seven.secp.secretHex 3, txN := 1 }

def point (P : ZMod 7) (h : P ≠ 0) : Point (ZMod 7) := ⟨P, h⟩

def strayBackupTx : BackupTx :=
  { txN := 1
    tx := "backup"
    clientPublicNonce := seven.nonceText (point 2 two_ne_zero_seven, point 6 six_ne_zero_seven)
    serverPublicNonce := seven.nonceText (point 1 one_ne_zero_seven, point 1 one_ne_zero_seven)
    clientPublicKey := seven.secp.publicKeyToStr (point 1 one_ne_zero_seven)
    serverPublicKey := seven.secp.publicKeyToStr (point 1 one_ne_zero_seven)
    blindingFactor := seven.secp.secretHex 5 }

variable (scriptSig : Bytes) (hashType : UInt8) (further : List Bytes)

theorem stray_session :
    recomputeSession (strayBtc (strayTx scriptSig hashType further)) sevenSecp strayBackupTx "tx0" =
      .ok (point 3 (by decide), ⟨false, [3], 1, 3, 4⟩) := by
  have hnonce : sevenSecp.pubNonceFromStr = seven.secp.pubNonceFromStr := rfl
  have hkey : sevenSecp.publicKeyFromStr = seven.secp.publicKeyFromStr := rfl
  have hfactor : sevenSecp.blindingFactorFromStr = seven.secp.blindingFactorFromStr := rfl
  have hclient : sevenSecp.pubNonceFromStr strayBackupTx.clientPublicNonce =
      .ok (point 2 (by decide), point 6 (by decide)) := by
    rw [hnonce]
    exact seven.pubNonceFromStr_nonceText _
  have hserver : sevenSecp.pubNonceFromStr strayBackupTx.serverPublicNonce =
      .ok (point 1 (by decide), point 1 (by decide)) := by
    rw [hnonce]
    exact seven.pubNonceFromStr_nonceText _
  have hclientKey : sevenSecp.publicKeyFromStr strayBackupTx.clientPublicKey = some (point 1 (by decide)) := by
    rw [hkey]
    exact seven.publicKeyFromStr_toStr _
  have hserverKey : sevenSecp.publicKeyFromStr strayBackupTx.serverPublicKey = some (point 1 (by decide)) := by
    rw [hkey]
    exact seven.publicKeyFromStr_toStr _
  have hblinding : sevenSecp.blindingFactorFromStr strayBackupTx.blindingFactor = .ok 5 := by
    rw [hfactor]
    exact seven.blindingFactorFromStr_secretHex 5
  have hsession : sevenSecp.newBlindedSession (point 3 (by decide))
      [(point 2 (by decide), point 6 (by decide)), (point 1 (by decide), point 1 (by decide))] [100] 5 1 =
      some ⟨false, [3], 1, 3, 4⟩ := by decide +kernel
  exact (recomputeSession_eq_ok _ sevenSecp).mpr
    ⟨_, _, _, _, 5, point 2 (by decide), 1, false, 1, strayFunding, strayTx scriptSig hashType further, [100],
      hclient, hserver, hclientKey, hserverKey, hblinding, rfl, rfl, rfl, rfl, rfl, rfl, hsession⟩

theorem stray_verifyBackupTx :
    verifyBackupTx (strayBtc (strayTx scriptSig hashType further)) sevenSecp "tx0" 0 (0 : ℕ) 0 1000 strayBackupTx
      strayRow = .ok () := by
  have hsignature : verifyTransactionSignature (strayBtc (strayTx scriptSig hashType further)) sevenSecp "backup"
      "tx0" (0 : ℕ) 0 = .ok () := by
    have hdrop : (b32 2 ++ b32 6 ++ [hashType]).dropLast = b32 2 ++ b32 6 := List.dropLast_concat
    have hparsed : sevenSecp.signatureFromSlice (b32 2 ++ b32 6) = some ⟨[2], b32 6⟩ := by decide +kernel
    have hkey : xOnlyOfScript sevenSecp [0x51, 0x20, 3] = .ok [3] := rfl
    have hverified : sevenSecp.verifySchnorr ⟨[2], b32 6⟩ [100] [3] = true := by decide +kernel
    simp [verifyTransactionSignature, strayBtc, strayTx, txOutput, strayFunding, hkey, -List.append_assoc, hdrop,
      hparsed, hverified]
  have hmusig : verifyBlindedMusigScheme (strayBtc (strayTx scriptSig hashType further)) sevenSecp strayBackupTx
      "tx0" strayRow = .ok () := by
    rw [verifyBlindedMusigScheme, stray_session]
    rfl
  have hsequence : verifyTransactionSequence (strayBtc (strayTx scriptSig hashType further)) "backup" = .ok () := rfl
  have hlocktime : verifyIfLocktimeIsReasonableTxVersionAndOutputSize
      (strayBtc (strayTx scriptSig hashType further)) "backup" 0 1000 = .ok () := rfl
  have hreconstruct : reconstructTransaction (strayBtc (strayTx scriptSig hashType further)) "backup" = .ok () := by
    simp [reconstructTransaction, strayBtc, strayTx]
  simp only [verifyBackupTx, strayBackupTx] at hmusig ⊢
  rw [hsignature, ok_bind, hmusig, ok_bind, hsequence, ok_bind, hlocktime, ok_bind, hreconstruct]

/-- A transaction that passes all the checks has the form of the sender's and spends the funding
output exactly when the bytes that no check looks at are as the sender writes them. -/
theorem accepted_backup_spends_iff [Add F] [Sub F] [Div F] [NatCast F] [LT F] [DecidableLT F]
    {btc : Bitcoin} {secp : Secp E K} {tx0Hex : String} {tx0 tx : Crates.Transaction}
    {feeRateTolerance currentFeeRate : F} {currentBlockheight lockheightInit : UInt32} {backupTx : BackupTx}
    {row : StatechainInfo}
    (hlength : ∀ bytes parsed, secp.signatureFromSlice bytes = some parsed → bytes.length = 64)
    (htx : btc.deserialize backupTx.tx = .ok tx) (htx0 : btc.deserialize tx0Hex = .ok tx0)
    (h : verifyBackupTx btc secp tx0Hex currentBlockheight feeRateTolerance currentFeeRate lockheightInit backupTx
      row = .ok ()) :
    SenderForm tx ∧ SpendsFunding btc secp tx0 tx ↔ UncheckedBytes btc tx0 tx := by
  obtain ⟨input, data, funding, hseen⟩ := seen_of_verifyBackupTx htx htx0 h
  constructor
  · rintro ⟨hform, hspends⟩
    exact uncheckedBytes_of_form hform hspends
  · exact form_of_uncheckedBytes hlength hseen

theorem accepted_backup_spends_seven :
    SenderForm (strayTx [] sighashAll []) ∧
      SpendsFunding (strayBtc (strayTx [] sighashAll [])) sevenSecp strayFunding (strayTx [] sighashAll []) := by
  refine (accepted_backup_spends_iff sevenSecp_signature_length rfl rfl
    (stray_verifyBackupTx [] sighashAll [])).mpr ?_
  unfold UncheckedBytes
  decide

/-- A script in the input, another hash type or a second element in the witness goes
unnoticed. -/
theorem stray_bytes_accepted :
    (verifyBackupTx (strayBtc (strayTx [0x51] sighashAll [])) sevenSecp "tx0" 0 (0 : ℕ) 0 1000 strayBackupTx
        strayRow = .ok () ∧ ¬SenderForm (strayTx [0x51] sighashAll [])) ∧
      (verifyBackupTx (strayBtc (strayTx [] 0x83 [])) sevenSecp "tx0" 0 (0 : ℕ) 0 1000 strayBackupTx
        strayRow = .ok () ∧ ¬SenderForm (strayTx [] 0x83 [])) ∧
      verifyBackupTx (strayBtc (strayTx [] sighashAll [[0]])) sevenSecp "tx0" 0 (0 : ℕ) 0 1000 strayBackupTx
        strayRow = .ok () ∧ ¬SenderForm (strayTx [] sighashAll [[0]]) := by
  refine ⟨⟨stray_verifyBackupTx _ _ _, ?_⟩, ⟨stray_verifyBackupTx _ _ _, ?_⟩, stray_verifyBackupTx _ _ _, ?_⟩
  · rintro ⟨-, ⟨outpoint, signature, -, hinput⟩, -, -⟩
    simp [strayTx] at hinput
  · rintro ⟨-, ⟨outpoint, signature, -, hinput⟩, -, -⟩
    have hlast := congrArg (List.map (fun input : TxIn => input.witness.map List.getLast?)) hinput
    simp [strayTx, sighashAll] at hlast
  · rintro ⟨-, ⟨outpoint, signature, -, hinput⟩, -, -⟩
    simp [strayTx] at hinput

end Stray

end MercuryLayer.BackupSpend
