import MercuryLayer.Lockbox.Signing
import MercuryLayer.Server.Effects
import MercuryLayer.Transaction

namespace MercuryLayer.Server.Sign

open Crates Library.Programs Library.XOnlyCurve Lockbox.Enclave Lockbox.KeyUpdate Lockbox.NonceUse Lockbox.Server
open Lockbox.Signing Musig.Session Server.Database Server.Effects Server.System Server.Transfer
open MercuryLayer.Transaction

structure SignFirstRequestPayload where
  statechainId : String
  signedStatechainId : String
deriving DecidableEq, Repr

def bodyField (name : String) : Body → Option String
  | .field name' value => if name' = name then some value else none
  | _ => none

def strip0x (text : String) : String :=
  match text.toList with
  | '0' :: 'x' :: rest => String.ofList rest
  | _ => text

def pubnonceAnswer (serverPubnonce : String) : Answer := ⟨200, .fields [("server_pubnonce", .text serverPubnonce)]⟩

section Endpoints

variable {n : ℕ} {E : Type} [AddCommGroup E]

/-- What becomes of the lockbox's reply. The nonce is stored without the leading `0x` and returned with it. -/
def relayNonce (statechainId : String) : HttpReply → Endpoint E Answer
  | .failed text => return internalError text
  | .unreadable => .abort
  | .body body => do
    let serverPubnonce ← Prog.unwrap (bodyField "server_pubnonce" body)
    (.call (.insertNewSignatureData (strip0x serverPubnonce) statechainId) Prog.unwrap : Endpoint E Unit)
    return pubnonceAnswer serverPubnonce

/-- The end of `sign_first`, for a statechain without a signature in progress. -/
def requestNonce (statechainId : String) (enclaveIndex : ℕ) : Endpoint E Answer :=
  .call (.lockbox enclaveIndex (.getPublicNonce statechainId)) (relayNonce statechainId)

def signFirst (secp : Secp (Point E) (ZMod n)) (payload : SignFirstRequestPayload) : Endpoint E Answer := do
  match ← getEnclaveIndexFromDatabase payload.statechainId with
  | none => return enclaveIndexNotFound payload.statechainId
  | some enclaveIndex =>
    (.call (.lockboxEndpoint enclaveIndex) Prog.unwrap : Endpoint E Unit)
    if ← validateSignature secp payload.signedStatechainId payload.statechainId then
      match ← (.call (.getServerPubnonceFromNullChallenge payload.statechainId) Prog.unwrap :
        Endpoint E (Option String)) with
      | some serverPubnonce => return pubnonceAnswer serverPubnonce
      | none => requestNonce payload.statechainId enclaveIndex
    else return signatureMismatch 401

def relaySignature : HttpReply → Endpoint E Answer
  | .failed text => return internalError text
  | .unreadable => .abort
  | .body body => do
    let partialSig ← Prog.unwrap (bodyField "partial_sig" body)
    return ⟨200, .fields [("partial_sig", .text partialSig)]⟩

/-- The end of `sign_second`. The lockbox gets the payload as it came. -/
def requestSignature (payload : PartialSignatureRequestPayload) (enclaveIndex : ℕ) : Endpoint E Answer :=
  .call (.lockbox enclaveIndex (.getPartialSignature payload.statechainId (Int64.ofNat payload.negateSeckey.toNat)
    payload.session)) relaySignature

variable [Module (ZMod n) E] [DecidableEq E]

/-- `get_challenge_from_session`, after the session has been read from its 133 bytes. -/
def challengeOfSession (params : Params n E) (session : String) : Option String := do
  let sessionBytes ← (Hex.decode session).filter (fun bytes => bytes.length = 133)
  let session ← params.sessionBytes.decode sessionBytes
  return params.secp.secretHex session.challenge

def signSecond (params : Params n E) (payload : PartialSignatureRequestPayload) : Endpoint E Answer := do
  match ← getEnclaveIndexFromDatabase payload.statechainId with
  | none => return enclaveIndexNotFound payload.statechainId
  | some enclaveIndex =>
    (.call (.lockboxEndpoint enclaveIndex) Prog.unwrap : Endpoint E Unit)
    if ← validateSignature params.secp payload.signedStatechainId payload.statechainId then
      let challenge ← Prog.unwrap (challengeOfSession params payload.session)
      (.call (.updateSignatureDataChallenge payload.serverPubNonce challenge payload.statechainId) Prog.unwrap :
        Endpoint E Unit)
      requestSignature payload enclaveIndex
    else return signatureMismatch 401

end Endpoints

section Rows

variable {P : Type} (db : Db P) {id id' serverPubnonce challenge : String}

variable (id) in
/-- The signatures of a statechain in the order in which they were started. -/
def signaturesOf : List SignatureData := db.signatures.filter (fun row => row.statechainId == id)

variable {db} in
theorem statechainId_of_mem {row : SignatureData} (h : row ∈ signaturesOf db id) : row.statechainId = id := by
  simpa using (List.mem_filter.mp h).2

theorem signaturesOf_insert : signaturesOf (db.insertNewSignatureData id serverPubnonce) id =
    signaturesOf db id ++ [⟨serverPubnonce, none, db.maxTxN id + 1, id⟩] := by
  simp [signaturesOf, Db.insertNewSignatureData]

theorem signaturesOf_insert_of_ne (h : id ≠ id') :
    signaturesOf (db.insertNewSignatureData id' serverPubnonce) id = signaturesOf db id := by
  simp [signaturesOf, Db.insertNewSignatureData, h.symm]

theorem setChallenge_statechainId (row : SignatureData) :
    (Db.setChallenge id serverPubnonce challenge row).statechainId = row.statechainId := by
  unfold Db.setChallenge
  split <;> rfl

theorem signaturesOf_update :
    signaturesOf (db.updateSignatureDataChallenge id' serverPubnonce challenge) id =
      (signaturesOf db id).map (Db.setChallenge id' serverPubnonce challenge) := by
  simp only [signaturesOf, Db.updateSignatureDataChallenge, List.filter_map]
  congr 1
  apply List.filter_congr
  intro row _
  rw [Function.comp_apply, setChallenge_statechainId]

theorem signaturesOf_update_of_ne (h : id ≠ id') :
    signaturesOf (db.updateSignatureDataChallenge id' serverPubnonce challenge) id = signaturesOf db id := by
  rw [signaturesOf_update]
  conv_rhs => rw [← List.map_id (signaturesOf db id)]
  apply List.map_congr_left
  intro row hrow
  rw [Db.setChallenge, if_neg, id_eq]
  rintro ⟨hid', -⟩
  exact h ((statechainId_of_mem hrow).symm.trans hid')

variable {db} in
theorem signaturesOf_updateStatechain [DecidableEq P] {db' : Db P} {authKey : Bytes} {serverPublicKey : P}
    (h : db.updateStatechain id' authKey serverPublicKey = some db') : signaturesOf db' id = signaturesOf db id := by
  simp only [Db.updateStatechain] at h
  split_ifs at h with hunique
  rw [← Option.some.inj h]
  rfl

theorem serverPubnonceFromNullChallenge_eq :
    db.serverPubnonceFromNullChallenge id =
      ((signaturesOf db id).find? (fun row => row.challenge.isNone)).map SignatureData.serverPubnonce := by
  rw [Db.serverPubnonceFromNullChallenge, signaturesOf, List.find?_filter]
  simp only [Bool.decide_and, Bool.decide_eq_true]

theorem challenge_of_none (h : db.serverPubnonceFromNullChallenge id = none) {row : SignatureData}
    (hrow : row ∈ signaturesOf db id) : row.challenge ≠ none := by
  rw [serverPubnonceFromNullChallenge_eq, Option.map_eq_none_iff] at h
  simpa using List.find?_eq_none.mp h row hrow

theorem mem_of_pending (h : db.serverPubnonceFromNullChallenge id = some serverPubnonce) :
    ∃ row ∈ signaturesOf db id, row.challenge = none ∧ row.serverPubnonce = serverPubnonce := by
  rw [serverPubnonceFromNullChallenge_eq] at h
  obtain ⟨row, hrow, rfl⟩ := Option.map_eq_some_iff.mp h
  exact ⟨row, List.mem_of_find?_eq_some hrow, by simpa using List.find?_some hrow, rfl⟩

theorem toNat_foldl_max (numbers : List UInt32) (a : UInt32) :
    (numbers.foldl max a).toNat = (numbers.map UInt32.toNat).foldl max a.toNat := by
  induction numbers generalizing a with
  | nil => rfl
  | cons number numbers ih =>
    have hmax : (max a number).toNat = max a.toNat number.toNat := by
      change (if a ≤ number then number else a).toNat = _
      rw [max_def]
      simp only [UInt32.le_iff_toNat_le]
      split_ifs <;> rfl
    rw [List.foldl_cons, ih, hmax, List.map_cons, List.foldl_cons]

theorem foldl_max_range (k : ℕ) : (List.range' 1 k).foldl max 0 = k := by
  induction k with
  | zero => rfl
  | succ k ih =>
    rw [List.range'_1_concat, List.foldl_append, ih, List.foldl_cons, List.foldl_nil]
    omega

variable {db} in
/-- As long as the signatures are numbered from one, the highest number is how many there are. -/
theorem toNat_maxTxN (h : (signaturesOf db id).map (fun row => row.txN.toNat) =
    List.range' 1 (signaturesOf db id).length) : (db.maxTxN id).toNat = (signaturesOf db id).length := by
  rw [Db.maxTxN, ← signaturesOf, toNat_foldl_max, List.map_map]
  exact (congrArg (List.foldl max 0) h).trans (foldl_max_range _)

end Rows

section Lockbox

variable {n : ℕ} {E : Type} [AddCommGroup E]

theorem strip0x_keyToString (bytes : Bytes) : strip0x (keyToString bytes) = Hex.encode bytes := by
  simp only [strip0x, keyToString, String.toList_ofList]
  rfl

theorem bodyField_of_namesField {name : String} {outcome : Lockbox.Server.Outcome} {body : Body}
    (h : namesField outcome = false) (hbody : httpReply .delivered outcome = .body body) :
    bodyField name body = none := by
  cases outcome with
  | answered response =>
    obtain ⟨code, text⟩ := response
    cases hbody
    cases text with
    | empty => rfl
    | text message => rfl
    | field name' value => cases h
  | stopped abort =>
    cases abort with
    | runtimeError text =>
      cases hbody
      rfl
    | assertFailed => cases hbody
    | nullPointer => cases hbody

/-- The row of the statechain in the lockbox with the given index. -/
def coinRow (w : World E) (index : ℕ) (id : String) : Option (Row E) :=
  (w.enclaves[index]?).bind (fun table => storedRow table id)

theorem coinRow_set {w : World E} {index : ℕ} {table table' : List (Row E)} {id : String}
    (h : w.enclaves[index]? = some table) :
    coinRow { w with enclaves := w.enclaves.set index table' } index id = storedRow table' id := by
  rw [coinRow, List.getElem?_set_self (List.getElem?_eq_some_iff.mp h).1, Option.bind_some]

theorem coinRow_set_of_same {w : World E} {index index' : ℕ} {table table' : List (Row E)} {id : String}
    (h : w.enclaves[index']? = some table) (hsame : storedRow table' id = storedRow table id) :
    coinRow { w with enclaves := w.enclaves.set index' table' } index id = coinRow w index id := by
  by_cases hindex : index' = index
  · subst hindex
    rw [coinRow_set h, hsame, coinRow, h, Option.bind_some]
  · rw [coinRow, List.getElem?_set_ne hindex, coinRow]

end Lockbox

end MercuryLayer.Server.Sign
