import MercuryLayer.Lockbox.KeyUpdate
import MercuryLayer.Lockbox.NonceUse

namespace MercuryLayer.Lockbox.Signing

open Crates Hex Library.XOnlyCurve Lockbox.Enclave Lockbox.KeyUpdate Lockbox.NonceUse Lockbox.Server Musig.Session

section Text

theorem isSpace_of_hexDigit {ch : Char} {d : UInt8} (h : hexDigit ch = some d) : isSpace ch = false := by
  by_contra hspace
  rw [Bool.not_eq_false] at hspace
  simp only [isSpace, Bool.or_eq_true, beq_iff_eq] at hspace
  have hnone : hexDigit ch = none := by
    obtain ((((rfl | rfl) | rfl) | rfl) | rfl) | rfl := hspace <;> decide
  rw [hnone] at h
  cases h

theorem parseHexChars_of_decodeChars {chars : List Char} {bytes : Bytes} (h : decodeChars chars = some bytes) :
    parseHexChars chars = bytes := by
  induction chars using decodeChars.induct generalizing bytes with
  | case1 => exact Option.some.inj h
  | case2 c => cases h
  | case3 c1 c2 rest ih =>
    simp only [decodeChars, Option.bind_eq_bind, Option.bind_eq_some_iff] at h
    obtain ⟨d1, h1, d2, h2, bytes', hrest, hbytes⟩ := h
    rw [← Option.some.inj hbytes]
    simp only [parseHexChars, isSpace_of_hexDigit h1, h1, h2, ih hrest, Bool.false_eq_true, if_false]

theorem parseHex_of_decode {text : String} {bytes : Bytes} (h : Hex.decode text = some bytes) :
    parseHex text = bytes := by
  rw [Hex.decode] at h
  unfold parseHex
  split
  · next rest heq =>
    rw [heq] at h
    simp only [decodeChars, Option.bind_eq_bind, Option.bind_eq_some_iff] at h
    obtain ⟨d1, h1, d2, h2, -⟩ := h
    have hnone : hexDigit 'x' = none := by decide
    rw [hnone] at h2
    cases h2
  · exact parseHexChars_of_decodeChars h

end Text

variable {n : ℕ} {E : Type} [AddCommGroup E] [Module (ZMod n) E] [DecidableEq E]
variable (enclave : Keyring n E) (draw : Draw n) (table : List (Row E))

def pubnonceOf (params : Params n E) (nonce : SecNonce (Point E) (ZMod n)) : Point E × Point E :=
  (params.publicKey nonce.k0, params.publicKey nonce.k1)

def withNonce (row : Row E) (nonce : SecNonce (Point E) (ZMod n)) : Row E :=
  { row with
    publicNonce := some (pubnonceOf enclave.params nonce)
    sealedSecnonce := some (enclave.secnonces.lock draw.nonce nonce) }

/-- What a nonce request can do: nothing, or put the nonce that it generates in the row of the
statechain. The nonce is in the answer unless the commit is not confirmed. -/
inductive NonceEffect (statechainId : String) (result : List (Row E) × Outcome) : Prop
  | refused (htable : result.1 = table) (hanswer : namesField result.2 = false)
  | made (row : Row E) (nonce : SecNonce (Point E) (ZMod n)) (hrow : storedRow table statechainId = some row)
      (hgenerated : generatedNonce enclave draw table statechainId = some nonce)
      (hrow' : storedRow result.1 statechainId = some (withNonce enclave draw row nonce))
      (hothers : ∀ id, id ≠ statechainId → storedRow result.1 id = storedRow table id)
      (hanswer : result.2 = success "server_pubnonce"
          (enclave.params.nonceBytes.encode (pubnonceOf enclave.params nonce)) ∨
        (∃ text, draw.store = .lost text) ∧ namesField result.2 = false)

/-- What a signing request can do: nothing, or count a signature made with the nonce of the
row. -/
inductive SignEffect (statechainId session : String) (result : List (Row E) × Outcome) : Prop
  | refused (htable : result.1 = table) (hanswer : isSuccess result.2 = false)
  | signed (row : Row E) (nonce : SecNonce (Point E) (ZMod n)) (challenge : ZMod n)
      (hrow : storedRow table statechainId = some row)
      (hsigned : signedWith enclave draw table statechainId (parseHex session) = some (nonce, challenge))
      (hrow' : storedRow result.1 statechainId = some { row with sigCount := row.sigCount + 1 })
      (hothers : ∀ id, id ≠ statechainId → storedRow result.1 id = storedRow table id)
      (hanswer : (isSuccess result.2 = true ∧ draw.store = .ok) ∨
        (∃ text, draw.store = .lost text) ∧ isSuccess result.2 = false)

variable {enclave draw table}

omit [Module (ZMod n) E] [DecidableEq E] in
theorem storedRow_updateWhere_of_ne {statechainId id : String} {f : Row E → Row E}
    (hf : ∀ row, (f row).statechainId = row.statechainId) (hne : id ≠ statechainId) :
    storedRow (updateWhere statechainId f table) id = storedRow table id := by
  induction table with
  | nil => rfl
  | cons row table ih =>
    simp only [storedRow, updateWhere, List.map_cons, List.find?_cons] at ih ⊢
    by_cases hid : row.statechainId = statechainId
    · have hother : (row.statechainId == id) = false := by
        rw [hid]
        simpa using hne.symm
      have hother' : ((f row).statechainId == id) = false := by
        rw [hf]
        exact hother
      rw [if_pos hid, hother, hother']
      exact ih
    · rw [if_neg hid, ih]

theorem generatedNonce_of_ok {statechainId : String} {row : Row E} {encryptedKeypair : Bytes}
    {response : NewNonceResponse E} (hload : loadGeneratedKeyData draw.load table statechainId = .ok row)
    (hkey : row.sealedKeypair = some encryptedKeypair)
    (hgen : Enclave.generateNonce enclave encryptedKeypair draw.sessionId draw.nonce = .ok response) :
    ∃ nonce, generatedNonce enclave draw table statechainId = some nonce ∧
      response = ⟨enclave.secnonces.lock draw.nonce nonce, pubnonceOf enclave.params nonce⟩ := by
  obtain ⟨seckey, hunlock, rfl⟩ := (generateNonce_eq_ok enclave).mp hgen
  refine ⟨_, ?_, rfl⟩
  simp only [generatedNonce, hload, hkey, Option.bind_some, hunlock, Option.map_some]

variable (enclave draw table) in
theorem generatePublicNonce_effect (statechainId : String) :
    NonceEffect enclave draw table statechainId (generatePublicNonce enclave draw table statechainId) := by
  unfold generatePublicNonce
  cases hload : loadGeneratedKeyData draw.load table statechainId with
  | error message => exact .refused rfl rfl
  | ok row =>
    cases hkey : row.sealedKeypair with
    | none =>
      simp only [hkey]
      exact .refused rfl rfl
    | some encryptedKeypair =>
      simp only [hkey]
      cases hgen : Enclave.generateNonce enclave encryptedKeypair draw.sessionId draw.nonce with
      | error abort => exact .refused rfl rfl
      | ok response =>
        obtain ⟨nonce, hnonce, rfl⟩ := generatedNonce_of_ok hload hkey hgen
        have hrow := storedRow_of_load hload
        have hrow' : storedRow (updateSealedSecnonce table statechainId
            ⟨enclave.secnonces.lock draw.nonce nonce, pubnonceOf enclave.params nonce⟩) statechainId =
              some (withNonce enclave draw row nonce) := by
          refine (storedRow_updateWhere ?_).trans ?_
          · exact fun _ => rfl
          · rw [hrow]
            rfl
        have hothers : ∀ id, id ≠ statechainId → storedRow (updateSealedSecnonce table statechainId
            ⟨enclave.secnonces.lock draw.nonce nonce, pubnonceOf enclave.params nonce⟩) id = storedRow table id :=
          fun id hne => storedRow_updateWhere_of_ne (fun _ => rfl) hne
        simp only [reply]
        cases hstore : draw.store with
        | failed text => exact .refused rfl rfl
        | ok => exact .made row nonce hrow hnonce hrow' hothers (.inl rfl)
        | lost text => exact .made row nonce hrow hnonce hrow' hothers (.inr ⟨⟨text, hstore⟩, rfl⟩)

variable (enclave draw table) in
theorem getPartialSignature_effect (statechainId session : String) (negateSeckey : Int64) :
    SignEffect enclave draw table statechainId session
      (handle enclave draw table (.getPartialSignature statechainId negateSeckey session)) := by
  simp only [handle]
  split_ifs with hlength
  · exact .refused rfl rfl
  obtain ⟨hsame, hno⟩ | ⟨row, encryptedKeypair, encryptedSecnonce, partialSig, hload, hkey, hnonce, hsig, heq⟩ :=
    generatePartialSignature_cases enclave draw table statechainId negateSeckey (parseHex session)
  · exact .refused hsame hno
  · obtain ⟨seckey, nonce, data, -, hunlock, hdecode, -⟩ := (partialSignature_eq_ok enclave).mp hsig
    have hrow := storedRow_of_load hload
    have hsigned : signedWith enclave draw table statechainId (parseHex session) = some (nonce, data.challenge) := by
      simp only [signedWith, hload, storedNonce, hnonce, Option.bind_some, hunlock, hdecode]
      rfl
    have hrow' : storedRow (updateSigCount table statechainId) statechainId =
        some { row with sigCount := row.sigCount + 1 } := by
      refine (storedRow_updateWhere ?_).trans ?_
      · exact fun _ => rfl
      · rw [hrow]
        rfl
    have hothers : ∀ id, id ≠ statechainId → storedRow (updateSigCount table statechainId) id = storedRow table id :=
      fun id hne => storedRow_updateWhere_of_ne (fun _ => rfl) hne
    rw [heq]
    simp only [reply]
    cases hstore : draw.store with
    | failed text => exact .refused rfl rfl
    | ok => exact .signed row nonce data.challenge hrow hsigned hrow' hothers (.inl ⟨rfl, hstore⟩)
    | lost text => exact .signed row nonce data.challenge hrow hsigned hrow' hothers (.inr ⟨⟨text, hstore⟩, rfl⟩)

/-- A row with a key and a nonce made for it is always good for a signature. -/
theorem getPartialSignature_success {statechainId session : String} {negateSeckey : Int64} {row : Row E}
    {seckey : ZMod n} {nonce : SecNonce (Point E) (ZMod n)} {data : Session (ZMod n)}
    (hrow : storedRow table statechainId = some row)
    (hkey : row.sealedKeypair.bind enclave.keypairs.unlock = some seckey) (hne : seckey ≠ 0)
    (hnonce : storedNonce enclave row = some nonce) (hk0 : nonce.k0 ≠ 0)
    (hpk : nonce.pk = enclave.params.publicKey seckey) (hlength : (parseHex session).length = 133)
    (hdecode : enclave.params.sessionBytes.decode (parseHex session) = some data) (hload : draw.load = .ok)
    (hstore : draw.store = .ok) :
    isSuccess (handle enclave draw table (.getPartialSignature statechainId negateSeckey session)).2 = true := by
  obtain ⟨encryptedKeypair, hsealed, hunlock⟩ := Option.bind_eq_some_iff.mp hkey
  obtain ⟨encryptedSecnonce, hsecnonce, hunlock'⟩ := Option.bind_eq_some_iff.mp hnonce
  have hloaded : loadGeneratedKeyData draw.load table statechainId = .ok row := by
    rw [storedRow] at hrow
    simp only [loadGeneratedKeyData, hload, hrow]
  have hfits : (nonce.pk : E) = seckey • enclave.params.G := by
    rw [hpk, enclave.params.coe_publicKey hne]
  have hsign : ∃ sig, enclave.params.blindedMusigPartialSignWithoutKeyaggcoeff nonce seckey data
      (negateSeckey.toInt32 ≠ 0) = some sig := by
    rw [Params.blindedMusigPartialSignWithoutKeyaggcoeff, if_neg (fun h => hk0 h.1), if_neg (not_not.mpr hfits)]
    exact ⟨_, rfl⟩
  obtain ⟨sig, hsign⟩ := hsign
  have hsig := (partialSignature_eq_ok enclave).mpr ⟨seckey, nonce, data, hunlock, hunlock', hdecode, hsign⟩
  simp only [handle, hlength, ne_eq, not_true_eq_false, if_false, generatePartialSignature, hloaded, hsealed,
    hsecnonce, hsig, hstore]
  rfl

end MercuryLayer.Lockbox.Signing
