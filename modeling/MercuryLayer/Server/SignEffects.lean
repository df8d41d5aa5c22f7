import MercuryLayer.Server.Sign

namespace MercuryLayer.Server.SignEffects

open Crates Library.Programs Library.XOnlyCurve Lockbox.Enclave Lockbox.KeyUpdate Lockbox.NonceUse Lockbox.Server
open Lockbox.Signing Musig.Session Server.Database Server.Effects Server.Sign Server.System Server.Transfer
open MercuryLayer.Transaction

section Text

theorem strip0x_encode (bytes : Bytes) : strip0x (Hex.encode bytes) = Hex.encode bytes := by
  unfold strip0x
  split
  · next rest heq =>
    have hdecode := Hex.decode_encode bytes
    rw [Hex.decode, heq] at hdecode
    simp only [Hex.decodeChars, Option.bind_eq_bind, Option.bind_eq_some_iff] at hdecode
    obtain ⟨d1, -, d2, h2, -⟩ := hdecode
    cases h2
  · rfl

end Text

variable {n : ℕ} {E : Type} [AddCommGroup E]

/-- The number of signatures that the lockbox with the given index counts. -/
def sigCountOf (w : World E) (index : ℕ) (id : String) : Option ℕ := (coinRow w index id).map Row.sigCount

def namedIn (name : String) (answer : Option Answer) : Option String := answer.bind (answerField name)

/-- What `/sign/first` can do to the signatures of its statechain: nothing, or start one if none is in
progress. The nonce in the answer is that of the signature in progress. -/
structure FirstEffect (w : World E) (id : String) (answer : Option Answer) (w' : World E) : Prop where
  data : w'.db.data = w.db.data
  count : ∀ index, sigCountOf w' index id = sigCountOf w index id
  rows : (signaturesOf w'.db id = signaturesOf w.db id ∧
      ∀ text, namedIn "server_pubnonce" answer = some text →
        w.db.serverPubnonceFromNullChallenge id = some text) ∨
    (w.db.serverPubnonceFromNullChallenge id = none ∧ ∃ text,
      signaturesOf w'.db id = signaturesOf w.db id ++ [⟨strip0x text, none, w.db.maxTxN id + 1, id⟩] ∧
      strip0x (strip0x text) = strip0x text ∧
      ∀ text', namedIn "server_pubnonce" answer = some text' → text' = text)

/-- What `/sign/second` can do to the signatures of its statechain: nothing, or store a challenge. The
answer has a signature only if the lockbox has counted it. -/
structure SecondEffect (w : World E) (id serverPubnonce : String) (answer : Option Answer) (w' : World E) : Prop where
  data : w'.db.data = w.db.data
  rows : (signaturesOf w'.db id = signaturesOf w.db id ∧ (∀ index, sigCountOf w' index id = sigCountOf w index id) ∧
      namedIn "partial_sig" answer = none) ∨
    ∃ challenge, signaturesOf w'.db id = (signaturesOf w.db id).map (Db.setChallenge id serverPubnonce challenge) ∧
      ∀ text, namedIn "partial_sig" answer = some text → ∀ data, w.db.data.get id = some data →
        sigCountOf w' data.enclaveIndex id = (sigCountOf w data.enclaveIndex id).map (· + 1)

variable [Module (ZMod n) E] [DecidableEq E] {enclave : Keyring n E} {w : World E}

section Endpoints

/-- Both endpoints begin alike: the lockbox of the coin is looked up and the signature checked. -/
theorem wp_authenticated {secp : Secp (Point E) (ZMod n)} {authSig id : String}
    {f : ℕ → Endpoint E Answer} {post : Option Answer → World E → Prop} (hnone : post none w)
    (hrefused : post (some (enclaveIndexNotFound id)) w) (hmismatch : post (some (signatureMismatch 401)) w)
    (hf : ∀ data, w.db.data.get id = some data → wp (Database.handle enclave) post (f data.enclaveIndex) w) :
    wp (Database.handle enclave) post (do
      match ← getEnclaveIndexFromDatabase id with
      | none => return enclaveIndexNotFound id
      | some enclaveIndex =>
        (.call (.lockboxEndpoint enclaveIndex) Prog.unwrap : Endpoint E Unit)
        if ← validateSignature secp authSig id then f enclaveIndex
        else return signatureMismatch 401) w := by
  refine fun e => wp_read hnone (fun index hindex => ?_)
  rw [Option.some.injEq] at hindex
  cases hdata : w.db.data.get id with
  | none =>
    rw [← hindex, hdata]
    exact hrefused
  | some data =>
    rw [← hindex, hdata, Option.map_some]
    intro e'
    have hread : Database.handle enclave e' (.lockboxEndpoint data.enclaveIndex) w =
        (w.enclaves[data.enclaveIndex]?.map (fun _ => ()), w) := rfl
    rw [hread]
    cases w.enclaves[data.enclaveIndex]? with
    | none => exact hnone
    | some table =>
      refine wp_validateSignature hnone (fun data' signature hdata' hsignature => ?_)
      cases verifies secp signature id data'.authXonlyPublicKey with
      | false => exact hmismatch
      | true => exact hf data hdata

end Endpoints

section First

variable {id : String}

omit [DecidableEq E] in
theorem firstEffect_same {answer : Option Answer} (h : namedIn "server_pubnonce" answer = none) :
    FirstEffect w id answer w := by
  refine ⟨rfl, fun _ => rfl, .inl ⟨rfl, fun text htext => ?_⟩⟩
  rw [h] at htext
  cases htext

omit [DecidableEq E] in
theorem firstEffect_lockbox {index : ℕ} {table table' : List (Row E)} {answer : Option Answer}
    (htable : w.enclaves[index]? = some table)
    (hrow : (storedRow table' id).map Row.sigCount = (storedRow table id).map Row.sigCount)
    (h : namedIn "server_pubnonce" answer = none) :
    FirstEffect w id answer { w with enclaves := w.enclaves.set index table' } := by
  refine ⟨rfl, fun index' => ?_, .inl ⟨rfl, fun text htext => ?_⟩⟩
  · by_cases hindex : index = index'
    · subst hindex
      rw [sigCountOf, sigCountOf, coinRow_set htable, hrow, coinRow, htable, Option.bind_some]
    · rw [sigCountOf, sigCountOf, coinRow, coinRow, List.getElem?_set_ne hindex]
  · rw [h] at htext
    cases htext

theorem requestNonce_effect {data : StatechainData (Point E)}
    (hpending : w.db.serverPubnonceFromNullChallenge id = none) :
    wp (Database.handle enclave) (FirstEffect w id) (requestNonce id data.enclaveIndex) w := by
  intro e
  have hcall : Database.handle enclave e (.lockbox data.enclaveIndex (.getPublicNonce id)) w =
      callLockbox enclave e w data.enclaveIndex (.getPublicNonce id) := rfl
  rw [hcall]
  obtain ⟨hsame, hbody⟩ | ⟨table, htable, hlockbox⟩ :=
    callLockbox_cases enclave e w data.enclaveIndex (.getPublicNonce id)
  · rw [hsame]
    cases hreply : (callLockbox enclave e w data.enclaveIndex (.getPublicNonce id)).1 with
    | failed text => exact firstEffect_same rfl
    | unreadable => exact firstEffect_same rfl
    | body body => exact absurd hreply (hbody body)
  rw [hlockbox]
  have heffect := generatePublicNonce_effect enclave e.draw table id
  change NonceEffect enclave e.draw table id
    (Lockbox.Server.handle enclave e.draw table (.getPublicNonce id)) at heffect
  generalize Lockbox.Server.handle enclave e.draw table (.getPublicNonce id) = result at heffect ⊢
  have hrow : (storedRow result.1 id).map Row.sigCount = (storedRow table id).map Row.sigCount := by
    cases heffect with
    | refused hsame hanswer => rw [hsame]
    | made row nonce hrow hgenerated hrow' hothers hanswer =>
      rw [hrow, hrow']
      rfl
  cases hreply : httpReply e.link result.2 with
  | failed text => exact firstEffect_lockbox htable hrow rfl
  | unreadable => exact firstEffect_lockbox htable hrow rfl
  | body body =>
    cases hfield : bodyField "server_pubnonce" body with
    | none =>
      simp only [relayNonce, hfield]
      exact firstEffect_lockbox htable hrow rfl
    | some text =>
      simp only [relayNonce, hfield]
      have hstrip : strip0x (strip0x text) = strip0x text := by
        have hnames : namesField result.2 ≠ false := by
          intro hnames
          rw [bodyField_of_namesField hnames (httpReply_delivered hreply)] at hfield
          cases hfield
        cases heffect with
        | refused hsame hanswer => exact absurd hanswer hnames
        | made row nonce hrow hgenerated hrow' hothers hanswer =>
          obtain hanswer | ⟨-, hanswer⟩ := hanswer
          · have hdelivered := httpReply_delivered hreply
            rw [hanswer] at hdelivered
            cases hdelivered
            cases hfield
            rw [strip0x_keyToString, strip0x_encode]
          · exact absurd hanswer hnames
      have hinserted : ∀ answer, (∀ text', namedIn "server_pubnonce" answer = some text' → text' = text) →
          FirstEffect w id answer
            { w with
              db := w.db.insertNewSignatureData id (strip0x text)
              enclaves := w.enclaves.set data.enclaveIndex result.1 } := by
        intro answer hanswer
        have hlocked : FirstEffect w id none { w with enclaves := w.enclaves.set data.enclaveIndex result.1 } :=
          firstEffect_lockbox htable hrow rfl
        exact ⟨rfl, hlocked.count,
          .inr ⟨hpending, text, signaturesOf_insert _, hstrip, hanswer⟩⟩
      intro e'
      refine wp_write ?_ (fun db hdb => ?_)
      · exact firstEffect_lockbox htable hrow rfl
      · rw [← Option.some.inj hdb]
        refine ⟨hinserted none (fun text' h => by cases h), hinserted _ (fun text' h => ?_)⟩
        cases h
        rfl

theorem signFirst_effect (payload : SignFirstRequestPayload) :
    wp (Database.handle enclave) (FirstEffect w payload.statechainId) (signFirst enclave.params.secp payload) w := by
  refine wp_authenticated (firstEffect_same rfl) (firstEffect_same rfl) (firstEffect_same rfl) (fun data hdata => ?_)
  refine fun e => wp_read (firstEffect_same rfl) (fun pending hpending => ?_)
  cases pending with
  | none => exact requestNonce_effect (Option.some.inj hpending)
  | some serverPubnonce =>
    refine ⟨rfl, fun _ => rfl, .inl ⟨rfl, fun text htext => ?_⟩⟩
    rw [Option.some.inj hpending]
    exact htext

end First

section Second

variable {id serverPubnonce : String}

variable (enclave) in
theorem isSuccess_of_namesField (draw : Draw n) (table : List (Row E)) (id session : String) (negateSeckey : Int64)
    (h : namesField (Lockbox.Server.handle enclave draw table (.getPartialSignature id negateSeckey session)).2 = true) :
    isSuccess (Lockbox.Server.handle enclave draw table (.getPartialSignature id negateSeckey session)).2 = true := by
  revert h
  simp only [Lockbox.Server.handle, generatePartialSignature]
  split_ifs with hlength
  · intro h
    cases h
  cases loadGeneratedKeyData draw.load table id with
  | error text =>
    intro h
    cases h
  | ok row =>
    cases hkey : row.sealedKeypair with
    | none =>
      simp only [hkey]
      intro h
      cases h
    | some encryptedKeypair =>
      cases hnonce : row.sealedSecnonce with
      | none =>
        simp only [hkey, hnonce]
        intro h
        cases h
      | some encryptedSecnonce =>
        simp only [hkey, hnonce]
        cases partialSignature enclave encryptedKeypair encryptedSecnonce negateSeckey.toInt32
            (parseHex session) with
        | error abort =>
          intro h
          cases h
        | ok partialSig =>
          cases draw.store with
          | ok => exact fun _ => rfl
          | failed text =>
            intro h
            cases h
          | lost text =>
            intro h
            cases h

omit [DecidableEq E] in
theorem secondEffect_same {answer : Option Answer} (h : namedIn "partial_sig" answer = none) :
    SecondEffect w id serverPubnonce answer w :=
  ⟨rfl, .inl ⟨rfl, fun _ => rfl, h⟩⟩

theorem requestSignature_effect {payload : PartialSignatureRequestPayload} {data : StatechainData (Point E)}
    {challenge : String} {w' : World E} (hdata : w.db.data.get payload.statechainId = some data)
    (hdb : w'.db = w.db.updateSignatureDataChallenge payload.statechainId payload.serverPubNonce challenge)
    (henclaves : w'.enclaves = w.enclaves) :
    wp (Database.handle enclave) (SecondEffect w payload.statechainId payload.serverPubNonce)
      (requestSignature payload data.enclaveIndex) w' := by
  have hstored : ∀ (answer : Option Answer) (w'' : World E), w''.db = w'.db →
      (∀ text, namedIn "partial_sig" answer = some text →
        sigCountOf w'' data.enclaveIndex payload.statechainId =
          (sigCountOf w data.enclaveIndex payload.statechainId).map (· + 1)) →
      SecondEffect w payload.statechainId payload.serverPubNonce answer w'' := by
    intro answer w'' hw'' hcount
    refine ⟨by rw [hw'', hdb]; rfl, .inr ⟨challenge, by rw [hw'', hdb, signaturesOf_update], ?_⟩⟩
    intro text htext data' hdata'
    cases hdata.symm.trans hdata'
    exact hcount text htext
  intro e
  have hcall : Database.handle enclave e (.lockbox data.enclaveIndex (.getPartialSignature payload.statechainId
      (Int64.ofNat payload.negateSeckey.toNat) payload.session)) w' =
      callLockbox enclave e w' data.enclaveIndex (.getPartialSignature payload.statechainId
        (Int64.ofNat payload.negateSeckey.toNat) payload.session) := rfl
  rw [hcall]
  obtain ⟨hsame, hbody⟩ | ⟨table, htable, hlockbox⟩ := callLockbox_cases enclave e w' data.enclaveIndex
    (.getPartialSignature payload.statechainId (Int64.ofNat payload.negateSeckey.toNat) payload.session)
  · rw [hsame]
    cases hreply : (callLockbox enclave e w' data.enclaveIndex (.getPartialSignature payload.statechainId
        (Int64.ofNat payload.negateSeckey.toNat) payload.session)).1 with
    | failed text => exact hstored _ _ rfl (fun text h => nomatch h)
    | unreadable => exact hstored _ _ rfl (fun text h => nomatch h)
    | body body => exact absurd hreply (hbody body)
  rw [hlockbox]
  have heffect := getPartialSignature_effect enclave e.draw table payload.statechainId payload.session
    (Int64.ofNat payload.negateSeckey.toNat)
  have hnames := isSuccess_of_namesField enclave e.draw table payload.statechainId payload.session
    (Int64.ofNat payload.negateSeckey.toNat)
  generalize Lockbox.Server.handle enclave e.draw table (.getPartialSignature payload.statechainId
    (Int64.ofNat payload.negateSeckey.toNat) payload.session) = result at heffect hnames ⊢
  cases hreply : httpReply e.link result.2 with
  | failed text => exact hstored _ _ rfl (fun text h => nomatch h)
  | unreadable => exact hstored _ _ rfl (fun text h => nomatch h)
  | body body =>
    cases hfield : bodyField "partial_sig" body with
    | none =>
      simp only [relaySignature, hfield]
      exact hstored _ _ rfl (fun text h => nomatch h)
    | some text =>
      simp only [relaySignature, hfield]
      refine hstored _ _ rfl (fun text' _ => ?_)
      have hsuccess : isSuccess result.2 = true := by
        apply hnames
        by_contra hno
        rw [bodyField_of_namesField (Bool.not_eq_true _ ▸ hno) (httpReply_delivered hreply)] at hfield
        cases hfield
      cases heffect with
      | refused hsame hanswer =>
        rw [hsuccess] at hanswer
        cases hanswer
      | signed row nonce challenge hrow hsigned hrow' hothers hanswer =>
        rw [sigCountOf, coinRow_set htable, hrow']
        rw [henclaves] at htable
        rw [sigCountOf, coinRow, htable, Option.bind_some, hrow]
        rfl

theorem signSecond_effect (payload : PartialSignatureRequestPayload) :
    wp (Database.handle enclave) (SecondEffect w payload.statechainId payload.serverPubNonce)
      (signSecond enclave.params payload) w := by
  refine wp_authenticated (secondEffect_same rfl) (secondEffect_same rfl) (secondEffect_same rfl)
    (fun data hdata => ?_)
  cases hchallenge : challengeOfSession enclave.params payload.session with
  | none => exact secondEffect_same rfl
  | some challenge =>
    simp only [Prog.unwrap, Prog.ret_bind]
    intro e
    refine wp_write (secondEffect_same rfl) (fun db hdb => ?_)
    rw [← Option.some.inj hdb]
    refine ⟨⟨rfl, .inr ⟨challenge, signaturesOf_update _, fun text h => by cases h⟩⟩, ?_⟩
    exact requestSignature_effect hdata rfl rfl

end Second

end MercuryLayer.Server.SignEffects
