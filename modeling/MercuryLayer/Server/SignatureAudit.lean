import MercuryLayer.Server.Sign

namespace MercuryLayer.Server.SignatureAudit

open Crates Library.Programs Library.Runs Library.Tables Library.XOnlyCurve Lockbox.Enclave Lockbox.KeyUpdate
open Lockbox.NonceUse Lockbox.Server Lockbox.Signing Musig.Session Receiver Server.Database Server.Effects
open Server.Sign Server.System Server.Transfer Server.Unlock MercuryLayer.Transaction

variable {n : ℕ} {E : Type} [AddCommGroup E] [Module (ZMod n) E] [DecidableEq E]

/-- The world with the partial signatures that lockboxes have issued, each with its statechain,
the nonce signed with and the challenge signed. -/
structure Store (E : Type) [AddCommGroup E] where
  world : World E
  issued : List (String × String × String)

def reached : Link → Bool
  | .unreachable _ => false
  | .delivered | .lost _ | .cut => true

variable (enclave : Keyring n E) (id : String)

/-- The nonce and the challenge as the server writes them. -/
def entry (signed : SecNonce (Point E) (ZMod n) × ZMod n) : String × String :=
  (enclave.params.nonceText (pubnonceOf enclave.params signed.1), enclave.params.secp.secretHex signed.2)

def issuedBy (choice : Choice n) (w : World E) : Call E → List (String × String × String)
  | .lockbox index (.getPartialSignature id negateSeckey session) =>
    match reached choice.link, w.enclaves[index]? with
    | true, some table =>
      if isSuccess (Lockbox.Server.handle enclave choice.draw table
          (.getPartialSignature id negateSeckey session)).2 then
        (signedWith enclave choice.draw table id (parseHex session)).toList.map (fun signed =>
          (id, entry enclave signed))
      else []
    | _, _ => []
  | _ => []

def handle (choice : Choice n) (c : Call E) (s : Store E) : Reply c × Store E :=
  let result := Database.handle enclave choice c s.world
  (result.1, ⟨result.2, issuedBy enclave choice s.world c ++ s.issued⟩)

inductive Event (n : ℕ)
  | first (payload : SignFirstRequestPayload) (choices : ℕ → Choice n)
  | second (payload : PartialSignatureRequestPayload) (choices : ℕ → Choice n)
  | info (statechainId : String)

/-- Signing requests one after the other, and requests for `/info/statechain` in between. -/
def step (s : Store E) : Event n → Store E
  | .first payload choices => (exec (handle enclave) (signFirst enclave.params.secp payload) choices s).2
  | .second payload choices => (exec (handle enclave) (signSecond enclave.params payload) choices s).2
  | .info _ => s

def init (w : World E) : Store E := ⟨w, []⟩

def issuedOf (s : Store E) : List (String × String) :=
  (s.issued.filter (fun signed => signed.1 == id)).map Prod.snd

def Faultless (choice : Choice n) : Prop :=
  choice.fault = .ok ∧ choice.link = .delivered ∧ choice.draw.load = .ok

/-- The answer's rows are the signatures that the lockbox issued, and it counts them. -/
def Reports (s : Store E) (answer : Option Answer) : Prop :=
  ∃ info, answer = some ⟨200, .statechainInfo info⟩ ∧
    (info.statechainInfo.map (fun row => (row.serverPubnonce, row.challenge))).Perm (issuedOf id s) ∧
    info.numSigs = info.statechainInfo.length.toUInt32

/-- `/info/statechain` answers as long as the environment does not fail, and reports. -/
def Audited (s : Store E) : Prop :=
  ∀ choices : ℕ → Choice n, (∀ i, Faultless (choices i)) →
    Reports id s (exec (Database.handle enclave) (statechainInfo enclave.params.secp id) choices s.world).1

section Guard

def nonceRequest? : Call E → Option (ℕ × String)
  | .lockbox index (.getPublicNonce id) => some (index, id)
  | _ => none

def challengeUpdate? : Call E → Option (String × String)
  | .updateSignatureDataChallenge serverPubnonce _ id => some (serverPubnonce, id)
  | _ => none

def signRequest? : Call E → Option String
  | .lockbox _ (.getPartialSignature id _ _) => some id
  | _ => none

/-- The lockbox does not generate a nonce twice; the client names the nonce of the signature in
progress, whose row is updated unless nothing happens; and then the lockbox signs. -/
def Careful (choice : Choice n) (c : Call E) (s : Store E) : Prop :=
  (∀ request ∈ nonceRequest? c, request.2 = id → ∀ table ∈ s.world.enclaves[request.1]?,
    ∀ nonce ∈ generatedNonce enclave choice.draw table id,
      enclave.params.nonceText (pubnonceOf enclave.params nonce) ∉
        (signaturesOf s.world.db id).map SignatureData.serverPubnonce) ∧
  (∀ update ∈ challengeUpdate? c, update.2 = id → confirmed choice.fault = true ∧
    ∃ row ∈ signaturesOf s.world.db id, row.serverPubnonce = update.1 ∧ row.challenge = none) ∧
  (signRequest? c = some id →
    reached choice.link = true ∧ choice.draw.load = .ok ∧ choice.draw.store = .ok)

instance (choice : Choice n) (c : Call E) (s : Store E) : Decidable (Careful enclave id choice c s) :=
  inferInstanceAs (Decidable ((∀ request ∈ nonceRequest? c, request.2 = id → ∀ table ∈ s.world.enclaves[request.1]?,
    ∀ nonce ∈ generatedNonce enclave choice.draw table id,
      enclave.params.nonceText (pubnonceOf enclave.params nonce) ∉
        (signaturesOf s.world.db id).map SignatureData.serverPubnonce) ∧
    (∀ update ∈ challengeUpdate? c, update.2 = id → confirmed choice.fault = true ∧
      ∃ row ∈ signaturesOf s.world.db id, row.serverPubnonce = update.1 ∧ row.challenge = none) ∧ _))

/-- Every call of a request is made with care, and `/info/statechain` is asked only while no
signature is in progress. -/
def CarefulEvent (s : Store E) : Event n → Prop
  | .first payload choices =>
    Admits (handle enclave) (Careful enclave id) (signFirst enclave.params.secp payload) choices s
  | .second payload choices =>
    Admits (handle enclave) (Careful enclave id) (signSecond enclave.params payload) choices s
  | .info id' => id' = id → ∀ row ∈ signaturesOf s.world.db id, row.challenge ≠ none

instance (s : Store E) (event : Event n) : Decidable (CarefulEvent enclave id s event) :=
  match event with
  | .first payload choices =>
    inferInstanceAs (Decidable
      (Admits (handle enclave) (Careful enclave id) (signFirst enclave.params.secp payload) choices s))
  | .second payload choices =>
    inferInstanceAs (Decidable
      (Admits (handle enclave) (Careful enclave id) (signSecond enclave.params payload) choices s))
  | .info _ => inferInstanceAs (Decidable (_ → ∀ row ∈ signaturesOf s.world.db id, _))

end Guard

/-- What a row with a challenge stands for. -/
def audited (row : SignatureData) : Option (String × String) :=
  row.challenge.map (fun challenge => (row.serverPubnonce, challenge))

/-- The coin as the lockbox holds it, for a secret that is a key. -/
structure Held (w : World E) (data : StatechainData (Point E)) (row : Row E) (seckey : ZMod n) : Prop where
  hasData : w.db.data.get id = some data
  hasRow : coinRow w data.enclaveIndex id = some row
  key : row.sealedKeypair.bind enclave.keypairs.unlock = some seckey
  nonzero : seckey ≠ 0

/-- The nonce that the lockbox holds for the coin, made for its key. -/
structure NonceHeld (row : Row E) (seckey : ZMod n) (serverPubnonce : String) (nonce : SecNonce (Point E) (ZMod n)) :
    Prop where
  stored : storedNonce enclave row = some nonce
  k0 : nonce.k0 ≠ 0
  pk : nonce.pk = enclave.params.publicKey seckey
  text : serverPubnonce = enclave.params.nonceText (pubnonceOf enclave.params nonce)

/-- The rows of the server and the count of the lockbox agree with the signatures issued. -/
structure Agrees (s : Store E) (data : StatechainData (Point E)) (row : Row E) (seckey : ZMod n) : Prop
    extends Held enclave id s.world data row seckey where
  x1 : ∀ transfer, s.world.db.transfers.get id = some transfer →
    (enclave.params.secp.secretKeyFromSlice transfer.x1).isSome
  distinct : ((signaturesOf s.world.db id).map SignatureData.serverPubnonce).Nodup
  pending : ∀ signature ∈ signaturesOf s.world.db id, signature.challenge = none →
    ∃ nonce, NonceHeld enclave row seckey signature.serverPubnonce nonce
  issued : ((signaturesOf s.world.db id).filterMap audited).Perm (issuedOf id s)
  count : row.sigCount = (issuedOf id s).length

def Inv (s : Store E) : Prop := ∃ data row seckey, Agrees enclave id s data row seckey

/-- A coin that has just been deposited. -/
structure Fresh (w : World E) : Prop where
  held : ∃ data row seckey, Held enclave id w data row seckey ∧ row.sigCount = 0
  x1 : ∀ transfer, w.db.transfers.get id = some transfer →
    (enclave.params.secp.secretKeyFromSlice transfer.x1).isSome
  unsigned : signaturesOf w.db id = []

variable {enclave id} {s : Store E}

theorem inv_init {w : World E} (h : Fresh enclave id w) : Inv enclave id (init w) := by
  obtain ⟨data, row, seckey, hheld, hcount⟩ := h.held
  refine ⟨data, row, seckey, { toHeld := hheld, x1 := h.x1, distinct := ?_, pending := ?_, issued := ?_, count := hcount }⟩
  · rw [init, h.unsigned]
    exact List.nodup_nil
  · rw [init, h.unsigned]
    intro signature hsignature
    cases hsignature
  · rw [init, h.unsigned]
    exact List.Perm.refl _

section Reads

variable {α : Type} {post : Option Answer → Store E → Prop}

theorem wpIf_read {fault : DbFault} {result : Option α} {f : α → Endpoint E Answer} (hnone : post none s)
    (hsome : ∀ a, result = some a → wpIf (handle enclave) (Careful enclave id) post (f a) s) :
    wpIf (handle enclave) (Careful enclave id) post (Prog.unwrap (Database.read fault s.world result).1 >>= f)
      ⟨(Database.read fault s.world result).2, s.issued⟩ := by
  cases fault with
  | ok =>
    cases result with
    | none => exact hnone
    | some a => exact hsome a rfl
  | failed text => exact hnone
  | lost text => exact hnone

theorem wpIf_validateSignature {secp : Secp (Point E) (ZMod n)} {authSig id' : String}
    {f : Bool → Endpoint E Answer} (hnone : post none s)
    (hf : ∀ verified, wpIf (handle enclave) (Careful enclave id) post (f verified) s) :
    wpIf (handle enclave) (Careful enclave id) post (validateSignature secp authSig id' >>= f) s := by
  have hchecked : ∀ authKey, wpIf (handle enclave) (Careful enclave id) post ((do
      let signedMessage ← Prog.unwrap (secp.signatureFromStr authSig)
      return verifies secp signedMessage id' authKey) >>= f) s := by
    intro authKey
    cases secp.signatureFromStr authSig with
    | none => exact hnone
    | some signature => exact hf _
  intro e _
  have hread : handle enclave e (.getAuthKeyByStatechainId id') s =
      (Database.read e.fault s.world ((s.world.db.data.get id').map StatechainData.authXonlyPublicKey) |>.1, s) := by
    simp only [handle, Database.handle, read_world]
    rfl
  rw [hread]
  cases e.fault with
  | failed text => exact hnone
  | lost text => exact hnone
  | ok =>
    cases (s.world.db.data.get id').map StatechainData.authXonlyPublicKey with
    | none => exact hnone
    | some authKey => exact hchecked authKey

theorem wpIf_authenticated {secp : Secp (Point E) (ZMod n)} {authSig id' : String}
    {f : ℕ → Bool → Endpoint E Answer} (hsame : ∀ answer, post answer s)
    (hf : ∀ data, s.world.db.data.get id' = some data →
      ∀ verified, wpIf (handle enclave) (Careful enclave id) post (f data.enclaveIndex verified) s) :
    wpIf (handle enclave) (Careful enclave id) post (do
      match ← getEnclaveIndexFromDatabase id' with
      | none => return enclaveIndexNotFound id'
      | some enclaveIndex =>
        (.call (.lockboxEndpoint enclaveIndex) Prog.unwrap : Endpoint E Unit)
        let verified ← validateSignature secp authSig id'
        f enclaveIndex verified) s := by
  refine fun e _ => wpIf_read (hsame none) (fun index hindex => ?_)
  rw [Option.some.injEq] at hindex
  cases hdata : s.world.db.data.get id' with
  | none =>
    rw [← hindex, hdata]
    exact hsame _
  | some data =>
    rw [← hindex, hdata, Option.map_some]
    intro e' _
    have hread : handle enclave e' (.lockboxEndpoint data.enclaveIndex) s =
        (s.world.enclaves[data.enclaveIndex]?.map (fun _ => ()), s) := rfl
    rw [hread]
    cases s.world.enclaves[data.enclaveIndex]? with
    | none => exact hsame none
    | some table => exact wpIf_validateSignature (hsame none) (hf data hdata)

end Reads

section Frame

variable {s' : Store E} {data : StatechainData (Point E)} {row : Row E} {seckey : ZMod n}

theorem Agrees.congr (h : Agrees enclave id s data row seckey) (hdata : s'.world.db.data = s.world.db.data)
    (htransfers : s'.world.db.transfers = s.world.db.transfers)
    (hsignatures : signaturesOf s'.world.db id = signaturesOf s.world.db id)
    (hrow : coinRow s'.world data.enclaveIndex id = coinRow s.world data.enclaveIndex id)
    (hissued : issuedOf id s' = issuedOf id s) : Agrees enclave id s' data row seckey where
  hasData := by rw [hdata, h.hasData]
  hasRow := hrow.trans h.hasRow
  key := h.key
  nonzero := h.nonzero
  x1 := by
    rw [htransfers]
    exact h.x1
  distinct := by
    rw [hsignatures]
    exact h.distinct
  pending := by
    rw [hsignatures]
    exact h.pending
  issued := by
    rw [hsignatures, hissued]
    exact h.issued
  count := by
    rw [hissued]
    exact h.count

theorem inv_issued_of_ne {issued : List (String × String × String)} (h : Inv enclave id s)
    (hissued : ∀ signed ∈ issued, signed.1 ≠ id) : Inv enclave id ⟨s.world, issued ++ s.issued⟩ := by
  obtain ⟨data, row, seckey, h⟩ := h
  have hnone : issued.filter (fun signed => signed.1 == id) = [] := by
    rw [List.filter_eq_nil_iff]
    intro signed hsigned
    simpa using hissued signed hsigned
  refine ⟨data, row, seckey, h.congr rfl rfl rfl rfl ?_⟩
  rw [issuedOf, List.filter_append, hnone]
  rfl

theorem inv_lockbox_of_ne {index : ℕ} {table table' : List (Row E)} (h : Inv enclave id s)
    (htable : s.world.enclaves[index]? = some table) (hsame : storedRow table' id = storedRow table id) :
    Inv enclave id ⟨{ s.world with enclaves := s.world.enclaves.set index table' }, s.issued⟩ := by
  obtain ⟨data, row, seckey, h⟩ := h
  exact ⟨data, row, seckey, h.congr rfl rfl rfl (coinRow_set_of_same htable hsame) rfl⟩

theorem inv_insert_of_ne {id' serverPubnonce : String} (h : Inv enclave id s) (hne : id ≠ id') :
    Inv enclave id ⟨{ s.world with db := s.world.db.insertNewSignatureData id' serverPubnonce }, s.issued⟩ := by
  obtain ⟨data, row, seckey, h⟩ := h
  exact ⟨data, row, seckey, h.congr rfl rfl (signaturesOf_insert_of_ne _ hne) rfl rfl⟩

theorem inv_update_of_ne {id' serverPubnonce challenge : String} (h : Inv enclave id s) (hne : id ≠ id') :
    Inv enclave id
      ⟨{ s.world with db := s.world.db.updateSignatureDataChallenge id' serverPubnonce challenge }, s.issued⟩ := by
  obtain ⟨data, row, seckey, h⟩ := h
  exact ⟨data, row, seckey, h.congr rfl rfl (signaturesOf_update_of_ne _ hne) rfl rfl⟩

end Frame

section First

variable {data : StatechainData (Point E)} {row : Row E} {seckey : ZMod n}

theorem generatedNonce_spec {draw : Draw n} {table : List (Row E)} {nonce : SecNonce (Point E) (ZMod n)}
    (hrow : storedRow table id = some row) (hkey : row.sealedKeypair.bind enclave.keypairs.unlock = some seckey)
    (h : generatedNonce enclave draw table id = some nonce) :
    nonce.k0 ≠ 0 ∧ nonce.pk = enclave.params.publicKey seckey := by
  simp only [generatedNonce] at h
  cases hload : loadGeneratedKeyData draw.load table id with
  | error text =>
    rw [hload] at h
    cases h
  | ok row' =>
    have hsame := storedRow_of_load hload
    rw [hrow, Option.some.injEq] at hsame
    subst hsame
    rw [hload] at h
    simp only [hkey, Option.map_some, Option.some.injEq] at h
    subst h
    exact ⟨(enclave.nonceGen draw.sessionId seckey).1.2, rfl⟩

/-- A new nonce in the lockbox does no harm while no signature is in progress. -/
theorem agrees_withNonce {draw : Draw n} {table table' : List (Row E)} {nonce : SecNonce (Point E) (ZMod n)}
    (h : Agrees enclave id s data row seckey) (hsettled : ∀ signature ∈ signaturesOf s.world.db id, signature.challenge ≠ none)
    (htable : s.world.enclaves[data.enclaveIndex]? = some table)
    (hrow' : storedRow table' id = some (withNonce enclave draw row nonce)) :
    Agrees enclave id ⟨{ s.world with enclaves := s.world.enclaves.set data.enclaveIndex table' }, s.issued⟩ data
      (withNonce enclave draw row nonce) seckey where
  hasData := h.hasData
  hasRow := by rw [coinRow_set htable, hrow']
  key := h.key
  nonzero := h.nonzero
  x1 := h.x1
  distinct := h.distinct
  pending := fun signature hsignature hnone => absurd hnone (hsettled signature hsignature)
  issued := h.issued
  count := h.count

theorem agrees_insert {serverPubnonce : String} {nonce : SecNonce (Point E) (ZMod n)}
    (h : Agrees enclave id s data row seckey)
    (hsettled : ∀ signature ∈ signaturesOf s.world.db id, signature.challenge ≠ none)
    (hnew : serverPubnonce ∉ (signaturesOf s.world.db id).map SignatureData.serverPubnonce)
    (hnonce : NonceHeld enclave row seckey serverPubnonce nonce) :
    Agrees enclave id ⟨{ s.world with db := s.world.db.insertNewSignatureData id serverPubnonce }, s.issued⟩ data row
      seckey where
  hasData := h.hasData
  hasRow := h.hasRow
  key := h.key
  nonzero := h.nonzero
  x1 := h.x1
  distinct := by
    rw [signaturesOf_insert, List.map_append, List.map_singleton, List.nodup_append]
    refine ⟨h.distinct, List.nodup_singleton _, fun text htext text' htext' heq => hnew ?_⟩
    have htext' : text' = serverPubnonce := List.mem_singleton.mp htext'
    rw [← htext', ← heq]
    exact htext
  pending := by
    rw [signaturesOf_insert]
    intro signature hsignature hnone
    obtain hold | hlast := List.mem_append.mp hsignature
    · exact absurd hnone (hsettled signature hold)
    · rw [List.mem_singleton] at hlast
      subst hlast
      exact ⟨nonce, hnonce⟩
  issued := by
    rw [signaturesOf_insert, List.filterMap_append]
    exact (List.append_nil _).symm ▸ h.issued
  count := h.count

theorem wpIf_insert {id' serverPubnonce : String} (h : Inv enclave id s)
    (hinsert : Inv enclave id
      ⟨{ s.world with db := s.world.db.insertNewSignatureData id' serverPubnonce }, s.issued⟩) (text : String) :
    wpIf (handle enclave) (Careful enclave id) (fun _ s' => Inv enclave id s') (do
      (.call (.insertNewSignatureData serverPubnonce id') Prog.unwrap : Endpoint E Unit)
      return pubnonceAnswer text) s := by
  intro e _
  have hwrite : handle enclave e (.insertNewSignatureData serverPubnonce id') s =
      ((Database.write e.fault s.world (some (s.world.db.insertNewSignatureData id' serverPubnonce))).1,
        ⟨(Database.write e.fault s.world (some (s.world.db.insertNewSignatureData id' serverPubnonce))).2,
          s.issued⟩) := rfl
  rw [hwrite]
  cases e.fault with
  | ok => exact hinsert
  | failed text => exact h
  | lost text => exact hinsert

theorem wpIf_requestNonce {id' : String} {data' : StatechainData (Point E)} (h : Inv enclave id s)
    (hdata' : s.world.db.data.get id' = some data')
    (hsettled : id' = id → ∀ signature ∈ signaturesOf s.world.db id, signature.challenge ≠ none) :
    wpIf (handle enclave) (Careful enclave id) (fun _ s' => Inv enclave id s')
      (requestNonce id' data'.enclaveIndex) s := by
  intro e hcareful
  have hcall : handle enclave e (.lockbox data'.enclaveIndex (.getPublicNonce id')) s =
      ((callLockbox enclave e s.world data'.enclaveIndex (.getPublicNonce id')).1,
        ⟨(callLockbox enclave e s.world data'.enclaveIndex (.getPublicNonce id')).2, s.issued⟩) := rfl
  rw [hcall]
  obtain ⟨hsame, hbody⟩ | ⟨table, htable, hlockbox⟩ :=
    callLockbox_cases enclave e s.world data'.enclaveIndex (.getPublicNonce id')
  · rw [hsame]
    cases hreply : (callLockbox enclave e s.world data'.enclaveIndex (.getPublicNonce id')).1 with
    | failed text => exact h
    | unreadable => exact h
    | body body => exact absurd hreply (hbody body)
  rw [hlockbox]
  have heffect := generatePublicNonce_effect enclave e.draw table id'
  change NonceEffect enclave e.draw table id'
    (Lockbox.Server.handle enclave e.draw table (.getPublicNonce id')) at heffect
  have hafter : ∀ {s' : Store E}, Inv enclave id s' →
      (∀ body text, httpReply .delivered (Lockbox.Server.handle enclave e.draw table (.getPublicNonce id')).2 =
        .body body → bodyField "server_pubnonce" body = some text →
        Inv enclave id
          ⟨{ s'.world with db := s'.world.db.insertNewSignatureData id' (strip0x text) }, s'.issued⟩) →
      wpIf (handle enclave) (Careful enclave id) (fun _ s' => Inv enclave id s')
        (relayNonce id' (httpReply e.link (Lockbox.Server.handle enclave e.draw table (.getPublicNonce id')).2)) s' := by
    intro s' hs' hinsert
    cases hreply : httpReply e.link (Lockbox.Server.handle enclave e.draw table (.getPublicNonce id')).2 with
    | failed text => exact hs'
    | unreadable => exact hs'
    | body body =>
      cases hfield : bodyField "server_pubnonce" body with
      | none =>
        simp only [relayNonce, hfield]
        exact hs'
      | some text =>
        simp only [relayNonce, hfield]
        exact wpIf_insert hs' (hinsert body text (httpReply_delivered hreply) hfield) text
  cases heffect with
  | refused hsame hanswer =>
    rw [hsame, set_of_getElem? htable]
    refine hafter h (fun body text hbody hfield => ?_)
    rw [bodyField_of_namesField hanswer hbody] at hfield
    cases hfield
  | made row nonce hrow hgenerated hrow' hothers hanswer =>
    by_cases hid : id' = id
    · subst hid
      obtain ⟨data, row0, seckey, hagrees⟩ := h
      have hdata := hagrees.hasData
      rw [hdata', Option.some.injEq] at hdata
      subst hdata
      have hrow0 := hagrees.hasRow
      rw [coinRow, htable, Option.bind_some, hrow, Option.some.injEq] at hrow0
      subst hrow0
      have hnew := agrees_withNonce hagrees (hsettled rfl) htable hrow'
      refine hafter ⟨data', _, seckey, hnew⟩ (fun body text hbody hfield => ?_)
      obtain hanswer | ⟨-, hanswer⟩ := hanswer
      · rw [hanswer] at hbody
        cases hbody
        cases hfield
        obtain ⟨hk0, hpk⟩ := generatedNonce_spec hrow hagrees.key hgenerated
        refine ⟨data', _, seckey, agrees_insert hnew (hsettled rfl) ?_ ⟨?_, hk0, hpk, ?_⟩⟩
        · rw [strip0x_keyToString]
          exact hcareful.1 _ rfl rfl table htable nonce hgenerated
        · simp only [storedNonce, withNonce, Option.bind_some, enclave.secnonces.unlock_lock]
        · exact strip0x_keyToString _
      · rw [bodyField_of_namesField hanswer hbody] at hfield
        cases hfield
    · have hnew := inv_lockbox_of_ne h htable (hothers id (Ne.symm hid))
      exact hafter hnew (fun body text hbody hfield => inv_insert_of_ne hnew (Ne.symm hid))

theorem wpIf_signFirst (payload : SignFirstRequestPayload) (h : Inv enclave id s) :
    wpIf (handle enclave) (Careful enclave id) (fun _ s' => Inv enclave id s')
      (signFirst enclave.params.secp payload) s := by
  refine wpIf_authenticated (fun _ => h) (fun data hdata verified => ?_)
  cases verified with
  | false => exact h
  | true =>
    refine fun e _ => wpIf_read h (fun pending hpending => ?_)
    cases pending with
    | some serverPubnonce => exact h
    | none =>
      refine wpIf_requestNonce h hdata (fun hid signature hsignature => ?_)
      rw [hid] at hpending
      exact challenge_of_none _ (Option.some.inj hpending) hsignature

end First

section Second

variable {data : StatechainData (Point E)} {row : Row E} {seckey : ZMod n} {payload : PartialSignatureRequestPayload}

theorem challengeOfSession_spec {params : Params n E} {session challenge : String}
    (h : challengeOfSession params session = some challenge) :
    ∃ data, (parseHex session).length = 133 ∧ params.sessionBytes.decode (parseHex session) = some data ∧
      challenge = params.secp.secretHex data.challenge := by
  simp only [challengeOfSession, Option.bind_eq_bind, Option.bind_eq_some_iff, Option.filter_eq_some_iff,
    decide_eq_true_eq] at h
  obtain ⟨bytes, ⟨hbytes, hlength⟩, data, hdata, hchallenge⟩ := h
  rw [parseHex_of_decode hbytes]
  exact ⟨data, hlength, hdata, (Option.some.inj hchallenge).symm⟩

/-- The signatures in progress have one nonce, that of the lockbox. -/
theorem pending_unique {signature signature' : SignatureData} (h : Agrees enclave id s data row seckey)
    (hmem : signature ∈ signaturesOf s.world.db id) (hnone : signature.challenge = none)
    (hmem' : signature' ∈ signaturesOf s.world.db id) (hnone' : signature'.challenge = none) :
    signature' = signature := by
  obtain ⟨nonce, hnonce⟩ := h.pending signature hmem hnone
  obtain ⟨nonce', hnonce'⟩ := h.pending signature' hmem' hnone'
  have hsame := hnonce.stored
  rw [hnonce'.stored, Option.some.injEq] at hsame
  subst hsame
  exact List.inj_on_of_nodup_map h.distinct hmem' hmem (hnonce'.text.trans hnonce.text.symm)

theorem audited_setChallenge {rows : List SignatureData} {signature : SignatureData} {challenge : String}
    (hid : ∀ signature ∈ rows, signature.statechainId = id)
    (hdistinct : (rows.map SignatureData.serverPubnonce).Nodup) (hmem : signature ∈ rows)
    (hnone : signature.challenge = none) :
    ((rows.map (Db.setChallenge id signature.serverPubnonce challenge)).filterMap audited).Perm
      ((signature.serverPubnonce, challenge) :: rows.filterMap audited) := by
  obtain ⟨before, after, rfl⟩ := List.append_of_mem hmem
  rw [List.map_append, List.map_cons, List.nodup_append, List.nodup_cons] at hdistinct
  obtain ⟨-, ⟨hafter, -⟩, hbefore⟩ := hdistinct
  have hother : ∀ rows : List SignatureData, signature.serverPubnonce ∉ rows.map SignatureData.serverPubnonce →
      rows.map (Db.setChallenge id signature.serverPubnonce challenge) = rows := by
    intro rows hrows
    conv_rhs => rw [← List.map_id rows]
    apply List.map_congr_left
    intro signature' hsignature'
    rw [Db.setChallenge, if_neg, id_eq]
    rintro ⟨-, hsame⟩
    exact hrows (hsame ▸ List.mem_map_of_mem hsignature')
  have hset : Db.setChallenge id signature.serverPubnonce challenge signature =
      { signature with challenge := some challenge } := by
    rw [Db.setChallenge, if_pos ⟨hid signature hmem, rfl⟩]
  have hnew : audited { signature with challenge := some challenge } = some (signature.serverPubnonce, challenge) := rfl
  have hold : audited signature = none := by rw [audited, hnone, Option.map_none]
  rw [List.map_append, List.map_cons, hset, hother after hafter,
    hother before (fun hsame => hbefore _ hsame _ List.mem_cons_self rfl), List.filterMap_append,
    List.filterMap_append, List.filterMap_cons_some hnew, List.filterMap_cons_none hold]
  exact List.perm_middle

/-- After its challenge is stored and the lockbox has signed it, the signature is in the audit. -/
theorem agrees_signed {table table' : List (Row E)} {signature : SignatureData} {challenge : String}
    (h : Agrees enclave id s data row seckey) (hmem : signature ∈ signaturesOf s.world.db id)
    (hnone : signature.challenge = none) (htable : s.world.enclaves[data.enclaveIndex]? = some table)
    (hrow' : storedRow table' id = some { row with sigCount := row.sigCount + 1 }) :
    Agrees enclave id
      ⟨⟨s.world.db.updateSignatureDataChallenge id signature.serverPubnonce challenge,
          s.world.enclaves.set data.enclaveIndex table', s.world.now⟩,
        (id, signature.serverPubnonce, challenge) :: s.issued⟩ data
      { row with sigCount := row.sigCount + 1 } seckey where
  hasData := h.hasData
  hasRow := (coinRow_set (w := s.world) htable).trans hrow'
  key := h.key
  nonzero := h.nonzero
  x1 := h.x1
  distinct := by
    have hkept : (signaturesOf s.world.db id).map
        (SignatureData.serverPubnonce ∘ Db.setChallenge id signature.serverPubnonce challenge) =
          (signaturesOf s.world.db id).map SignatureData.serverPubnonce := by
      apply List.map_congr_left
      intro signature' _
      rw [Function.comp_apply, Db.setChallenge]
      split <;> rfl
    rw [signaturesOf_update, List.map_map, hkept]
    exact h.distinct
  pending := by
    rw [signaturesOf_update]
    intro signature' hsignature' hnone'
    obtain ⟨old, hold, rfl⟩ := List.mem_map.mp hsignature'
    rw [Db.setChallenge] at hnone'
    split_ifs at hnone' with hnamed
    have hsame := pending_unique h hmem hnone hold hnone'
    subst hsame
    exact absurd ⟨statechainId_of_mem hold, rfl⟩ hnamed
  issued := by
    have hissued : issuedOf id ⟨⟨s.world.db.updateSignatureDataChallenge id signature.serverPubnonce challenge,
        s.world.enclaves.set data.enclaveIndex table', s.world.now⟩,
        (id, signature.serverPubnonce, challenge) :: s.issued⟩ =
          (signature.serverPubnonce, challenge) :: issuedOf id s := by
      simp [issuedOf]
    rw [hissued, signaturesOf_update]
    exact (audited_setChallenge (fun _ => statechainId_of_mem) h.distinct hmem hnone).trans (h.issued.cons _)
  count := by
    simp [issuedOf, h.count]

def partialSignatureRequest (payload : PartialSignatureRequestPayload) : Request :=
  .getPartialSignature payload.statechainId (Int64.ofNat payload.negateSeckey.toNat) payload.session

theorem wpIf_requestSignature {index : ℕ}
    (h : ∀ e, Careful enclave id e (.lockbox index (partialSignatureRequest payload)) s →
      Inv enclave id (handle enclave e (.lockbox index (partialSignatureRequest payload)) s).2) :
    wpIf (handle enclave) (Careful enclave id) (fun _ s' => Inv enclave id s') (requestSignature payload index) s := by
  intro e hcareful
  have hafter := h e hcareful
  have hrelay : ∀ reply : HttpReply, wpIf (handle enclave) (Careful enclave id) (fun _ s' => Inv enclave id s')
      (relaySignature reply) (handle enclave e (.lockbox index (partialSignatureRequest payload)) s).2 := by
    intro reply
    cases reply with
    | failed text => exact hafter
    | unreadable => exact hafter
    | body body =>
      cases hfield : bodyField "partial_sig" body with
      | none =>
        simp only [relaySignature, hfield]
        exact hafter
      | some partialSig =>
        simp only [relaySignature, hfield]
        exact hafter
  exact hrelay _

theorem statechain_of_issuedBy {e : Choice n} {w : World E} {index : ℕ} {signed : String × String × String}
    (h : signed ∈ issuedBy enclave e w (.lockbox index (partialSignatureRequest payload))) :
    signed.1 = payload.statechainId := by
  simp only [issuedBy, partialSignatureRequest] at h
  split at h
  · split_ifs at h
    · obtain ⟨_, -, rfl⟩ := List.mem_map.mp h
      rfl
    · cases h
  · cases h

theorem inv_signature_of_ne {index : ℕ} {e : Choice n} (h : Inv enclave id s) (hne : payload.statechainId ≠ id) :
    Inv enclave id (handle enclave e (.lockbox index (partialSignatureRequest payload)) s).2 := by
  have hissued : ∀ signed ∈ issuedBy enclave e s.world (.lockbox index (partialSignatureRequest payload)),
      signed.1 ≠ id := fun signed hsigned => (statechain_of_issuedBy hsigned) ▸ hne
  obtain ⟨hsame, -⟩ | ⟨table, htable, hlockbox⟩ :=
    callLockbox_cases enclave e s.world index (partialSignatureRequest payload)
  · simp only [handle, Database.handle, hsame]
    exact inv_issued_of_ne h hissued
  · simp only [handle, Database.handle, hlockbox]
    refine inv_issued_of_ne (s := ⟨_, s.issued⟩) (inv_lockbox_of_ne h htable ?_) hissued
    cases getPartialSignature_effect enclave e.draw table payload.statechainId payload.session
        (Int64.ofNat payload.negateSeckey.toNat) with
    | refused hsame _ => exact congrArg (fun table => storedRow table id) hsame
    | signed row nonce challenge hrow hsigned hrow' hothers hanswer => exact hothers id hne.symm

theorem callLockbox_of_reached {e : Choice n} {w : World E} {index : ℕ} {table : List (Row E)} {request : Request}
    (hlink : reached e.link = true) (htable : w.enclaves[index]? = some table) :
    (callLockbox enclave e w index request).2 =
      { w with enclaves := w.enclaves.set index (Lockbox.Server.handle enclave e.draw table request).1 } := by
  cases hcase : e.link with
  | unreachable text =>
    rw [hcase] at hlink
    cases hlink
  | delivered | lost text | cut => simp only [callLockbox, hcase, htable]

omit [DecidableEq E] in
theorem signedWith_of_stored {draw : Draw n} {table : List (Row E)} {session : Bytes}
    {nonce : SecNonce (Point E) (ZMod n)} {data : Session (ZMod n)} (hload : draw.load = .ok)
    (hrow : storedRow table id = some row) (hnonce : storedNonce enclave row = some nonce)
    (hdecode : enclave.params.sessionBytes.decode session = some data) :
    signedWith enclave draw table id session = some (nonce, data.challenge) := by
  rw [storedRow] at hrow
  simp only [signedWith, loadGeneratedKeyData, hload, hrow, hnonce, hdecode]
  rfl

/-- Once the challenge is stored, a lockbox that is reached signs it. -/
theorem inv_signature {e : Choice n} {signature : SignatureData} {challenge : String}
    (h : Agrees enclave payload.statechainId s data row seckey)
    (hmem : signature ∈ signaturesOf s.world.db payload.statechainId) (hnone : signature.challenge = none)
    (hchallenge : challengeOfSession enclave.params payload.session = some challenge)
    (hlink : reached e.link = true) (hload : e.draw.load = .ok) (hstore : e.draw.store = .ok) :
    Inv enclave payload.statechainId
      (handle enclave e (.lockbox data.enclaveIndex (partialSignatureRequest payload))
        ⟨{ s.world with
            db := s.world.db.updateSignatureDataChallenge payload.statechainId signature.serverPubnonce challenge },
          s.issued⟩).2 := by
  obtain ⟨nonce, hnonce⟩ := h.pending signature hmem hnone
  obtain ⟨session, hlength, hdecode, rfl⟩ := challengeOfSession_spec hchallenge
  obtain ⟨table, htable, hrow⟩ := Option.bind_eq_some_iff.mp h.hasRow
  have hsuccess : isSuccess (Lockbox.Server.handle enclave e.draw table (.getPartialSignature payload.statechainId
      (Int64.ofNat payload.negateSeckey.toNat) payload.session)).2 = true :=
    getPartialSignature_success hrow h.key h.nonzero hnonce.stored hnonce.k0 hnonce.pk hlength hdecode hload hstore
  have hsigned := signedWith_of_stored hload hrow hnonce.stored hdecode
  have hentry : (payload.statechainId, entry enclave (nonce, session.challenge)) =
      (payload.statechainId, signature.serverPubnonce, enclave.params.secp.secretHex session.challenge) := by
    rw [entry, hnonce.text]
  have hissued : issuedBy enclave e { s.world with
      db := s.world.db.updateSignatureDataChallenge payload.statechainId signature.serverPubnonce
        (enclave.params.secp.secretHex session.challenge) }
      (.lockbox data.enclaveIndex (partialSignatureRequest payload)) =
        [(payload.statechainId, signature.serverPubnonce, enclave.params.secp.secretHex session.challenge)] := by
    simp only [issuedBy, partialSignatureRequest, hlink, htable, hsuccess, if_true, hsigned, Option.toList_some,
      List.map_singleton, hentry]
  cases getPartialSignature_effect enclave e.draw table payload.statechainId payload.session
      (Int64.ofNat payload.negateSeckey.toNat) with
  | refused _ hanswer =>
    rw [hsuccess] at hanswer
    cases hanswer
  | signed row0 nonce0 challenge0 hrow0 _ hrow' _ _ =>
    rw [hrow, Option.some.injEq] at hrow0
    subst hrow0
    refine ⟨data, { row with sigCount := row.sigCount + 1 }, seckey, ?_⟩
    simp only [handle, Database.handle, hissued]
    rw [callLockbox_of_reached hlink]
    · exact agrees_signed h hmem hnone htable hrow'
    · exact htable

theorem wpIf_signSecond (payload : PartialSignatureRequestPayload) (h : Inv enclave id s) :
    wpIf (handle enclave) (Careful enclave id) (fun _ s' => Inv enclave id s') (signSecond enclave.params payload)
      s := by
  refine wpIf_authenticated (fun _ => h) (fun data hdata verified => ?_)
  cases verified with
  | false => exact h
  | true =>
    cases hchallenge : challengeOfSession enclave.params payload.session with
    | none => exact h
    | some challenge =>
      intro e hcareful
      have hwrite : handle enclave e
          (.updateSignatureDataChallenge payload.serverPubNonce challenge payload.statechainId) s =
          ((Database.write e.fault s.world (some (s.world.db.updateSignatureDataChallenge payload.statechainId
              payload.serverPubNonce challenge))).1,
            ⟨(Database.write e.fault s.world (some (s.world.db.updateSignatureDataChallenge payload.statechainId
              payload.serverPubNonce challenge))).2, s.issued⟩) := rfl
      rw [hwrite]
      by_cases hid : payload.statechainId = id
      · subst hid
        obtain ⟨hconfirmed, signature, hmem, hnamed, hnone⟩ := hcareful.2.1 _ rfl rfl
        obtain ⟨data0, row, seckey, hagrees⟩ := h
        have hdata0 := hagrees.hasData
        rw [hdata, Option.some.injEq] at hdata0
        subst hdata0
        cases hfault : e.fault with
        | ok =>
          rw [show payload.serverPubNonce = signature.serverPubnonce from hnamed.symm]
          refine wpIf_requestSignature (fun e' hcareful' => ?_)
          obtain ⟨hlink, hload, hstore⟩ := hcareful'.2.2 rfl
          exact inv_signature hagrees hmem hnone hchallenge hlink hload hstore
        | failed text => exact ⟨data, row, seckey, hagrees⟩
        | lost text =>
          rw [hfault] at hconfirmed
          cases hconfirmed
      · cases e.fault with
        | ok =>
          exact wpIf_requestSignature (fun e' _ => inv_signature_of_ne (inv_update_of_ne h (Ne.symm hid)) hid)
        | failed text => exact h
        | lost text => exact inv_update_of_ne h (Ne.symm hid)

end Second

section Audit

variable {data : StatechainData (Point E)} {row : Row E} {seckey : ZMod n}

theorem mapM_toInfo {rows : List SignatureData} (h : ∀ row ∈ rows, row.challenge ≠ none) :
    ∃ info, rows.mapM SignatureData.toInfo = some info ∧
      info.map (fun row => (row.serverPubnonce, row.challenge)) = rows.filterMap audited := by
  induction rows with
  | nil => exact ⟨[], rfl, rfl⟩
  | cons row rows ih =>
    obtain ⟨info, hinfo, hrows⟩ := ih (fun row' hrow' => h row' (List.mem_cons_of_mem _ hrow'))
    obtain ⟨challenge, hchallenge⟩ := Option.ne_none_iff_exists'.mp (h row List.mem_cons_self)
    have hfirst : row.toInfo = some ⟨row.statechainId, row.serverPubnonce, challenge, row.txN⟩ := by
      rw [SignatureData.toInfo, hchallenge]
      rfl
    have haudited : audited row = some (row.serverPubnonce, challenge) := by
      rw [audited, hchallenge, Option.map_some]
    refine ⟨⟨row.statechainId, row.serverPubnonce, challenge, row.txN⟩ :: info, ?_, ?_⟩
    · rw [List.mapM_cons, hfirst, hinfo]
      rfl
    · rw [List.map_cons, hrows, List.filterMap_cons_some haudited]

theorem statechainInfoOf_spec {P : Type} {db : Db P} (h : ∀ row ∈ signaturesOf db id, row.challenge ≠ none) :
    ∃ info, db.statechainInfoOf id = some info ∧
      (info.map (fun row => (row.serverPubnonce, row.challenge))).Perm ((signaturesOf db id).filterMap audited) := by
  obtain ⟨info, hinfo, hrows⟩ := mapM_toInfo h
  refine ⟨info.insertionSort (fun a b => a.txN ≤ b.txN), ?_, ?_⟩
  · rw [Db.statechainInfoOf, ← signaturesOf, hinfo, Option.map_some]
  · rw [← hrows]
    exact (List.perm_insertionSort _ info).map _

/-- Without a signature in progress the rows, the signatures and the count are one. -/
theorem audited_of_agrees (h : Agrees enclave id s data row seckey)
    (hsettled : ∀ row ∈ signaturesOf s.world.db id, row.challenge ≠ none) : Audited enclave id s := by
  intro choices hchoices
  obtain ⟨rows, hrows, hperm⟩ := statechainInfoOf_spec hsettled
  obtain ⟨table, htable, hrow⟩ := Option.bind_eq_some_iff.mp h.hasRow
  have hissued := hperm.trans h.issued
  have hcount : row.sigCount = rows.length := by
    rw [h.count, ← hissued.length_eq, List.length_map]
  have hreports : ∀ x1Pub, Reports id s (some ⟨200, .statechainInfo
      { enclavePublicKey := enclave.params.secp.publicKeyToStr data.serverPublicKey
        numSigs := row.sigCount.toUInt32
        statechainInfo := rows
        x1Pub := x1Pub }⟩) := fun _ => ⟨_, rfl, hissued, congrArg Nat.toUInt32 hcount⟩
  suffices hinfo : wpIf (Database.handle enclave) (fun e _ _ => Faultless e) (fun answer _ => Reports id s answer)
      (statechainInfo enclave.params.secp id) s.world by
    exact exec_of_wpIf hinfo (admits_of_forall hchoices)
  rintro e1 ⟨hfault1, -⟩
  simp only [Database.handle, hfault1, Database.read, h.hasData, Option.map_some]
  rintro e2 ⟨hfault2, -⟩
  simp only [Database.handle, hfault2, Database.read, h.hasData, Option.map_some]
  rintro e3 ⟨-, hlink3, hload3⟩
  have hcounted : countSignatures e3 s.world data.enclaveIndex id = .ok (some row.sigCount.toUInt32) := by
    rw [storedRow] at hrow
    simp only [countSignatures, hlink3, htable, loadGeneratedKeyData, hload3, hrow]
  simp only [Database.handle, hcounted]
  rintro e4 ⟨hfault4, -⟩
  simp only [Database.handle, hfault4, Database.read, hrows]
  rintro e5 ⟨hfault5, -⟩
  simp only [Database.handle, hfault5, Database.read]
  cases htransfer : s.world.db.transfers.get id with
  | none => exact hreports _
  | some transfer =>
    obtain ⟨secretX1, hsecret⟩ := Option.isSome_iff_exists.mp (h.x1 transfer htransfer)
    change wpIf _ _ _ ((some <$> Prog.unwrap (enclave.params.secp.secretKeyFromSlice transfer.x1)) >>= _) _
    rw [hsecret]
    exact hreports _

end Audit

theorem inv_step {event : Event n} (h : Inv enclave id s) (hcareful : CarefulEvent enclave id s event) :
    Inv enclave id (step enclave s event) := by
  cases event with
  | first payload choices => exact exec_of_wpIf (wpIf_signFirst payload h) hcareful
  | second payload choices => exact exec_of_wpIf (wpIf_signSecond payload h) hcareful
  | info id' => exact h

/-- With care, `/info/statechain` shows every signature that the lockbox has issued and no
other. -/
theorem audit_complete_of_careful {w : World E} {events later : List (Event n)} (hfresh : Fresh enclave id w)
    (h : Guarded (step enclave) (CarefulEvent enclave id) (init w) (events ++ .info id :: later)) :
    Audited enclave id (run (step enclave) (init w) events) := by
  obtain ⟨hbefore, hafter⟩ := guarded_append.mp h
  obtain ⟨data, row, seckey, hagrees⟩ := invariant_run (fun _ _ => inv_step) (inv_init hfresh) hbefore
  exact audited_of_agrees hagrees (hafter.1 rfl)

section Seven

def sevenFirst : Event 7 := .first ⟨"coin", sevenSignature 2⟩ (fun _ => steady)

def sevenSecond (challenge : UInt8) : Event 7 :=
  .second
    { statechainId := "coin"
      negateSeckey := 0
      session := Hex.encode ([0, 1, challenge, 0] ++ List.replicate 129 0)
      signedStatechainId := sevenSignature 2
      serverPubNonce := "0101" }
    (fun _ => steady)

theorem fresh_depositedCoin : Fresh sevenKeyring "coin" depositedCoin where
  held := by
    have hdata : (depositedCoin.db.data.get "coin").map StatechainData.enclaveIndex = some 0 := by decide +kernel
    obtain ⟨data, hdata, hindex⟩ := Option.map_eq_some_iff.mp hdata
    have hrow : (coinRow depositedCoin 0 "coin").map
        (fun row => (row.sealedKeypair.bind sevenKeyring.keypairs.unlock, row.sigCount)) = some (some 1, 0) := by
      decide +kernel
    obtain ⟨row, hrow, hkey⟩ := Option.map_eq_some_iff.mp hrow
    obtain ⟨hkey, hcount⟩ := Prod.mk.inj hkey
    exact ⟨data, row, 1, ⟨hdata, by rw [hindex, hrow], hkey, by decide⟩, hcount⟩
  x1 := by
    have hnone : depositedCoin.db.transfers.get "coin" = none := by decide +kernel
    intro transfer htransfer
    rw [hnone] at htransfer
    cases htransfer
  unsigned := by decide +kernel

theorem audit_complete_of_careful_seven :
    issuedOf "coin" (run (step sevenKeyring) (init depositedCoin) [sevenFirst, sevenSecond 5]) =
      [("0101", Hex.encode (b32 5))] ∧
    Audited sevenKeyring "coin" (run (step sevenKeyring) (init depositedCoin) [sevenFirst, sevenSecond 5]) := by
  have h : Guarded (step sevenKeyring) (CarefulEvent sevenKeyring "coin") (init depositedCoin)
        ([sevenFirst, sevenSecond 5] ++ .info "coin" :: []) ∧
      issuedOf "coin" (run (step sevenKeyring) (init depositedCoin) [sevenFirst, sevenSecond 5]) =
        [("0101", Hex.encode (b32 5))] := by decide +kernel
  exact ⟨h.2, audit_complete_of_careful fresh_depositedCoin h.1⟩

theorem faultless_calm (i : ℕ) : Faultless ((fun _ => steady : ℕ → Choice 7) i) := ⟨rfl, rfl, rfl⟩

/-- While the challenge is missing `/info/statechain` fails; and a nonce that is used again
leaves one row for two signatures. -/
theorem audit_incomplete_seven :
    ¬Audited sevenKeyring "coin" (run (step sevenKeyring) (init depositedCoin) [sevenFirst]) ∧
    ¬Audited sevenKeyring "coin"
      (run (step sevenKeyring) (init depositedCoin) [sevenFirst, sevenSecond 5, sevenSecond 3]) := by
  refine ⟨fun h => ?_, fun h => ?_⟩
  · obtain ⟨info, hinfo, -⟩ := h _ faultless_calm
    have hnone : (exec (Database.handle sevenKeyring) (statechainInfo sevenKeyring.params.secp "coin")
        (fun _ => steady) (run (step sevenKeyring) (init depositedCoin) [sevenFirst]).world).1 =
          none := by decide +kernel
    rw [hnone] at hinfo
    cases hinfo
  · obtain ⟨info, hinfo, hrows, -⟩ := h _ faultless_calm
    have hrun : (issuedOf "coin"
          (run (step sevenKeyring) (init depositedCoin) [sevenFirst, sevenSecond 5, sevenSecond 3])).length = 2 ∧
        (exec (Database.handle sevenKeyring) (statechainInfo sevenKeyring.params.secp "coin")
          (fun _ => steady)
          (run (step sevenKeyring) (init depositedCoin) [sevenFirst, sevenSecond 5, sevenSecond 3]).world).1 =
          some ⟨200, .statechainInfo ⟨seven.secp.publicKeyToStr (seven.publicKey 1), 2,
            [⟨"coin", "0101", Hex.encode (b32 3), 1⟩], none⟩⟩ := by decide +kernel
    rw [hrun.2] at hinfo
    cases hinfo
    have hlength := hrows.length_eq
    rw [hrun.1] at hlength
    cases hlength

end Seven

end MercuryLayer.Server.SignatureAudit
