import MercuryLayer.Server.Sign

namespace MercuryLayer.Server.PendingNonce

open Crates Library.Programs Library.Runs Library.Tables Library.XOnlyCurve Lockbox.Enclave Lockbox.KeyUpdate
open Lockbox.NonceUse Lockbox.Server Lockbox.Signing Musig.Session Receiver Server.Database Server.Effects
open Server.Sign Server.System Server.Transfer Server.Unlock MercuryLayer.Transaction

variable {n : ℕ} {E : Type} [AddCommGroup E] [Module (ZMod n) E] [DecidableEq E]

/-- A statechain and the lockbox that holds its share. -/
structure Place where
  statechainId : String
  enclaveIndex : ℕ

inductive Request
  | first (payload : SignFirstRequestPayload)
  | second (payload : PartialSignatureRequestPayload)
  | receiver (payload : TransferReceiverRequestPayload)

def Request.statechainId : Request → String
  | .first payload => payload.statechainId
  | .second payload => payload.statechainId
  | .receiver payload => payload.statechainId

variable (enclave : Keyring n E) (batchTimeout : ℕ) (place : Place)

abbrev CoinRequest : Type := { request : Request // request.statechainId = place.statechainId }

def program (request : CoinRequest place) : Endpoint E Answer :=
  match request.1 with
  | .first payload => signFirst enclave.params.secp payload
  | .second payload => signSecond enclave.params payload
  | .receiver payload => transferReceiver enclave.params.secp batchTimeout payload

def lockboxNonce (w : World E) : Option (Point E × Point E) :=
  (coinRow w place.enclaveIndex place.statechainId).bind Row.publicNonce

/-- The nonces of the signatures whose challenge is missing. -/
def pendingOf (w : World E) : List String :=
  ((signaturesOf w.db place.statechainId).filter (fun row => row.challenge.isNone)).map SignatureData.serverPubnonce

def txNs (w : World E) : List ℕ := (signaturesOf w.db place.statechainId).map (fun row => row.txN.toNat)

abbrev Race (E : Type) [AddCommGroup E] : Type := Config (Call E) Reply Answer (World E)

/-- The requests in flight and the nonces that `/sign/first` has returned, each with the nonce
in the lockbox at that moment. -/
structure State (E : Type) [AddCommGroup E] where
  race : Race E
  returned : List (String × Option (Point E × Point E))

def pubnonce? (answer : Answer) : Option String :=
  match answer.payload with
  | .fields [(name, .text value)] => if name = "server_pubnonce" then some value else none
  | _ => none

def answered (w : World E) : Endpoint E Answer → List (String × Option (Point E × Point E))
  | .ret answer => (pubnonce? answer).toList.map (fun serverPubnonce => (serverPubnonce, lockboxNonce place w))
  | _ => []

/-- What the request at place `i` returns when its call ends it. -/
def returnedBy (before after : Race E) (i : ℕ) : List (String × Option (Point E × Point E)) :=
  match before.threads[i]? with
  | some (.call _ _) => after.threads[i]?.elim [] (answered place after.store)
  | _ => []

inductive Event (n : ℕ) (place : Place)
  | thread (event : Library.Programs.Event (CoinRequest place) (Choice n))
  | tick (elapsed : ℕ)

/-- Requests for one statechain run side by side, call by call, while time passes. -/
def step (s : State E) : Event n place → State E
  | .thread event =>
    let race := s.race.step (program enclave batchTimeout place) (Database.handle enclave) event
    ⟨race, (match event with
      | .advance i _ => returnedBy place s.race race i
      | _ => []) ++ s.returned⟩
  | .tick elapsed =>
    ⟨{ s.race with store := { s.race.store with now := s.race.store.now + elapsed } }, s.returned⟩

def init (w : World E) : State E := ⟨⟨w, []⟩, []⟩

/-- Every nonce returned was that of the lockbox, at most one signature is in progress, and the
signatures are numbered from one. -/
structure Agreement (s : State E) : Prop where
  returned : ∀ answer ∈ s.returned, answer.2.map enclave.params.nonceText = some (strip0x answer.1)
  pending : (pendingOf place s.race.store).length ≤ 1
  numbered : txNs place s.race.store = List.range' 1 (signaturesOf s.race.store.db place.statechainId).length

section Guard

/-- The calls of a `/sign/first` request that has found no signature in progress. -/
def creates : Call E → Bool
  | .lockbox _ (.getPublicNonce _) | .insertNewSignatureData _ _ => true
  | _ => false

def tests : Call E → Bool
  | .getServerPubnonceFromNullChallenge _ => true
  | _ => false

def updatesKey : Call E → Bool
  | .lockbox _ (.keyupdate _ _ _) => true
  | _ => false

def inserts : Call E → Bool
  | .insertNewSignatureData _ _ => true
  | _ => false

/-- No other request is about to make a nonce or to store one. -/
def Alone (cfg : Race E) (i : ℕ) : Prop :=
  ∀ j < cfg.threads.length, j ≠ i → ∀ p ∈ cfg.threads[j]?, ∀ c ∈ p.next?, creates c = false

instance (cfg : Race E) (i : ℕ) : Decidable (Alone cfg i) :=
  inferInstanceAs (Decidable (∀ j < cfg.threads.length, j ≠ i → ∀ p ∈ cfg.threads[j]?, ∀ c ∈ p.next?, creates c = false))

/-- A request looks for a signature in progress only while no other one starts a signature, and
the key is updated only while none is in progress or started. -/
def CallOrderly (cfg : Race E) (i : ℕ) (c : Call E) : Prop :=
  (tests c = true → Alone cfg i) ∧
  (updatesKey c = true → pendingOf place cfg.store = [] ∧ Alone cfg i) ∧
  (inserts c = true → (signaturesOf cfg.store.db place.statechainId).length + 1 < 2 ^ 31)

instance (cfg : Race E) (i : ℕ) (c : Call E) : Decidable (CallOrderly place cfg i c) :=
  inferInstanceAs (Decidable (_ ∧ _ ∧ _))

def Orderly (s : State E) : Event n place → Prop
  | .thread (.advance i _) => ∀ p ∈ s.race.threads[i]?, ∀ c ∈ p.next?, CallOrderly place s.race i c
  | .thread (.start _) | .thread (.stop _) | .tick _ => True

instance (s : State E) (event : Event n place) : Decidable (Orderly place s event) :=
  match event with
  | .thread (.advance i _) =>
    inferInstanceAs (Decidable (∀ p ∈ s.race.threads[i]?, ∀ c ∈ p.next?, CallOrderly place s.race i c))
  | .thread (.start _) | .thread (.stop _) | .tick _ => isTrue trivial

end Guard

/-- The statechain has its share in the lockbox of its place. -/
def Fixed (w : World E) : Prop :=
  (w.db.data.get place.statechainId).map StatechainData.enclaveIndex = some place.enclaveIndex

/-- What requests do that do not start a signature: challenges may be filled in. -/
structure Keeps (w w' : World E) : Prop where
  index : (w'.db.data.get place.statechainId).map StatechainData.enclaveIndex =
    (w.db.data.get place.statechainId).map StatechainData.enclaveIndex
  numbers : txNs place w' = txNs place w
  pending : (pendingOf place w').Sublist (pendingOf place w)
  nonce : lockboxNonce place w' = lockboxNonce place w

def onPending (reply : Option (Option String)) : Endpoint E Answer := do
  match ← Prog.unwrap reply with
  | some serverPubnonce => return pubnonceAnswer serverPubnonce
  | none => requestNonce place.statechainId place.enclaveIndex

/-- A request that does not start a signature unless it first finds none in progress. -/
inductive Quiet : Endpoint E Answer → Prop
  | ret (answer : Answer) (hanswer : pubnonce? answer = none) : Quiet (.ret answer)
  | abort : Quiet .abort
  | keeps (c : Call E) (next : Reply c → Endpoint E Answer)
      (hkeeps : ∀ choice w, Keeps place w (Database.handle enclave choice c w).2)
      (hnext : ∀ choice w, Fixed place w → Quiet (next (Database.handle enclave choice c w).1)) :
      Quiet (.call c next)
  | keyupdate (index : ℕ) (id t2 x1 : String) (next : HttpReply → Endpoint E Answer)
      (hnext : ∀ reply, Quiet (next reply)) : Quiet (.call (.lockbox index (.keyupdate id t2 x1)) next)
  | test : Quiet (.call (.getServerPubnonceFromNullChallenge place.statechainId) (onPending place))

variable {enclave batchTimeout place}

section Keeps

variable {w w' : World E}

omit [Module (ZMod n) E] [DecidableEq E] in
theorem Keeps.refl (w : World E) : Keeps place w w := ⟨rfl, rfl, List.Sublist.refl _, rfl⟩

omit [Module (ZMod n) E] [DecidableEq E] in
theorem Keeps.fixed (h : Keeps place w w') (hfixed : Fixed place w) : Fixed place w' := h.index.trans hfixed

theorem keeps_of_readCall {c : Call E} (h : ReadCall enclave c) (choice : Choice n) (w : World E) :
    Keeps place w (Database.handle enclave choice c w).2 := by
  rw [h choice w]
  exact Keeps.refl w

omit [Module (ZMod n) E] [DecidableEq E] in
theorem keeps_write {fault : DbFault} {result : Option (Db (Point E))}
    (h : ∀ db, result = some db → Keeps place w { w with db := db }) : Keeps place w (write fault w result).2 := by
  cases result with
  | none => cases fault <;> exact Keeps.refl w
  | some db =>
    cases fault with
    | ok => exact h db rfl
    | failed text => exact Keeps.refl w
    | lost text => exact h db rfl

omit [Module (ZMod n) E] in
theorem keeps_updateStatechain {id : String} {authKey : Bytes} {serverPubkey : Point E} {db : Db (Point E)}
    (h : w.db.updateStatechain id authKey serverPubkey = some db) : Keeps place w { w with db := db } := by
  have hsame : signaturesOf db place.statechainId = signaturesOf w.db place.statechainId :=
    signaturesOf_updateStatechain h
  refine ⟨?_, ?_, ?_, rfl⟩
  · by_cases hid : place.statechainId = id
    · rw [Db.updateStatechain_data h, hid, Table.get_modify_self, Option.map_map]
      rfl
    · rw [Db.updateStatechain_data h, Table.get_modify_of_ne hid]
  · rw [txNs, hsame, txNs]
  · rw [pendingOf, hsame, ← pendingOf]

omit [Module (ZMod n) E] [DecidableEq E] in
theorem keeps_updateSignatureDataChallenge (id serverPubnonce challenge : String) :
    Keeps place w { w with db := w.db.updateSignatureDataChallenge id serverPubnonce challenge } := by
  refine ⟨rfl, ?_, ?_, rfl⟩
  · rw [txNs, signaturesOf_update, List.map_map, txNs]
    apply List.map_congr_left
    intro row _
    rw [Function.comp_apply, Db.setChallenge]
    split <;> rfl
  · rw [pendingOf, signaturesOf_update, pendingOf]
    induction signaturesOf w.db place.statechainId with
    | nil => exact List.Sublist.refl _
    | cons row rows ih =>
      rw [List.map_cons, Db.setChallenge]
      split_ifs
      · have hfilled : (({ row with challenge := some challenge } : SignatureData) ::
            rows.map (Db.setChallenge id serverPubnonce challenge)).filter (fun row => row.challenge.isNone) =
              (rows.map (Db.setChallenge id serverPubnonce challenge)).filter (fun row => row.challenge.isNone) :=
          List.filter_cons_of_neg Bool.false_ne_true
        rw [hfilled]
        refine ih.trans (List.Sublist.map _ ?_)
        exact (List.sublist_cons_self row rows).filter _
      · cases hrow : row.challenge.isNone with
        | true => simpa [List.filter_cons, hrow] using ih
        | false => simpa [List.filter_cons, hrow] using ih

omit [Module (ZMod n) E] [DecidableEq E] in
theorem lockboxNonce_set {index : ℕ} {table table' : List (Row E)} (htable : w.enclaves[index]? = some table)
    (hsame : (storedRow table' place.statechainId).bind Row.publicNonce =
      (storedRow table place.statechainId).bind Row.publicNonce) :
    lockboxNonce place { w with enclaves := w.enclaves.set index table' } = lockboxNonce place w := by
  by_cases hindex : index = place.enclaveIndex
  · subst hindex
    rw [lockboxNonce, coinRow_set htable, hsame, lockboxNonce, coinRow, htable, Option.bind_some]
  · rw [lockboxNonce, coinRow, List.getElem?_set_ne hindex, lockboxNonce, coinRow]

theorem keeps_getPartialSignature (choice : Choice n) (w : World E) (index : ℕ) (id session : String)
    (negateSeckey : Int64) :
    Keeps place w (Database.handle enclave choice (.lockbox index (.getPartialSignature id negateSeckey session)) w).2 := by
  simp only [Database.handle]
  obtain ⟨hsame, -⟩ | ⟨table, htable, hlockbox⟩ :=
    callLockbox_cases enclave choice w index (.getPartialSignature id negateSeckey session)
  · rw [hsame]
    exact Keeps.refl w
  · rw [hlockbox]
    refine ⟨rfl, rfl, List.Sublist.refl _, lockboxNonce_set htable ?_⟩
    cases getPartialSignature_effect enclave choice.draw table id session negateSeckey with
    | refused hsame _ => rw [hsame]
    | signed row nonce challenge hrow hsigned hrow' hothers hanswer =>
      by_cases hid : place.statechainId = id
      · rw [hid, hrow', hrow]
        rfl
      · rw [hothers _ hid]

end Keeps

section Quiet

variable {α : Type}

theorem quiet_of_reads {p : Endpoint E α} {f : α → Endpoint E Answer} (hp : Reads enclave p)
    (hf : ∀ a, Quiet enclave place (f a)) : Quiet enclave place (p >>= f) := by
  induction p with
  | ret a => exact hf a
  | abort => exact .abort
  | call c next ih => exact .keeps c _ (keeps_of_readCall hp.1) (fun _ _ _ => ih _ (hp.2 _))

theorem reads_validateSignature (secp : Secp (Point E) (ZMod n)) (authSig id : String) :
    Reads enclave (validateSignature secp authSig id : Endpoint E Bool) := by
  have hread : Reads enclave (getAuthKeyByStatechainId id : Endpoint E Bytes) :=
    ⟨fun _ _ => read_world _ _ _, Prog.only_unwrap⟩
  exact hread.bind (fun _ => Reads.bind (Prog.only_unwrap _) (fun _ => trivial))

theorem quiet_authenticated {secp : Secp (Point E) (ZMod n)} {authSig : String} {f : ℕ → Bool → Endpoint E Answer}
    (hf : ∀ verified, Quiet enclave place (f place.enclaveIndex verified)) :
    Quiet enclave place (do
      match ← getEnclaveIndexFromDatabase place.statechainId with
      | none => return enclaveIndexNotFound place.statechainId
      | some enclaveIndex =>
        (.call (.lockboxEndpoint enclaveIndex) Prog.unwrap : Endpoint E Unit)
        let verified ← validateSignature secp authSig place.statechainId
        f enclaveIndex verified) := by
  refine .keeps _ _ (keeps_of_readCall (fun _ _ => read_world _ _ _)) (fun choice w hfixed => ?_)
  simp only [Database.handle]
  rw [hfixed]
  cases choice.fault with
  | failed text => exact .abort
  | lost text => exact .abort
  | ok =>
    have hread : Reads enclave (.call (.lockboxEndpoint place.enclaveIndex) Prog.unwrap : Endpoint E Unit) :=
      ⟨fun _ _ => rfl, Prog.only_unwrap⟩
    have hchecked : Quiet enclave place
        (validateSignature secp authSig place.statechainId >>= f place.enclaveIndex) :=
      quiet_of_reads (reads_validateSignature secp authSig place.statechainId) hf
    have hnext : Quiet enclave place ((.call (.lockboxEndpoint place.enclaveIndex) Prog.unwrap : Endpoint E Unit) >>=
        fun _ => validateSignature secp authSig place.statechainId >>= f place.enclaveIndex) :=
      quiet_of_reads hread (fun _ => hchecked)
    exact hnext

theorem quiet_signFirst {payload : SignFirstRequestPayload} (hid : payload.statechainId = place.statechainId) :
    Quiet enclave place (signFirst enclave.params.secp payload) := by
  rw [signFirst, hid]
  refine quiet_authenticated (fun verified => ?_)
  cases verified with
  | false => exact .ret _ rfl
  | true => exact .test

theorem quiet_requestSignature (payload : PartialSignatureRequestPayload) (index : ℕ) :
    Quiet enclave place (requestSignature payload index : Endpoint E Answer) := by
  refine .keeps _ _ (fun choice w => keeps_getPartialSignature choice w index _ _ _) (fun choice w _ => ?_)
  cases (Database.handle enclave choice (.lockbox index (.getPartialSignature payload.statechainId
      (Int64.ofNat payload.negateSeckey.toNat) payload.session)) w).1 with
  | failed text => exact .ret _ rfl
  | unreadable => exact .abort
  | body body =>
    change Quiet enclave place (Prog.unwrap (bodyField "partial_sig" body) >>= _)
    cases bodyField "partial_sig" body with
    | none => exact .abort
    | some partialSig => exact .ret _ rfl

theorem quiet_signSecond {payload : PartialSignatureRequestPayload}
    (hid : payload.statechainId = place.statechainId) : Quiet enclave place (signSecond enclave.params payload) := by
  rw [signSecond, hid]
  refine quiet_authenticated (fun verified => ?_)
  cases verified with
  | false => exact .ret _ rfl
  | true =>
    refine quiet_of_reads (Prog.only_unwrap _) (fun challenge => ?_)
    refine .keeps _ _ (fun choice w => keeps_write (fun db hdb => ?_)) (fun choice w _ => ?_)
    · rw [← Option.some.inj hdb]
      exact keeps_updateSignatureDataChallenge _ _ _
    · cases (Database.handle enclave choice (.updateSignatureDataChallenge payload.serverPubNonce challenge
          place.statechainId) w).1 with
      | none => exact .abort
      | some done => exact quiet_requestSignature payload place.enclaveIndex

theorem quiet_storeKey (authPubkey : Bytes) (serverPubkey : Point E) (id : String) :
    Quiet enclave place (storeKey enclave.params.secp authPubkey id serverPubkey) := by
  refine .keeps (.updateStatechain authPubkey serverPubkey id) _
    (fun choice w => keeps_write (fun db hdb => keeps_updateStatechain hdb)) (fun choice w _ => ?_)
  cases (Database.handle enclave choice (.updateStatechain authPubkey serverPubkey id) w).1 with
  | none => exact .abort
  | some done => exact .ret _ rfl

theorem quiet_updateKey (payload : TransferReceiverRequestPayload) (authPubkey x1 : Bytes) :
    Quiet enclave place (updateKey enclave.params.secp payload authPubkey x1) := by
  have hread : Reads enclave (getEnclaveIndexFromDatabase payload.statechainId : Endpoint E (Option ℕ)) :=
    ⟨fun _ _ => read_world _ _ _, Prog.only_unwrap⟩
  refine quiet_of_reads hread (fun index => ?_)
  cases index with
  | none => exact .ret _ rfl
  | some index =>
    refine .keyupdate index _ _ _ _ (fun reply => ?_)
    cases reply with
    | failed text => exact .ret _ rfl
    | unreadable => exact .abort
    | body body =>
      change Quiet enclave place (Prog.unwrap (serverPubkeyOf enclave.params.secp body) >>= _)
      refine quiet_of_reads (Prog.only_unwrap _) (fun serverPubkey => ?_)
      exact quiet_storeKey authPubkey serverPubkey payload.statechainId

theorem quiet_transferReceiver (payload : TransferReceiverRequestPayload) :
    Quiet enclave place (transferReceiver enclave.params.secp batchTimeout payload) := by
  refine quiet_of_reads (reads_validateBatch payload.statechainId) (fun result => ?_)
  cases result with
  | statecoinBatchLockedError text => exact .ret _ rfl
  | expiredBatchTimeError text => exact .ret _ rfl
  | success =>
    have hread : Reads enclave (getAuthPubkeyAndX1 payload.statechainId : Endpoint E (Point E × Bytes)) :=
      ⟨fun _ _ => read_world _ _ _, Prog.only_unwrap⟩
    refine quiet_of_reads hread (fun row => quiet_of_reads (Prog.only_unwrap _) (fun signature => ?_))
    split_ifs
    · have hflag : Reads enclave (isKeyAlreadyUpdated payload.statechainId : Endpoint E Bool) :=
        ⟨fun _ _ => read_world _ _ _, Prog.only_unwrap⟩
      refine quiet_of_reads hflag (fun keyUpdated => ?_)
      cases keyUpdated with
      | true =>
        have hkey : Reads enclave (getServerPublicKey payload.statechainId : Endpoint E (Point E)) :=
          ⟨fun _ _ => read_world _ _ _, Prog.only_unwrap⟩
        exact quiet_of_reads hkey (fun serverPublicKey => .ret _ rfl)
      | false => exact quiet_updateKey payload _ _
    · exact .ret _ rfl

theorem quiet_program (request : CoinRequest place) :
    Quiet enclave place (program enclave batchTimeout place request) := by
  obtain ⟨request, hid⟩ := request
  cases request with
  | first payload => exact quiet_signFirst hid
  | second payload => exact quiet_signSecond hid
  | receiver payload => exact quiet_transferReceiver payload

end Quiet

section Insert

variable {w : World E}

def Numbered (place : Place) (w : World E) : Prop :=
  txNs place w = List.range' 1 (signaturesOf w.db place.statechainId).length

omit [Module (ZMod n) E] [DecidableEq E] in
theorem numbered_insert (serverPubnonce : String) (h : Numbered place w)
    (hlt : (signaturesOf w.db place.statechainId).length + 1 < 2 ^ 31) :
    Numbered place { w with db := w.db.insertNewSignatureData place.statechainId serverPubnonce } := by
  have hmax := toNat_maxTxN h
  have hnext : (w.db.maxTxN place.statechainId + 1).toNat =
      1 + (signaturesOf w.db place.statechainId).length := by
    rw [UInt32.toNat_add, hmax, UInt32.toNat_one]
    omega
  rw [Numbered, txNs, signaturesOf_insert, List.map_append, List.length_append, List.length_singleton,
    List.range'_1_concat, ← h, List.map_singleton, hnext]
  rfl

omit [Module (ZMod n) E] [DecidableEq E] in
theorem pendingOf_insert (serverPubnonce : String) :
    pendingOf place { w with db := w.db.insertNewSignatureData place.statechainId serverPubnonce } =
      pendingOf place w ++ [serverPubnonce] := by
  rw [pendingOf, signaturesOf_insert, List.filter_append, List.map_append, pendingOf]
  rfl

omit [Module (ZMod n) E] [DecidableEq E] in
theorem Keeps.numbered {w' : World E} (h : Keeps place w w') (hnumbered : Numbered place w) : Numbered place w' := by
  have hlength : (signaturesOf w'.db place.statechainId).length = (signaturesOf w.db place.statechainId).length := by
    have hnumbers := congrArg List.length h.numbers
    rwa [txNs, txNs, List.length_map, List.length_map] at hnumbers
  rw [Numbered, hlength, h.numbers]
  exact hnumbered

end Insert

section Phases

/-- A request with the nonce that the lockbox answered with. -/
def inserting (place : Place) (serverPubnonce : String) : Endpoint E Answer := do
  (.call (.insertNewSignatureData (strip0x serverPubnonce) place.statechainId) Prog.unwrap : Endpoint E Unit)
  return pubnonceAnswer serverPubnonce

variable (enclave place) in
/-- A request that has ended, or does not start a signature. -/
def Inactive (p : Endpoint E Answer) : Prop := p.next? = none ∨ Quiet enclave place p

variable (enclave place) in
def Holds (w : World E) (serverPubnonce : String) : Prop :=
  (lockboxNonce place w).map enclave.params.nonceText = some serverPubnonce

variable (enclave place) in
/-- At most one request is starting a signature, and then none is in progress. -/
inductive Phase (cfg : Race E) : Prop
  | resting (hthreads : AllBut (Inactive enclave place) none cfg.threads)
      (hone : (pendingOf place cfg.store).length ≤ 1)
      (hholds : ∀ serverPubnonce ∈ pendingOf place cfg.store, Holds enclave place cfg.store serverPubnonce)
  | asking (i : ℕ) (hi : cfg.threads[i]? = some (requestNonce place.statechainId place.enclaveIndex))
      (hothers : AllBut (Inactive enclave place) (some i) cfg.threads) (hnone : pendingOf place cfg.store = [])
  | inserting (i : ℕ) (serverPubnonce : String) (hi : cfg.threads[i]? = some (inserting place serverPubnonce))
      (hothers : AllBut (Inactive enclave place) (some i) cfg.threads) (hnone : pendingOf place cfg.store = [])
      (hholds : Holds enclave place cfg.store (strip0x serverPubnonce))

variable (enclave place) in
structure Inv (s : State E) : Prop where
  fixed : Fixed place s.race.store
  numbered : Numbered place s.race.store
  returned : ∀ answer ∈ s.returned, answer.2.map enclave.params.nonceText = some (strip0x answer.1)
  phase : Phase enclave place s.race

variable {s : State E}

theorem Phase.one {cfg : Race E} (h : Phase enclave place cfg) : (pendingOf place cfg.store).length ≤ 1 := by
  cases h with
  | resting hthreads hone hholds => exact hone
  | asking i hi hothers hnone => rw [hnone]; exact Nat.zero_le 1
  | inserting i serverPubnonce hi hothers hnone hholds => rw [hnone]; exact Nat.zero_le 1

theorem agreement_of_inv (h : Inv enclave place s) : Agreement enclave place s :=
  ⟨h.returned, h.phase.one, h.numbered⟩

variable (place) in
/-- A statechain that has not been signed for yet. -/
structure Fresh (w : World E) : Prop where
  fixed : Fixed place w
  unsigned : signaturesOf w.db place.statechainId = []

theorem inv_init {w : World E} (h : Fresh place w) : Inv enclave place (init w) := by
  have hnone : pendingOf place w = [] := by rw [pendingOf, h.unsigned]; rfl
  refine ⟨h.fixed, ?_, nofun, .resting allBut_nil ?_ ?_⟩
  · rw [Numbered, txNs, init, h.unsigned]
    rfl
  · rw [init, hnone]
    exact Nat.zero_le 1
  · rw [init, hnone]
    nofun

end Phases

section Steps

variable {s : State E}

omit [DecidableEq E] in
theorem returnedBy_set {cfg : Race E} {i : ℕ} {c : Call E} {next : Reply c → Endpoint E Answer}
    (hi : cfg.threads[i]? = some (.call c next)) (w : World E) (p : Endpoint E Answer) :
    returnedBy place cfg ⟨w, cfg.threads.set i p⟩ i = answered place w p := by
  have hlt := (List.getElem?_eq_some_iff.mp hi).1
  simp only [returnedBy, hi, List.getElem?_set_self hlt, Option.elim_some]

theorem Quiet.answered {p : Endpoint E Answer} (h : Quiet enclave place p) (w : World E) : answered place w p = [] := by
  cases h with
  | ret answer hanswer => rw [PendingNonce.answered, hanswer]; rfl
  | abort => rfl
  | keeps c next hkeeps hnext => rfl
  | keyupdate index id t2 x1 next hnext => rfl
  | test => rfl

/-- A quiet request goes on quietly, updates the key, or looks for a signature in progress. -/
theorem quiet_advance {c : Call E} {next : Reply c → Endpoint E Answer} {w : World E} (choice : Choice n)
    (h : Quiet enclave place (.call c next)) (hfixed : Fixed place w) :
    Quiet enclave place (next (Database.handle enclave choice c w).1) ∧
      (Keeps place w (Database.handle enclave choice c w).2 ∨
        updatesKey c = true ∧ (Database.handle enclave choice c w).2.db = w.db) ∨
    (.call c next : Endpoint E Answer) =
      .call (.getServerPubnonceFromNullChallenge place.statechainId) (onPending place) := by
  generalize hq : (.call c next : Endpoint E Answer) = q at h
  cases h with
  | ret answer hanswer => cases hq
  | abort => cases hq
  | keeps c' next' hkeeps hnext =>
    cases hq
    exact .inl ⟨hnext choice w hfixed, .inl (hkeeps choice w)⟩
  | keyupdate index id t2 x1 next' hnext =>
    cases hq
    refine .inl ⟨hnext _, .inr ⟨rfl, ?_⟩⟩
    obtain ⟨hsame, -⟩ | ⟨table, htable, hlockbox⟩ :=
      callLockbox_cases enclave choice w index (.keyupdate id t2 x1)
    · exact congrArg World.db hsame
    · exact congrArg (fun result => result.2.db) hlockbox
  | test => exact .inr rfl

/-- While one request starts a signature no other one does, and the key is not updated. -/
theorem quiet_advance_busy {cfg : Race E} {c d : Call E} {next : Reply c → Endpoint E Answer} {i j : ℕ}
    {p : Endpoint E Answer} (choice : Choice n) (h : Inactive enclave place (.call c next))
    (hfixed : Fixed place cfg.store) (hguard : CallOrderly place cfg j c) (hij : i ≠ j)
    (hi : cfg.threads[i]? = some p) (hp : p.next? = some d) (hd : creates d = true) :
    Quiet enclave place (next (Database.handle enclave choice c cfg.store).1) ∧
      Keeps place cfg.store (Database.handle enclave choice c cfg.store).2 := by
  have hbusy : ¬Alone cfg j := by
    intro halone
    have hidle := halone i (List.getElem?_eq_some_iff.mp hi).1 hij p hi d hp
    rw [hd] at hidle
    cases hidle
  obtain hended | hquiet := h
  · cases hended
  obtain ⟨hnext, hkeeps | ⟨hkey, -⟩⟩ | htest := quiet_advance choice hquiet hfixed
  · exact ⟨hnext, hkeeps⟩
  · exact absurd (hguard.2.1 hkey).2 hbusy
  · cases htest
    exact absurd (hguard.1 rfl) hbusy

def onNonce (place : Place) : HttpReply → Endpoint E Answer
  | .failed text => return internalError text
  | .unreadable => .abort
  | .body body => do
    let serverPubnonce ← Prog.unwrap (bodyField "server_pubnonce" body)
    inserting place serverPubnonce

theorem quiet_onNonce_of_none {reply : HttpReply}
    (h : ∀ body, reply = .body body → bodyField "server_pubnonce" body = none) :
    Quiet enclave place (onNonce place reply) := by
  cases reply with
  | failed text => exact .ret _ rfl
  | unreadable => exact .abort
  | body body =>
    rw [onNonce, h body rfl]
    exact .abort

variable (enclave place) in
/-- The lockbox answers with the nonce that it holds from now on. -/
theorem asking_advance (choice : Choice n) (w : World E) :
    (Database.handle enclave choice (.lockbox place.enclaveIndex (.getPublicNonce place.statechainId)) w).2.db = w.db ∧
      (Quiet enclave place (onNonce place
          (Database.handle enclave choice (.lockbox place.enclaveIndex (.getPublicNonce place.statechainId)) w).1) ∨
        ∃ serverPubnonce,
          (onNonce place (Database.handle enclave choice
            (.lockbox place.enclaveIndex (.getPublicNonce place.statechainId)) w).1 : Endpoint E Answer) =
              inserting place serverPubnonce ∧
          Holds enclave place (Database.handle enclave choice
            (.lockbox place.enclaveIndex (.getPublicNonce place.statechainId)) w).2 (strip0x serverPubnonce)) := by
  simp only [Database.handle]
  obtain ⟨hsame, hbody⟩ | ⟨table, htable, hlockbox⟩ :=
    callLockbox_cases enclave choice w place.enclaveIndex (.getPublicNonce place.statechainId)
  · refine ⟨congrArg World.db hsame, .inl (quiet_onNonce_of_none (fun body hreply => ?_))⟩
    exact absurd hreply (hbody body)
  rw [hlockbox]
  refine ⟨rfl, ?_⟩
  have heffect := generatePublicNonce_effect enclave choice.draw table place.statechainId
  change NonceEffect enclave choice.draw table place.statechainId
    (Lockbox.Server.handle enclave choice.draw table (.getPublicNonce place.statechainId)) at heffect
  cases heffect with
  | refused hsame hanswer =>
    refine .inl (quiet_onNonce_of_none (fun body hbody => ?_))
    exact bodyField_of_namesField hanswer (httpReply_delivered hbody)
  | made row nonce hrow hgenerated hrow' hothers hanswer =>
    obtain hanswer | ⟨-, hanswer⟩ := hanswer
    · cases hreply : httpReply choice.link
          (Lockbox.Server.handle enclave choice.draw table (.getPublicNonce place.statechainId)).2 with
      | failed text => exact .inl (.ret _ rfl)
      | unreadable => exact .inl .abort
      | body body =>
        have hbody := httpReply_delivered hreply
        rw [hanswer] at hbody
        cases hbody
        refine .inr ⟨_, rfl, ?_⟩
        rw [Holds, lockboxNonce, coinRow_set htable, hrow', strip0x_keyToString]
        rfl
    · refine .inl (quiet_onNonce_of_none (fun body hbody => ?_))
      exact bodyField_of_namesField hanswer (httpReply_delivered hbody)

theorem strip0x_encode (bytes : Bytes) : strip0x (Hex.encode bytes) = Hex.encode bytes := by
  cases bytes with
  | nil => rfl
  | cons u bytes =>
    have hlow : Hex.hexChar (u &&& 15) ≠ 'x' := by
      intro hx
      have hnone : Hex.hexDigit 'x' = none := by decide
      rw [← hx, Hex.hexDigit_low] at hnone
      cases hnone
    have hchars : (Hex.encode (u :: bytes)).toList =
        Hex.hexChar (u >>> 4) :: Hex.hexChar (u &&& 15) :: Hex.encodeChars bytes := by
      rw [Hex.encode, String.toList_ofList]
      rfl
    rw [strip0x, hchars]
    split
    · next heq =>
      rw [List.cons.injEq, List.cons.injEq] at heq
      exact absurd heq.2.1 hlow
    · rfl

omit [DecidableEq E] in
theorem strip0x_of_holds {w : World E} {serverPubnonce : String} (h : Holds enclave place w serverPubnonce) :
    strip0x serverPubnonce = serverPubnonce := by
  obtain ⟨nonce, -, rfl⟩ := Option.map_eq_some_iff.mp h
  exact strip0x_encode _

variable {cfg : Race E} {returned : List (String × Option (Point E × Point E))} {j : ℕ} {w : World E}
  {p : Endpoint E Answer}

theorem phase_keeps (h : AllBut (Inactive enclave place) none cfg.threads)
    (hone : (pendingOf place cfg.store).length ≤ 1)
    (hholds : ∀ serverPubnonce ∈ pendingOf place cfg.store, Holds enclave place cfg.store serverPubnonce)
    (hp : Quiet enclave place p) (hkeeps : Keeps place cfg.store w) :
    Phase enclave place ⟨w, cfg.threads.set j p⟩ := by
  refine .resting (h.set (.inr hp) j) (hkeeps.pending.length_le.trans hone) (fun serverPubnonce hmem => ?_)
  rw [Holds, hkeeps.nonce]
  exact hholds serverPubnonce (hkeeps.pending.subset hmem)

omit [Module (ZMod n) E] [DecidableEq E] in
theorem Keeps.none (h : Keeps place cfg.store w) (hnone : pendingOf place cfg.store = []) : pendingOf place w = [] := by
  have hpending := h.pending
  rw [hnone] at hpending
  exact List.sublist_nil.mp hpending

theorem phase_none (h : AllBut (Inactive enclave place) none cfg.threads) (hnone : pendingOf place cfg.store = []) :
    Phase enclave place cfg := by
  refine .resting h ?_ ?_
  · rw [hnone]
    exact Nat.zero_le 1
  · rw [hnone]
    nofun

theorem inv_resting {c : Call E} {next : Reply c → Endpoint E Answer} (choice : Choice n)
    (hj : cfg.threads[j]? = some (.call c next)) (hinv : Inv enclave place ⟨cfg, returned⟩)
    (hthreads : AllBut (Inactive enclave place) none cfg.threads) (hone : (pendingOf place cfg.store).length ≤ 1)
    (hholds : ∀ serverPubnonce ∈ pendingOf place cfg.store, Holds enclave place cfg.store serverPubnonce)
    (hguard : CallOrderly place cfg j c) :
    Inv enclave place ⟨⟨(Database.handle enclave choice c cfg.store).2,
        cfg.threads.set j (next (Database.handle enclave choice c cfg.store).1)⟩,
      answered place (Database.handle enclave choice c cfg.store).2
        (next (Database.handle enclave choice c cfg.store).1) ++ returned⟩ := by
  obtain hended | hquiet := hthreads j _ nofun hj
  · cases hended
  obtain ⟨hnext, hkeeps | ⟨hkey, hdb⟩⟩ | htest := quiet_advance choice hquiet hinv.fixed
  · rw [hnext.answered]
    exact ⟨hkeeps.fixed hinv.fixed, hkeeps.numbered hinv.numbered, hinv.returned,
      phase_keeps hthreads hone hholds hnext hkeeps⟩
  · rw [hnext.answered]
    have hnone : pendingOf place (Database.handle enclave choice c cfg.store).2 = [] := by
      rw [pendingOf, hdb]
      exact (hguard.2.1 hkey).1
    refine ⟨?_, ?_, hinv.returned, phase_none (hthreads.set (.inr hnext) j) hnone⟩
    · rw [Fixed, hdb]
      exact hinv.fixed
    · rw [Numbered, txNs, hdb]
      exact hinv.numbered
  · cases htest
    have hworld : (Database.handle enclave choice (.getServerPubnonceFromNullChallenge place.statechainId)
        cfg.store).2 = cfg.store := read_world _ _ _
    rw [hworld]
    have habort : Inv enclave place ⟨⟨cfg.store, cfg.threads.set j .abort⟩, returned⟩ :=
      ⟨hinv.fixed, hinv.numbered, hinv.returned, .resting (hthreads.set (.inr .abort) j) hone hholds⟩
    simp only [Database.handle]
    cases choice.fault with
    | failed text => exact habort
    | lost text => exact habort
    | ok =>
      cases hpending : cfg.store.db.serverPubnonceFromNullChallenge place.statechainId with
      | some serverPubnonce =>
        have hmem : serverPubnonce ∈ pendingOf place cfg.store := by
          obtain ⟨row, hrow, hchallenge, rfl⟩ := mem_of_pending _ hpending
          refine List.mem_map_of_mem (List.mem_filter.mpr ⟨hrow, ?_⟩)
          rw [hchallenge]
          rfl
        refine ⟨hinv.fixed, hinv.numbered, ?_, .resting (hthreads.set (.inl rfl) j) hone hholds⟩
        intro answer hanswer
        obtain rfl | hold := List.mem_cons.mp hanswer
        · rw [strip0x_of_holds (hholds serverPubnonce hmem)]
          exact hholds serverPubnonce hmem
        · exact hinv.returned answer hold
      | none =>
        have hnone : pendingOf place cfg.store = [] := by
          rw [pendingOf, List.map_eq_nil_iff, List.filter_eq_nil_iff]
          intro row hrow
          simpa using challenge_of_none _ hpending hrow
        refine ⟨hinv.fixed, hinv.numbered, hinv.returned, .asking j ?_ hthreads.leave.set_self hnone⟩
        exact List.getElem?_set_self (List.getElem?_eq_some_iff.mp hj).1

theorem inv_asking {i : ℕ} (choice : Choice n) (hinv : Inv enclave place ⟨cfg, returned⟩)
    (hi : cfg.threads[i]? = some (requestNonce place.statechainId place.enclaveIndex))
    (hothers : AllBut (Inactive enclave place) (some i) cfg.threads) (hnone : pendingOf place cfg.store = []) :
    Inv enclave place ⟨⟨(Database.handle enclave choice
          (.lockbox place.enclaveIndex (.getPublicNonce place.statechainId)) cfg.store).2,
        cfg.threads.set i (onNonce place (Database.handle enclave choice
          (.lockbox place.enclaveIndex (.getPublicNonce place.statechainId)) cfg.store).1)⟩,
      answered place (Database.handle enclave choice
          (.lockbox place.enclaveIndex (.getPublicNonce place.statechainId)) cfg.store).2
        (onNonce place (Database.handle enclave choice
          (.lockbox place.enclaveIndex (.getPublicNonce place.statechainId)) cfg.store).1) ++ returned⟩ := by
  obtain ⟨hdb, hcases⟩ := asking_advance enclave place choice cfg.store
  generalize Database.handle enclave choice
    (.lockbox place.enclaveIndex (.getPublicNonce place.statechainId)) cfg.store = result at hdb hcases ⊢
  have hfixed : Fixed place result.2 := by
    rw [Fixed, hdb]
    exact hinv.fixed
  have hnumbered : Numbered place result.2 := by
    rw [Numbered, txNs, hdb]
    exact hinv.numbered
  have hnone' : pendingOf place result.2 = [] := by
    rw [pendingOf, hdb]
    exact hnone
  obtain hquiet | ⟨serverPubnonce, heq, hholds⟩ := hcases
  · rw [hquiet.answered]
    exact ⟨hfixed, hnumbered, hinv.returned, phase_none (hothers.close (.inr hquiet)) hnone'⟩
  · rw [heq]
    refine ⟨hfixed, hnumbered, hinv.returned, .inserting i serverPubnonce ?_ hothers.set_self hnone' hholds⟩
    exact List.getElem?_set_self (List.getElem?_eq_some_iff.mp hi).1

theorem inv_inserting {i : ℕ} {serverPubnonce : String} (choice : Choice n)
    (hinv : Inv enclave place ⟨cfg, returned⟩)
    (hothers : AllBut (Inactive enclave place) (some i) cfg.threads) (hnone : pendingOf place cfg.store = [])
    (hholds : Holds enclave place cfg.store (strip0x serverPubnonce))
    (hlt : (signaturesOf cfg.store.db place.statechainId).length + 1 < 2 ^ 31) :
    Inv enclave place ⟨⟨(write choice.fault cfg.store
          (some (cfg.store.db.insertNewSignatureData place.statechainId (strip0x serverPubnonce)))).2,
        cfg.threads.set i (Prog.unwrap (write choice.fault cfg.store
          (some (cfg.store.db.insertNewSignatureData place.statechainId (strip0x serverPubnonce)))).1 >>=
            fun _ => .ret (pubnonceAnswer serverPubnonce))⟩,
      answered place (write choice.fault cfg.store
          (some (cfg.store.db.insertNewSignatureData place.statechainId (strip0x serverPubnonce)))).2
        (Prog.unwrap (write choice.fault cfg.store
          (some (cfg.store.db.insertNewSignatureData place.statechainId (strip0x serverPubnonce)))).1 >>=
            fun _ => .ret (pubnonceAnswer serverPubnonce)) ++ returned⟩ := by
  have hphase : ∀ {p : Endpoint E Answer}, Inactive enclave place p → Phase enclave place
      ⟨{ cfg.store with db := cfg.store.db.insertNewSignatureData place.statechainId (strip0x serverPubnonce) },
        cfg.threads.set i p⟩ := by
    intro p hp
    refine .resting (hothers.close hp) ?_ ?_
    · rw [pendingOf_insert, hnone]
      exact Nat.le_refl 1
    · rw [pendingOf_insert, hnone]
      intro text htext
      rw [List.mem_singleton.mp htext]
      exact hholds
  have hnumbered := numbered_insert (strip0x serverPubnonce) hinv.numbered hlt
  cases choice.fault with
  | failed text =>
    exact ⟨hinv.fixed, hinv.numbered, hinv.returned, phase_none (hothers.close (.inr .abort)) hnone⟩
  | lost text => exact ⟨hinv.fixed, hnumbered, hinv.returned, hphase (.inr .abort)⟩
  | ok =>
    refine ⟨hinv.fixed, hnumbered, ?_, hphase (.inl rfl)⟩
    intro answer hanswer
    obtain rfl | hold := List.mem_cons.mp hanswer
    · exact hholds
    · exact hinv.returned answer hold

theorem step_ended (choice : Choice n) (hj : ∀ c next, cfg.threads[j]? ≠ some (.call c next)) :
    step enclave batchTimeout place ⟨cfg, returned⟩ (.thread (.advance j choice)) = ⟨cfg, returned⟩ := by
  cases hp : cfg.threads[j]? with
  | none => simp only [step, Config.step, returnedBy, hp, List.nil_append]
  | some p =>
    cases p with
    | ret answer => simp only [step, Config.step, returnedBy, hp, List.nil_append]
    | abort => simp only [step, Config.step, returnedBy, hp, List.nil_append]
    | call c next => exact absurd hp (hj c next)

theorem inv_advance (choice : Choice n) (h : Inv enclave place s)
    (hguard : Orderly place s (.thread (.advance j choice))) :
    Inv enclave place (step enclave batchTimeout place s (.thread (.advance j choice))) := by
  obtain ⟨cfg, returned⟩ := s
  by_cases hmoves : ∃ c next, cfg.threads[j]? = some (.call c next)
  swap
  · rw [step_ended choice (fun c next hj => hmoves ⟨c, next, hj⟩)]
    exact h
  obtain ⟨c, next, hj⟩ := hmoves
  simp only [step, step_advance hj, returnedBy_set hj]
  have hcall : CallOrderly place cfg j c := hguard _ hj c rfl
  cases h.phase with
  | resting hthreads hone hholds => exact inv_resting choice hj h hthreads hone hholds hcall
  | asking i hi hothers hnone =>
    by_cases hij : i = j
    · subst hij
      rw [hi, Option.some.injEq] at hj
      cases hj
      exact inv_asking choice h hi hothers hnone
    · obtain ⟨hnext, hkeeps⟩ := quiet_advance_busy choice (hothers j _ (fun he => hij (Option.some.inj he).symm) hj)
        h.fixed hcall hij hi rfl rfl
      rw [hnext.answered]
      exact ⟨hkeeps.fixed h.fixed, hkeeps.numbered h.numbered, h.returned,
        .asking i ((List.getElem?_set_ne (Ne.symm hij)).trans hi) (hothers.set (.inr hnext) j) (hkeeps.none hnone)⟩
  | inserting i serverPubnonce hi hothers hnone hholds =>
    by_cases hij : i = j
    · subst hij
      rw [hi, Option.some.injEq] at hj
      cases hj
      exact inv_inserting choice h hothers hnone hholds (hcall.2.2 rfl)
    · obtain ⟨hnext, hkeeps⟩ := quiet_advance_busy choice (hothers j _ (fun he => hij (Option.some.inj he).symm) hj)
        h.fixed hcall hij hi rfl rfl
      rw [hnext.answered]
      refine ⟨hkeeps.fixed h.fixed, hkeeps.numbered h.numbered, h.returned,
        .inserting i serverPubnonce ((List.getElem?_set_ne (Ne.symm hij)).trans hi) (hothers.set (.inr hnext) j)
          (hkeeps.none hnone) ?_⟩
      rw [Holds, hkeeps.nonce]
      exact hholds

theorem inv_stop (h : Inv enclave place s) :
    Inv enclave place (step enclave batchTimeout place s (.thread (.stop j))) := by
  refine ⟨h.fixed, h.numbered, h.returned, ?_⟩
  cases h.phase with
  | resting hthreads hone hholds => exact .resting (hthreads.set (.inr .abort) j) hone hholds
  | asking i hi hothers hnone =>
    by_cases hij : j = i
    · subst hij
      exact phase_none (hothers.close (.inr .abort)) hnone
    · exact .asking i ((List.getElem?_set_ne hij).trans hi) (hothers.set (.inr .abort) j) hnone
  | inserting i serverPubnonce hi hothers hnone hholds =>
    by_cases hij : j = i
    · subst hij
      exact phase_none (hothers.close (.inr .abort)) hnone
    · exact .inserting i serverPubnonce ((List.getElem?_set_ne hij).trans hi) (hothers.set (.inr .abort) j) hnone
        hholds

theorem inv_start (request : CoinRequest place) (h : Inv enclave place s) :
    Inv enclave place (step enclave batchTimeout place s (.thread (.start request))) := by
  have hquiet : Inactive enclave place (program enclave batchTimeout place request) := .inr (quiet_program request)
  refine ⟨h.fixed, h.numbered, h.returned, ?_⟩
  cases h.phase with
  | resting hthreads hone hholds => exact .resting (hthreads.append hquiet) hone hholds
  | asking i hi hothers hnone =>
    have hlt := (List.getElem?_eq_some_iff.mp hi).1
    exact .asking i ((List.getElem?_append_left hlt).trans hi) (hothers.append hquiet) hnone
  | inserting i serverPubnonce hi hothers hnone hholds =>
    have hlt := (List.getElem?_eq_some_iff.mp hi).1
    exact .inserting i serverPubnonce ((List.getElem?_append_left hlt).trans hi) (hothers.append hquiet) hnone hholds

theorem inv_tick (elapsed : ℕ) (h : Inv enclave place s) :
    Inv enclave place (step enclave batchTimeout place s (.tick elapsed)) := by
  refine ⟨h.fixed, h.numbered, h.returned, ?_⟩
  cases h.phase with
  | resting hthreads hone hholds => exact .resting hthreads hone hholds
  | asking i hi hothers hnone => exact .asking i hi hothers hnone
  | inserting i serverPubnonce hi hothers hnone hholds => exact .inserting i serverPubnonce hi hothers hnone hholds

theorem inv_step (s : State E) (event : Event n place) (h : Inv enclave place s) (hguard : Orderly place s event) :
    Inv enclave place (step enclave batchTimeout place s event) := by
  cases event with
  | tick elapsed => exact inv_tick elapsed h
  | thread event =>
    cases event with
    | start request => exact inv_start request h
    | advance j choice => exact inv_advance choice h hguard
    | stop j => exact inv_stop h

end Steps

/-- In an orderly interleaving `/sign/first` returns the nonce that the lockbox holds, at most
one signature is in progress and the signatures are numbered without a gap. -/
theorem nonce_agreement_of_orderly {w : World E} {events later : List (Event n place)} (hfresh : Fresh place w)
    (h : Guarded (step enclave batchTimeout place) (Orderly place) (init w) (events ++ later)) :
    Agreement enclave place (run (step enclave batchTimeout place) (init w) events) :=
  agreement_of_inv (invariant_reached inv_step (inv_init hfresh) h)

section Seven

def coinPlace : Place := ⟨"coin", 0⟩

theorem fresh_depositedCoin : Fresh coinPlace depositedCoin where
  fixed := by
    rw [Fixed]
    decide +kernel
  unsigned := by decide +kernel

def firstRequest : Event 7 coinPlace := .thread (.start ⟨.first ⟨"coin", sevenSignature 2⟩, rfl⟩)

/-- An environment in which the lockbox draws another nonce. -/
def otherDraw : Choice 7 :=
  { steady with draw := { steady.draw with sessionId := [2] } }

theorem nonce_agreement_of_orderly_seven :
    (run (step sevenKeyring 10 coinPlace) (init depositedCoin)
      ([firstRequest, firstRequest] ++ advances .thread 0 6 steady ++ advances .thread 1 4 otherDraw)).returned.length = 2 ∧
    Agreement sevenKeyring coinPlace (run (step sevenKeyring 10 coinPlace) (init depositedCoin)
      ([firstRequest, firstRequest] ++ advances .thread 0 6 steady ++ advances .thread 1 4 otherDraw)) := by
  have h : Guarded (step sevenKeyring 10 coinPlace) (Orderly coinPlace) (init depositedCoin)
      (([firstRequest, firstRequest] ++ advances .thread 0 6 steady ++ advances .thread 1 4 otherDraw) ++ []) := by
    decide +kernel
  exact ⟨by decide +kernel, nonce_agreement_of_orderly fresh_depositedCoin h⟩

/-- Both requests find no signature in progress, and the first one returns a nonce that the
second one has replaced in the lockbox. -/
def overlapping : List (Event 7 coinPlace) :=
  [firstRequest, firstRequest] ++ advances .thread 0 5 steady ++ advances .thread 1 6 otherDraw ++
    advances .thread 0 1 steady

theorem overlapping_requests_disagree :
    ¬Agreement sevenKeyring coinPlace (run (step sevenKeyring 10 coinPlace) (init depositedCoin) overlapping) ∧
    (pendingOf coinPlace (run (step sevenKeyring 10 coinPlace) (init depositedCoin) overlapping).race.store).length = 2 ∧
    ∃ answer ∈ (run (step sevenKeyring 10 coinPlace) (init depositedCoin) overlapping).returned,
      answer.2.map seven.nonceText ≠ some (strip0x answer.1) := by
  have hrun : (pendingOf coinPlace
        (run (step sevenKeyring 10 coinPlace) (init depositedCoin) overlapping).race.store).length = 2 ∧
      ∃ answer ∈ (run (step sevenKeyring 10 coinPlace) (init depositedCoin) overlapping).returned,
        answer.2.map seven.nonceText ≠ some (strip0x answer.1) := by decide +kernel
  refine ⟨fun h => ?_, hrun⟩
  have hone := h.pending
  rw [hrun.1] at hone
  exact absurd hone (by decide)

end Seven

end MercuryLayer.Server.PendingNonce
