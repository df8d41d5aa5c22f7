import MercuryLayer.Server.Effects

namespace MercuryLayer.Server.KeyUpdateRace

open Crates Library.Programs Library.Runs Library.Tables Library.XOnlyCurve Lockbox.Enclave Lockbox.KeyUpdate
open Lockbox.Server Musig.Session Receiver Server.Database Server.Effects Server.System Server.Transfer
open Server.Unlock

variable {n : ℕ} {E : Type} [AddCommGroup E] [Module (ZMod n) E] [DecidableEq E]

/-- A transfer on its way to the receiver: what the requests for it find when the first one
comes in. -/
structure Handover (n : ℕ) (E : Type) [AddCommGroup E] where
  statechainId : String
  enclaveIndex : ℕ
  authPubkey : Point E
  x1 : Bytes
  share : ZMod n

/-- The world with the key updates that changed a lockbox, each with the `t2` and the `x1` that
it was called with. -/
structure Store (E : Type) [AddCommGroup E] where
  world : World E
  moves : List (String × String)

def moveOf : Call E → List (String × String)
  | .lockbox _ (.keyupdate _ t2 x1) => [(t2, x1)]
  | _ => []

variable (enclave : Keyring n E) (batchTimeout : ℕ) (handover : Handover n E)

def handle (choice : Choice n) (c : Call E) (s : Store E) : Reply c × Store E :=
  let result := Database.handle enclave choice c s.world
  (result.1, ⟨result.2, if result.2.enclaves = s.world.enclaves then s.moves else moveOf c ++ s.moves⟩)

/-- A request for the statechain. -/
abbrev ReceiverRequest : Type :=
  { payload : TransferReceiverRequestPayload // payload.statechainId = handover.statechainId }

abbrev Race (E : Type) [AddCommGroup E] : Type := Config (Call E) Reply Answer (Store E)

inductive Event (n : ℕ) (E : Type) [AddCommGroup E] (handover : Handover n E)
  | thread (event : Library.Programs.Event (ReceiverRequest handover) (Choice n))
  | tick (elapsed : ℕ)

def program (request : ReceiverRequest handover) : Endpoint E Answer :=
  transferReceiver enclave.params.secp batchTimeout request.1

/-- Requests for one statechain run side by side, call by call, while time passes. -/
def step (cfg : Race E) : Event n E handover → Race E
  | .thread event => cfg.step (program enclave batchTimeout handover) (handle enclave) event
  | .tick elapsed =>
    { cfg with store := { cfg.store with world := { cfg.store.world with now := cfg.store.world.now + elapsed } } }

def init (w : World E) : Race E := ⟨⟨w, []⟩, []⟩

section View

variable (w : World E)

def lockboxTable : List (Row E) := w.enclaves[handover.enclaveIndex]?.getD []

def lockboxKey : Option (Point E) := storedKey (lockboxTable handover w) handover.statechainId

def lockboxShare : Option (ZMod n) := storedShare enclave (lockboxTable handover w) handover.statechainId

def serverPublicKey : Option (Point E) :=
  (w.db.data.get handover.statechainId).map StatechainData.serverPublicKey

def keyUpdated : Option Bool := (w.db.transfers.get handover.statechainId).map StatechainTransfer.keyUpdated

/-- What no request for the coin changes. -/
structure Fixed : Prop where
  transfer : (w.db.transfers.get handover.statechainId).map (fun row => (row.newUserAuthPublicKey, row.x1)) =
    some (handover.authPubkey, handover.x1)
  index : (w.db.data.get handover.statechainId).map StatechainData.enclaveIndex = some handover.enclaveIndex

/-- The transfer before any request for it, with one key in the database and the lockbox. -/
structure Fresh : Prop extends Fixed handover w where
  share : lockboxShare enclave handover w = some handover.share
  agrees : serverPublicKey handover w = lockboxKey handover w

end View

/-- The share has moved by at most one `t2 - x1`, with the `x1` of the transfer. -/
inductive Moved (s : Store E) : Prop
  | never (hmoves : s.moves = []) (hshare : lockboxShare enclave handover s.world = some handover.share)
  | once (t2 : String) (t2' x1' : ZMod n) (hmoves : s.moves = [(t2, Hex.encode handover.x1)])
      (ht2 : enclave.params.setB32 (parseHex t2) = some t2')
      (hx1 : enclave.params.setB32 handover.x1 = some x1')
      (hshare : lockboxShare enclave handover s.world = some (handover.share + t2' - x1'))

structure ExactlyOnce (cfg : Race E) : Prop where
  moved : Moved enclave handover cfg.store
  agrees : cfg.Idle → serverPublicKey handover cfg.store.world = lockboxKey handover cfg.store.world

/-- The calls of a request that has found the key not yet updated. -/
def updating : Call E → Bool
  | .getEnclaveIndex _ | .lockbox _ _ | .updateStatechain _ _ _ => true
  | _ => false

def stores : Call E → Bool
  | .updateStatechain _ _ _ => true
  | _ => false

/-- A request tests the flag only while no other one updates the key, the lockbox's answer is
not lost, and the update of the database takes place. -/
def CallSettled (cfg : Race E) (i : ℕ) (choice : Choice n) : Call E → Prop
  | .isKeyAlreadyUpdated _ =>
    ∀ j < cfg.threads.length, j ≠ i → ∀ p ∈ cfg.threads[j]?, ∀ c ∈ p.next?, updating c = false
  | .lockbox _ _ => settled choice.link = true ∧ confirmed choice.draw.store = true
  | .updateStatechain authKey key id =>
    carriedOut choice.fault = true ∧ (cfg.store.world.db.updateStatechain id authKey key).isSome
  | _ => True

/-- No request is stopped between the lockbox and the database. -/
def Settled (cfg : Race E) : Event n E handover → Prop
  | .thread (.start _) => True
  | .thread (.advance i choice) => ∀ p ∈ cfg.threads[i]?, ∀ c ∈ p.next?, CallSettled cfg i choice c
  | .thread (.stop i) => ∀ p ∈ cfg.threads[i]?, ∀ c ∈ p.next?, stores c = false
  | .tick _ => True

instance (cfg : Race E) (i : ℕ) (choice : Choice n) (c : Call E) : Decidable (CallSettled cfg i choice c) :=
  match c with
  | .isKeyAlreadyUpdated _ =>
    inferInstanceAs (Decidable (∀ j < cfg.threads.length, j ≠ i → ∀ p ∈ cfg.threads[j]?, ∀ c ∈ p.next?, updating c = false))
  | .lockbox _ _ => inferInstanceAs (Decidable (_ ∧ _))
  | .updateStatechain _ _ _ => inferInstanceAs (Decidable (_ ∧ _))
  | .getAuthKeyByStatechainId _ | .getBatchIdAndTimeByStatechainId _ | .isAllCoinsUnlocked _
  | .getBatchTimeByBatchId _ | .existsMsg _ _ _ | .isLightningLatch _ _ _ | .insertNewDeposit _
  | .insertNewTransfer _ _ _ _ | .updateTransferMsg _ _ _ | .getEnclavePubkey _ | .getStatechainInfo _ | .getX1 _
  | .getAuthPubkeyAndX1 _ | .getServerPublicKey _ | .getEnclaveIndex _ | .unlockTransfer _ _ | .getLocks _
  | .unlockLatch _ _ | .deleteExpiredLatches | .insertLatch _ | .getPreimage _ _ _
  | .getServerPubnonceFromNullChallenge _ | .insertNewSignatureData _ _ | .updateSignatureDataChallenge _ _ _
  | .lockboxEndpoint _ | .now | .newSecretKey | .randomBytes | .signatureCount _ _ => isTrue trivial

instance (cfg : Race E) (event : Event n E handover) : Decidable (Settled handover cfg event) :=
  match event with
  | .thread (.start _) => isTrue trivial
  | .thread (.advance i choice) =>
    inferInstanceAs (Decidable (∀ p ∈ cfg.threads[i]?, ∀ c ∈ p.next?, CallSettled cfg i choice c))
  | .thread (.stop i) => inferInstanceAs (Decidable (∀ p ∈ cfg.threads[i]?, ∀ c ∈ p.next?, stores c = false))
  | .tick _ => isTrue trivial

/-- A request before the test of the flag, or one that will not get to the update. It only
reads, and it reads the transfer as it is. -/
inductive Outside : Endpoint E Answer → Prop
  | ret (answer : Answer) : Outside (.ret answer)
  | abort : Outside .abort
  | read (c : Call E) (next : Reply c → Endpoint E Answer)
      (hread : ∀ choice w, (Database.handle enclave choice c w).2 = w)
      (hnext : ∀ choice w, Fixed handover w → Outside (next (Database.handle enclave choice c w).1)) :
      Outside (.call c next)
  | check (payload : TransferReceiverRequestPayload) (hid : payload.statechainId = handover.statechainId) :
      Outside (isKeyAlreadyUpdated handover.statechainId >>= updateKeyOnce enclave.params.secp payload
        (enclave.params.secp.xOnly handover.authPubkey) handover.x1)

variable {enclave batchTimeout handover}

section Reads

variable {α : Type}

theorem outside_of_reads {p : Endpoint E α} {f : α → Endpoint E Answer} (hp : Reads enclave p)
    (hf : ∀ a, Outside enclave handover (f a)) : Outside enclave handover (p >>= f) := by
  induction p with
  | ret a => exact hf a
  | abort => exact .abort
  | call c next ih => exact .read c _ hp.1 (fun _ _ _ => ih _ (hp.2 _))

end Reads

theorem outside_transferReceiver (request : ReceiverRequest handover) :
    Outside enclave handover (program enclave batchTimeout handover request) := by
  obtain ⟨payload, hid⟩ := request
  refine outside_of_reads (reads_validateBatch payload.statechainId) (fun result => ?_)
  cases result with
  | statecoinBatchLockedError text => exact .ret _
  | expiredBatchTimeError text => exact .ret _
  | success =>
    refine .read _ _ (fun _ _ => read_world _ _ _) (fun choice w hfixed => ?_)
    simp only [Database.handle, hid]
    rw [hfixed.transfer]
    cases choice.fault with
    | failed text => exact .abort
    | lost text => exact .abort
    | ok =>
      simp only [Database.read, Prog.unwrap]
      cases hsig : enclave.params.secp.signatureFromStr payload.authSig with
      | none => exact .abort
      | some signature =>
        simp only [Prog.bind, Prog.ret_bind]
        by_cases hv : verifies enclave.params.secp signature payload.t2
            (enclave.params.secp.xOnly handover.authPubkey) = true
        · rw [if_pos hv]
          exact .check payload hid
        · rw [if_neg hv]
          exact .ret _

def onReply (secp : Secp (Point E) (ZMod n)) (handover : Handover n E) (payload : TransferReceiverRequestPayload) :
    HttpReply → Endpoint E Answer := relayKey secp (secp.xOnly handover.authPubkey) payload.statechainId

def lockboxRequest (handover : Handover n E) (payload : TransferReceiverRequestPayload) : Call E :=
  .lockbox handover.enclaveIndex (.keyupdate payload.statechainId payload.t2 (Hex.encode handover.x1))

variable (enclave handover) in
/-- A request that has found the key not yet updated. -/
inductive Deciding : Endpoint E Answer → Prop
  | index (payload : TransferReceiverRequestPayload) (hid : payload.statechainId = handover.statechainId) :
      Deciding (updateKey enclave.params.secp payload (enclave.params.secp.xOnly handover.authPubkey) handover.x1)
  | lockbox (payload : TransferReceiverRequestPayload) (hid : payload.statechainId = handover.statechainId) :
      Deciding (.call (lockboxRequest handover payload) (onReply enclave.params.secp handover payload))

/-- A request with the new key that the lockbox answered with. -/
def storing (secp : Secp (Point E) (ZMod n)) (handover : Handover n E) : Point E → Endpoint E Answer :=
  storeKey secp (secp.xOnly handover.authPubkey) handover.statechainId

variable (enclave handover) in
/-- At most one request is in the middle of its update. -/
inductive Phase (cfg : Race E) : Prop
  | resting (hthreads : AllBut (Outside enclave handover) none cfg.threads)
      (hmoved : Moved enclave handover cfg.store)
      (hagrees : serverPublicKey handover cfg.store.world = lockboxKey handover cfg.store.world)
      (hflag : keyUpdated handover cfg.store.world = some false → cfg.store.moves = [])
  | deciding (i : ℕ) (p : Endpoint E Answer) (hi : cfg.threads[i]? = some p) (hp : Deciding enclave handover p)
      (hothers : AllBut (Outside enclave handover) (some i) cfg.threads)
      (hmoves : cfg.store.moves = [])
      (hshare : lockboxShare enclave handover cfg.store.world = some handover.share)
      (hagrees : serverPublicKey handover cfg.store.world = lockboxKey handover cfg.store.world)
  | storing (i : ℕ) (serverPubkey : Point E)
      (hi : cfg.threads[i]? = some (storing enclave.params.secp handover serverPubkey))
      (hothers : AllBut (Outside enclave handover) (some i) cfg.threads)
      (hmoved : Moved enclave handover cfg.store)
      (hkey : lockboxKey handover cfg.store.world = some serverPubkey)

variable (enclave handover) in
structure Inv (cfg : Race E) : Prop where
  fixed : Fixed handover cfg.store.world
  phase : Phase enclave handover cfg

theorem exactlyOnce_of_inv {cfg : Race E} (h : Inv enclave handover cfg) : ExactlyOnce enclave handover cfg := by
  cases h.phase with
  | resting hthreads hmoved hagrees hflag => exact ⟨hmoved, fun _ => hagrees⟩
  | deciding i p hi hp hothers hmoves hshare hagrees => exact ⟨.never hmoves hshare, fun _ => hagrees⟩
  | storing i serverPubkey hi hothers hmoved hkey =>
    refine ⟨hmoved, fun hidle => ?_⟩
    exact absurd (hidle _ (List.mem_of_getElem? hi)) nofun

theorem inv_init {w : World E} (h : Fresh enclave handover w) : Inv enclave handover (init w) :=
  ⟨h.toFixed, .resting allBut_nil (.never rfl h.share) h.agrees (fun _ => rfl)⟩

theorem handle_of_same {choice : Choice n} {c : Call E} {s : Store E}
    (h : (Database.handle enclave choice c s.world).2 = s.world) :
    handle enclave choice c s = ((Database.handle enclave choice c s.world).1, s) := by
  simp only [handle, h, if_true]

/-- The program of a request that is about to test the flag. -/
def checkCall (secp : Secp (Point E) (ZMod n)) (handover : Handover n E) (payload : TransferReceiverRequestPayload)
    (keyUpdated : Option Bool) : Endpoint E Answer :=
  Prog.unwrap keyUpdated >>= updateKeyOnce secp payload (secp.xOnly handover.authPubkey) handover.x1

theorem outside_call {c : Call E} {next : Reply c → Endpoint E Answer} (h : Outside enclave handover (.call c next)) :
    ((∀ choice w, (Database.handle enclave choice c w).2 = w) ∧
      ∀ choice w, Fixed handover w → Outside enclave handover (next (Database.handle enclave choice c w).1)) ∨
    ∃ payload : TransferReceiverRequestPayload, payload.statechainId = handover.statechainId ∧
      (.call c next : Endpoint E Answer) =
        .call (.isKeyAlreadyUpdated handover.statechainId) (checkCall enclave.params.secp handover payload) := by
  generalize hq : (.call c next : Endpoint E Answer) = q at h
  cases h with
  | ret answer => cases hq
  | abort => cases hq
  | read c' next' hread hnext =>
    cases hq
    exact .inl ⟨hread, hnext⟩
  | check payload hid => exact .inr ⟨payload, hid, rfl⟩

theorem checkCall_cases (payload : TransferReceiverRequestPayload) (hid : payload.statechainId = handover.statechainId)
    (keyUpdated : Option Bool) :
    Outside enclave handover (checkCall enclave.params.secp handover payload keyUpdated) ∨
      keyUpdated = some false ∧ Deciding enclave handover (checkCall enclave.params.secp handover payload keyUpdated) := by
  cases keyUpdated with
  | none => exact .inl .abort
  | some keyUpdated =>
    cases keyUpdated with
    | false => exact .inr ⟨rfl, .index payload hid⟩
    | true =>
      refine .inl (.read _ _ (fun _ _ => read_world _ _ _) (fun choice w _ => ?_))
      cases (Database.handle enclave choice (.getServerPublicKey payload.statechainId) w).1 with
      | none => exact .abort
      | some serverPublicKey => exact .ret _

/-- A key update whose answer is not lost: nothing happens and there is no key in the answer,
or the share moves and the answer has the new key. -/
inductive CallEffect (enclave : Keyring n E) (w : World E) (index : ℕ) (id t2 x1 : String)
    (result : HttpReply × World E) : Prop
  | refused (hworld : result.2 = w)
      (hanswer : ∀ body, result.1 = .body body → serverPubkeyOf enclave.params.secp body = none)
  | moved (table table' : List (Row E)) (share t2' x1' : ZMod n) (body : Body)
      (htable : w.enclaves[index]? = some table) (hworld : result.2 = { w with enclaves := w.enclaves.set index table' })
      (hshare : storedShare enclave table id = some share)
      (ht2 : enclave.params.setB32 (parseHex t2) = some t2') (hx1 : enclave.params.setB32 (parseHex x1) = some x1')
      (hnew : storedShare enclave table' id = some (share + t2' - x1'))
      (hkey : storedKey table' id = some (enclave.params.publicKey (share + t2' - x1')))
      (hbody : result.1 = .body body)
      (hanswer : serverPubkeyOf enclave.params.secp body = some (enclave.params.publicKey (share + t2' - x1')))

variable (enclave) in
theorem callLockbox_effect {choice : Choice n} (hlink : settled choice.link = true)
    (hstore : confirmed choice.draw.store = true) (w : World E) (index : ℕ) (id t2 x1 : String) :
    CallEffect enclave w index id t2 x1 (callLockbox enclave choice w index (.keyupdate id t2 x1)) := by
  cases hl : choice.link with
  | lost text => simp [hl, settled] at hlink
  | cut => simp [hl, settled] at hlink
  | unreachable text =>
    simp only [callLockbox, hl]
    exact .refused rfl (fun body h => by cases h)
  | delivered =>
    cases htable : w.enclaves[index]? with
    | none =>
      simp only [callLockbox, hl, htable]
      exact .refused rfl (fun body h => by cases h)
    | some table =>
      simp only [callLockbox, hl, htable]
      cases handle_keyupdate_effect enclave choice.draw table id t2 x1 with
      | refused hsame hanswer =>
        refine .refused ?_ (fun body hbody => serverPubkeyOf_of_namesField hanswer hbody)
        simp only [hsame, set_of_getElem? htable]
      | moved share t2' x1' hwrites hnew hkey hanswer =>
        rcases hanswer with hanswer | ⟨⟨text, hlost⟩, -⟩
        · refine .moved table _ share t2' x1' _ htable rfl hwrites.stored hwrites.t2_value hwrites.x1_value hnew hkey ?_
            (serverPubkeyOf_success _)
          simp only [hanswer]
          rfl
        · rw [hlost] at hstore
          cases hstore

variable {cfg : Race E}

theorem inv_start (request : ReceiverRequest handover) (h : Inv enclave handover cfg) :
    Inv enclave handover (step enclave batchTimeout handover cfg (.thread (.start request))) := by
  have hnew : Outside enclave handover (program enclave batchTimeout handover request) :=
    outside_transferReceiver request
  have hold : ∀ {i : ℕ} {p : Endpoint E Answer}, cfg.threads[i]? = some p →
      (cfg.threads ++ [program enclave batchTimeout handover request])[i]? = some p := by
    intro i p hi
    rw [List.getElem?_append_left (List.getElem?_eq_some_iff.mp hi).1]
    exact hi
  refine ⟨h.fixed, ?_⟩
  cases h.phase with
  | resting hthreads hmoved hagrees hflag => exact .resting (hthreads.append hnew) hmoved hagrees hflag
  | deciding i p hi hp hothers hmoves hshare hagrees =>
    exact .deciding i p (hold hi) hp (hothers.append hnew) hmoves hshare hagrees
  | storing i serverPubkey hi hothers hmoved hkey =>
    exact .storing i serverPubkey (hold hi) (hothers.append hnew) hmoved hkey

omit [DecidableEq E] in
theorem Moved.of_enclaves {s s' : Store E} (h : Moved enclave handover s) (hmoves : s'.moves = s.moves)
    (henclaves : s'.world.enclaves = s.world.enclaves) : Moved enclave handover s' := by
  have hshare : lockboxShare enclave handover s'.world = lockboxShare enclave handover s.world := by
    rw [lockboxShare, lockboxTable, henclaves]
    rfl
  cases h with
  | never hnone hs => exact .never (hmoves.trans hnone) (hshare.trans hs)
  | once t2 t2' x1' hone ht2 hx1 hs => exact .once t2 t2' x1' (hmoves.trans hone) ht2 hx1 (hshare.trans hs)

omit [Module (ZMod n) E] [DecidableEq E] in
theorem Fixed.of_db {w w' : World E} (h : Fixed handover w) (hdb : w'.db = w.db) : Fixed handover w' := by
  refine ⟨?_, ?_⟩
  · rw [hdb]
    exact h.transfer
  · rw [hdb]
    exact h.index

theorem inv_tick (elapsed : ℕ) (h : Inv enclave handover cfg) :
    Inv enclave handover (step enclave batchTimeout handover cfg (.tick elapsed)) := by
  refine ⟨h.fixed.of_db rfl, ?_⟩
  cases h.phase with
  | resting hthreads hmoved hagrees hflag => exact .resting hthreads (hmoved.of_enclaves rfl rfl) hagrees hflag
  | deciding i p hi hp hothers hmoves hshare hagrees => exact .deciding i p hi hp hothers hmoves hshare hagrees
  | storing i serverPubkey hi hothers hmoved hkey =>
    exact .storing i serverPubkey hi hothers (hmoved.of_enclaves rfl rfl) hkey

theorem inv_stop (j : ℕ) (h : Inv enclave handover cfg) (hguard : Settled handover cfg (.thread (.stop j))) :
    Inv enclave handover (step enclave batchTimeout handover cfg (.thread (.stop j))) := by
  refine ⟨h.fixed, ?_⟩
  cases h.phase with
  | resting hthreads hmoved hagrees hflag => exact .resting (hthreads.set .abort j) hmoved hagrees hflag
  | deciding i p hi hp hothers hmoves hshare hagrees =>
    by_cases hij : j = i
    · subst hij
      exact .resting (hothers.close .abort) (.never hmoves hshare) hagrees (fun _ => hmoves)
    · exact .deciding i p ((List.getElem?_set_ne hij).trans hi) hp (hothers.set .abort j) hmoves hshare hagrees
  | storing i serverPubkey hi hothers hmoved hkey =>
    by_cases hij : j = i
    · subst hij
      exact absurd (hguard _ hi _ rfl) nofun
    · exact .storing i serverPubkey ((List.getElem?_set_ne hij).trans hi) (hothers.set .abort j) hmoved hkey

/-- A request outside of an update only reads, and only the test of the flag lets it in. -/
theorem outside_advance {c : Call E} {next : Reply c → Endpoint E Answer} {s : Store E} (choice : Choice n)
    (h : Outside enclave handover (.call c next)) (hfixed : Fixed handover s.world) :
    (handle enclave choice c s).2 = s ∧
      (Outside enclave handover (next (handle enclave choice c s).1) ∨
        (∃ id, c = .isKeyAlreadyUpdated id) ∧ keyUpdated handover s.world = some false ∧
          Deciding enclave handover (next (handle enclave choice c s).1)) := by
  rcases outside_call h with ⟨hread, hnext⟩ | ⟨payload, hid, hcall⟩
  · rw [handle_of_same (hread choice s.world)]
    exact ⟨rfl, .inl (hnext choice s.world hfixed)⟩
  · cases hcall
    have hsame : (Database.handle enclave choice (.isKeyAlreadyUpdated handover.statechainId) s.world).2 = s.world :=
      read_world _ _ _
    rw [handle_of_same hsame]
    refine ⟨rfl, ?_⟩
    rcases checkCall_cases payload hid (Database.handle enclave choice (.isKeyAlreadyUpdated handover.statechainId)
      s.world).1 with hout | ⟨hflag, hin⟩
    · exact .inl hout
    · refine .inr ⟨⟨_, rfl⟩, ?_, hin⟩
      cases hfault : choice.fault with
      | ok =>
        simp only [Database.handle, hfault, Database.read] at hflag
        exact hflag
      | failed text => simp [Database.handle, hfault, Database.read] at hflag
      | lost text => simp [Database.handle, hfault, Database.read] at hflag

theorem Deciding.next {p : Endpoint E Answer} (h : Deciding enclave handover p) :
    ∃ c, p.next? = some c ∧ updating c = true := by
  cases h with
  | index payload hid => exact ⟨_, rfl, rfl⟩
  | lockbox payload hid => exact ⟨_, rfl, rfl⟩

/-- While one request updates the key no other one passes the test. -/
theorem outside_advance_busy {c : Call E} {next : Reply c → Endpoint E Answer} {choice : Choice n} {i j : ℕ}
    {p : Endpoint E Answer} {d : Call E} (hfixed : Fixed handover cfg.store.world)
    (h : Outside enclave handover (.call c next)) (hguard : CallSettled cfg j choice c) (hij : i ≠ j)
    (hi : cfg.threads[i]? = some p) (hp : p.next? = some d) (hd : updating d = true) :
    (handle enclave choice c cfg.store).2 = cfg.store ∧
      Outside enclave handover (next (handle enclave choice c cfg.store).1) := by
  obtain ⟨hsame, hout | ⟨⟨id, rfl⟩, -, -⟩⟩ := outside_advance choice h hfixed
  · exact ⟨hsame, hout⟩
  · have hidle := hguard i (List.getElem?_eq_some_iff.mp hi).1 hij p hi d hp
    rw [hd] at hidle
    cases hidle

omit [Module (ZMod n) E] [DecidableEq E] in
theorem lockboxTable_set {w : World E} {table table' : List (Row E)}
    (h : w.enclaves[handover.enclaveIndex]? = some table) :
    lockboxTable handover { w with enclaves := w.enclaves.set handover.enclaveIndex table' } = table' := by
  obtain ⟨hlt, -⟩ := List.getElem?_eq_some_iff.mp h
  rw [lockboxTable, List.getElem?_set_self hlt]
  rfl

theorem moved_of_callEffect {s : Store E} {choice : Choice n} {payload : TransferReceiverRequestPayload}
    {table table' : List (Row E)} {share t2' x1' : ZMod n} (hid : payload.statechainId = handover.statechainId)
    (hmoves : s.moves = []) (hold : lockboxShare enclave handover s.world = some handover.share)
    (htable : s.world.enclaves[handover.enclaveIndex]? = some table)
    (hworld : (Database.handle enclave choice (lockboxRequest handover payload) s.world).2 =
      { s.world with enclaves := s.world.enclaves.set handover.enclaveIndex table' })
    (hshare : storedShare enclave table payload.statechainId = some share)
    (ht2 : enclave.params.setB32 (parseHex payload.t2) = some t2')
    (hx1 : enclave.params.setB32 handover.x1 = some x1')
    (hnew : storedShare enclave table' payload.statechainId = some (share + t2' - x1')) :
    Moved enclave handover (handle enclave choice (lockboxRequest handover payload) s).2 := by
  have hfirst : share = handover.share := by
    rw [lockboxShare, lockboxTable, htable, Option.getD_some, ← hid, hshare] at hold
    exact Option.some.inj hold
  simp only [handle, hworld]
  split_ifs with hsame
  · exact .never hmoves ((congrArg (fun enclaves => storedShare enclave (enclaves[handover.enclaveIndex]?.getD [])
      handover.statechainId) hsame).trans hold)
  · refine .once payload.t2 t2' x1' ?_ ht2 hx1 ?_
    · rw [hmoves]
      rfl
    · rw [lockboxShare, lockboxTable_set htable, ← hid, hnew, hfirst]

/-- The request asks for the lockbox of the coin and then for the update of its key. -/
theorem deciding_advance {c : Call E} {next : Reply c → Endpoint E Answer} {s : Store E} {choice : Choice n}
    (h : Deciding enclave handover (.call c next)) (hfixed : Fixed handover s.world) (hmoves : s.moves = [])
    (hshare : lockboxShare enclave handover s.world = some handover.share)
    (hlockbox : ∀ index request, c = .lockbox index request →
      settled choice.link = true ∧ confirmed choice.draw.store = true) :
    (handle enclave choice c s).2 = s ∧
      (Outside enclave handover (next (handle enclave choice c s).1) ∨
        Deciding enclave handover (next (handle enclave choice c s).1)) ∨
    ∃ serverPubkey, next (handle enclave choice c s).1 = storing enclave.params.secp handover serverPubkey ∧
      (handle enclave choice c s).2.world.db = s.world.db ∧
      Moved enclave handover (handle enclave choice c s).2 ∧
      lockboxKey handover (handle enclave choice c s).2.world = some serverPubkey := by
  generalize hq : (.call c next : Endpoint E Answer) = q at h
  cases h with
  | index payload hid =>
    cases hq
    have hsame : (Database.handle enclave choice (.getEnclaveIndex payload.statechainId) s.world).2 = s.world :=
      read_world _ _ _
    have hindex : (s.world.db.data.get payload.statechainId).map StatechainData.enclaveIndex =
        some handover.enclaveIndex := by
      rw [hid]
      exact hfixed.index
    rw [handle_of_same hsame]
    refine .inl ⟨rfl, ?_⟩
    simp only [Database.handle, hindex]
    cases choice.fault with
    | ok => exact .inr (.lockbox payload hid)
    | failed text => exact .inl .abort
    | lost text => exact .inl .abort
  | lockbox payload hid =>
    cases hq
    obtain ⟨hlink, hstore⟩ := hlockbox _ _ rfl
    have heffect : CallEffect enclave s.world handover.enclaveIndex payload.statechainId payload.t2
        (Hex.encode handover.x1) (Database.handle enclave choice (lockboxRequest handover payload) s.world) :=
      callLockbox_effect enclave hlink hstore s.world _ _ _ _
    cases heffect with
    | refused hworld hanswer =>
      rw [handle_of_same hworld]
      refine .inl ⟨rfl, .inl ?_⟩
      cases hreply : (Database.handle enclave choice (lockboxRequest handover payload) s.world).1 with
      | failed text => exact .ret _
      | unreadable => exact .abort
      | body body =>
        simp only [onReply, relayKey, hanswer body hreply]
        exact .abort
    | moved table table' share t2' x1' body htable hworld hshare' ht2 hx1 hnew hkey hbody hanswer =>
      rw [parseHex_encode] at hx1
      refine .inr ⟨enclave.params.publicKey (share + t2' - x1'), ?_, ?_,
        moved_of_callEffect hid hmoves hshare htable hworld hshare' ht2 hx1 hnew, ?_⟩
      · change onReply enclave.params.secp handover payload
          (Database.handle enclave choice (lockboxRequest handover payload) s.world).1 = _
        rw [hbody, onReply, relayKey, hanswer, hid]
        rfl
      · simp only [handle, hworld]
      · simp only [handle, hworld]
        rw [lockboxKey, lockboxTable_set htable, ← hid]
        exact hkey

omit [Module (ZMod n) E] in
theorem updateStatechain_view {w : World E} {db : Db (Point E)} {authKey : Bytes} {serverPubkey : Point E}
    (hfixed : Fixed handover w) (h : w.db.updateStatechain handover.statechainId authKey serverPubkey = some db) :
    Fixed handover { w with db := db } ∧ serverPublicKey handover { w with db := db } = some serverPubkey ∧
      keyUpdated handover { w with db := db } = some true := by
  obtain ⟨row, hrow, hauth⟩ := Option.map_eq_some_iff.mp hfixed.transfer
  obtain ⟨data, hdata, hindex⟩ := Option.map_eq_some_iff.mp hfixed.index
  refine ⟨⟨?_, ?_⟩, ?_, ?_⟩
  · rw [Db.updateStatechain_transfers h, Table.get_modify_self, hrow]
    exact congrArg some hauth
  · rw [Db.updateStatechain_data h, Table.get_modify_self, hdata]
    exact congrArg some hindex
  · rw [serverPublicKey, Db.updateStatechain_data h, Table.get_modify_self, hdata]
    rfl
  · rw [keyUpdated, Db.updateStatechain_transfers h, Table.get_modify_self, hrow]
    rfl

theorem inv_store {i : ℕ} {serverPubkey : Point E} {choice : Choice n} (hfixed : Fixed handover cfg.store.world)
    (hothers : AllBut (Outside enclave handover) (some i) cfg.threads) (hmoved : Moved enclave handover cfg.store)
    (hkey : lockboxKey handover cfg.store.world = some serverPubkey) {authKey : Bytes}
    {p : Endpoint E Answer} (hp : Outside enclave handover p)
    (hguard : CallSettled cfg i choice (.updateStatechain authKey serverPubkey handover.statechainId)) :
    Inv enclave handover
      ⟨(handle enclave choice (.updateStatechain authKey serverPubkey handover.statechainId) cfg.store).2,
        cfg.threads.set i p⟩ := by
  obtain ⟨hfault, hsome⟩ := hguard
  obtain ⟨db, hdb⟩ := Option.isSome_iff_exists.mp hsome
  obtain ⟨hfixed', hserver, hflag⟩ := updateStatechain_view hfixed hdb
  have hworld : (Database.handle enclave choice (.updateStatechain authKey serverPubkey handover.statechainId)
      cfg.store.world).2 = { cfg.store.world with db := db } := by
    simp only [Database.handle, hdb]
    cases hf : choice.fault with
    | ok => rfl
    | lost text => rfl
    | failed text => simp [hf, carriedOut] at hfault
  have hstore : (handle enclave choice (.updateStatechain authKey serverPubkey handover.statechainId)
      cfg.store).2 = ⟨{ cfg.store.world with db := db }, cfg.store.moves⟩ := by
    simp only [handle, hworld, if_true]
  rw [hstore]
  refine ⟨hfixed', .resting (hothers.close hp) (hmoved.of_enclaves rfl rfl) (hserver.trans hkey.symm) ?_⟩
  intro hfalse
  rw [hflag] at hfalse
  cases hfalse

theorem inv_advance (j : ℕ) (choice : Choice n) (h : Inv enclave handover cfg)
    (hguard : Settled handover cfg (.thread (.advance j choice))) :
    Inv enclave handover (step enclave batchTimeout handover cfg (.thread (.advance j choice))) := by
  rcases step_advance_cases (program enclave batchTimeout handover) (handle enclave) cfg j choice with
    hsame | ⟨c, next, hj, hstep⟩
  · rw [step, hsame]
    exact h
  rw [step, hstep]
  have hcall : CallSettled cfg j choice c := hguard _ hj c rfl
  cases h.phase with
  | resting hthreads hmoved hagrees hflag =>
    obtain ⟨hsame, hout | ⟨-, hunset, hin⟩⟩ := outside_advance choice (hthreads j _ nofun hj) h.fixed
    · rw [hsame]
      exact ⟨h.fixed, .resting (hthreads.set hout j) hmoved hagrees hflag⟩
    · rw [hsame]
      refine ⟨h.fixed, .deciding j _ ?_ hin hthreads.leave.set_self (hflag hunset) ?_ hagrees⟩
      · exact List.getElem?_set_self (List.getElem?_eq_some_iff.mp hj).1
      · cases hmoved with
        | never hmoves hshare => exact hshare
        | once t2 t2' x1' hmoves ht2 hx1 hshare =>
          rw [hflag hunset] at hmoves
          cases hmoves
  | deciding i p hi hp hothers hmoves hshare hagrees =>
    by_cases hij : i = j
    · subst hij
      rw [hi, Option.some.injEq] at hj
      subst hj
      have hlt := (List.getElem?_eq_some_iff.mp hi).1
      rcases deciding_advance hp h.fixed hmoves hshare (fun index request hc => by subst hc; exact hcall) with
        ⟨hsame, hout | hin⟩ | ⟨serverPubkey, hnext, hdb, hmoved, hkey⟩
      · rw [hsame]
        exact ⟨h.fixed, .resting (hothers.close hout) (.never hmoves hshare) hagrees (fun _ => hmoves)⟩
      · rw [hsame]
        exact ⟨h.fixed, .deciding i _ (List.getElem?_set_self hlt) hin hothers.set_self hmoves hshare hagrees⟩
      · rw [hnext]
        exact ⟨h.fixed.of_db hdb, .storing i serverPubkey (List.getElem?_set_self hlt) hothers.set_self hmoved hkey⟩
    · obtain ⟨d, hd, hbusy⟩ := hp.next
      obtain ⟨hsame, hout⟩ := outside_advance_busy h.fixed (hothers j _ (fun he => hij (Option.some.inj he).symm) hj)
        hcall hij hi hd hbusy
      rw [hsame]
      exact ⟨h.fixed, .deciding i p ((List.getElem?_set_ne (Ne.symm hij)).trans hi) hp (hothers.set hout j) hmoves
        hshare hagrees⟩
  | storing i serverPubkey hi hothers hmoved hkey =>
    by_cases hij : i = j
    · subst hij
      rw [hi, Option.some.injEq] at hj
      cases hj
      refine inv_store h.fixed hothers hmoved hkey ?_ hcall
      cases (handle enclave choice (.updateStatechain (enclave.params.secp.xOnly handover.authPubkey) serverPubkey
        handover.statechainId) cfg.store).1 with
      | none => exact .abort
      | some done => exact .ret _
    · obtain ⟨hsame, hout⟩ := outside_advance_busy h.fixed (hothers j _ (fun he => hij (Option.some.inj he).symm) hj)
        hcall hij hi rfl rfl
      rw [hsame]
      exact ⟨h.fixed, .storing i serverPubkey ((List.getElem?_set_ne (Ne.symm hij)).trans hi) (hothers.set hout j)
        hmoved hkey⟩

theorem inv_step (cfg : Race E) (event : Event n E handover) (h : Inv enclave handover cfg)
    (hguard : Settled handover cfg event) : Inv enclave handover (step enclave batchTimeout handover cfg event) := by
  cases event with
  | tick elapsed => exact inv_tick elapsed h
  | thread event =>
    cases event with
    | start request => exact inv_start request h
    | advance j choice => exact inv_advance j choice h hguard
    | stop j => exact inv_stop j h hguard

section Seven

/-- A coin of the owner with key 2, sent to the receiver with key 3. -/
def sentCoin : World (ZMod 7) :=
  run (System.step sevenKeyring 10) (System.init 1)
    [depositCoin,
      .request (.sender ⟨"coin", sevenSignature 2, seven.secp.publicKeyToStr (seven.publicKey 3), none⟩)
        (fun _ => steady)]

def sevenHandover : Handover 7 (ZMod 7) := ⟨"coin", 0, ⟨3, three_ne_zero_seven⟩, b32 1, 1⟩

theorem fresh_sentCoin : Fresh sevenKeyring sevenHandover sentCoin := by
  have hview : (sentCoin.db.transfers.get "coin").map (fun row => (row.newUserAuthPublicKey, row.x1)) =
        some (sevenHandover.authPubkey, b32 1) ∧
      (sentCoin.db.data.get "coin").map StatechainData.enclaveIndex = some 0 ∧
      lockboxShare sevenKeyring sevenHandover sentCoin = some 1 ∧
      serverPublicKey sevenHandover sentCoin = lockboxKey sevenHandover sentCoin := by decide +kernel
  obtain ⟨htransfer, hindex, hshare, hagrees⟩ := hview
  exact ⟨⟨htransfer, hindex⟩, hshare, hagrees⟩

def sevenRequest : Event 7 (ZMod 7) sevenHandover :=
  .thread (.start ⟨⟨"coin", none, Hex.encode (b32 3), sevenSignature 3⟩, rfl⟩)

/-- Whatever requests for the coin run side by side: if they come to the test one at a time and
nothing is lost between the lockbox and the database, the share moves once and the keys agree
in the end. -/
theorem key_updated_once_of_settled {w : World E} (hfresh : Fresh enclave handover w)
    {events later : List (Event n E handover)}
    (h : Guarded (step enclave batchTimeout handover) (Settled handover) (init w) (events ++ later)) :
    ExactlyOnce enclave handover (run (step enclave batchTimeout handover) (init w) events) :=
  exactlyOnce_of_inv (invariant_reached inv_step (inv_init hfresh) h)

theorem key_updated_once_of_settled_seven :
    Guarded (step sevenKeyring 10 sevenHandover) (Settled sevenHandover) (init sentCoin)
      (([sevenRequest, sevenRequest] ++ advances .thread 0 6 steady) ++ advances .thread 1 4 steady) ∧
    ExactlyOnce sevenKeyring sevenHandover
      (run (step sevenKeyring 10 sevenHandover) (init sentCoin)
        ([sevenRequest, sevenRequest] ++ advances .thread 0 6 steady)) := by
  have h : Guarded (step sevenKeyring 10 sevenHandover) (Settled sevenHandover) (init sentCoin)
      (([sevenRequest, sevenRequest] ++ advances .thread 0 6 steady) ++ advances .thread 1 4 steady) := by decide +kernel
  exact ⟨h, key_updated_once_of_settled fresh_sentCoin h⟩

/-- Both requests pass the test before the first one comes to its update. -/
def racing : List (Event 7 (ZMod 7) sevenHandover) :=
  [sevenRequest, sevenRequest] ++ advances .thread 0 4 steady ++ advances .thread 1 4 steady ++
    advances .thread 0 1 steady ++ advances .thread 1 2 steady ++ advances .thread 0 1 steady

/-- The share moves twice, and in the end the database has the key of the first move and the
lockbox the key of the second. -/
theorem racing_requests_both_update :
    ¬Moved sevenKeyring sevenHandover (run (step sevenKeyring 10 sevenHandover) (init sentCoin) racing).store ∧
    (run (step sevenKeyring 10 sevenHandover) (init sentCoin) racing).Idle ∧
    serverPublicKey sevenHandover (run (step sevenKeyring 10 sevenHandover) (init sentCoin) racing).store.world ≠
      lockboxKey sevenHandover (run (step sevenKeyring 10 sevenHandover) (init sentCoin) racing).store.world := by
  have hrun : (run (step sevenKeyring 10 sevenHandover) (init sentCoin) racing).store.moves.length = 2 ∧
      (∀ p ∈ (run (step sevenKeyring 10 sevenHandover) (init sentCoin) racing).threads, p.next? = none) ∧
      serverPublicKey sevenHandover (run (step sevenKeyring 10 sevenHandover) (init sentCoin) racing).store.world ≠
        lockboxKey sevenHandover (run (step sevenKeyring 10 sevenHandover) (init sentCoin) racing).store.world := by
    decide +kernel
  obtain ⟨hlength, hidle, hkeys⟩ := hrun
  refine ⟨fun hmoved => ?_, hidle, hkeys⟩
  cases hmoved with
  | never hmoves hshare =>
    rw [hmoves] at hlength
    cases hlength
  | once t2 t2' x1' hmoves ht2 hx1 hshare =>
    rw [hmoves] at hlength
    cases hlength

end Seven

end MercuryLayer.Server.KeyUpdateRace
