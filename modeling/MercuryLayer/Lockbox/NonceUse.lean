import MercuryLayer.Library.Runs
import MercuryLayer.Lockbox.Server
import Mathlib.Data.List.Perm.Basic
import Mathlib.Tactic.Ring

namespace MercuryLayer.Lockbox.NonceUse

open Crates Library.Runs Library.XOnlyCurve Lockbox.Enclave Lockbox.Server Musig.Session

variable {n : ℕ} {E : Type} [AddCommGroup E] [Module (ZMod n) E] [DecidableEq E] (enclave : Keyring n E)

def storedNonce (row : Row E) : Option (SecNonce (Point E) (ZMod n)) :=
  row.sealedSecnonce.bind enclave.secnonces.unlock

/-- The secret nonce that a nonce request generates, whether or not it is then stored. -/
def generatedNonce (draw : Draw n) (table : List (Row E)) (statechainId : String) :
    Option (SecNonce (Point E) (ZMod n)) :=
  match loadGeneratedKeyData draw.load table statechainId with
  | .error _ => none
  | .ok row => (row.sealedKeypair.bind enclave.keypairs.unlock).map (fun seckey =>
      ⟨(enclave.nonceGen draw.sessionId seckey).1, (enclave.nonceGen draw.sessionId seckey).2,
        enclave.params.publicKey seckey⟩)

/-- The nonce and the challenge behind a partial signature that was returned. -/
def signedWith (draw : Draw n) (table : List (Row E)) (statechainId : String) (session : Bytes) :
    Option (SecNonce (Point E) (ZMod n) × ZMod n) :=
  match loadGeneratedKeyData draw.load table statechainId with
  | .error _ => none
  | .ok row => do
    let secnonce ← storedNonce enclave row
    let session ← enclave.params.sessionBytes.decode session
    return (secnonce, session.challenge)

/-- The lockbox with its history: every secret nonce generated, every signature returned, and
for each statechain the challenges submitted since its last nonce was handed out. -/
structure State (n : ℕ) (E : Type) [AddCommGroup E] where
  table : List (Row E)
  generated : List (SecNonce (Point E) (ZMod n))
  signatures : List (SecNonce (Point E) (ZMod n) × ZMod n)
  submitted : String → List (ZMod n)

def init : State n E := ⟨[], [], [], fun _ => []⟩

inductive Event (n : ℕ) (E : Type) [AddCommGroup E]
  | request (request : Request) (draw : Draw n)
  | reorder (rows : List (Row E))

def challengeOf (session : Bytes) : Option (ZMod n) :=
  (enclave.params.sessionBytes.decode session).map Session.challenge

/-- The history that a request adds. -/
def record (s : State n E) (draw : Draw n) (outcome : Outcome) : Request → State n E
  | .getPublicNonce statechainId =>
    { s with generated := (generatedNonce enclave draw s.table statechainId).toList ++ s.generated
             submitted := if isSuccess outcome then Function.update s.submitted statechainId [] else s.submitted }
  | .getPartialSignature statechainId _ session =>
    { s with signatures := if isSuccess outcome then
                 (signedWith enclave draw s.table statechainId (parseHex session)).toList ++ s.signatures
               else s.signatures
             submitted := Function.update s.submitted statechainId
               ((challengeOf enclave (parseHex session)).toList ++ s.submitted statechainId) }
  | _ => s

/-- One event: a request with what the environment draws for it, or the database returning
its rows in another order from now on. -/
def step (s : State n E) : Event n E → State n E
  | .request request draw =>
    let result := handle enclave draw s.table request
    { record enclave s draw result.2 request with table := result.1 }
  | .reorder rows => if rows.Perm s.table then { s with table := rows } else s

/-- No two returned signatures share a nonce and differ in the challenge. -/
def SingleUse (s : State n E) : Prop :=
  ∀ nonce c c', (nonce, c) ∈ s.signatures → (nonce, c') ∈ s.signatures → c = c'

/-- Since the last nonce handed out for the statechain, every signing request has carried one
and the same challenge; and generated nonces do not repeat. -/
def OneChallenge (s : State n E) : Event n E → Prop
  | .request (.getPartialSignature statechainId _ session) _ =>
    ∀ c ∈ s.submitted statechainId, challengeOf enclave (parseHex session) = some c
  | .request (.getPublicNonce statechainId) draw =>
    ∀ nonce, generatedNonce enclave draw s.table statechainId = some nonce → nonce ∉ s.generated
  | _ => True

section Handle

variable {enclave} {draw : Draw n} {table : List (Row E)} {row' : Row E}

/-- The row keeps the id and the nonce of a row that was there, has no nonce, or has the one
that the request generated. -/
inductive RowAfter (enclave : Keyring n E) (draw : Draw n) (table : List (Row E)) (request : Request)
    (row' : Row E) : Prop
  | kept (row : Row E) (mem : row ∈ table) (id : row'.statechainId = row.statechainId)
      (nonce : row'.sealedSecnonce = row.sealedSecnonce)
  | cleared (nonce : row'.sealedSecnonce = none)
  | generated (statechainId : String) (nonce : SecNonce (Point E) (ZMod n))
      (isNonce : request = .getPublicNonce statechainId) (id : row'.statechainId = statechainId)
      (isGenerated : generatedNonce enclave draw table statechainId = some nonce)
      (stored : storedNonce enclave row' = some nonce)

theorem rowAfter_of_mem {request : Request} (h : row' ∈ table) : RowAfter enclave draw table request row' :=
  .kept row' h rfl rfl

theorem rowAfter_commit {request : Request} {result : Except String (List (Row E))}
    (hresult : ∀ table', result = .ok table' → ∀ row ∈ table', RowAfter enclave draw table request row)
    (h : row' ∈ (commit draw.store table result).2) : RowAfter enclave draw table request row' := by
  rcases commit_cases draw.store table result with ⟨text, hc⟩ | ⟨table', reported, hr, hc⟩
  · rw [hc] at h
    exact rowAfter_of_mem h
  · rw [hc] at h
    exact hresult table' hr row' h

theorem rowAfter_updateWhere {request : Request} {statechainId : String} {f : Row E → Row E}
    (hid : ∀ row, (f row).statechainId = row.statechainId)
    (hf : ∀ row ∈ table, (f row).sealedSecnonce = row.sealedSecnonce ∨ (f row).sealedSecnonce = none)
    (h : row' ∈ updateWhere statechainId f table) : RowAfter enclave draw table request row' := by
  obtain ⟨row, hrow, rfl⟩ := mem_updateWhere.mp h
  split_ifs with hs
  · rcases hf row hrow with hn | hn
    · exact .kept row hrow (hid row) hn
    · exact .cleared hn
  · exact rowAfter_of_mem hrow

theorem generatedNonce_eq_some {statechainId : String} {row : Row E} {encryptedKeypair : Bytes}
    {response : NewNonceResponse E} (hload : loadGeneratedKeyData draw.load table statechainId = .ok row)
    (hkey : row.sealedKeypair = some encryptedKeypair)
    (hgen : Enclave.generateNonce enclave encryptedKeypair draw.sessionId draw.nonce = .ok response) :
    ∃ nonce, generatedNonce enclave draw table statechainId = some nonce ∧
      response.encryptedSecnonce = enclave.secnonces.lock draw.nonce nonce := by
  obtain ⟨seckey, hunlock, rfl⟩ := (generateNonce_eq_ok enclave).mp hgen
  refine ⟨_, ?_, rfl⟩
  simp only [generatedNonce, hload, hkey, Option.bind_some, hunlock, Option.map_some]

theorem rowAfter_getPublicNonce {statechainId : String}
    (h : row' ∈ (generatePublicNonce enclave draw table statechainId).1) :
    RowAfter enclave draw table (.getPublicNonce statechainId) row' := by
  rcases generatePublicNonce_cases enclave draw table statechainId with ⟨ht, -⟩ | ⟨row, kp, response, hload, hkey, hgen, heq⟩
  · rw [ht] at h
    exact rowAfter_of_mem h
  · obtain ⟨nonce, hnonce, hlock⟩ := generatedNonce_eq_some hload hkey hgen
    rw [heq] at h
    refine rowAfter_commit (fun table' ht row'' hr => ?_) h
    rw [Except.ok.injEq] at ht
    subst ht
    obtain ⟨row₀, hrow₀, rfl⟩ := mem_updateWhere.mp hr
    split_ifs with hs
    · refine .generated statechainId nonce rfl hs hnonce ?_
      simp only [storedNonce, Option.bind_some, hlock, enclave.secnonces.unlock_lock]
    · exact rowAfter_of_mem hrow₀

theorem rowAfter_handle {request : Request} (h : row' ∈ (handle enclave draw table request).1) :
    RowAfter enclave draw table request row' := by
  cases request with
  | malformed => exact rowAfter_of_mem h
  | getPublicKey statechainId =>
    refine rowAfter_commit (fun table' ht row'' hr => ?_) h
    simp only [saveGeneratedPublicKey] at ht
    split_ifs at ht
    rw [Except.ok.injEq] at ht
    subst ht
    rcases List.mem_append.mp hr with hr | hr
    · exact rowAfter_of_mem hr
    · rw [List.mem_singleton.mp hr]
      exact .cleared rfl
  | getPublicNonce statechainId => exact rowAfter_getPublicNonce h
  | getPartialSignature statechainId negateSeckey session =>
    simp only [handle] at h
    split_ifs at h with hlen
    · exact rowAfter_of_mem h
    · rcases generatePartialSignature_cases enclave draw table statechainId negateSeckey
        (parseHex session) with ⟨ht, -⟩ | ⟨_, _, _, _, -, -, -, -, heq⟩
      · rw [ht] at h
        exact rowAfter_of_mem h
      · rw [heq] at h
        refine rowAfter_commit (fun table' ht row'' hr => ?_) h
        rw [Except.ok.injEq] at ht
        subst ht
        refine rowAfter_updateWhere ?_ ?_ hr
        · exact fun row => rfl
        · exact fun row _ => .inl rfl
  | keyupdate statechainId t2 x1 =>
    simp only [handle] at h
    split_ifs at h
    · exact rowAfter_of_mem h
    · exact rowAfter_of_mem h
    · rcases keyupdate_cases enclave draw table statechainId (parseHex t2) (parseHex x1) with ht | ⟨_, _, response, -, -, -, heq⟩
      · rw [ht] at h
        exact rowAfter_of_mem h
      · rw [heq] at h
        refine rowAfter_commit (fun table' ht row'' hr => ?_) h
        simp only [updateSealedKeypair] at ht
        split_ifs at ht
        rw [Except.ok.injEq] at ht
        subst ht
        refine rowAfter_updateWhere ?_ ?_ hr
        · exact fun row => rfl
        · exact fun row _ => .inr rfl
  | deleteStatechain statechainId =>
    refine rowAfter_commit (fun table' ht row'' hr => ?_) h
    rw [Except.ok.injEq] at ht
    subst ht
    exact rowAfter_of_mem (List.mem_filter.mp hr).1

theorem RowAfter.keptOrCleared {request : Request} (h : RowAfter enclave draw table request row')
    (hnone : ∀ id, request = .getPublicNonce id → generatedNonce enclave draw table id = none) :
    (∃ row ∈ table, row'.statechainId = row.statechainId ∧ row'.sealedSecnonce = row.sealedSecnonce) ∨
      row'.sealedSecnonce = none := by
  cases h with
  | kept row mem id nonce => exact .inl ⟨row, mem, id, nonce⟩
  | cleared nonce => exact .inr nonce
  | generated statechainId nonce isNonce id isGenerated stored =>
    rw [hnone statechainId isNonce] at isGenerated
    cases isGenerated

/-- A nonce that is handed out stands in every row of its statechain. -/
theorem stored_of_success {statechainId : String}
    (hok : isSuccess (generatePublicNonce enclave draw table statechainId).2 = true) :
    ∃ nonce, generatedNonce enclave draw table statechainId = some nonce ∧
      ∀ row' ∈ (generatePublicNonce enclave draw table statechainId).1,
        row'.statechainId = statechainId → storedNonce enclave row' = some nonce := by
  rcases generatePublicNonce_cases enclave draw table statechainId with
    ⟨-, hno⟩ | ⟨row, kp, response, hload, hkey, hgen, heq⟩
  · rw [hno] at hok
    cases hok
  · obtain ⟨nonce, hnonce, hlock⟩ := generatedNonce_eq_some hload hkey hgen
    refine ⟨nonce, hnonce, ?_⟩
    rw [heq] at hok ⊢
    rcases commit_cases draw.store table (.ok (updateSealedSecnonce table statechainId response)) with
      ⟨text, hc⟩ | ⟨table', reported, ht, hc⟩
    · rw [hc] at hok
      cases hok
    · rw [Except.ok.injEq] at ht
      subst ht
      rw [hc]
      intro row' hrow' hid
      obtain ⟨row₀, hrow₀, rfl⟩ := mem_updateWhere.mp hrow'
      split_ifs at hid ⊢ with hs
      · simp only [storedNonce, Option.bind_some, hlock, enclave.secnonces.unlock_lock]
      · exact absurd hid hs

/-- A partial signature that is returned is computed from the nonce and the challenge that the
history records for it. -/
theorem signedWith_of_success {statechainId session : String} {negateSeckey : Int64}
    (hok : isSuccess (handle enclave draw table (.getPartialSignature statechainId negateSeckey session)).2 =
      true) :
    ∃ row ∈ table, row.statechainId = statechainId ∧ ∃ nonce seckey data sig,
      storedNonce enclave row = some nonce ∧
      enclave.params.sessionBytes.decode (parseHex session) = some data ∧
      signedWith enclave draw table statechainId (parseHex session) = some (nonce, data.challenge) ∧
      enclave.params.blindedMusigPartialSignWithoutKeyaggcoeff nonce seckey data
        (negateSeckey.toInt32 ≠ 0) = some sig ∧
      (handle enclave draw table (.getPartialSignature statechainId negateSeckey session)).2 =
        success "partial_sig" (enclave.params.getB32 sig) := by
  simp only [handle] at hok ⊢
  split_ifs at hok ⊢ with hlen
  · cases hok
  · rcases generatePartialSignature_cases enclave draw table statechainId negateSeckey
      (parseHex session) with ⟨-, hno⟩ | ⟨row, kp, sn, sig, hload, -, hsn, hsig, heq⟩
    · rw [hno] at hok
      cases hok
    · obtain ⟨seckey, nonce, data, -, hnonce, hdata, hsigned⟩ := (partialSignature_eq_ok enclave).mp hsig
      have hstored : storedNonce enclave row = some nonce := by
        simp only [storedNonce, hsn, Option.bind_some, hnonce]
      refine ⟨row, (mem_of_load hload).1, (mem_of_load hload).2, nonce, seckey, data, sig, hstored, hdata, ?_,
        hsigned, ?_⟩
      · simp only [signedWith, hload, hstored, hdata]
        rfl
      · rw [heq] at hok ⊢
        rcases commit_cases draw.store table (.ok (updateSigCount table statechainId)) with
          ⟨text, hc⟩ | ⟨table', reported, -, hc⟩
        · rw [hc] at hok
          cases hok
        · rw [hc] at hok ⊢
          cases reported with
          | error message => cases hok
          | ok _ => rfl

end Handle

section Invariant

variable {enclave} {s : State n E}

omit [DecidableEq E]

/-- Every nonce in a row or behind a signature was generated, a nonce stands in rows of one
statechain only, and what it signed was submitted for that statechain since it was handed
out. -/
structure Inv (enclave : Keyring n E) (s : State n E) : Prop where
  rowGenerated : ∀ row ∈ s.table, ∀ nonce, storedNonce enclave row = some nonce → nonce ∈ s.generated
  signedGenerated : ∀ nonce c, (nonce, c) ∈ s.signatures → nonce ∈ s.generated
  oneStatechain : ∀ row ∈ s.table, ∀ row' ∈ s.table, ∀ nonce, storedNonce enclave row = some nonce →
    storedNonce enclave row' = some nonce → row.statechainId = row'.statechainId
  signedSubmitted : ∀ row ∈ s.table, ∀ nonce c, storedNonce enclave row = some nonce →
    (nonce, c) ∈ s.signatures → c ∈ s.submitted row.statechainId
  singleUse : SingleUse s

theorem inv_init : Inv enclave (init : State n E) where
  rowGenerated := by simp [init]
  signedGenerated := by simp [init]
  oneStatechain := by simp [init]
  signedSubmitted := by simp [init]
  singleUse := by simp [SingleUse, init]

theorem storedNonce_congr (enclave : Keyring n E) {row row' : Row E}
    (h : row'.sealedSecnonce = row.sealedSecnonce) : storedNonce enclave row' = storedNonce enclave row := by
  rw [storedNonce, storedNonce, h]

/-- Rows may lose their nonce or go, and nothing else about the nonces changes. -/
theorem Inv.setTable (h : Inv enclave s) {table' : List (Row E)}
    (hrows : ∀ row' ∈ table', (∃ row ∈ s.table, row'.statechainId = row.statechainId ∧
      row'.sealedSecnonce = row.sealedSecnonce) ∨ row'.sealedSecnonce = none) :
    Inv enclave { s with table := table' } := by
  have hold : ∀ row' ∈ table', ∀ nonce, storedNonce enclave row' = some nonce →
      ∃ row ∈ s.table, row'.statechainId = row.statechainId ∧ storedNonce enclave row = some nonce := by
    intro row' hrow' nonce hnonce
    rcases hrows row' hrow' with ⟨row, hrow, hid, hsame⟩ | hnone
    · exact ⟨row, hrow, hid, (storedNonce_congr enclave hsame).symm.trans hnonce⟩
    · simp [storedNonce, hnone] at hnonce
  refine ⟨?_, h.signedGenerated, ?_, ?_, h.singleUse⟩
  · intro row' hrow' nonce hnonce
    obtain ⟨row, hrow, -, hn⟩ := hold row' hrow' nonce hnonce
    exact h.rowGenerated row hrow nonce hn
  · intro row₁ h₁ row₂ h₂ nonce hn₁ hn₂
    obtain ⟨row, hrow, hid, hn⟩ := hold row₁ h₁ nonce hn₁
    obtain ⟨row', hrow', hid', hn'⟩ := hold row₂ h₂ nonce hn₂
    rw [hid, hid']
    exact h.oneStatechain row hrow row' hrow' nonce hn hn'
  · intro row' hrow' nonce c hnonce hsigned
    obtain ⟨row, hrow, hid, hn⟩ := hold row' hrow' nonce hnonce
    rw [hid]
    exact h.signedSubmitted row hrow nonce c hn hsigned

theorem mem_update_of_mem {f : String → List (ZMod n)} {id id' : String} {cs : List (ZMod n)} {c : ZMod n}
    (h : c ∈ f id') : c ∈ Function.update f id (cs ++ f id) id' := by
  by_cases hid : id' = id
  · subst hid
    rw [Function.update_self]
    exact List.mem_append_right _ h
  · rwa [Function.update_of_ne hid]

theorem Inv.submit (h : Inv enclave s) (statechainId : String) (cs : List (ZMod n)) :
    Inv enclave
      { s with submitted := Function.update s.submitted statechainId (cs ++ s.submitted statechainId) } :=
  ⟨h.rowGenerated, h.signedGenerated, h.oneStatechain,
    fun row hrow nonce c hnonce hsigned => mem_update_of_mem (h.signedSubmitted row hrow nonce c hnonce hsigned),
    h.singleUse⟩

/-- Signing with the nonce of a row is safe if what was submitted for its statechain so far is
the challenge being signed. -/
theorem Inv.sign (h : Inv enclave s) {row : Row E} (hrow : row ∈ s.table)
    {nonce : SecNonce (Point E) (ZMod n)} (hnonce : storedNonce enclave row = some nonce) {c : ZMod n}
    (hsame : ∀ c' ∈ s.submitted row.statechainId, c' = c) :
    Inv enclave { s with signatures := (nonce, c) :: s.signatures
                         submitted := Function.update s.submitted row.statechainId
                           ([c] ++ s.submitted row.statechainId) } := by
  have hbefore : ∀ c', (nonce, c') ∈ s.signatures → c' = c := fun c' hc' =>
    hsame c' (h.signedSubmitted row hrow nonce c' hnonce hc')
  refine ⟨h.rowGenerated, ?_, h.oneStatechain, ?_, ?_⟩
  · intro nonce' c' hsigned
    rcases List.mem_cons.mp hsigned with heq | hsigned
    · rw [Prod.mk.injEq] at heq
      rw [heq.1]
      exact h.rowGenerated row hrow nonce hnonce
    · exact h.signedGenerated nonce' c' hsigned
  · intro row' hrow' nonce' c' hnonce' hsigned
    rcases List.mem_cons.mp hsigned with heq | hsigned
    · obtain ⟨rfl, rfl⟩ := Prod.mk.inj heq
      rw [h.oneStatechain row' hrow' row hrow _ hnonce' hnonce]
      simp
    · exact mem_update_of_mem (h.signedSubmitted row' hrow' nonce' c' hnonce' hsigned)
  · intro nonce' c₁ c₂ h₁ h₂
    rcases List.mem_cons.mp h₁ with heq₁ | hold₁ <;> rcases List.mem_cons.mp h₂ with heq₂ | hold₂
    · rw [(Prod.mk.inj heq₁).2, (Prod.mk.inj heq₂).2]
    · obtain ⟨rfl, rfl⟩ := Prod.mk.inj heq₁
      exact (hbefore c₂ hold₂).symm
    · obtain ⟨rfl, rfl⟩ := Prod.mk.inj heq₂
      exact hbefore c₁ hold₁
    · exact h.singleUse nonce' c₁ c₂ hold₁ hold₂

/-- A fresh nonce may enter the rows of one statechain. What was submitted for it is
forgotten only if no other nonce stays there. -/
theorem Inv.newNonce (h : Inv enclave s) {statechainId : String} {nonce : SecNonce (Point E) (ZMod n)}
    (hfresh : nonce ∉ s.generated) {table' : List (Row E)} {submitted' : List (ZMod n)}
    (hrows : ∀ row' ∈ table', (∃ row ∈ s.table, row'.statechainId = row.statechainId ∧
      row'.sealedSecnonce = row.sealedSecnonce) ∨ row'.sealedSecnonce = none ∨
      (row'.statechainId = statechainId ∧ storedNonce enclave row' = some nonce))
    (hsubmitted : submitted' = s.submitted statechainId ∨
      ∀ row' ∈ table', row'.statechainId = statechainId → storedNonce enclave row' = some nonce) :
    Inv enclave { s with table := table'
                         generated := nonce :: s.generated
                         submitted := Function.update s.submitted statechainId submitted' } := by
  have hold : ∀ row' ∈ table', ∀ nonce', storedNonce enclave row' = some nonce' →
      (∃ row ∈ s.table, row'.statechainId = row.statechainId ∧ storedNonce enclave row = some nonce') ∨
        row'.statechainId = statechainId ∧ nonce' = nonce := by
    intro row' hrow' nonce' hnonce'
    rcases hrows row' hrow' with ⟨row, hrow, hid, hsame⟩ | hnone | ⟨hid, hnew⟩
    · exact .inl ⟨row, hrow, hid, (storedNonce_congr enclave hsame).symm.trans hnonce'⟩
    · simp [storedNonce, hnone] at hnonce'
    · rw [hnew, Option.some.injEq] at hnonce'
      exact .inr ⟨hid, hnonce'.symm⟩
  have hunused : ∀ row ∈ s.table, storedNonce enclave row ≠ some nonce := fun row hrow hn =>
    hfresh (h.rowGenerated row hrow nonce hn)
  refine ⟨?_, ?_, ?_, ?_, h.singleUse⟩
  · intro row' hrow' nonce' hnonce'
    rcases hold row' hrow' nonce' hnonce' with ⟨row, hrow, -, hn⟩ | ⟨-, rfl⟩
    · exact List.mem_cons_of_mem _ (h.rowGenerated row hrow nonce' hn)
    · exact List.mem_cons_self
  · intro nonce' c hsigned
    exact List.mem_cons_of_mem _ (h.signedGenerated nonce' c hsigned)
  · intro row₁ h₁ row₂ h₂ nonce' hn₁ hn₂
    rcases hold row₁ h₁ nonce' hn₁ with ⟨row, hrow, hid, hn⟩ | ⟨hid, rfl⟩
    · rcases hold row₂ h₂ nonce' hn₂ with ⟨row', hrow', hid', hn'⟩ | ⟨-, rfl⟩
      · rw [hid, hid']
        exact h.oneStatechain row hrow row' hrow' nonce' hn hn'
      · exact absurd hn (hunused row hrow)
    · rcases hold row₂ h₂ nonce' hn₂ with ⟨row', hrow', -, hn'⟩ | ⟨hid', -⟩
      · exact absurd hn' (hunused row' hrow')
      · rw [hid, hid']
  · intro row' hrow' nonce' c hnonce' hsigned
    rcases hold row' hrow' nonce' hnonce' with ⟨row, hrow, hid, hn⟩ | ⟨-, rfl⟩
    · have hc := h.signedSubmitted row hrow nonce' c hn hsigned
      rw [← hid] at hc
      change c ∈ Function.update s.submitted statechainId submitted' row'.statechainId
      by_cases hs : row'.statechainId = statechainId
      · rcases hsubmitted with rfl | hall
        · rwa [Function.update_eq_self]
        · rw [hall row' hrow' hs, Option.some.injEq] at hnonce'
          subst hnonce'
          exact absurd hn (hunused row hrow)
      · rwa [Function.update_of_ne hs]
    · exact absurd (h.signedGenerated nonce' c hsigned) hfresh

end Invariant

section Step

variable {enclave} {s : State n E} {draw : Draw n}

theorem inv_getPublicNonce (h : Inv enclave s) {statechainId : String}
    (hfresh : ∀ nonce, generatedNonce enclave draw s.table statechainId = some nonce → nonce ∉ s.generated) :
    Inv enclave (step enclave s (.request (.getPublicNonce statechainId) draw)) := by
  have hafter : ∀ row' ∈ (generatePublicNonce enclave draw s.table statechainId).1,
      RowAfter enclave draw s.table (.getPublicNonce statechainId) row' :=
    fun row' => rowAfter_getPublicNonce
  cases hgen : generatedNonce enclave draw s.table statechainId with
  | none =>
    have hno : isSuccess (generatePublicNonce enclave draw s.table statechainId).2 = false := by
      by_contra hok
      obtain ⟨nonce, hnonce, -⟩ := stored_of_success (Bool.eq_true_of_not_eq_false hok)
      rw [hgen] at hnonce
      cases hnonce
    have hstep : step enclave s (.request (.getPublicNonce statechainId) draw) =
        { s with table := (generatePublicNonce enclave draw s.table statechainId).1 } := by
      simp [step, handle, record, hgen, hno]
    rw [hstep]
    refine h.setTable (fun row' hrow' => (hafter row' hrow').keptOrCleared ?_)
    intro id hid
    rw [Request.getPublicNonce.injEq] at hid
    rwa [← hid]
  | some nonce =>
    have hrows : ∀ row' ∈ (generatePublicNonce enclave draw s.table statechainId).1,
        (∃ row ∈ s.table, row'.statechainId = row.statechainId ∧ row'.sealedSecnonce = row.sealedSecnonce) ∨
          row'.sealedSecnonce = none ∨
          (row'.statechainId = statechainId ∧ storedNonce enclave row' = some nonce) := by
      intro row' hrow'
      cases hafter row' hrow' with
      | kept row mem id same => exact .inl ⟨row, mem, id, same⟩
      | cleared hnone => exact .inr (.inl hnone)
      | generated id nonce' isNonce hid isGenerated stored =>
        rw [Request.getPublicNonce.injEq] at isNonce
        subst isNonce
        rw [hgen, Option.some.injEq] at isGenerated
        subst isGenerated
        exact .inr (.inr ⟨hid, stored⟩)
    by_cases hok : isSuccess (generatePublicNonce enclave draw s.table statechainId).2 = true
    · obtain ⟨nonce', hnonce', hall⟩ := stored_of_success hok
      rw [hgen, Option.some.injEq] at hnonce'
      subst hnonce'
      have hstep : step enclave s (.request (.getPublicNonce statechainId) draw) =
          { s with table := (generatePublicNonce enclave draw s.table statechainId).1
                   generated := nonce :: s.generated
                   submitted := Function.update s.submitted statechainId [] } := by
        simp [step, handle, record, hgen, hok]
      rw [hstep]
      exact h.newNonce (hfresh nonce hgen) hrows (.inr hall)
    · have hstep : step enclave s (.request (.getPublicNonce statechainId) draw) =
          { s with table := (generatePublicNonce enclave draw s.table statechainId).1
                   generated := nonce :: s.generated
                   submitted := Function.update s.submitted statechainId (s.submitted statechainId) } := by
        simp [step, handle, record, hgen, hok]
      rw [hstep]
      exact h.newNonce (hfresh nonce hgen) hrows (.inl rfl)

theorem inv_getPartialSignature (h : Inv enclave s) {statechainId session : String} {negateSeckey : Int64}
    (hsame : ∀ c ∈ s.submitted statechainId, challengeOf enclave (parseHex session) = some c) :
    Inv enclave (step enclave s (.request (.getPartialSignature statechainId negateSeckey session) draw)) := by
  have hafter : ∀ row' ∈ (handle enclave draw s.table
      (.getPartialSignature statechainId negateSeckey session)).1, _ :=
    fun row' hrow' => (rowAfter_handle hrow').keptOrCleared (fun id hid => nomatch hid)
  by_cases hok : isSuccess
      (handle enclave draw s.table (.getPartialSignature statechainId negateSeckey session)).2 = true
  · obtain ⟨row, hrow, rfl, nonce, -, data, -, hnonce, hdata, hsigned, -, -⟩ := signedWith_of_success hok
    have hc : challengeOf enclave (parseHex session) = some data.challenge := by
      simp only [challengeOf, hdata, Option.map_some]
    have hsign := h.sign hrow hnonce (fun c' hc' => Option.some.inj ((hsame c' hc').symm.trans hc))
    have hstep : step enclave s (.request (.getPartialSignature row.statechainId negateSeckey session) draw) =
        { s with table := (handle enclave draw s.table
                   (.getPartialSignature row.statechainId negateSeckey session)).1
                 signatures := (nonce, data.challenge) :: s.signatures
                 submitted := Function.update s.submitted row.statechainId
                   ([data.challenge] ++ s.submitted row.statechainId) } := by
      simp only [step, record, hok, if_true, hsigned, hc, Option.toList_some, List.singleton_append]
    rw [hstep]
    exact hsign.setTable hafter
  · have hstep : step enclave s (.request (.getPartialSignature statechainId negateSeckey session) draw) =
        { s with table := (handle enclave draw s.table
                   (.getPartialSignature statechainId negateSeckey session)).1
                 submitted := Function.update s.submitted statechainId
                   ((challengeOf enclave (parseHex session)).toList ++ s.submitted statechainId) } := by
      simp only [step, record, hok, if_false, Bool.false_eq_true]
    rw [hstep]
    exact (h.submit statechainId _).setTable hafter

theorem inv_step (s : State n E) (event : Event n E) (h : Inv enclave s) (hg : OneChallenge enclave s event) :
    Inv enclave (step enclave s event) := by
  cases event with
  | reorder rows =>
    simp only [step]
    split_ifs with hperm
    · exact h.setTable (fun row' hrow' => .inl ⟨row', hperm.mem_iff.mp hrow', rfl, rfl⟩)
    · exact h
  | request request draw =>
    cases request with
    | getPublicNonce statechainId => exact inv_getPublicNonce h hg
    | getPartialSignature statechainId negateSeckey session => exact inv_getPartialSignature h hg
    | malformed | getPublicKey statechainId | keyupdate statechainId t2 x1 | deleteStatechain statechainId =>
      exact h.setTable (fun row' hrow' => (rowAfter_handle hrow').keptOrCleared (fun id hid => nomatch hid))

theorem step_getPartialSignature (s : State n E) (draw : Draw n) {statechainId session : String}
    {negateSeckey : Int64} {bytes : Bytes} (hparse : parseHex session = bytes) (hlen : bytes.length = 133) :
    step enclave s (.request (.getPartialSignature statechainId negateSeckey session) draw) =
      { table := (generatePartialSignature enclave draw s.table statechainId negateSeckey bytes).1
        generated := s.generated
        signatures :=
          if isSuccess (generatePartialSignature enclave draw s.table statechainId negateSeckey bytes).2 then
            (signedWith enclave draw s.table statechainId bytes).toList ++ s.signatures
          else s.signatures
        submitted := Function.update s.submitted statechainId
          ((challengeOf enclave bytes).toList ++ s.submitted statechainId) } := by
  subst hparse
  have hhandle : handle enclave draw s.table (.getPartialSignature statechainId negateSeckey session) =
      generatePartialSignature enclave draw s.table statechainId negateSeckey (parseHex session) := by
    simp only [handle]
    exact if_neg (not_not.mpr hlen)
  simp only [step, record, hhandle]

end Step

/-- Two signatures with one nonce and two challenges give the share away. -/
theorem seckey_of_two_signatures {nonce : SecNonce (Point E) (ZMod n)} {seckey sig sig' : ZMod n}
    {session session' : Session (ZMod n)}
    (hsig : enclave.params.blindedMusigPartialSignWithoutKeyaggcoeff nonce seckey session false = some sig)
    (hsig' : enclave.params.blindedMusigPartialSignWithoutKeyaggcoeff nonce seckey session' false = some sig')
    (hparity : session.finNonceParity = session'.finNonceParity)
    (hcoef : session.noncecoef = session'.noncecoef) :
    sig - sig' = (session.challenge - session'.challenge) * seckey := by
  simp only [Params.blindedMusigPartialSignWithoutKeyaggcoeff, Option.ite_none_left_eq_some, Option.some.injEq,
    Bool.false_eq_true, if_false] at hsig hsig'
  rw [← hsig.2.2, ← hsig'.2.2, hparity, hcoef]
  ring

section Seven

def sevenDraw (sessionId : Bytes) : Draw 7 := ⟨⟨1, one_ne_zero_seven⟩, sessionId, [], .ok, .ok⟩

/-- A session of 133 bytes with the given challenge. -/
def sevenSession (challenge : Char) : String :=
  String.ofList (['0', '0', '0', '1', '0', challenge, '0', '0'] ++ List.replicate (2 * 129) '0')

theorem parseHexChars_zeros (k : ℕ) : parseHexChars (List.replicate (2 * k) '0') = List.replicate k 0 := by
  induction k with
  | zero => rfl
  | succ k ih =>
    rw [Nat.mul_succ, List.replicate_succ, List.replicate_succ, List.replicate_succ, ← ih]
    rfl

@[simp] theorem parseHex_sevenSession_one :
    parseHex (sevenSession '1') = 0 :: 1 :: 1 :: 0 :: List.replicate 129 0 := by
  rw [← parseHexChars_zeros, parseHex, sevenSession, String.toList_ofList]
  rfl

@[simp] theorem parseHex_sevenSession_two :
    parseHex (sevenSession '2') = 0 :: 1 :: 2 :: 0 :: List.replicate 129 0 := by
  rw [← parseHexChars_zeros, parseHex, sevenSession, String.toList_ofList]
  rfl

def openingRequests : List (Event 7 (ZMod 7)) :=
  [.request (.getPublicKey "coin") (sevenDraw []), .request (.getPublicNonce "coin") (sevenDraw [1]),
    .request (.getPartialSignature "coin" 0 (sevenSession '1')) (sevenDraw [])]

/-- As long as the signing requests of a statechain carry one challenge for each nonce handed
out, no nonce signs two challenges, in any state that the lockbox passes through. -/
theorem nonce_single_use_of_oneChallenge {events later : List (Event n E)}
    (h : Guarded (step enclave) (OneChallenge enclave) init (events ++ later)) :
    SingleUse (run (step enclave) init events) :=
  (invariant_reached inv_step inv_init h).singleUse

theorem nonce_single_use_of_oneChallenge_seven :
    Guarded (step sevenKeyring) (OneChallenge sevenKeyring) init (openingRequests ++
      [.request (.getPublicNonce "coin") (sevenDraw [2]),
        .request (.getPartialSignature "coin" 0 (sevenSession '2')) (sevenDraw [])]) ∧
    SingleUse (run (step sevenKeyring) init openingRequests) := by
  have h : Guarded (step sevenKeyring) (OneChallenge sevenKeyring) init (openingRequests ++
      [.request (.getPublicNonce "coin") (sevenDraw [2]),
        .request (.getPartialSignature "coin" 0 (sevenSession '2')) (sevenDraw [])]) := by
    refine ⟨trivial, ?_, ?_, ?_, ?_, trivial⟩
    · intro nonce _ hmem
      exact absurd hmem List.not_mem_nil
    · intro c hc
      exact absurd hc List.not_mem_nil
    · intro nonce hnonce hmem
      rw [step_getPartialSignature _ _ parseHex_sevenSession_one rfl] at hnonce hmem
      have hnew : nonce = ⟨2, 1, ⟨1, by decide⟩⟩ := (Option.some.inj hnonce).symm
      have hold : nonce = ⟨1, 1, ⟨1, by decide⟩⟩ := List.mem_singleton.mp hmem
      rw [hnew] at hold
      exact absurd hold (by decide)
    · intro c hc
      rw [step_getPartialSignature _ _ parseHex_sevenSession_one rfl] at hc
      exact absurd hc List.not_mem_nil
  exact ⟨h, nonce_single_use_of_oneChallenge sevenKeyring h⟩

/-- Two sessions with different challenges, sent one after the other, are both signed with the
one nonce that was handed out. -/
theorem two_challenges_one_nonce :
    ¬ SingleUse (run (step sevenKeyring) init (openingRequests ++
      [.request (.getPartialSignature "coin" 0 (sevenSession '2')) (sevenDraw [])])) := by
  have hsigned : (run (step sevenKeyring) init (openingRequests ++
      [.request (.getPartialSignature "coin" 0 (sevenSession '2')) (sevenDraw [])])).signatures =
        [(⟨1, 1, ⟨1, by decide⟩⟩, 2), (⟨1, 1, ⟨1, by decide⟩⟩, 1)] := by
    rw [openingRequests, run_append, run_cons, run_cons, run_cons, run_nil, run_cons, run_nil,
      step_getPartialSignature _ _ parseHex_sevenSession_two rfl,
      step_getPartialSignature _ _ parseHex_sevenSession_one rfl]
    rfl
  intro h
  have heq : (2 : ZMod 7) = 1 := by
    refine h ⟨1, 1, ⟨1, by decide⟩⟩ 2 1 ?_ ?_
    · rw [hsigned]
      exact List.mem_cons_self
    · rw [hsigned]
      exact List.mem_cons_of_mem _ List.mem_cons_self
  exact absurd heq (by decide)

end Seven

end MercuryLayer.Lockbox.NonceUse
