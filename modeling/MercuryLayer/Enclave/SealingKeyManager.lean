import MercuryLayer.Library.Runs
import MercuryLayer.Library.XOnlyCurve

namespace MercuryLayer.Enclave.SealingKeyManager

open Library.Runs
open Library.XOnlyCurve (Bytes)

structure SealedKeyShare where
  index : UInt64
  data : Bytes
deriving DecidableEq

structure APIResponse where
  success : Bool
  code : ℕ
  message : String
deriving DecidableEq

def done : APIResponse := ⟨true, 0, ""⟩

def failed (code : ℕ) (message : String) : APIResponse := ⟨false, code, message⟩

/-- The fields of the manager that seed recovery uses, with the file `node.sealed_seed`. A null
`sealed_seed` is the empty list. -/
structure Manager where
  keyShares : List SealedKeyShare
  threshold : UInt64
  sealedSeed : Bytes
  seedFile : Option Bytes

/-- The arguments with which `recoverSeed` calls the enclave. -/
structure RecoverSeed where
  allKeyShares : Bytes
  keyShareIndexes : List UInt8
  keyShareDataSize : ℕ
  threshold : UInt64
deriving DecidableEq

/-- What the enclave and the file system do in the course of a call: the two status codes of an
ecall (true for success) and what it leaves in its buffer, and how the file can be written. -/
structure Host where
  sealEcallRet : Bool
  sealStatus : Bool
  sealedKeyFromMnemonics : Bytes → String → Bytes
  ecallRet : Bool
  status : Bool
  sealedSeed : Bytes
  opened : Bool
  good : Bool
  written : Bytes
  readable : Bool

structure Result where
  response : APIResponse
  manager : Manager
  recovery : Option RecoverSeed

namespace Manager

def isSeedEmpty (m : Manager) : Bool := m.sealedSeed.all (· == 0)

def writeSeedToFile (host : Host) (m : Manager) : Bool × Manager :=
  if m.seedFile.isSome then (false, m)
  else if m.isSeedEmpty then (false, m)
  else if !host.opened then (false, m)
  else (host.good, { m with seedFile := some host.written })

/-- The array of indexes has one byte for each. -/
def recoverArguments (m : Manager) : RecoverSeed where
  allKeyShares := m.keyShares.flatMap (·.data)
  keyShareIndexes := m.keyShares.map (·.index.toUInt8)
  keyShareDataSize := (m.keyShares.head?.map (·.data.length)).getD 0
  threshold := m.threshold

def recoverSeed (host : Host) (m : Manager) : APIResponse × Manager × RecoverSeed :=
  let m' := { m with sealedSeed := host.sealedSeed }
  if !host.ecallRet then (failed 500 "Recove Seed Ecall failed ", m', m.recoverArguments)
  else if !host.status then (failed 500 "Recove Seed failed ", m', m.recoverArguments)
  else (done, m', m.recoverArguments)

/-- The end of `addKeyShare`: a seed that is held is saved. -/
def saveSeed (host : Host) (m : Manager) (recovery : Option RecoverSeed) : Result :=
  if m.isSeedEmpty then ⟨done, m, recovery⟩
  else
    let (seedWritten, m') := m.writeSeedToFile host
    if !seedWritten then ⟨failed 500 "Failed to write seed to file", m', recovery⟩ else ⟨done, m', recovery⟩

def Complete (m : Manager) : Prop := m.keyShares.length = m.threshold.toNat

instance (m : Manager) : Decidable m.Complete := inferInstanceAs (Decidable (_ = _))

/-- What `addKeyShare` does once the share is in the list. -/
def afterPush (host : Host) (m : Manager) : Result :=
  if m.Complete then
    let (ret, m', arguments) := m.recoverSeed host
    if !ret.success then ⟨ret, m', some arguments⟩ else m'.saveSeed host (some arguments)
  else m.saveSeed host none

def addKeyShare (host : Host) (m : Manager) (newKeyShare : SealedKeyShare) (threshold : UInt64) : Result :=
  if m.threshold ≠ 0 ∧ m.threshold ≠ threshold then ⟨failed 400 "Threshold mismatch", m, none⟩
  else
    let m := { m with threshold := threshold }
    if m.keyShares.any (·.index == newKeyShare.index) then ⟨failed 400 "Index already used", m, none⟩
    else if m.keyShares.any (·.data == newKeyShare.data) then ⟨failed 400 "Key share already exists", m, none⟩
    else { m with keyShares := m.keyShares ++ [newKeyShare] }.afterPush host

/-- A mnemonic that does not decode to 32 bytes ends the process. -/
def addMnemonic (secretFromMnemonics : String → Bytes) (host : Host) (m : Manager) (mnemonic password : String)
    (index threshold : UInt64) : Option Result :=
  if !m.isSeedEmpty then some ⟨failed 400 "Seed already exists", m, none⟩
  else if (secretFromMnemonics mnemonic).length ≠ 32 then none
  else if !host.sealEcallRet then some ⟨failed 500 "Recove Seed Ecall failed ", m, none⟩
  else if !host.sealStatus then some ⟨failed 500 "Recove Seed failed ", m, none⟩
  else
    let data := host.sealedKeyFromMnemonics (secretFromMnemonics mnemonic) password
    some (m.addKeyShare host ⟨index, data⟩ threshold)

def start (seedFile : Option Bytes) (readable : Bool) : Manager :=
  ⟨[], 0, if readable then seedFile.getD [] else [], seedFile⟩

end Manager

/-- The body of a request to `add_mnemonic`. -/
structure Body where
  mnemonic : Option String
  password : Option String
  index : Option Int64
  threshold : Option Int64

inductive Request
  | addMnemonic (body : Body)
  | addKeyShare (newKeyShare : SealedKeyShare) (threshold : UInt64)

section Requests

variable (secretFromMnemonics : String → Bytes)

/-- The answer of the endpoint to a mnemonic that was taken. -/
def answered (ret : Result) : Result :=
  if ret.response.success then { ret with response := ⟨true, 200, "OK."⟩ } else ret

/-- Numbers are read as signed and passed on as `size_t`. -/
def handleAddMnemonic (host : Host) (m : Manager) (body : Body) : Option Result :=
  match body.mnemonic, body.password, body.index, body.threshold with
  | some mnemonic, some password, some index, some threshold =>
    (m.addMnemonic secretFromMnemonics host mnemonic password index.toUInt64 threshold.toUInt64).map answered
  | _, _, _, _ =>
    some ⟨failed 400 "Invalid parameters. They must be 'mnemonic', 'password', 'index' and 'threshold'.", m, none⟩

def serve (host : Host) (m : Manager) : Request → Option Result
  | .addMnemonic body => handleAddMnemonic secretFromMnemonics host m body
  | .addKeyShare newKeyShare threshold => some (m.addKeyShare host newKeyShare threshold)

/-- The manager, with every call of the enclave's `recover_seed` so far. -/
structure System where
  manager : Manager
  recoveries : List RecoverSeed

structure Event where
  request : Request
  host : Host

/-- A process that ends is started again. -/
def step (s : System) (event : Event) : System :=
  match serve secretFromMnemonics event.host s.manager event.request with
  | some result => ⟨result.manager, s.recoveries ++ result.recovery.toList⟩
  | none => ⟨.start s.manager.seedFile event.host.readable, s.recoveries⟩

def init (seedFile : Option Bytes) (readable : Bool) : System := ⟨.start seedFile readable, []⟩

/-- The share and the threshold with which a request reaches `addKeyShare`. -/
def submission (host : Host) (m : Manager) : Request → Option (SealedKeyShare × UInt64)
  | .addMnemonic body => do
    let mnemonic ← body.mnemonic
    let password ← body.password
    let index ← body.index
    let threshold ← body.threshold
    guard (m.isSeedEmpty ∧ (secretFromMnemonics mnemonic).length = 32 ∧ host.sealEcallRet ∧ host.sealStatus)
    return (⟨index.toUInt64, host.sealedKeyFromMnemonics (secretFromMnemonics mnemonic) password⟩, threshold.toUInt64)
  | .addKeyShare newKeyShare threshold => some (newKeyShare, threshold)

end Requests

section Shares

variable {host : Host} {m : Manager} {share : SealedKeyShare} {threshold : UInt64}

namespace Manager

/-- The index or the data of the share is in the list. -/
def Repeats (m : Manager) (share : SealedKeyShare) : Prop :=
  ∃ held ∈ m.keyShares, held.index = share.index ∨ held.data = share.data

def Saves (host : Host) (m : Manager) : Prop := m.seedFile = none ∧ host.opened = true ∧ host.good = true

def push (m : Manager) (share : SealedKeyShare) (threshold : UInt64) : Manager :=
  { m with threshold := threshold, keyShares := m.keyShares ++ [share] }

instance (m : Manager) (share : SealedKeyShare) : Decidable (m.Repeats share) :=
  inferInstanceAs (Decidable (∃ held ∈ m.keyShares, _))

instance (host : Host) (m : Manager) : Decidable (m.Saves host) := inferInstanceAs (Decidable (_ ∧ _ ∧ _))

variable (host)

theorem writeSeedToFile_eq (h : ¬m.isSeedEmpty = true) :
    ∃ seedFile, m.writeSeedToFile host = (decide (m.Saves host), { m with seedFile := seedFile }) := by
  obtain ⟨keyShares, threshold, sealedSeed, seedFile⟩ := m
  cases seedFile with
  | some file => exact ⟨some file, by simp [writeSeedToFile, Saves]⟩
  | none =>
    by_cases hopened : host.opened = true
    · exact ⟨some host.written, by simp [writeSeedToFile, Saves, h, hopened]⟩
    · exact ⟨none, by simp [writeSeedToFile, Saves, hopened]⟩

theorem saveSeed_eq (recovery : Option RecoverSeed) : ∃ seedFile response,
    m.saveSeed host recovery = ⟨response, { m with seedFile := seedFile }, recovery⟩ ∧
      (response.success = true ↔ m.isSeedEmpty = true ∨ m.Saves host) := by
  by_cases hempty : m.isSeedEmpty = true
  · exact ⟨m.seedFile, done, if_pos hempty, by simp [done, hempty]⟩
  · obtain ⟨seedFile, hwrite⟩ := writeSeedToFile_eq host hempty
    by_cases hsaves : m.Saves host
    · exact ⟨seedFile, done, by simp [saveSeed, hempty, hwrite, hsaves], by simp [done, hsaves]⟩
    · exact ⟨seedFile, failed 500 "Failed to write seed to file", by simp [saveSeed, hempty, hwrite, hsaves],
        by simp [failed, hempty, hsaves]⟩

theorem recoverSeed_eq : ∃ response,
    m.recoverSeed host = (response, { m with sealedSeed := host.sealedSeed }, m.recoverArguments) ∧
      (response.success = true ↔ host.ecallRet = true ∧ host.status = true) := by
  by_cases hret : host.ecallRet = true
  · by_cases hstatus : host.status = true
    · exact ⟨done, by simp [recoverSeed, hret, hstatus], by simp [done, hret, hstatus]⟩
    · exact ⟨_, by simp [recoverSeed, hret, hstatus]; rfl, by simp [failed, hstatus]⟩
  · exact ⟨_, by simp [recoverSeed, hret]; rfl, by simp [failed, hret]⟩

/-- Recovery is triggered by the share that completes the list, and succeeds with both codes. -/
theorem afterPush_of_complete (h : m.Complete) : ∃ seedFile response,
    m.afterPush host =
      ⟨response, { m with sealedSeed := host.sealedSeed, seedFile := seedFile }, some m.recoverArguments⟩ ∧
      (response.success = true ↔ (host.ecallRet = true ∧ host.status = true) ∧
        (host.sealedSeed.all (· == 0) = true ∨ m.Saves host)) := by
  obtain ⟨ret, hrecover, hret⟩ : ∃ ret, m.recoverSeed host = (ret, _, _) ∧ _ := recoverSeed_eq host
  have hpush : m.afterPush host = if !ret.success then
      ⟨ret, { m with sealedSeed := host.sealedSeed }, some m.recoverArguments⟩
      else { m with sealedSeed := host.sealedSeed }.saveSeed host (some m.recoverArguments) := by
    rw [afterPush, if_pos h, hrecover]
  rw [hpush]
  by_cases hsuccess : ret.success = true
  · obtain ⟨seedFile, response, hsave, hresponse⟩ :=
      saveSeed_eq host (m := { m with sealedSeed := host.sealedSeed }) (some m.recoverArguments)
    refine ⟨seedFile, response, by simpa [hsuccess] using hsave, hresponse.trans ?_⟩
    exact ⟨fun hsaved => ⟨hret.mp hsuccess, hsaved⟩, fun hboth => hboth.2⟩
  · refine ⟨m.seedFile, ret, by simp [hsuccess], ?_⟩
    exact ⟨fun hcontra => absurd hcontra hsuccess, fun hboth => absurd (hret.mpr hboth.1) hsuccess⟩

theorem afterPush_of_incomplete (h : ¬m.Complete) : ∃ seedFile response,
    m.afterPush host = ⟨response, { m with seedFile := seedFile }, none⟩ ∧
      (response.success = true ↔ m.isSeedEmpty = true ∨ m.Saves host) := by
  rw [afterPush, if_neg h]
  exact saveSeed_eq host none

theorem addKeyShare_of_mismatch (h : m.threshold ≠ 0 ∧ m.threshold ≠ threshold) :
    m.addKeyShare host share threshold = ⟨failed 400 "Threshold mismatch", m, none⟩ :=
  if_pos h

theorem addKeyShare_of_repeats (h : ¬(m.threshold ≠ 0 ∧ m.threshold ≠ threshold)) (hrepeats : m.Repeats share) :
    ∃ message, m.addKeyShare host share threshold = ⟨failed 400 message, { m with threshold := threshold }, none⟩ := by
  rw [addKeyShare, if_neg h]
  by_cases hindex : m.keyShares.any (·.index == share.index) = true
  · exact ⟨_, if_pos hindex⟩
  · obtain ⟨held, hheld, heq | heq⟩ := hrepeats
    · have hany : m.keyShares.any (·.index == share.index) = true :=
        List.any_eq_true.mpr ⟨held, hheld, beq_iff_eq.mpr heq⟩
      exact absurd hany hindex
    · have hdata : m.keyShares.any (·.data == share.data) = true :=
        List.any_eq_true.mpr ⟨held, hheld, beq_iff_eq.mpr heq⟩
      exact ⟨_, (if_neg hindex).trans (if_pos hdata)⟩

theorem addKeyShare_of_new (h : ¬(m.threshold ≠ 0 ∧ m.threshold ≠ threshold)) (hnew : ¬m.Repeats share) :
    m.addKeyShare host share threshold = (m.push share threshold).afterPush host := by
  have hindex : ¬m.keyShares.any (·.index == share.index) = true := by
    intro hany
    obtain ⟨held, hheld, heq⟩ := List.any_eq_true.mp hany
    exact hnew ⟨held, hheld, .inl (beq_iff_eq.mp heq)⟩
  have hdata : ¬m.keyShares.any (·.data == share.data) = true := by
    intro hany
    obtain ⟨held, hheld, heq⟩ := List.any_eq_true.mp hany
    exact hnew ⟨held, hheld, .inr (beq_iff_eq.mp heq)⟩
  rw [addKeyShare, if_neg h]
  exact (if_neg hindex).trans (if_neg hdata)

/-- What a call of `addKeyShare` can come to. -/
inductive Outcome (host : Host) (m : Manager) (share : SealedKeyShare) (threshold : UInt64) : Result → Prop
  | mismatch (h : m.threshold ≠ 0 ∧ m.threshold ≠ threshold) (response : APIResponse)
      (hresponse : response.success = false) : Outcome host m share threshold ⟨response, m, none⟩
  | repeated (h : m.threshold = 0 ∨ m.threshold = threshold) (hrepeats : m.Repeats share) (response : APIResponse)
      (hresponse : response.success = false) :
      Outcome host m share threshold ⟨response, { m with threshold := threshold }, none⟩
  | pushed (h : m.threshold = 0 ∨ m.threshold = threshold) (hnew : ¬m.Repeats share)
      (hcomplete : ¬(m.push share threshold).Complete) (seedFile : Option Bytes) (response : APIResponse)
      (hresponse : response.success = true ↔ m.isSeedEmpty = true ∨ m.Saves host) :
      Outcome host m share threshold ⟨response, { m.push share threshold with seedFile := seedFile }, none⟩
  | recovered (h : m.threshold = 0 ∨ m.threshold = threshold) (hnew : ¬m.Repeats share)
      (hcomplete : (m.push share threshold).Complete) (seedFile : Option Bytes) (response : APIResponse)
      (hresponse : response.success = true ↔ (host.ecallRet = true ∧ host.status = true) ∧
        (host.sealedSeed.all (· == 0) = true ∨ m.Saves host)) :
      Outcome host m share threshold ⟨response,
        { m.push share threshold with sealedSeed := host.sealedSeed, seedFile := seedFile },
        some (m.push share threshold).recoverArguments⟩

variable (m share threshold)

theorem addKeyShare_outcome : Outcome host m share threshold (m.addKeyShare host share threshold) := by
  by_cases h : m.threshold ≠ 0 ∧ m.threshold ≠ threshold
  · rw [addKeyShare_of_mismatch host h]
    exact .mismatch h _ rfl
  · have hset : m.threshold = 0 ∨ m.threshold = threshold := by
      by_cases hzero : m.threshold = 0
      · exact .inl hzero
      · by_cases hsame : m.threshold = threshold
        · exact .inr hsame
        · exact absurd ⟨hzero, hsame⟩ h
    by_cases hrepeats : m.Repeats share
    · obtain ⟨message, hresult⟩ := addKeyShare_of_repeats host h hrepeats
      rw [hresult]
      exact .repeated hset hrepeats _ rfl
    · rw [addKeyShare_of_new host h hrepeats]
      by_cases hcomplete : (m.push share threshold).Complete
      · obtain ⟨seedFile, response, hresult, hresponse⟩ := afterPush_of_complete host hcomplete
        rw [hresult]
        exact .recovered hset hrepeats hcomplete seedFile response hresponse
      · obtain ⟨seedFile, response, hresult, hresponse⟩ := afterPush_of_incomplete host hcomplete
        rw [hresult]
        exact .pushed hset hrepeats hcomplete seedFile response hresponse

end Manager

variable (secretFromMnemonics : String → Bytes) (host m)

theorem addMnemonic_cases (mnemonic password : String) (index threshold : UInt64) :
    m.addMnemonic secretFromMnemonics host mnemonic password index threshold = none ∨
      (∃ response, m.addMnemonic secretFromMnemonics host mnemonic password index threshold = some ⟨response, m, none⟩) ∨
        ((m.isSeedEmpty ∧ (secretFromMnemonics mnemonic).length = 32 ∧ host.sealEcallRet ∧ host.sealStatus) ∧
          m.addMnemonic secretFromMnemonics host mnemonic password index threshold = some (m.addKeyShare host
            ⟨index, host.sealedKeyFromMnemonics (secretFromMnemonics mnemonic) password⟩ threshold)) := by
  rw [Manager.addMnemonic]
  by_cases hempty : m.isSeedEmpty = true
  · by_cases hlength : (secretFromMnemonics mnemonic).length = 32
    · by_cases hret : host.sealEcallRet = true
      · by_cases hstatus : host.sealStatus = true
        · exact .inr (.inr ⟨⟨hempty, hlength, hret, hstatus⟩, by simp [hempty, hlength, hret, hstatus]⟩)
        · exact .inr (.inl ⟨_, by simp [hempty, hlength, hret, hstatus]; rfl⟩)
      · exact .inr (.inl ⟨_, by simp [hempty, hlength, hret]; rfl⟩)
    · exact .inl (by simp [hempty, hlength])
  · exact .inr (.inl ⟨_, by simp [hempty]; rfl⟩)

theorem answered_eq (ret : Result) :
    ∃ response, response.success = ret.response.success ∧ answered ret = { ret with response := response } := by
  by_cases h : ret.response.success = true
  · exact ⟨⟨true, 200, "OK."⟩, h.symm, if_pos h⟩
  · exact ⟨ret.response, rfl, if_neg h⟩

theorem serve_cases (request : Request) : serve secretFromMnemonics host m request = none ∨
    (∃ response, serve secretFromMnemonics host m request = some ⟨response, m, none⟩) ∨
      ∃ new result, submission secretFromMnemonics host m request = some new ∧
        m.Outcome host new.1 new.2 result ∧ ∃ response, response.success = result.response.success ∧
          serve secretFromMnemonics host m request = some { result with response := response } := by
  cases request with
  | addKeyShare share threshold =>
    exact .inr (.inr ⟨(share, threshold), _, rfl, m.addKeyShare_outcome host share threshold, _, rfl, rfl⟩)
  | addMnemonic body =>
    obtain ⟨_ | mnemonic, _ | password, _ | index, _ | threshold⟩ := body
    iterate 15 exact .inr (.inl ⟨_, rfl⟩)
    have hserve : serve secretFromMnemonics host m (.addMnemonic ⟨mnemonic, password, index, threshold⟩) =
        (m.addMnemonic secretFromMnemonics host mnemonic password index.toUInt64 threshold.toUInt64).map answered := rfl
    rw [hserve]
    obtain h | ⟨refusal, h⟩ | ⟨hguard, h⟩ := addMnemonic_cases host m secretFromMnemonics mnemonic password
      index.toUInt64 threshold.toUInt64
    · exact .inl (by rw [h]; rfl)
    · obtain ⟨response, -, hresponse⟩ := answered_eq ⟨refusal, m, none⟩
      exact .inr (.inl ⟨response, by rw [h, Option.map_some, hresponse]⟩)
    · let share : SealedKeyShare :=
        ⟨index.toUInt64, host.sealedKeyFromMnemonics (secretFromMnemonics mnemonic) password⟩
      obtain ⟨response, hsuccess, hresponse⟩ := answered_eq (m.addKeyShare host share threshold.toUInt64)
      refine .inr (.inr ⟨(share, threshold.toUInt64), _, ?_, m.addKeyShare_outcome host share threshold.toUInt64,
        response, hsuccess, ?_⟩)
      · simp [submission, hguard, share]
      · rw [h, Option.map_some, hresponse]

end Shares

section Distinct

variable (secretFromMnemonics : String → Bytes)

/-- The new index has not the low byte of another index in the list. -/
def LowByteNew (s : System) (event : Event) : Prop :=
  ∀ new ∈ submission secretFromMnemonics event.host s.manager event.request, ∀ held ∈ s.manager.keyShares,
    held.index ≠ new.1.index → held.index.toUInt8 ≠ new.1.index.toUInt8

instance (s : System) (event : Event) : Decidable (LowByteNew secretFromMnemonics s event) :=
  inferInstanceAs (Decidable (∀ new ∈ submission secretFromMnemonics event.host s.manager event.request, _))

/-- The enclave is given as many indexes as the threshold says, no two the same. -/
def RecoverSeed.UsesDistinctShares (r : RecoverSeed) : Prop :=
  r.keyShareIndexes.Nodup ∧ r.keyShareIndexes.length = r.threshold.toNat

instance (r : RecoverSeed) : Decidable r.UsesDistinctShares := inferInstanceAs (Decidable (_ ∧ _))

structure Distinct (s : System) : Prop where
  lowBytes : (s.manager.keyShares.map (·.index.toUInt8)).Nodup
  recoveries : ∀ r ∈ s.recoveries, r.UsesDistinctShares

theorem nodup_push {m : Manager} {share : SealedKeyShare} (threshold : UInt64)
    (h : (m.keyShares.map (·.index.toUInt8)).Nodup) (hnew : ¬m.Repeats share)
    (hlow : ∀ held ∈ m.keyShares, held.index ≠ share.index → held.index.toUInt8 ≠ share.index.toUInt8) :
    ((m.push share threshold).keyShares.map (·.index.toUInt8)).Nodup := by
  simp only [Manager.push, List.map_append, List.map_singleton]
  refine List.nodup_append.mpr ⟨h, List.nodup_singleton _, ?_⟩
  intro low hmem new hnewmem heq
  obtain ⟨held, hheld, rfl⟩ := List.mem_map.mp hmem
  rw [List.mem_singleton.mp hnewmem] at heq
  refine hlow held hheld ?_ heq
  intro hindex
  exact hnew ⟨held, hheld, .inl hindex⟩

theorem distinct_step {s : System} {event : Event} (hs : Distinct s) (h : LowByteNew secretFromMnemonics s event) :
    Distinct (step secretFromMnemonics s event) := by
  obtain hserve | ⟨response, hserve⟩ | ⟨new, result, hnew, houtcome, response, -, hserve⟩ :=
    serve_cases event.host s.manager secretFromMnemonics event.request
  · rw [step, hserve]
    exact ⟨List.nodup_nil, hs.recoveries⟩
  · rw [step, hserve]
    exact ⟨hs.lowBytes, by simpa using hs.recoveries⟩
  · rw [step, hserve]
    have hlow := h new hnew
    cases houtcome with
    | mismatch => exact ⟨hs.lowBytes, by simpa using hs.recoveries⟩
    | repeated => exact ⟨hs.lowBytes, by simpa using hs.recoveries⟩
    | pushed _ hrepeats => exact ⟨nodup_push new.2 hs.lowBytes hrepeats hlow, by simpa using hs.recoveries⟩
    | recovered _ hrepeats hcomplete =>
      have hnodup := nodup_push new.2 hs.lowBytes hrepeats hlow
      refine ⟨hnodup, ?_⟩
      intro r hr
      obtain hr | hr := List.mem_append.mp hr
      · exact hs.recoveries r hr
      · obtain rfl := List.mem_singleton.mp hr
        exact ⟨hnodup, (List.length_map _).trans hcomplete⟩

theorem distinct_init (seedFile : Option Bytes) (readable : Bool) : Distinct (init seedFile readable) where
  lowBytes := List.nodup_nil
  recoveries := fun _ h => absurd h List.not_mem_nil

/-- In every run in which no accepted index has the low byte of another, the enclave recovers the
seed from distinct shares. -/
theorem recovers_from_distinct_shares (seedFile : Option Bytes) (readable : Bool) {events : List Event}
    (h : Guarded (step secretFromMnemonics) (LowByteNew secretFromMnemonics) (init seedFile readable) events) :
    ∀ r ∈ (run (step secretFromMnemonics) (init seedFile readable) events).recoveries, r.UsesDistinctShares :=
  (invariant_run (fun _ _ => distinct_step secretFromMnemonics) (distinct_init seedFile readable) h).recoveries

section Pair

/-- A host whose ecalls succeed and whose file can be written. -/
def obliging : Host := ⟨true, true, fun secret _ => secret, true, true, [1], true, true, [1], true⟩

def pairOf (first second : UInt64) : List Event :=
  [⟨.addKeyShare ⟨first, [1]⟩ 2, obliging⟩, ⟨.addKeyShare ⟨second, [2]⟩ 2, obliging⟩]

theorem recovers_from_distinct_shares_pair :
    Guarded (step fun _ => []) (LowByteNew fun _ => []) (init none true) (pairOf 1 2) ∧
      ∀ r ∈ (run (step fun _ => []) (init none true) (pairOf 1 2)).recoveries, r.UsesDistinctShares := by
  have h : Guarded (step fun _ => []) (LowByteNew fun _ => []) (init none true) (pairOf 1 2) := by decide +kernel
  exact ⟨h, recovers_from_distinct_shares (fun _ => []) none true h⟩

/-- The indexes 1 and 257 differ, and the enclave is given the index 1 twice. -/
theorem low_bytes_collide_pair :
    ∃ r ∈ (run (step fun _ => []) (init none true) (pairOf 1 257)).recoveries,
      r.keyShareIndexes = [1, 1] ∧ ¬r.UsesDistinctShares := by
  decide +kernel

end Pair

end Distinct

section Failures

variable (secretFromMnemonics : String → Bytes)

/-- A call that reports a failure has left the threshold and the shares alone. -/
def Harmless (s : System) (event : Event) : Prop :=
  ∀ result, serve secretFromMnemonics event.host s.manager event.request = some result →
    result.response.success = false →
      result.manager.threshold = s.manager.threshold ∧ result.manager.keyShares = s.manager.keyShares

/-- The shares are new to the list, and no two of them have an index or data in common. -/
def Fresh (m : Manager) (shares : List SealedKeyShare) : Prop :=
  (∀ share ∈ shares, ¬m.Repeats share) ∧ shares.Pairwise (fun a b => a.index ≠ b.index ∧ a.data ≠ b.data)

def submit (threshold : UInt64) (submitted : SealedKeyShare × Host) : Event :=
  ⟨.addKeyShare submitted.1 threshold, submitted.2⟩

/-- Whatever fresh shares are submitted until the threshold is reached, the last one of them
triggers recovery. -/
def CanRecover (s : System) : Prop :=
  ∀ (threshold : UInt64) (submitted : List (SealedKeyShare × Host)), threshold ≠ 0 →
    s.manager.threshold = 0 ∨ s.manager.threshold = threshold → Fresh s.manager (submitted.map Prod.fst) →
      s.manager.keyShares.length + submitted.length = threshold.toNat →
        ∃ r, (run (step secretFromMnemonics) s (submitted.map (submit threshold))).recoveries = s.recoveries ++ [r]

/-- The first threshold is not zero; a recovery that is triggered brings a seed; a seed that is
held can be saved. -/
def Sound (s : System) (event : Event) : Prop :=
  ∀ new ∈ submission secretFromMnemonics event.host s.manager event.request,
    (s.manager.threshold = 0 → new.2 ≠ 0) ∧
      (s.manager.threshold = 0 ∨ s.manager.threshold = new.2 → ¬s.manager.Repeats new.1 →
        if (s.manager.push new.1 new.2).Complete then
          (event.host.ecallRet = true ∧ event.host.status = true) ∧
            event.host.sealedSeed.all (· == 0) = false ∧ s.manager.Saves event.host
        else s.manager.isSeedEmpty = true ∨ s.manager.Saves event.host)

instance (s : System) (event : Event) : Decidable (Sound secretFromMnemonics s event) :=
  inferInstanceAs (Decidable (∀ new ∈ submission secretFromMnemonics event.host s.manager event.request, _))

/-- While no seed is held, shares are missing; without a threshold there are none. -/
structure Waiting (m : Manager) : Prop where
  unset : m.threshold = 0 → m.keyShares = []
  missing : m.isSeedEmpty = true → m.threshold = 0 ∨ m.keyShares.length < m.threshold.toNat

variable {secretFromMnemonics} {s : System} {event : Event}

theorem harmless_of_sound (hs : Waiting s.manager) (h : Sound secretFromMnemonics s event) :
    Harmless secretFromMnemonics s event := by
  intro result hresult hfailed
  obtain hserve | ⟨response, hserve⟩ | ⟨new, outcome, hnew, houtcome, response, hsuccess, hserve⟩ :=
    serve_cases event.host s.manager secretFromMnemonics event.request
  · rw [hserve] at hresult
    cases hresult
  · rw [hserve] at hresult
    cases hresult
    exact ⟨rfl, rfl⟩
  · rw [hserve] at hresult
    cases hresult
    obtain ⟨hzero, haccepted⟩ := h new hnew
    rw [hsuccess] at hfailed
    cases houtcome with
    | mismatch => exact ⟨rfl, rfl⟩
    | repeated hset hrepeats =>
      obtain hset | hset := hset
      · obtain ⟨held, hheld, -⟩ := hrepeats
        rw [hs.unset hset] at hheld
        exact absurd hheld List.not_mem_nil
      · exact ⟨hset.symm, rfl⟩
    | pushed hset hrepeats hcomplete seedFile response hresponse =>
      have hsaved := haccepted hset hrepeats
      rw [if_neg hcomplete] at hsaved
      rw [hresponse.mpr hsaved] at hfailed
      cases hfailed
    | recovered hset hrepeats hcomplete seedFile response hresponse =>
      have hsaved := haccepted hset hrepeats
      rw [if_pos hcomplete] at hsaved
      rw [hresponse.mpr ⟨hsaved.1, .inr hsaved.2.2⟩] at hfailed
      cases hfailed

theorem length_push (m : Manager) (share : SealedKeyShare) (threshold : UInt64) :
    (m.push share threshold).keyShares.length = m.keyShares.length + 1 := List.length_append

/-- A share that does not complete the list leaves others to be submitted. -/
theorem lt_of_not_complete {m : Manager} {share : SealedKeyShare} {threshold : UInt64} (hm : Waiting m)
    (hempty : m.isSeedEmpty = true) (hset : m.threshold = 0 ∨ m.threshold = threshold) (hzero : threshold ≠ 0)
    (hcomplete : ¬(m.push share threshold).Complete) :
    (m.push share threshold).keyShares.length < threshold.toNat := by
  have hpos : threshold.toNat ≠ 0 := fun h => hzero (UInt64.toNat_inj.mp h)
  have hne : (m.push share threshold).keyShares.length ≠ threshold.toNat := hcomplete
  rw [length_push] at hne ⊢
  by_cases hunset : m.threshold = 0
  · rw [hm.unset hunset] at hne ⊢
    rw [List.length_nil] at hne ⊢
    omega
  · have hsame : m.threshold = threshold := hset.resolve_left hunset
    have hlt := (hm.missing hempty).resolve_left hunset
    rw [hsame] at hlt
    omega

/-- Once the list is as long as the threshold, no share triggers recovery. -/
theorem recovery_eq_none_of_full (host : Host) (share : SealedKeyShare) {m : Manager} {threshold : UInt64}
    (h : threshold.toNat ≤ m.keyShares.length) : (m.addKeyShare host share threshold).recovery = none := by
  have houtcome := m.addKeyShare_outcome host share threshold
  generalize m.addKeyShare host share threshold = result at houtcome ⊢
  cases houtcome with
  | mismatch => rfl
  | repeated => rfl
  | pushed => rfl
  | recovered _ _ hcomplete =>
    have hfull : (m.push share threshold).keyShares.length = threshold.toNat := hcomplete
    rw [length_push] at hfull
    omega

theorem waiting_step (hs : Waiting s.manager) (h : Sound secretFromMnemonics s event) :
    Waiting (step secretFromMnemonics s event).manager := by
  obtain hserve | ⟨response, hserve⟩ | ⟨new, result, hnew, houtcome, response, -, hserve⟩ :=
    serve_cases event.host s.manager secretFromMnemonics event.request
  · rw [step, hserve]
    exact ⟨fun _ => rfl, fun _ => .inl rfl⟩
  · rw [step, hserve]
    exact hs
  · rw [step, hserve]
    obtain ⟨hzero, haccepted⟩ := h new hnew
    have hne : s.manager.threshold = 0 ∨ s.manager.threshold = new.2 → new.2 = 0 → False := by
      rintro (hset | hset) hnewzero
      · exact hzero hset hnewzero
      · exact hzero (hset.trans hnewzero) hnewzero
    cases houtcome with
    | mismatch => exact hs
    | repeated hset hrepeats =>
      obtain hset | hset := hset
      · obtain ⟨held, hheld, -⟩ := hrepeats
        rw [hs.unset hset] at hheld
        exact absurd hheld List.not_mem_nil
      · rw [← hset]
        exact hs
    | pushed hset hrepeats hcomplete =>
      refine ⟨fun hunset => (hne hset hunset).elim, fun hempty => .inr ?_⟩
      exact lt_of_not_complete hs hempty hset (hne hset) hcomplete
    | recovered hset hrepeats hcomplete =>
      have hsaved := haccepted hset hrepeats
      rw [if_pos hcomplete] at hsaved
      refine ⟨fun hunset => (hne hset hunset).elim, fun hempty => ?_⟩
      exact absurd (hempty.symm.trans hsaved.2.1) Bool.noConfusion

theorem fresh_push {m m' : Manager} {share : SealedKeyShare} {shares : List SealedKeyShare}
    (h : Fresh m (share :: shares)) (hshares : m'.keyShares = m.keyShares ++ [share]) : Fresh m' shares := by
  obtain ⟨hnew, hpairwise⟩ := h
  obtain ⟨hshare, hrest⟩ := List.pairwise_cons.mp hpairwise
  refine ⟨?_, hrest⟩
  rintro other hother ⟨held, hheld, heq⟩
  rw [hshares] at hheld
  obtain hheld | hheld := List.mem_append.mp hheld
  · exact hnew other (List.mem_cons_of_mem _ hother) ⟨held, hheld, heq⟩
  · obtain rfl := List.mem_singleton.mp hheld
    obtain ⟨hindex, hdata⟩ := hshare other hother
    exact heq.elim hindex hdata

theorem canRecover_of_waiting (hs : Waiting s.manager) (hempty : s.manager.isSeedEmpty = true) :
    CanRecover secretFromMnemonics s := by
  intro threshold submitted hzero
  induction submitted generalizing s with
  | nil =>
    intro hset _ hlength
    have hpos : threshold.toNat ≠ 0 := fun h => hzero (UInt64.toNat_inj.mp h)
    rw [List.length_nil] at hlength
    by_cases hunset : s.manager.threshold = 0
    · rw [hs.unset hunset, List.length_nil] at hlength
      omega
    · have hlt := (hs.missing hempty).resolve_left hunset
      rw [hset.resolve_left hunset] at hlt
      omega
  | cons new rest ih =>
    intro hset hfresh hlength
    rw [List.length_cons] at hlength
    have hnew : ¬s.manager.Repeats new.1 := hfresh.1 new.1 List.mem_cons_self
    have hstep : step secretFromMnemonics s (submit threshold new) =
        ⟨(s.manager.addKeyShare new.2 new.1 threshold).manager,
          s.recoveries ++ (s.manager.addKeyShare new.2 new.1 threshold).recovery.toList⟩ := rfl
    rw [List.map_cons, run_cons, hstep]
    have houtcome := s.manager.addKeyShare_outcome new.2 new.1 threshold
    generalize s.manager.addKeyShare new.2 new.1 threshold = result at houtcome ⊢
    cases houtcome with
    | mismatch hmismatch => exact absurd (hset.resolve_left hmismatch.1) hmismatch.2
    | repeated _ hrepeats => exact absurd hrepeats hnew
    | pushed _ _ hcomplete =>
      have hlt := lt_of_not_complete hs hempty hset hzero hcomplete
      simp only [Option.toList_none, List.append_nil]
      refine ih ⟨fun h => absurd h hzero, fun _ => .inr hlt⟩ hempty (.inr rfl) (fresh_push hfresh rfl) ?_
      have hpush := length_push s.manager new.1 threshold
      change (s.manager.push new.1 threshold).keyShares.length + rest.length = threshold.toNat
      omega
    | recovered _ _ hcomplete =>
      have hpush := length_push s.manager new.1 threshold
      have hfull : (s.manager.push new.1 threshold).keyShares.length = threshold.toNat := hcomplete
      have hrest : rest = [] := List.eq_nil_of_length_eq_zero (by omega)
      subst hrest
      exact ⟨_, rfl⟩

theorem waiting_init (seedFile : Option Bytes) (readable : Bool) : Waiting (init seedFile readable).manager :=
  ⟨fun _ => rfl, fun _ => .inl rfl⟩

/-- In every run whose submissions are sound, a failed call leaves the threshold and the shares alone,
and while no seed is held recovery is triggered once enough shares are submitted. -/
theorem failures_harmless (secretFromMnemonics : String → Bytes) (seedFile : Option Bytes) (readable : Bool)
    {events : List Event}
    (h : Guarded (step secretFromMnemonics) (Sound secretFromMnemonics) (init seedFile readable) events) :
    (∀ past event future, events = past ++ event :: future →
      Harmless secretFromMnemonics (run (step secretFromMnemonics) (init seedFile readable) past) event) ∧
      ((run (step secretFromMnemonics) (init seedFile readable) events).manager.isSeedEmpty = true →
        CanRecover secretFromMnemonics (run (step secretFromMnemonics) (init seedFile readable) events)) := by
  have hwaiting : ∀ s event, Waiting s.manager → Sound secretFromMnemonics s event →
      Waiting (step secretFromMnemonics s event).manager := fun _ _ => waiting_step
  have hinit := waiting_init seedFile readable
  constructor
  · rintro past event future rfl
    obtain ⟨hpast, hsound, -⟩ := guarded_append.mp h
    exact harmless_of_sound (invariant_run hwaiting hinit hpast) hsound
  · intro hempty
    exact canRecover_of_waiting (invariant_run hwaiting hinit h) hempty

section Triple

/-- A host whose enclave fails to recover the seed. -/
def failing : Host := { obliging with ecallRet := false, sealedSeed := [0] }

/-- The first share is in the list. -/
def halfway : System := run (step fun _ => []) (init none true) ((pairOf 1 2).take 1)

def repeatedSubmission : Event := ⟨.addKeyShare ⟨1, [3]⟩ 2, obliging⟩

theorem failures_harmless_pair :
    Guarded (step fun _ => []) (Sound fun _ => []) (init none true) ((pairOf 1 2).take 1 ++ [repeatedSubmission]) ∧
      (halfway.manager.addKeyShare obliging ⟨1, [3]⟩ 2).response = failed 400 "Index already used" ∧
      Harmless (fun _ => []) halfway repeatedSubmission ∧
      CanRecover (fun _ => [])
        (run (step fun _ => []) (init none true) ((pairOf 1 2).take 1 ++ [repeatedSubmission])) := by
  have h : Guarded (step fun _ => []) (Sound fun _ => []) (init none true)
      ((pairOf 1 2).take 1 ++ [repeatedSubmission]) := by decide +kernel
  obtain ⟨hharmless, hrecover⟩ := failures_harmless (fun _ => []) none true h
  exact ⟨h, by decide +kernel, hharmless _ _ [] rfl, hrecover (by decide +kernel)⟩

def failedSubmission : Event := ⟨.addKeyShare ⟨2, [2]⟩ 2, failing⟩

/-- After a recovery that failed the share is still in the list, and no further share triggers
another recovery. -/
theorem failed_recovery_harmful :
    ¬Harmless (fun _ => []) halfway failedSubmission ∧
      (step (fun _ => []) halfway failedSubmission).manager.isSeedEmpty = true ∧
        ∀ share host, (step (fun _ => []) (step (fun _ => []) halfway failedSubmission)
          ⟨.addKeyShare share 2, host⟩).recoveries = (step (fun _ => []) halfway failedSubmission).recoveries := by
  refine ⟨?_, by decide +kernel, ?_⟩
  · intro h
    have hshares := (h _ rfl (by decide +kernel)).2
    exact absurd (congrArg List.length hshares) (by decide +kernel)
  · intro share host
    have hnone : ((step (fun _ => []) halfway failedSubmission).manager.addKeyShare host share 2).recovery = none :=
      recovery_eq_none_of_full host share (by decide +kernel)
    rw [step]
    simp only [serve, hnone, Option.toList_none, List.append_nil]

end Triple

end Failures

end MercuryLayer.Enclave.SealingKeyManager
