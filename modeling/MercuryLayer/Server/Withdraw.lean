import MercuryLayer.Server.Unlock

namespace MercuryLayer.Server.Withdraw

open Crates Library.Programs Library.Tables Library.XOnlyCurve Library.Runs Lockbox.Enclave Lockbox.Server
open Musig.Session Server.Database Server.Transfer Server.Unlock

/-- What `withdraw_complete` calls: the calls of the other endpoints, and the transaction of
`delete_statechain_db`. -/
inductive Call (E : Type) [AddCommGroup E]
  | server (call : Database.Call E)
  | deleteStatechainDb (statechainId : String)

@[reducible] def Reply {E : Type} [AddCommGroup E] : Call E → Type
  | .server call => Database.Reply call
  | .deleteStatechainDb _ => Option Unit

variable {n : ℕ} {E : Type} [AddCommGroup E]

section Program

/-- The two deletions. A response of the lockbox is not looked at. -/
def deleteStatechain (statechainId : String) (enclaveIndex : ℕ) : Prog (Call E) Reply Answer :=
  .call (.server (.lockbox enclaveIndex (.deleteStatechain statechainId))) fun (response : HttpReply) =>
    match response with
    | .failed text => return internalError text
    | .unreadable | .body _ => .call (.deleteStatechainDb statechainId) fun (committed : Option Unit) => do
      Prog.unwrap committed
      return message 200 "Statechain deleted."

/-- From the index of the lockbox on. -/
def deleteFrom (statechainId : String) : Option ℕ → Prog (Call E) Reply Answer
  | none => return enclaveIndexNotFound statechainId
  | some enclaveIndex => .call (.server (.lockboxEndpoint enclaveIndex)) fun (url : Option Unit) => do
    Prog.unwrap url
    deleteStatechain statechainId enclaveIndex

def withdrawComplete (secp : Secp (Point E) (ZMod n)) (payload : WithdrawCompletePayload) :
    Prog (Call E) Reply Answer := do
  let valid ← Prog.embed Call.server (validateSignature secp payload.signedStatechainId payload.statechainId)
  if !valid then return signatureMismatch 500
  else .call (.server (.getEnclaveIndex payload.statechainId)) fun (enclaveIndex : Option (Option ℕ)) => do
    let enclaveIndex ← Prog.unwrap enclaveIndex
    deleteFrom payload.statechainId enclaveIndex

end Program

/-- The three deletions of `delete_statechain_db`. -/
def deleteRowsDb {P : Type} (db : Db P) (statechainId : String) : Db P where
  data := db.data.filter (fun row => row.statechainId ≠ statechainId)
  serverPublicKey_unique := db.serverPublicKey_unique.sublist (List.filter_sublist.map _)
  transfers := db.transfers.filter (fun row => row.statechainId ≠ statechainId)
  latches := db.latches
  signatures := db.signatures.filter (fun row => row.statechainId ≠ statechainId)

section Statement

variable (w : World E) (statechainId : String)

def InLockbox (enclaveIndex : ℕ) : Prop :=
  ∃ table, w.enclaves[enclaveIndex]? = some table ∧ ∃ row ∈ table, row.statechainId = statechainId

def InData : Prop := ∃ row ∈ w.db.data.rows, row.statechainId = statechainId

def InTransfers : Prop := ∃ row ∈ w.db.transfers.rows, row.statechainId = statechainId

def InSignatures : Prop := ∃ row ∈ w.db.signatures, row.statechainId = statechainId

/-- The statechain is in none of the tables, and not in the lockbox that it was assigned to. -/
def Gone (w w' : World E) (statechainId : String) : Prop :=
  (∀ row ∈ w.db.data.rows, row.statechainId = statechainId → ¬InLockbox w' statechainId row.enclaveIndex) ∧
    ¬InData w' statechainId ∧ ¬InTransfers w' statechainId ∧ ¬InSignatures w' statechainId

/-- The statechain is in every store that held it. -/
def Kept (w w' : World E) (statechainId : String) : Prop :=
  (∀ enclaveIndex, InLockbox w statechainId enclaveIndex → InLockbox w' statechainId enclaveIndex) ∧
    (InData w statechainId → InData w' statechainId) ∧
      (InTransfers w statechainId → InTransfers w' statechainId) ∧
        (InSignatures w statechainId → InSignatures w' statechainId)

/-- A request that is cut short by a panic is answered with status 500. -/
def statusOf : Option Answer → ℕ
  | some answer => answer.status
  | none => 500

def AllOrNothing (w : World E) (result : Option Answer × World E) (statechainId : String) : Prop :=
  if statusOf result.1 = 200 then Gone w result.2 statechainId else Kept w result.2 statechainId

variable (secp : Secp (Point E) (ZMod n)) (payload : WithdrawCompletePayload) (choices : ℕ → Choice n)

/-- The request comes to the deletions: its owner signed it and its lockbox is configured. -/
def Reaches (row : StatechainData (Point E)) : Prop :=
  w.db.data.get payload.statechainId = some row ∧ row.enclaveIndex < w.enclaves.length ∧
    (choices 0).fault = .ok ∧ (choices 1).fault = .ok ∧
      ∃ signature, secp.signatureFromStr payload.signedStatechainId = some signature ∧
        verifies secp signature payload.statechainId row.authXonlyPublicKey = true

/-- The lockbox and the database both delete and confirm it, or neither deletes anything. -/
def Together (enclaveIndex : ℕ) (lockbox db : Choice n) : Prop :=
  match lockbox.link, db.fault with
  | .unreachable _, _ => True
  | .lost _, _ => carriedOut lockbox.draw.store = true → ¬InLockbox w statechainId enclaveIndex
  | _, .ok => carriedOut lockbox.draw.store = false → ¬InLockbox w statechainId enclaveIndex
  | _, .failed _ => carriedOut lockbox.draw.store = true → ¬InLockbox w statechainId enclaveIndex
  | _, .lost _ => False

end Statement

section Outcome

variable (w : World E) (statechainId : String) (enclaveIndex : ℕ)

/-- The world after the rows of the statechain have been deleted from the lockbox, or from the
database, or from both. -/
def outcome (fromLockbox fromDb : Bool) : World E :=
  { w with
    db := if fromDb then deleteRowsDb w.db statechainId else w.db
    enclaves := if fromLockbox then w.enclaves.modify enclaveIndex (deleteRows · statechainId) else w.enclaves }

variable {w statechainId enclaveIndex} {fromLockbox fromDb : Bool}

theorem inLockbox_outcome {k : ℕ} :
    InLockbox (outcome w statechainId enclaveIndex fromLockbox fromDb) statechainId k ↔
      InLockbox w statechainId k ∧ (fromLockbox = true → k ≠ enclaveIndex) := by
  cases fromLockbox with
  | false => simp [InLockbox, outcome]
  | true =>
    by_cases hk : k = enclaveIndex
    · subst hk
      cases htable : w.enclaves[k]? with
      | none => simp [InLockbox, outcome, htable]
      | some table => simp [InLockbox, outcome, htable, deleteRows]
    · simp [InLockbox, outcome, hk, Ne.symm hk]

theorem inData_outcome : InData (outcome w statechainId enclaveIndex fromLockbox fromDb) statechainId ↔
    InData w statechainId ∧ fromDb = false := by
  cases fromDb with
  | false => simp [InData, outcome]
  | true => simp [InData, outcome, deleteRowsDb, Table.filter]

theorem inTransfers_outcome : InTransfers (outcome w statechainId enclaveIndex fromLockbox fromDb) statechainId ↔
    InTransfers w statechainId ∧ fromDb = false := by
  cases fromDb with
  | false => simp [InTransfers, outcome]
  | true => simp [InTransfers, outcome, deleteRowsDb, Table.filter]

theorem inSignatures_outcome : InSignatures (outcome w statechainId enclaveIndex fromLockbox fromDb) statechainId ↔
    InSignatures w statechainId ∧ fromDb = false := by
  cases fromDb with
  | false => simp [InSignatures, outcome]
  | true => simp [InSignatures, outcome, deleteRowsDb]

theorem kept_self : Kept w w statechainId := ⟨fun _ h => h, fun h => h, fun h => h, fun h => h⟩

/-- The lockbox alone may delete only what it does not have. -/
theorem kept_outcome_iff :
    Kept w (outcome w statechainId enclaveIndex fromLockbox false) statechainId ↔
      (fromLockbox = true → ¬InLockbox w statechainId enclaveIndex) := by
  simp only [Kept, inLockbox_outcome, inData_outcome, inTransfers_outcome, inSignatures_outcome]
  constructor
  · rintro ⟨h, -⟩ hdeleted hin
    exact (h enclaveIndex hin).2 hdeleted rfl
  · intro h
    refine ⟨fun k hin => ⟨hin, ?_⟩, fun hin => ⟨hin, trivial⟩, fun hin => ⟨hin, trivial⟩, fun hin => ⟨hin, trivial⟩⟩
    rintro hdeleted rfl
    exact h hdeleted hin

theorem gone_outcome_iff {row : StatechainData (Point E)} (hrow : w.db.data.get statechainId = some row) :
    Gone w (outcome w statechainId row.enclaveIndex fromLockbox true) statechainId ↔
      (fromLockbox = false → ¬InLockbox w statechainId row.enclaveIndex) := by
  obtain ⟨hmem, hid⟩ := Table.get_eq_some.mp hrow
  simp only [Gone, inLockbox_outcome, inData_outcome, inTransfers_outcome, inSignatures_outcome]
  constructor
  · rintro ⟨h, -⟩ hkept hin
    exact h row hmem hid ⟨hin, fun hdeleted => absurd (hkept.symm.trans hdeleted) Bool.noConfusion⟩
  · intro h
    refine ⟨?_, nofun, nofun, nofun⟩
    rintro other hother hotherid ⟨hin, hdeleted⟩
    obtain rfl : other = row := Table.key_injective hother hmem (hotherid.trans hid.symm)
    cases fromLockbox with
    | false => exact h rfl hin
    | true => exact hdeleted rfl rfl

end Outcome

variable [Module (ZMod n) E] [DecidableEq E]

def handle (enclave : Keyring n E) (choice : Choice n) : (c : Call E) → World E → Reply c × World E
  | .server call, w => Database.handle enclave choice call w
  | .deleteStatechainDb statechainId, w => write choice.fault w (some (deleteRowsDb w.db statechainId))

section Run

variable {enclave : Keyring n E} {w : World E} {statechainId : String} {enclaveIndex : ℕ} {choices : ℕ → Choice n}

omit [Module (ZMod n) E] [DecidableEq E] in
theorem commit_deleteRows {table : List (Row E)} (fault : DbFault) :
    (commit fault table (.ok (deleteRows table statechainId))).2 =
      if carriedOut fault then deleteRows table statechainId else table := by
  cases fault with
  | ok => rfl
  | failed text => rfl
  | lost text => rfl

omit [Module (ZMod n) E] [DecidableEq E] in
theorem set_eq_outcome {table : List (Row E)} (htable : w.enclaves[enclaveIndex]? = some table) (fault : DbFault) :
    { w with enclaves := w.enclaves.set enclaveIndex (commit fault table (.ok (deleteRows table statechainId))).2 } =
      outcome w statechainId enclaveIndex (carriedOut fault) false := by
  obtain ⟨hindex, rfl⟩ := List.getElem?_eq_some_iff.mp htable
  rw [commit_deleteRows]
  cases hcarried : carriedOut fault with
  | false => simp [outcome]
  | true => simp [outcome, List.modify_eq_set_getElem?, htable]

omit [Module (ZMod n) E] [DecidableEq E] in
theorem httpReply_deleteStatechain (draw : Draw n) (table : List (Row E)) (statechainId : String) : ∃ body, ∀ link,
    httpReply link (Lockbox.Server.deleteStatechain draw table statechainId).2 =
      match link with
      | .delivered => .body body
      | .cut => .unreadable
      | .lost text => .failed text
      | .unreachable text => .failed text := by
  rw [Lockbox.Server.deleteStatechain]
  cases draw.store with
  | ok => exact ⟨.text "Statechain deleted.", fun link => by cases link <;> rfl⟩
  | failed text => exact ⟨.empty, fun link => by cases link <;> rfl⟩
  | lost text => exact ⟨.empty, fun link => by cases link <;> rfl⟩

variable (enclave statechainId) in
theorem callLockbox_deleteStatechain (choice : Choice n) (hindex : enclaveIndex < w.enclaves.length) : ∃ body,
    callLockbox enclave choice w enclaveIndex (.deleteStatechain statechainId) =
      match choice.link with
      | .unreachable text => (.failed text, w)
      | .lost text => (.failed text, outcome w statechainId enclaveIndex (carriedOut choice.draw.store) false)
      | .delivered => (.body body, outcome w statechainId enclaveIndex (carriedOut choice.draw.store) false)
      | .cut => (.unreadable, outcome w statechainId enclaveIndex (carriedOut choice.draw.store) false) := by
  obtain ⟨table, htable⟩ : ∃ table, w.enclaves[enclaveIndex]? = some table := ⟨_, List.getElem?_eq_getElem hindex⟩
  obtain ⟨body, hbody⟩ := httpReply_deleteStatechain choice.draw table statechainId
  refine ⟨body, ?_⟩
  rw [← set_eq_outcome htable]
  cases hlink : choice.link with
  | unreachable text => simp only [callLockbox, hlink]
  | delivered =>
    simp only [callLockbox, hlink, htable]
    exact congrArg (·, _) (hbody .delivered)
  | lost text =>
    simp only [callLockbox, hlink, htable]
    exact congrArg (·, _) (hbody (.lost text))
  | cut =>
    simp only [callLockbox, hlink, htable]
    exact congrArg (·, _) (hbody .cut)

theorem exec_deleteStatechainDb (fromLockbox : Bool) :
    exec (handle enclave) (.call (.deleteStatechainDb statechainId) fun (committed : Option Unit) => do
        Prog.unwrap committed
        return message 200 "Statechain deleted.") choices (outcome w statechainId enclaveIndex fromLockbox false) =
      match (choices 0).fault with
      | .ok => (some (message 200 "Statechain deleted."), outcome w statechainId enclaveIndex fromLockbox true)
      | .failed _ => (none, outcome w statechainId enclaveIndex fromLockbox false)
      | .lost _ => (none, outcome w statechainId enclaveIndex fromLockbox true) := by
  cases hfault : (choices 0).fault with
  | ok => simp only [exec, handle, write, hfault]; rfl
  | failed text => simp only [exec, handle, write, hfault]; rfl
  | lost text => simp only [exec, handle, write, hfault]; rfl

omit [Module (ZMod n) E] [DecidableEq E] in
theorem not_kept_of_db {fromLockbox : Bool} (h : InData w statechainId) :
    ¬Kept w (outcome w statechainId enclaveIndex fromLockbox true) statechainId := by
  rintro ⟨-, hdata, -⟩
  exact Bool.noConfusion (inData_outcome.mp (hdata h)).2

theorem allOrNothing_deleteStatechainDb {row : StatechainData (Point E)} {fromLockbox : Bool}
    (hrow : w.db.data.get statechainId = some row) :
    AllOrNothing w (exec (handle enclave) (.call (.deleteStatechainDb statechainId) fun (committed : Option Unit) => do
        Prog.unwrap committed
        return message 200 "Statechain deleted.") choices
          (outcome w statechainId row.enclaveIndex fromLockbox false)) statechainId ↔
      match (choices 0).fault with
      | .ok => fromLockbox = false → ¬InLockbox w statechainId row.enclaveIndex
      | .failed _ => fromLockbox = true → ¬InLockbox w statechainId row.enclaveIndex
      | .lost _ => False := by
  obtain ⟨hmem, hid⟩ := Table.get_eq_some.mp hrow
  rw [exec_deleteStatechainDb]
  cases (choices 0).fault with
  | ok => exact gone_outcome_iff hrow
  | failed text => exact kept_outcome_iff
  | lost text => exact iff_of_false (not_kept_of_db ⟨row, hmem, hid⟩) id

theorem allOrNothing_deleteStatechain {row : StatechainData (Point E)}
    (hrow : w.db.data.get statechainId = some row) (hindex : row.enclaveIndex < w.enclaves.length) :
    AllOrNothing w (exec (handle enclave) (deleteStatechain statechainId row.enclaveIndex) choices w) statechainId ↔
      Together w statechainId row.enclaveIndex (choices 0) (choices 1) := by
  obtain ⟨body, hcall⟩ := callLockbox_deleteStatechain enclave statechainId (choices 0) hindex
  simp only [deleteStatechain, exec, handle, Database.handle, Together, hcall]
  cases (choices 0).link with
  | unreachable text => exact iff_of_true kept_self trivial
  | lost text => exact kept_outcome_iff
  | delivered =>
    refine (allOrNothing_deleteStatechainDb hrow).trans ?_
    cases (choices 1).fault <;> rfl
  | cut =>
    refine (allOrNothing_deleteStatechainDb hrow).trans ?_
    cases (choices 1).fault <;> rfl

variable {secp : Secp (Point E) (ZMod n)} {payload : WithdrawCompletePayload}

/-- A read of the database, as the endpoint unwraps it. -/
def readNow {α : Type} (fault : DbFault) (result : Option α) : Option α := if fault = .ok then result else none

omit [Module (ZMod n) E] [DecidableEq E] in
theorem read_eq {α : Type} (fault : DbFault) (result : Option α) :
    Database.read fault w result = (readNow fault result, w) := by
  cases fault <;> rfl

theorem exec_validateSignature_bind (f : Bool → Prog (Call E) Reply Answer) :
    exec (handle enclave) (Prog.embed Call.server
        (validateSignature secp payload.signedStatechainId payload.statechainId) >>= f) choices w =
      match readNow (choices 0).fault ((w.db.data.get payload.statechainId).map StatechainData.authXonlyPublicKey),
        secp.signatureFromStr payload.signedStatechainId with
      | some authKey, some signature =>
        exec (handle enclave) (f (verifies secp signature payload.statechainId authKey)) (fun i => choices (i + 1)) w
      | _, _ => (none, w) := by
  let rest (signature : Option Signature) (authKey : Bytes) : Endpoint E Bool := do
    let signedMessage ← Prog.unwrap signature
    return verifies secp signedMessage payload.statechainId authKey
  let reading := Database.read (choices 0).fault w
    ((w.db.data.get payload.statechainId).map StatechainData.authXonlyPublicKey)
  change exec (handle enclave) (Prog.embed Call.server (Prog.unwrap reading.1 >>=
      rest (secp.signatureFromStr payload.signedStatechainId)) >>= f)
    (fun i => choices (i + 1)) reading.2 = _
  simp only [reading, read_eq]
  cases readNow (choices 0).fault ((w.db.data.get payload.statechainId).map StatechainData.authXonlyPublicKey) with
  | none => rfl
  | some authKey =>
    cases secp.signatureFromStr payload.signedStatechainId with
    | none => rfl
    | some signature => rfl

theorem exec_deleteFrom {row : StatechainData (Point E)} (hrow : w.db.data.get statechainId = some row) :
    exec (handle enclave) (.call (.server (.getEnclaveIndex statechainId)) fun (enclaveIndex : Option (Option ℕ)) => do
        let enclaveIndex ← Prog.unwrap enclaveIndex
        deleteFrom statechainId enclaveIndex) choices w =
      if (choices 0).fault = .ok ∧ row.enclaveIndex < w.enclaves.length then
        exec (handle enclave) (deleteStatechain statechainId row.enclaveIndex) (fun i => choices (i + 2)) w
      else (none, w) := by
  by_cases hfault : (choices 0).fault = .ok
  · simp only [exec, handle, Database.handle, Database.read, hfault, hrow, Option.map_some]
    change exec (handle enclave) (deleteFrom statechainId (some row.enclaveIndex)) (fun i => choices (i + 1)) w = _
    by_cases hindex : row.enclaveIndex < w.enclaves.length
    · simp only [deleteFrom, exec, handle, Database.handle, List.getElem?_eq_getElem hindex, hindex, and_self, if_true]
      rfl
    · simp only [deleteFrom, exec, handle, Database.handle, List.getElem?_eq_none (Nat.le_of_not_lt hindex), hindex,
        and_false, if_false]
      rfl
  · rw [if_neg (fun h => hfault h.1)]
    simp only [exec, handle, Database.handle, read_eq, readNow, hfault, if_false]
    rfl

theorem exec_withdrawComplete_of_reaches {row : StatechainData (Point E)} (h : Reaches w secp payload choices row) :
    exec (handle enclave) (withdrawComplete secp payload) choices w =
      exec (handle enclave) (deleteStatechain payload.statechainId row.enclaveIndex) (fun i => choices (i + 3)) w := by
  obtain ⟨hrow, hindex, hfault, hfault', signature, hsignature, hvalid⟩ := h
  rw [withdrawComplete, exec_validateSignature_bind, hrow, hfault, hsignature]
  simp only [readNow, if_true, Option.map_some, hvalid, Bool.not_true, Bool.false_eq_true, if_false]
  exact (exec_deleteFrom hrow).trans (if_pos ⟨hfault', hindex⟩)

variable (enclave) in
theorem exec_withdrawComplete_of_not_reaches (h : ∀ row, ¬Reaches w secp payload choices row) : ∃ answer,
    exec (handle enclave) (withdrawComplete secp payload) choices w = (answer, w) ∧ statusOf answer ≠ 200 := by
  have hnone : statusOf none ≠ 200 := by decide
  rw [withdrawComplete, exec_validateSignature_bind]
  by_cases hfault : (choices 0).fault = .ok
  · cases hrow : w.db.data.get payload.statechainId with
    | none => exact ⟨none, by simp [readNow], hnone⟩
    | some row =>
      cases hsignature : secp.signatureFromStr payload.signedStatechainId with
      | none => exact ⟨none, by simp [readNow], hnone⟩
      | some signature =>
        simp only [readNow, hfault, if_true, Option.map_some]
        by_cases hvalid : verifies secp signature payload.statechainId row.authXonlyPublicKey = true
        · simp only [hvalid, Bool.not_true, Bool.false_eq_true, if_false]
          refine ⟨none, (exec_deleteFrom hrow).trans (if_neg ?_), hnone⟩
          rintro ⟨hfault', hindex⟩
          exact h row ⟨hrow, hindex, hfault, hfault', signature, hsignature, hvalid⟩
        · exact ⟨some (signatureMismatch 500), by simp [hvalid, exec], by decide⟩
  · exact ⟨none, by simp [readNow, hfault], hnone⟩

end Run

/-- Withdrawal is all or nothing exactly when the lockbox and the database go together,
whenever the request comes to the deletions. -/
theorem withdrawal_all_or_nothing_iff (enclave : Keyring n E) (secp : Secp (Point E) (ZMod n)) (w : World E)
    (payload : WithdrawCompletePayload) (choices : ℕ → Choice n) :
    AllOrNothing w (exec (handle enclave) (withdrawComplete secp payload) choices w) payload.statechainId ↔
      ∀ row, Reaches w secp payload choices row →
        Together w payload.statechainId row.enclaveIndex (choices 3) (choices 4) := by
  by_cases h : ∃ row, Reaches w secp payload choices row
  · obtain ⟨row, hreaches⟩ := h
    rw [exec_withdrawComplete_of_reaches hreaches]
    refine (allOrNothing_deleteStatechain hreaches.1 hreaches.2.1).trans ⟨?_, fun h => h row hreaches⟩
    intro htogether other hother
    rwa [Option.some.inj (hother.1.symm.trans hreaches.1)]
  · obtain ⟨answer, hexec, hstatus⟩ := exec_withdrawComplete_of_not_reaches enclave
      (fun row hrow => h ⟨row, hrow⟩)
    rw [hexec]
    refine iff_of_true ?_ (fun row hrow => absurd ⟨row, hrow⟩ h)
    rw [AllOrNothing, if_neg hstatus]
    exact kept_self

section Seven

def lockboxFails (i : ℕ) : Choice 7 :=
  let choice := System.steady
  if i = 3 then { choice with draw := { choice.draw with store := .failed "connection refused" } } else choice

/-- The lockbox answers with an error and keeps the coin, and the withdrawal is answered with success. -/
theorem coin_left_in_lockbox_seven :
    ¬AllOrNothing System.depositedCoin (exec (handle sevenKeyring) (withdrawComplete seven.secp ⟨"coin", sevenSignature 2⟩)
      lockboxFails System.depositedCoin) "coin" := by
  have hstatus : statusOf (exec (handle sevenKeyring) (withdrawComplete seven.secp ⟨"coin", sevenSignature 2⟩)
      lockboxFails System.depositedCoin).1 = 200 := by decide +kernel
  have hrow : ∃ row ∈ System.depositedCoin.db.data.rows, row.statechainId = "coin" ∧ row.enclaveIndex = 0 := by decide +kernel
  have hlockbox : ∃ row ∈ ((exec (handle sevenKeyring) (withdrawComplete seven.secp ⟨"coin", sevenSignature 2⟩)
      lockboxFails System.depositedCoin).2.enclaves[0]?).getD [], row.statechainId = "coin" := by decide +kernel
  rw [AllOrNothing, if_pos hstatus]
  rintro ⟨hgone, -⟩
  obtain ⟨row, hmem, hid, hindex⟩ := hrow
  refine hgone row hmem hid ?_
  rw [hindex]
  cases htable : (exec (handle sevenKeyring) (withdrawComplete seven.secp ⟨"coin", sevenSignature 2⟩)
      lockboxFails System.depositedCoin).2.enclaves[0]? with
  | none =>
    rw [htable] at hlockbox
    obtain ⟨_, hnil, -⟩ := hlockbox
    exact absurd hnil List.not_mem_nil
  | some table =>
    rw [htable] at hlockbox
    exact ⟨table, htable, hlockbox⟩

end Seven

end MercuryLayer.Server.Withdraw
