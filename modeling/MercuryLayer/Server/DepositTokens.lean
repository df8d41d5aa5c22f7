import MercuryLayer.Deposit
import MercuryLayer.Library.Holdings
import MercuryLayer.Server.Withdraw

namespace MercuryLayer.Server.DepositTokens

open Crates MercuryLayer.Deposit Library.Holdings Library.Programs Library.Runs Library.Tables Library.XOnlyCurve
open Lockbox.Enclave Lockbox.Server Musig.Session Server.Database Server.Transfer Server.Unlock
open Server.Withdraw (withdrawComplete)

structure TokenInfo where
  confirmed : Bool
  spent : Bool
deriving DecidableEq

structure TokenStatusResponse where
  confirmed : Bool
  spent : Bool
  err : Bool
  status : Option ℕ
  errMessage : Option String
deriving DecidableEq

/-- What `post_deposit` and `withdraw_complete` call, each of them one atomic step. -/
inductive Call (E : Type) [AddCommGroup E]
  | checkExistingKey (authKey : Bytes)
  | getTokenInfo (tokenId : String)
  | checkTokenStatus (tokenId : String)
  | insertNewDeposit (tokenId : String) (row : StatechainData (Point E))
  | setTokenSpent (tokenId : String)
  | server (call : Withdraw.Call E)

@[reducible] def Reply {E : Type} [AddCommGroup E] : Call E → Type
  | .checkExistingKey _ => Bool
  | .getTokenInfo _ => Option (Option TokenInfo)
  | .checkTokenStatus _ => Option TokenStatusResponse
  | .insertNewDeposit _ _ => Option Unit
  | .setTokenSpent _ => Option Unit
  | .server call => Withdraw.Reply call

variable {n : ℕ} {E : Type} [AddCommGroup E]

section Program

/-- The enclaves of the configuration, each with whether it allows deposits. -/
abbrev Enclaves : Type := List Bool

variable (secp : Secp (Point E) (ZMod n)) (enclaves : Enclaves)

def getEnclaveIndexFromStatechainId (statechainId : String) : ℕ :=
  ((secp.sha256 statechainId.toUTF8.toList).take 16).foldl (fun number byte => number * 256 + byte.toNat) 0 %
    enclaves.length

/-- The enclave that the id names, or else the first that allows deposits. -/
def getRandomEnclaveIndex (statechainId : String) : Option ℕ := do
  let index := getEnclaveIndexFromStatechainId secp enclaves statechainId
  if ← enclaves[index]? then some index else enclaves.findIdx? id

/-- The end of `post_deposit`, once the lockbox has answered. -/
def spendToken (tokenId : String) (row : StatechainData (Point E)) : Prog (Call E) Reply Answer :=
  .call (.insertNewDeposit tokenId row) fun (inserted : Option Unit) => do
    Prog.unwrap inserted
    .call (.setTokenSpent tokenId) fun (updated : Option Unit) => do
      Prog.unwrap updated
      return ⟨200, .fields [("server_pubkey", .text (secp.publicKeyToStr row.serverPublicKey)),
        ("statechain_id", .text row.statechainId)]⟩

/-- `post_deposit` from the choice of the enclave on. -/
def createDeposit (tokenId : String) (authKey : Bytes) (statechainId : String) : Prog (Call E) Reply Answer := do
  let enclaveIndex ← Prog.unwrap (getRandomEnclaveIndex secp enclaves statechainId)
  .call (.server (.server (.lockbox enclaveIndex (.getPublicKey statechainId)))) fun (response : HttpReply) =>
    match response with
    | .failed text => return internalError text
    | .unreadable => .abort
    | .body body => do
      let serverPubkey ← Prog.unwrap (serverPubkeyOf secp body)
      spendToken secp tokenId ⟨statechainId, authKey, serverPubkey, enclaveIndex⟩

/-- What the token server says about a token that is not marked as confirmed. -/
def checkStatus (tokenId : String) (authKey : Bytes) (statechainId : String) (response : TokenStatusResponse) :
    Prog (Call E) Reply Answer :=
  if response.err then do
    let text ← Prog.unwrap response.errMessage
    let status ← Prog.unwrap response.status
    return message status text
  else if response.spent then return message 410 "Token already spent."
  else if !response.confirmed then return message 410 "Token not confirmed."
  else createDeposit secp enclaves tokenId authKey statechainId

def checkToken (tokenId : String) (authKey : Bytes) (statechainId : String) :
    Option TokenInfo → Prog (Call E) Reply Answer
  | none => return ⟨404, .fields [("error", .text "Deposit Error"), ("message", .text "Token ID not found.")]⟩
  | some tokenInfo =>
    if tokenInfo.spent then return message 410 "Token already spent."
    else if tokenInfo.confirmed then createDeposit secp enclaves tokenId authKey statechainId
    else .call (.checkTokenStatus tokenId) fun (response : Option TokenStatusResponse) => do
      let response ← Prog.unwrap response
      checkStatus secp enclaves tokenId authKey statechainId response

/-- The id of the statechain is drawn by the server. -/
def postDeposit (payload : DepositMsg1) (statechainId : String) : Prog (Call E) Reply Answer := do
  let authKey ← Prog.unwrap ((Hex.decode payload.authKey).bind secp.xOnlyFromSlice)
  let signedTokenId ← Prog.unwrap (secp.signatureFromStr payload.signedTokenId)
  if !verifies secp signedTokenId payload.tokenId authKey then return signatureMismatch 500
  else .call (.checkExistingKey authKey) fun (isExistingKey : Bool) =>
    if isExistingKey then return message 400 "The authentication key is already assigned to a statecoin."
    else .call (.getTokenInfo payload.tokenId) fun (tokenInfo : Option (Option TokenInfo)) => do
      let tokenInfo ← Prog.unwrap tokenInfo
      checkToken secp enclaves payload.tokenId authKey statechainId tokenInfo

inductive Request
  | deposit (payload : DepositMsg1) (statechainId : String)
  | withdraw (payload : WithdrawCompletePayload)

def Request.tokenId : Request → Option String
  | .deposit payload _ => some payload.tokenId
  | .withdraw _ => none

def endpoint : Request → Prog (Call E) Reply Answer
  | .deposit payload statechainId => postDeposit secp enclaves payload statechainId
  | .withdraw payload => Prog.embed Call.server (withdrawComplete secp payload)

/-- The calls are marked with the token of their request. -/
abbrev TokenCall (E : Type) [AddCommGroup E] : Type := Option String × ℕ × Call E

abbrev Thread (E : Type) [AddCommGroup E] : Type := Prog (TokenCall E) (fun c => Reply c.2.2) Answer

def program (request : Request) : Thread E := Prog.tag request.tokenId (endpoint secp enclaves request) 0

end Program

structure Token where
  tokenId : String
  confirmed : Bool
  spent : Bool
deriving DecidableEq

/-- The column `token_id` of a row of `statechain_data`. -/
structure Deposit where
  tokenId : String
  statechainId : String
deriving DecidableEq

/-- The server, its tokens, and the tokens of the deposits that have been answered with success. -/
structure Store (E : Type) [AddCommGroup E] where
  world : World E
  tokens : Table Token String Token.tokenId
  deposits : Table Deposit String Deposit.tokenId
  succeeded : List String

structure Surroundings (n : ℕ) where
  choice : Choice n
  tokenStatus : Option TokenStatusResponse

namespace Store

/-- The row goes in if none of its unique columns is taken. -/
def insertNewDeposit [DecidableEq E] (s : Store E) (tokenId : String) (row : StatechainData (Point E)) :
    Option (Store E) := do
  let deposits ← s.deposits.insert? ⟨tokenId, row.statechainId⟩
  let db ← s.world.db.insertNewDeposit row
  return { s with world := { s.world with db := db }, deposits := deposits }

def setTokenSpent (s : Store E) (tokenId : String) : Store E :=
  { s with tokens := s.tokens.modify tokenId (fun token => { token with spent := true }) (fun _ => rfl) }

def deleteDeposit (s : Store E) (statechainId : String) : Store E :=
  { s with deposits := s.deposits.filter (fun deposit => deposit.statechainId ≠ statechainId) }

def tokenInfo (s : Store E) (tokenId : String) : Option TokenInfo :=
  (s.tokens.get tokenId).map (fun token => ⟨token.confirmed, token.spent⟩)

end Store

/-- A transaction: whether it is confirmed, and what it leaves. -/
def transact {σ : Type} (fault : DbFault) (s : σ) (result : Option σ) : Option Unit × σ :=
  match fault, result with
  | .failed _, _ => (none, s)
  | _, none => (none, s)
  | .ok, some s' => (some (), s')
  | .lost _, some s' => (none, s')

variable [Module (ZMod n) E] [DecidableEq E] (enclave : Keyring n E)

/-- The calls of the two endpoints. A deposit has succeeded once its token is confirmed to be spent,
since nothing but the answer is left. -/
def perform (e : Surroundings n) : (c : Call E) → Store E → Reply c × Store E
  | .checkExistingKey authKey, s => (e.choice.fault = .ok &&
      s.world.db.data.rows.any (fun row => row.authXonlyPublicKey == authKey), s)
  | .getTokenInfo tokenId, s => (if e.choice.fault = .ok then some (s.tokenInfo tokenId) else none, s)
  | .checkTokenStatus _, s => (e.tokenStatus, s)
  | .insertNewDeposit tokenId row, s => transact e.choice.fault s (s.insertNewDeposit tokenId row)
  | .setTokenSpent tokenId, s =>
    let (updated, s') := transact e.choice.fault s (some (s.setTokenSpent tokenId))
    (updated, if updated.isSome then { s' with succeeded := s'.succeeded ++ [tokenId] } else s')
  | .server (.deleteStatechainDb statechainId), s =>
    let (deleted, w) := Withdraw.handle enclave e.choice (.deleteStatechainDb statechainId) s.world
    (deleted, { (if carriedOut e.choice.fault then s.deleteDeposit statechainId else s) with world := w })
  | .server (.server call), s =>
    let (reply, w) := Database.handle enclave e.choice call s.world
    (reply, { s with world := w })

abbrev System (E : Type) [AddCommGroup E] : Type := Config (TokenCall E) (fun c => Reply c.2.2) Answer (Store E)

abbrev DepositEvent (n : ℕ) : Type := Event Request (Surroundings n)

def step (enclaves : Enclaves) (s : System E) (event : DepositEvent n) : System E :=
  s.step (program enclave.params.secp enclaves) (fun e c => perform enclave e c.2.2) event

def init (s : Store E) : System E := ⟨{ s with succeeded := [] }, []⟩

section Statement

/-- The calls of a deposit that has seen its token unspent and has not yet inserted its row. -/
def passed : Call E → Bool
  | .checkTokenStatus _ | .insertNewDeposit _ _ | .server _ => true
  | .checkExistingKey _ | .getTokenInfo _ | .setTokenSpent _ => false

/-- The token that a request has seen unspent. -/
def checked (p : Thread E) : Option String := p.next?.bind fun c => if passed c.2.2 then c.1 else none

def spentBy : Call E → Option String
  | .setTokenSpent tokenId => some tokenId
  | .checkExistingKey _ | .getTokenInfo _ | .checkTokenStatus _ | .insertNewDeposit _ _ | .server _ => none

/-- The token of a request that has inserted its row and not yet marked the token. -/
def inserted (p : Thread E) : Option String := p.next?.bind fun c => spentBy c.2.2

/-- The tokens of the deposits that have succeeded, or will if they are not disturbed. -/
def used (s : System E) : List String := holdings inserted s.threads ++ s.store.succeeded

def HasRow (s : Store E) (tokenId : String) : Prop := ∃ deposit ∈ s.deposits.rows, deposit.tokenId = tokenId

def Spent (s : Store E) (tokenId : String) : Prop :=
  ∃ token ∈ s.tokens.rows, token.tokenId = tokenId ∧ token.spent = true

/-- The token is marked as spent, and no request under way has seen it otherwise. -/
def Closed (s : System E) (tokenId : String) : Prop :=
  Spent s.store tokenId ∧ ∀ p ∈ s.threads, checked p ≠ some tokenId

def deletes : Call E → Option String
  | .server (.deleteStatechainDb statechainId) => some statechainId
  | _ => none

/-- A row is deleted only if its deposit was cut short, or else when its token is closed. -/
def Spared (s : System E) (statechainId : String) : Prop :=
  ∀ deposit ∈ s.store.deposits.rows, deposit.statechainId = statechainId → deposit.tokenId ∈ used s →
    Closed s deposit.tokenId

def Orderly (s : System E) : DepositEvent n → Prop
  | .advance i e => ∀ p ∈ s.threads[i]?, ∀ c ∈ p.next?, ∀ statechainId ∈ deletes c.2.2,
      carriedOut e.choice.fault = true → Spared s statechainId
  | .start _ => True
  | .stop _ => True

instance (s : Store E) (tokenId : String) : Decidable (Spent s tokenId) :=
  inferInstanceAs (Decidable (∃ token ∈ s.tokens.rows, token.tokenId = tokenId ∧ token.spent = true))

instance (s : System E) (tokenId : String) : Decidable (Closed s tokenId) :=
  inferInstanceAs (Decidable (Spent s.store tokenId ∧ ∀ p ∈ s.threads, checked p ≠ some tokenId))

instance (s : System E) (statechainId : String) : Decidable (Spared s statechainId) :=
  inferInstanceAs (Decidable (∀ deposit ∈ s.store.deposits.rows, deposit.statechainId = statechainId →
    deposit.tokenId ∈ used s → Closed s deposit.tokenId))

instance (s : System E) (event : DepositEvent n) : Decidable (Orderly s event) :=
  match event with
  | .advance i e => inferInstanceAs (Decidable (∀ p ∈ s.threads[i]?, ∀ c ∈ p.next?, ∀ statechainId ∈ deletes c.2.2,
      carriedOut e.choice.fault = true → Spared s statechainId))
  | .start _ => isTrue trivial
  | .stop _ => isTrue trivial

end Statement

section Requests

def Own : TokenCall E → Prop
  | (label, _, .getTokenInfo tokenId) => label = some tokenId
  | (label, _, .insertNewDeposit tokenId _) => label = some tokenId
  | _ => True

/-- How a request comes to be past the check of its token. -/
def Passes : (c : TokenCall E) → Reply c.2.2 → String → Prop
  | (_, _, .getTokenInfo tokenId), r, t => t = tokenId ∧ ∃ info, r = some (some info) ∧ info.spent = false
  | (label, _, c), _, t => passed c = true ∧ label = some t

/-- How a request comes to have inserted its row. -/
def Inserts : (c : TokenCall E) → Reply c.2.2 → String → Prop
  | (_, _, .insertNewDeposit tokenId _), r, t => t = tokenId ∧ r = some ()
  | _, _, _ => False

/-- The order of the calls of a request: check, insertion, mark. -/
def Lawful : Thread E → Prop
  | .ret _ => True
  | .abort => True
  | .call c next => Own c ∧ ∀ r, (∀ t, checked (next r) = some t → Passes c r t) ∧
      (∀ t, inserted (next r) = some t → Inserts c r t) ∧ Lawful (next r)

variable {secp : Secp (Point E) (ZMod n)} {enclaves : Enclaves} {tokenId statechainId : String} {authKey : Bytes}

omit [Module (ZMod n) E] [DecidableEq E]

theorem checked_tag (label : Option String) (p : Prog (Call E) Reply Answer) (k : ℕ) :
    checked (Prog.tag label p k) = p.next?.bind (fun c => if passed c then label else none) := by
  rw [checked, Prog.next?_tag]
  cases p <;> rfl

theorem inserted_tag (label : Option String) (p : Prog (Call E) Reply Answer) (k : ℕ) :
    inserted (Prog.tag label p k) = p.next?.bind spentBy := by
  rw [inserted, Prog.next?_tag]
  cases p <;> rfl

theorem lawful_withdraw (p : Prog (Withdraw.Call E) Withdraw.Reply Answer) (k : ℕ) :
    Lawful (Prog.tag none (Prog.embed Call.server p) k : Thread E) := by
  induction p generalizing k with
  | ret answer => trivial
  | abort => trivial
  | call c next ih =>
    refine ⟨trivial, ?_⟩
    intro r
    refine ⟨?_, ?_, ih r (k + 1)⟩
    · intro t ht
      rw [checked_tag] at ht
      simp at ht
    · intro t ht
      rw [inserted_tag, Prog.next?_embed] at ht
      simp [Option.bind_map, Function.comp_def, spentBy] at ht

/-- What a deposit does from the check of its token to the insertion of its row. -/
structure Waits (tokenId : String) (p : Prog (Call E) Reply Answer) : Prop where
  notInserted : p.next?.bind spentBy = none
  lawful : ∀ k, Lawful (Prog.tag (some tokenId) p k)

theorem waits_ret (answer : Answer) : Waits tokenId (.ret answer : Prog (Call E) Reply Answer) :=
  ⟨rfl, fun _ => trivial⟩

theorem waits_abort : Waits tokenId (.abort : Prog (Call E) Reply Answer) := ⟨rfl, fun _ => trivial⟩

theorem waits_unwrap {α : Type} {o : Option α} {f : α → Prog (Call E) Reply Answer} (h : ∀ a, Waits tokenId (f a)) :
    Waits tokenId (Prog.unwrap o >>= f) := by
  cases o with
  | none => exact waits_abort
  | some a => exact h a

theorem eq_of_checked_tag {p : Prog (Call E) Reply Answer} {k : ℕ} {t : String}
    (h : checked (Prog.tag (some tokenId) p k) = some t) : some tokenId = some t := by
  rw [checked_tag] at h
  obtain ⟨c, -, hc⟩ := Option.bind_eq_some_iff.mp h
  split_ifs at hc
  exact hc

theorem waits_call {c : Call E} {next : Reply c → Prog (Call E) Reply Answer} (hc : passed c = true)
    (hown : ∀ k, Own (some tokenId, k, c)) (hnext : ∀ r, Waits tokenId (next r)) :
    Waits tokenId (.call c next) := by
  constructor
  · cases c with
    | setTokenSpent t => cases hc
    | _ => rfl
  · intro k
    refine ⟨hown k, ?_⟩
    intro r
    refine ⟨?_, ?_, (hnext r).lawful (k + 1)⟩
    · intro t ht
      have heq := eq_of_checked_tag ht
      cases c with
      | getTokenInfo t => cases hc
      | _ => exact ⟨hc, heq⟩
    · intro t ht
      have hnone := (hnext r).notInserted
      rw [← inserted_tag (some tokenId) (next r) (k + 1)] at hnone
      cases hnone.symm.trans ht

theorem waits_spendToken (row : StatechainData (Point E)) : Waits tokenId (spendToken secp tokenId row) := by
  refine ⟨rfl, fun k => ⟨rfl, ?_⟩⟩
  rintro (_ | _)
  · exact ⟨nofun, nofun, trivial⟩
  · refine ⟨nofun, ?_, trivial, ?_⟩
    · intro t ht
      exact ⟨(Option.some.inj ht).symm, rfl⟩
    · rintro (_ | _)
      · exact ⟨nofun, nofun, trivial⟩
      · exact ⟨nofun, nofun, trivial⟩

theorem waits_createDeposit : Waits tokenId (createDeposit secp enclaves tokenId authKey statechainId) := by
  apply waits_unwrap
  intro enclaveIndex
  refine waits_call rfl (fun _ => trivial) ?_
  rintro (text | _ | body)
  · exact waits_ret _
  · exact waits_abort
  · exact waits_unwrap (fun _ => waits_spendToken _)

theorem waits_checkStatus (response : TokenStatusResponse) :
    Waits tokenId (checkStatus secp enclaves tokenId authKey statechainId response) := by
  rw [checkStatus]
  split_ifs
  · exact waits_unwrap (fun _ => waits_unwrap (fun _ => waits_ret _))
  · exact waits_ret _
  · exact waits_ret _
  · exact waits_createDeposit

theorem waits_checkToken (tokenInfo : Option TokenInfo) :
    Waits tokenId (checkToken secp enclaves tokenId authKey statechainId tokenInfo) := by
  cases tokenInfo with
  | none => exact waits_ret _
  | some info =>
    simp only [checkToken]
    split_ifs
    · exact waits_ret _
    · exact waits_createDeposit
    · exact waits_call rfl (fun _ => trivial) (fun _ => waits_unwrap waits_checkStatus)

theorem unspent_of_next {tokenInfo : Option (Option TokenInfo)} {c : Call E}
    (h : c ∈ (Prog.unwrap tokenInfo >>= checkToken secp enclaves tokenId authKey statechainId).next?) :
    ∃ info, tokenInfo = some (some info) ∧ info.spent = false := by
  rcases tokenInfo with _ | _ | info
  · cases h
  · cases h
  · refine ⟨info, rfl, ?_⟩
    cases hspent : info.spent with
    | false => rfl
    | true => simp [checkToken, hspent, Prog.unwrap, Prog.next?] at h

theorem lawful_postDeposit (payload : DepositMsg1) (k : ℕ) :
    Lawful (Prog.tag (some payload.tokenId) (postDeposit secp enclaves payload statechainId) k) := by
  rw [postDeposit]
  cases (Hex.decode payload.authKey).bind secp.xOnlyFromSlice with
  | none => trivial
  | some authKey =>
    cases secp.signatureFromStr payload.signedTokenId with
    | none => trivial
    | some signedTokenId =>
      simp only [Prog.unwrap, Prog.ret_bind]
      split_ifs
      · trivial
      · refine ⟨trivial, ?_⟩
        rintro (_ | _)
        · refine ⟨fun _ h => (by cases h), fun _ h => (by cases h), rfl, ?_⟩
          intro tokenInfo
          have hwaits : Waits payload.tokenId
              (Prog.unwrap tokenInfo >>= checkToken secp enclaves payload.tokenId authKey statechainId) :=
            waits_unwrap waits_checkToken
          refine ⟨?_, ?_, hwaits.lawful (k + 2)⟩
          · intro t ht
            refine ⟨(Option.some.inj (eq_of_checked_tag ht)).symm, ?_⟩
            rw [checked_tag] at ht
            obtain ⟨c, hc, -⟩ := Option.bind_eq_some_iff.mp ht
            exact unspent_of_next hc
          · intro t ht
            rw [inserted_tag] at ht
            cases hwaits.notInserted.symm.trans ht
        · exact ⟨fun _ h => (by cases h), fun _ h => (by cases h), trivial⟩

theorem lawful_program (request : Request) : Lawful (program secp enclaves request) := by
  cases request with
  | deposit payload statechainId => exact lawful_postDeposit payload 0
  | withdraw payload => exact lawful_withdraw _ 0

variable (secp enclaves) in
theorem arriving_program (request : Request) :
    checked (program secp enclaves request) = none ∧ inserted (program secp enclaves request) = none := by
  rw [program, checked_tag, inserted_tag]
  cases request with
  | withdraw payload =>
    rw [endpoint, Prog.next?_embed]
    simp [Request.tokenId, Option.bind_map, Function.comp_def, spentBy]
  | deposit payload statechainId =>
    rw [endpoint, postDeposit]
    cases (Hex.decode payload.authKey).bind secp.xOnlyFromSlice with
    | none => exact ⟨rfl, rfl⟩
    | some authKey =>
      cases secp.signatureFromStr payload.signedTokenId with
      | none => exact ⟨rfl, rfl⟩
      | some signedTokenId =>
        simp only [Prog.unwrap, Prog.ret_bind]
        split_ifs
        · exact ⟨rfl, rfl⟩
        · exact ⟨rfl, rfl⟩

end Requests

section Step

variable (e : Surroundings n) {s : System E} {i : ℕ} {c : TokenCall E} {next : Reply c.2.2 → Thread E} {t : String}

/-- The request at the given place makes its next call. -/
abbrev advanced (s : System E) (i : ℕ) (c : TokenCall E) (next : Reply c.2.2 → Thread E) : System E :=
  ⟨(perform enclave e c.2.2 s.store).2, s.threads.set i (next (perform enclave e c.2.2 s.store).1)⟩

omit [AddCommGroup E] [Module (ZMod n) E] [DecidableEq E] in
theorem transact_cases {σ : Type} (fault : DbFault) (a : σ) (result : Option σ) :
    transact fault a result = (none, a) ∨ ∃ a', result = some a' ∧ (transact fault a result).2 = a' := by
  cases result with
  | none => cases fault <;> exact .inl rfl
  | some a' =>
    cases fault with
    | ok => exact .inr ⟨a', rfl, rfl⟩
    | failed text => exact .inl rfl
    | lost text => exact .inr ⟨a', rfl, rfl⟩

theorem insertNewDeposit_eq_some {a a' : Store E} {tokenId : String} {row : StatechainData (Point E)}
    (h : a.insertNewDeposit tokenId row = some a') :
    a.deposits.insert? ⟨tokenId, row.statechainId⟩ = some a'.deposits ∧ a'.tokens = a.tokens ∧
      a'.succeeded = a.succeeded := by
  simp only [Store.insertNewDeposit, Option.bind_eq_bind, Option.bind_eq_some_iff] at h
  obtain ⟨deposits, hdeposits, db, -, h⟩ := h
  cases h
  exact ⟨hdeposits, rfl, rfl⟩

omit [DecidableEq E] in
theorem spent_setTokenSpent (tokenId : String) {a : Store E} (h : Spent a t) : Spent (a.setTokenSpent tokenId) t := by
  obtain ⟨token, hmem, htoken, hspent⟩ := h
  let marked : Token := if token.tokenId = tokenId then { token with spent := true } else token
  have hmarked : marked ∈ (a.setTokenSpent tokenId).tokens.rows := by
    rw [Store.setTokenSpent, Table.mem_modify]
    exact ⟨token, hmem, rfl⟩
  refine ⟨marked, hmarked, ?_⟩
  by_cases hid : token.tokenId = tokenId
  · simp only [marked, if_pos hid]
    exact ⟨htoken, trivial⟩
  · simp only [marked, if_neg hid]
    exact ⟨htoken, hspent⟩

omit [DecidableEq E] in
theorem not_spent_of_tokenInfo {a : Store E} {info : TokenInfo} (h : a.tokenInfo t = some info)
    (hunspent : info.spent = false) : ¬Spent a t := by
  rintro ⟨token, hmem, htoken, hspent⟩
  rw [Store.tokenInfo, Table.get_eq_some.mpr ⟨hmem, htoken⟩] at h
  rw [← Option.some.inj h] at hunspent
  exact Bool.noConfusion (hspent.symm.trans hunspent)

theorem perform_setTokenSpent (tokenId : String) (a : Store E) :
    perform enclave e (.setTokenSpent tokenId) a =
      match e.choice.fault with
      | .ok => (some (), { a.setTokenSpent tokenId with succeeded := a.succeeded ++ [tokenId] })
      | .failed _ => (none, a)
      | .lost _ => (none, a.setTokenSpent tokenId) := by
  rw [perform]
  cases e.choice.fault with
  | ok => rfl
  | failed text => rfl
  | lost text => rfl

theorem spent_perform (c : Call E) {a : Store E} (h : Spent a t) : Spent (perform enclave e c a).2 t := by
  cases c with
  | checkExistingKey authKey => exact h
  | getTokenInfo tokenId => exact h
  | checkTokenStatus tokenId => exact h
  | insertNewDeposit tokenId row =>
    obtain heq | ⟨a', hinsert, heq⟩ := transact_cases e.choice.fault a (a.insertNewDeposit tokenId row)
    · rw [perform, heq]
      exact h
    · obtain ⟨-, htokens, -⟩ := insertNewDeposit_eq_some hinsert
      rw [perform, heq, Spent, htokens]
      exact h
  | setTokenSpent tokenId =>
    rw [perform_setTokenSpent]
    cases e.choice.fault with
    | ok => exact spent_setTokenSpent tokenId h
    | failed text => exact h
    | lost text => exact spent_setTokenSpent tokenId h
  | server call =>
    cases call with
    | server call => exact h
    | deleteStatechainDb statechainId =>
      by_cases hcarried : carriedOut e.choice.fault = true
      · simp only [perform, hcarried]
        exact h
      · simp only [perform, hcarried]
        exact h

/-- A closed token stays closed: no request can pass its check any more. -/
theorem closed_advance (hi : s.threads[i]? = some (.call c next)) (hlawful : Lawful (.call c next))
    (h : Closed s t) : Closed (advanced enclave e s i c next) t := by
  obtain ⟨hspent, hthreads⟩ := h
  refine ⟨spent_perform enclave e c.2.2 hspent, ?_⟩
  intro p hp hchecked
  obtain hp | rfl := List.mem_or_eq_of_mem_set hp
  · exact hthreads p hp hchecked
  · obtain ⟨-, hnext⟩ := hlawful
    have hpasses := (hnext _).1 t hchecked
    have hnot : checked (.call c next) ≠ some t := hthreads _ (List.mem_of_getElem? hi)
    obtain ⟨label, k, call⟩ := c
    cases call with
    | getTokenInfo tokenId =>
      obtain ⟨rfl, info, hinfo, hunspent⟩ := hpasses
      have hread : (if e.choice.fault = .ok then some (s.store.tokenInfo t) else none) = some (some info) := hinfo
      split_ifs at hread
      exact not_spent_of_tokenInfo (Option.some.inj hread) hunspent hspent
    | _ =>
      obtain ⟨hpassed, hlabel⟩ := hpasses
      apply hnot
      simp only [checked, Prog.next?, Option.bind_some, hpassed, if_true]
      exact hlabel

omit [Module (ZMod n) E] in
theorem hasRow_insertNewDeposit {a a' : Store E} {tokenId : String} {row : StatechainData (Point E)}
    (h : a.insertNewDeposit tokenId row = some a') :
    HasRow a' tokenId ∧ ¬HasRow a tokenId ∧ ∀ t, HasRow a t → HasRow a' t := by
  obtain ⟨hinsert, -, -⟩ := insertNewDeposit_eq_some h
  obtain ⟨hrows, hfree⟩ := Table.rows_of_insert? hinsert
  refine ⟨⟨⟨tokenId, row.statechainId⟩, by simp [hrows], rfl⟩, ?_, ?_⟩
  · rintro ⟨deposit, hmem, hid⟩
    exact hfree (List.mem_map.mpr ⟨deposit, hmem, hid⟩)
  · rintro t ⟨deposit, hmem, hid⟩
    refine ⟨deposit, ?_, hid⟩
    rw [hrows]
    exact List.mem_append_left _ hmem

theorem hasRow_perform (c : Call E) {a : Store E} (h : HasRow a t) :
    HasRow (perform enclave e c a).2 t ∨ carriedOut e.choice.fault = true ∧
      ∃ deposit ∈ a.deposits.rows, deposit.tokenId = t ∧ deletes c = some deposit.statechainId := by
  cases c with
  | checkExistingKey authKey => exact .inl h
  | getTokenInfo tokenId => exact .inl h
  | checkTokenStatus tokenId => exact .inl h
  | insertNewDeposit tokenId row =>
    obtain heq | ⟨a', hinsert, heq⟩ := transact_cases e.choice.fault a (a.insertNewDeposit tokenId row)
    · rw [perform, heq]
      exact .inl h
    · rw [perform, heq]
      exact .inl ((hasRow_insertNewDeposit hinsert).2.2 t h)
  | setTokenSpent tokenId =>
    rw [perform_setTokenSpent]
    cases e.choice.fault with
    | ok => exact .inl h
    | failed text => exact .inl h
    | lost text => exact .inl h
  | server call =>
    cases call with
    | server call => exact .inl h
    | deleteStatechainDb statechainId =>
      obtain ⟨deposit, hmem, hid⟩ := h
      by_cases hcarried : carriedOut e.choice.fault = true
      · by_cases hsame : deposit.statechainId = statechainId
        · exact .inr ⟨hcarried, deposit, hmem, hid, congrArg some hsame.symm⟩
        · refine .inl ⟨deposit, ?_, hid⟩
          simp only [perform, hcarried, if_true]
          exact List.mem_filter.mpr ⟨hmem, decide_eq_true hsame⟩
      · refine .inl ⟨deposit, ?_, hid⟩
        simp only [perform, hcarried]
        exact hmem

theorem kept_advance (hi : s.threads[i]? = some (.call c next)) (hlawful : Lawful (.call c next))
    (hg : Orderly s (.advance i e)) (hused : t ∈ used s) (h : HasRow s.store t ∨ Closed s t) :
    HasRow (advanced enclave e s i c next).store t ∨ Closed (advanced enclave e s i c next) t := by
  obtain hrow | h := h
  · obtain hrow | ⟨hcarried, deposit, hmem, rfl, hdeletes⟩ := hasRow_perform enclave e c.2.2 hrow
    · exact .inl hrow
    · have hspared := hg _ hi _ rfl _ hdeletes hcarried
      exact .inr (closed_advance enclave e hi hlawful (hspared deposit hmem rfl hused))
  · exact .inr (closed_advance enclave e hi hlawful h)

theorem succeeded_perform {c : Call E} (hc : spentBy c = none) (a : Store E) :
    (perform enclave e c a).2.succeeded = a.succeeded := by
  cases c with
  | checkExistingKey authKey => rfl
  | getTokenInfo tokenId => rfl
  | checkTokenStatus tokenId => rfl
  | insertNewDeposit tokenId row =>
    obtain heq | ⟨a', hinsert, heq⟩ := transact_cases e.choice.fault a (a.insertNewDeposit tokenId row)
    · rw [perform, heq]
    · rw [perform, heq]
      exact (insertNewDeposit_eq_some hinsert).2.2
  | setTokenSpent tokenId => cases hc
  | server call =>
    cases call with
    | server call => rfl
    | deleteStatechainDb statechainId =>
      by_cases hcarried : carriedOut e.choice.fault = true
      · simp only [perform, hcarried, if_true]
        rfl
      · simp only [perform, hcarried]
        rfl

omit [Module (ZMod n) E] [DecidableEq E] in
theorem inserted_next (hlawful : Lawful (.call c next)) (r : Reply c.2.2) :
    inserted (next r) = none ∨
      ∃ tokenId row, c.2.2 = .insertNewDeposit tokenId row ∧ inserted (next r) = some tokenId ∧ Inserts c r tokenId := by
  cases hinserted : inserted (next r) with
  | none => exact .inl rfl
  | some t =>
    have hinserts := (hlawful.2 r).2.1 t hinserted
    obtain ⟨label, k, call⟩ := c
    cases call with
    | insertNewDeposit tokenId row =>
      obtain ⟨rfl, hr⟩ := hinserts
      exact .inr ⟨t, row, rfl, rfl, rfl, hr⟩
    | _ => cases hinserts

theorem used_setTokenSpent {label : Option String} {k : ℕ} {tokenId : String} {next : Option Unit → Thread E}
    (hi : s.threads[i]? = some (.call (label, k, .setTokenSpent tokenId) next)) (hnext : ∀ r, inserted (next r) = none) :
    (used (advanced enclave e s i (label, k, .setTokenSpent tokenId) next)).Subperm (used s) := by
  have hstopped : ∀ r, (holdings inserted (s.threads.set i (next r)) ++ s.store.succeeded).Subperm (used s) :=
    fun r => (List.subperm_append_right _).mpr (holdings_stop_subperm (hnext r))
  rw [advanced, perform_setTokenSpent]
  cases e.choice.fault with
  | ok =>
    have hheld : inserted (.call (label, k, .setTokenSpent tokenId) next) = some tokenId := rfl
    exact (holdings_release hi hheld (hnext (some ())) s.store.succeeded).subperm
  | failed text => exact hstopped none
  | lost text => exact hstopped none

theorem used_advance (hi : s.threads[i]? = some (.call c next)) (hlawful : Lawful (.call c next)) :
    (used (advanced enclave e s i c next)).Subperm (used s) ∨
      ∃ tokenId row, c.2.2 = .insertNewDeposit tokenId row ∧
        s.store.insertNewDeposit tokenId row = some (advanced enclave e s i c next).store ∧
          (used (advanced enclave e s i c next)).Perm (tokenId :: used s) := by
  have hcases := inserted_next hlawful
  cases hspent : spentBy c.2.2 with
  | some t =>
    obtain ⟨label, k, call⟩ := c
    cases call with
    | setTokenSpent tokenId =>
      refine .inl (used_setTokenSpent enclave e hi ?_)
      intro r
      obtain hnone | ⟨_, _, hcall, -⟩ := hcases r
      · exact hnone
      · cases hcall
    | _ => cases hspent
  | none =>
    have hsucceeded := succeeded_perform enclave e hspent s.store
    rw [used, hsucceeded]
    obtain hnone | ⟨tokenId, row, hcall, hheld, hinserts⟩ := hcases (perform enclave e c.2.2 s.store).1
    · exact .inl ((List.subperm_append_right _).mpr (holdings_stop_subperm hnone))
    · refine .inr ⟨tokenId, row, hcall, ?_, ?_⟩
      · obtain ⟨label, k, call⟩ := c
        cases hcall
        obtain ⟨-, hreply⟩ := hinserts
        obtain heq | ⟨a', hinsert, heq⟩ := transact_cases e.choice.fault s.store (s.store.insertNewDeposit tokenId row)
        · rw [perform, heq] at hreply
          cases hreply
        · rw [advanced, perform, heq, hinsert]
      · exact (holdings_take hi hspent hheld).append_right s.store.succeeded

/-- No token is in use twice, and one in use cannot come into use again. -/
structure SingleUse (s : System E) : Prop where
  nodup : (used s).Nodup
  kept : ∀ t ∈ used s, HasRow s.store t ∨ Closed s t
  lawful : AllBut Lawful none s.threads

theorem singleUse_advance (hs : SingleUse s) (hi : s.threads[i]? = some (.call c next))
    (hg : Orderly s (.advance i e)) : SingleUse (advanced enclave e s i c next) := by
  have hlawful : Lawful (.call c next) := hs.lawful i _ nofun hi
  have hthreads := hs.lawful.set (hlawful.2 (perform enclave e c.2.2 s.store).1).2.2 i
  have hkept := fun t (ht : t ∈ used s) => kept_advance enclave e hi hlawful hg ht (hs.kept t ht)
  obtain hsub | ⟨tokenId, row, hcall, hinsert, hperm⟩ := used_advance enclave e hi hlawful
  · exact ⟨nodup_of_subperm hsub hs.nodup, fun t ht => hkept t (hsub.subset ht), hthreads⟩
  · obtain ⟨hrow, hnone, -⟩ := hasRow_insertNewDeposit hinsert
    have hfresh : tokenId ∉ used s := by
      intro hused
      obtain h | h := hs.kept tokenId hused
      · exact hnone h
      · apply h.2 _ (List.mem_of_getElem? hi)
        have hown := hlawful.1
        obtain ⟨label, k, call⟩ := c
        cases hcall
        exact hown
    refine ⟨hperm.nodup_iff.mpr (List.nodup_cons.mpr ⟨hfresh, hs.nodup⟩), ?_, hthreads⟩
    intro t ht
    obtain rfl | ht := List.mem_cons.mp (hperm.subset ht)
    · exact .inl hrow
    · exact hkept t ht

theorem singleUse_start (hs : SingleUse s) (enclaves : Enclaves) (request : Request) :
    SingleUse ⟨s.store, s.threads ++ [program enclave.params.secp enclaves request]⟩ := by
  obtain ⟨hchecked, hinserted⟩ := arriving_program enclave.params.secp enclaves request
  have hused : used ⟨s.store, s.threads ++ [program enclave.params.secp enclaves request]⟩ = used s :=
    congrArg (· ++ s.store.succeeded) (holdings_append hinserted)
  refine ⟨hused ▸ hs.nodup, ?_, hs.lawful.append (lawful_program request)⟩
  intro t ht
  rw [hused] at ht
  refine (hs.kept t ht).imp_right ?_
  rintro ⟨hspent, hthreads⟩
  refine ⟨hspent, ?_⟩
  intro p hp
  obtain hp | hp := List.mem_append.mp hp
  · exact hthreads p hp
  · rw [List.mem_singleton.mp hp, hchecked]
    exact nofun

omit [Module (ZMod n) E] [DecidableEq E] in
theorem singleUse_stop (hs : SingleUse s) (i : ℕ) : SingleUse ⟨s.store, s.threads.set i .abort⟩ := by
  have hsub : (used ⟨s.store, s.threads.set i .abort⟩).Subperm (used s) :=
    (List.subperm_append_right _).mpr (holdings_stop_subperm rfl)
  refine ⟨nodup_of_subperm hsub hs.nodup, ?_, hs.lawful.set (p := .abort) trivial i⟩
  intro t ht
  refine (hs.kept t (hsub.subset ht)).imp_right ?_
  rintro ⟨hspent, hthreads⟩
  refine ⟨hspent, ?_⟩
  intro p hp
  obtain hp | rfl := List.mem_or_eq_of_mem_set hp
  · exact hthreads p hp
  · exact nofun

theorem singleUse_step (enclaves : Enclaves) {event : DepositEvent n} (hs : SingleUse s) (hg : Orderly s event) :
    SingleUse (step enclave enclaves s event) := by
  cases event with
  | start request => exact singleUse_start enclave hs enclaves request
  | stop i => exact singleUse_stop hs i
  | advance i e =>
    obtain hsame | ⟨c, next, hi, hstep⟩ := step_advance_cases (program enclave.params.secp enclaves)
      (fun e c => perform enclave e c.2.2) s i e
    · rw [step, hsame]
      exact hs
    · rw [step, hstep]
      exact singleUse_advance enclave e hs hi hg

/-- In every interleaving in which a row is deleted only if its deposit was cut short or its token
is closed, no two deposits succeed with the same token. -/
theorem tokens_single_use (enclaves : Enclaves) (store : Store E) {events : List (DepositEvent n)}
    (h : Guarded (step enclave enclaves) Orderly (init store) events) :
    (run (step enclave enclaves) (init store) events).store.succeeded.Nodup := by
  have hinit : SingleUse (init store) := ⟨List.nodup_nil, fun _ ht => absurd ht List.not_mem_nil, allBut_nil⟩
  have hrun := invariant_run (fun _ _ => singleUse_step enclave enclaves) hinit h
  exact (List.nodup_append.mp hrun.nodup).2.1

end Step

section Seven

def sevenStore : Store (ZMod 7) :=
  ⟨System.init 1, ⟨[⟨"token", true, false⟩], List.nodup_singleton _⟩, Table.empty, []⟩

def deposits (owner : ZMod 7) (statechainId : String) : DepositEvent 7 :=
  .start (.deposit ⟨Hex.encode (seven.x owner), "token", sevenSignature owner⟩ statechainId)

def withdraws : DepositEvent 7 := .start (.withdraw ⟨"coin", sevenSignature 2⟩)

/-- The environments of the two deposits, which have no faults and different secrets. -/
def first : Surroundings 7 := ⟨System.steady, none⟩

def second : Surroundings 7 := ⟨calm ⟨2, two_ne_zero_seven⟩, none⟩

/-- A deposit, its withdrawal, and a second deposit with the token. -/
def oneByOne : List (DepositEvent 7) :=
  deposits 2 "coin" :: advances id 0 5 first ++ withdraws :: advances id 1 5 first ++
    deposits 3 "other" :: advances id 2 5 second

theorem tokens_single_use_seven :
    Guarded (step sevenKeyring [true]) Orderly (init sevenStore) oneByOne ∧
      (run (step sevenKeyring [true]) (init sevenStore) oneByOne).store.succeeded.Nodup := by
  have h : Guarded (step sevenKeyring [true]) Orderly (init sevenStore) oneByOne := by decide +kernel
  exact ⟨h, tokens_single_use sevenKeyring [true] sevenStore h⟩

/-- Two deposits see the token unspent. The first one succeeds and its coin is withdrawn, and then
the second one makes its last calls. -/
def overlapping : List (DepositEvent 7) :=
  deposits 2 "coin" :: deposits 3 "other" :: advances id 0 2 first ++ advances id 1 2 second ++
    advances id 0 3 first ++ withdraws :: advances id 2 5 first ++ advances id 1 3 second

theorem token_used_twice_seven :
    ¬(run (step sevenKeyring [true]) (init sevenStore) overlapping).store.succeeded.Nodup := by
  decide +kernel

example : (run (step sevenKeyring [true]) (init sevenStore) overlapping).store.succeeded = ["token", "token"] := by
  decide +kernel

end Seven

end MercuryLayer.Server.DepositTokens
