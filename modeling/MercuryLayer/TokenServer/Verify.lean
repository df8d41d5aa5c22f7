import MercuryLayer.Client.TransferReceiver
import MercuryLayer.Library.Programs
import MercuryLayer.Library.Tables

namespace MercuryLayer.TokenServer.Verify

open Client.TransferReceiver (Unspent)
open Crates Library.Programs Library.Tables
open Library.XOnlyCurve (Bytes)

/-- A row of the table `tokens`. Its address may be `NULL`. -/
structure Token where
  tokenId : String
  onchainAddress : Option String
  confirmed : Bool
  spent : Bool
deriving DecidableEq

/-- The configuration, with the address parser of the crates. -/
structure ServerConfig where
  fee : UInt64
  confirmationTarget : UInt32
  network : Option Network
  isAddress : String → Bool
  scriptOfAddress : String → Network → Option Bytes

/-- What `token_verify` asks of the database and of the electrum server. -/
inductive Call
  | getTokenInfo (tokenId : String)
  | getElectrumClient
  | scriptListUnspent (script : Bytes)
  | blockHeadersSubscribeRaw
  | setTokenConfirmed (tokenId : String)

def Reply : Call → Type
  | .getTokenInfo _ => Option Token
  | .getElectrumClient => Option Unit
  | .scriptListUnspent _ => Except String (List Unspent)
  | .blockHeadersSubscribeRaw => Except String UInt64
  | .setTokenConfirmed _ => Option Unit

inductive Body
  | message (text : String)
  | standing (confirmed spent : Bool)
deriving DecidableEq

structure Answer where
  status : ℕ
  body : Body
deriving DecidableEq

def notConfirmed : Answer := ⟨200, .standing false false⟩

variable (config : ServerConfig)

/-- Whether an output is deep enough, in the arithmetic of the code. -/
def isDeep (blockheight : UInt64) (utxo : Unspent) : Bool :=
  let confirmations := blockheight - utxo.height + 1
  confirmations.toUInt32 ≥ config.confirmationTarget

def confirmToken (tokenId : String) : Prog Call Reply Answer :=
  .call (.setTokenConfirmed tokenId) fun done => do
    Prog.unwrap (done : Option Unit)
    return ⟨200, .standing true false⟩

/-- What is done about the output that was found. -/
def checkUtxo (tokenId : String) : Option Unspent → Prog Call Reply Answer
  | none => return notConfirmed
  | some utxo =>
    if config.confirmationTarget = 0 then confirmToken tokenId
    else if utxo.height = 0 then return notConfirmed
    else .call .blockHeadersSubscribeRaw fun (blockHeader : Except String UInt64) =>
      match blockHeader with
      | .error _ => return ⟨500, .message "Error fetching block header."⟩
      | .ok blockheight => if isDeep config blockheight utxo then confirmToken tokenId else return notConfirmed

/-- The search stops at the first output of the right value. -/
def findUtxo (utxoList : List Unspent) : Option Unspent := utxoList.find? (fun unspent => unspent.value == config.fee)

def verifyPayment (tokenId : String) (script : Bytes) : Prog Call Reply Answer :=
  .call .getElectrumClient fun client => do
    Prog.unwrap (client : Option Unit)
    .call (.scriptListUnspent script) fun (utxoList : Except String (List Unspent)) =>
      match utxoList with
      | .error _ => return ⟨500, .message "Error fetching UTXO list."⟩
      | .ok utxoList => checkUtxo config tokenId (findUtxo config utxoList)

def tokenVerify (tokenId : String) : Prog Call Reply Answer :=
  .call (.getTokenInfo tokenId) fun (tokenInfo : Option Token) =>
    match tokenInfo with
    | none => return ⟨404, .message "Token not found in the database."⟩
    | some tokenInfo => do
      let onchainAddress ← Prog.unwrap tokenInfo.onchainAddress
      if tokenInfo.spent || tokenInfo.confirmed then
        return ⟨200, .standing tokenInfo.confirmed tokenInfo.spent⟩
      else if config.isAddress onchainAddress = false then
        return ⟨500, .message "Invalid onchain address (network unchecked)."⟩
      else do
        let network ← Prog.unwrap config.network
        match config.scriptOfAddress onchainAddress network with
        | none => return ⟨500, .message "Invalid onchain address (network checked)."⟩
        | some script => verifyPayment config tokenId script

section Environment

/-- What the electrum server lists, and the height of its chain. -/
structure Chain where
  unspents : Bytes → List Unspent
  height : UInt64

abbrev Tokens : Type := Table Token String Token.tokenId

def setTokenConfirmed (tokens : Tokens) (tokenId : String) : Tokens :=
  tokens.modify tokenId (fun token => { token with confirmed := true }) (fun _ => rfl)

/-- The database and the electrum server answer. -/
def handle (chain : Chain) (_ : Unit) : (c : Call) → Tokens → Reply c × Tokens
  | .getTokenInfo tokenId, tokens => (tokens.get tokenId, tokens)
  | .getElectrumClient, tokens => (some (), tokens)
  | .scriptListUnspent script, tokens => (.ok (chain.unspents script), tokens)
  | .blockHeadersSubscribeRaw, tokens => (.ok chain.height, tokens)
  | .setTokenConfirmed tokenId, tokens => (some (), setTokenConfirmed tokens tokenId)

end Environment

section Run

variable {config} {chain : Chain} {tokens : Tokens} {token : Token} {tokenId : String} {script : Bytes}

variable (config chain) in
/-- What the listing of a script comes to. -/
def confirms (script : Bytes) : Bool :=
  (findUtxo config (chain.unspents script)).any (fun utxo => config.confirmationTarget = 0 ||
    (utxo.height ≠ 0 && isDeep config chain.height utxo))

theorem exec_checkUtxo (choices : ℕ → Unit) (found : Option Unspent) :
    (exec (handle chain) (checkUtxo config tokenId found) choices tokens).2 =
      if found.any (fun utxo => config.confirmationTarget = 0 ||
        (utxo.height ≠ 0 && isDeep config chain.height utxo)) then setTokenConfirmed tokens tokenId else tokens := by
  cases found with
  | none => rfl
  | some utxo =>
    by_cases htarget : config.confirmationTarget = 0
    · simp [checkUtxo, htarget, confirmToken, exec, handle, Prog.unwrap]
    · by_cases hheight : utxo.height = 0
      · simp [checkUtxo, htarget, hheight, exec]
      · by_cases hdeep : isDeep config chain.height utxo = true
        · simp [checkUtxo, htarget, hheight, hdeep, exec, handle, confirmToken, Prog.unwrap]
        · simp [checkUtxo, htarget, hheight, hdeep, exec, handle]

variable (config tokens) in
/-- The token is neither spent nor confirmed, and its address has the script on the network. -/
structure Awaits (tokenId : String) (script : Bytes) : Prop where
  row : ∃ address network, tokens.get tokenId = some ⟨tokenId, some address, false, false⟩ ∧
    config.isAddress address = true ∧ config.network = some network ∧
      config.scriptOfAddress address network = some script

variable (config chain tokens) in
def IsConfirmed (tokenId : String) : Prop :=
  ∃ token, (exec (handle chain) (tokenVerify config tokenId) (fun _ => ()) tokens).2.get tokenId = some token ∧
    token.confirmed = true

theorem isConfirmed_iff (h : Awaits config tokens tokenId script) :
    IsConfirmed config chain tokens tokenId ↔ confirms config chain script = true := by
  obtain ⟨address, network, hrow, haddress, hnetwork, hscript⟩ := h.row
  have hexec : (exec (handle chain) (tokenVerify config tokenId) (fun _ => ()) tokens).2 =
      if confirms config chain script then setTokenConfirmed tokens tokenId else tokens := by
    rw [confirms, ← exec_checkUtxo (fun _ => ())]
    simp only [tokenVerify, exec, handle, hrow, Prog.unwrap, Prog.ret_bind, haddress, hnetwork, hscript]
    rfl
  rw [IsConfirmed, hexec]
  split_ifs with hconfirms
  · refine iff_of_true ⟨⟨tokenId, some address, true, false⟩, ?_, rfl⟩ hconfirms
    rw [setTokenConfirmed, Table.get_modify_self, hrow]
    rfl
  · refine iff_of_false ?_ hconfirms
    rintro ⟨token, htoken, hconfirmed⟩
    cases Option.some.inj (hrow.symm.trans htoken)
    cases hconfirmed

end Run

section Depth

variable {config} {chain : Chain} {script : Bytes}

variable (config chain) in
/-- The output has as many confirmations as are asked for. -/
def Deep (utxo : Unspent) : Prop :=
  0 < utxo.height.toNat ∧ utxo.height.toNat ≤ chain.height.toNat ∧
    config.confirmationTarget.toNat ≤ chain.height.toNat - utxo.height.toNat + 1

instance (utxo : Unspent) : Decidable (Deep config chain utxo) := inferInstanceAs (Decidable (_ ∧ _ ∧ _))

variable (config chain) in
def Paid (script : Bytes) : Prop :=
  ∃ utxo ∈ chain.unspents script, utxo.value = config.fee ∧ (config.confirmationTarget = 0 ∨ Deep config chain utxo)

variable (config chain) in
/-- The first output of the value is not deep enough, but another one is. -/
def Overlooked (script : Bytes) : Prop :=
  ∃ first, findUtxo config (chain.unspents script) = some first ∧
    config.confirmationTarget ≠ 0 ∧ (first.height = 0 ∨ isDeep config chain.height first = false) ∧
      ∃ utxo ∈ chain.unspents script, utxo.value = config.fee ∧ Deep config chain utxo

variable (config chain) in
/-- No output of the value is deep enough, but the first is listed above the tip, where the count of its
confirmations starts again from the top. -/
def Conjured (script : Bytes) : Prop :=
  ∃ first, findUtxo config (chain.unspents script) = some first ∧
    config.confirmationTarget ≠ 0 ∧ chain.height < first.height ∧ isDeep config chain.height first = true ∧
      ∀ utxo ∈ chain.unspents script, utxo.value = config.fee → ¬Deep config chain utxo

/-- Below the tip the code's count of the confirmations is never too large. -/
theorem deep_of_isDeep {utxo : Unspent} (hheight : utxo.height ≠ 0) (hle : utxo.height ≤ chain.height)
    (h : isDeep config chain.height utxo = true) : Deep config chain utxo := by
  have hpos : utxo.height.toNat ≠ 0 := fun hzero => hheight (UInt64.toNat_inj.mp hzero)
  have hnat : utxo.height.toNat ≤ chain.height.toNat := UInt64.le_iff_toNat_le.mp hle
  have hcount := UInt32.le_iff_toNat_le.mp (of_decide_eq_true h)
  rw [UInt64.toNat_toUInt32, UInt64.toNat_add, UInt64.toNat_sub_of_le _ _ hle] at hcount
  refine ⟨by omega, hnat, hcount.trans ((Nat.mod_le _ _).trans (Nat.mod_le _ _))⟩

theorem found_of_paid (h : Paid config chain script) : ∃ first, findUtxo config (chain.unspents script) = some first := by
  obtain ⟨utxo, hmem, hvalue, -⟩ := h
  have hsome : (findUtxo config (chain.unspents script)).isSome = true :=
    List.find?_isSome.mpr ⟨utxo, hmem, beq_iff_eq.mpr hvalue⟩
  exact Option.isSome_iff_exists.mp hsome

theorem confirms_iff :
    (confirms config chain script = true ↔ Paid config chain script) ↔
      ¬Overlooked config chain script ∧ ¬Conjured config chain script := by
  cases hfirst : findUtxo config (chain.unspents script) with
  | none =>
    have hunpaid : ¬Paid config chain script := by
      intro hpaid
      obtain ⟨first, hfound⟩ := found_of_paid hpaid
      cases hfirst.symm.trans hfound
    refine iff_of_true (iff_of_false ?_ hunpaid) ⟨?_, ?_⟩
    · rw [confirms, hfirst]
      exact Bool.false_ne_true
    · rintro ⟨first, hfound, -⟩
      cases hfirst.symm.trans hfound
    · rintro ⟨first, hfound, -⟩
      cases hfirst.symm.trans hfound
  | some first =>
    have hmem : first ∈ chain.unspents script := List.mem_of_find?_eq_some hfirst
    have hvalue : first.value = config.fee := by simpa using List.find?_some hfirst
    simp only [confirms, hfirst, Paid, Overlooked, Conjured, Option.any_some, Option.some.injEq, exists_eq_left',
      Bool.or_eq_true, Bool.and_eq_true, decide_eq_true_eq]
    by_cases htarget : config.confirmationTarget = 0
    · simp only [htarget, true_or, and_true, ne_eq, not_true_eq_false, false_and, not_false_eq_true, and_self, iff_true,
        true_iff]
      exact ⟨first, hmem, hvalue⟩
    · simp only [htarget, false_or, ne_eq, not_false_eq_true, true_and]
      by_cases hpaid : ∃ utxo ∈ chain.unspents script, utxo.value = config.fee ∧ Deep config chain utxo
      · simp only [hpaid, iff_true, and_true]
        constructor
        · rintro ⟨hheight, hdeep⟩
          refine ⟨fun h => ?_, fun h => ?_⟩
          · obtain hzero | hshallow := h
            · exact hheight hzero
            · cases hshallow.symm.trans hdeep
          · obtain ⟨utxo, hutxo, hfee, hutxoDeep⟩ := hpaid
            exact h.2.2 utxo hutxo hfee hutxoDeep
        · rintro ⟨hseen, -⟩
          obtain ⟨hheight, hdeep⟩ := not_or.mp hseen
          exact ⟨hheight, Bool.eq_true_of_not_eq_false hdeep⟩
      · have hnone : ∀ utxo ∈ chain.unspents script, utxo.value = config.fee → ¬Deep config chain utxo :=
          fun utxo hutxo hfee hdeep => hpaid ⟨utxo, hutxo, hfee, hdeep⟩
        simp only [hpaid, iff_false, and_false, not_false_eq_true, true_and]
        constructor
        · rintro hrefused ⟨habove, hdeep, -⟩
          refine hrefused ⟨fun hzero => ?_, hdeep⟩
          rw [hzero] at habove
          exact absurd (UInt64.lt_iff_toNat_lt.mp habove) (Nat.not_lt_zero _)
        · rintro hreal ⟨hheight, hdeep⟩
          by_cases hle : first.height ≤ chain.height
          · exact hnone first hmem hvalue (deep_of_isDeep hheight hle hdeep)
          · exact hreal ⟨UInt64.not_le.mp hle, hdeep, hnone⟩

/-- Payment is detected exactly unless the first output of the value is not deep enough while another is, or
is listed above the tip. -/
theorem payment_detected_iff (config : ServerConfig) (chain : Chain) (tokens : Tokens) (tokenId : String)
    (script : Bytes) (h : Awaits config tokens tokenId script) :
    (IsConfirmed config chain tokens tokenId ↔ Paid config chain script) ↔
      ¬Overlooked config chain script ∧ ¬Conjured config chain script := by
  rw [isConfirmed_iff h, confirms_iff]

section Ten

def tenTwice : ServerConfig := ⟨10, 2, some .regtest, fun _ => true, fun _ _ => some []⟩

def waiting : Tokens := ⟨[⟨"token", some "address", false, false⟩], by decide⟩

def listing (unspents : List Unspent) : Chain := ⟨fun _ => unspents, 7⟩

theorem awaits_waiting : Awaits tenTwice waiting "token" [] := ⟨"address", .regtest, by decide, rfl, rfl, rfl⟩

/-- Another value, then the payment, and the same value once more in the mempool. -/
def paidChain : Chain := listing [⟨"d", 0, 4, 9⟩, ⟨"f", 0, 5, 10⟩, ⟨"g", 0, 0, 10⟩]

theorem payment_detected_ten :
    (IsConfirmed tenTwice paidChain waiting "token" ↔ Paid tenTwice paidChain []) ∧ Paid tenTwice paidChain [] := by
  refine ⟨(payment_detected_iff tenTwice paidChain waiting "token" [] awaits_waiting).mpr ⟨?_, ?_⟩,
    ⟨"f", 0, 5, 10⟩, by decide, rfl, .inr (by decide +kernel)⟩
  · rintro ⟨first, hfirst, -, hshallow, -⟩
    cases Option.some.inj hfirst
    exact absurd hshallow (by decide)
  · rintro ⟨first, hfirst, -, habove, -⟩
    cases Option.some.inj hfirst
    exact absurd habove (by decide)

/-- An output in the mempool hides one that is deep enough. -/
theorem payment_overlooked_ten :
    Paid tenTwice (listing [⟨"g", 0, 0, 10⟩, ⟨"f", 0, 5, 10⟩]) [] ∧
      ¬IsConfirmed tenTwice (listing [⟨"g", 0, 0, 10⟩, ⟨"f", 0, 5, 10⟩]) waiting "token" := by
  refine ⟨⟨⟨"f", 0, 5, 10⟩, by decide, rfl, .inr (by decide +kernel)⟩, ?_⟩
  rw [isConfirmed_iff awaits_waiting]
  decide

end Ten

end Depth

end MercuryLayer.TokenServer.Verify
