import MercuryLayer.Client.System
import MercuryLayer.CpfpTx
import MercuryLayer.Deposit
import MercuryLayer.Library.Reliance

namespace MercuryLayer.Client.Operations

open Client.System Client.Transaction Client.TransferReceiver Crates MercuryLayer.Deposit Error Library.Programs
open Library.Reliance Library.Tables Library.Validation Library.XOnlyCurve
open Lockbox.Server (DbFault)
open MercuryLayer.Transaction (getPartialSigRequest newBackupTransaction)
open Receiver Server.Transfer WalletData

/-- What a client's operations ask of their surroundings: all that sending asks, and more of the
sqlite file, of the electrum server, of the statechain entity and of the random source, which also
decides the order in which a `HashSet` or a `HashMap` is gone through. -/
inductive Call (F : Type)
  | sending (c : Transaction.Call F)
  | insertBackupTxs (walletName statechainId : String) (backupTxs : List BackupTx)
  | insertOrUpdateBackupTxs (walletName statechainId : String) (backupTxs : List BackupTx)
  | batchTransactionGetRaw (txid : Bytes)
  | transactionBroadcastRaw (tx : String)
  | estimateFee
  | drawLocktime
  | hashOrder
  | statechainInfo (statechainId : String)
  | depositInit (payload : DepositMsg1)
  | getMsgAddr (authPubkey : String)
  | transferUnlock (payload : TransferUnlockRequestPayload)
  | transferReceiver (payload : TransferReceiverRequestPayload)
  | withdrawComplete (payload : WithdrawCompletePayload)

def Reply {F : Type} : Call F → Type
  | .sending c => Transaction.Reply c
  | .insertBackupTxs _ _ _ => Except String Unit
  | .insertOrUpdateBackupTxs _ _ _ => Except String Unit
  | .batchTransactionGetRaw _ => Except String (List String)
  | .transactionBroadcastRaw _ => Except String String
  | .estimateFee => Except String F
  | .drawLocktime => ℕ × ℕ
  | .hashOrder => List String → List String
  | .statechainInfo _ => Transaction.Response
  | .depositInit _ => Transaction.Response
  | .getMsgAddr _ => Except String (List String)
  | .transferUnlock _ => Transaction.Response
  | .transferReceiver _ => Transaction.Response
  | .withdrawComplete _ => Transaction.Response

/-- An operation of the client. Its panics are errors that no caller handles. -/
abbrev Operation (F α : Type) : Type := ExceptT Failure (Prog (Call F) Reply) α

/-- The crates of the client and its configuration, as far as all operations use them. -/
structure Kit (E K F : Type) extends Setup E K F where
  ecies : Ecies K
  derivation : Derivation E K
  parseUuid : String → Option String
  createTransaction : (inputTxHash : String) → Coin → (inputAmount : UInt64) → List TxOut → Network →
    Res Crates.Transaction

variable {E K F α : Type}

/-- A part of an operation that sending has too. -/
def send (p : Action F α) : Operation F α := Prog.embed Call.sending p.run

theorem yields_send {P : Transaction.Call F → Prop} {Q : Call F → Prop} {post : α → Prop} {p : Action F α}
    (h : Yields P post p) (hP : ∀ c, P c → Q (.sending c)) : Yields Q post (send p) :=
  Prog.Gives.embed h hP

/-- The `Result` of a step, whose error the caller goes on with. A panic goes through. -/
def attempt (p : Operation F α) : Operation F (Option α) :=
  ExceptT.mk (p.run >>= fun r => pure (handled r))

theorem yields_attempt {P : Call F → Prop} {post : α → Prop} {p : Operation F α} (h : Yields P post p) :
    Yields P (fun r => ∀ a, r = some a → post a) (attempt p) := by
  refine Prog.Gives.bind h (fun r hr o ho a ha => hr a ?_)
  subst ha
  exact handled_eq_some.mp ho

/-- `Result::unwrap`: an error becomes a panic. -/
def expectOk (p : Operation F α) : Operation F α := ExceptT.mk (p.run >>= fun r => pure (expect r))

theorem yields_expectOk {P : Call F → Prop} {post : α → Prop} {p : Operation F α} (h : Yields P post p) :
    Yields P post (expectOk p) :=
  Prog.Gives.bind h (fun _ hr a ha => hr a (expect_eq_ok.mp ha))

/-- The error of a step with another text. -/
def withContext (context : Failure → Failure) (p : Operation F α) : Operation F α :=
  ExceptT.mk (p.run >>= fun r => pure (r.mapError context))

theorem yields_withContext {P : Call F → Prop} {post : α → Prop} {p : Operation F α} (context : Failure → Failure)
    (h : Yields P post p) : Yields P post (withContext context p) :=
  Prog.Gives.bind h (fun _ hr a ha => hr a (mapError_eq_ok.mp ha))

def fail (text : String) : Operation F α := liftM (Except.error (.anyhow text) : Res α)

theorem yields_fail {P : Call F → Prop} {post : α → Prop} (text : String) :
    Yields P post (fail text : Operation F α) :=
  yields_lift (fun _ h => nomatch h)

section Relying

variable {ok : (c : Call F) → Reply c → Prop} {P : Call F → Prop} {post : α → Prop} {err : Failure → Prop}

theorem assures_send {p : Action F α}
    (h : Assures (fun c r => ok (.sending c) r) (fun c => P (.sending c)) post err p) :
    Assures ok P post err (send p) :=
  Relies.embed h

/-- An error that is gone on with has been met. A panic goes through. -/
theorem assures_attempt {p : Operation F α} (h : Assures ok P post err p) :
    Assures ok P
      (fun r => (∀ a, r = some a → post a) ∧ (r = none → ∃ failure, failure ≠ .panic ∧ err failure))
      err (attempt p) := by
  refine Relies.bind h (fun r hr => ?_)
  cases r with
  | ok a =>
    refine ⟨fun b hb => ?_, fun hb => nomatch hb⟩
    cases Option.some.inj hb
    exact hr
  | error failure =>
    cases failure with
    | panic => exact hr
    | mercury e => exact ⟨fun b hb => (nomatch hb), fun _ => ⟨.mercury e, nofun, hr⟩⟩
    | anyhow text => exact ⟨fun b hb => (nomatch hb), fun _ => ⟨.anyhow text, nofun, hr⟩⟩

end Relying

section Signing

/-- The calls of sending that do not touch the wallet. -/
def KeepsWallet : Transaction.Call F → Prop
  | .getWallet _ => False
  | .updateWallet _ => False
  | _ => True

theorem yields_getBackupTxs (walletName statechainId : String) :
    Yields KeepsWallet (fun _ => True) (TransferSender.getBackupTxs walletName statechainId : Action F (List BackupTx)) :=
  yields_ask_bind (Transaction.Call.getBackupTxs walletName statechainId) _ trivial
    (fun _ => yields_lift fun _ _ => trivial)

theorem yields_infoConfig : Yields KeepsWallet (fun _ => True) (infoConfig : Action F (InfoConfig F)) :=
  yields_ask_bind Transaction.Call.infoConfig _ trivial (fun _ => yields_lift fun _ _ => trivial)

/-- What is signed is what was requested for the coin, with new nonces. -/
theorem yields_newTransaction_request {setup : Setup E K F} [Mul F] [NatCast F] (coin : Coin) (toAddress : String) (qtBackupTx : UInt32)
    (withdrawal : Option (ℕ × ℕ)) (blockHeight : Option UInt32) (network : String) (feeRateSatsPerByte : F)
    (initlock interval : UInt32) :
    Yields KeepsWallet
      (fun r => ∃ coinNonce serverPublicNonce height request signature,
        r.1 = withNonces coin coinNonce serverPublicNonce ∧
        getPartialSigRequest setup.secp setup.musig setup.btc setup.envelope setup.isAddress setup.ceilU64 r.1 height
          initlock interval feeRateSatsPerByte qtBackupTx toAddress network withdrawal = .ok request ∧
        newBackupTransaction setup.secp setup.btc request.encodedUnsignedTx signature = .ok r.2)
      (newTransaction setup coin toAddress qtBackupTx withdrawal blockHeight network feeRateSatsPerByte initlock
        interval) := by
  have hnonces : Yields KeepsWallet (fun _ => True) (createAndCommitNonces setup coin) :=
    yields_ask_bind Transaction.Call.drawNonce _ trivial (fun _ => yields_lift fun _ _ => trivial)
  have hfirst : ∀ payload, Yields KeepsWallet (fun _ => True) (signFirst payload : Action F String) := by
    intro payload
    refine yields_ask_bind (Transaction.Call.signFirst payload) _ trivial (fun response => ?_)
    refine yields_lift_bind (fun _ _ => ?_)
    refine yields_lift_bind (fun _ _ => ?_)
    refine yields_lift_bind (fun _ _ => ?_)
    exact yields_lift_bind (fun _ _ => yields_pure trivial)
  have hsecond : ∀ payload, Yields KeepsWallet (fun _ => True) (signSecond setup payload) := by
    intro payload
    refine yields_ask_bind (Transaction.Call.signSecond payload) _ trivial (fun response => ?_)
    refine yields_lift_bind (fun _ _ => ?_)
    refine yields_lift_bind (fun _ _ => ?_)
    exact yields_lift_bind (fun _ _ => yields_lift fun _ _ => trivial)
  have hheight : Yields KeepsWallet (fun _ => True) (blockHeightOr blockHeight : Action F UInt32) := by
    cases blockHeight with
    | some height => exact yields_pure trivial
    | none =>
      refine yields_bind (yields_ask_bind Transaction.Call.blockHeadersSubscribeRaw _ trivial
        (fun _ => yields_lift fun _ _ => trivial)) (fun _ _ => yields_pure trivial)
  refine yields_bind hnonces (fun coinNonce _ => ?_)
  refine yields_bind (hfirst _) (fun serverPublicNonce _ => ?_)
  refine yields_bind hheight (fun height _ => ?_)
  refine yields_lift_bind (fun request hrequest => ?_)
  refine yields_bind (hsecond _) (fun serverPartialSig _ => ?_)
  refine yields_lift_bind (fun signature _ => ?_)
  refine yields_lift_bind (fun signedTx hsignedTx => ?_)
  exact yields_pure ⟨coinNonce, serverPublicNonce, height, request, signature, rfl, hrequest, hsignedTx⟩

theorem yields_newTransaction {setup : Setup E K F} [Mul F] [NatCast F] (coin : Coin) (toAddress : String) (qtBackupTx : UInt32)
    (withdrawal : Option (ℕ × ℕ)) (blockHeight : Option UInt32) (network : String) (feeRateSatsPerByte : F)
    (initlock interval : UInt32) :
    Yields KeepsWallet (fun r => ∃ coinNonce serverPublicNonce, r.1 = withNonces coin coinNonce serverPublicNonce)
      (newTransaction setup coin toAddress qtBackupTx withdrawal blockHeight network feeRateSatsPerByte initlock
        interval) := by
  refine yields_mono (fun _ h => h) (fun r hr => ?_) (yields_newTransaction_request _ _ _ _ _ _ _ _ _)
  obtain ⟨coinNonce, serverPublicNonce, -, -, -, hcoin, -⟩ := hr
  exact ⟨coinNonce, serverPublicNonce, hcoin⟩

end Signing

def OffWallet : Call F → Prop
  | .sending c => KeepsWallet c
  | _ => True

/-- The calls that neither touch the wallet nor complete a withdrawal. -/
def Quiet : Call F → Prop
  | .sending c => KeepsWallet c
  | .withdrawComplete _ => False
  | _ => True

/-- The calls that ask the electrum server or the statechain entity about a coin. -/
def Asks : Call F → Prop
  | .sending (.scriptListUnspent _) => True
  | .sending .blockHeadersSubscribeRaw => True
  | .statechainInfo _ => True
  | _ => False

/-- The calls that ask about a coin, or for a transaction. -/
def Reads : Call F → Prop
  | .batchTransactionGetRaw _ => True
  | c => Asks c

theorem quiet_of_asks (c : Call F) (h : Asks c) : Quiet c := by
  cases c with
  | sending c => cases c <;> trivial
  | _ => trivial

theorem reads_of_asks (c : Call F) (h : Asks c) : Reads c := by
  cases c <;> first | exact h | trivial

theorem quiet_of_reads (c : Call F) (h : Reads c) : Quiet c := by
  cases c with
  | sending c => exact quiet_of_asks _ h
  | withdrawComplete payload => exact quiet_of_asks _ h
  | _ => trivial

theorem yields_send_quiet {post : α → Prop} {p : Action F α} (h : Yields KeepsWallet post p) :
    Yields Quiet post (send p) :=
  yields_send h (fun _ h => h)

section Calls

def getWallet (walletName : String) : Operation F Wallet := do
  let wallet : Except String Wallet ← ask (Call.sending (.getWallet walletName) : Call F)
  anyhow wallet

def updateWallet (wallet : Wallet) : Operation F Unit := do
  let stored : Except String Unit ← ask (Call.sending (.updateWallet wallet) : Call F)
  anyhow stored

def insertBackupTxs (walletName statechainId : String) (backupTxs : List BackupTx) : Operation F Unit := do
  let stored : Except String Unit ← ask (Call.insertBackupTxs walletName statechainId backupTxs : Call F)
  anyhow stored

def insertOrUpdateBackupTxs (walletName statechainId : String) (backupTxs : List BackupTx) : Operation F Unit := do
  let stored : Except String Unit ← ask (Call.insertOrUpdateBackupTxs walletName statechainId backupTxs : Call F)
  anyhow stored

def scriptListUnspent (script : Bytes) : Operation F (List Unspent) := do
  let unspents : Except String (List Unspent) ← ask (Call.sending (.scriptListUnspent script) : Call F)
  anyhow unspents

def transactionBroadcastRaw (tx : String) : Operation F String := do
  let txid : Except String String ← ask (Call.transactionBroadcastRaw tx : Call F)
  anyhow txid

def utcNow : Operation F String := ask (Call.sending .utcNow : Call F)

def createActivity (utxo : String) (amount : UInt32) (action : String) : Operation F Activity := do
  let date ← utcNow
  return { utxo := utxo, amount := amount, action := action, date := date }

/-- A page that is no JSON object comes with the status of a panic. -/
def statusOf (response : Option Answer) : ℕ := (response.map Answer.status).getD 500

/-- The body of a response, of which the message is kept. -/
def bodyText (response : Option Answer) : String := (response.bind (answerField "message")).getD ""

def getStatechainInfo (statechainId : String) : Operation F (Option StatechainInfoResponsePayload) := do
  let response : Transaction.Response ← ask (Call.statechainInfo statechainId : Call F)
  let response ← anyhow response
  if statusOf response = 404 then return none
  else match response.map Answer.payload with
    | some (.statechainInfo info) => return some info
    | _ => fail "expected value"

def completeWithdraw (statechainId signedStatechainId : String) : Operation F Unit := do
  let response : Transaction.Response ←
    ask (Call.withdrawComplete ⟨statechainId, signedStatechainId⟩ : Call F)
  let response ← anyhow response
  failIf (statusOf response ≠ 200) (bodyText response)

theorem yields_insertBackupTxs (walletName statechainId : String) (backupTxs : List BackupTx) :
    Yields Quiet (fun _ => True) (insertBackupTxs walletName statechainId backupTxs : Operation F Unit) :=
  yields_ask_bind (Call.insertBackupTxs walletName statechainId backupTxs) _ trivial
    (fun _ => yields_lift fun _ _ => trivial)

theorem yields_insertOrUpdateBackupTxs (walletName statechainId : String) (backupTxs : List BackupTx) :
    Yields Quiet (fun _ => True) (insertOrUpdateBackupTxs walletName statechainId backupTxs : Operation F Unit) :=
  yields_ask_bind (Call.insertOrUpdateBackupTxs walletName statechainId backupTxs) _ trivial
    (fun _ => yields_lift fun _ _ => trivial)

theorem asks_scriptListUnspent (script : Bytes) :
    Yields Asks (fun _ => True) (scriptListUnspent script : Operation F (List Unspent)) :=
  yields_ask_bind (Call.sending (.scriptListUnspent script)) _ trivial (fun _ => yields_lift fun _ _ => trivial)

theorem yields_scriptListUnspent (script : Bytes) :
    Yields Quiet (fun _ => True) (scriptListUnspent script : Operation F (List Unspent)) :=
  yields_mono quiet_of_asks (fun _ h => h) (asks_scriptListUnspent script)

theorem yields_transactionBroadcastRaw (tx : String) :
    Yields Quiet (fun _ => True) (transactionBroadcastRaw tx : Operation F String) :=
  yields_ask_bind (Call.transactionBroadcastRaw tx) _ trivial (fun _ => yields_lift fun _ _ => trivial)

theorem yields_createActivity (utxo : String) (amount : UInt32) (action : String) :
    Yields Quiet (fun _ => True) (createActivity utxo amount action : Operation F Activity) :=
  yields_ask_bind (Call.sending .utcNow) _ trivial (fun _ => yields_pure trivial)

theorem asks_getStatechainInfo (statechainId : String) :
    Yields Asks (fun _ => True)
      (getStatechainInfo statechainId : Operation F (Option StatechainInfoResponsePayload)) := by
  refine yields_ask_bind (Call.statechainInfo statechainId) _ trivial (fun reply => ?_)
  refine yields_lift_bind (fun response _ => ?_)
  split_ifs
  · exact yields_pure trivial
  · split
    · exact yields_pure trivial
    · exact yields_fail _

theorem yields_getStatechainInfo (statechainId : String) :
    Yields Quiet (fun _ => True)
      (getStatechainInfo statechainId : Operation F (Option StatechainInfoResponsePayload)) :=
  yields_mono quiet_of_asks (fun _ h => h) (asks_getStatechainInfo statechainId)

def scriptOf (setup : Setup E K F) (address : String) : Res Bytes :=
  orFail "bitcoin::address::Error" (setup.btc.scriptOfAddress address setup.network)

end Calls

/-- The order of `Option<u32>`, in which `None` comes first. -/
def isLower : Option UInt32 → Option UInt32 → Bool
  | none, some _ => true
  | some a, some b => decide (a < b)
  | _, none => false

/-- `min_by_key(|c| c.locktime)`, the first one of several. -/
def minByLocktime : List (Coin × ℕ) → Option (Coin × ℕ)
  | [] => none
  | coin :: coins => match minByLocktime coins with
    | none => some coin
    | some best => if isLower best.1.locktime coin.1.locktime then some best else some coin

theorem mem_of_minByLocktime {coins : List (Coin × ℕ)} {coin : Coin × ℕ} (h : minByLocktime coins = some coin) :
    coin ∈ coins := by
  induction coins with
  | nil => cases h
  | cons first coins ih =>
    rw [minByLocktime] at h
    cases hbest : minByLocktime coins with
    | none =>
      rw [hbest] at h
      exact List.mem_cons.mpr (.inl (Option.some.inj h).symm)
    | some best =>
      rw [hbest] at h
      dsimp only at h
      split_ifs at h
      · exact List.mem_cons_of_mem first (ih (hbest.trans h))
      · exact List.mem_cons.mpr (.inl (Option.some.inj h).symm)

theorem getElem?_of_minByLocktime {coins : List Coin} {p : Coin × ℕ → Bool} {coin : Coin} {place : ℕ}
    (h : minByLocktime (coins.zipIdx.filter p) = some (coin, place)) : coins[place]? = some coin :=
  List.mem_zipIdx_iff_getElem?.mp (List.mem_of_mem_filter (mem_of_minByLocktime h))

section Environment

/-- The rows of the table `wallet`. -/
abbrev Wallets : Type := Table Wallet String Wallet.name

/-- What the environment decides for one call: whether the sqlite file works, and any answer to
a call that the file does not decide. -/
structure Oracle (F : Type) where
  fault : DbFault
  answer : (c : Call F) → Reply c

theorem name_renamed (wallet row : Wallet) : ({ wallet with name := row.name } : Wallet).name = row.name := rfl

/-- An `UPDATE`, which changes nothing if there is no row with the name. -/
def saveWallet (wallets : Wallets) (wallet : Wallet) : Wallets :=
  wallets.modify wallet.name (fun row => { wallet with name := row.name }) (name_renamed wallet)

/-- The wallets are stored in the file. Every other answer is arbitrary. -/
def handle (oracle : Oracle F) : (c : Call F) → Wallets → Reply c × Wallets
  | .sending (.getWallet walletName), wallets => (selectRow oracle.fault (wallets.get walletName), wallets)
  | .sending (.updateWallet wallet), wallets => updateRow oracle.fault wallets (saveWallet wallets wallet)
  | c, wallets => (oracle.answer c, wallets)

theorem offWallet_of_quiet {c : Call F} (h : Quiet c) : OffWallet c := by
  cases c <;> first | exact h | trivial

theorem handle_offWallet (oracle : Oracle F) (c : Call F) (wallets : Wallets) (h : OffWallet c) :
    handle oracle c wallets = (oracle.answer c, wallets) := by
  cases c with
  | sending c => cases c <;> first | rfl | cases h
  | _ => rfl

theorem handle_updateWallet {oracle : Oracle F} {wallet : Wallet} {wallets : Wallets}
    (h : (handle oracle (.sending (.updateWallet wallet)) wallets).1 = .ok ()) :
    (handle oracle (.sending (.updateWallet wallet)) wallets).2 = saveWallet wallets wallet :=
  (updateRow_cases _ _ _).2 h

theorem get_saveWallet {wallets : Wallets} {wallet old : Wallet} (h : wallets.get wallet.name = some old) :
    (saveWallet wallets wallet).get wallet.name = some wallet := by
  obtain ⟨hold, hname⟩ := Table.get_eq_some.mp h
  refine Table.get_eq_some.mpr ⟨Table.mem_modify.mpr ⟨old, hold, ?_⟩, rfl⟩
  rw [if_pos hname, hname]

theorem get_saveWallet_of_ne {wallets : Wallets} {wallet : Wallet} {name : String} (h : wallet.name ≠ name) :
    (saveWallet wallets wallet).get name = wallets.get name := by
  cases hold : wallets.get name with
  | none =>
    refine Table.get_eq_none.mpr (fun row hrow => ?_)
    obtain ⟨old, hmem, rfl⟩ := Table.mem_modify.mp hrow
    have hne := Table.get_eq_none.mp hold old hmem
    split_ifs <;> exact hne
  | some old =>
    obtain ⟨hmem, rfl⟩ := Table.get_eq_some.mp hold
    exact Table.get_eq_some.mpr ⟨Table.mem_modify.mpr ⟨old, hmem, by rw [if_neg (Ne.symm h)]⟩, rfl⟩

end Environment

end MercuryLayer.Client.Operations
