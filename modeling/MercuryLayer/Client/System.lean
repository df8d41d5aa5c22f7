import MercuryLayer.Client.TransferSender
import MercuryLayer.Server.SignEffects

namespace MercuryLayer.Client.System

open Client.Transaction Client.TransferReceiver Client.TransferSender Crates Error Library.Programs Library.Tables
open Library.Validation Library.XOnlyCurve Lockbox.Enclave
open Lockbox.Server (DbFault)
open Receiver Sender Server.Database Server.Effects Server.Sign Server.SignEffects Server.System Server.Transfer
open MercuryLayer.Transaction WalletData

/-- A row of the table `backup_txs`. -/
structure StoredTxs where
  walletName : String
  statechainId : String
  txs : List BackupTx
deriving DecidableEq, Repr

/-- The client's sqlite file. -/
structure Files where
  wallets : Table Wallet String Wallet.name
  backups : Table StoredTxs (String × String) (fun row => (row.walletName, row.statechainId))

namespace Files

variable (files : Files)

def storedTxs (walletName statechainId : String) : Option (List BackupTx) :=
  (files.backups.get (walletName, statechainId)).map StoredTxs.txs

/-- An `UPDATE`, which changes nothing if there is no row with the name. -/
def updateWallet (wallet : Wallet) : Files :=
  { files with
    wallets := files.wallets.modify wallet.name (fun row => { wallet with name := row.name }) (fun _ => rfl) }

def updateBackupTxs (walletName statechainId : String) (backupTxs : List BackupTx) : Files :=
  { files with
    backups := files.backups.modify (walletName, statechainId) (fun row => { row with txs := backupTxs })
      (fun _ => rfl) }

end Files

section Environment

variable {n : ℕ} {E F : Type} [AddCommGroup E]

/-- The client's file and the statechain entity, with the messages that the client has uploaded. -/
structure State (E : Type) [AddCommGroup E] where
  files : Files
  world : World E
  uploads : List TransferUpdateMsgRequestPayload

/-- What the environment decides for one call of the client. -/
structure Chance (n : ℕ) (F : Type) where
  fault : DbFault
  link : Link
  elapsed : ℕ
  server : ℕ → Choice n
  height : UInt64
  unspents : List Unspent
  info : InfoConfig F
  nonce : NonceDraw
  date : String

def selectRow {α : Type} (fault : DbFault) (result : Option α) : Except String α :=
  match fault, result with
  | .ok, some a => .ok a
  | .ok, none => .error "no rows returned by a query that expected to return at least one row"
  | .failed text, _ => .error text
  | .lost text, _ => .error text

theorem selectRow_eq_ok {α : Type} {fault : DbFault} {result : Option α} {a : α} (h : selectRow fault result = .ok a) :
    result = some a := by
  cases fault with
  | failed text => cases h
  | lost text => cases h
  | ok =>
    cases result with
    | none => cases h
    | some b => exact congrArg some (Except.ok.inj h)

/-- A write that is done, or not done, or done without the client's learning of it. -/
def updateRow {σ : Type} (fault : DbFault) (s s' : σ) : Except String Unit × σ :=
  match fault with
  | .ok => (.ok (), s')
  | .failed text => (.error text, s)
  | .lost text => (.error text, s')

theorem updateRow_cases {σ : Type} (fault : DbFault) (s s' : σ) :
    ((updateRow fault s s').2 = s ∨ (updateRow fault s s').2 = s') ∧
      ((updateRow fault s s').1 = .ok () → (updateRow fault s s').2 = s') := by
  cases fault with
  | ok => exact ⟨.inr rfl, fun _ => rfl⟩
  | failed text => exact ⟨.inl rfl, nofun⟩
  | lost text => exact ⟨.inr rfl, nofun⟩

def fetch {α : Type} (link : Link) (a : α) : Except String α :=
  match link with
  | .delivered => .ok a
  | .unreachable text => .error text
  | .lost text => .error text
  | .cut => .error "error decoding response body"

variable [Module (ZMod n) E] [DecidableEq E] (enclave : Keyring n E) (batchTimeout : ℕ)

/-- A request to the statechain entity, some time after the one before. -/
def request (chance : Chance n F) (s : State E) (endpoint : Endpoint E Answer) : Transaction.Response × State E :=
  match chance.link with
  | .unreachable text => (.error text, s)
  | link =>
    let world := { s.world with now := s.world.now + chance.elapsed }
    let result := exec (Server.Database.handle enclave) endpoint chance.server world
    (fetch link result.1, { s with world := result.2 })

def handle (chance : Chance n F) : (c : Transaction.Call F) → State E → Transaction.Reply c × State E
  | .getWallet walletName, s => (selectRow chance.fault (s.files.wallets.get walletName), s)
  | .updateWallet wallet, s => updateRow chance.fault s { s with files := s.files.updateWallet wallet }
  | .getBackupTxs walletName statechainId, s =>
    (selectRow chance.fault (s.files.storedTxs walletName statechainId), s)
  | .updateBackupTxs walletName statechainId backupTxs, s =>
    updateRow chance.fault s { s with files := s.files.updateBackupTxs walletName statechainId backupTxs }
  | .blockHeadersSubscribeRaw, s => (fetch chance.link chance.height, s)
  | .scriptListUnspent _, s => (fetch chance.link chance.unspents, s)
  | .infoConfig, s => (fetch chance.link chance.info, s)
  | .drawNonce, s => (chance.nonce, s)
  | .signFirst payload, s => request enclave chance s (Server.Sign.signFirst enclave.params.secp payload)
  | .signSecond payload, s => request enclave chance s (Server.Sign.signSecond enclave.params payload)
  | .transferSender payload, s => request enclave chance s (Server.Transfer.transferSender enclave.params.secp batchTimeout payload)
  | .transferUpdateMsg payload, s =>
    request enclave chance { s with uploads := payload :: s.uploads } (Server.Transfer.transferUpdateMsg enclave.params.secp payload)
  | .utcNow, s => (chance.date, s)

variable {enclave batchTimeout}

theorem handle_consults (chance : Chance n F) (c : Transaction.Call F) (s : State E) (h : Consults c) :
    (handle enclave batchTimeout chance c s).2 = s := by
  cases c <;> first | rfl | cases h

/-- A request does not arrive, or has its effect; then the answer may still be lost. -/
theorem request_cases (chance : Chance n F) (s : State E) {endpoint : Endpoint E Answer}
    {post : Option Answer → World E → Prop}
    (h : ∀ now, wp (Server.Database.handle enclave) post endpoint { s.world with now := now }) :
    (∃ text, request enclave chance s endpoint = (.error text, s)) ∨
      ∃ answer w', post answer w' ∧ (request enclave chance s endpoint = (.ok answer, { s with world := w' }) ∨
        ∃ text, request enclave chance s endpoint = (.error text, { s with world := w' })) := by
  have hpost := exec_of_wp (h (s.world.now + chance.elapsed)) chance.server
  cases hlink : chance.link with
  | unreachable text =>
    refine .inl ⟨text, ?_⟩
    simp only [request, hlink]
  | delivered =>
    refine .inr ⟨_, _, hpost, .inl ?_⟩
    simp only [request, hlink, fetch]
  | lost text =>
    refine .inr ⟨_, _, hpost, .inr ⟨text, ?_⟩⟩
    simp only [request, hlink, fetch]
  | cut =>
    refine .inr ⟨_, _, hpost, .inr ⟨"error decoding response body", ?_⟩⟩
    simp only [request, hlink, fetch]

theorem request_after (chance : Chance n F) {s : State E} {endpoint : Endpoint E Answer} {P : State E → Prop} (hs : P s)
    (h : ∀ now, wp (Server.Database.handle enclave) (fun _ w' => P { s with world := w' }) endpoint
      { s.world with now := now }) : P (request enclave chance s endpoint).2 := by
  obtain ⟨text, hrequest⟩ | ⟨answer, w', hw', hrequest | ⟨text, hrequest⟩⟩ := request_cases chance s h
  · rw [hrequest]
    exact hs
  · rw [hrequest]
    exact hw'
  · rw [hrequest]
    exact hw'

end Environment

end MercuryLayer.Client.System
