import MercuryLayer.Server.Freeze

namespace MercuryLayer.Server.Mailbox

open Crates Library.Programs Library.Runs Library.Tables Library.XOnlyCurve Lockbox.Enclave Lockbox.Server
open Musig.Session Server.Database Server.Effects Server.Freeze Server.System Server.Transfer

inductive MsgAddrAnswer
  | refused (answer : Answer)
  | listed (listEncTransferMsg : List String)
deriving DecidableEq

variable {n : ℕ} {E : Type} [AddCommGroup E]

section Endpoint

variable [DecidableEq E] {db : Db (Point E)} {newUserAuthKey : Point E} {text : String}

/-- The messages in the rows of the recipient, the one that was changed last at the end. -/
def getStatechainTransferMessages (db : Db (Point E)) (newUserAuthKey : Point E) : List String :=
  ((db.transfers.rows.filter (fun row =>
      row.newUserAuthPublicKey == newUserAuthKey && row.encryptedTransferMsg.isSome)).insertionSort
    (fun a b => a.updatedAt ≤ b.updatedAt)).filterMap (fun row => row.encryptedTransferMsg.map Hex.encode)

/-- Whoever names the key gets the list. An error of the query is a panic. -/
def getMsgAddr (secp : Secp (Point E) (ZMod n)) (fault : DbFault) (db : Db (Point E)) (newAuthKey : String) :
    Option MsgAddrAnswer :=
  match secp.publicKeyFromStr newAuthKey, fault with
  | none, _ => some (.refused (internalError "Invalid authentication public key"))
  | some newUserAuthKey, .ok => some (.listed (getStatechainTransferMessages db newUserAuthKey))
  | some _, _ => none

theorem mem_getStatechainTransferMessages (h : text ∈ getStatechainTransferMessages db newUserAuthKey) :
    ∃ row ∈ db.transfers.rows, row.newUserAuthPublicKey = newUserAuthKey ∧
      ∃ encTransferMsg, row.encryptedTransferMsg = some encTransferMsg ∧ Hex.encode encTransferMsg = text := by
  simp only [getStatechainTransferMessages, List.mem_filterMap, List.mem_insertionSort, List.mem_filter,
    Bool.and_eq_true, beq_iff_eq, Option.map_eq_some_iff] at h
  obtain ⟨row, ⟨hrow, hkey, -⟩, htext⟩ := h
  exact ⟨row, hrow, hkey, htext⟩

theorem getMsgAddr_eq_listed {secp : Secp (Point E) (ZMod n)} {fault : DbFault} {newAuthKey : String}
    {texts : List String} (h : getMsgAddr secp fault db newAuthKey = some (.listed texts)) :
    ∃ newUserAuthKey, secp.publicKeyFromStr newAuthKey = some newUserAuthKey ∧
      texts = getStatechainTransferMessages db newUserAuthKey := by
  unfold getMsgAddr at h
  cases hkey : secp.publicKeyFromStr newAuthKey with
  | none =>
    rw [hkey] at h
    cases h
  | some newUserAuthKey =>
    rw [hkey] at h
    cases fault <;> cases h
    exact ⟨newUserAuthKey, rfl, rfl⟩

end Endpoint

variable [Module (ZMod n) E] [DecidableEq E] (enclave : Keyring n E) (batchTimeout : ℕ)

/-- At some time of the run the message was uploaded for the recipient of the row, with the signature of
whoever owned the statechain then. -/
def Uploaded (w : World E) (events : List (Event n E)) (row : StatechainTransfer (Point E)) (message : Bytes) :
    Prop :=
  ∃ before event after, events = before ++ event :: after ∧
    MessageReplaced enclave (run (System.step enclave batchTimeout) w before) event row (some message)

variable {enclave batchTimeout} {w : World E} {event : Event n E} {events : List (Event n E)}
  {row row' : StatechainTransfer (Point E)} {message : Bytes}

theorem replaced_of_same (hid : row'.statechainId = row.statechainId)
    (hkey : row'.newUserAuthPublicKey = row.newUserAuthPublicKey)
    (h : MessageReplaced enclave w event row (some message)) :
    MessageReplaced enclave w event row' (some message) := by
  rw [MessageReplaced, hid, hkey]
  exact h

/-- A message was in the row before the event, or the event uploads it. A coin that is sent again
has none. -/
theorem step_message (hrow : row ∈ (System.step enclave batchTimeout w event).db.transfers.rows)
    (hmessage : row.encryptedTransferMsg = some message) :
    (∃ row0 ∈ w.db.transfers.rows, row.statechainId = row0.statechainId ∧
      row.newUserAuthPublicKey = row0.newUserAuthPublicKey ∧ row0.encryptedTransferMsg = some message) ∨
    MessageReplaced enclave w event row (some message) := by
  cases step_change enclave batchTimeout w event with
  | kept g hrows hg hupdated hnow hkept =>
    obtain ⟨row0, hrow0, rfl⟩ := (hrows row).mp hrow
    have hid := (hg row0).statechainId
    have hkey := (hg row0).newUserAuthPublicKey
    rcases hkept row0 hrow0 with hsame | hreplaced
    · exact .inl ⟨row0, hrow0, hid, hkey, hsame.symm.trans hmessage⟩
    · rw [hmessage] at hreplaced
      exact .inr (replaced_of_same hid hkey hreplaced)
  | sent payload choices new hevent =>
    subst hevent
    have heffect : SenderEffect enclave batchTimeout w payload _ :=
      exec_of_wp (transferSender_effect payload) choices
    cases heffect with
    | same h =>
      rw [System.step, endpoint, h] at hrow
      exact .inl ⟨row, hrow, rfl, rfl, hmessage⟩
    | sent newUserAuthKey x1 batch hsigned hkey hbatch hadmitted hfresh h =>
      rw [System.step, endpoint, h] at hrow
      rcases Table.mem_replace.mp hrow with ⟨hrow0, -⟩ | rfl
      · exact .inl ⟨row, hrow0, rfl, rfl, hmessage⟩
      · cases hmessage
  | ticked elapsed hevent h =>
    rw [h] at hrow
    exact .inl ⟨row, hrow, rfl, rfl, hmessage⟩

theorem uploaded_of_message {enclaves : ℕ}
    (hrow : row ∈ (run (System.step enclave batchTimeout) (init enclaves) events).db.transfers.rows)
    (hmessage : row.encryptedTransferMsg = some message) :
    Uploaded enclave batchTimeout (init enclaves) events row message := by
  induction events using List.reverseRecOn generalizing row with
  | nil => cases hrow
  | append_singleton events event ih =>
    rw [run_append] at hrow
    rcases step_message hrow hmessage with ⟨row0, hrow0, hid, hkey, hmessage0⟩ | hreplaced
    · obtain ⟨before, upload, after, rfl, hreplaced⟩ := ih hrow0 hmessage0
      exact ⟨before, upload, after ++ [event], by simp, replaced_of_same hid hkey hreplaced⟩
    · exact ⟨events, event, [], rfl, hreplaced⟩

variable (enclave batchTimeout) in
/-- Nobody but the owner of a statechain puts a message for a recipient in the list. -/
theorem messages_uploaded_by_owner {enclaves : ℕ} {fault : DbFault} {newAuthKey : String} {texts : List String}
    (hlisted : getMsgAddr enclave.params.secp fault
      (run (System.step enclave batchTimeout) (init enclaves) events).db newAuthKey = some (.listed texts)) :
    ∀ text ∈ texts, ∃ row message, text = Hex.encode message ∧
      enclave.params.secp.publicKeyFromStr newAuthKey = some row.newUserAuthPublicKey ∧
      Uploaded enclave batchTimeout (init enclaves) events row message := by
  obtain ⟨newUserAuthKey, hkey, rfl⟩ := getMsgAddr_eq_listed hlisted
  intro text htext
  obtain ⟨row, hrow, rfl, message, hmessage, rfl⟩ := mem_getStatechainTransferMessages htext
  exact ⟨row, message, rfl, hkey, uploaded_of_message hrow hmessage⟩

theorem messages_uploaded_by_owner_seven :
    ∃ row message, Hex.encode [1] = Hex.encode message ∧
      seven.secp.publicKeyFromStr (seven.secp.publicKeyToStr (seven.publicKey 3)) = some row.newUserAuthPublicKey ∧
      Uploaded sevenKeyring 10 (init 1) firstUnlocked row message := by
  have hlisted : getMsgAddr seven.secp .ok (run (System.step sevenKeyring 10) (init 1) firstUnlocked).db
      (seven.secp.publicKeyToStr (seven.publicKey 3)) = some (.listed [Hex.encode [1]]) := by decide +kernel
  exact messages_uploaded_by_owner sevenKeyring 10 hlisted _ (List.mem_singleton.mpr rfl)

end MercuryLayer.Server.Mailbox
