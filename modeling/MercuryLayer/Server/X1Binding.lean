import MercuryLayer.KeyHandover
import MercuryLayer.Lockbox.KeyUpdate
import MercuryLayer.Server.Effects

namespace MercuryLayer.Server.X1Binding

open Crates Error KeyHandover Library.Programs Library.Runs Library.Tables Library.Validation Library.XOnlyCurve
open Lockbox.Enclave Lockbox.KeyUpdate Lockbox.Server Musig.Cosign Musig.Session Receiver Server.Database
open Server.Effects Server.System Server.Transfer Server.Unlock WalletData

variable {n : ℕ} {E : Type} [AddCommGroup E] [Module (ZMod n) E] [DecidableEq E]

/-- The two ends of a transfer: the owner with the share `o1` and the receiver with `o2`. -/
structure Parties (p : Params n E) where
  statechainId : String
  o1 : { k : ZMod n // k ≠ 0 }
  coin : Coin
  o2 : ZMod n
  holds : p.secp.privateKeyFromWif coin.userPrivkey = some o2

variable (enclave : Keyring n E) (batchTimeout : ℕ) (parties : Parties enclave.params)

/-- A transfer message that names the owner's key. What else is in it is up to the sender. -/
abbrev OwnerMsg : Type :=
  { transferMsg : TransferMsg // transferMsg.statechainId = parties.statechainId ∧
    transferMsg.userPublicKey = enclave.params.secp.publicKeyToStr (enclave.params.publicKey parties.o1) }

/-- The server and the request that the receiver has made from what it fetched. -/
structure State (E : Type) [AddCommGroup E] where
  world : World E
  pending : Option TransferReceiverRequestPayload

/-- The receiver fetches and validates, posts, or gives up; any other request to the server is
one of the others'. -/
inductive Event
  | fetch (transferMsg : OwnerMsg enclave parties) (choices : ℕ → Choice n)
  | post (choices : ℕ → Choice n)
  | drop
  | other (event : System.Event n E)
      (h : ∀ payload choices, event = .request (.receiver payload) choices →
        payload.statechainId ≠ parties.statechainId)

def requestOf (transferMsg : TransferMsg) (answer : Option Answer) : Option TransferReceiverRequestPayload :=
  match answer with
  | some ⟨_, .statechainInfo info⟩ =>
    match createTransferReceiverRequestPayload enclave.params.secp info transferMsg parties.coin with
    | .ok payload => some payload
    | .error _ => none
  | _ => none

def step (s : State E) : Event enclave parties → State E
  | .fetch transferMsg choices =>
    let (answer, w) := exec (Database.handle enclave) (statechainInfo enclave.params.secp parties.statechainId) choices
      s.world
    ⟨w, requestOf enclave parties transferMsg.1 answer⟩
  | .post choices =>
    match s.pending with
    | some payload =>
      { s with
        world := (exec (Database.handle enclave) (transferReceiver enclave.params.secp batchTimeout payload) choices
          s.world).2 }
    | none => s
  | .drop => { s with pending := none }
  | .other event _ => { s with world := System.step enclave batchTimeout s.world event }

def init (w : World E) : State E := ⟨w, none⟩

/-- The server's share of the coin, in the lockbox that the database names. -/
def shareOf (w : World E) : Option (ZMod n) := do
  let data ← w.db.data.get parties.statechainId
  let table ← w.enclaves[data.enclaveIndex]?
  storedShare enclave table parties.statechainId

/-- A request of the receiver that changes the lockbox gives the owner's share over to the
receiver: the sum of the shares stays, and with it the coin's key. -/
def HandsOver (s : State E) : Event enclave parties → Prop
  | .post choices =>
    (step enclave batchTimeout parties s (.post choices)).world.enclaves ≠ s.world.enclaves →
      ∃ share share', shareOf enclave parties s.world = some share ∧
        shareOf enclave parties (step enclave batchTimeout parties s (.post choices)).world = some share' ∧
        share' = share + parties.o1 - parties.o2 ∧
        parties.o2 • enclave.params.G + share' • enclave.params.G =
          (parties.o1 : ZMod n) • enclave.params.G + share • enclave.params.G
  | _ => True

/-- The owner does not send the coin again while the receiver has a request to post. -/
def SentOnce (s : State E) : Event enclave parties → Prop
  | .other (.request (.sender payload) _) _ =>
    s.pending.isSome → payload.statechainId = parties.statechainId →
      ¬SignedByOwner enclave.params.secp s.world.db payload.authSig payload.statechainId
  | _ => True

/-- The request has the `t2` that goes with the `x1` of the row. -/
def Matches (w : World E) (payload : TransferReceiverRequestPayload) : Prop :=
  payload.statechainId = parties.statechainId ∧
  ∃ row ∈ w.db.transfers.rows, row.statechainId = parties.statechainId ∧
    ∃ x1, enclave.params.setB32 row.x1 = some x1 ∧
      enclave.params.setB32 (parseHex payload.t2) = some (parties.o1 + x1 - parties.o2)

variable {enclave batchTimeout parties}

/-- The receiver's checks tie the request to the `x1` behind the fetched key. -/
theorem matches_of_request {w : World E} {info : StatechainInfoResponsePayload} {transferMsg : OwnerMsg enclave parties}
    {payload : TransferReceiverRequestPayload} (hinfo : InfoAnswer enclave w parties.statechainId info)
    (h : createTransferReceiverRequestPayload enclave.params.secp info transferMsg.1 parties.coin = .ok payload) :
    Matches enclave parties w payload := by
  obtain ⟨transferMsg, hid, howner⟩ := transferMsg
  simp only [createTransferReceiverRequestPayload, publicKeyFromStr, bind_eq_ok, orErr_eq_ok, throwIf_eq_ok,
    pure_eq_ok] at h
  obtain ⟨text, htext, X1, hX1, O1, hO1, share, hshare, authKey, -, valid, hvalid, _, hv, t2, ht2, rfl⟩ := h
  obtain ⟨row, x1, hrow, hx1, rfl⟩ := hinfo.x1Pub text htext
  obtain ⟨hmem, hrowid⟩ := Table.get_eq_some.mp hrow
  obtain ⟨hbytes, hne⟩ := Option.filter_eq_some_iff.mp hx1
  rw [howner, enclave.params.publicKeyFromStr_toStr, Option.some.injEq] at hO1
  rw [enclave.params.publicKeyFromStr_toStr, Option.some.injEq] at hX1
  rw [parties.holds, Option.some.injEq] at hshare
  rw [Bool.not_eq_false] at hv
  subst hO1 hX1 hshare hv
  have ht1 := t1_of_validateT1pub parties.o1.2 (of_decide_eq_true hne) hvalid
  refine ⟨hid, row, hmem, hrowid, x1, hbytes, ?_⟩
  have htext2 : parseHex (enclave.params.secp.secretHex t2) = enclave.params.getB32 t2 := parseHex_encode _
  rw [htext2, enclave.params.setB32_getB32, t2_of_calculateT2 ht1 ht2]

theorem Matches.of_keeps {w w' : World E} {payload : TransferReceiverRequestPayload}
    (h : Matches enclave parties w payload)
    (hkeeps : ∀ row ∈ w.db.transfers.rows, row.statechainId = parties.statechainId →
      ∃ row' ∈ w'.db.transfers.rows, Keeps row row') : Matches enclave parties w' payload := by
  obtain ⟨hid, row, hrow, hrowid, x1, hx1, ht2⟩ := h
  obtain ⟨row', hrow', hk⟩ := hkeeps row hrow hrowid
  refine ⟨hid, row', hrow', hk.statechainId.trans hrowid, x1, ?_, ht2⟩
  rw [hk.x1]
  exact hx1

variable (enclave parties) in
def Inv (s : State E) : Prop := ∀ payload, s.pending = some payload → Matches enclave parties s.world payload

theorem inv_init (w : World E) : Inv enclave parties (init w) := nofun

theorem requestOf_eq_some {transferMsg : TransferMsg} {answer : Option Answer} {payload : TransferReceiverRequestPayload}
    (h : requestOf enclave parties transferMsg answer = some payload) :
    ∃ code info, answer = some ⟨code, .statechainInfo info⟩ ∧
      createTransferReceiverRequestPayload enclave.params.secp info transferMsg parties.coin = .ok payload := by
  unfold requestOf at h
  split at h
  · next code info =>
    split at h
    · next payload' hok =>
      rw [Option.some.inj h] at hok
      exact ⟨code, info, rfl, hok⟩
    · cases h
  · cases h

theorem inv_fetch {s : State E} (transferMsg : OwnerMsg enclave parties) (choices : ℕ → Choice n) :
    Inv enclave parties (step enclave batchTimeout parties s (.fetch transferMsg choices)) := by
  intro payload hpending
  have heffect : InfoEffect enclave s.world parties.statechainId _ _ :=
    exec_of_wp (statechainInfo_effect parties.statechainId) choices
  obtain ⟨code, info, hanswer, hrequest⟩ := requestOf_eq_some hpending
  have hmatches := matches_of_request (heffect.2 code info hanswer) hrequest
  rw [← heffect.1] at hmatches
  exact hmatches

theorem inv_post {s : State E} (choices : ℕ → Choice n) (h : Inv enclave parties s) :
    Inv enclave parties (step enclave batchTimeout parties s (.post choices)) := by
  intro payload hpending
  cases hp : s.pending with
  | none =>
    simp only [step, hp] at hpending
    cases hpending
  | some posted =>
    simp only [step, hp] at hpending ⊢
    cases hpending
    have hchange : Change enclave batchTimeout s.world (.request (.receiver payload) choices) _ :=
      change_receiver (exec_of_wp (transferReceiver_effect payload) choices)
    refine (h payload hp).of_keeps (fun row hrow _ => hchange.row_kept hrow (fun _ _ hevent => ?_))
    cases hevent

theorem inv_other {s : State E} {event : System.Event n E} {hother} (h : Inv enclave parties s)
    (hguard : SentOnce enclave parties s (.other event hother)) :
    Inv enclave parties (step enclave batchTimeout parties s (.other event hother)) := by
  intro payload hpending
  refine (h payload hpending).of_keeps (fun row hrow hrowid => ?_)
  refine (step_change enclave batchTimeout s.world event).row_kept hrow (fun sent choices hevent hsigned hid => ?_)
  subst hevent
  refine hguard ?_ (hid.symm.trans hrowid) hsigned
  exact Option.isSome_iff_exists.mpr ⟨payload, hpending⟩

theorem inv_step (s : State E) (event : Event enclave parties) (h : Inv enclave parties s)
    (hguard : SentOnce enclave parties s event) : Inv enclave parties (step enclave batchTimeout parties s event) := by
  cases event with
  | drop => exact nofun
  | fetch transferMsg choices => exact inv_fetch transferMsg choices
  | post choices => exact inv_post choices h
  | other event hother => exact inv_other h hguard

omit [Module (ZMod n) E] in
theorem enclaveIndex_kept {db db' : Db (Point E)} {id : String} {data : StatechainData (Point E)}
    (hdata : db.data.get id = some data)
    (h : db' = db ∨ ∃ authKey serverPubkey, db.updateStatechain id authKey serverPubkey = some db') :
    ∃ data', db'.data.get id = some data' ∧ data'.enclaveIndex = data.enclaveIndex := by
  rcases h with rfl | ⟨authKey, serverPubkey, h⟩
  · exact ⟨data, hdata, rfl⟩
  · rw [Db.updateStatechain_data h, Table.get_modify_self, hdata]
    exact ⟨_, rfl, rfl⟩

theorem share_of_matches {w w' : World E} {payload : TransferReceiverRequestPayload}
    (h : Matches enclave parties w payload) (heffect : ReceiverEffect enclave batchTimeout w payload w')
    (hchanged : w'.enclaves ≠ w.enclaves) :
    ∃ share, shareOf enclave parties w = some share ∧
      shareOf enclave parties w' = some (share + parties.o1 - parties.o2) := by
  obtain ⟨hid, row, hrow, hrowid, x1, hx1, ht2⟩ := h
  cases heffect with
  | same hsame => exact absurd (by rw [hsame]) hchanged
  | updated row' data table draw hbatch hget hfirst hsigned hdata htable henclaves hnow hdb =>
    obtain ⟨hmem, hrowid'⟩ := Table.get_eq_some.mp hget
    have hsame : row' = row := w.db.transfers.key_injective hmem hrow (by rw [hrowid', hid, hrowid])
    subst hsame
    cases handle_keyupdate_effect enclave draw table payload.statechainId payload.t2 (Hex.encode row'.x1) with
    | refused htable' hanswer =>
      rw [keyUpdateResult, htable', set_of_getElem? htable] at henclaves
      exact absurd henclaves hchanged
    | moved share t2' x1' hwrites hnew hkey hanswer =>
      have hshare := hwrites.stored
      have ht2' := hwrites.t2_value
      have hx1' := hwrites.x1_value
      rw [parseHex_encode, hx1, Option.some.injEq] at hx1'
      rw [ht2, Option.some.injEq] at ht2'
      subst hx1' ht2'
      obtain ⟨hlt, -⟩ := List.getElem?_eq_some_iff.mp htable
      obtain ⟨data', hdata', hindex⟩ := enclaveIndex_kept hdata
        (hdb.imp_right (by
          rintro ⟨_, serverPubkey, _, _, h⟩
          exact ⟨_, serverPubkey, h⟩))
      have hsum : share + (parties.o1 + x1 - parties.o2) - x1 = share + parties.o1 - parties.o2 := by ring
      rw [hid] at hdata hdata' hshare hnew
      refine ⟨share, ?_, ?_⟩
      · simp only [shareOf, hdata, Option.bind_eq_bind, Option.bind_some, htable, hshare]
      · simp only [shareOf, hdata', Option.bind_eq_bind, Option.bind_some, hindex, henclaves,
          List.getElem?_set_self hlt]
        rw [keyUpdateResult, hid, hnew, hsum]

theorem handsOver_of_inv {s : State E} (h : Inv enclave parties s) (event : Event enclave parties) :
    HandsOver enclave batchTimeout parties s event := by
  cases event with
  | drop => trivial
  | fetch transferMsg choices => trivial
  | other event hother => trivial
  | post choices =>
    intro hchanged
    cases hp : s.pending with
    | none =>
      simp only [step, hp] at hchanged
      exact absurd rfl hchanged
    | some payload =>
      simp only [step, hp] at hchanged ⊢
      have heffect : ReceiverEffect enclave batchTimeout s.world payload _ :=
        exec_of_wp (transferReceiver_effect payload) choices
      obtain ⟨share, hshare, hshare'⟩ := share_of_matches (h payload hp) heffect hchanged
      refine ⟨share, _, hshare, hshare', rfl, ?_⟩
      rw [← add_smul, ← add_smul, add_sub_cancel, add_comm share]

section Seven

/-- The owner with the share 1 and the receiver with the share 4. -/
def sevenParties : Parties sevenKeyring.params where
  statechainId := "coin"
  o1 := ⟨1, one_ne_zero_seven⟩
  coin := { sevenCoin with userPrivkey := seven.wif.encode 4, authPrivkey := seven.wif.encode 3 }
  o2 := 4
  holds := rfl

def sevenMsg : OwnerMsg sevenKeyring sevenParties :=
  ⟨{ statechainId := "coin", transferSignature := "", backupTransactions := [], t1 := b32 2
     userPublicKey := seven.secp.publicKeyToStr (seven.publicKey 1) }, rfl, rfl⟩

def depositCoin : Event sevenKeyring sevenParties := .other System.depositCoin nofun

def sendCoin (x1 : { k : ZMod 7 // k ≠ 0 }) : Event sevenKeyring sevenParties :=
  .other (.request (.sender ⟨"coin", sevenSignature 2, seven.secp.publicKeyToStr (seven.publicKey 3), none⟩)
    (fun _ => calm x1)) nofun

def fetchInfo : Event sevenKeyring sevenParties := .fetch sevenMsg (fun _ => steady)

def postRequest : Event sevenKeyring sevenParties := .post (fun _ => steady)

/-- Whatever the owner and the receiver do: if the owner does not send the coin again between the
receiver's two requests, every update of the key hands the owner's share over. -/
theorem share_handed_over_of_sentOnce {w : World E} {events later : List (Event enclave parties)}
    {event : Event enclave parties}
    (h : Guarded (step enclave batchTimeout parties) (SentOnce enclave parties) (init w) (events ++ event :: later)) :
    HandsOver enclave batchTimeout parties (run (step enclave batchTimeout parties) (init w) events) event :=
  handsOver_of_inv (invariant_reached inv_step (inv_init w) h) event

theorem share_handed_over_of_sentOnce_seven :
    Guarded (step sevenKeyring 10 sevenParties) (SentOnce sevenKeyring sevenParties) (init (System.init 1))
      ([depositCoin, sendCoin ⟨1, by decide⟩, fetchInfo] ++ [postRequest]) ∧
    HandsOver sevenKeyring 10 sevenParties
      (run (step sevenKeyring 10 sevenParties) (init (System.init 1))
        [depositCoin, sendCoin ⟨1, by decide⟩, fetchInfo]) postRequest := by
  have h : Guarded (step sevenKeyring 10 sevenParties) (SentOnce sevenKeyring sevenParties) (init (System.init 1))
      ([depositCoin, sendCoin ⟨1, by decide⟩, fetchInfo] ++ [postRequest]) :=
    ⟨trivial, fun h => absurd h Bool.false_ne_true, trivial, trivial, trivial⟩
  exact ⟨h, share_handed_over_of_sentOnce h⟩

/-- The owner sends the coin again to the same receiver, and the lockbox takes out the new `x1`
while the request has the old one in it. -/
theorem sent_again_breaks_handover :
    ¬HandsOver sevenKeyring 10 sevenParties
      (run (step sevenKeyring 10 sevenParties) (init (System.init 1))
        [depositCoin, sendCoin ⟨1, by decide⟩, fetchInfo, sendCoin ⟨2, by decide⟩]) postRequest := by
  have hshares : (run (step sevenKeyring 10 sevenParties) (init (System.init 1))
        [depositCoin, sendCoin ⟨1, by decide⟩, fetchInfo, sendCoin ⟨2, by decide⟩, postRequest]).world.enclaves ≠
        (run (step sevenKeyring 10 sevenParties) (init (System.init 1))
          [depositCoin, sendCoin ⟨1, by decide⟩, fetchInfo, sendCoin ⟨2, by decide⟩]).world.enclaves ∧
      shareOf sevenKeyring sevenParties (run (step sevenKeyring 10 sevenParties) (init (System.init 1))
        [depositCoin, sendCoin ⟨1, by decide⟩, fetchInfo, sendCoin ⟨2, by decide⟩]).world = some 1 ∧
      shareOf sevenKeyring sevenParties (run (step sevenKeyring 10 sevenParties) (init (System.init 1))
        [depositCoin, sendCoin ⟨1, by decide⟩, fetchInfo, sendCoin ⟨2, by decide⟩, postRequest]).world = some 4 := by
    decide +kernel
  obtain ⟨hchanged, hbefore, hafter⟩ := hshares
  intro h
  obtain ⟨share, share', hshare, hshare', hsum, -⟩ := h hchanged
  rw [Option.some.inj (hshare.symm.trans hbefore), Option.some.inj (hshare'.symm.trans hafter)] at hsum
  exact absurd hsum (by decide)

end Seven

end MercuryLayer.Server.X1Binding
