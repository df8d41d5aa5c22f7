import MercuryLayer.Server.Batch

namespace MercuryLayer.Server.Freeze

open Crates Library.Programs Library.Runs Library.Tables Library.XOnlyCurve Lockbox.Enclave Musig.Session Receiver
open Sender Server.Batch Server.Database Server.Effects Server.System Server.Transfer Server.Unlock

variable {n : ℕ} {E : Type} [AddCommGroup E] [Module (ZMod n) E] [DecidableEq E]
variable (enclave : Keyring n E) (batchTimeout : ℕ)

/-- What the receiver verified before unlocking the coin. -/
structure SameTransfer (row row' : StatechainTransfer (Point E)) : Prop where
  newUserAuthPublicKey : row'.newUserAuthPublicKey = row.newUserAuthPublicKey
  x1 : row'.x1 = row.x1
  encryptedTransferMsg : row'.encryptedTransferMsg = row.encryptedTransferMsg

omit [DecidableEq E] in
theorem SameTransfer.trans {row row' row'' : StatechainTransfer (Point E)} (h : SameTransfer row row')
    (h' : SameTransfer row' row'') : SameTransfer row row'' where
  newUserAuthPublicKey := h'.newUserAuthPublicKey.trans h.newUserAuthPublicKey
  x1 := h'.x1.trans h.x1
  encryptedTransferMsg := h'.encryptedTransferMsg.trans h.encryptedTransferMsg

/-- The receiver has unlocked the coin of a batch that has not expired, and the key has not
been updated. -/
def Unlocked (now : ℕ) (row : StatechainTransfer (Point E)) : Prop :=
  row.batchId.isSome ∧ row.locked = false ∧ row.keyUpdated = false ∧
    ∃ batchTime ∈ row.batchTime, ¬batchTime + seconds batchTimeout < now

instance (now : ℕ) (row : StatechainTransfer (Point E)) : Decidable (Unlocked batchTimeout now row) :=
  inferInstanceAs (Decidable (_ ∧ _ ∧ _ ∧ ∃ batchTime ∈ row.batchTime, _))

def Waits (id : String) (w : World E) : Prop := ∃ row ∈ w.db.transfers.get id, Unlocked batchTimeout w.now row

instance (id : String) (w : World E) : Decidable (Waits batchTimeout id w) :=
  inferInstanceAs (Decidable (∃ row ∈ w.db.transfers.get id, _))

/-- The owner sends the coin again only while another coin of the batch is locked, or to the
same receiver in the same batch, and does not give the receiver another message. -/
def Respected (id : String) (w : World E) : Event n E → Prop
  | .request (.sender payload) _ =>
    payload.statechainId = id → SignedByOwner enclave.params.secp w.db payload.authSig id →
      ∀ row ∈ w.db.transfers.get id,
        (∃ batchId ∈ row.batchId, w.db.isAllCoinsUnlocked batchId = false) ∨
        payload.batchId = row.batchId ∧
          enclave.params.secp.publicKeyFromStr payload.newUserAuthKey = some row.newUserAuthPublicKey
  | .request (.updateMsg payload) _ =>
    payload.statechainId = id → SignedByOwner enclave.params.secp w.db payload.authSig id →
      ∀ row ∈ w.db.transfers.get id,
        enclave.params.secp.publicKeyFromStr payload.newUserAuthKey = some row.newUserAuthPublicKey →
        Hex.decode payload.encTransferMsg = row.encryptedTransferMsg
  | _ => True

instance (id : String) (w : World E) (event : Event n E) : Decidable (Respected enclave id w event) :=
  match event with
  | .request request _ =>
    match request with
    | .sender _ => inferInstanceAs (Decidable (_ → _ → ∀ row ∈ w.db.transfers.get id, _))
    | .updateMsg _ => inferInstanceAs (Decidable (_ → _ → ∀ row ∈ w.db.transfers.get id, _))
    | .deposit _ _ _ | .receiver _ | .paymenthash _ | .unlock _ | .info _ => isTrue trivial
  | .tick _ => isTrue trivial
  | .reorder _ => isTrue trivial

variable {enclave batchTimeout} {w : World E} {id : String} {row : StatechainTransfer (Point E)} {event : Event n E}

/-- The server accepts the coin again only when the whole batch is unlocked and the receiver
or the batch is another one. -/
theorem not_sent_of_respected {payload : TransferSenderRequestPayload} {newUserAuthKey : Point E}
    {choices : ℕ → Choice n} (hrow : w.db.transfers.get id = some row)
    (hunlocked : Unlocked batchTimeout w.now row)
    (hguard : Respected enclave id w (.request (.sender payload) choices))
    (hsigned : SignedByOwner enclave.params.secp w.db payload.authSig payload.statechainId)
    (hkey : enclave.params.secp.publicKeyFromStr payload.newUserAuthKey = some newUserAuthKey)
    (hadmitted : batchTransferResult batchTimeout w payload.statechainId payload.batchId = .success)
    (hfresh : w.db.existsMsg payload.statechainId newUserAuthKey payload.batchId = false) :
    id ≠ payload.statechainId := by
  intro hid
  subst hid
  obtain ⟨hbatched, -, -, batchTime, htime, hlive⟩ := hunlocked
  obtain ⟨batchId, hbatch⟩ := Option.isSome_iff_exists.mp hbatched
  rw [Option.mem_def] at htime
  rcases hguard rfl hsigned row hrow with ⟨batchId', hbatch', hlocked⟩ | ⟨hsame, hrecipient⟩
  · have hlookup : w.db.batchIdAndTimeOf payload.statechainId = some (batchId, batchTime) := by
      rw [Db.batchIdAndTimeOf, hrow]
      simp [hbatch, htime]
    rw [Option.mem_def, hbatch, Option.some.injEq] at hbatch'
    subst hbatch'
    simp only [batchTransferResult, hlookup, if_neg hlive, hlocked, Bool.false_eq_true, if_false] at hadmitted
    cases hadmitted
  · obtain ⟨hmem, hid⟩ := Table.get_eq_some.mp hrow
    rw [hkey, Option.some.injEq] at hrecipient
    rw [hsame, hbatch] at hfresh
    have hall := List.any_eq_false.mp hfresh row hmem
    simp [hrecipient, hid, hbatch] at hall

theorem step_frozen (hrow : w.db.transfers.get id = some row) (hunlocked : Unlocked batchTimeout w.now row)
    (hguard : Respected enclave id w event) :
    ∃ row', (System.step enclave batchTimeout w event).db.transfers.get id = some row' ∧ SameTransfer row row' := by
  obtain ⟨hmem, hid⟩ := Table.get_eq_some.mp hrow
  cases step_change enclave batchTimeout w event with
  | kept g hrows hg hupdated hnow hmsg =>
    refine ⟨g row, Table.get_eq_some.mpr ⟨(hrows _).mpr ⟨row, hmem, rfl⟩, (hg row).statechainId.trans hid⟩, ?_⟩
    refine ⟨(hg row).newUserAuthPublicKey, (hg row).x1, ?_⟩
    rcases hmsg row hmem with hsame | ⟨payload, choices, hevent, hpayload, hsigned, hkey, hdecoded⟩
    · exact hsame
    · subst hevent
      rw [hid] at hpayload
      subst hpayload
      rw [← hdecoded]
      exact hguard rfl hsigned row hrow hkey
  | sent payload choices new hevent hsigned hrows hid' hbatch htimed hnew hnow hkey hadmitted hfresh =>
    subst hevent
    have hother := not_sent_of_respected hrow hunlocked hguard hsigned hkey hadmitted hfresh
    refine ⟨row, ?_, rfl, rfl, rfl⟩
    rw [hrows, Table.get_replace_of_ne (by rwa [hid']), hrow]
  | ticked elapsed hevent hstep =>
    rw [hstep]
    exact ⟨row, hrow, rfl, rfl, rfl⟩

section Seven

def sevenUpdateMsg (id : String) (newUserAuthKey : Point (ZMod 7)) (encTransferMsg : Bytes) : Event 7 (ZMod 7) :=
  .request (.updateMsg ⟨id, sevenSignature 2, seven.secp.publicKeyToStr newUserAuthKey, Hex.encode encTransferMsg⟩)
    (fun _ => steady)

def sevenSendTo (id : String) (newUserAuthKey : Point (ZMod 7)) : Event 7 (ZMod 7) :=
  .request (.sender ⟨id, sevenSignature 2, seven.secp.publicKeyToStr newUserAuthKey, none⟩) (fun _ => steady)

/-- The receiver of two coins has read the message of the first one and unlocked it. -/
def firstUnlocked : List (Event 7 (ZMod 7)) :=
  depositTwo ++ [sevenSend "first" (some "batch"), sevenUpdateMsg "first" (seven.publicKey 3) [1],
    sevenSend "second" (some "batch"), sevenUnlock "first"]

def attempts : List (Event 7 (ZMod 7)) :=
  [sevenSendTo "first" (seven.publicKey 4), sevenUpdateMsg "first" (seven.publicKey 4) [2], .tick 5,
    sevenUnlock "second", sevenReceive "first"]

variable (enclave batchTimeout) in
/-- As long as the receiver waits, and the owner respects the lock, the transfer stays what the
receiver verified. -/
theorem frozen_of_respected {w : World E} {id : String} {row : StatechainTransfer (Point E)}
    {events : List (Event n E)} (hrow : w.db.transfers.get id = some row)
    (hwaits : Guarded (System.step enclave batchTimeout) (fun w _ => Waits batchTimeout id w) w events)
    (hguard : Guarded (System.step enclave batchTimeout) (Respected enclave id) w events) :
    ∃ row', (run (System.step enclave batchTimeout) w events).db.transfers.get id = some row' ∧
      SameTransfer row row' := by
  induction events generalizing w row with
  | nil => exact ⟨row, hrow, rfl, rfl, rfl⟩
  | cons event events ih =>
    obtain ⟨⟨row0, hrow0, hunlocked⟩, hlater⟩ := hwaits
    rw [Option.mem_def, hrow, Option.some.injEq] at hrow0
    subst hrow0
    obtain ⟨row1, hrow1, hsame1⟩ := step_frozen hrow hunlocked hguard.1
    obtain ⟨row2, hrow2, hsame2⟩ := ih hrow1 hlater hguard.2
    exact ⟨row2, hrow2, hsame1.trans hsame2⟩

theorem frozen_of_respected_seven :
    ∃ row, (run (System.step sevenKeyring 10) (init 1) firstUnlocked).db.transfers.get "first" = some row ∧
      ∃ row', (run (System.step sevenKeyring 10) (run (System.step sevenKeyring 10) (init 1) firstUnlocked)
        attempts).db.transfers.get "first" = some row' ∧ SameTransfer row row' := by
  have hrow : ((run (System.step sevenKeyring 10) (init 1) firstUnlocked).db.transfers.get "first").isSome := by
    decide +kernel
  obtain ⟨row, hrow⟩ := Option.isSome_iff_exists.mp hrow
  exact ⟨row, hrow, frozen_of_respected sevenKeyring 10 hrow (by decide +kernel) (by decide +kernel)⟩

/-- Once the whole batch is unlocked the owner may send the coin to another key, and at any time
the owner may replace the message. -/
theorem unlocked_transfer_changed :
    ∃ row, (run (System.step sevenKeyring 10) (init 1) (firstUnlocked ++ [sevenUnlock "second"])).db.transfers.get
        "first" = some row ∧ Unlocked 10 0 row ∧
      (∃ row', (run (System.step sevenKeyring 10) (init 1) (firstUnlocked ++ [sevenUnlock "second",
        sevenSendTo "first" (seven.publicKey 4)])).db.transfers.get "first" = some row' ∧ ¬SameTransfer row row') ∧
      ∃ row', (run (System.step sevenKeyring 10) (init 1) (firstUnlocked ++ [sevenUnlock "second",
        sevenUpdateMsg "first" (seven.publicKey 3) [2]])).db.transfers.get "first" = some row' ∧
          ¬SameTransfer row row' := by
  have hbefore : ∃ row ∈ (run (System.step sevenKeyring 10) (init 1) (firstUnlocked ++
      [sevenUnlock "second"])).db.transfers.get "first", Unlocked 10 0 row ∧
      (∃ row' ∈ (run (System.step sevenKeyring 10) (init 1) (firstUnlocked ++ [sevenUnlock "second",
        sevenSendTo "first" (seven.publicKey 4)])).db.transfers.get "first",
        row'.newUserAuthPublicKey ≠ row.newUserAuthPublicKey) ∧
      ∃ row' ∈ (run (System.step sevenKeyring 10) (init 1) (firstUnlocked ++ [sevenUnlock "second",
        sevenUpdateMsg "first" (seven.publicKey 3) [2]])).db.transfers.get "first",
        row'.encryptedTransferMsg ≠ row.encryptedTransferMsg := by decide +kernel
  obtain ⟨row, hrow, hunlocked, ⟨sent, hsent, hkey⟩, updated, hupdated, hmsg⟩ := hbefore
  exact ⟨row, hrow, hunlocked, ⟨sent, hsent, fun h => hkey h.newUserAuthPublicKey⟩,
    updated, hupdated, fun h => hmsg h.encryptedTransferMsg⟩

end Seven

end MercuryLayer.Server.Freeze
