import MercuryLayer.Server.Batch

namespace MercuryLayer.Server.Latch

open Crates Library.Programs Library.Runs Library.Tables Library.XOnlyCurve Lockbox.Enclave Musig.Session Receiver
open Sender Server.Batch Server.Database Server.Effects Server.System Server.Transfer Server.Unlock

variable {n : ℕ} {E : Type} [AddCommGroup E] [Module (ZMod n) E] [DecidableEq E]
variable (enclave : Keyring n E) (batchTimeout : ℕ)

/-- The server with the coins whose key has been updated, each with its batch. -/
structure State (E : Type) [AddCommGroup E] where
  world : World E
  completed : List (String × String)

def newlyCompleted (w w' : World E) : List (String × String) :=
  w.db.transfers.rows.filterMap (fun row =>
    if !row.keyUpdated && (w'.db.transfers.get row.statechainId).any StatechainTransfer.keyUpdated then
      row.batchId.map (fun batchId => (row.statechainId, batchId))
    else none)

def step (s : State E) (event : Event n E) : State E :=
  let w' := System.step enclave batchTimeout s.world event
  ⟨w', newlyCompleted s.world w' ++ s.completed⟩

def init (enclaves : ℕ) : State E := ⟨System.init enclaves, []⟩

/-- Somebody can get the pre-image. -/
def Releases (w : World E) (payload : TransferPreimageRequestPayload) : Prop :=
  ∃ choices preimage, (exec (Database.handle enclave) (transferPreimage enclave.params.secp payload) choices w).1 =
    some ⟨200, .fields [("preimage", .text preimage)]⟩

/-- The receiver of the coin can complete the transfer in this batch. -/
def Receivable (w : World E) (id batchId : String) : Prop :=
  ∃ row, w.db.transfers.get id = some row ∧ row.batchId = some batchId ∧ row.locked = false ∧
    row.locked2 = false ∧
    ∀ choices result, (exec (Database.handle enclave) (validateBatch batchTimeout id) choices w).1 = some result →
      result = .success

/-- The pre-image is released only when the receiver has the coin or can have it. -/
def Atomic (s : State E) : Prop :=
  ∀ payload, Releases enclave s.world payload →
    (payload.statechainId, payload.batchId) ∈ s.completed ∨
    Receivable enclave batchTimeout s.world payload.statechainId payload.batchId

/-- The latch is open and the receiver does not have the coin. -/
def Pending (s : State E) (latch : LightningLatch) : Prop :=
  latch.locked = false ∧ (latch.statechainId, latch.batchId) ∉ s.completed

instance (s : State E) (latch : LightningLatch) : Decidable (Pending s latch) :=
  inferInstanceAs (Decidable (_ ∧ _))

/-- The lock that the request does not open is open. -/
def OpensLast (w : World E) (payload : TransferUnlockRequestPayload) (row : StatechainTransfer (Point E)) : Prop :=
  (SignedByOwner enclave.params.secp w.db payload.authSig payload.statechainId → row.locked = false) ∧
  (¬SignedByOwner enclave.params.secp w.db payload.authSig payload.statechainId → row.locked2 = false)

instance (w : World E) (payload : TransferUnlockRequestPayload) (row : StatechainTransfer (Point E)) :
    Decidable (OpensLast enclave w payload row) :=
  inferInstanceAs (Decidable (_ ∧ _))

/-- The last lock of a coin with a latch is opened in time, and after the locks of the other
coins. While the latch is open the owner does not send the coin again, no coin is added to the
batch, and the batch does not expire. -/
def Orderly (s : State E) : Event n E → Prop
  | .request (.unlock payload) _ =>
    ∀ row ∈ s.world.db.transfers.rows, row.statechainId = payload.statechainId → row.keyUpdated = false →
      OpensLast enclave s.world payload row →
      (∃ latch ∈ s.world.db.latches.rows, latch.statechainId = row.statechainId ∧
        row.batchId = some latch.batchId) →
      ¬expired batchTimeout s.world.now row ∧
      ∀ row' ∈ s.world.db.transfers.rows, row'.batchId = row.batchId → row'.statechainId ≠ row.statechainId →
        row'.locked = false ∧ row'.locked2 = false
  | .request (.sender payload) _ =>
    SignedByOwner enclave.params.secp s.world.db payload.authSig payload.statechainId →
      ∀ latch ∈ s.world.db.latches.rows, Pending s latch →
        payload.statechainId ≠ latch.statechainId ∧ payload.batchId ≠ some latch.batchId
  | .tick elapsed =>
    ∀ latch ∈ s.world.db.latches.rows, Pending s latch → ∀ row ∈ s.world.db.transfers.rows,
      row.statechainId = latch.statechainId → ¬expired batchTimeout (s.world.now + elapsed) row
  | _ => True

instance (s : State E) (event : Event n E) : Decidable (Orderly enclave batchTimeout s event) :=
  match event with
  | .request request _ =>
    match request with
    | .sender _ => inferInstanceAs (Decidable (_ → _))
    | .unlock _ => inferInstanceAs (Decidable (∀ row ∈ s.world.db.transfers.rows, _))
    | .deposit _ _ _ | .updateMsg _ | .paymenthash _ | .receiver _ | .info _ => isTrue trivial
  | .tick _ => inferInstanceAs (Decidable (∀ latch ∈ s.world.db.latches.rows, _))
  | .reorder _ => isTrue trivial

/-- The coin is unlocked with its whole batch, in time. -/
structure Admitted (batchTimeout : ℕ) (w : World E) (id batchId : String) (row : StatechainTransfer (Point E)) :
    Prop where
  get : w.db.transfers.get id = some row
  inBatch : row.batchId = some batchId
  locked : row.locked = false
  locked2 : row.locked2 = false
  live : ¬expired batchTimeout w.now row
  all : w.db.isAllCoinsUnlocked batchId = true

structure Inv (batchTimeout : ℕ) (s : State E) : Prop where
  timed : ∀ row ∈ s.world.db.transfers.rows, row.batchId.isSome → row.batchTime.isSome
  updated : ∀ row ∈ s.world.db.transfers.rows, row.keyUpdated = true → ∀ batchId, row.batchId = some batchId →
    (row.statechainId, batchId) ∈ s.completed
  released : ∀ latch ∈ s.world.db.latches.rows, Pending s latch →
    ∃ row, Admitted batchTimeout s.world latch.statechainId latch.batchId row

variable {enclave batchTimeout} {w w' : World E} {event : Event n E}

omit [DecidableEq E] in
theorem mem_newlyCompleted {id batchId : String} {row row' : StatechainTransfer (Point E)}
    (hrow : row ∈ w.db.transfers.rows) (hid : row.statechainId = id) (hno : row.keyUpdated = false)
    (hbatch : row.batchId = some batchId) (hget : w'.db.transfers.get id = some row')
    (hyes : row'.keyUpdated = true) : (id, batchId) ∈ newlyCompleted w w' := by
  refine List.mem_filterMap.mpr ⟨row, hrow, ?_⟩
  rw [if_pos, hbatch, hid, Option.map_some]
  rw [hid, hget, hno, Option.any_some, hyes]
  rfl

omit [DecidableEq E] in
theorem isAllCoinsUnlocked_iff {batchId : String} :
    w.db.isAllCoinsUnlocked batchId = true ↔ ∀ row ∈ w.db.transfers.rows, row.batchId = some batchId →
      row.locked = false ∧ row.locked2 = false := by
  constructor
  · intro h row hrow hbatch
    exact unlocked_of_isAllCoinsUnlocked h hrow hbatch
  · intro h
    apply List.all_eq_true.mpr
    intro row hrow
    by_cases hbatch : row.batchId = some batchId
    · obtain ⟨h1, h2⟩ := h row hrow hbatch
      simp [h1, h2]
    · simp [hbatch]

/-- How a latch came to be open: it was, or the request opened the last lock of its coin. -/
inductive Origin (enclave : Keyring n E) (w : World E) (event : Event n E) (w' : World E) (latch' : LightningLatch) :
    Prop
  | before (latch : LightningLatch) (h : latch ∈ w.db.latches.rows)
      (hid : latch.statechainId = latch'.statechainId) (hbatch : latch.batchId = latch'.batchId)
      (hopen : latch.locked = false)
  | opened (payload : TransferUnlockRequestPayload) (choices : ℕ → Choice n) (latch : LightningLatch)
      (row row' : StatechainTransfer (Point E)) (hevent : event = .request (.unlock payload) choices)
      (h : latch ∈ w.db.latches.rows) (hid : latch.statechainId = latch'.statechainId)
      (hbatch : latch.batchId = latch'.batchId) (hpayload : latch'.statechainId = payload.statechainId)
      (hrow : w.db.transfers.get payload.statechainId = some row) (hrowBatch : row.batchId = some latch'.batchId)
      (hlast : OpensLast enclave w payload row)
      (hrow' : w'.db.transfers.get payload.statechainId = some row') (hkeeps : Keeps row row')
      (hlocked : row'.locked = false) (hlocked2 : row'.locked2 = false)

theorem origin_of_unlock {payload : TransferUnlockRequestPayload} {choices : ℕ → Choice n} {latch' : LightningLatch}
    (h : Outcome enclave.params.secp payload w w') (hlatch : latch' ∈ w'.db.latches.rows)
    (hopen : latch'.locked = false) : Origin enclave w (.request (.unlock payload) choices) w' latch' := by
  cases h with
  | same h =>
    rw [h] at hlatch
    exact .before latch' hlatch rfl rfl hopen
  | opened data signature owner hdata hsignature howner hpasses hnow hdb =>
    have htransfers := transfers_of_unlocked hdb
    have hkept : latch' ∈ w.db.latches.rows → Origin enclave w (.request (.unlock payload) choices) w' latch' :=
      fun h => .before latch' h rfl rfl hopen
    cases hrow : w.db.transfers.get payload.statechainId with
    | none =>
      have hget := get_unlockTransfer htransfers
      rw [hrow, Option.map_none, htransfers] at hget
      obtain hdb | hdb := hdb
      · rw [hdb] at hlatch
        exact hkept hlatch
      · rw [hdb, unlocked, hget] at hlatch
        exact hkept hlatch
    | some row =>
      obtain hdb | hdb := hdb
      · rw [hdb] at hlatch
        exact hkept hlatch
      · rw [hdb, unlocked_latches hrow] at hlatch
        cases hbatch : row.batchId with
        | none =>
          rw [hbatch] at hlatch
          exact hkept hlatch
        | some batchId =>
          rw [hbatch] at hlatch
          simp only at hlatch
          split_ifs at hlatch with hlocks
          · rw [Db.unlockLatch, Table.mem_modify] at hlatch
            obtain ⟨latch, hmem, hlatch'⟩ := hlatch
            split_ifs at hlatch' with hkey
            · rw [Prod.mk.injEq] at hkey
              have hsame : latch'.statechainId = payload.statechainId ∧ latch'.batchId = batchId := by
                rw [hlatch']
                exact hkey
              have hget := get_unlockTransfer htransfers
              rw [hrow, Option.map_some] at hget
              rw [Bool.and_eq_true, Bool.not_eq_true', Bool.not_eq_true'] at hlocks
              have hlast : OpensLast enclave w payload row := by
                have hiff : SignedByOwner enclave.params.secp w.db payload.authSig payload.statechainId ↔
                    owner = true := by
                  constructor
                  · rintro ⟨data', hdata', signature', hsignature', hv⟩
                    rw [hdata, Option.some.injEq] at hdata'
                    rw [hsignature, Option.some.injEq] at hsignature'
                    rw [← howner, hdata', hsignature', hv]
                  · intro howned
                    exact ⟨data, hdata, signature, hsignature, howner.trans howned⟩
                cases owner with
                | true => exact ⟨fun _ => hlocks.1, fun h => absurd (hiff.mpr rfl) h⟩
                | false => exact ⟨fun h => absurd (hiff.mp h) Bool.false_ne_true, fun _ => hlocks.2⟩
              refine .opened payload choices latch row _ rfl hmem (hkey.1.trans hsame.1.symm)
                (hkey.2.trans hsame.2.symm) hsame.1 hrow (by rw [hbatch, hsame.2]) hlast hget
                (keeps_setUnlocked w.now owner row) hlocks.1 hlocks.2
            · rw [hlatch'] at hopen ⊢
              exact .before latch hmem rfl rfl hopen
          · exact hkept hlatch

theorem origin_of_kept {latch' : LightningLatch} (h : TransfersKept w w') (hlatch : latch' ∈ w'.db.latches.rows)
    (hopen : latch'.locked = false) : Origin enclave w event w' latch' := by
  obtain hold | hlocked := h.latches latch' hlatch
  · exact .before latch' hold rfl rfl hopen
  · rw [hopen] at hlocked
    cases hlocked

theorem latch_origin {latch' : LightningLatch}
    (hlatch : latch' ∈ (System.step enclave batchTimeout w event).db.latches.rows) (hopen : latch'.locked = false) :
    Origin enclave w event (System.step enclave batchTimeout w event) latch' := by
  have hsame : (System.step enclave batchTimeout w event).db.latches = w.db.latches →
      Origin enclave w event (System.step enclave batchTimeout w event) latch' := by
    intro h
    rw [h] at hlatch
    exact .before latch' hlatch rfl rfl hopen
  cases event with
  | tick elapsed => exact hsame rfl
  | reorder rows =>
    apply hsame
    simp only [System.step, reorder]
    split_ifs <;> rfl
  | request request choices =>
    cases request with
    | deposit authKey id index => exact origin_of_kept (exec_of_wp (initDeposit_effect authKey id index) choices) hlatch hopen
    | paymenthash payload => exact origin_of_kept (exec_of_wp (postPaymenthash_effect payload) choices) hlatch hopen
    | unlock payload => exact origin_of_unlock (exec_of_wp (transferUnlock_outcome payload w) choices) hlatch hopen
    | info id =>
      have hkept : InfoEffect enclave w id _ _ := exec_of_wp (statechainInfo_effect id) choices
      apply hsame
      rw [System.step, endpoint, hkept.1]
    | sender payload =>
      apply hsame
      have heffect : SenderEffect enclave batchTimeout w payload _ :=
        exec_of_wp (transferSender_effect payload) choices
      cases heffect with
      | same h => rw [System.step, endpoint, h]
      | sent newUserAuthKey x1 batch hsigned hkey hbatch hadmitted hfresh h =>
        rw [System.step, endpoint, h]
        rfl
    | updateMsg payload =>
      apply hsame
      have heffect : UpdateMsgEffect enclave w payload _ := exec_of_wp (transferUpdateMsg_effect payload) choices
      cases heffect with
      | same h => rw [System.step, endpoint, h]
      | updated newUserAuthKey encTransferMsg hsigned hkey hmsg h =>
        rw [System.step, endpoint, h]
        rfl
    | receiver payload =>
      apply hsame
      have heffect : ReceiverEffect enclave batchTimeout w payload _ :=
        exec_of_wp (transferReceiver_effect payload) choices
      cases heffect with
      | same h => rw [System.step, endpoint, h]
      | updated row data table draw hbatch hrow hfirst hsigned hdata htable henclaves hnow hdb =>
        obtain hdb | ⟨body, serverPubkey, -, -, hdb⟩ := hdb
        · rw [System.step, endpoint, hdb]
        · exact Db.updateStatechain_latches hdb

theorem Admitted.kept {id batchId : String} {row : StatechainTransfer (Point E)}
    (h : Admitted batchTimeout w id batchId row) (hchange : Change enclave batchTimeout w event w')
    (hsent : ∀ payload choices, event = .request (.sender payload) choices →
      SignedByOwner enclave.params.secp w.db payload.authSig payload.statechainId →
      payload.statechainId ≠ id ∧ payload.batchId ≠ some batchId)
    (htick : ∀ elapsed, event = .tick elapsed → ¬expired batchTimeout (w.now + elapsed) row) :
    ∃ row', Admitted batchTimeout w' id batchId row' := by
  obtain ⟨hrow, hid⟩ := Table.get_eq_some.mp h.get
  have hall := isAllCoinsUnlocked_iff.mp h.all
  cases hchange with
  | kept g hrows hg hupdated hnow =>
    refine ⟨g row, ⟨?_, ?_, ?_, ?_, ?_, ?_⟩⟩
    · exact Table.get_eq_some.mpr ⟨(hrows _).mpr ⟨row, hrow, rfl⟩, (hg row).statechainId.trans hid⟩
    · exact (hg row).batchId.trans h.inBatch
    · exact (hg row).locked h.locked
    · exact (hg row).locked2 h.locked2
    · rw [hnow]
      exact not_expired_of_keeps (hg row) h.live
    · apply isAllCoinsUnlocked_iff.mpr
      intro row' hrow' hbatch
      obtain ⟨row0, hrow0, rfl⟩ := (hrows row').mp hrow'
      obtain ⟨h1, h2⟩ := hall row0 hrow0 ((hg row0).batchId.symm.trans hbatch)
      exact ⟨(hg row0).locked h1, (hg row0).locked2 h2⟩
  | sent payload choices new hevent hsigned hrows hid' hbatch htimed hnew hnow =>
    obtain ⟨hother, hforeign⟩ := hsent payload choices hevent hsigned
    refine ⟨row, ⟨?_, h.inBatch, h.locked, h.locked2, ?_, ?_⟩⟩
    · rw [hrows, Table.get_replace_of_ne (by rw [hid']; exact hother.symm), h.get]
    · rw [hnow]
      exact h.live
    · apply isAllCoinsUnlocked_iff.mpr
      intro row' hrow' hbatch'
      rw [hrows] at hrow'
      obtain ⟨hold, -⟩ | rfl := Table.mem_replace.mp hrow'
      · exact hall row' hold hbatch'
      · exact absurd (hbatch.symm.trans hbatch') hforeign
  | ticked elapsed hevent hstep =>
    rw [hstep]
    exact ⟨row, ⟨h.get, h.inBatch, h.locked, h.locked2, htick elapsed hevent, h.all⟩⟩

theorem timed_step {s : State E} (hinv : Inv batchTimeout s) {row' : StatechainTransfer (Point E)}
    (hrow' : row' ∈ (step enclave batchTimeout s event).world.db.transfers.rows) (hbatch : row'.batchId.isSome) :
    row'.batchTime.isSome := by
  cases step_change enclave batchTimeout s.world event with
  | kept g hrows hg hupdated hnow =>
    obtain ⟨row, hrow, rfl⟩ := (hrows row').mp hrow'
    rw [(hg row).batchTime]
    rw [(hg row).batchId] at hbatch
    exact hinv.timed row hrow hbatch
  | sent payload choices new hevent hsigned hrows hid hbatch' htimed hnew hnow =>
    rw [step, hrows] at hrow'
    obtain ⟨hold, -⟩ | rfl := Table.mem_replace.mp hrow'
    · exact hinv.timed row' hold hbatch
    · exact htimed hbatch
  | ticked elapsed hevent hstep =>
    rw [step, hstep] at hrow'
    exact hinv.timed row' hrow' hbatch

theorem updated_step {s : State E} (hinv : Inv batchTimeout s) {row' : StatechainTransfer (Point E)}
    (hrow' : row' ∈ (step enclave batchTimeout s event).world.db.transfers.rows) (hyes : row'.keyUpdated = true)
    {batchId : String} (hbatch : row'.batchId = some batchId) :
    (row'.statechainId, batchId) ∈ (step enclave batchTimeout s event).completed := by
  have hold : ∀ row ∈ s.world.db.transfers.rows, Keeps row row' → row.keyUpdated = true →
      (row'.statechainId, batchId) ∈ (step enclave batchTimeout s event).completed := by
    intro row hrow hkeeps hdone
    rw [hkeeps.statechainId]
    exact List.mem_append_right _ (hinv.updated row hrow hdone batchId (hkeeps.batchId.symm.trans hbatch))
  cases step_change enclave batchTimeout s.world event with
  | kept g hrows hg hupdated hnow =>
    obtain ⟨row, hrow, rfl⟩ := (hrows row').mp hrow'
    cases hflag : row.keyUpdated with
    | true => exact hold row hrow (hg row) hflag
    | false =>
      refine List.mem_append_left _ (mem_newlyCompleted hrow (hg row).statechainId.symm hflag
        ((hg row).batchId.symm.trans hbatch) (Table.get_eq_some.mpr ⟨hrow', rfl⟩) hyes)
  | sent payload choices new hevent hsigned hrows hid hbatch' htimed hnew hnow =>
    rw [step, hrows] at hrow'
    obtain ⟨hmem, -⟩ | rfl := Table.mem_replace.mp hrow'
    · exact hold row' hmem (Keeps.refl row') hyes
    · rw [hnew] at hyes
      cases hyes
  | ticked elapsed hevent hstep =>
    rw [step, hstep] at hrow'
    exact hold row' hrow' (Keeps.refl row') hyes

/-- A latch that the request has just opened belongs to a coin that its receiver can have. -/
theorem admitted_of_opened {s : State E} {payload : TransferUnlockRequestPayload} {choices : ℕ → Choice n}
    {batchId : String} {row row' : StatechainTransfer (Point E)}
    (hrow : s.world.db.transfers.get payload.statechainId = some row) (hbatch : row.batchId = some batchId)
    (hchange : Change enclave batchTimeout s.world (.request (.unlock payload) choices) w')
    (hrow' : w'.db.transfers.get payload.statechainId = some row') (hkeeps : Keeps row row')
    (hlocked : row'.locked = false) (hlocked2 : row'.locked2 = false)
    (hlive : ¬expired batchTimeout s.world.now row)
    (hothers : ∀ row' ∈ s.world.db.transfers.rows, row'.batchId = row.batchId → row'.statechainId ≠ row.statechainId →
      row'.locked = false ∧ row'.locked2 = false) :
    Admitted batchTimeout w' payload.statechainId batchId row' := by
  obtain ⟨hmem, hid⟩ := Table.get_eq_some.mp hrow
  obtain ⟨hmem', hid'⟩ := Table.get_eq_some.mp hrow'
  cases hchange with
  | kept g hrows hg hupdated hnow =>
    refine ⟨hrow', hkeeps.batchId.trans hbatch, hlocked, hlocked2, ?_, ?_⟩
    · rw [hnow]
      exact not_expired_of_keeps hkeeps hlive
    · apply isAllCoinsUnlocked_iff.mpr
      intro other' hother' hsame
      obtain ⟨other, hother, rfl⟩ := (hrows other').mp hother'
      by_cases hcoin : other.statechainId = row.statechainId
      · have heq : g other = row' := by
          apply w'.db.transfers.key_injective hother' hmem'
          rw [(hg other).statechainId, hcoin, hid, hid']
        rw [heq]
        exact ⟨hlocked, hlocked2⟩
      · obtain ⟨h1, h2⟩ := hothers other hother (((hg other).batchId.symm.trans hsame).trans hbatch.symm) hcoin
        exact ⟨(hg other).locked h1, (hg other).locked2 h2⟩
  | sent payload choices new hevent => cases hevent
  | ticked elapsed hevent => cases hevent

theorem released_step {s : State E} (hinv : Inv batchTimeout s) (hguard : Orderly enclave batchTimeout s event)
    {latch' : LightningLatch} (hlatch : latch' ∈ (step enclave batchTimeout s event).world.db.latches.rows)
    (hpending : Pending (step enclave batchTimeout s event) latch') :
    ∃ row, Admitted batchTimeout (step enclave batchTimeout s event).world latch'.statechainId latch'.batchId row := by
  obtain ⟨hopen, hcompleted⟩ := hpending
  have hbefore : (latch'.statechainId, latch'.batchId) ∉ s.completed :=
    fun h => hcompleted (List.mem_append_right _ h)
  have hchange := step_change enclave batchTimeout s.world event
  cases latch_origin hlatch hopen with
  | before latch hmem hid hbatch hopen' =>
    rw [← hid, ← hbatch] at hbefore ⊢
    obtain ⟨row, hrow⟩ := hinv.released latch hmem ⟨hopen', hbefore⟩
    refine hrow.kept hchange (fun payload choices hevent hsigned => ?_) (fun elapsed hevent => ?_)
    · subst hevent
      exact hguard hsigned latch hmem ⟨hopen', hbefore⟩
    · subst hevent
      obtain ⟨hin, hname⟩ := Table.get_eq_some.mp hrow.get
      exact hguard latch hmem ⟨hopen', hbefore⟩ row hin hname
  | opened payload choices latch row row' hevent hmem hid hbatch hpayload hrow hrowBatch hlast hrow' hkeeps hlocked
      hlocked2 =>
    subst hevent
    obtain ⟨hin, hname⟩ := Table.get_eq_some.mp hrow
    have hwaits : row.keyUpdated = false := by
      by_contra hupdated
      rw [hpayload, ← hname] at hbefore
      exact hbefore (hinv.updated row hin (by simpa using hupdated) latch'.batchId hrowBatch)
    obtain ⟨hlive, hothers⟩ := hguard row hin hname hwaits hlast
      ⟨latch, hmem, hid.trans (hpayload.trans hname.symm), by rw [hrowBatch, hbatch]⟩
    rw [hpayload]
    exact ⟨row', admitted_of_opened hrow hrowBatch hchange hrow' hkeeps hlocked hlocked2 hlive hothers⟩

theorem inv_step (s : State E) (event : Event n E) (hinv : Inv batchTimeout s)
    (hguard : Orderly enclave batchTimeout s event) : Inv batchTimeout (step enclave batchTimeout s event) where
  timed _ hrow hbatch := timed_step hinv hrow hbatch
  updated _ hrow hyes _ hbatch := updated_step hinv hrow hyes hbatch
  released _ hlatch hpending := released_step hinv hguard hlatch hpending

omit [DecidableEq E] in
theorem inv_init (enclaves : ℕ) : Inv batchTimeout (init enclaves : State E) where
  timed _ hrow := by cases hrow
  updated _ hrow := by cases hrow
  released _ hlatch := by cases hlatch

theorem open_of_releases {payload : TransferPreimageRequestPayload} (h : Releases enclave w payload) :
    ∃ latch ∈ w.db.latches.rows, latch.statechainId = payload.statechainId ∧ latch.batchId = payload.batchId ∧
      latch.locked = false := by
  obtain ⟨choices, preimage, h⟩ := h
  have hspec : wp (Database.handle enclave) (fun r _ =>
      ∀ preimage, r = some ⟨200, .fields [("preimage", .text preimage)]⟩ →
        ∃ latch ∈ w.db.latches.rows, latch.statechainId = payload.statechainId ∧ latch.batchId = payload.batchId ∧
          latch.locked = false) (transferPreimage enclave.params.secp payload) w := by
    simp only [transferPreimage, validateSignatureGivenPublicKey]
    cases enclave.params.secp.publicKeyFromStr payload.previousUserAuthKey with
    | none =>
      intro preimage h
      cases h
    | some key =>
      cases enclave.params.secp.signatureFromStr payload.authSig with
      | none =>
        intro preimage h
        cases h
      | some signature =>
        simp only [Prog.unwrap, Prog.ret_bind, Prog.pure_eq]
        split_ifs with hv
        · refine fun e => wp_read (fun preimage h => by cases h) (fun found hfound => ?_)
          rw [Option.some.injEq] at hfound
          cases found with
          | none =>
            intro preimage h
            cases h
          | some text =>
            intro preimage _
            obtain ⟨latch, hlatch, -⟩ := Option.map_eq_some_iff.mp hfound
            have hmatch := List.find?_some hlatch
            simp only [Bool.and_eq_true, beq_iff_eq, Bool.not_eq_true'] at hmatch
            exact ⟨latch, List.mem_of_find?_eq_some hlatch, hmatch.1.1.1, hmatch.1.2, hmatch.2⟩
        · intro preimage h
          cases h
  exact exec_of_wp hspec choices preimage h

theorem receivable_of_admitted {id batchId : String} {row : StatechainTransfer (Point E)}
    (h : Admitted batchTimeout w id batchId row) (htimed : row.batchTime.isSome) :
    Receivable enclave batchTimeout w id batchId := by
  refine ⟨row, h.get, h.inBatch, h.locked, h.locked2, fun choices result hresult => ?_⟩
  obtain ⟨batchTime, htime⟩ := Option.isSome_iff_exists.mp htimed
  have hlookup : w.db.batchIdAndTimeOf id = some (batchId, batchTime) := by
    rw [Db.batchIdAndTimeOf, h.get]
    simp [h.inBatch, htime]
  have hsuccess : batchResult batchTimeout w id = .success := by
    simp only [batchResult, hlookup]
    rw [if_neg (fun hpast => h.live ⟨batchTime, htime, hpast⟩), if_pos h.all]
  rw [← hsuccess]
  exact (returns_validateBatch id).exec_eq choices hresult

theorem atomic_of_inv {s : State E} (hinv : Inv batchTimeout s) : Atomic enclave batchTimeout s := by
  intro payload hreleases
  obtain ⟨latch, hlatch, hid, hbatch, hopen⟩ := open_of_releases hreleases
  by_cases hcompleted : (payload.statechainId, payload.batchId) ∈ s.completed
  · exact .inl hcompleted
  · have hpending : Pending s latch := by
      refine ⟨hopen, ?_⟩
      rw [hid, hbatch]
      exact hcompleted
    obtain ⟨row, hrow⟩ := hinv.released latch hlatch hpending
    obtain ⟨hin, -⟩ := Table.get_eq_some.mp hrow.get
    rw [hid, hbatch] at hrow
    exact .inr (receivable_of_admitted hrow (hinv.timed row hin (by rw [hrow.inBatch]; rfl)))

section Seven

/-- The owner asks for the payment hash, sends the coin and unlocks it; then the receiver does. -/
def latchedTransfer : List (Event 7 (ZMod 7)) :=
  [depositCoin,
    .request (.paymenthash ⟨"coin", sevenSignature 2, "batch"⟩) (fun _ => steady),
    sevenSend "coin" (some "batch"),
    .request (.unlock ⟨"coin", sevenSignature 2, none⟩) (fun _ => steady), sevenUnlock "coin"]

def sevenPreimage : TransferPreimageRequestPayload :=
  ⟨"coin", sevenSignature 2, seven.secp.publicKeyToStr (seven.publicKey 2), "batch"⟩

/-- In every run without the events that come between the latch and the coin, the pre-image is
released only when the receiver has the coin or can have it. -/
theorem latch_atomic_of_orderly {enclaves : ℕ} {events : List (Event n E)}
    (h : Guarded (step enclave batchTimeout) (Orderly enclave batchTimeout) (init enclaves) events) :
    Atomic enclave batchTimeout (run (step enclave batchTimeout) (init enclaves) events) :=
  atomic_of_inv (invariant_run inv_step (inv_init enclaves) h)

theorem latch_atomic_of_orderly_seven :
    Releases sevenKeyring (run (step sevenKeyring 10) (init 1) latchedTransfer).world sevenPreimage ∧
    Atomic sevenKeyring 10 (run (step sevenKeyring 10) (init 1) latchedTransfer) :=
  ⟨⟨fun _ => steady, "", by decide +kernel⟩, latch_atomic_of_orderly (by decide +kernel)⟩

/-- The latch stays open after the batch has expired. -/
theorem preimage_released_after_expiry :
    ¬Atomic sevenKeyring 10 (run (step sevenKeyring 10) (init 1) (latchedTransfer ++ [.tick (seconds 11)])) := by
  intro h
  have hreleases : Releases sevenKeyring
      (run (step sevenKeyring 10) (init 1) (latchedTransfer ++ [.tick (seconds 11)])).world sevenPreimage :=
    ⟨fun _ => steady, "", by decide +kernel⟩
  obtain hcompleted | ⟨row, -, -, -, -, hresult⟩ := h sevenPreimage hreleases
  · exact absurd hcompleted (by decide +kernel)
  · have hrefused : (exec (Database.handle sevenKeyring) (validateBatch 10 "coin") (fun _ => steady)
        (run (step sevenKeyring 10) (init 1) (latchedTransfer ++ [.tick (seconds 11)])).world).1 =
          some (.expiredBatchTimeError "Batch time has expired") := by decide +kernel
    exact absurd (hresult _ _ hrefused) (by decide)

end Seven

end MercuryLayer.Server.Latch
