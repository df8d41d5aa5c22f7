import MercuryLayer.Library.Runs
import MercuryLayer.Server.System

namespace MercuryLayer.Server.Unlock

open Crates Library.Programs Library.Runs Library.Tables Library.XOnlyCurve Lockbox.Enclave Lockbox.Server
open Musig.Session Server.Database Server.System Server.Transfer

section Locks

variable {E : Type} [AddCommGroup E]

def locks (db : Db (Point E)) (id : String) : Option (Bool × Bool) :=
  (db.transfers.get id).map (fun row => (row.locked, row.locked2))

/-- The database after the request passed the test with a signature of the owner or of
someone else: the lock goes, and with the last lock the latch. -/
def unlocked (db : Db (Point E)) (now : ℕ) (isCurrentOwner : Bool) (id : String) : Db (Point E) :=
  let db' := db.unlockTransfer id now isCurrentOwner
  match db'.transfers.get id with
  | some row =>
    match row.batchId with
    | some batchId => if !row.locked && !row.locked2 then db'.unlockLatch id batchId else db'
    | none => db'
  | none => db'

theorem unlocked_transfers (db : Db (Point E)) (now : ℕ) (owner : Bool) (id : String) :
    (unlocked db now owner id).transfers = (db.unlockTransfer id now owner).transfers := by
  simp only [unlocked]
  split
  · split
    · split <;> rfl
    · rfl
  · rfl

/-- The latch goes with the last lock. -/
theorem unlocked_latches {db : Db (Point E)} {now : ℕ} {owner : Bool} {id : String}
    {row : StatechainTransfer (Point E)} (hrow : db.transfers.get id = some row) :
    (unlocked db now owner id).latches =
      match row.batchId with
      | some batchId =>
        if !(Db.setUnlocked now owner row).locked && !(Db.setUnlocked now owner row).locked2 then
          (db.unlockLatch id batchId).latches
        else db.latches
      | none => db.latches := by
  have hget : (db.unlockTransfer id now owner).transfers.get id = some (Db.setUnlocked now owner row) := by
    rw [Db.unlockTransfer, Table.get_modify_self, hrow, Option.map_some]
  have hbatch : (Db.setUnlocked now owner row).batchId = row.batchId := by
    cases owner <;> rfl
  simp only [unlocked]
  rw [hget]
  simp only [hbatch]
  cases row.batchId with
  | none => rfl
  | some batchId =>
    simp only
    split <;> rfl

theorem locks_of_ne {db db' : Db (Point E)} {now : ℕ} {owner : Bool} {id id' : String}
    (h : db'.transfers = (db.unlockTransfer id now owner).transfers) (hne : id' ≠ id) :
    db'.transfers.get id' = db.transfers.get id' := by
  rw [h, Db.unlockTransfer, Table.get_modify_of_ne hne]

theorem get_unlockTransfer {db db' : Db (Point E)} {now : ℕ} {owner : Bool} {id : String}
    (h : db'.transfers = (db.unlockTransfer id now owner).transfers) :
    db'.transfers.get id = (db.transfers.get id).map (Db.setUnlocked now owner) := by
  rw [h, Db.unlockTransfer, Table.get_modify_self]

theorem unlocked_latches_eq {db : Db (Point E)} {now : ℕ} {id : String}
    (h : ∀ row, db.transfers.get id = some row → ∀ batchId latch, row.batchId = some batchId →
      row.locked2 = false → db.latches.get (id, batchId) = some latch → latch.locked = false) :
    (unlocked db now false id).latches = db.latches := by
  cases hrow : db.transfers.get id with
  | none =>
    have hget : (db.unlockTransfer id now false).transfers.get id = none := by
      rw [Db.unlockTransfer, Table.get_modify_self, hrow, Option.map_none]
    simp only [unlocked]
    rw [hget]
    rfl
  | some row =>
    rw [unlocked_latches hrow]
    cases hbatch : row.batchId with
    | none => rfl
    | some batchId =>
      simp only
      split_ifs with hopen
      · have hlocked2 : row.locked2 = false := by
          simpa [Db.setUnlocked] using hopen
        have hkeep : ∀ latch, db.latches.get (id, batchId) = some latch → { latch with locked := false } = latch := by
          intro latch hlatch
          rw [← h row hrow batchId latch hbatch hlocked2 hlatch]
        exact Table.modify_eq_self hkeep (fun _ => rfl)
      · rfl

theorem transfers_of_unlocked {db db' : Db (Point E)} {now : ℕ} {owner : Bool} {id : String}
    (h : db' = db.unlockTransfer id now owner ∨ db' = unlocked db now owner id) :
    db'.transfers = (db.unlockTransfer id now owner).transfers := by
  rcases h with h | h
  · rw [h]
  · rw [h, unlocked_transfers]

end Locks

variable {n : ℕ} {E : Type} [AddCommGroup E] [Module (ZMod n) E] [DecidableEq E] (enclave : Keyring n E)

/-- A lock is opened by whom it belongs to: `locked` by the recipient of the transfer and
`locked2` by the owner of the coin. Without either signature nothing changes. -/
structure Authorised (secp : Secp (Point E) (ZMod n)) (payload : TransferUnlockRequestPayload)
    (db db' : Db (Point E)) : Prop where
  locked : ∀ id row row', db.transfers.get id = some row → db'.transfers.get id = some row' →
    row.locked = true → row'.locked = false → SignedBy secp payload.authSig id (secp.xOnly row.newUserAuthPublicKey)
  locked2 : ∀ id row row', db.transfers.get id = some row → db'.transfers.get id = some row' →
    row.locked2 = true → row'.locked2 = false → SignedByOwner secp db payload.authSig id
  unchanged : ¬SignedByOwner secp db payload.authSig payload.statechainId →
    (∀ row, db.transfers.get payload.statechainId = some row →
      ¬SignedBy secp payload.authSig payload.statechainId (secp.xOnly row.newUserAuthPublicKey)) →
    (∀ id, locks db' id = locks db id) ∧ db'.latches = db.latches

/-- The signature is the owner's or the recipient's, or it fails under the key that comes with
the request, or there is nothing to unlock. -/
def Checked (secp : Secp (Point E) (ZMod n)) (payload : TransferUnlockRequestPayload) (db : Db (Point E)) : Prop :=
  ∀ data signature row, db.data.get payload.statechainId = some data →
    secp.signatureFromStr payload.authSig = some signature →
    db.transfers.get payload.statechainId = some row →
    verifies secp signature payload.statechainId data.authXonlyPublicKey = true ∨
    verifies secp signature payload.statechainId (secp.xOnly row.newUserAuthPublicKey) = true ∨
    (∃ text, payload.authPubKey = some text ∧ ∀ key, secp.publicKeyFromStr text = some key →
      verifies secp signature payload.statechainId (secp.xOnly key) = false) ∨
    (row.locked = false ∧ ∀ batchId latch, row.batchId = some batchId → row.locked2 = false →
      db.latches.get (payload.statechainId, batchId) = some latch → latch.locked = false)

variable {enclave} {payload : TransferUnlockRequestPayload} {w : World E}

def Passes (secp : Secp (Point E) (ZMod n)) (payload : TransferUnlockRequestPayload) (isCurrentOwner : Bool) : Prop :=
  isCurrentOwner = true ∨ payload.authPubKey = none ∨ ∃ text key, payload.authPubKey = some text ∧
    secp.publicKeyFromStr text = some key ∧ SignedBy secp payload.authSig payload.statechainId (secp.xOnly key)

theorem wp_updateUnlockTransfer {isCurrentOwner : Bool} {id : String} {f : Unit → Endpoint E Answer}
    {post : Option Answer → World E → Prop}
    (hnone : post none w) (hone : post none { w with db := w.db.unlockTransfer id w.now isCurrentOwner })
    (hall : post none { w with db := unlocked w.db w.now isCurrentOwner id } ∧
      wp (Database.handle enclave) post (f ()) { w with db := unlocked w.db w.now isCurrentOwner id }) :
    wp (Database.handle enclave) post (updateUnlockTransfer isCurrentOwner id >>= f) w := by
  rw [wp_bind]
  intro e
  refine wp_write hnone (fun db hdb => ⟨?_, fun e' => wp_read ?_ ?_⟩)
  · rwa [← Option.some.inj hdb]
  · rwa [← Option.some.inj hdb]
  rintro ⟨locked, locked2, batchId⟩ hlocks
  rw [Option.some.injEq] at hdb
  subst hdb
  obtain ⟨row, hrow, hfields⟩ := Option.map_eq_some_iff.mp hlocks
  rw [Prod.mk.injEq, Prod.mk.injEq] at hfields
  obtain ⟨rfl, rfl, rfl⟩ := hfields
  have hdb : unlocked w.db w.now isCurrentOwner id = match row.batchId with
      | some batchId => if !row.locked && !row.locked2 then
          (w.db.unlockTransfer id w.now isCurrentOwner).unlockLatch id batchId
        else w.db.unlockTransfer id w.now isCurrentOwner
      | none => w.db.unlockTransfer id w.now isCurrentOwner := by
    simp only [unlocked]
    rw [hrow]
  cases hbatch : row.batchId with
  | none =>
    rw [hbatch] at hdb
    rw [hdb] at hall
    exact hall.2
  | some batchId =>
    rw [hbatch] at hdb
    by_cases hopen : (!row.locked && !row.locked2) = true
    · simp only [hopen, if_true] at hdb ⊢
      intro e''
      refine wp_unwrap_write hone (fun db hdb' => ?_)
      rw [← Option.some.inj hdb']
      rw [hdb] at hall
      exact hall
    · simp only [hopen] at hdb ⊢
      rw [hdb] at hall
      exact hall.2

/-- The request either changes nothing, or passes the test and opens the lock, with or without
the latch. -/
inductive Outcome (secp : Secp (Point E) (ZMod n)) (payload : TransferUnlockRequestPayload)
    (w w' : World E) : Prop
  | same (h : w' = w)
  | opened (data : StatechainData (Point E)) (signature : Signature) (owner : Bool)
      (hdata : w.db.data.get payload.statechainId = some data)
      (hsignature : secp.signatureFromStr payload.authSig = some signature)
      (howner : verifies secp signature payload.statechainId data.authXonlyPublicKey = owner)
      (hpasses : Passes secp payload owner)
      (hnow : w'.now = w.now)
      (hdb : w'.db = w.db.unlockTransfer payload.statechainId w.now owner ∨
        w'.db = unlocked w.db w.now owner payload.statechainId)

theorem transferUnlock_outcome (payload : TransferUnlockRequestPayload) (w : World E) :
    wp (Database.handle enclave) (fun _ w' => Outcome enclave.params.secp payload w w')
      (transferUnlock enclave.params.secp payload) w := by
  refine wp_validateSignature (.same rfl) (fun data signature hdata hsig => ?_)
  generalize hown : verifies enclave.params.secp signature payload.statechainId data.authXonlyPublicKey = owner
  have hpass : Passes enclave.params.secp payload owner →
      wp (Database.handle enclave) (fun _ w' => Outcome enclave.params.secp payload w w') (do
        updateUnlockTransfer owner payload.statechainId
        return message 200 "Success") w := fun hp =>
    wp_updateUnlockTransfer (.same rfl) (.opened data signature owner hdata hsig hown hp rfl (.inl rfl))
      ⟨.opened data signature owner hdata hsig hown hp rfl (.inr rfl),
        .opened data signature owner hdata hsig hown hp rfl (.inr rfl)⟩
  cases owner with
  | true => exact hpass (.inl rfl)
  | false =>
    cases hkey : payload.authPubKey with
    | none => exact hpass (.inr (.inl hkey))
    | some text =>
      cases hparse : enclave.params.secp.publicKeyFromStr text with
      | none =>
        simp only [Bool.false_eq_true, if_false, validateSignatureGivenPublicKey, hparse]
        exact .same rfl
      | some key =>
        simp only [Bool.false_eq_true, if_false, validateSignatureGivenPublicKey, hparse, hsig]
        cases hv : verifies enclave.params.secp signature payload.statechainId (enclave.params.secp.xOnly key) with
        | false =>
          simp only [Prog.unwrap, Prog.ret_bind, hv]
          exact .same rfl
        | true =>
          simp only [Prog.unwrap, Prog.ret_bind, hv]
          exact hpass (.inr (.inr ⟨text, key, hkey, hparse, signature, hsig, hv⟩))

/-- Without the owner's signature, what the test lets through is the recipient's request or
has nothing to unlock. -/
theorem Checked.cases (h : Checked enclave.params.secp payload w.db) {data : StatechainData (Point E)}
    {signature : Signature} {row : StatechainTransfer (Point E)}
    (hdata : w.db.data.get payload.statechainId = some data)
    (hsignature : enclave.params.secp.signatureFromStr payload.authSig = some signature)
    (howner : verifies enclave.params.secp signature payload.statechainId data.authXonlyPublicKey = false)
    (hpasses : Passes enclave.params.secp payload false)
    (hrow : w.db.transfers.get payload.statechainId = some row) :
    SignedBy enclave.params.secp payload.authSig payload.statechainId
        (enclave.params.secp.xOnly row.newUserAuthPublicKey) ∨
      (row.locked = false ∧ ∀ batchId latch, row.batchId = some batchId → row.locked2 = false →
        w.db.latches.get (payload.statechainId, batchId) = some latch → latch.locked = false) := by
  rcases h data signature row hdata hsignature hrow with hown | hrec | ⟨text, htext, hfail⟩ | hnothing
  · rw [howner] at hown
    cases hown
  · exact .inl ⟨signature, hsignature, hrec⟩
  · rcases hpasses with hp | hp | ⟨text', key, htext', hkey, signature', hsignature', hv⟩
    · cases hp
    · rw [htext] at hp
      cases hp
    · rw [htext, Option.some.injEq] at htext'
      rw [hsignature, Option.some.injEq] at hsignature'
      subst htext' hsignature'
      rw [hfail key hkey] at hv
      cases hv
  · exact .inr hnothing

theorem authorised_of_outcome (h : Checked enclave.params.secp payload w.db) {w' : World E}
    (houtcome : Outcome enclave.params.secp payload w w') :
    Authorised enclave.params.secp payload w.db w'.db := by
  cases houtcome with
  | same hw =>
    subst hw
    refine ⟨?_, ?_, fun _ _ => ⟨fun _ => rfl, rfl⟩⟩
    · intro id row row' hrow hrow' hlocked hopen
      rw [hrow, Option.some.injEq] at hrow'
      rw [hrow', hopen] at hlocked
      cases hlocked
    · intro id row row' hrow hrow' hlocked hopen
      rw [hrow, Option.some.injEq] at hrow'
      rw [hrow', hopen] at hlocked
      cases hlocked
  | opened data signature owner hdata hsignature howner hpasses _ hdb =>
    have htransfers := transfers_of_unlocked hdb
    have hlock : ∀ id row row', w.db.transfers.get id = some row → w'.db.transfers.get id = some row' →
        row = row' ∨ id = payload.statechainId ∧ row' = Db.setUnlocked w.now owner row := by
      intro id row row' hrow hrow'
      by_cases hid : id = payload.statechainId
      · subst hid
        rw [get_unlockTransfer htransfers, hrow, Option.map_some, Option.some.injEq] at hrow'
        exact .inr ⟨rfl, hrow'.symm⟩
      · rw [locks_of_ne htransfers hid, hrow, Option.some.injEq] at hrow'
        exact .inl hrow'
    refine ⟨?_, ?_, ?_⟩
    · intro id row row' hrow hrow' hlocked hopen
      rcases hlock id row row' hrow hrow' with rfl | ⟨rfl, rfl⟩
      · rw [hlocked] at hopen
        cases hopen
      · cases owner with
        | true =>
          have hsame : row.locked = false := hopen
          rw [hlocked] at hsame
          cases hsame
        | false =>
          rcases h.cases hdata hsignature howner hpasses hrow with hrec | ⟨hno, -⟩
          · exact hrec
          · rw [hlocked] at hno
            cases hno
    · intro id row row' hrow hrow' hlocked hopen
      rcases hlock id row row' hrow hrow' with rfl | ⟨rfl, rfl⟩
      · rw [hlocked] at hopen
        cases hopen
      · cases owner with
        | true => exact ⟨data, hdata, signature, hsignature, howner⟩
        | false =>
          have hsame : row.locked2 = false := hopen
          rw [hlocked] at hsame
          cases hsame
    · intro hno hnorec
      cases owner with
      | true => exact absurd ⟨data, hdata, signature, hsignature, howner⟩ hno
      | false =>
        have hnothing : ∀ row, w.db.transfers.get payload.statechainId = some row → _ := fun row hrow =>
          (h.cases hdata hsignature howner hpasses hrow).resolve_left (hnorec row hrow)
        refine ⟨fun id => ?_, ?_⟩
        · by_cases hid : id = payload.statechainId
          · subst hid
            rw [locks, get_unlockTransfer htransfers, locks]
            cases hrow : w.db.transfers.get payload.statechainId with
            | none => rfl
            | some row =>
              have hlocked := (hnothing row hrow).1
              simp only [Option.map_some, Db.setUnlocked, Bool.false_eq_true, if_false, hlocked]
          · rw [locks, locks_of_ne htransfers hid, locks]
        · rcases hdb with hdb | hdb
          · rw [hdb]
            rfl
          · rw [hdb]
            exact unlocked_latches_eq (fun row hrow => (hnothing row hrow).2)

theorem exec_transferUnlock (secret : { k : ZMod n // k ≠ 0 }) {data : StatechainData (Point E)}
    {signature : Signature} {row : StatechainTransfer (Point E)} {owner : Bool}
    (hdata : w.db.data.get payload.statechainId = some data)
    (hsignature : enclave.params.secp.signatureFromStr payload.authSig = some signature)
    (howner : verifies enclave.params.secp signature payload.statechainId data.authXonlyPublicKey = owner)
    (hpasses : Passes enclave.params.secp payload owner)
    (hrow : w.db.transfers.get payload.statechainId = some row) :
    exec (Database.handle enclave) (transferUnlock enclave.params.secp payload) (fun _ => calm secret) w =
      (some (message 200 "Success"), { w with db := unlocked w.db w.now owner payload.statechainId }) := by
  have hupdate : exec (Database.handle enclave) (updateUnlockTransfer owner payload.statechainId)
      (fun _ => calm secret) w =
        (some (), { w with db := unlocked w.db w.now owner payload.statechainId }) := by
    have hget : (w.db.unlockTransfer payload.statechainId w.now owner).transfers.get payload.statechainId =
        some (Db.setUnlocked w.now owner row) := by
      rw [Db.unlockTransfer, Table.get_modify_self, hrow, Option.map_some]
    simp only [updateUnlockTransfer, Prog.call_bind, exec, Database.handle, Database.read, Database.write, calm,
      Option.map_some, Prog.unwrap, Prog.ret_bind, hget, unlocked]
    cases (Db.setUnlocked w.now owner row).batchId with
    | none => rfl
    | some batchId =>
      simp only
      split_ifs <;> rfl
  have hvalidate : exec (Database.handle enclave)
      (validateSignature enclave.params.secp payload.authSig payload.statechainId) (fun _ => calm secret) w =
        (some owner, w) := by
    simp only [validateSignature, getAuthKeyByStatechainId, Prog.call_bind, exec, Database.handle, Database.read,
      calm, hdata, Option.map_some, Prog.unwrap, Prog.ret_bind, hsignature, Prog.pure_eq, howner]
  rw [transferUnlock, exec_bind, hvalidate]
  have hgo : exec (Database.handle enclave) (do
      updateUnlockTransfer owner payload.statechainId
      return message 200 "Success") (fun _ => calm secret) w =
        (some (message 200 "Success"), { w with db := unlocked w.db w.now owner payload.statechainId }) := by
    rw [exec_bind, hupdate]
    rfl
  cases owner with
  | true => exact hgo
  | false =>
    cases hkey : payload.authPubKey with
    | none => exact hgo
    | some text =>
      rcases hpasses with hp | hp | ⟨text', key, htext, hparse, signature', hsignature', hv⟩
      · cases hp
      · rw [hkey] at hp
        cases hp
      · rw [hkey, Option.some.injEq] at htext
        rw [hsignature, Option.some.injEq] at hsignature'
        subst htext hsignature'
        simp only [Bool.false_eq_true, if_false, validateSignatureGivenPublicKey, hparse, hsignature, Prog.unwrap,
          Prog.ret_bind, hv]
        exact hgo

/-- The server keeps the rule exactly for the requests that meet the condition. -/
theorem unlock_authorised_iff (enclave : Keyring n E) (payload : TransferUnlockRequestPayload) (w : World E) :
    (∀ choices, Authorised enclave.params.secp payload w.db
      (exec (Database.handle enclave) (transferUnlock enclave.params.secp payload) choices w).2.db) ↔
      Checked enclave.params.secp payload w.db := by
  constructor
  · intro h data signature row hdata hsignature hrow
    by_contra hcon
    rw [not_or, not_or, not_or, Bool.not_eq_true] at hcon
    obtain ⟨hown, hrec, hkey, hlock⟩ := hcon
    have hpasses : Passes enclave.params.secp payload false := by
      cases htext : payload.authPubKey with
      | none => exact .inr (.inl htext)
      | some text =>
        by_contra hnot
        refine hkey ⟨text, htext, fun key hparse => ?_⟩
        by_contra hv
        exact hnot (.inr (.inr ⟨text, key, htext, hparse, signature, hsignature, Bool.eq_true_of_not_eq_false hv⟩))
    have hnoOwner : ¬SignedByOwner enclave.params.secp w.db payload.authSig payload.statechainId := by
      rintro ⟨data', hdata', signature', hsignature', hv⟩
      rw [hdata, Option.some.injEq] at hdata'
      rw [hsignature, Option.some.injEq] at hsignature'
      rw [← hdata', ← hsignature', hown] at hv
      cases hv
    have hnoRecipient : ∀ row', w.db.transfers.get payload.statechainId = some row' →
        ¬SignedBy enclave.params.secp payload.authSig payload.statechainId
          (enclave.params.secp.xOnly row'.newUserAuthPublicKey) := by
      rintro row' hrow' ⟨signature', hsignature', hv⟩
      rw [hrow, Option.some.injEq] at hrow'
      rw [hsignature, Option.some.injEq] at hsignature'
      rw [← hrow', ← hsignature'] at hv
      exact hrec hv
    have hauth := h (fun _ => calm enclave.params.someSecret)
    rw [exec_transferUnlock _ hdata hsignature hown hpasses hrow] at hauth
    obtain ⟨hlocks, hlatches⟩ := hauth.unchanged hnoOwner hnoRecipient
    have hlocked : row.locked = false := by
      have hl := hlocks payload.statechainId
      rw [locks, locks, get_unlockTransfer (unlocked_transfers _ _ _ _), hrow, Option.map_some, Option.map_some,
        Option.map_some, Option.some.injEq, Prod.mk.injEq] at hl
      exact hl.1.symm
    refine hlock ⟨hlocked, fun batchId latch hbatch hlocked2 hlatch => ?_⟩
    have hopen : (!(Db.setUnlocked w.now false row).locked && !(Db.setUnlocked w.now false row).locked2) = true := by
      simp [Db.setUnlocked, hlocked2]
    have hget : (unlocked w.db w.now false payload.statechainId).latches.get (payload.statechainId, batchId) =
        some { latch with locked := false } := by
      rw [unlocked_latches hrow, hbatch]
      simp only [hopen, if_true]
      rw [Db.unlockLatch, Table.get_modify_self, hlatch, Option.map_some]
    rw [hlatches, hlatch, Option.some.injEq] at hget
    rw [hget]
  · intro h choices
    have hspec : wp (Database.handle enclave) _ (transferUnlock enclave.params.secp payload) w :=
      transferUnlock_outcome payload w
    exact authorised_of_outcome h (exec_of_wp hspec choices)

section Stranger

def sevenSignature (seckey : ZMod 7) : String := seven.secp.signatureToStr (seven.secp.signSchnorr [] seckey)

/-- The owner with key 2 sends a coin of a batch to the recipient with key 3. -/
def batchedTransfer : List (Event 7 (ZMod 7)) :=
  [depositCoin,
    .request (.sender ⟨"coin", sevenSignature 2, seven.secp.publicKeyToStr (seven.publicKey 3), some "batch"⟩)
      (fun _ => steady)]

def strangerPayload : TransferUnlockRequestPayload := ⟨"coin", sevenSignature 1, none⟩

def lockedRow (locked : Bool) : StatechainTransfer (Point (ZMod 7)) where
  statechainId := "coin"
  newUserAuthPublicKey := ⟨3, three_ne_zero_seven⟩
  x1 := b32 1
  encryptedTransferMsg := none
  updatedAt := 0
  keyUpdated := false
  batchId := some "batch"
  batchTime := some 0
  locked := locked
  locked2 := false

/-- A signature of neither the owner nor the recipient opens the lock, if the request names
no key. -/
theorem stranger_unlocks :
    ¬Authorised seven.secp strangerPayload (run (step sevenKeyring 10) (init 1) batchedTransfer).db
      (exec (Database.handle sevenKeyring) (transferUnlock seven.secp strangerPayload)
        (fun _ => steady) (run (step sevenKeyring 10) (init 1) batchedTransfer)).2.db := by
  intro h
  have hbefore : (run (step sevenKeyring 10) (init 1) batchedTransfer).db.transfers.get "coin" =
      some (lockedRow true) := by decide +kernel
  have hafter : (exec (Database.handle sevenKeyring) (transferUnlock seven.secp strangerPayload)
      (fun _ => steady) (run (step sevenKeyring 10) (init 1) batchedTransfer)).2.db.transfers.get
        "coin" = some (lockedRow false) := by decide +kernel
  have hsigned := h.locked "coin" _ _ hbefore hafter rfl rfl
  exact absurd hsigned (by decide +kernel)

end Stranger

end MercuryLayer.Server.Unlock
