import MercuryLayer.Library.Runs
import MercuryLayer.Server.Unlock

namespace MercuryLayer.Server.PaymentHash

open Crates Library.Programs Library.Runs Library.Tables Library.XOnlyCurve Lockbox.Enclave Lockbox.Server
open Musig.Session Server.Database Server.System Server.Transfer Server.Unlock

variable {n : ℕ} {E : Type} [AddCommGroup E]

/-- The first row that the database returns for the batch, whoever it belongs to. -/
def getPreimageByBatchId (db : Db (Point E)) (batchId : String) : Option String :=
  (db.latches.rows.find? (fun row => row.batchId == batchId)).map LightningLatch.preImage

def hashAnswer (secp : Secp (Point E) (ZMod n)) (buffer : Bytes) : Answer :=
  ⟨200, .fields [("hash", .text (Hex.encode (secp.sha256 buffer)))]⟩

/-- The only call is the query; an error of it is a panic. -/
def getPaymenthash (secp : Secp (Point E) (ZMod n)) (fault : DbFault) (db : Db (Point E)) (batchId : String) :
    Option Answer :=
  match fault, getPreimageByBatchId db batchId with
  | .ok, none => some (message 404 "Pre-image not found")
  | .ok, some preImage => (Hex.decode preImage).map (hashAnswer secp)
  | _, _ => none

/-- A hash that was returned to the owner of a statechain. -/
structure Sale where
  statechainId : String
  batchId : String
  hash : String
deriving DecidableEq

/-- The server, with every hash that it has returned, the oldest first. -/
structure Market (E : Type) [AddCommGroup E] where
  world : World E
  sales : List Sale

inductive Event (n : ℕ)
  | post (payload : PaymentHashRequestPayload) (choices : ℕ → Choice n)
  | tick (elapsed : ℕ)
  | reorder (rows : List LightningLatch)

def opened (w : World E) : Market E := ⟨w, []⟩

/-- The one who sells under the batch. -/
def Market.sellerOf (s : Market E) (batchId : String) : Option Sale := s.sales.find? (·.batchId == batchId)

/-- Whoever sells under a batch, the lookup gives the hash that was returned to them. -/
def Stable (secp : Secp (Point E) (ZMod n)) (s : Market E) : Prop :=
  ∀ batchId sale, s.sellerOf batchId = some sale →
    ∃ answer, getPaymenthash secp .ok s.world.db batchId = some answer ∧ answer.status = 200 ∧
      answerField "hash" answer = some sale.hash

/-- No other statechain has a live latch on the batch, and no latch that was sold has expired. -/
def Undisturbed (secp : Secp (Point E) (ZMod n)) (s : Market E) : Event n → Prop
  | .post payload _ => SignedByOwner secp s.world.db payload.authSig payload.statechainId →
    ∀ row ∈ s.world.db.latches.rows,
      if row.expiresAt < s.world.now then ∀ sale ∈ s.sales, sale.batchId ≠ row.batchId
      else row.batchId = payload.batchId → row.statechainId = payload.statechainId
  | .tick _ => True
  | .reorder _ => True

variable [Module (ZMod n) E] [DecidableEq E] (enclave : Keyring n E)

instance (secp : Secp (Point E) (ZMod n)) (s : Market E) (event : Event n) : Decidable (Undisturbed secp s event) :=
  match event with
  | .post _ _ => inferInstanceAs (Decidable (_ → ∀ row ∈ s.world.db.latches.rows, _))
  | .tick _ => isTrue trivial
  | .reorder _ => isTrue trivial

def reorderedLatches {P : Type} (db : Db P) (rows : List LightningLatch) (h : rows.Perm db.latches.rows) : Db P :=
  { db with latches := ⟨rows, (h.map _).nodup_iff.mpr db.latches.unique⟩ }

def reorderLatches (w : World E) (rows : List LightningLatch) : World E :=
  if h : rows.Perm w.db.latches.rows then { w with db := reorderedLatches w.db rows h } else w

def step (s : Market E) : Event n → Market E
  | .post payload choices =>
    let result := exec (Database.handle enclave) (postPaymenthash enclave.params.secp payload) choices s.world
    let hash := result.1.bind (answerField "hash")
    ⟨result.2, s.sales ++ (hash.map (⟨payload.statechainId, payload.batchId, ·⟩)).toList⟩
  | .tick elapsed => { s with world := { s.world with now := s.world.now + elapsed } }
  | .reorder rows => { s with world := reorderLatches s.world rows }

/-- What a post can come to. -/
inductive Posted (secp : Secp (Point E) (ZMod n)) (payload : PaymentHashRequestPayload) (w : World E) :
    Option Answer → World E → Prop
  | refused (answer : Option Answer) (h : answer.bind (answerField "hash") = none) : Posted secp payload w answer w
  | cleaned (hsigned : SignedByOwner secp w.db payload.authSig payload.statechainId) :
      Posted secp payload w none { w with db := w.db.deleteExpiredLatches w.now }
  | inserted (hsigned : SignedByOwner secp w.db payload.authSig payload.statechainId) (buffer : Bytes)
      (row : LightningLatch) (db : Db (Point E)) (hid : row.statechainId = payload.statechainId)
      (hbatch : row.batchId = payload.batchId) (hpreImage : row.preImage = Hex.encode buffer)
      (hinsert : (w.db.deleteExpiredLatches w.now).insertLatch row = some db) (answer : Option Answer)
      (hanswer : answer = none ∨ answer = some (hashAnswer secp buffer)) :
      Posted secp payload w answer { w with db := db }

theorem posted_postPaymenthash (payload : PaymentHashRequestPayload) (w : World E) :
    wp (Database.handle enclave) (Posted enclave.params.secp payload w)
      (postPaymenthash enclave.params.secp payload) w := by
  refine wp_validateSignature (.refused none rfl) (fun data signature hdata hsignature => ?_)
  by_cases hv : verifies enclave.params.secp signature payload.statechainId data.authXonlyPublicKey = true
  · have hsigned : SignedByOwner enclave.params.secp w.db payload.authSig payload.statechainId :=
      ⟨data, hdata, signature, hsignature, hv⟩
    simp only [hv, if_true]
    refine fun e => wp_read (.refused none rfl) (fun senderAuthKey _ => ?_)
    intro e1 e2 e3
    refine wp_write (.refused none rfl) (fun db hdb => ?_)
    rw [← Option.some.inj hdb]
    refine ⟨.cleaned hsigned, ?_⟩
    intro e4
    refine wp_write (.cleaned hsigned) (fun db' hdb' => ?_)
    have hposted : ∀ answer, answer = none ∨ answer = some (hashAnswer enclave.params.secp e1.randomBytes) →
        Posted enclave.params.secp payload w answer { w with db := db' } :=
      .inserted hsigned e1.randomBytes _ db' rfl rfl rfl hdb'
    exact ⟨hposted none (.inl rfl), hposted _ (.inr rfl)⟩
  · simp only [hv, if_false, Bool.false_eq_true]
    exact .refused _ rfl

/-- Every sale has its latch, and the batch has no other. -/
structure Sound (secp : Secp (Point E) (ZMod n)) (s : Market E) : Prop where
  sold : ∀ sale ∈ s.sales, ∃ row ∈ s.world.db.latches.rows, ∃ buffer, row.statechainId = sale.statechainId ∧
    row.batchId = sale.batchId ∧ row.preImage = Hex.encode buffer ∧ sale.hash = Hex.encode (secp.sha256 buffer)
  alone : ∀ sale ∈ s.sales, ∀ row ∈ s.world.db.latches.rows, row.batchId = sale.batchId →
    row.statechainId = sale.statechainId

section Step

variable {enclave} {secp : Secp (Point E) (ZMod n)} {s : Market E}

omit [Module (ZMod n) E] [DecidableEq E]

theorem stable_of_sound (h : Sound secp s) : Stable secp s := by
  intro batchId sale hseller
  have hmem : sale ∈ s.sales := List.mem_of_find?_eq_some hseller
  have hbatch : sale.batchId = batchId := by simpa using List.find?_some hseller
  obtain ⟨row, hrow, buffer, hid, hrowBatch, hpreImage, hhash⟩ := h.sold sale hmem
  have hget : getPreimageByBatchId s.world.db batchId = some (Hex.encode buffer) := by
    cases hfind : s.world.db.latches.rows.find? (fun row => row.batchId == batchId) with
    | none => exact absurd (hrowBatch.trans hbatch) (by simpa using List.find?_eq_none.mp hfind row hrow)
    | some other =>
      have hother := List.mem_of_find?_eq_some hfind
      have hotherBatch : other.batchId = sale.batchId := by
        rw [hbatch]
        simpa using List.find?_some hfind
      have hkey : (other.statechainId, other.batchId) = (row.statechainId, row.batchId) := by
        rw [h.alone sale hmem other hother hotherBatch, hid, hotherBatch, hrowBatch]
      have hsame : other = row := Table.key_injective hother hrow hkey
      rw [getPreimageByBatchId, hfind, Option.map_some, hsame, hpreImage]
  refine ⟨hashAnswer secp buffer, ?_, rfl, ?_⟩
  · simp only [getPaymenthash, hget, Hex.decode_encode, Option.map_some]
  · rw [hhash]
    rfl

theorem Sound.setRows (h : Sound secp s) {w : World E}
    (hsame : ∀ row, row ∈ w.db.latches.rows ↔ row ∈ s.world.db.latches.rows) :
    Sound secp { s with world := w } where
  sold sale hsale := by
    obtain ⟨row, hrow, hrest⟩ := h.sold sale hsale
    exact ⟨row, (hsame row).mpr hrow, hrest⟩
  alone sale hsale row hrow := h.alone sale hsale row ((hsame row).mp hrow)

theorem insertLatch_rows {db db' : Db (Point E)} {row : LightningLatch} (h : db.insertLatch row = some db') :
    db'.latches.rows = db.latches.rows ++ [row] := by
  obtain ⟨latches, hinsert, rfl⟩ := Option.map_eq_some_iff.mp h
  exact (Table.rows_of_insert? hinsert).1

theorem sold_live {payload : PaymentHashRequestPayload} {choices : ℕ → Choice n} (hs : Sound secp s)
    (h : Undisturbed secp s (.post payload choices))
    (hsigned : SignedByOwner secp s.world.db payload.authSig payload.statechainId) :
    Sound secp { s with world := { s.world with db := s.world.db.deleteExpiredLatches s.world.now } } where
  sold sale hsale := by
    obtain ⟨row, hrow, buffer, hid, hbatch, hrest⟩ := hs.sold sale hsale
    refine ⟨row, List.mem_filter.mpr ⟨hrow, ?_⟩, buffer, hid, hbatch, hrest⟩
    rw [decide_eq_true_eq]
    intro hexpired
    have hdisturbed := h hsigned row hrow
    rw [if_pos hexpired] at hdisturbed
    exact hdisturbed sale hsale hbatch.symm
  alone sale hsale row hrow := hs.alone sale hsale row (List.mem_filter.mp hrow).1

theorem live_of_mem {db : Db (Point E)} {now : ℕ} {row : LightningLatch}
    (h : row ∈ (db.deleteExpiredLatches now).latches.rows) : row ∈ db.latches.rows ∧ ¬row.expiresAt < now := by
  obtain ⟨hrow, hlive⟩ := List.mem_filter.mp h
  exact ⟨hrow, by simpa using hlive⟩

/-- A latch that is inserted is the only one of its batch, and so is every other. -/
theorem sound_inserted {payload : PaymentHashRequestPayload} {choices : ℕ → Choice n} {buffer : Bytes}
    {row : LightningLatch} {db : Db (Point E)} (hs : Sound secp s) (h : Undisturbed secp s (.post payload choices))
    (hsigned : SignedByOwner secp s.world.db payload.authSig payload.statechainId)
    (hid : row.statechainId = payload.statechainId) (hbatch : row.batchId = payload.batchId)
    (hpreImage : row.preImage = Hex.encode buffer)
    (hinsert : (s.world.db.deleteExpiredLatches s.world.now).insertLatch row = some db) {sales : List Sale}
    (hsales : ∀ sale ∈ sales,
      sale = ⟨payload.statechainId, payload.batchId, Hex.encode (secp.sha256 buffer)⟩) :
    Sound secp ⟨{ s.world with db := db }, s.sales ++ sales⟩ := by
  have hlive := sold_live hs h hsigned
  have hrows := insertLatch_rows hinsert
  have hother : ∀ other ∈ (s.world.db.deleteExpiredLatches s.world.now).latches.rows,
      other.batchId = payload.batchId → other.statechainId = payload.statechainId := by
    intro other hmem hsame
    obtain ⟨hmem, hnotExpired⟩ := live_of_mem hmem
    have hdisturbed := h hsigned other hmem
    rw [if_neg hnotExpired] at hdisturbed
    exact hdisturbed hsame
  constructor
  · intro sale hsale
    obtain hsale | hsale := List.mem_append.mp hsale
    · obtain ⟨old, hold, hrest⟩ := hlive.sold sale hsale
      exact ⟨old, hrows ▸ List.mem_append_left _ hold, hrest⟩
    · rw [hsales sale hsale]
      exact ⟨row, hrows ▸ List.mem_append_right _ (List.mem_singleton_self row), buffer, hid, hbatch, hpreImage, rfl⟩
  · intro sale hsale other hmem hsame
    have hcases : other ∈ (s.world.db.deleteExpiredLatches s.world.now).latches.rows ∨ other = row := by
      rw [hrows] at hmem
      exact (List.mem_append.mp hmem).imp_right List.mem_singleton.mp
    obtain hsale | hsale := List.mem_append.mp hsale
    · obtain hmem | rfl := hcases
      · exact hlive.alone sale hsale other hmem hsame
      · obtain ⟨old, hold, buffer', hold', holdBatch, -⟩ := hlive.sold sale hsale
        rw [hid, ← hold']
        exact (hother old hold (holdBatch.trans (hsame.symm.trans hbatch))).symm
    · rw [hsales sale hsale] at hsame ⊢
      obtain hmem | rfl := hcases
      · exact hother other hmem hsame
      · exact hid

end Step

section Run

variable {enclave}

theorem sound_post {s : Market E} {payload : PaymentHashRequestPayload} {choices : ℕ → Choice n}
    (hs : Sound enclave.params.secp s) (h : Undisturbed enclave.params.secp s (.post payload choices)) :
    Sound enclave.params.secp (step enclave s (.post payload choices)) := by
  have hposted := exec_of_wp (posted_postPaymenthash enclave payload s.world) choices
  simp only [step]
  generalize exec (Database.handle enclave) (postPaymenthash enclave.params.secp payload) choices s.world = result
    at hposted ⊢
  obtain ⟨answer, w⟩ := result
  cases hposted with
  | refused _ hnone =>
    simp only [hnone, Option.map_none, Option.toList_none, List.append_nil]
    exact hs
  | cleaned hsigned =>
    simp only [Option.bind_none, Option.map_none, Option.toList_none, List.append_nil]
    exact sold_live hs h hsigned
  | inserted hsigned buffer row db hid hbatch hpreImage hinsert _ hanswer =>
    refine sound_inserted hs h hsigned hid hbatch hpreImage hinsert ?_
    intro sale hsale
    obtain rfl | rfl := hanswer
    · exact absurd hsale List.not_mem_nil
    · exact List.mem_singleton.mp hsale

theorem sound_step {s : Market E} {event : Event n} (hs : Sound enclave.params.secp s)
    (h : Undisturbed enclave.params.secp s event) : Sound enclave.params.secp (step enclave s event) := by
  cases event with
  | post payload choices => exact sound_post hs h
  | tick elapsed => exact hs.setRows (fun _ => Iff.rfl)
  | reorder rows =>
    apply hs.setRows
    intro row
    rw [reorderLatches]
    split_ifs with hperm
    · exact hperm.mem_iff
    · exact Iff.rfl

/-- In every sequence of posts in which no other statechain comes in under a batch and no latch
that was sold expires, the lookup gives the hash of the seller. -/
theorem lookup_stable (w : World E) {events : List (Event n)}
    (h : Guarded (step enclave) (Undisturbed enclave.params.secp) (opened w) events) :
    Stable enclave.params.secp (run (step enclave) (opened w) events) := by
  have hopened : Sound enclave.params.secp (opened w) :=
    ⟨fun _ hsale => absurd hsale List.not_mem_nil, fun _ hsale => absurd hsale List.not_mem_nil⟩
  exact stable_of_sound (invariant_run (fun _ _ => sound_step) hopened h)

end Run

section Seven

/-- Two coins, of the owners with the keys 2 and 3. -/
def twoCoins : World (ZMod 7) :=
  MercuryLayer.Library.Runs.run (System.step sevenKeyring 10) (System.init 1)
    [depositCoin,
      .request (.deposit (seven.x 3) "other" 0) (fun _ => calm ⟨2, two_ne_zero_seven⟩)]

def posts (statechainId batchId : String) (owner : ZMod 7) (randomBytes : Bytes) : Event 7 :=
  .post ⟨statechainId, sevenSignature owner, batchId⟩
    (fun _ => { calm (n := 7) ⟨1, one_ne_zero_seven⟩ with randomBytes := randomBytes })

/-- The owners post under different batches, the first one once more while its latch is live. -/
def twoBatches : List (Event 7) :=
  [posts "coin" "batch" 2 [1], posts "other" "second" 3 [2], .tick 1, posts "coin" "batch" 2 [3]]

theorem lookup_stable_seven :
    Guarded (step sevenKeyring) (Undisturbed seven.secp) (opened twoCoins) twoBatches ∧
      Stable seven.secp (run (step sevenKeyring) (opened twoCoins) twoBatches) ∧
      (run (step sevenKeyring) (opened twoCoins) twoBatches).sales.map Sale.batchId = ["batch", "second"] := by
  have h : Guarded (step sevenKeyring) (Undisturbed seven.secp) (opened twoCoins) twoBatches := by decide +kernel
  exact ⟨h, lookup_stable twoCoins h, by decide +kernel⟩

/-- Both owners have posted under one batch. -/
def bothPosted : Market (ZMod 7) :=
  run (step sevenKeyring) (opened twoCoins) [posts "coin" "batch" 2 [1], posts "other" "batch" 3 [2]]

/-- The database returns the latch of the other owner first, and the lookup gives that owner's hash. -/
theorem lookup_misled_seven :
    ¬Stable seven.secp (step sevenKeyring bothPosted (.reorder bothPosted.world.db.latches.rows.reverse)) := by
  intro h
  have hseller : ((step sevenKeyring bothPosted (.reorder bothPosted.world.db.latches.rows.reverse)).sellerOf
      "batch").isSome = true := by decide +kernel
  obtain ⟨sale, hsale⟩ := Option.isSome_iff_exists.mp hseller
  obtain ⟨answer, hanswer, -, hhash⟩ := h "batch" sale hsale
  have hmisled : (getPaymenthash seven.secp .ok (step sevenKeyring bothPosted
      (.reorder bothPosted.world.db.latches.rows.reverse)).world.db "batch").bind (answerField "hash") ≠
        ((step sevenKeyring bothPosted (.reorder bothPosted.world.db.latches.rows.reverse)).sellerOf
          "batch").map Sale.hash := by decide +kernel
  rw [hanswer, hsale, Option.bind_some, Option.map_some] at hmisled
  exact hmisled hhash

end Seven

end MercuryLayer.Server.PaymentHash
