import MercuryLayer.Client.LocktimeGuard
import MercuryLayer.Client.System
import MercuryLayer.Library.Grouping
import MercuryLayer.Library.Runs
import MercuryLayer.Server.Unlock

namespace MercuryLayer.Client.SendRecovery

open Client.System Client.Transaction Client.TransferReceiver Client.TransferSender Crates Error Library.Programs
open Library.Runs Library.Tables Library.Texts Library.Validation Library.XOnlyCurve Lockbox.Enclave Receiver Sender
open Server.Database Server.Effects Server.Sign
open Client.LocktimeGuard (fundedCoin sentOnce sevenSetup sevenSetup_codec wireBtc wireBtc_codec)
open Musig.Cosign Musig.Session Server.SignEffects Server.Transfer MercuryLayer.Transaction WalletData

section Level

variable {E : Type} [AddCommGroup E] (id : String)

/-- The nonce and the number of a transaction, as the client keeps them. -/
def mark (backupTx : BackupTx) : String × UInt32 := (backupTx.serverPublicNonce, backupTx.txN)

/-- The nonce and the number of a signature, as the server keeps them. -/
def rowMark (row : SignatureData) : String × UInt32 := (row.serverPubnonce, row.txN)

/-- The signatures of the statechain whose challenge is stored. -/
def completed (w : World E) : List SignatureData :=
  (signaturesOf w.db id).filter (fun row => row.challenge.isSome)

/-- The server has signed exactly the given transactions, under the same nonces and numbers; at most one
further signature is in progress. -/
structure Level (w : World E) (txs : List BackupTx) (done pending : List SignatureData) : Prop where
  rows : signaturesOf w.db id = done ++ pending
  challenged : ∀ row ∈ done, row.challenge ≠ none
  started : ∀ row ∈ pending, row.challenge = none ∧ strip0x row.serverPubnonce = row.serverPubnonce
  single : pending.length ≤ 1
  numbers : (signaturesOf w.db id).map (fun row => row.txN.toNat) = List.range' 1 (signaturesOf w.db id).length
  marks : (txs.map mark).Perm (done.map rowMark)
  count : ∃ data, w.db.data.get id = some data ∧ sigCountOf w data.enclaveIndex id = some txs.length

variable {id} {w w' : World E} {txs : List BackupTx} {done pending : List SignatureData}

namespace Level

theorem length_done (h : Level id w txs done pending) : done.length = txs.length := by
  have hlength := h.marks.length_eq
  rw [List.length_map, List.length_map] at hlength
  exact hlength.symm

theorem completed_eq (h : Level id w txs done pending) : completed id w = done := by
  have hdone : done.filter (fun row => row.challenge.isSome) = done := by
    rw [List.filter_eq_self]
    intro row hrow
    exact Option.isSome_iff_ne_none.mpr (h.challenged row hrow)
  have hpending : pending.filter (fun row => row.challenge.isSome) = [] := by
    rw [List.filter_eq_nil_iff]
    intro row hrow
    rw [(h.started row hrow).1]
    exact Bool.false_ne_true
  rw [completed, h.rows, List.filter_append, hdone, hpending, List.append_nil]

theorem congr (h : Level id w txs done pending) (hdata : w'.db.data = w.db.data)
    (hrows : signaturesOf w'.db id = signaturesOf w.db id)
    (hcount : ∀ index, sigCountOf w' index id = sigCountOf w index id) : Level id w' txs done pending where
  rows := hrows.trans h.rows
  challenged := h.challenged
  started := h.started
  single := h.single
  numbers := by
    rw [hrows]
    exact h.numbers
  marks := h.marks
  count := by
    obtain ⟨data, hget, hcounted⟩ := h.count
    exact ⟨data, by rw [hdata, hget], by rw [hcount, hcounted]⟩

theorem perm {txs' : List BackupTx} (h : Level id w txs done pending) (hperm : txs'.Perm txs) :
    Level id w txs' done pending :=
  { h with
    marks := (hperm.map mark).trans h.marks
    count := by
      rw [hperm.length_eq]
      exact h.count }

theorem txN_pending {row : SignatureData} (h : Level id w txs done [row]) :
    row.txN = (txs.length + 1).toUInt32 := by
  have hnumbers := h.numbers
  rw [h.rows, List.map_append, List.length_append, List.length_singleton, List.range'_1_concat] at hnumbers
  have hlast := List.append_inj_right' hnumbers rfl
  rw [List.map_singleton, List.cons.injEq] at hlast
  have hlt := row.txN.toNat_lt
  rw [← h.length_done, ← UInt32.toNat_inj, hlast.1, Nat.toUInt32_eq, UInt32.toNat_ofNat', Nat.mod_eq_of_lt (by omega),
    Nat.add_comm]

theorem start {text : String} (h : Level id w txs done []) (hdata : w'.db.data = w.db.data)
    (hcount : ∀ index, sigCountOf w' index id = sigCountOf w index id)
    (hrows : signaturesOf w'.db id = signaturesOf w.db id ++ [⟨strip0x text, none, w.db.maxTxN id + 1, id⟩])
    (htext : strip0x (strip0x text) = strip0x text) (hlt : txs.length + 1 < 2 ^ 32) :
    Level id w' txs done [⟨strip0x text, none, w.db.maxTxN id + 1, id⟩] where
  rows := by rw [hrows, h.rows, List.append_nil]
  challenged := h.challenged
  started := by
    intro row hrow
    rw [List.mem_singleton] at hrow
    subst hrow
    exact ⟨rfl, htext⟩
  single := Nat.le_refl 1
  numbers := by
    have hmax := toNat_maxTxN h.numbers
    have hlength : (signaturesOf w.db id).length = txs.length := by
      rw [h.rows, List.append_nil, h.length_done]
    have hnext : (w.db.maxTxN id + 1).toNat = 1 + (signaturesOf w.db id).length := by
      rw [UInt32.toNat_add, hmax, UInt32.toNat_one]
      omega
    rw [hrows, List.map_append, List.length_append, List.length_singleton, List.range'_1_concat, ← h.numbers,
      List.map_singleton, hnext]
  marks := h.marks
  count := by
    obtain ⟨data, hget, hcounted⟩ := h.count
    exact ⟨data, by rw [hdata, hget], by rw [hcount, hcounted]⟩

theorem eq_pending {row : SignatureData} (h : Level id w txs done pending) (hrow : row ∈ signaturesOf w.db id)
    (hnone : row.challenge = none) : pending = [row] := by
  rw [h.rows] at hrow
  obtain hdone | hpending := List.mem_append.mp hrow
  · exact absurd hnone (h.challenged row hdone)
  · obtain ⟨first, rfl⟩ := List.length_eq_one_iff.mp (Nat.le_antisymm h.single (List.length_pos_of_mem hpending))
    rw [List.mem_singleton.mp hpending]

theorem first {answer : Option Answer} (h : Level id w txs done pending) (heffect : FirstEffect w id answer w')
    (hlt : txs.length + 1 < 2 ^ 32) :
    ∃ pending', Level id w' txs done pending' ∧ ∀ text, namedIn "server_pubnonce" answer = some text →
      ∃ row, pending' = [row] ∧ row.serverPubnonce = strip0x text := by
  obtain ⟨hrows, hnamed⟩ | ⟨hnone, text, hrows, hstrip, hnamed⟩ := heffect.rows
  · refine ⟨pending, h.congr heffect.data hrows heffect.count, fun text htext => ?_⟩
    obtain ⟨row, hrow, hchallenge, hnonce⟩ := mem_of_pending w.db (hnamed text htext)
    have hpending := h.eq_pending hrow hchallenge
    have hmem : row ∈ pending := by
      rw [hpending]
      exact List.mem_singleton_self row
    exact ⟨row, hpending, by rw [← hnonce, (h.started row hmem).2]⟩
  · have hpending : pending = [] := by
      rw [List.eq_nil_iff_forall_not_mem]
      intro row hrow
      have hmem : row ∈ signaturesOf w.db id := by
        rw [h.rows]
        exact List.mem_append_right done hrow
      exact challenge_of_none w.db hnone hmem (h.started row hrow).1
    subst hpending
    refine ⟨_, h.start heffect.data heffect.count hrows hstrip hlt, fun text' htext' => ⟨_, rfl, ?_⟩⟩
    rw [hnamed text' htext']

theorem setChallenge_rowMark (statechainId serverPubnonce challenge : String) (row : SignatureData) :
    rowMark (Db.setChallenge statechainId serverPubnonce challenge row) = rowMark row := by
  unfold Db.setChallenge
  split <;> rfl

theorem challenged_map {row : SignatureData} (h : Level id w txs done [row]) (challenge : String) :
    ∀ row' ∈ (done ++ [row]).map (Db.setChallenge id row.serverPubnonce challenge), row'.challenge ≠ none := by
  intro row' hrow'
  obtain ⟨row0, hrow0, rfl⟩ := List.mem_map.mp hrow'
  unfold Db.setChallenge
  split_ifs with hset
  · exact Option.some_ne_none challenge
  · obtain hdone | hlast := List.mem_append.mp hrow0
    · exact h.challenged row0 hdone
    · rw [List.mem_singleton] at hlast
      subst hlast
      have hmem : row0 ∈ signaturesOf w.db id := by
        rw [h.rows]
        exact hrow0
      exact absurd ⟨statechainId_of_mem hmem, rfl⟩ hset

theorem completed_lt {row : SignatureData} {challenge : String} (h : Level id w txs done [row])
    (hrows : signaturesOf w'.db id = (signaturesOf w.db id).map (Db.setChallenge id row.serverPubnonce challenge)) :
    done.length < (completed id w').length := by
  have hall : completed id w' = (done ++ [row]).map (Db.setChallenge id row.serverPubnonce challenge) := by
    rw [completed, hrows, h.rows, List.filter_eq_self]
    intro row' hrow'
    exact Option.isSome_iff_ne_none.mpr (h.challenged_map challenge row' hrow')
  rw [hall, List.length_map, List.length_append, List.length_singleton]
  exact Nat.lt_succ_self _

theorem finish {row : SignatureData} {challenge : String} (h : Level id w txs done [row])
    (hdata : w'.db.data = w.db.data)
    (hrows : signaturesOf w'.db id = (signaturesOf w.db id).map (Db.setChallenge id row.serverPubnonce challenge))
    (hcount : ∀ data, w.db.data.get id = some data →
      sigCountOf w' data.enclaveIndex id = (sigCountOf w data.enclaveIndex id).map (· + 1))
    {backupTx : BackupTx} (hmark : mark backupTx = rowMark row) :
    Level id w' (txs ++ [backupTx]) ((done ++ [row]).map (Db.setChallenge id row.serverPubnonce challenge)) [] where
  rows := by rw [hrows, h.rows, List.append_nil]
  challenged := h.challenged_map challenge
  started := nofun
  single := Nat.zero_le 1
  numbers := by
    rw [hrows, List.map_map, List.length_map, ← h.numbers]
    apply List.map_congr_left
    intro row' _
    exact congrArg (fun mark => mark.2.toNat) (setChallenge_rowMark id row.serverPubnonce challenge row')
  marks := by
    rw [List.map_map, List.map_append, List.map_singleton, hmark]
    have hmarks : (done ++ [row]).map (rowMark ∘ Db.setChallenge id row.serverPubnonce challenge) =
        done.map rowMark ++ [rowMark row] := by
      rw [← List.map_singleton, ← List.map_append]
      apply List.map_congr_left
      intro row' _
      exact setChallenge_rowMark id row.serverPubnonce challenge row'
    rw [hmarks]
    exact h.marks.append_right _
  count := by
    obtain ⟨data, hget, hcounted⟩ := h.count
    refine ⟨data, by rw [hdata, hget], ?_⟩
    rw [hcount data hget, hcounted, List.length_append, List.length_singleton]
    rfl

end Level

end Level

section Signing

variable {n : ℕ} {E F : Type} [AddCommGroup E] [Module (ZMod n) E] [DecidableEq E]
  {enclave : Keyring n E} {batchTimeout : ℕ} {id : String} {s : State E}
  {txs : List BackupTx} {done pending : List SignatureData}

def SameFiles (s s' : State E) : Prop := s'.files = s.files ∧ s'.uploads = s.uploads

omit [Module (ZMod n) E] [DecidableEq E] in
theorem SameFiles.world (s : State E) (w : World E) : SameFiles s { s with world := w } := ⟨rfl, rfl⟩

omit [Module (ZMod n) E] [DecidableEq E] in
theorem SameFiles.trans {s s1 s2 : State E} (h1 : SameFiles s s1) (h2 : SameFiles s1 s2) : SameFiles s s2 :=
  ⟨h2.1.trans h1.1, h2.2.trans h1.2⟩

theorem attempts_answered {α : Type} {ok : α → State E → Prop} {err : State E → Prop} (chance : Chance n F)
    {endpoint : Server.Transfer.Endpoint E Answer} {post : Option Answer → World E → Prop}
    {f : Option Answer → Action F α}
    (heffect : ∀ now, wp (Server.Database.handle enclave) post endpoint { s.world with now := now }) (herr : err s)
    (hanswered : ∀ answer w', post answer w' → err { s with world := w' } ∧
      Attempts (System.handle enclave batchTimeout) ok err (f answer) { s with world := w' }) :
    Attempts (System.handle enclave batchTimeout) ok err (liftM (anyhow (request enclave chance s endpoint).1) >>= f)
      (request enclave chance s endpoint).2 := by
  obtain ⟨text, hrequest⟩ | ⟨answer, w', heff, hrequest | ⟨text, hrequest⟩⟩ := request_cases chance s heffect
  · rw [hrequest]
    exact attempts_bind (attempts_lift herr nofun)
  · rw [hrequest]
    refine attempts_bind (attempts_lift (hanswered answer w' heff).1 (fun answer' hanswer' => ?_))
    cases anyhow_eq_ok.mp hanswer'
    exact (hanswered answer w' heff).2
  · rw [hrequest]
    exact attempts_bind (attempts_lift (hanswered answer w' heff).1 nofun)

theorem attempts_signFirst (h : Level id s.world txs done pending) (hlt : txs.length + 1 < 2 ^ 32)
    (signedStatechainId : String) :
    Attempts (System.handle enclave batchTimeout)
      (fun nonce s' => SameFiles s s' ∧ ∃ row, Level id s'.world txs done [row] ∧ row.serverPubnonce = nonce)
      (fun s' => SameFiles s s' ∧ ∃ pending', Level id s'.world txs done pending')
      (Transaction.signFirst ⟨id, signedStatechainId⟩ : Action F String) s := by
  have heffect : ∀ now, wp (Server.Database.handle enclave) (FirstEffect s.world id)
      (Server.Sign.signFirst enclave.params.secp ⟨id, signedStatechainId⟩) { s.world with now := now } :=
    fun now => wp_mono (fun _ _ heff => ⟨heff.data, heff.count, heff.rows⟩) (signFirst_effect _)
  refine attempts_ask_bind (Transaction.Call.signFirst ⟨id, signedStatechainId⟩) _ (fun chance => ?_)
  refine attempts_answered chance heffect ⟨⟨rfl, rfl⟩, pending, h⟩ (fun answer w' heff => ?_)
  obtain ⟨pending', hlevel, hnamed⟩ := h.first heff hlt
  have herr : SameFiles s { s with world := w' } ∧ ∃ pending', Level id w' txs done pending' :=
    ⟨SameFiles.world s w', pending', hlevel⟩
  refine ⟨herr, attempts_bind (attempts_lift herr (fun response hresponse => ?_))⟩
  refine attempts_bind (attempts_lift herr (fun _ _ => ?_))
  refine attempts_bind (attempts_lift herr (fun nonce hnonce => ?_))
  obtain ⟨row, rfl, hrow⟩ := hnamed nonce (by
    rw [orThrow_eq_ok.mp hresponse]
    exact orThrow_eq_ok.mp hnonce)
  exact attempts_pure ⟨herr.1, row, hlevel, hrow⟩

/-- Where signing can stop: with one more challenge stored, or as far as before. -/
def Stopped (id : String) (txs : List BackupTx) (w : World E) : Prop :=
  txs.length < (completed id w).length ∨ ∃ done pending, Level id w txs done pending

omit [Module (ZMod n) E] [DecidableEq E] in
theorem Stopped.of_append {w : World E} {made : List BackupTx} (h : Stopped id (txs ++ made) w) :
    Stopped id txs w := by
  cases made with
  | nil =>
    rw [List.append_nil] at h
    exact h
  | cons first rest =>
    have hlt : txs.length < (txs ++ first :: rest).length := by
      rw [List.length_append, List.length_cons]
      omega
    refine .inl ?_
    obtain hmore | ⟨done, pending, hlevel⟩ := h
    · exact Nat.lt_trans hlt hmore
    · rw [hlevel.completed_eq, hlevel.length_done]
      exact hlt

omit [Module (ZMod n) E] [DecidableEq E] in
theorem stopped_of_next {w' : World E} {nonce : String} {txN : UInt32} {done' : List SignatureData}
    (hnext : ∀ backupTx, mark backupTx = (nonce, txN) → Level id w' (txs ++ [backupTx]) done' []) :
    Stopped id txs w' :=
  Stopped.of_append (.inr ⟨done', [], hnext ⟨txN, "", "", nonce, "", "", ""⟩ rfl⟩)

theorem attempts_signSecond {K : Type} (setup : Setup (Point E) K F) {row : SignatureData}
    (h : Level id s.world txs done [row]) {payload : PartialSignatureRequestPayload}
    (hid : payload.statechainId = id) (hnonce : payload.serverPubNonce = row.serverPubnonce) :
    Attempts (System.handle enclave batchTimeout)
      (fun _ s' => SameFiles s s' ∧ ∃ done', ∀ backupTx, mark backupTx = rowMark row →
        Level id s'.world (txs ++ [backupTx]) done' [])
      (fun s' => SameFiles s s' ∧ Stopped id txs s'.world)
      (Transaction.signSecond setup payload : Action F K) s := by
  subst hid
  have heffect : ∀ now, wp (Server.Database.handle enclave)
      (SecondEffect s.world payload.statechainId payload.serverPubNonce)
      (Server.Sign.signSecond enclave.params payload) { s.world with now := now } :=
    fun now => wp_mono (fun _ _ heff => ⟨heff.data, heff.rows⟩) (signSecond_effect _)
  refine attempts_ask_bind (Transaction.Call.signSecond payload) _ (fun chance => ?_)
  refine attempts_answered chance heffect ⟨⟨rfl, rfl⟩, .inr ⟨done, [row], h⟩⟩ (fun answer w' heff => ?_)
  rw [hnonce] at heff
  have herr : SameFiles s { s with world := w' } ∧ Stopped payload.statechainId txs w' := by
    refine ⟨SameFiles.world s w', ?_⟩
    obtain ⟨hrows, hcount, -⟩ | ⟨challenge, hrows, -⟩ := heff.rows
    · exact .inr ⟨done, [row], h.congr heff.data hrows hcount⟩
    · have hlt := h.completed_lt hrows
      rw [h.length_done] at hlt
      exact .inl hlt
  refine ⟨herr, attempts_bind (attempts_lift herr (fun response hresponse => ?_))⟩
  refine attempts_bind (attempts_lift herr (fun sig hsig => ?_))
  refine attempts_lift herr (fun _ _ => ⟨herr.1, ?_⟩)
  have hnamed : namedIn "partial_sig" answer = some sig := by
    rw [orThrow_eq_ok.mp hresponse]
    exact orThrow_eq_ok.mp hsig
  obtain ⟨-, -, hnone⟩ | ⟨challenge, hrows, hcount⟩ := heff.rows
  · rw [hnamed] at hnone
    cases hnone
  · exact ⟨_, fun backupTx hmark => h.finish heff.data hrows (hcount sig hnamed) hmark⟩

end Signing

section Send

variable {n : ℕ} {E F : Type} [AddCommGroup E] [Module (ZMod n) E] [DecidableEq E]
  {enclave : Keyring n E} {batchTimeout : ℕ} {id : String} {s : State E} {K : Type} {setup : Setup (Point E) K F}
  {txs : List BackupTx} {done pending : List SignatureData} {coin : Coin}

theorem attempts_blockHeightOr (blockHeight : Option UInt32) :
    Attempts (System.handle enclave batchTimeout) (fun _ s' => s' = s) (fun s' => s' = s)
      (blockHeightOr blockHeight : Action F UInt32) s := by
  cases blockHeight with
  | some height => exact attempts_pure rfl
  | none =>
    exact attempts_mono (fun _ _ h => h.1) (fun _ h => h)
      (attempts_of_yields_still yields_currentBlockheight handle_consults)

theorem attempts_createAndCommitNonces (hid : coin.statechainId = some id) :
    Attempts (System.handle enclave batchTimeout)
      (fun coinNonce s' => s' = s ∧ ∃ signedStatechainId, coinNonce.signFirstRequestPayload = ⟨id, signedStatechainId⟩)
      (fun s' => s' = s) (createAndCommitNonces setup coin) s := by
  refine attempts_ask_bind Transaction.Call.drawNonce _ (fun chance => ?_)
  refine attempts_lift rfl (fun coinNonce h => ⟨rfl, ?_⟩)
  obtain ⟨clientSeckey, -, h⟩ := bind_eq_ok.mp h
  obtain ⟨clientPubkey, -, h⟩ := bind_eq_ok.mp h
  obtain ⟨noncePair, -, h⟩ := bind_eq_ok.mp h
  obtain ⟨statechainId, hstatechainId, h⟩ := bind_eq_ok.mp h
  obtain ⟨signedStatechainId, -, h⟩ := bind_eq_ok.mp h
  cases Option.some.inj (hid.symm.trans (unwrap_eq_ok.mp hstatechainId))
  cases Except.ok.inj h
  exact ⟨signedStatechainId, rfl⟩

theorem attempts_infoConfig :
    Attempts (System.handle enclave batchTimeout) (fun _ s' => s' = s) (fun s' => s' = s)
      (infoConfig : Action F (InfoConfig F)) s := by
  refine attempts_ask_bind Transaction.Call.infoConfig _ (fun chance => ?_)
  exact attempts_lift rfl (fun _ _ => rfl)

/-- The coin with what signing and sending change about it. -/
def Alike (coin coin' : Coin) : Prop :=
  coin'.utxoTxid = coin.utxoTxid ∧ coin'.utxoVout = coin.utxoVout ∧ coin'.statechainId = coin.statechainId

def Emitted (btc : Bitcoin) (coin : Coin) (backupTx : BackupTx) : Prop :=
  ∃ outpoint, HasOutPoint coin outpoint ∧ getPreviousOutpoint btc backupTx = .ok outpoint

theorem toUInt32_succ (k : ℕ) : (k + 1).toUInt32 = k.toUInt32 + 1 := by
  simp [Nat.toUInt32_eq, UInt32.ofNat_add]

/-- What a turn of the loop does for a coin: its stored transactions are found, and further ones made. -/
structure Turned (btc : Bitcoin) (backupTransactions : List BackupTx) (coin : Coin × ℕ) (backup : CoinBackup) : Prop where
  place : backup.place = coin.2
  alike : Alike coin.1 backup.coin
  status : backup.coin.status = .inTransfer
  stored : filteredTransactions btc coin.1 backupTransactions = .ok backup.stored
  created : backup.created ≠ []
  emitted : ∀ backupTx ∈ backup.created, Emitted btc coin.1 backupTx

variable (setup id txs coin s) in
/-- The coin has got a nonce under which the server has signed once more, a transaction that spends its output. -/
def Signed (r : Coin × String) (s' : State E) : Prop :=
  SameFiles s s' ∧
    (∃ coinNonce nonce, r.1 = withNonces coin coinNonce nonce ∧
      ∃ done', ∀ backupTx, mark backupTx = (nonce, (txs.length + 1).toUInt32) →
        Level id s'.world (txs ++ [backupTx]) done' []) ∧
    ∃ outpoint lockTime, HasOutPoint coin outpoint ∧ Built setup.btc outpoint lockTime r.2

variable [Mul F] [NatCast F] [LT F] [DecidableLT F] (hcodec : ∀ tx, setup.btc.deserialize (setup.btc.serialize tx) = .ok tx)

include hcodec

section

variable (h : Level id s.world txs done pending) (hlt : txs.length + 1 < 2 ^ 32) (hid : coin.statechainId = some id)

include h hlt hid

omit [LT F] [DecidableLT F] in
/-- A new transaction is one more signature of the server, under the nonce that the coin gets. -/
theorem attempts_newTransaction (toAddress : String) (qtBackupTx : UInt32) (withdrawal : Option (ℕ × ℕ)) (blockHeight : Option UInt32)
    (network : String) (feeRate : F) (initlock interval : UInt32) :
    Attempts (System.handle enclave batchTimeout)
      (Signed id s setup txs coin)
      (fun s' => SameFiles s s' ∧ Stopped id txs s'.world)
      (newTransaction setup coin toAddress qtBackupTx withdrawal blockHeight network feeRate initlock interval) s := by
  refine attempts_bind (attempts_mono (fun coinNonce s' hs' => ?_) ?_ (attempts_createAndCommitNonces hid))
  swap
  · rintro s' rfl
    exact ⟨⟨rfl, rfl⟩, .inr ⟨done, pending, h⟩⟩
  obtain ⟨hs', signedStatechainId, hpayload⟩ := hs'
  rw [hs', hpayload]
  refine attempts_bind (attempts_mono (fun nonce s1 hs1 => ?_) ?_ (attempts_signFirst h hlt signedStatechainId))
  swap
  · exact fun s1 hs1 => ⟨hs1.1, .inr ⟨done, hs1.2⟩⟩
  obtain ⟨hfiles1, row, hlevel1, hnonce⟩ := hs1
  have herr1 : SameFiles s s1 ∧ Stopped id txs s1.world := ⟨hfiles1, .inr ⟨done, [row], hlevel1⟩⟩
  refine attempts_bind (attempts_mono (fun height s2 hs2 => ?_) ?_ (attempts_blockHeightOr blockHeight))
  swap
  · rintro s2 rfl
    exact herr1
  rw [hs2]
  refine attempts_bind (attempts_lift herr1 (fun request hrequest => ?_))
  obtain ⟨-, hrequestId, hrequestNonce⟩ := request_of_getPartialSigRequest hrequest
  have hrequestId : request.partialSignatureRequestPayload.statechainId = id :=
    Option.some.inj (hrequestId.symm.trans hid)
  have hrequestNonce : request.partialSignatureRequestPayload.serverPubNonce = row.serverPubnonce :=
    (Option.some.inj hrequestNonce).symm.trans hnonce.symm
  refine attempts_bind (attempts_mono (fun serverPartialSig s3 hs3 => ?_) ?_
    (attempts_signSecond setup hlevel1 hrequestId hrequestNonce))
  swap
  · exact fun s3 hs3 => ⟨hfiles1.trans hs3.1, hs3.2⟩
  obtain ⟨hfiles3, done', hlevel3⟩ := hs3
  have hmarks : ∀ backupTx, mark backupTx = (nonce, (txs.length + 1).toUInt32) →
      Level id s3.world (txs ++ [backupTx]) done' [] := by
    intro backupTx hmark
    apply hlevel3 backupTx
    rw [hmark, rowMark, hnonce, hlevel1.txN_pending]
  have herr3 : SameFiles s s3 ∧ Stopped id txs s3.world :=
    ⟨hfiles1.trans hfiles3, stopped_of_next hmarks⟩
  refine attempts_bind (attempts_lift herr3 (fun signature _ => ?_))
  refine attempts_bind (attempts_lift herr3 (fun signedTx hsigned => ?_))
  obtain ⟨outpoint, houtpoint, hbuilt⟩ := built_of_request hcodec hrequest hsigned
  exact attempts_pure ⟨herr3.1, ⟨coinNonce, nonce, rfl, done', hmarks⟩, outpoint, _, houtpoint, hbuilt⟩

theorem attempts_createTx1 (network : String) :
    Attempts (System.handle enclave batchTimeout)
      (fun r s' => SameFiles s s' ∧ Alike coin r.1 ∧ Emitted setup.btc coin r.2 ∧
        ∃ done', Level id s'.world (txs ++ [r.2]) done' [])
      (fun s' => SameFiles s s' ∧ Stopped id txs s'.world)
      (createTx1 setup coin network (txs.length + 1).toUInt32) s := by
  have herr : SameFiles s s ∧ Stopped id txs s.world := ⟨⟨rfl, rfl⟩, .inr ⟨done, pending, h⟩⟩
  refine attempts_bind (attempts_lift herr (fun toAddress _ => ?_))
  refine attempts_bind (attempts_mono (fun info s1 hs1 => ?_) ?_ attempts_infoConfig)
  swap
  · rintro s1 rfl
    exact herr
  rw [hs1]
  refine attempts_bind (attempts_mono (fun r s2 hs2 => ?_) (fun _ h => h)
    (attempts_newTransaction hcodec h hlt hid _ _ _ _ _ _ _ _))
  obtain ⟨hfiles, ⟨coinNonce, nonce, hcoin, done', hnext⟩, outpoint, lockTime, houtpoint, hbuilt⟩ := hs2
  have herr2 : SameFiles s s2 ∧ Stopped id txs s2.world := ⟨hfiles, stopped_of_next hnext⟩
  refine attempts_bind (attempts_lift herr2 (fun _ _ => ?_))
  refine attempts_bind (attempts_lift herr2 (fun _ _ => ?_))
  refine attempts_bind (attempts_lift herr2 (fun _ _ => ?_))
  refine attempts_bind (attempts_lift herr2 (fun backupTx hbackupTx => ?_))
  refine attempts_bind (attempts_lift herr2 (fun blockHeight _ => ?_))
  obtain ⟨htx, htxN, hnonce⟩ := backupTxOf_eq_ok hbackupTx
  rw [hcoin] at hnonce
  refine attempts_pure ⟨hfiles, ?_, ⟨outpoint, houtpoint, ?_⟩, done', hnext backupTx ?_⟩
  · rw [hcoin]
    exact ⟨rfl, rfl, rfl⟩
  · rw [← htx] at hbuilt
    exact getPreviousOutpoint_of_built hcodec hbuilt
  · rw [mark, htxN, ← Option.some.inj hnonce]

theorem attempts_createBackupTxToReceiver (bkpTx1 : BackupTx) (recipientAddress : String) (qtBackupTx : UInt32)
    (network : String) :
    Attempts (System.handle enclave batchTimeout)
      (Signed id s setup txs coin)
      (fun s' => SameFiles s s' ∧ Stopped id txs s'.world)
      (createBackupTxToReceiver setup coin bkpTx1 recipientAddress qtBackupTx network) s := by
  have herr : SameFiles s s ∧ Stopped id txs s.world := ⟨⟨rfl, rfl⟩, .inr ⟨done, pending, h⟩⟩
  refine attempts_bind (attempts_lift herr (fun blockHeight _ => ?_))
  refine attempts_bind (attempts_mono (fun info s1 hs1 => ?_) ?_ attempts_infoConfig)
  swap
  · rintro s1 rfl
    exact herr
  rw [hs1]
  exact attempts_newTransaction hcodec h hlt hid _ _ _ _ _ _ _ _

theorem attempts_firstBackupTx (stored : List BackupTx) (network : String) :
    Attempts (System.handle enclave batchTimeout)
      (fun r s' => SameFiles s s' ∧ Alike coin r.1 ∧ (∀ backupTx ∈ r.2.1, Emitted setup.btc coin backupTx) ∧
        r.2.1.length ≤ 1 ∧ r.2.2 = (txs ++ r.2.1).length.toUInt32 ∧
        ∃ done' pending', Level id s'.world (txs ++ r.2.1) done' pending')
      (fun s' => SameFiles s s' ∧ Stopped id txs s'.world)
      (firstBackupTx setup stored coin network txs.length.toUInt32) s := by
  unfold firstBackupTx
  by_cases hstored : stored = []
  · rw [if_pos hstored, ← toUInt32_succ]
    refine attempts_bind (attempts_mono (fun r s1 hs1 => ?_) (fun _ h => h)
      (attempts_createTx1 hcodec h hlt hid network))
    obtain ⟨hfiles, halike, hemitted, done', hlevel⟩ := hs1
    refine attempts_pure ⟨hfiles, halike, ?_, Nat.le_refl 1, ?_, done', [], hlevel⟩
    · intro backupTx hbackupTx
      rw [List.mem_singleton.mp hbackupTx]
      exact hemitted
    · rw [List.length_append, List.length_singleton]
  · rw [if_neg hstored]
    refine attempts_pure ⟨⟨rfl, rfl⟩, ⟨rfl, rfl, rfl⟩, nofun, Nat.zero_le 1, ?_, done, pending, ?_⟩
    · rw [List.append_nil]
    · rw [List.append_nil]
      exact h

end

theorem attempts_backUpCoin (h : Level id s.world txs done pending) (hlt : txs.length + 2 < 2 ^ 32) (hid : coin.statechainId = some id)
    (backupTransactions : List BackupTx) (recipientAddress network : String) (place : ℕ) :
    Attempts (System.handle enclave batchTimeout)
      (fun r s' => SameFiles s s' ∧ Turned setup.btc backupTransactions (coin, place) r.1 ∧
        r.1.created.length ≤ 2 ∧ r.2 = (txs ++ r.1.created).length.toUInt32 ∧
        ∃ done', Level id s'.world (txs ++ r.1.created) done' [])
      (fun s' => SameFiles s s' ∧ Stopped id txs s'.world)
      (backUpCoin setup backupTransactions recipientAddress network coin place txs.length.toUInt32) s := by
  have herr : SameFiles s s ∧ Stopped id txs s.world := ⟨⟨rfl, rfl⟩, .inr ⟨done, pending, h⟩⟩
  refine attempts_bind (attempts_lift herr (fun stored hstored => ?_))
  refine attempts_bind (attempts_mono (fun r s1 hs1 => ?_) (fun _ h => h)
    (attempts_firstBackupTx hcodec h (by omega) hid stored network))
  obtain ⟨coin1, first, newTxN⟩ := r
  obtain ⟨hfiles1, halike1, hemitted1, hlength1, hnewTxN, done1, pending1, hlevel1⟩ := hs1
  dsimp only at halike1 hemitted1 hlength1 hnewTxN hlevel1 ⊢
  refine attempts_bind (attempts_lift ⟨hfiles1, Stopped.of_append (.inr ⟨done1, pending1, hlevel1⟩)⟩
    (fun bkpTx1 _ => ?_))
  have hlt1 : (txs ++ first).length + 1 < 2 ^ 32 := by
    rw [List.length_append]
    omega
  refine attempts_bind (attempts_mono (fun r s2 hs2 => ?_) (fun s2 hs2 => ⟨hfiles1.trans hs2.1, hs2.2.of_append⟩)
    (attempts_createBackupTxToReceiver hcodec hlevel1 hlt1 (halike1.2.2.trans hid) _ _ _ _))
  obtain ⟨coin2, signedTx⟩ := r
  obtain ⟨hfiles2, ⟨coinNonce, nonce, hcoin, done2, hnext⟩, outpoint, lockTime, houtpoint, hbuilt⟩ := hs2
  dsimp only at hcoin hbuilt ⊢
  have hfiles := hfiles1.trans hfiles2
  refine attempts_bind (attempts_lift ⟨hfiles, (stopped_of_next hnext).of_append⟩ (fun backupTx hbackupTx => ?_))
  obtain ⟨htx, htxN, hnonce⟩ := backupTxOf_eq_ok hbackupTx
  rw [hcoin] at hnonce
  have hlevel2 := hnext backupTx (by rw [mark, htxN, hnewTxN, toUInt32_succ, ← Option.some.inj hnonce])
  rw [List.append_assoc] at hlevel2
  refine attempts_pure ⟨hfiles, ⟨rfl, ?_, rfl, hstored, ?_, ?_⟩, ?_, ?_, done2, hlevel2⟩
  · rw [hcoin]
    exact halike1
  · exact List.append_ne_nil_of_right_ne_nil _ (List.cons_ne_nil _ _)
  · intro tx htx'
    obtain hfirst | hlast := List.mem_append.mp htx'
    · exact hemitted1 tx hfirst
    · rw [List.mem_singleton.mp hlast]
      rw [← htx] at hbuilt
      refine ⟨outpoint, ?_, getPreviousOutpoint_of_built hcodec hbuilt⟩
      rw [HasOutPoint, halike1.1, halike1.2.1] at houtpoint
      exact houtpoint
  · rw [List.length_append, List.length_singleton]
    omega
  · rw [hnewTxN, ← toUInt32_succ, List.length_append, List.length_append, List.length_append, List.length_singleton,
      Nat.add_assoc]

theorem attempts_backUpCoins (coins : List (Coin × ℕ)) (hids : ∀ coin ∈ coins, coin.1.statechainId = some id)
    (h : Level id s.world txs done pending) (hlt : txs.length + 2 * coins.length < 2 ^ 32)
    (backupTransactions : List BackupTx) (recipientAddress network : String) :
    Attempts (System.handle enclave batchTimeout)
      (fun backups s' => SameFiles s s' ∧ List.Forall₂ (Turned setup.btc backupTransactions) coins backups ∧
        ∃ done' pending', Level id s'.world (txs ++ backups.flatMap CoinBackup.created) done' pending')
      (fun s' => SameFiles s s' ∧ Stopped id txs s'.world)
      (backUpCoins setup backupTransactions recipientAddress network coins txs.length.toUInt32) s := by
  induction coins generalizing s txs done pending with
  | nil =>
    refine attempts_pure ⟨⟨rfl, rfl⟩, List.Forall₂.nil, done, pending, ?_⟩
    rw [List.flatMap_nil, List.append_nil]
    exact h
  | cons coin coins ih =>
    rw [List.length_cons] at hlt
    refine attempts_bind (attempts_mono (fun r s1 hs1 => ?_) (fun _ h => h)
      (attempts_backUpCoin hcodec h (by omega) (hids coin List.mem_cons_self) _ _ _ coin.2))
    obtain ⟨backup, newTxN⟩ := r
    obtain ⟨hfiles1, hturned, hlength, hnewTxN, done1, hlevel1⟩ := hs1
    dsimp only at hturned hlength hnewTxN hlevel1 ⊢
    rw [hnewTxN]
    refine attempts_bind (attempts_mono (fun backups s2 hs2 => ?_)
      (fun s2 hs2 => ⟨hfiles1.trans hs2.1, hs2.2.of_append⟩)
      (ih (fun coin hcoin => hids coin (List.mem_cons_of_mem _ hcoin)) hlevel1 ?_))
    · obtain ⟨hfiles2, hturns, done2, pending2, hlevel2⟩ := hs2
      refine attempts_pure ⟨hfiles1.trans hfiles2, List.Forall₂.cons hturned hturns, done2, pending2, ?_⟩
      rw [List.flatMap_cons, ← List.append_assoc]
      exact hlevel2
    · rw [List.length_append]
      omega

end Send

section Covers

variable {btc : Bitcoin} {id : String} {coins coins' : List Coin} {stored : List BackupTx}

/-- Not both of the coins can be sent and stand for the same output. -/
def Apart (a b : Coin) : Prop :=
  isTransferable a.status = true → isTransferable b.status = true →
    ∀ outpoint, HasOutPoint a outpoint → ¬HasOutPoint b outpoint

variable (btc id coins stored) in
/-- Every stored transaction spends the output of a coin of the statechain that can be sent, and no two
coins that can be sent stand for the same output. -/
structure Covers : Prop where
  owned : ∀ backupTx ∈ stored, ∃ coin ∈ coins,
    isTransferable coin.status = true ∧ coin.statechainId = some id ∧ Emitted btc coin backupTx
  apart : coins.Pairwise Apart

/-- What `Covers` depends on in a coin. -/
def holding (coin : Coin) : Option String × Option UInt32 × Option String × Bool :=
  (coin.utxoTxid, coin.utxoVout, coin.statechainId, isTransferable coin.status)

theorem emitted_congr {coin coin' : Coin} {backupTx : BackupTx} (h : Emitted btc coin backupTx)
    (htxid : coin'.utxoTxid = coin.utxoTxid) (hvout : coin'.utxoVout = coin.utxoVout) :
    Emitted btc coin' backupTx := by
  obtain ⟨outpoint, houtpoint, hprevious⟩ := h
  exact ⟨outpoint, ⟨htxid.trans houtpoint.1, hvout.trans houtpoint.2⟩, hprevious⟩

theorem Covers.congr (h : Covers btc id coins stored) (hcoins : coins'.map holding = coins.map holding) :
    Covers btc id coins' stored where
  owned := by
    intro backupTx hbackupTx
    obtain ⟨coin, hcoin, htransferable, hid, hemitted⟩ := h.owned backupTx hbackupTx
    have hmem : holding coin ∈ coins'.map holding := by
      rw [hcoins]
      exact List.mem_map_of_mem hcoin
    obtain ⟨coin', hcoin', heq⟩ := List.mem_map.mp hmem
    simp only [holding, Prod.mk.injEq] at heq
    obtain ⟨htxid, hvout, hid', htransferable'⟩ := heq
    exact ⟨coin', hcoin', htransferable'.trans htransferable, hid'.trans hid, emitted_congr hemitted htxid hvout⟩
  apart := by
    have hmap : ∀ coins : List Coin, coins.Pairwise Apart ↔
        (coins.map holding).Pairwise (fun a b => a.2.2.2 = true → b.2.2.2 = true →
          ∀ outpoint : OutPoint, a.1 = some outpoint.txid ∧ a.2.1 = some outpoint.vout →
            ¬(b.1 = some outpoint.txid ∧ b.2.1 = some outpoint.vout)) := by
      intro coins
      rw [List.pairwise_map]
      rfl
    rw [hmap, hcoins, ← hmap]
    exact h.apart

theorem Covers.unique (h : Covers btc id coins stored) {a b : Coin} {outpoint : OutPoint} (ha : a ∈ coins)
    (hb : b ∈ coins) (hta : isTransferable a.status = true) (htb : isTransferable b.status = true)
    (hoa : HasOutPoint a outpoint) (hob : HasOutPoint b outpoint) : a = b := by
  by_contra hne
  have hsymm : Std.Symm Apart :=
    ⟨fun a b hab htb hta outpoint hob hoa => hab hta htb outpoint hoa hob⟩
  exact h.apart.forall ha hb hne hta htb outpoint hoa hob

theorem spends_iff {coin : Coin} {outpoint : OutPoint} : spends coin outpoint = true ↔ HasOutPoint coin outpoint := by
  rw [spends, Bool.and_eq_true, beq_iff_eq, beq_iff_eq, HasOutPoint]

/-- Whether the transaction spends the coin's output, if it can be read. -/
def backs (btc : Bitcoin) (coin : Coin) (backupTx : BackupTx) : Bool :=
  match getPreviousOutpoint btc backupTx with
  | .ok outpoint => spends coin outpoint
  | .error _ => false

theorem backs_iff {coin : Coin} {backupTx : BackupTx} :
    backs btc coin backupTx = true ↔ Emitted btc coin backupTx := by
  unfold backs Emitted
  cases getPreviousOutpoint btc backupTx with
  | error failure => simp
  | ok outpoint => simp [spends_iff]

theorem Covers.backsUp_eq (h : Covers btc id coins stored) (coin : Coin) :
    ∀ backupTx ∈ stored, backsUp btc coin backupTx = .ok (backs btc coin backupTx) := by
  intro backupTx hbackupTx
  obtain ⟨coin', -, -, -, outpoint, -, hprevious⟩ := h.owned backupTx hbackupTx
  simp only [backsUp, backs, hprevious, handled, ok_bind]
  rfl

theorem Covers.filteredTransactions_perm (h : Covers btc id coins stored) {coin : Coin} {filtered : List BackupTx}
    (hfiltered : filteredTransactions btc coin stored = .ok filtered) :
    filtered.Perm (stored.filter (backs btc coin)) := by
  rw [filteredTransactions, filterM_eq_ok (h.backsUp_eq coin), ok_bind, pure_eq_ok] at hfiltered
  rw [← hfiltered]
  exact sortByTxN_perm _

theorem Covers.hasMatchingTx_eq (h : Covers btc id coins stored) (coin : Coin) :
    hasMatchingTx btc coin stored =
      .ok (stored.any (fun backupTx => backs btc coin backupTx && isTransferable coin.status)) := by
  apply anyM_eq_ok
  intro backupTx hbackupTx
  rw [h.backsUp_eq coin backupTx hbackupTx]
  rfl

theorem transferable_of_coinToAdd {coin : Coin} {duplicatedIndexes : Option (List UInt32)}
    (h : coinToAdd coin id duplicatedIndexes = true) :
    isTransferable coin.status = true ∧ coin.statechainId = some id := by
  cases duplicatedIndexes with
  | none => cases h
  | some indexes =>
    simp only [coinToAdd, Bool.and_eq_true, Bool.or_eq_true, beq_iff_eq] at h
    obtain ⟨hid, (hstatus | hstatus) | ⟨hstatus, -⟩⟩ := h
    · exact ⟨by rw [hstatus]; rfl, hid⟩
    · exact ⟨by rw [hstatus]; rfl, hid⟩
    · exact ⟨by rw [hstatus]; rfl, hid⟩

theorem Covers.of_sent (h : Covers btc id coins stored) {coin : Coin} {duplicatedIndexes : Option (List UInt32)}
    (hcoin : coin ∈ coins) (hsent : Sent btc stored id duplicatedIndexes coin) :
    isTransferable coin.status = true ∧ coin.statechainId = some id := by
  obtain hmatching | hadd := hsent
  · rw [h.hasMatchingTx_eq, Except.ok.injEq, List.any_eq_true] at hmatching
    obtain ⟨backupTx, hbackupTx, hboth⟩ := hmatching
    rw [Bool.and_eq_true, backs_iff] at hboth
    obtain ⟨⟨outpoint, houtpoint, hprevious⟩, htransferable⟩ := hboth
    obtain ⟨coin', hcoin', htransferable', hid', outpoint', houtpoint', hprevious'⟩ := h.owned backupTx hbackupTx
    cases hprevious.symm.trans hprevious'
    rw [h.unique hcoin hcoin' htransferable htransferable' houtpoint houtpoint']
    exact ⟨htransferable', hid'⟩
  · exact transferable_of_coinToAdd hadd

theorem Covers.length_takers (h : Covers btc id coins stored) {duplicatedIndexes : Option (List UInt32)}
    {selected : List (Coin × ℕ)} (hsub : selected.Sublist coins.zipIdx)
    (hselected : ∀ coin, coin ∈ selected ↔ coin ∈ coins.zipIdx ∧ Sent btc stored id duplicatedIndexes coin.1) :
    ∀ backupTx ∈ stored, (selected.filter (fun coin => backs btc coin.1 backupTx)).length = 1 := by
  intro backupTx hbackupTx
  apply Library.Grouping.length_filter_eq_one
  · have hpair : selected.Pairwise (fun a b => Apart a.1 b.1) := by
      have hmap : (selected.map Prod.fst).Sublist coins := by
        have hfst := hsub.map Prod.fst
        rwa [List.zipIdx_map_fst] at hfst
      exact List.pairwise_map.mp (h.apart.sublist hmap)
    refine hpair.imp_of_mem (fun {a b} ha hb hab hbacks hbacks' => ?_)
    obtain ⟨outpoint, houtpoint, hprevious⟩ := backs_iff.mp hbacks
    obtain ⟨outpoint', houtpoint', hprevious'⟩ := backs_iff.mp hbacks'
    cases hprevious.symm.trans hprevious'
    have hstatus : ∀ coin ∈ selected, isTransferable coin.1.status = true := by
      intro coin hcoin
      obtain ⟨hzip, hsent⟩ := (hselected coin).mp hcoin
      exact (h.of_sent (List.mem_of_getElem? (List.mem_zipIdx_iff_getElem?.mp hzip)) hsent).1
    exact hab (hstatus a ha) (hstatus b hb) outpoint houtpoint houtpoint'
  · obtain ⟨coin, hcoin, htransferable, -, hemitted⟩ := h.owned backupTx hbackupTx
    obtain ⟨place, hplace⟩ := List.mem_iff_getElem?.mp hcoin
    refine ⟨(coin, place), (hselected _).mpr ⟨List.mem_zipIdx_iff_getElem?.mpr hplace, .inl ?_⟩, backs_iff.mpr hemitted⟩
    rw [h.hasMatchingTx_eq, Except.ok.injEq, List.any_eq_true]
    refine ⟨backupTx, hbackupTx, ?_⟩
    rw [Bool.and_eq_true]
    exact ⟨backs_iff.mpr hemitted, htransferable⟩

theorem map_holding_storeCoins {backups : List CoinBackup}
    (h : ∀ backup ∈ backups, (coins.map holding)[backup.place]? = some (holding backup.coin)) :
    (storeCoins coins backups).map holding = coins.map holding := by
  induction backups generalizing coins with
  | nil => rfl
  | cons backup backups ih =>
    obtain ⟨hfirst, hrest⟩ := List.forall_mem_cons.mp h
    have hset : (coins.set backup.place backup.coin).map holding = coins.map holding := by
      rw [List.map_set]
      obtain ⟨hlt, heq⟩ := List.getElem?_eq_some_iff.mp hfirst
      rw [← heq]
      exact List.set_getElem_self hlt
    have hrest' : ∀ backup' ∈ backups, ((coins.set backup.place backup.coin).map holding)[backup'.place]? =
        some (holding backup'.coin) := by
      rw [hset]
      exact hrest
    exact (ih hrest').trans hset

theorem collect_foldl_perm (backups : List CoinBackup) (txs : List BackupTx) :
    (backups.foldl (fun txs backup =>
      if backup.coin.duplicateIndex = 0 then backup.stored ++ backup.created ++ txs
      else txs ++ (backup.stored ++ backup.created)) txs).Perm
      (txs ++ backups.flatMap (fun backup => backup.stored ++ backup.created)) := by
  induction backups generalizing txs with
  | nil =>
    rw [List.flatMap_nil, List.append_nil]
    exact List.Perm.refl _
  | cons backup backups ih =>
    rw [List.foldl_cons, List.flatMap_cons]
    refine (ih _).trans ?_
    rw [← List.append_assoc txs (backup.stored ++ backup.created)]
    apply List.Perm.append_right
    split_ifs
    · exact List.perm_append_comm
    · exact List.Perm.refl _

/-- The list that is sent: the stored transactions of the coins, and those made for them. -/
theorem collect_perm (backups : List CoinBackup) :
    (sortByTxN (collect backups)).Perm
      (backups.flatMap CoinBackup.stored ++ backups.flatMap CoinBackup.created) := by
  refine (sortByTxN_perm _).trans ((collect_foldl_perm backups []).trans ?_)
  exact (List.flatMap_append_perm backups _ _).symm

theorem Covers.stored_perm (h : Covers btc id coins stored) {selected : List (Coin × ℕ)} {backups : List CoinBackup}
    (htakers : ∀ backupTx ∈ stored, (selected.filter (fun coin => backs btc coin.1 backupTx)).length = 1)
    (hturns : List.Forall₂ (Turned btc stored) selected backups) :
    (backups.flatMap CoinBackup.stored).Perm stored := by
  have hshare : (backups.flatMap CoinBackup.stored).Perm
      (selected.flatMap (fun coin => stored.filter (backs btc coin.1))) := by
    clear htakers
    induction hturns with
    | nil => exact List.Perm.refl _
    | cons hturn _ ih =>
      rw [List.flatMap_cons, List.flatMap_cons]
      exact (h.filteredTransactions_perm hturn.stored).append ih
  exact hshare.trans (Library.Grouping.flatMap_filter_perm htakers)

end Covers

section Execute

variable {n : ℕ} {E F : Type} [AddCommGroup E] [Module (ZMod n) E] [DecidableEq E]
  {enclave : Keyring n E} {batchTimeout : ℕ} {id : String} {s : State E} {K : Type} {setup : Setup (Point E) K F}
  {stored : List BackupTx} {done pending : List SignatureData} {wallet : Wallet}

theorem attempts_getBackupTxs (walletName : String) :
    Attempts (System.handle enclave batchTimeout)
      (fun txs s' => s' = s ∧ s.files.storedTxs walletName id = some txs) (fun s' => s' = s)
      (TransferSender.getBackupTxs walletName id : Action F (List BackupTx)) s := by
  refine attempts_ask_bind (Transaction.Call.getBackupTxs walletName id) _ (fun chance => ?_)
  refine attempts_lift rfl (fun txs htxs => ⟨rfl, ?_⟩)
  exact selectRow_eq_ok (anyhow_eq_ok.mp htxs)

variable [Mul F] [NatCast F] [LT F] [DecidableLT F]

/-- What `create_backup_transactions` returns is all that the server has signed, and is covered by the
wallet as it was and as it becomes. -/
theorem attempts_createBackupTransactions
    (hcodec : ∀ tx, setup.btc.deserialize (setup.btc.serialize tx) = .ok tx)
    (hstored : s.files.storedTxs wallet.name id = some stored) (hcovers : Covers setup.btc id wallet.coins stored)
    (h : Level id s.world stored done pending) (hlt : stored.length + 2 * wallet.coins.length < 2 ^ 32)
    (recipientAddress : String) (duplicatedIndexes : Option (List UInt32)) :
    Attempts (System.handle enclave batchTimeout)
      (fun r s' => SameFiles s s' ∧ r.1.name = wallet.name ∧ r.1.coins.map holding = wallet.coins.map holding ∧
        Covers setup.btc id wallet.coins r.2 ∧ stored.length < r.2.length ∧
        ∃ done' pending', Level id s'.world r.2 done' pending')
      (fun s' => SameFiles s s' ∧ Stopped id stored s'.world)
      (createBackupTransactions setup recipientAddress wallet id duplicatedIndexes) s := by
  have herr : ∀ s', s' = s → SameFiles s s' ∧ Stopped id stored s'.world := by
    rintro s' rfl
    exact ⟨⟨rfl, rfl⟩, .inr ⟨done, pending, h⟩⟩
  have hread : ∀ {txs : List BackupTx}, s.files.storedTxs wallet.name id = some txs → txs = stored := by
    intro txs htxs
    exact Option.some.inj (htxs.symm.trans hstored)
  refine attempts_bind (attempts_bind (attempts_bind (attempts_lift (herr s rfl) (fun _ _ => ?_))))
  refine attempts_bind (attempts_mono (fun txs s' hs' => ?_) herr (attempts_getBackupTxs wallet.name))
  rw [hs'.1, hread hs'.2]
  refine attempts_bind (attempts_mono (fun selected s' hs' => ?_) herr
    (attempts_of_yields_still (yields_selectCoins _ _ _ _ _) handle_consults))
  obtain ⟨hs', hsub, hselected⟩ := hs'
  rw [hs']
  refine attempts_bind (attempts_lift (herr s rfl) (fun _ hmain => ?_))
  refine attempts_bind (attempts_mono (fun _ s' hs' => ?_) herr
    (attempts_forM (fun coin _ => attempts_mono (fun _ _ h => h.1) (fun _ h => h)
      (attempts_of_yields_still (yields_checkConfirmed setup coin.1) handle_consults))))
  rw [hs']
  refine attempts_pure ?_
  refine attempts_bind (attempts_mono (fun txs s' hs' => ?_) herr (attempts_getBackupTxs wallet.name))
  rw [hs'.1, hread hs'.2]
  have hperm : (sortConfirmedFirst selected).Perm selected := sortConfirmedFirst_perm selected
  have hmem : ∀ coin ∈ sortConfirmedFirst selected, coin.1 ∈ wallet.coins ∧
      wallet.coins[coin.2]? = some coin.1 ∧ Sent setup.btc stored id duplicatedIndexes coin.1 := by
    intro coin hcoin
    obtain ⟨hzip, hsent⟩ := (hselected coin).mp (hperm.mem_iff.mp hcoin)
    have hplace := List.mem_zipIdx_iff_getElem?.mp hzip
    exact ⟨List.mem_of_getElem? hplace, hplace, hsent⟩
  refine attempts_mono (fun backups s' hs' => ?_) (fun _ h => h) (attempts_backUpCoins hcodec _ ?_ h ?_ _ _ _)
  · obtain ⟨hfiles, hturns, done', pending', hlevel⟩ := hs'
    have htakers := hcovers.length_takers hsub hselected
    have hstoredPerm : (backups.flatMap CoinBackup.stored).Perm stored := by
      refine hcovers.stored_perm (fun backupTx hbackupTx => ?_) hturns
      rw [(hperm.filter _).length_eq]
      exact htakers backupTx hbackupTx
    have hresult := (collect_perm backups).trans (hstoredPerm.append_right _)
    refine attempts_pure ⟨hfiles, rfl, ?_, ?_, ?_, done', pending', hlevel.perm hresult⟩
    · apply map_holding_storeCoins
      intro backup hbackup
      obtain ⟨coin, hcoin, hturn⟩ := Library.Grouping.exists_mem_of_forall₂ hturns hbackup
      obtain ⟨hin, hplace, hsent⟩ := hmem coin hcoin
      rw [hturn.place, List.getElem?_map, hplace, Option.map_some]
      simp only [holding, hturn.alike.1, hturn.alike.2.1, hturn.alike.2.2, hturn.status, (hcovers.of_sent hin hsent).1]
      rfl
    · refine ⟨fun backupTx hbackupTx => ?_, hcovers.apart⟩
      obtain hold | hnew := List.mem_append.mp (hresult.mem_iff.mp hbackupTx)
      · exact hcovers.owned backupTx hold
      · obtain ⟨backup, hbackup, hcreated⟩ := List.mem_flatMap.mp hnew
        obtain ⟨coin, hcoin, hturn⟩ := Library.Grouping.exists_mem_of_forall₂ hturns hbackup
        obtain ⟨hin, -, hsent⟩ := hmem coin hcoin
        have hsendable := hcovers.of_sent hin hsent
        exact ⟨coin.1, hin, hsendable.1, hsendable.2, hturn.emitted backupTx hcreated⟩
    · rw [hresult.length_eq, List.length_append]
      have hcreated : backups.flatMap CoinBackup.created ≠ [] := by
        obtain ⟨coin, hcoin⟩ := List.exists_mem_of_ne_nil _ (ne_nil_of_checkMain hmain)
        obtain ⟨backup, hbackup, hturn⟩ := Library.Grouping.exists_mem_of_forall₂ hturns.flip hcoin
        intro hnil
        exact hturn.created (List.flatMap_eq_nil_iff.mp hnil backup hbackup)
      have hpos := List.length_pos_of_ne_nil hcreated
      omega
  · intro coin hcoin
    exact (hcovers.of_sent (hmem coin hcoin).1 (hmem coin hcoin).2.2).2
  · have hlength : (sortConfirmedFirst selected).length ≤ wallet.coins.length := by
      have hle := hsub.length_le
      rw [List.length_zipIdx] at hle
      exact hperm.length_eq ▸ hle
    omega

variable {name : String}

/-- The stored transactions are those that the server has signed, and the wallet covers them. -/
def Matched (setup : Setup (Point E) K F) (id name : String) (s : State E) : Prop :=
  ∃ wallet stored done pending, s.files.wallets.get name = some wallet ∧ s.files.storedTxs name id = some stored ∧
    Covers setup.btc id wallet.coins stored ∧ Level id s.world stored done pending

/-- The message that was uploaded last has all the transactions that the server has signed, under the
same nonces and numbers. -/
def Uploaded (setup : Setup (Point E) K F) (id recipientAddress : String) (s : State E) : Prop :=
  ∃ x1 coin transferSignature txs payload,
    createTransferUpdateMsg setup.secp setup.envelope x1 recipientAddress coin transferSignature txs = .ok payload ∧
    s.uploads.head? = some payload ∧ (txs.map mark).Perm ((completed id s.world).map rowMark) ∧
    ∃ data, s.world.db.data.get id = some data ∧ sigCountOf s.world data.enclaveIndex id = some txs.length

omit [Module (ZMod n) E] [DecidableEq E] in
theorem storedTxs_updateBackupTxs {files : Files} {txs : List BackupTx} (h : files.storedTxs name id = some stored) :
    (files.updateBackupTxs name id txs).storedTxs name id = some txs := by
  obtain ⟨row, hrow, -⟩ := Option.map_eq_some_iff.mp h
  rw [Files.storedTxs, Files.updateBackupTxs, Table.get_modify_self, hrow]
  rfl

omit [Module (ZMod n) E] [DecidableEq E] in
theorem get_updateWallet {files : Files} {wallet wallet' : Wallet} (h : files.wallets.get name = some wallet)
    (hname : wallet'.name = name) : (files.updateWallet wallet').wallets.get name = some wallet' := by
  subst hname
  have hkey : wallet.name = wallet'.name := (Table.get_eq_some.mp h).2
  rw [Files.updateWallet, Table.get_modify_self, h, Option.map_some, hkey]

omit [Mul F] [NatCast F] [LT F] [DecidableLT F] in
theorem attempts_getNewX1 (h : Level id s.world stored done pending) (statechainId signedStatechainId : String)
    (recipientAuthPubkey : String) (batchId : Option String) :
    Attempts (System.handle enclave batchTimeout)
      (fun _ s' => SameFiles s s' ∧ Level id s'.world stored done pending)
      (fun s' => SameFiles s s' ∧ Level id s'.world stored done pending)
      (getNewX1 statechainId signedStatechainId recipientAuthPubkey batchId : Action F String) s := by
  have hafter : ∀ chance : Chance n F, SameFiles s (request enclave chance s (Server.Transfer.transferSender
      enclave.params.secp batchTimeout ⟨statechainId, signedStatechainId, recipientAuthPubkey, batchId⟩)).2 ∧
      Level id (request enclave chance s (Server.Transfer.transferSender enclave.params.secp batchTimeout
        ⟨statechainId, signedStatechainId, recipientAuthPubkey, batchId⟩)).2.world stored done pending := by
    intro chance
    refine request_after chance (P := fun s' => SameFiles s s' ∧ Level id s'.world stored done pending)
      ⟨⟨rfl, rfl⟩, h⟩ (fun now => wp_mono (fun _ w' heff => ⟨SameFiles.world s w', ?_⟩) (transferSender_effect _))
    cases heff with
    | same hw =>
      rw [hw]
      exact h.congr rfl rfl (fun _ => rfl)
    | sent newUserAuthKey x1 batch hsigned hkey hbatch hadmitted hfresh hw =>
      rw [hw]
      exact h.congr rfl rfl (fun _ => rfl)
  refine attempts_ask_bind (Transaction.Call.transferSender
    ⟨statechainId, signedStatechainId, recipientAuthPubkey, batchId⟩) _ (fun chance => ?_)
  refine attempts_bind (attempts_lift (hafter chance) (fun response _ => ?_))
  refine attempts_bind (attempts_lift (hafter chance) (fun answer _ => ?_))
  refine attempts_bind (attempts_lift (hafter chance) (fun _ _ => ?_))
  exact attempts_lift (hafter chance) (fun _ _ => hafter chance)

variable {txs : List BackupTx} {wallet' : Wallet}

omit [Mul F] [NatCast F] [LT F] [DecidableLT F] in
theorem attempts_updateWallet (hwallet : s.files.wallets.get name = some wallet)
    (hstored : s.files.storedTxs name id = some txs) (hname : wallet'.name = name)
    (hholding : wallet'.coins.map holding = wallet.coins.map holding) (hcovers : Covers setup.btc id wallet.coins txs)
    (h : Level id s.world txs done pending) :
    Attempts (System.handle enclave batchTimeout)
      (fun _ s' => s'.uploads = s.uploads ∧ Level id s'.world txs done pending)
      (Matched setup id name)
      (do
        let stored : Except String Unit ← ask (Transaction.Call.updateWallet wallet' : Transaction.Call F)
        anyhow stored : Action F Unit) s := by
  have hmatched : Matched setup id name { s with files := s.files.updateWallet wallet' } :=
    ⟨wallet', txs, done, pending, get_updateWallet hwallet hname, hstored, hcovers.congr hholding, h⟩
  refine attempts_ask_bind (Transaction.Call.updateWallet wallet') _ (fun chance => ?_)
  have hhandle : System.handle enclave batchTimeout chance (.updateWallet wallet') s =
      updateRow chance.fault s { s with files := s.files.updateWallet wallet' } := rfl
  rw [hhandle]
  cases chance.fault with
  | failed text => exact attempts_lift ⟨wallet, txs, done, pending, hwallet, hstored, hcovers, h⟩ nofun
  | lost text => exact attempts_lift hmatched nofun
  | ok => exact attempts_lift hmatched (fun _ _ => ⟨rfl, h⟩)

omit [Mul F] [NatCast F] [LT F] [DecidableLT F] in
/-- The upload, and then the two writes: from the first of them on the file matches again. -/
theorem attempts_uploadAndStore (hwallet : s.files.wallets.get name = some wallet)
    (hstored : s.files.storedTxs name id = some stored) (hname : wallet'.name = name)
    (hholding : wallet'.coins.map holding = wallet.coins.map holding) (hcovers : Covers setup.btc id wallet.coins txs)
    (hlonger : stored.length < txs.length) (h : Level id s.world txs done pending)
    (payload : TransferUpdateMsgRequestPayload) (utxo : String) (amount : UInt32) :
    Attempts (System.handle enclave batchTimeout)
      (fun _ s' => s'.uploads.head? = some payload ∧ Level id s'.world txs done pending)
      (fun s' : State E => (s'.files = s.files ∧ Stopped id stored s'.world) ∨ Matched setup id name s')
      (uploadAndStore payload wallet' id utxo amount txs : Action F Unit) s := by
  have hstop : ∀ w : World E, Level id w txs done pending → Stopped id stored w := by
    intro w hlevel
    refine .inl ?_
    rw [hlevel.completed_eq, hlevel.length_done]
    exact hlonger
  have hafter : ∀ chance : Chance n F, (fun s' : State E => s'.files = s.files ∧
      s'.uploads = payload :: s.uploads ∧ Level id s'.world txs done pending)
        (request enclave chance { s with uploads := payload :: s.uploads }
          (Server.Transfer.transferUpdateMsg enclave.params.secp payload)).2 := by
    intro chance
    refine request_after chance (P := fun s' => s'.files = s.files ∧ s'.uploads = payload :: s.uploads ∧
        Level id s'.world txs done pending) ⟨rfl, rfl, h⟩
      (fun now => wp_mono (fun _ w' heff => ⟨rfl, rfl, ?_⟩) (transferUpdateMsg_effect _))
    cases heff with
    | same hw =>
      rw [hw]
      exact h.congr rfl rfl (fun _ => rfl)
    | updated newUserAuthKey encTransferMsg hsigned hkey hmsg hw =>
      rw [hw]
      exact h.congr rfl rfl (fun _ => rfl)
  refine attempts_ask_bind (Transaction.Call.transferUpdateMsg payload) _ (fun chance => ?_)
  obtain ⟨hfiles, huploads, hlevel⟩ := hafter chance
  change Attempts _ _ _ _ (request enclave chance { s with uploads := payload :: s.uploads }
    (Server.Transfer.transferUpdateMsg enclave.params.secp payload)).2
  generalize request enclave chance { s with uploads := payload :: s.uploads }
    (Server.Transfer.transferUpdateMsg enclave.params.secp payload) = result at hfiles huploads hlevel ⊢
  have herr : (result.2.files = s.files ∧ Stopped id stored result.2.world) ∨ Matched setup id name result.2 :=
    .inl ⟨hfiles, hstop _ hlevel⟩
  refine attempts_bind (attempts_lift herr (fun response _ => ?_))
  refine attempts_bind (attempts_lift herr (fun answer _ => ?_))
  refine attempts_bind (attempts_lift herr (fun _ _ => ?_))
  refine attempts_ask_bind (Transaction.Call.updateBackupTxs wallet'.name id txs) _ (fun chance' => ?_)
  have hstored' : (result.2.files.updateBackupTxs wallet'.name id txs).storedTxs name id = some txs := by
    rw [hname, hfiles]
    exact storedTxs_updateBackupTxs hstored
  have hwallet' : (result.2.files.updateBackupTxs wallet'.name id txs).wallets.get name = some wallet := by
    rw [hfiles]
    exact hwallet
  have hmatched : Matched setup id name
      { result.2 with files := result.2.files.updateBackupTxs wallet'.name id txs } := ⟨wallet, txs, done, pending, hwallet', hstored', hcovers, hlevel⟩
  have hhandle : System.handle enclave batchTimeout chance' (.updateBackupTxs wallet'.name id txs) result.2 =
      updateRow chance'.fault result.2
        { result.2 with files := result.2.files.updateBackupTxs wallet'.name id txs } := rfl
  rw [hhandle]
  cases chance'.fault with
  | failed text => exact attempts_bind (attempts_lift herr nofun)
  | lost text => exact attempts_bind (attempts_lift (.inr hmatched) nofun)
  | ok =>
    refine attempts_bind (attempts_lift (.inr hmatched) (fun _ _ => ?_))
    refine attempts_ask_bind Transaction.Call.utcNow _ (fun chance'' => ?_)
    refine attempts_mono (fun _ s' hs' => ⟨?_, hs'.2⟩) (fun s' hs' => .inr hs')
      (attempts_updateWallet hwallet' hstored' hname hholding hcovers hlevel)
    rw [hs'.1]
    exact congrArg List.head? huploads

/-- The file is the one before and the server may be ahead of it, or the two match again. -/
def Failed (setup : Setup (Point E) K F) (id name : String) (s s' : State E) (stored : List BackupTx) : Prop :=
  (s'.files = s.files ∧ Stopped id stored s'.world) ∨ Matched setup id name s'

theorem attempts_execute (hcodec : ∀ tx, setup.btc.deserialize (setup.btc.serialize tx) = .ok tx)
    (hwallet : s.files.wallets.get name = some wallet) (hstored : s.files.storedTxs name id = some stored)
    (hcovers : Covers setup.btc id wallet.coins stored) (h : Level id s.world stored done pending)
    (hlt : stored.length + 2 * wallet.coins.length < 2 ^ 32) (recipientAddress : String)
    (duplicatedIndexes : Option (List UInt32)) (forceSend : Bool) (batchId : Option String) :
    Attempts (System.handle enclave batchTimeout) (fun _ s' => Uploaded setup id recipientAddress s')
      (fun s' => Failed setup id name s s' stored)
      (execute setup recipientAddress name id duplicatedIndexes forceSend batchId) s := by
  have hname : wallet.name = name := (Table.get_eq_some.mp hwallet).2
  have herr : Failed setup id name s s stored := .inl ⟨rfl, .inr ⟨done, pending, h⟩⟩
  have hstop : ∀ s' : State E, SameFiles s s' ∧ Stopped id stored s'.world → Failed setup id name s s' stored :=
    fun s' hs' => .inl ⟨hs'.1.1, hs'.2⟩
  refine attempts_ask_bind (Transaction.Call.getWallet name) _ (fun chance => ?_)
  refine attempts_bind (attempts_lift herr (fun wallet' hread => ?_))
  have hsame : wallet' = wallet :=
    Option.some.inj ((selectRow_eq_ok (anyhow_eq_ok.mp hread)).symm.trans hwallet)
  subst hsame
  refine attempts_bind (attempts_lift herr (fun isAddressValid _ => ?_))
  refine attempts_bind (attempts_lift herr (fun _ _ => ?_))
  refine attempts_bind (attempts_lift herr (fun _ _ => ?_))
  refine attempts_bind (attempts_lift herr (fun coin hcoin => ?_))
  refine attempts_bind (attempts_lift herr (fun statechainId hid => ?_))
  have hsameId : id = statechainId := by
    obtain ⟨-, hcoinId, -⟩ := mem_of_coinToSend (orThrow_eq_ok.mp hcoin)
    exact Option.some.inj (hcoinId.symm.trans (unwrap_eq_ok.mp hid))
  subst hsameId
  refine attempts_bind (attempts_lift herr (fun signedStatechainId _ => ?_))
  refine attempts_bind (attempts_lift herr (fun decoded _ => ?_))
  refine attempts_bind (attempts_mono (fun x1 s1 hx1 => ?_) (fun s' hs' => hstop s' ⟨hs'.1, .inr ⟨done, pending, hs'.2⟩⟩)
    (attempts_getNewX1 h _ _ _ _))
  obtain ⟨hsame1, h1⟩ := hx1
  have herr1 : Failed setup id name s s1 stored := hstop s1 ⟨hsame1, .inr ⟨done, pending, h1⟩⟩
  refine attempts_bind (attempts_lift herr1 (fun inputTxid _ => ?_))
  refine attempts_bind (attempts_lift herr1 (fun inputVout _ => ?_))
  refine attempts_bind (attempts_lift herr1 (fun coinAmount _ => ?_))
  refine attempts_bind (attempts_lift herr1 (fun transferSignature _ => ?_))
  have hstored1 : s1.files.storedTxs wallet'.name id = some stored := by
    rw [hsame1.1, hname]
    exact hstored
  refine attempts_bind (attempts_mono (fun backups s2 hs2 => ?_)
    (fun s' hs' => hstop s' ⟨hsame1.trans hs'.1, hs'.2⟩)
    (attempts_createBackupTransactions hcodec hstored1 hcovers h1 hlt _ _))
  obtain ⟨hsame2, hname2, hholding, hcovers2, hlonger, done', pending', h2⟩ := hs2
  have hfiles2 : s2.files = s.files := hsame2.1.trans hsame1.1
  have herr2 : Failed setup id name s s2 stored := by
    refine .inl ⟨hfiles2, .inl ?_⟩
    rw [h2.completed_eq, h2.length_done]
    exact hlonger
  refine attempts_bind (attempts_lift herr2 (fun payload hpayload => ?_))
  refine attempts_mono (fun _ s' hs' => ?_) (fun s' hs' => ?_) (attempts_uploadAndStore (hfiles2 ▸ hwallet)
    (hfiles2 ▸ hstored) (hname2.trans hname) hholding hcovers2 hlonger h2 payload _ _)
  · obtain ⟨hupload, hlevel⟩ := hs'
    refine ⟨x1, coin, transferSignature, backups.2, payload, hpayload, hupload, ?_, hlevel.count⟩
    rw [hlevel.completed_eq]
    exact hlevel.marks
  · rw [hfiles2] at hs'
    exact hs'

/-- One call of `execute`, with what the environment decides during it. -/
structure Attempt (n : ℕ) (F : Type) where
  recipientAddress : String
  duplicatedIndexes : Option (List UInt32)
  forceSend : Bool
  batchId : Option String
  chances : ℕ → Chance n F

def attempt (setup : Setup (Point E) K F) (enclave : Keyring n E) (batchTimeout : ℕ) (id name : String) (s : State E)
    (a : Attempt n F) : Option (Except Failure Unit) × State E :=
  exec (System.handle enclave batchTimeout)
    (execute setup a.recipientAddress name id a.duplicatedIndexes a.forceSend a.batchId).run a.chances s

/-- The numbers of the transactions do not run over. -/
def Room (id name : String) (s : State E) : Prop :=
  ∀ wallet stored, s.files.wallets.get name = some wallet → s.files.storedTxs name id = some stored →
    stored.length + 2 * wallet.coins.length < 2 ^ 32

/-- It fails before the server has stored the first challenge, or after the client has stored the
transactions. -/
def FailsInTime (setup : Setup (Point E) K F) (enclave : Keyring n E) (batchTimeout : ℕ) (id name : String)
    (s : State E) (a : Attempt n F) : Prop :=
  let result := attempt setup enclave batchTimeout id name s a
  Room id name s ∧ (∃ failure, result.1 = some (.error failure)) ∧
    ((completed id result.2.world).length = (completed id s.world).length ∨
      result.2.files.storedTxs name id ≠ s.files.storedTxs name id)

theorem matched_of_failsInTime (hcodec : ∀ tx, setup.btc.deserialize (setup.btc.serialize tx) = .ok tx)
    (h : Matched setup id name s) {a : Attempt n F} (hfails : FailsInTime setup enclave batchTimeout id name s a) :
    Matched setup id name (attempt setup enclave batchTimeout id name s a).2 := by
  obtain ⟨wallet, stored, done, pending, hwallet, hstored, hcovers, hlevel⟩ := h
  obtain ⟨hroom, ⟨failure, hfailure⟩, hclean⟩ := hfails
  have hafter : Failed setup id name s (attempt setup enclave batchTimeout id name s a).2 stored :=
    (exec_of_attempts (attempts_execute hcodec hwallet hstored hcovers hlevel (hroom wallet stored hwallet hstored)
      a.recipientAddress a.duplicatedIndexes a.forceSend a.batchId) a.chances).2 failure hfailure
  obtain ⟨hfiles, hstopped⟩ | hmatched := hafter
  · obtain hlength | hchanged := hclean
    · obtain hmore | ⟨done', pending', hlevel'⟩ := hstopped
      · rw [hlevel.completed_eq, hlevel.length_done] at hlength
        exact absurd hlength (Nat.ne_of_gt hmore)
      · exact ⟨wallet, stored, done', pending', hfiles ▸ hwallet, hfiles ▸ hstored, hcovers, hlevel'⟩
    · exact absurd (congrArg (fun files => files.storedTxs name id) hfiles) hchanged
  · exact hmatched

/-- After any number of sends that failed in time, the next one that succeeds uploads a message
with all the transactions that the server has signed. -/
theorem uploaded_after_failures (hcodec : ∀ tx, setup.btc.deserialize (setup.btc.serialize tx) = .ok tx)
    (h : Matched setup id name s) {failures : List (Attempt n F)} {a : Attempt n F}
    (hfailures : Guarded (fun s a => (attempt setup enclave batchTimeout id name s a).2)
      (FailsInTime setup enclave batchTimeout id name) s failures)
    (hroom : Room id name (run (fun s a => (attempt setup enclave batchTimeout id name s a).2) s failures))
    (hok : (attempt setup enclave batchTimeout id name
      (run (fun s a => (attempt setup enclave batchTimeout id name s a).2) s failures) a).1 = some (.ok ())) :
    Uploaded setup id a.recipientAddress (attempt setup enclave batchTimeout id name
      (run (fun s a => (attempt setup enclave batchTimeout id name s a).2) s failures) a).2 := by
  have hstep : ∀ (s : State E) (a : Attempt n F), Matched setup id name s →
      FailsInTime setup enclave batchTimeout id name s a →
        Matched setup id name (attempt setup enclave batchTimeout id name s a).2 :=
    fun _ _ hs ha => matched_of_failsInTime hcodec hs ha
  obtain ⟨wallet, stored, done, pending, hwallet, hstored, hcovers, hlevel⟩ := invariant_run hstep h hfailures
  exact (exec_of_attempts (attempts_execute hcodec hwallet hstored hcovers hlevel (hroom wallet stored hwallet hstored)
    a.recipientAddress a.duplicatedIndexes a.forceSend a.batchId) a.chances).1 () hok

end Execute

section Seven

/-- A session of 133 bytes, as the statechain entity wants it, when its nonce has been removed. -/
def paddedSession : Codec (Session (ZMod 7)) Bytes where
  encode session := sessionSeven.encode { session with finNonce := List.replicate 97 0 ++ session.finNonce }
  decode bytes := (sessionSeven.decode bytes).map (fun session =>
    { session with finNonce := session.finNonce.drop 97 })
  decode_encode session := by simp

def padded : Params 7 (ZMod 7) := { seven with sessionBytes := paddedSession }

def paddedKeyring : Keyring 7 (ZMod 7) := { sevenKeyring with params := padded }

/-- The message has one byte for each of its transactions. -/
def paddedSetup : Setup (Point (ZMod 7)) (ZMod 7) ℕ :=
  { sevenSetup with
    secp := padded.secp
    musig := padded.musig
    envelope :=
      { decodeTransferAddress := sevenSetup.envelope.decodeTransferAddress
        bytes32FromHex := fun _ => .ok (b32 1)
        transferMsgToJson := fun transferMsg => List.replicate transferMsg.backupTransactions.length 0
        encrypt := fun _ bytes => some (Hex.encode bytes) } }

theorem decode_of_createTransferUpdateMsg {x1 recipientAddress transferSignature : String} {coin : Coin}
    {txs : List BackupTx} {payload : TransferUpdateMsgRequestPayload}
    (h : createTransferUpdateMsg paddedSetup.secp paddedSetup.envelope x1 recipientAddress coin transferSignature txs =
      .ok payload) : Hex.decode payload.encTransferMsg = some (List.replicate txs.length 0) := by
  simp only [createTransferUpdateMsg, createTransferMsg, bind_eq_ok, pure_eq_ok, orErr_eq_ok] at h
  obtain ⟨keys, -, transferMsg, ⟨_, -, _, -, _, -, _, -, _, -, hmsg⟩, _, -, text, htext, hpayload⟩ := h
  cases hmsg
  cases htext
  cases hpayload
  exact Hex.decode_encode _

/-- A coin whose deposit transaction is signed. -/
def heldWorld : World (ZMod 7) :=
  let w := run (Server.System.step paddedKeyring 10) (Server.System.init 1)
    [.request (.deposit (seven.x 2) "statechain" 0) (fun _ => Server.System.steady)]
  { w with
    db := { w.db with signatures := [⟨"0301", some (Hex.encode (b32 1)), 1, "statechain"⟩] }
    enclaves := w.enclaves.map (List.map (fun row => { row with sigCount := 1 })) }

def heldCoin : Coin := { fundedCoin with signedStatechainId := some (Server.Unlock.sevenSignature 2) }

def heldTx : BackupTx := { sentOnce with serverPublicNonce := "0301" }

def held : State (ZMod 7) where
  files :=
    { wallets := ⟨[⟨"wallet", "bitcoin", [], [heldCoin]⟩], by decide⟩
      backups := ⟨[⟨"wallet", "statechain", [heldTx]⟩], by decide⟩ }
  world := heldWorld
  uploads := []

def calmChance (sessionId : Bytes) : Chance 7 ℕ where
  fault := .ok
  link := .delivered
  elapsed := 0
  server _ := { Server.System.steady with draw := ⟨⟨1, one_ne_zero_seven⟩, sessionId, [], .ok, .ok⟩ }
  height := 1000
  unspents := []
  info := ⟨1000, 10, 1⟩
  nonce := ⟨[], seven.secp.secretHex 2⟩
  date := ""

def calmAttempt (sessionId : Bytes) : Attempt 7 ℕ := ⟨"ml", none, false, none, fun _ => calmChance sessionId⟩

/-- The answer to one of the requests is lost. -/
def losing (k : ℕ) : Attempt 7 ℕ :=
  { calmAttempt [] with
    chances := fun i => if i = k then { calmChance [] with link := .lost "timed out" } else calmChance [] }

theorem matched_held : Matched paddedSetup "statechain" "wallet" held := by
  refine ⟨⟨"wallet", "bitcoin", [], [heldCoin]⟩, [heldTx], heldWorld.db.signatures, [], ?_, ?_, ?_, ?_⟩
  · decide +kernel
  · decide +kernel
  · refine ⟨fun backupTx hmem => ⟨heldCoin, List.mem_singleton_self _, rfl, rfl, ⟨"f", 0⟩, ⟨rfl, rfl⟩, ?_⟩,
      List.pairwise_singleton _ _⟩
    cases List.mem_singleton.mp hmem
    have hread : wireBtc.deserialize heldTx.tx = .ok (unsignedTx ⟨"f", 0⟩ 1100 ⟨1, []⟩) := wireBtc_codec _
    change getPreviousOutpoint wireBtc heldTx = _
    rw [getPreviousOutpoint, hread]
    rfl
  · refine ⟨?_, ?_, ?_, ?_, ?_, ?_, ?_⟩
    · decide +kernel
    · decide +kernel
    · nofun
    · decide
    · decide +kernel
    · exact List.Perm.of_eq (by decide +kernel)
    · have hcount : (heldWorld.db.data.get "statechain").map (fun data =>
          sigCountOf heldWorld data.enclaveIndex "statechain") = some (some 1) := by decide +kernel
      obtain ⟨data, hdata, hcount⟩ := Option.map_eq_some_iff.mp hcount
      exact ⟨data, hdata, hcount⟩

abbrev heldAttempt : State (ZMod 7) → Attempt 7 ℕ → Option (Except Failure Unit) × State (ZMod 7) :=
  attempt paddedSetup paddedKeyring 10 "statechain" "wallet"

theorem room_of_lengths {s : State (ZMod 7)}
    (h : (s.files.wallets.get "wallet").map (fun wallet => wallet.coins.length) = some 1 ∧
      (s.files.storedTxs "wallet" "statechain").map List.length = some 1) : Room "statechain" "wallet" s := by
  intro wallet stored hwallet hstored
  rw [hwallet, hstored] at h
  have hcoins : wallet.coins.length = 1 := Option.some.inj h.1
  have htxs : stored.length = 1 := Option.some.inj h.2
  omega

/-- The answer to `/sign/first` is lost, and the next send is complete. -/
theorem uploaded_after_failures_seven :
    Uploaded paddedSetup "statechain" "ml" (heldAttempt (heldAttempt held (losing 7)).2 (calmAttempt [2])).2 := by
  have hrun : ((heldAttempt held (losing 7)).1 = some (.error (.anyhow "timed out")) ∧
      (completed "statechain" (heldAttempt held (losing 7)).2.world).length =
        (completed "statechain" held.world).length ∧
      (((heldAttempt held (losing 7)).2.files.wallets.get "wallet").map (fun wallet => wallet.coins.length) = some 1 ∧
        ((heldAttempt held (losing 7)).2.files.storedTxs "wallet" "statechain").map List.length = some 1)) ∧
      (heldAttempt (heldAttempt held (losing 7)).2 (calmAttempt [2])).1 = some (.ok ()) := by
    delta heldAttempt attempt paddedSetup Params.secp Params.musig System.handle System.request
      Server.Sign.signSecond challengeOfSession Server.Database.handle callLockbox Lockbox.Server.handle
      Lockbox.Server.parseHex
    rw [hexCodec_decode, Hex.decode_eq_chars, toList_eq_chars]
    decide +kernel
  obtain ⟨⟨hfailure, hcompleted, hlengths⟩, hok⟩ := hrun
  have hroom : Room "statechain" "wallet" held := room_of_lengths (by decide +kernel)
  have hfails : FailsInTime paddedSetup paddedKeyring 10 "statechain" "wallet" held (losing 7) :=
    ⟨hroom, ⟨_, hfailure⟩, .inl hcompleted⟩
  have hfailures : Guarded (fun s a => (heldAttempt s a).2)
      (FailsInTime paddedSetup paddedKeyring 10 "statechain" "wallet") held [losing 7] := ⟨hfails, trivial⟩
  have hcodec : ∀ tx, paddedSetup.btc.deserialize (paddedSetup.btc.serialize tx) = .ok tx := sevenSetup_codec
  have huploaded := uploaded_after_failures (a := calmAttempt [2]) hcodec matched_held hfailures
  exact huploaded (room_of_lengths hlengths) hok

/-- The answer to `/sign/second` is lost: the next message lacks the transaction that was signed. -/
theorem upload_incomplete_seven :
    Matched paddedSetup "statechain" "wallet" held ∧
    (heldAttempt held (losing 8)).1 = some (.error (.anyhow "timed out")) ∧
    (heldAttempt (heldAttempt held (losing 8)).2 (calmAttempt [2])).1 = some (.ok ()) ∧
    ¬Uploaded paddedSetup "statechain" "ml" (heldAttempt (heldAttempt held (losing 8)).2 (calmAttempt [2])).2 := by
  have hrun : (heldAttempt held (losing 8)).1 = some (.error (.anyhow "timed out")) ∧
      (heldAttempt (heldAttempt held (losing 8)).2 (calmAttempt [2])).1 = some (.ok ()) ∧
      (heldAttempt (heldAttempt held (losing 8)).2 (calmAttempt [2])).2.uploads.map
        (fun payload => (Hex.decode payload.encTransferMsg).map List.length) = [some 2] ∧
      (completed "statechain" (heldAttempt (heldAttempt held (losing 8)).2 (calmAttempt [2])).2.world).length = 3 := by
    delta heldAttempt attempt paddedSetup Params.secp Params.musig System.handle System.request
      Server.Sign.signSecond challengeOfSession Server.Database.handle callLockbox Lockbox.Server.handle
      Lockbox.Server.parseHex
    rw [hexCodec_decode, Hex.decode_eq_chars, toList_eq_chars]
    decide +kernel
  obtain ⟨hfailure, hok, huploads, hcompleted⟩ := hrun
  refine ⟨matched_held, hfailure, hok, ?_⟩
  rintro ⟨x1, coin, transferSignature, txs, payload, hpayload, hhead, hperm, -⟩
  have hlength := hperm.length_eq
  rw [List.length_map, List.length_map, hcompleted] at hlength
  have hmap := congrArg List.head? huploads
  rw [List.head?_map, hhead, Option.map_some, decode_of_createTransferUpdateMsg hpayload, Option.map_some,
    List.length_replicate, hlength] at hmap
  exact absurd hmap (by decide)

end Seven

end MercuryLayer.Client.SendRecovery
