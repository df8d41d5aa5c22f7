import MercuryLayer.Musig.Cosign
import MercuryLayer.Server.Effects

namespace MercuryLayer.Server.Replay

open Crates Error Library Library.Programs Library.Runs Library.Validation Library.XOnlyCurve Lockbox.Enclave
open Lockbox.KeyUpdate Lockbox.Server Musig.Cosign Musig.Session Receiver Server.Database Server.Effects
open Server.System Server.Transfer Server.Unlock WalletData

variable {n : ℕ} {E : Type} [AddCommGroup E] [Module (ZMod n) E] [DecidableEq E]
variable (enclave : Keyring n E) (batchTimeout : ℕ)

/-- The request with its `t2` and signature, sent for another statechain. -/
def redirect (payload : TransferReceiverRequestPayload) (statechainId : String) : TransferReceiverRequestPayload :=
  { payload with statechainId := statechainId }

/-- The server carries the request out: the lockbox or the database is not as before. -/
def Applied (w : World E) (payload : TransferReceiverRequestPayload) (choices : ℕ → Choice n) : Prop :=
  (exec (Database.handle enclave) (transferReceiver enclave.params.secp batchTimeout payload) choices w).2 ≠ w

/-- The transfer of the statechain is addressed to the key. -/
def AddressedTo (w : World E) (statechainId : String) (authKey : ZMod n) : Prop :=
  ∃ row, w.db.transfers.get statechainId = some row ∧
    enclave.params.secp.xOnly row.newUserAuthPublicKey =
      enclave.params.secp.xOnly (enclave.params.secp.publicKey authKey)

/-- A Schnorr signature verifies under the key that made it and no other. -/
def SignsForOneKey (authKey : ZMod n) (t2 : String) : Prop :=
  ∀ key, verifies enclave.params.secp
      (enclave.params.secp.signSchnorr (enclave.params.secp.sha256 t2.toUTF8.toList) authKey) t2 key = true →
    key = enclave.params.secp.xOnly (enclave.params.secp.publicKey authKey)

/-- All that a key update with this `t2` needs: an admitted transfer that has not been completed, the coin's row and a
lockbox that takes the update. It must not leave both the lockbox and the database as they are. -/
inductive Updatable (w : World E) (statechainId t2 : String) : Prop
  | mk (row : StatechainTransfer (Point E)) (data : StatechainData (Point E)) (table table' : List (Row E))
      (nonce : Bytes) (share t2' x1 : ZMod n) (hbatch : batchResult batchTimeout w statechainId = .success)
      (hrow : w.db.transfers.get statechainId = some row) (hfirst : row.keyUpdated = false)
      (hdata : w.db.data.get statechainId = some data) (htable : w.enclaves[data.enclaveIndex]? = some table)
      (hwrites : Writes enclave table statechainId (parseHex t2) row.x1 nonce share t2' x1 table')
      (hchange : table' ≠ table ∨ (w.db.updateStatechain statechainId
        (enclave.params.secp.xOnly row.newUserAuthPublicKey) (enclave.params.publicKey (share + t2' - x1))).isSome = true)

variable {enclave batchTimeout} {w : World E} {payload : TransferReceiverRequestPayload}

theorem signed_of_applied {choices : ℕ → Choice n} (h : Applied enclave batchTimeout w payload choices) :
    ∃ row, w.db.transfers.get payload.statechainId = some row ∧
      SignedBy enclave.params.secp payload.authSig payload.t2
        (enclave.params.secp.xOnly row.newUserAuthPublicKey) := by
  have heffect : ReceiverEffect enclave batchTimeout w payload _ :=
    exec_of_wp (transferReceiver_effect payload) choices
  cases heffect with
  | same hsame => exact absurd hsame h
  | updated row data table draw hbatch hrow hfirst hsigned hdata htable henclaves hnow hdb =>
    exact ⟨row, hrow, hsigned⟩

theorem updatable_of_applied {choices : ℕ → Choice n} (h : Applied enclave batchTimeout w payload choices) :
    Updatable enclave batchTimeout w payload.statechainId payload.t2 := by
  have heffect : ReceiverEffect enclave batchTimeout w payload _ :=
    exec_of_wp (transferReceiver_effect payload) choices
  rw [Applied] at h
  generalize (exec (Database.handle enclave) (transferReceiver enclave.params.secp batchTimeout payload) choices w).2 =
    w' at h heffect
  cases heffect with
  | same hsame => exact absurd hsame h
  | updated row data table draw hbatch hrow hfirst hsigned hdata htable henclaves hnow hdb =>
    have hresult := handle_keyupdate_effect enclave draw table payload.statechainId payload.t2 (Hex.encode row.x1)
    rw [keyUpdateResult] at henclaves hdb
    generalize Lockbox.Server.handle enclave draw table
      (.keyupdate payload.statechainId payload.t2 (Hex.encode row.x1)) = result at henclaves hdb hresult
    have hsame : result.1 = table → w'.db ≠ w.db := by
      rintro hresult hdb'
      apply h
      rw [hresult, set_of_getElem? htable] at henclaves
      cases w
      cases w'
      cases henclaves
      cases hnow
      cases hdb'
      rfl
    cases hresult with
    | refused htable' hanswer =>
      obtain hkept | ⟨body, serverPubkey, hbody, hkey, -⟩ := hdb
      · exact absurd hkept (hsame htable')
      · rw [serverPubkeyOf_of_namesField hanswer hbody] at hkey
        cases hkey
    | moved share t2' x1 hwrites hnew hkey hanswer =>
      rw [parseHex_encode] at hwrites
      refine .mk row data table result.1 draw.nonce share t2' x1 hbatch hrow hfirst hdata htable hwrites ?_
      by_cases htable' : result.1 = table
      · refine .inr ?_
        obtain hkept | ⟨body, serverPubkey, hbody, hserver, hdb⟩ := hdb
        · exact absurd hkept (hsame htable')
        · obtain hanswer | ⟨-, hanswer⟩ := hanswer
          · rw [hanswer] at hbody
            cases hbody
            rw [serverPubkeyOf_success, Option.some.injEq] at hserver
            rw [hserver, hdb]
            rfl
          · rw [serverPubkeyOf_of_namesField hanswer hbody] at hserver
            cases hserver
      · exact .inl htable'

section Faultless

variable {choice : Choice n}

theorem exec_validateBatch (hfault : choice.fault = .ok) (statechainId : String) :
    exec (Database.handle enclave) (validateBatch batchTimeout statechainId) (fun _ => choice) w =
      (some (batchResult batchTimeout w statechainId), w) := by
  simp only [validateBatch, getBatchIdAndTimeByStatechainId, Prog.call_bind, exec, Database.handle, Database.read,
    hfault, Prog.unwrap, Prog.ret_bind, batchResult]
  cases w.db.batchIdAndTimeOf statechainId with
  | none => rfl
  | some batch =>
    by_cases hexpired : batch.2 + seconds batchTimeout < w.now
    · simp only [isBatchExpired, utcNow, Prog.call_bind, exec, Database.handle, Prog.ret_bind, Prog.pure_eq, hexpired,
        decide_true, if_true]
    · simp only [isBatchExpired, utcNow, Prog.call_bind, exec, Database.handle, Prog.ret_bind, Prog.pure_eq, hexpired,
        decide_false, if_false, isAllCoinsUnlocked, Database.read, hfault, Prog.unwrap, Bool.false_eq_true]
      cases w.db.isAllCoinsUnlocked batch.1 <;> rfl

theorem exec_updateKey {data : StatechainData (Point E)} {table table' : List (Row E)} {x1 : Bytes}
    {serverPubkey : Point E} (authPubkey : Bytes) (hfault : choice.fault = .ok) (hlink : choice.link = .delivered)
    (hdata : w.db.data.get payload.statechainId = some data) (htable : w.enclaves[data.enclaveIndex]? = some table)
    (hresult : keyUpdateResult enclave payload x1 choice.draw table =
      (table', success "server_pubkey" (enclave.params.pubkeyBytes.encode serverPubkey))) :
    (exec (Database.handle enclave) (updateKey enclave.params.secp payload authPubkey x1) (fun _ => choice) w).2 =
      { w with
        enclaves := w.enclaves.set data.enclaveIndex table'
        db := (w.db.updateStatechain payload.statechainId authPubkey serverPubkey).getD w.db } := by
  rw [keyUpdateResult] at hresult
  simp only [updateKey, relayKey, storeKey, getEnclaveIndexFromDatabase, Prog.call_bind, exec, Database.handle, Database.read, hfault, hdata,
    Option.map_some, Prog.unwrap, Prog.ret_bind, callLockbox, hlink, htable, hresult, httpReply, success,
    serverPubkeyOf_success, updateStatechain, Database.write]
  cases w.db.updateStatechain payload.statechainId authPubkey serverPubkey <;> rfl

end Faultless

theorem applied_of_updatable {row : StatechainTransfer (Point E)}
    (h : Updatable enclave batchTimeout w payload.statechainId payload.t2)
    (hrow : w.db.transfers.get payload.statechainId = some row)
    (hsigned : SignedBy enclave.params.secp payload.authSig payload.t2
      (enclave.params.secp.xOnly row.newUserAuthPublicKey)) :
    ∃ choices, Applied enclave batchTimeout w payload choices := by
  obtain ⟨row', data, table, table', nonce, share, t2', x1, hbatch, hrow', hfirst, hdata, htable, hwrites, hchange⟩ := h
  obtain rfl : row = row' := Option.some.inj (hrow.symm.trans hrow')
  obtain ⟨signature, hsignature, hverifies⟩ := hsigned
  obtain ⟨choice, hfault, hlink, hload, hstore, rfl⟩ : ∃ choice : Choice n, choice.fault = .ok ∧
      choice.link = .delivered ∧ choice.draw.load = .ok ∧ choice.draw.store = .ok ∧ choice.draw.nonce = nonce :=
    ⟨⟨.ok, .delivered, ⟨⟨x1, hwrites.x1_ne_zero⟩, [], nonce, .ok, .ok⟩, ⟨x1, hwrites.x1_ne_zero⟩, [], none⟩,
      rfl, rfl, rfl, rfl, rfl⟩
  rw [← parseHex_encode row.x1] at hwrites
  have hexec := exec_updateKey (enclave.params.secp.xOnly row.newUserAuthPublicKey) hfault hlink hdata htable
    (handle_keyupdate_of_writes hwrites hload hstore)
  refine ⟨fun _ => choice, ?_⟩
  rw [Applied, transferReceiver, exec_bind, exec_validateBatch hfault, hbatch]
  simp only [getAuthPubkeyAndX1, isKeyAlreadyUpdated, updateKeyOnce, Prog.call_bind, exec, Database.handle,
    Database.read, hfault, hrow, Option.map_some, Prog.unwrap, Prog.ret_bind, hsignature, hverifies, if_true, hfirst,
    Bool.false_eq_true, if_false, hexec]
  intro hsame
  obtain htable' | hstored := hchange
  · have henclaves := congrArg (fun w => w.enclaves[data.enclaveIndex]?) hsame
    simp only [List.getElem?_set_self (List.getElem?_eq_some_iff.mp htable).1, htable, Option.some.injEq] at henclaves
    exact htable' henclaves
  · obtain ⟨db, hdb⟩ := Option.isSome_iff_exists.mp hstored
    have htransfers := congrArg (fun w => w.db.transfers.get payload.statechainId) hsame
    simp only [hdb, Option.getD_some, Db.updateStatechain_transfers hdb, Tables.Table.get_modify_self, hrow,
      Option.map_some, Option.some.injEq] at htransfers
    rw [← htransfers] at hfirst
    cases hfirst

variable {info : StatechainInfoResponsePayload} {transferMsg : TransferMsg} {coin : Coin} {authKey : ZMod n}

/-- The signature of a request is over its `t2` and nothing else. -/
theorem authSig_of_request
    (h : createTransferReceiverRequestPayload enclave.params.secp info transferMsg coin = .ok payload)
    (hkey : enclave.params.secp.privateKeyFromWif coin.authPrivkey = some authKey) :
    payload.authSig = enclave.params.secp.signatureToStr
      (enclave.params.secp.signSchnorr (enclave.params.secp.sha256 payload.t2.toUTF8.toList) authKey) := by
  simp only [createTransferReceiverRequestPayload, bind_eq_ok, orErr_eq_ok, pure_eq_ok, hkey,
    Option.some.injEq] at h
  obtain ⟨_, -, _, -, _, -, _, -, _, rfl, _, -, _, -, _, -, rfl⟩ := h
  rfl

theorem signedBy_of_request
    (h : createTransferReceiverRequestPayload enclave.params.secp info transferMsg coin = .ok payload)
    (hkey : enclave.params.secp.privateKeyFromWif coin.authPrivkey = some authKey) :
    SignedBy enclave.params.secp payload.authSig payload.t2
      (enclave.params.secp.xOnly (enclave.params.secp.publicKey authKey)) := by
  have hne : authKey ≠ 0 := by
    obtain ⟨-, hne⟩ := Option.filter_eq_some_iff.mp hkey
    exact of_decide_eq_true hne
  refine ⟨_, ?_, enclave.params.verifySchnorr_signSchnorr _ hne⟩
  rw [authSig_of_request h hkey]
  simp [Params.secp]

theorem key_of_signedBy {key : Bytes} (hone : SignsForOneKey enclave authKey payload.t2)
    (h : createTransferReceiverRequestPayload enclave.params.secp info transferMsg coin = .ok payload)
    (hkey : enclave.params.secp.privateKeyFromWif coin.authPrivkey = some authKey)
    (hsigned : SignedBy enclave.params.secp payload.authSig payload.t2 key) :
    key = enclave.params.secp.xOnly (enclave.params.secp.publicKey authKey) := by
  obtain ⟨signature, hsignature, hverifies⟩ := hsigned
  have hparsed : enclave.params.secp.signatureFromStr payload.authSig = some
      (enclave.params.secp.signSchnorr (enclave.params.secp.sha256 payload.t2.toUTF8.toList) authKey) := by
    rw [authSig_of_request h hkey]
    simp [Params.secp]
  rw [hparsed, Option.some.injEq] at hsignature
  subst hsignature
  exact hone key hverifies

section Seven

def sevenReceiver : Coin :=
  { sevenCoin with userPrivkey := seven.wif.encode 4, authPrivkey := seven.wif.encode 3 }

/-- The message of the owner with the share 1 for the coin `a`, with `x1 = 1`. -/
def sevenMsg : TransferMsg :=
  { statechainId := "a", transferSignature := "", backupTransactions := [], t1 := b32 2
    userPublicKey := seven.secp.publicKeyToStr (seven.publicKey 1) }

def sevenInfo : StatechainInfoResponsePayload :=
  { enclavePublicKey := seven.secp.publicKeyToStr (seven.publicKey 1), numSigs := 0, statechainInfo := []
    x1Pub := some (seven.secp.publicKeyToStr (seven.publicKey 1)) }

def sevenPayload : TransferReceiverRequestPayload :=
  { statechainId := "a", batchData := none, t2 := seven.secp.secretHex 5
    authSig := seven.secp.signatureToStr
      (seven.secp.signSchnorr (seven.secp.sha256 (seven.secp.secretHex 5).toUTF8.toList) 3) }

theorem sevenPayload_made :
    createTransferReceiverRequestPayload seven.secp sevenInfo sevenMsg sevenReceiver = .ok sevenPayload := by
  decide +kernel

theorem seven_signsForOneKey (t2 : String) : SignsForOneKey sevenKeyring 3 t2 := by
  intro key h
  have hbyte : ∀ u : UInt8, verifies seven.secp (seven.secp.signSchnorr (seven.secp.sha256 "".toUTF8.toList) 3) "" [u] =
      true → [u] = seven.secp.xOnly (seven.secp.publicKey 3) := by
    rintro ⟨b⟩
    revert b
    decide +kernel
  match key, h with
  | [], h => cases h
  | [u], h => exact hbyte u h
  | u :: v :: rest, h => cases h

/-- The coins `a` and `b` with the shares 1 and 3 are sent to the auth key 3 and to another one. -/
def twoTransfers (other : ZMod 7) : World (ZMod 7) :=
  run (step sevenKeyring 10) (init 1)
    [.request (.deposit (seven.x 2) "a" 0) (fun _ => steady),
      .request (.deposit (seven.x 2) "b" 0) (fun _ => calm ⟨3, three_ne_zero_seven⟩),
      .request (.sender ⟨"a", sevenSignature 2, seven.secp.publicKeyToStr (seven.publicKey 3), none⟩)
        (fun _ => steady),
      .request (.sender ⟨"b", sevenSignature 2, seven.secp.publicKeyToStr (seven.publicKey other), none⟩)
        (fun _ => calm ⟨2, two_ne_zero_seven⟩)]

end Seven

/-- A request that the receiver made for one statechain is never carried out for another one
exactly when the other one is not addressed to the receiver's key, or something is missing there for a key update with
this `t2`. -/
theorem redirect_refused_iff {statechainId : String}
    (hmade : createTransferReceiverRequestPayload enclave.params.secp info transferMsg coin = .ok payload)
    (hkey : enclave.params.secp.privateKeyFromWif coin.authPrivkey = some authKey)
    (hone : SignsForOneKey enclave authKey payload.t2) :
    (∀ choices, ¬Applied enclave batchTimeout w (redirect payload statechainId) choices) ↔
      (AddressedTo enclave w statechainId authKey → ¬Updatable enclave batchTimeout w statechainId payload.t2) := by
  have hsigned := signedBy_of_request hmade hkey
  constructor
  · rintro hnever ⟨row, hrow, haddressed⟩ hupdatable
    rw [← haddressed] at hsigned
    have happlied : ∃ choices, Applied enclave batchTimeout w (redirect payload statechainId) choices :=
      applied_of_updatable hupdatable hrow hsigned
    obtain ⟨choices, happlied⟩ := happlied
    exact hnever choices happlied
  · intro hrefused choices happlied
    obtain ⟨row, hrow, hsigned'⟩ := signed_of_applied happlied
    have hsame := key_of_signedBy hone hmade hkey hsigned'
    exact hrefused ⟨row, hrow, hsame⟩ (updatable_of_applied happlied)

theorem redirect_refused_seven :
    ¬AddressedTo sevenKeyring (twoTransfers 2) "b" 3 ∧
      ∀ choices, ¬Applied sevenKeyring 10 (twoTransfers 2) (redirect sevenPayload "b") choices := by
  have hother : ¬AddressedTo sevenKeyring (twoTransfers 2) "b" 3 := by
    rintro ⟨row, hrow, haddressed⟩
    have hkeys : ((twoTransfers 2).db.transfers.get "b").map
        (fun row => seven.secp.xOnly row.newUserAuthPublicKey) = some [2] := by decide +kernel
    rw [hrow, Option.map_some, Option.some.injEq] at hkeys
    exact absurd (haddressed.symm.trans hkeys) (by decide)
  refine ⟨hother, (redirect_refused_iff sevenPayload_made rfl (seven_signsForOneKey _)).mpr ?_⟩
  exact fun haddressed => absurd haddressed hother

/-- Both coins are sent to one key: the request for the coin `a` moves the share of the coin `b`. -/
theorem redirected_request_applied :
    createTransferReceiverRequestPayload seven.secp sevenInfo sevenMsg sevenReceiver = .ok sevenPayload ∧
      Applied sevenKeyring 10 (twoTransfers 3) (redirect sevenPayload "b") (fun _ => steady) := by
  refine ⟨sevenPayload_made, ?_⟩
  have henclaves : (exec (Database.handle sevenKeyring)
      (transferReceiver seven.secp 10 (redirect sevenPayload "b")) (fun _ => steady)
      (twoTransfers 3)).2.enclaves ≠ (twoTransfers 3).enclaves := by decide +kernel
  intro h
  exact henclaves (congrArg World.enclaves h)

end MercuryLayer.Server.Replay
