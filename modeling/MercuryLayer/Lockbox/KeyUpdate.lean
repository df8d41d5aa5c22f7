import MercuryLayer.Lockbox.Server

namespace MercuryLayer.Lockbox.KeyUpdate

open Crates Library.XOnlyCurve Lockbox.Enclave Lockbox.Server Musig.Session

variable {n : ℕ} {E : Type} [AddCommGroup E] [Module (ZMod n) E] [DecidableEq E]
variable (enclave : Keyring n E) (draw : Draw n) (table : List (Row E))

def storedRow (statechainId : String) : Option (Row E) :=
  table.find? (fun row => row.statechainId == statechainId)

def storedKey (statechainId : String) : Option (Point E) := (storedRow table statechainId).map Row.publicKey

/-- The server's share of the coin, as the enclave unseals it. -/
def storedShare (statechainId : String) : Option (ZMod n) :=
  ((storedRow table statechainId).bind Row.sealedKeypair).bind enclave.keypairs.unlock

def namesField : Outcome → Bool
  | .answered ⟨_, .field _ _⟩ => true
  | _ => false

/-- A share and two scalars that the lockbox takes for a key update, and the table that it then writes. The public
keys of the rows remain different. -/
structure Writes (statechainId : String) (serializedT2 serializedX1 nonce : Bytes) (share t2 x1 : ZMod n)
    (table' : List (Row E)) : Prop where
  stored : storedShare enclave table statechainId = some share
  t2_length : serializedT2.length = 32
  x1_length : serializedX1.length = 32
  t2_value : enclave.params.setB32 serializedT2 = some t2
  x1_value : enclave.params.setB32 serializedX1 = some x1
  x1_ne_zero : x1 ≠ 0
  sum_ne_zero : share + t2 ≠ 0
  new_ne_zero : share + t2 - x1 ≠ 0
  unique : updateSealedKeypair table
    ⟨enclave.keypairs.lock nonce (share + t2 - x1), enclave.params.publicKey (share + t2 - x1)⟩ statechainId = .ok table'

/-- What `/keyupdate` can do: nothing, or move the share by `t2 - x1`. The new key is in the
answer unless the commit is not confirmed. -/
inductive Effect (statechainId t2 x1 : String) (result : List (Row E) × Outcome) : Prop
  | refused (htable : result.1 = table) (hanswer : namesField result.2 = false)
  | moved (share t2' x1' : ZMod n)
      (hwrites : Writes enclave table statechainId (parseHex t2) (parseHex x1) draw.nonce share t2' x1' result.1)
      (hnew : storedShare enclave result.1 statechainId = some (share + t2' - x1'))
      (hkey : storedKey result.1 statechainId = some (enclave.params.publicKey (share + t2' - x1')))
      (hanswer : result.2 = success "server_pubkey"
          (enclave.params.pubkeyBytes.encode (enclave.params.publicKey (share + t2' - x1'))) ∨
        (∃ text, draw.store = .lost text) ∧ namesField result.2 = false)

variable {enclave draw table}

omit [Module (ZMod n) E] [DecidableEq E] in
theorem storedRow_updateWhere {statechainId : String} {f : Row E → Row E}
    (hf : ∀ row, (f row).statechainId = row.statechainId) :
    storedRow (updateWhere statechainId f table) statechainId = (storedRow table statechainId).map f := by
  induction table with
  | nil => rfl
  | cons row table ih =>
    simp only [storedRow, updateWhere, List.map_cons, List.find?_cons] at ih ⊢
    by_cases hid : row.statechainId = statechainId
    · simp [hid, hf]
    · have hne : (row.statechainId == statechainId) = false := by simpa using hid
      simp only [hid, if_false, hne]
      exact ih

theorem updateSealedKeypair_eq_ok {response : NewKeyPairResponse E} {statechainId : String} {table' : List (Row E)}
    {row : Row E} (h : updateSealedKeypair table response statechainId = .ok table')
    (hrow : storedRow table statechainId = some row) :
    storedRow table' statechainId =
      some { row with
        sealedKeypair := some response.encryptedData
        publicKey := response.serverPubkey
        sealedSecnonce := none
        publicNonce := none } := by
  simp only [updateSealedKeypair] at h
  split_ifs at h with hunique
  rw [← Except.ok.inj h]
  refine (storedRow_updateWhere ?_).trans ?_
  · exact fun _ => rfl
  · rw [hrow]
    rfl

omit [DecidableEq E] in
theorem storedRow_of_load {fault : DbFault} {statechainId : String} {row : Row E}
    (h : loadGeneratedKeyData fault table statechainId = .ok row) : storedRow table statechainId = some row :=
  find_of_load h

variable (enclave draw table) in
theorem handle_keyupdate_effect (statechainId t2 x1 : String) :
    Effect enclave draw table statechainId t2 x1
      (Lockbox.Server.handle enclave draw table (.keyupdate statechainId t2 x1)) := by
  by_cases hlength2 : (parseHex t2).length ≠ 32
  · simp only [Lockbox.Server.handle, if_pos hlength2]
    exact .refused rfl rfl
  by_cases hlength1 : (parseHex x1).length ≠ 32
  · simp only [Lockbox.Server.handle, if_neg hlength2, if_pos hlength1]
    exact .refused rfl rfl
  simp only [Lockbox.Server.handle, if_neg hlength2, if_neg hlength1, keyupdate]
  cases hload : loadGeneratedKeyData draw.load table statechainId with
  | error message => exact .refused rfl rfl
  | ok row =>
    cases hsealed : row.sealedKeypair with
    | none =>
      simp only [hsealed]
      exact .refused rfl rfl
    | some oldEncryptedKeypair =>
      simp only [hsealed]
      cases hupdate : Enclave.keyUpdate enclave oldEncryptedKeypair (parseHex x1) (parseHex t2) draw.nonce with
      | error abort => exact .refused rfl rfl
      | ok response =>
        obtain ⟨share, t2', x1', hshare, ht2, hsum, hx1, hne, hnewne, rfl⟩ := (keyUpdate_eq_ok enclave).mp hupdate
        have hrow := storedRow_of_load hload
        have hold : storedShare enclave table statechainId = some share := by
          rw [storedShare, hrow, Option.bind_some, hsealed, Option.bind_some, hshare]
        simp only
        cases hsave : updateSealedKeypair table ⟨enclave.keypairs.lock draw.nonce (share + t2' - x1'),
            enclave.params.publicKey (share + t2' - x1')⟩ statechainId with
        | error message => cases draw.store <;> exact .refused rfl rfl
        | ok table' =>
          have hwrites : Writes enclave table statechainId (parseHex t2) (parseHex x1) draw.nonce share t2' x1' table' :=
            ⟨hold, not_not.mp hlength2, not_not.mp hlength1, ht2, hx1, hne, hsum, hnewne, hsave⟩
          have hrow' := updateSealedKeypair_eq_ok hsave hrow
          have hnew : storedShare enclave table' statechainId = some (share + t2' - x1') := by
            rw [storedShare, hrow']
            exact enclave.keypairs.unlock_lock _ _
          have hkey : storedKey table' statechainId = some (enclave.params.publicKey (share + t2' - x1')) := by
            rw [storedKey, hrow']
            rfl
          cases hstore : draw.store with
          | failed text => exact .refused rfl rfl
          | ok => exact .moved share t2' x1' hwrites hnew hkey (.inl rfl)
          | lost text => exact .moved share t2' x1' hwrites hnew hkey (.inr ⟨⟨text, hstore⟩, rfl⟩)

theorem handle_keyupdate_of_writes {statechainId t2 x1 : String} {share t2' x1' : ZMod n} {table' : List (Row E)}
    (h : Writes enclave table statechainId (parseHex t2) (parseHex x1) draw.nonce share t2' x1' table')
    (hload : draw.load = .ok) (hstore : draw.store = .ok) :
    Lockbox.Server.handle enclave draw table (.keyupdate statechainId t2 x1) =
      (table', success "server_pubkey"
        (enclave.params.pubkeyBytes.encode (enclave.params.publicKey (share + t2' - x1')))) := by
  obtain ⟨encryptedKeypair, hsealed, hunlock⟩ := Option.bind_eq_some_iff.mp h.stored
  obtain ⟨row, hrow, hsealed⟩ := Option.bind_eq_some_iff.mp hsealed
  rw [storedRow] at hrow
  have hupdate : Enclave.keyUpdate enclave encryptedKeypair (parseHex x1) (parseHex t2) draw.nonce = .ok _ :=
    (keyUpdate_eq_ok enclave).mpr
      ⟨share, t2', x1', hunlock, h.t2_value, h.sum_ne_zero, h.x1_value, h.x1_ne_zero, h.new_ne_zero, rfl⟩
  simp only [Lockbox.Server.handle, h.t2_length, h.x1_length, ne_eq, not_true_eq_false, if_false, keyupdate,
    loadGeneratedKeyData, hload, hrow, hsealed, hupdate, h.unique, hstore, commit, reply]

end MercuryLayer.Lockbox.KeyUpdate
