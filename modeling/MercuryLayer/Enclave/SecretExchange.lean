import MercuryLayer.Enclave.SealingKeyManager
import MercuryLayer.Library.LittleEndian
import MercuryLayer.Library.Validation
import MercuryLayer.Lockbox.HexCodec

namespace MercuryLayer.Enclave.SecretExchange

open Enclave.SealingKeyManager Library.LittleEndian Library.Validation
open Library.XOnlyCurve (Bytes)
open Lockbox.HexCodec (parseHex parseHex_eq hexByte charOf_flatMap_hexByte)

abbrev Block (n : ℕ) : Type := { bytes : Bytes // bytes.length = n }

/-- `chacha20_poly1305_encrypted_data`, whose `data` points to `data_len` bytes. -/
structure EncryptedData where
  dataLen : UInt64
  nonce : Block 24
  mac : Block 16
  data : Bytes
  length_data : data.length = dataLen.toNat
deriving DecidableEq

/-- How a call can end without returning. To read or write outside of a buffer is undefined. -/
inductive Stop
  | undefined
  | badAlloc
  | runtimeError (text : String)
deriving DecidableEq, Repr

section Codec

def serialize (src : EncryptedData) : Bytes :=
  leBytes 8 src.dataLen.toNat ++ (src.nonce.1 ++ (src.mac.1 ++ src.data))

def memcpy (buffer : Bytes) (offset n : ℕ) : Except Stop (Block n) :=
  if h : offset + n ≤ buffer.length then
    .ok ⟨(buffer.drop offset).take n, by rw [List.length_take, List.length_drop]; omega⟩
  else .error .undefined

def dataLenOf (buffer : Bytes) : UInt64 := (ofLeBytes (buffer.take 8)).toUInt64

/-- The buffer comes without its size. A `new` that does not find the memory throws. -/
def deserialize (allocates : UInt64 → Bool) (buffer : Bytes) : Except Stop EncryptedData := do
  let _ ← memcpy buffer 0 8
  let nonce ← memcpy buffer 8 24
  let mac ← memcpy buffer 32 16
  throwIf (allocates (dataLenOf buffer) = false) .badAlloc
  let data ← memcpy buffer 48 (dataLenOf buffer).toNat
  return ⟨dataLenOf buffer, nonce, mac, data.1, data.2⟩

end Codec

section AddSecret

/-- The enclave's part in the exchange of a seed: a call that fails is `none`. -/
structure Exchange where
  unsealKey : Bytes → Option Bytes
  x25519 : Bytes → Bytes → Bytes
  aeadUnlock : (mac key nonce data : Bytes) → Option Bytes
  sealKeyShare : Bytes → Option Bytes

/-- The plain text goes to an array of 32 bytes. -/
def decryptSeed (exchange : Exchange) (sealedEphemeralPrivkey theirEphemeralPublicKey : Bytes)
    (encryptedSeed : EncryptedData) : Except Stop (Option Bytes) :=
  match exchange.unsealKey sealedEphemeralPrivkey with
  | none => .ok none
  | some ephemeralPrivkey =>
    let sharedSecret := exchange.x25519 ephemeralPrivkey theirEphemeralPublicKey
    match exchange.aeadUnlock encryptedSeed.mac.1 sharedSecret encryptedSeed.nonce.1 encryptedSeed.data with
    | none => .ok none
    | some plain =>
      if 32 < encryptedSeed.dataLen.toNat then .error .undefined
      else .ok (exchange.sealKeyShare (plain ++ List.replicate (32 - plain.length) 0))

def strip0x (text : Bytes) : Bytes := if text.take 2 = "0x".toList.map Char.toUInt8 then text.drop 2 else text

/-- What `addSecret` makes of its arguments. -/
def readSecret (allocates : UInt64 → Bool) (encryptedSecretKey senderPublicKey : Bytes) :
    Except Stop (EncryptedData × Bytes) := do
  let encryptedSecretKeyBytes ← orThrow .undefined (parseHex (strip0x encryptedSecretKey))
  throwIf (encryptedSecretKeyBytes.length ≠ 80)
    (.runtimeError "Invalid encrypted secret key length. Must be 80 bytes!")
  let senderPublicKeyBytes ← orThrow .undefined (parseHex (strip0x senderPublicKey))
  throwIf (senderPublicKeyBytes.length ≠ 32) (.runtimeError "Invalid sender public key length. Must be 32 bytes!")
  let encryptedSeed ← deserialize allocates encryptedSecretKeyBytes
  return (encryptedSeed, senderPublicKeyBytes)

/-- The manager's sealed key for the exchange and the size of a sealed seed are given. If the ecall is not made,
`host.ecallRet` is what its result happens to hold. -/
def addSecret (allocates : UInt64 → Bool) (exchange : Exchange) (host : Host) (sealedPrivateKey : Bytes)
    (sealedSeedSize : ℕ) (m : Manager) (encryptedSecretKey senderPublicKey : Bytes) : Except Stop Bool × Manager :=
  if !m.isSeedEmpty then (.ok false, m)
  else match readSecret allocates encryptedSecretKey senderPublicKey with
    | .error stop => (.error stop, m)
    | .ok (encryptedSeed, senderPublicKeyBytes) =>
      let m := { m with sealedSeed := List.replicate sealedSeedSize 0 }
      if !host.status then
        (.error (.runtimeError (if host.ecallRet then "Decrypt seed failed." else "Decrypt seed Ecall failed.")), m)
      else match decryptSeed exchange sealedPrivateKey senderPublicKeyBytes encryptedSeed with
        | .error stop => (.error stop, m)
        | .ok none => (.error (.runtimeError "Decrypt seed Ecall failed."), m)
        | .ok (some sealedSeed) =>
          let m := { m with sealedSeed := sealedSeed }
          if m.isSeedEmpty then (.ok true, m)
          else
            let (seedWritten, m) := m.writeSeedToFile host
            if !seedWritten then (.error (.runtimeError "Failed to write seed to file."), m) else (.ok true, m)

end AddSecret

section RoundTrip

theorem memcpy_append {n offset : ℕ} (front rest : Bytes) (block : Block n) (hoffset : front.length = offset) :
    memcpy (front ++ (block.1 ++ rest)) offset n = .ok block := by
  obtain ⟨bytes, rfl⟩ := block
  subst hoffset
  rw [memcpy, dif_pos (by simp)]
  congr
  rw [List.drop_left, List.take_left]

theorem dataLenOf_leBytes (dataLen : UInt64) (rest : Bytes) : dataLenOf (leBytes 8 dataLen.toNat ++ rest) = dataLen := by
  rw [dataLenOf, List.take_left' (length_leBytes 8 _), ofLeBytes_leBytes dataLen.toNat_lt]
  exact UInt64.ofNat_toNat

theorem deserialize_of_fields {allocates : UInt64 → Bool} {buffer : Bytes} {dataLen : UInt64} {front : Block 8}
    {nonce : Block 24} {mac : Block 16} {data : Block dataLen.toNat} (hfront : memcpy buffer 0 8 = .ok front)
    (hnonce : memcpy buffer 8 24 = .ok nonce) (hmac : memcpy buffer 32 16 = .ok mac)
    (hdataLen : dataLenOf buffer = dataLen) (hdata : memcpy buffer 48 dataLen.toNat = .ok data) :
    deserialize allocates buffer =
      if allocates dataLen then .ok ⟨dataLen, nonce, mac, data.1, data.2⟩ else .error .badAlloc := by
  subst hdataLen
  simp only [deserialize, hfront, hnonce, hmac, hdata, ok_bind, throwIf]
  cases allocates (dataLenOf buffer) <;> rfl

theorem deserialize_serialize (allocates : UInt64 → Bool) (record : EncryptedData) :
    deserialize allocates (serialize record) = if allocates record.dataLen then .ok record else .error .badAlloc := by
  have hfront : memcpy (serialize record) 0 8 = .ok ⟨_, length_leBytes 8 record.dataLen.toNat⟩ :=
    memcpy_append [] _ ⟨_, length_leBytes 8 _⟩ rfl
  have hnonce : memcpy (serialize record) 8 24 = .ok record.nonce := memcpy_append _ _ record.nonce (length_leBytes 8 _)
  have hmac : memcpy (serialize record) 32 16 = .ok record.mac := by
    rw [serialize, ← List.append_assoc]
    exact memcpy_append _ _ record.mac (by rw [List.length_append, length_leBytes, record.nonce.2])
  have hdata : memcpy (serialize record) 48 record.dataLen.toNat = .ok ⟨record.data, record.length_data⟩ := by
    have hlength : (leBytes 8 record.dataLen.toNat ++ record.nonce.1 ++ record.mac.1).length = 48 := by
      rw [List.length_append, List.length_append, length_leBytes, record.nonce.2, record.mac.2]
    have hcopy := memcpy_append _ [] ⟨record.data, record.length_data⟩ hlength
    rwa [List.append_nil, List.append_assoc, List.append_assoc] at hcopy
  exact deserialize_of_fields hfront hnonce hmac (dataLenOf_leBytes _ _) hdata

end RoundTrip

section Length

variable {allocates : UInt64 → Bool} {m : Manager} {encryptedSecretKey senderPublicKey buffer : Bytes}

theorem memcpy_eq_ok {offset n : ℕ} (h : offset + n ≤ buffer.length) : ∃ block, memcpy buffer offset n = .ok block :=
  ⟨_, dif_pos h⟩

/-- A buffer that has the fixed fields is read as long as its own `data_len` says, not as long as it is. -/
theorem deserialize_eq (h : 48 ≤ buffer.length) :
    ∃ nonce mac, deserialize allocates buffer = do
      throwIf (allocates (dataLenOf buffer) = false) .badAlloc
      let data ← memcpy buffer 48 (dataLenOf buffer).toNat
      return ⟨dataLenOf buffer, nonce, mac, data.1, data.2⟩ := by
  obtain ⟨front, hfront⟩ := memcpy_eq_ok (show 0 + 8 ≤ buffer.length by omega)
  obtain ⟨nonce, hnonce⟩ := memcpy_eq_ok (show 8 + 24 ≤ buffer.length by omega)
  obtain ⟨mac, hmac⟩ := memcpy_eq_ok (show 32 + 16 ≤ buffer.length by omega)
  refine ⟨nonce, mac, ?_⟩
  rw [deserialize, hfront, hnonce, hmac]
  rfl

theorem deserialize_of_not_allocates (h : 48 ≤ buffer.length) (hallocates : allocates (dataLenOf buffer) = false) :
    deserialize allocates buffer = .error .badAlloc := by
  obtain ⟨nonce, mac, hread⟩ := deserialize_eq h
  rw [hread, throwIf, if_pos hallocates]
  rfl

theorem deserialize_of_le (hallocates : allocates (dataLenOf buffer) = true)
    (h : 48 + (dataLenOf buffer).toNat ≤ buffer.length) :
    ∃ record, deserialize allocates buffer = .ok record ∧ record.dataLen = dataLenOf buffer := by
  obtain ⟨nonce, mac, hread⟩ := deserialize_eq (show 48 ≤ buffer.length by omega)
  obtain ⟨data, hdata⟩ := memcpy_eq_ok h
  refine ⟨⟨dataLenOf buffer, nonce, mac, data.1, data.2⟩, ?_, rfl⟩
  rw [hread, throwIf, if_neg (by simp [hallocates]), hdata]
  rfl

theorem deserialize_of_lt (h : 48 ≤ buffer.length) (hallocates : allocates (dataLenOf buffer) = true)
    (hlength : buffer.length < 48 + (dataLenOf buffer).toNat) : deserialize allocates buffer = .error .undefined := by
  obtain ⟨nonce, mac, hread⟩ := deserialize_eq h
  rw [hread, throwIf, if_neg (by simp [hallocates]), memcpy, dif_neg (not_le_of_gt hlength)]
  rfl

theorem dataLen_of_deserialize {record : EncryptedData} (h : 48 ≤ buffer.length)
    (hread : deserialize allocates buffer = .ok record) : record.dataLen = dataLenOf buffer := by
  obtain ⟨nonce, mac, heq⟩ := deserialize_eq h
  rw [heq] at hread
  simp only [bind_eq_ok, pure_eq_ok] at hread
  obtain ⟨-, -, data, -, rfl⟩ := hread
  rfl

/-- The texts pass the checks of `addSecret`, with a manager that has no seed. -/
structure Accepted (m : Manager) (encryptedSecretKey senderPublicKey : Bytes) (buffer : Block 80) (key : Block 32) :
    Prop where
  isSeedEmpty : m.isSeedEmpty = true
  parseHex_encryptedSecretKey : parseHex (strip0x encryptedSecretKey) = some buffer.1
  parseHex_senderPublicKey : parseHex (strip0x senderPublicKey) = some key.1

theorem readSecret_of_accepted {buffer : Block 80} {key : Block 32}
    (h : Accepted m encryptedSecretKey senderPublicKey buffer key) :
    readSecret allocates encryptedSecretKey senderPublicKey =
      (do return (← deserialize allocates buffer.1, key.1)) := by
  rw [readSecret, h.parseHex_encryptedSecretKey, h.parseHex_senderPublicKey]
  simp only [orThrow_some, ok_bind, throwIf, buffer.2, key.2, ne_eq, not_true_eq_false, if_false]

/-- The record is read only if it is as long as the rest of the buffer, which is the size of a seed, and a buffer
with any other `data_len` is refused. -/
def LengthChecked (allocates : UInt64 → Bool) (encryptedSecretKey senderPublicKey buffer : Bytes) : Prop :=
  (∀ record sender, readSecret allocates encryptedSecretKey senderPublicKey = .ok (record, sender) →
    record.dataLen.toNat = buffer.length - 48 ∧ record.dataLen = 32) ∧
  ((dataLenOf buffer).toNat ≠ buffer.length - 48 →
    ∃ stop, readSecret allocates encryptedSecretKey senderPublicKey = .error stop ∧ stop ≠ .undefined)

theorem lengthChecked_iff {buffer : Block 80} {key : Block 32}
    (h : Accepted m encryptedSecretKey senderPublicKey buffer key) :
    LengthChecked allocates encryptedSecretKey senderPublicKey buffer.1 ↔
      dataLenOf buffer.1 = 32 ∨ allocates (dataLenOf buffer.1) = false := by
  have hlength : buffer.1.length = 80 := buffer.2
  have hfixed : 48 ≤ buffer.1.length := by omega
  have hseed : dataLenOf buffer.1 = 32 ↔ (dataLenOf buffer.1).toNat = 32 := UInt64.toNat_inj.symm
  rw [LengthChecked, readSecret_of_accepted h, hlength]
  constructor
  · intro hchecked
    by_contra hnot
    obtain ⟨hother, hallocates⟩ := not_or.mp hnot
    rw [Bool.not_eq_false] at hallocates
    obtain hle | hlt := le_or_gt (48 + (dataLenOf buffer.1).toNat) buffer.1.length
    · obtain ⟨record, hread, hdataLen⟩ := deserialize_of_le hallocates hle
      have hrecord := (hchecked.1 record key.1 (by rw [hread]; rfl)).2
      exact hother (hdataLen.symm.trans hrecord)
    · obtain ⟨stop, hstop, hdefined⟩ := hchecked.2 (fun heq => hother (hseed.mpr heq))
      rw [deserialize_of_lt hfixed hallocates hlt] at hstop
      cases hstop
      exact hdefined rfl
  · rintro (hthirtyTwo | hallocates)
    · refine ⟨fun record sender hread => ?_, fun hother => absurd (hseed.mp hthirtyTwo) hother⟩
      simp only [bind_eq_ok, pure_eq_ok, Prod.mk.injEq] at hread
      obtain ⟨_, hread, rfl, -⟩ := hread
      have hrecord := (dataLen_of_deserialize hfixed hread).trans hthirtyTwo
      exact ⟨by rw [hrecord]; rfl, hrecord⟩
    · rw [deserialize_of_not_allocates hfixed hallocates]
      refine ⟨fun record sender hread => ?_, fun _ => ⟨.badAlloc, rfl, fun h => ?_⟩⟩
      · cases hread
      · cases h

/-- A record is read as it was written, and of the buffers that `addSecret` takes, those and only those whose
`data_len` is 32, or that there is no memory for, have their length checked. -/
theorem encrypted_data_codec (allocates : UInt64 → Bool) (m : Manager) (encryptedSecretKey senderPublicKey : Bytes)
    (buffer : Block 80) (key : Block 32) (h : Accepted m encryptedSecretKey senderPublicKey buffer key) :
    (∀ record, allocates record.dataLen = true → deserialize allocates (serialize record) = .ok record) ∧
      (LengthChecked allocates encryptedSecretKey senderPublicKey buffer.1 ↔
        dataLenOf buffer.1 = 32 ∨ allocates (dataLenOf buffer.1) = false) := by
  refine ⟨fun record hallocates => ?_, lengthChecked_iff h⟩
  rw [deserialize_serialize, if_pos hallocates]

theorem strip0x_hexByte (u : UInt8) (rest : Bytes) : strip0x (hexByte u ++ rest) = hexByte u ++ rest := by
  have hdigits : ∀ u : UInt8, (hexByte u).length = 2 ∧ hexByte u ≠ "0x".toList.map Char.toUInt8 := by
    rintro ⟨b⟩
    revert b
    decide +kernel
  obtain ⟨hlength, hother⟩ := hdigits u
  rw [strip0x, List.take_left' hlength, if_neg hother]

theorem parseHex_strip0x (bytes : Bytes) : parseHex (strip0x (bytes.flatMap hexByte)) = some bytes := by
  have hstrip : strip0x (bytes.flatMap hexByte) = bytes.flatMap hexByte := by
    cases bytes with
    | nil => rfl
    | cons u bytes => rw [List.flatMap_cons, strip0x_hexByte]
  rw [hstrip, parseHex_eq, charOf_flatMap_hexByte, Lockbox.Server.parseHexChars_encodeChars]

def seedless : Manager := ⟨[], 0, [], none⟩

theorem accepted_flatMap_hexByte (buffer : Block 80) (key : Block 32) :
    Accepted seedless (buffer.1.flatMap hexByte) (key.1.flatMap hexByte) buffer key :=
  ⟨rfl, parseHex_strip0x buffer.1, parseHex_strip0x key.1⟩

/-- A buffer of 80 bytes with a given `data_len` below 256, of which all other bytes are zero. -/
def zerosAfter (dataLen : UInt8) : Block 80 := ⟨dataLen :: List.replicate 79 0, rfl⟩

def zeroKey : Block 32 := ⟨List.replicate 32 0, rfl⟩

theorem encrypted_data_codec_thirtyTwo :
    Accepted seedless ((zerosAfter 32).1.flatMap hexByte) (zeroKey.1.flatMap hexByte) (zerosAfter 32) zeroKey ∧
      LengthChecked (fun _ => true) ((zerosAfter 32).1.flatMap hexByte) (zeroKey.1.flatMap hexByte)
        (zerosAfter 32).1 :=
  ⟨accepted_flatMap_hexByte _ _,
    (encrypted_data_codec (fun _ => true) _ _ _ _ _ (accepted_flatMap_hexByte (zerosAfter 32) zeroKey)).2.mpr
      (.inl (by decide))⟩

/-- An exchange in which every message opens. -/
def opening : Exchange where
  unsealKey := some
  x25519 _ publicKey := publicKey
  aeadUnlock _ _ _ data := some data
  sealKeyShare seed := some (1 :: seed)

def willing : Host where
  sealEcallRet := true
  sealStatus := true
  sealedKeyFromMnemonics _ _ := []
  ecallRet := true
  status := true
  sealedSeed := []
  opened := true
  good := true
  written := []
  readable := true

/-- With a `data_len` of 0 the 32 bytes after the fixed fields are not looked at and a seed of zeros is taken over,
and with a `data_len` of 33 the copy reads a byte after the end of the buffer. -/
theorem dataLen_unchecked :
    ¬LengthChecked (fun _ => true) ((zerosAfter 0).1.flatMap hexByte) (zeroKey.1.flatMap hexByte) (zerosAfter 0).1 ∧
      (addSecret (fun _ => true) opening willing [] 33 seedless ((zerosAfter 0).1.flatMap hexByte)
        (zeroKey.1.flatMap hexByte)).1 = .ok true ∧
      ¬LengthChecked (fun _ => true) ((zerosAfter 33).1.flatMap hexByte) (zeroKey.1.flatMap hexByte)
        (zerosAfter 33).1 ∧
      (addSecret (fun _ => true) opening willing [] 33 seedless ((zerosAfter 33).1.flatMap hexByte)
        (zeroKey.1.flatMap hexByte)).1 = .error .undefined := by
  refine ⟨?_, ?_, ?_, ?_⟩
  · rw [lengthChecked_iff (accepted_flatMap_hexByte (zerosAfter 0) zeroKey)]
    decide
  · rw [addSecret, readSecret_of_accepted (accepted_flatMap_hexByte (zerosAfter 0) zeroKey)]
    decide +kernel
  · rw [lengthChecked_iff (accepted_flatMap_hexByte (zerosAfter 33) zeroKey)]
    decide
  · rw [addSecret, readSecret_of_accepted (accepted_flatMap_hexByte (zerosAfter 33) zeroKey)]
    decide +kernel

end Length

end MercuryLayer.Enclave.SecretExchange
