import MercuryLayer.Library.Validation
import MercuryLayer.Musig.Session

namespace MercuryLayer.Lockbox.Enclave

open Crates Library.Validation Library.XOnlyCurve Musig.Session

/-- Authenticated encryption under the seed of the lockbox: what was locked is unlocked. -/
structure Sealing (α : Type) where
  lock : Bytes → α → Bytes
  unlock : Bytes → Option α
  unlock_lock : ∀ nonce a, unlock (lock nonce a) = some a

attribute [simp] Sealing.unlock_lock

/-- How a request is cut short: an exception, answered by the web framework, a failed
`assert` or a null pointer, which end the process. -/
inductive Abort
  | runtimeError (text : String)
  | assertFailed
  | nullPointer
deriving DecidableEq, Repr

variable {α : Type}

def decryptData (sealing : Sealing α) (encryptedData : Bytes) : Except Abort α :=
  orThrow (.runtimeError "\nSeed ecryption failed") (sealing.unlock encryptedData)

def assert : Option α → Except Abort α := orThrow .assertFailed

@[simp] theorem decryptData_eq_ok {sealing : Sealing α} {encryptedData : Bytes} {a : α} :
    decryptData sealing encryptedData = .ok a ↔ sealing.unlock encryptedData = some a := orThrow_eq_ok

@[simp] theorem assert_eq_ok {o : Option α} {a : α} : assert o = .ok a ↔ o = some a := orThrow_eq_ok

variable {n : ℕ} {E : Type} [AddCommGroup E] [Module (ZMod n) E]

/-- What the enclave works with: the curve, the sealing of key pairs and of secret nonces, and the nonce
derivation from a fresh session id. A key pair is its secret scalar. -/
structure Keyring (n : ℕ) (E : Type) [AddCommGroup E] [Module (ZMod n) E] where
  params : Params n E
  keypairs : Sealing (ZMod n)
  secnonces : Sealing (SecNonce (Point E) (ZMod n))
  nonceGen : Bytes → ZMod n → { k : ZMod n // k ≠ 0 } × { k : ZMod n // k ≠ 0 }

variable [DecidableEq E] (enclave : Keyring n E)

structure NewKeyPairResponse (E : Type) [AddCommGroup E] where
  encryptedData : Bytes
  serverPubkey : Point E

structure NewNonceResponse (E : Type) [AddCommGroup E] where
  encryptedSecnonce : Bytes
  serverPubnonce : Point E × Point E

/-- The key is the first of the random draws that is a valid secret key. -/
def generateNewKeypair (seckey : { k : ZMod n // k ≠ 0 }) (nonce : Bytes) : NewKeyPairResponse E :=
  { encryptedData := enclave.keypairs.lock nonce seckey
    serverPubkey := enclave.params.publicKey seckey }

def generateNonce (encryptedKeypair sessionId nonce : Bytes) : Except Abort (NewNonceResponse E) := do
  let seckey ← decryptData enclave.keypairs encryptedKeypair
  let (k0, k1) := enclave.nonceGen sessionId seckey
  let secnonce : SecNonce (Point E) (ZMod n) := ⟨k0, k1, enclave.params.publicKey seckey⟩
  return { encryptedSecnonce := enclave.secnonces.lock nonce secnonce
           serverPubnonce := (enclave.params.publicKey k0, enclave.params.publicKey k1) }

/-- `partial_signature`: the session is taken from the request, and a session, a nonce or a
key pair that does not fit fails the assertion on the signing call. -/
def partialSignature (encryptedKeypair encryptedSecnonce : Bytes) (negateSeckey : Int32)
    (sessionData : Bytes) : Except Abort (ZMod n) := do
  let seckey ← decryptData enclave.keypairs encryptedKeypair
  let secnonce ← decryptData enclave.secnonces encryptedSecnonce
  let session ← assert (enclave.params.sessionBytes.decode sessionData)
  assert (enclave.params.blindedMusigPartialSignWithoutKeyaggcoeff secnonce seckey session (negateSeckey ≠ 0))

/-- `secp256k1_ec_seckey_tweak_add`. -/
def seckeyTweakAdd (p : Params n E) (seckey : ZMod n) (tweak32 : Bytes) : Option (ZMod n) :=
  (p.setB32 tweak32).bind (fun tweak => if seckey + tweak = 0 then none else some (seckey + tweak))

def keyUpdate (oldEncryptedKeypair serializedX1 serializedT2 nonce : Bytes) :
    Except Abort (NewKeyPairResponse E) := do
  let seckey ← decryptData enclave.keypairs oldEncryptedKeypair
  let newSeckey ← assert (seckeyTweakAdd enclave.params seckey serializedT2)
  let x1 ← assert (enclave.params.secp.secretKeyFromSlice serializedX1)
  let newSeckey ← assert (seckeyTweakAdd enclave.params newSeckey (enclave.params.getB32 (-x1)))
  return { encryptedData := enclave.keypairs.lock nonce newSeckey
           serverPubkey := enclave.params.publicKey newSeckey }

theorem generateNonce_eq_ok {encryptedKeypair sessionId nonce : Bytes} {response : NewNonceResponse E} :
    generateNonce enclave encryptedKeypair sessionId nonce = .ok response ↔
      ∃ seckey, enclave.keypairs.unlock encryptedKeypair = some seckey ∧
        response = ⟨enclave.secnonces.lock nonce ⟨(enclave.nonceGen sessionId seckey).1,
            (enclave.nonceGen sessionId seckey).2, enclave.params.publicKey seckey⟩,
          (enclave.params.publicKey (enclave.nonceGen sessionId seckey).1,
            enclave.params.publicKey (enclave.nonceGen sessionId seckey).2)⟩ := by
  simp only [generateNonce, bind_eq_ok, decryptData_eq_ok, pure_eq_ok]
  constructor
  · rintro ⟨seckey, hkey, h⟩
    exact ⟨seckey, hkey, h.symm⟩
  · rintro ⟨seckey, hkey, h⟩
    exact ⟨seckey, hkey, h.symm⟩

theorem partialSignature_eq_ok {encryptedKeypair encryptedSecnonce sessionData : Bytes} {negateSeckey : Int32}
    {sig : ZMod n} :
    partialSignature enclave encryptedKeypair encryptedSecnonce negateSeckey sessionData = .ok sig ↔
      ∃ seckey secnonce session, enclave.keypairs.unlock encryptedKeypair = some seckey ∧
        enclave.secnonces.unlock encryptedSecnonce = some secnonce ∧
        enclave.params.sessionBytes.decode sessionData = some session ∧
        enclave.params.blindedMusigPartialSignWithoutKeyaggcoeff secnonce seckey session (negateSeckey ≠ 0) =
          some sig := by
  simp [partialSignature]

omit [DecidableEq E] in
theorem seckeyTweakAdd_eq_some {p : Params n E} {seckey newSeckey : ZMod n} {tweak32 : Bytes} :
    seckeyTweakAdd p seckey tweak32 = some newSeckey ↔
      ∃ tweak, p.setB32 tweak32 = some tweak ∧ newSeckey = seckey + tweak ∧ newSeckey ≠ 0 := by
  simp only [seckeyTweakAdd, Option.bind_eq_some_iff]
  grind

/-- The share moves to `s + t2 - x1`; neither the sum with `t2` nor the result is zero. -/
theorem keyUpdate_eq_ok {oldEncryptedKeypair serializedX1 serializedT2 nonce : Bytes}
    {response : NewKeyPairResponse E} :
    keyUpdate enclave oldEncryptedKeypair serializedX1 serializedT2 nonce = .ok response ↔
      ∃ seckey t2 x1, enclave.keypairs.unlock oldEncryptedKeypair = some seckey ∧
        enclave.params.setB32 serializedT2 = some t2 ∧ seckey + t2 ≠ 0 ∧
        enclave.params.setB32 serializedX1 = some x1 ∧ x1 ≠ 0 ∧ seckey + t2 - x1 ≠ 0 ∧
        response = ⟨enclave.keypairs.lock nonce (seckey + t2 - x1),
          enclave.params.publicKey (seckey + t2 - x1)⟩ := by
  simp only [keyUpdate, bind_eq_ok, decryptData_eq_ok, assert_eq_ok, pure_eq_ok, seckeyTweakAdd_eq_some,
    enclave.params.setB32_getB32, Params.secp, Option.filter_eq_some_iff, decide_eq_true_eq]
  constructor
  · rintro ⟨seckey, hkey, _, ⟨t2, ht2, rfl, h2⟩, x1, ⟨hx1, h1⟩, _, ⟨_, ⟨⟩, rfl, hnew⟩, rfl⟩
    rw [← sub_eq_add_neg] at hnew ⊢
    exact ⟨seckey, t2, x1, hkey, ht2, h2, hx1, h1, hnew, rfl⟩
  · rintro ⟨seckey, t2, x1, hkey, ht2, h2, hx1, h1, hnew, rfl⟩
    exact ⟨seckey, hkey, seckey + t2, ⟨t2, ht2, rfl, h2⟩, x1, ⟨hx1, h1⟩, seckey + t2 - x1,
      ⟨-x1, rfl, sub_eq_add_neg _ _, hnew⟩, rfl⟩

/-- An enclave over the group of order seven, whose nonces depend on the session id. -/
def sevenKeyring : Keyring 7 (ZMod 7) where
  params := seven
  keypairs :=
    { lock := fun _ k => [byteOf k]
      unlock := fun | [u] => scalarOfByte u | _ => none
      unlock_lock := fun _ k => scalarOfByte_byteOf k }
  secnonces :=
    { lock := fun _ nonce => secnonceSeven.encode nonce
      unlock := secnonceSeven.decode
      unlock_lock := fun _ nonce => secnonceSeven.decode_encode nonce }
  nonceGen sessionId _ := (if sessionId = [2] then ⟨2, two_ne_zero_seven⟩ else ⟨1, one_ne_zero_seven⟩, ⟨1, one_ne_zero_seven⟩)

end MercuryLayer.Lockbox.Enclave
