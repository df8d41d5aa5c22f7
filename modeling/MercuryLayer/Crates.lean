import MercuryLayer.Error
import MercuryLayer.Hex
import MercuryLayer.Library.XOnlyCurve

namespace MercuryLayer.Crates

open Error Library.XOnlyCurve

structure OutPoint where
  txid : String
  vout : UInt32
deriving DecidableEq, Repr

structure TxIn where
  previousOutput : OutPoint
  scriptSig : Bytes
  sequence : UInt32
  witness : List Bytes
deriving DecidableEq, Repr

structure TxOut where
  value : UInt64
  scriptPubkey : Bytes
deriving DecidableEq, Repr

structure Transaction where
  version : Int32
  lockTime : UInt32
  input : List TxIn
  output : List TxOut
deriving DecidableEq

inductive Network
  | bitcoin
  | testnet
  | signet
  | regtest
deriving DecidableEq, Repr

/-- `LockTime::is_block_height`: the consensus threshold between heights and times. -/
def isBlockHeight (lockTime : UInt32) : Bool := lockTime < 500000000

/-- The `bitcoin` crate as the library calls it. `deserialize` is `hex::decode` followed by
the consensus decoder, `sighash` the taproot key-spend hash of input 0 with `SIGHASH_ALL`. -/
structure Bitcoin where
  deserialize : String → Except MercuryError Transaction
  serialize : Transaction → String
  txid : Transaction → String
  txidFromStr : String → Option Bytes
  vsize : Transaction → ℕ
  sighash : Transaction → List TxOut → Option Bytes
  addressToStr : Bytes → Network → String
  addressFromScript : Bytes → Network → Option String
  scriptOfAddress : String → Network → Option Bytes

/-- A text or byte form that is read back as it was written. -/
structure Codec (α β : Type) where
  encode : α → β
  decode : β → Option α
  decode_encode : ∀ a, decode (encode a) = some a

attribute [simp] Codec.decode_encode

def hexCodec : Codec Bytes String := ⟨Hex.encode, Hex.decode, Hex.decode_encode⟩

theorem hexCodec_decode : hexCodec.decode = Hex.decode := rfl

structure Signature where
  r : Bytes
  s : Bytes
deriving DecidableEq, Repr

structure SecNonce (E K : Type) where
  k0 : K
  k1 : K
  pk : E
deriving DecidableEq

structure Session (K : Type) where
  finNonceParity : Bool
  finNonce : Bytes
  noncecoef : K
  challenge : K
  sPart : K
deriving DecidableEq

/-- The `secp256k1-zkp` and `bitcoin::key` crates as the library calls them, over public
keys `E` and scalars `K`. A result `none` is the error of the call. -/
structure Secp (E K : Type) where
  publicKeyFromStr : String → Option E
  publicKeyToStr : E → String
  serialize : E → Bytes
  xOnly : E → Bytes
  xOnlyFromSlice : Bytes → Option Bytes
  combine : E → E → Option E
  tapTweakHash : Bytes → Bytes
  p2trOutputKey : Bytes → Option Bytes
  secretKeyFromSlice : Bytes → Option K
  secretBytes : K → Bytes
  secretHex : K → String
  scalarFromBeBytes : Bytes → Option K
  privateKeyFromWif : String → Option K
  publicKey : K → E
  negate : K → K
  addTweak : K → K → Option K
  sha256 : Bytes → Bytes
  signatureFromStr : String → Option Signature
  signatureToStr : Signature → String
  signatureFromSlice : Bytes → Option Signature
  verifySchnorr : Signature → Bytes → Bytes → Bool
  signSchnorr : Bytes → K → Signature
  pubNonceFromStr : String → Except MercuryError (E × E)
  blindingFactorFromStr : String → Except MercuryError K
  pubkeyXonlyTweakAdd : E → K → Option (Bool × E × K)
  newBlindedSession : E → List (E × E) → Bytes → K → K → Option (Session K)

/-- The signing half of the `musig` module of the same crate. -/
structure Musig (E K : Type) where
  negateSeckey : E → Bool → Bool
  secNonceFromStr : String → Res (SecNonce E K)
  partialSign : SecNonce E K → K → Session K → Bool → Option K
  partialSigVerify : K → E × E → E → E → Session K → Bool → Bool
  removeFinNonceFromSession : Session K → Session K
  sessionToStr : Session K → String
  sessionFromStr : String → Res (Session K)
  partialSigToStr : K → String
  partialSigFromStr : String → Except MercuryError K
  partialSigAgg : Session K → List K → Signature
  messageToHex : Bytes → String
  messageFromHex : String → Except MercuryError Bytes

variable {E K : Type}

/-- `Address::p2tr(..).script_pubkey()`: OP_1, a push of 32 bytes, the output key. -/
def p2trScript (secp : Secp E K) (internalKey : Bytes) : Res Bytes := do
  let key ← unwrap (secp.p2trOutputKey internalKey)
  return 0x51 :: 0x20 :: key

/-- `XOnlyPublicKey::from_slice(script[2..]).unwrap()`, which also panics on a short script. -/
def xOnlyOfScript (secp : Secp E K) (script : Bytes) : Res Bytes :=
  unwrap (if script.length < 2 then none else secp.xOnlyFromSlice (script.drop 2))

theorem p2trScript_eq_ok {secp : Secp E K} {key script : Bytes} :
    p2trScript secp key = .ok script ↔ ∃ out, secp.p2trOutputKey key = some out ∧ 0x51 :: 0x20 :: out = script := by
  simp [p2trScript]

theorem xOnlyOfScript_p2tr (secp : Secp E K) (key : Bytes) :
    xOnlyOfScript secp (0x51 :: 0x20 :: key) = unwrap (secp.xOnlyFromSlice key) := by
  simp [xOnlyOfScript]

theorem xOnlyOfScript_eq_ok {secp : Secp E K} {script key : Bytes} :
    xOnlyOfScript secp script = .ok key ↔ 2 ≤ script.length ∧ secp.xOnlyFromSlice (script.drop 2) = some key := by
  by_cases h : script.length < 2
  · simp [xOnlyOfScript, h]
  · have h2 : 2 ≤ script.length := by omega
    simp [xOnlyOfScript, h, h2]

end MercuryLayer.Crates
