import MercuryLayer.Library.Validation

namespace MercuryLayer.Error

open Library.Validation

inductive MercuryError
  | networkConversionError
  | secp256k1UpstreamError
  | keyError
  | bech32Error
  | hexError
  | locktimeNotBlockHeightError
  | locktimeTooLow
  | locktimeTooHigh
  | transactionReconstructionError
  | transactionVersionError
  | transactionSequenceDifferentThanZeroError
  | bitcoinConsensusEncodeError
  | bitcoinAddressError
  | bitcoinAbsoluteError
  | bitcoinHashHexError
  | bitcoinPsbtError
  | bitcoinSighashError
  | parseError
  | musigSignError
  | schnorrSignatureValidationError
  | moreThanOneInputError
  | feeTooHigh
  | feeTooLow
  | outOfRangeError
  | secpError
  | noBackupTransactionFound
  | tx1HasMoreThanOneInput
  | txHasMoreThanOneOutput
  | emptyInput
  | invalidSignature
  | emptyWitness
  | emptyWitnessData
  | incorrectChallenge
  | invalidT1
  | incorrectAggregatedPublicKey
  | noX1Pub
  | coinNotFound
  | signatureSchemeValidationError
  | noPreviousLockTimeError
  | invalidStatechainAddressError
  | invalidBitcoinAddressError
  | statechainAddressMismatchNetworkError
  | bitcoinAddressMismatchNetworkError
  | noAggregatedPubkeyError
  | unkownNetwork
  | backupTransactionDoesNotPayUser
deriving DecidableEq, Repr

/-- The `Display` text of an error is the name of its variant. -/
def MercuryError.toText : MercuryError → String
  | .networkConversionError => "NetworkConversionError"
  | .secp256k1UpstreamError => "Secp256k1UpstreamError"
  | .keyError => "KeyError"
  | .bech32Error => "Bech32Error"
  | .hexError => "HexError"
  | .locktimeNotBlockHeightError => "LocktimeNotBlockHeightError"
  | .locktimeTooLow => "LocktimeTooLow"
  | .locktimeTooHigh => "LocktimeTooHigh"
  | .transactionReconstructionError => "TransactionReconstructionError"
  | .transactionVersionError => "TransactionVersionError"
  | .transactionSequenceDifferentThanZeroError => "TransactionSequenceDifferentThanZeroError"
  | .bitcoinConsensusEncodeError => "BitcoinConsensusEncodeError"
  | .bitcoinAddressError => "BitcoinAddressError"
  | .bitcoinAbsoluteError => "BitcoinAbsoluteError"
  | .bitcoinHashHexError => "BitcoinHashHexError"
  | .bitcoinPsbtError => "BitcoinPsbtError"
  | .bitcoinSighashError => "BitcoinSighashError"
  | .parseError => "ParseError"
  | .musigSignError => "MusigSignError"
  | .schnorrSignatureValidationError => "SchnorrSignatureValidationError"
  | .moreThanOneInputError => "MoreThanOneInputError"
  | .feeTooHigh => "FeeTooHigh"
  | .feeTooLow => "FeeTooLow"
  | .outOfRangeError => "OutOfRangeError"
  | .secpError => "SecpError"
  | .noBackupTransactionFound => "NoBackupTransactionFound"
  | .tx1HasMoreThanOneInput => "Tx1HasMoreThanOneInput"
  | .txHasMoreThanOneOutput => "TxHasMoreThanOneOutput"
  | .emptyInput => "EmptyInput"
  | .invalidSignature => "InvalidSignature"
  | .emptyWitness => "EmptyWitness"
  | .emptyWitnessData => "EmptyWitnessData"
  | .incorrectChallenge => "IncorrectChallenge"
  | .invalidT1 => "InvalidT1"
  | .incorrectAggregatedPublicKey => "IncorrectAggregatedPublicKey"
  | .noX1Pub => "NoX1Pub"
  | .coinNotFound => "CoinNotFound"
  | .signatureSchemeValidationError => "SignatureSchemeValidationError"
  | .noPreviousLockTimeError => "NoPreviousLockTimeError"
  | .invalidStatechainAddressError => "InvalidStatechainAddressError"
  | .invalidBitcoinAddressError => "InvalidBitcoinAddressError"
  | .statechainAddressMismatchNetworkError => "StatechainAddressMismatchNetworkError"
  | .bitcoinAddressMismatchNetworkError => "BitcoinAddressMismatchNetworkError"
  | .noAggregatedPubkeyError => "NoAggregatedPubkeyError"
  | .unkownNetwork => "UnkownNetwork"
  | .backupTransactionDoesNotPayUser => "BackupTransactionDoesNotPayUser"

/-- How a call can fail: an error of the library, an `anyhow` text of the client, or a
panic (`unwrap`, indexing, `assert!`), which no caller handles. -/
inductive Failure
  | mercury (e : MercuryError)
  | anyhow (text : String)
  | panic
deriving DecidableEq, Repr

abbrev Res := Except Failure

variable {α β : Type}

def unwrap : Option α → Res α := orThrow .panic

def orErr (e : MercuryError) : Option α → Res α := orThrow (.mercury e)

/-- The `?` operator on a `Result` of another crate. -/
def question : Except MercuryError α → Res α
  | .ok a => .ok a
  | .error e => .error (.mercury e)

/-- Handle a `Result` without propagating its error; a panic still goes through. -/
def handled : Res α → Res (Option α)
  | .ok a => .ok (some a)
  | .error .panic => .error .panic
  | .error _ => .ok none

/-- `Result::expect`: an error becomes a panic. -/
def expect : Res α → Res α
  | .ok a => .ok a
  | .error _ => .error .panic

@[simp] theorem expect_eq_ok {x : Res α} {a : α} : expect x = .ok a ↔ x = .ok a := by
  cases x <;> simp [expect]

@[simp] theorem unwrap_eq_ok {o : Option α} {a : α} : unwrap o = .ok a ↔ o = some a := orThrow_eq_ok

@[simp] theorem unwrap_some {a : α} : unwrap (some a) = .ok a := rfl

@[simp] theorem orErr_eq_ok {e : MercuryError} {o : Option α} {a : α} :
    orErr e o = .ok a ↔ o = some a := orThrow_eq_ok

@[simp] theorem orErr_some {e : MercuryError} {a : α} : orErr e (some a) = .ok a := rfl

@[simp] theorem question_eq_ok {x : Except MercuryError α} {a : α} :
    question x = .ok a ↔ x = .ok a := by
  cases x <;> simp [question]

@[simp] theorem question_ok {a : α} : question (.ok a) = .ok a := rfl

@[simp] theorem handled_ok {a : α} : handled (.ok a) = .ok (some a) := rfl

@[simp] theorem handled_eq_some {x : Res α} {a : α} : handled x = .ok (some a) ↔ x = .ok a := by
  cases x with
  | ok b => simp [handled]
  | error e => cases e <;> simp [handled]

section Panic

@[simp] theorem unwrap_eq_panic {o : Option α} : unwrap o = .error .panic ↔ o = none := by
  cases o <;> simp [unwrap, orThrow]

@[simp] theorem orErr_ne_panic {e : MercuryError} {o : Option α} : orErr e o ≠ .error .panic := by
  cases o <;> simp [orErr, orThrow]

@[simp] theorem question_ne_panic {x : Except MercuryError α} : question x ≠ .error .panic := by
  cases x <;> simp [question]

theorem expect_eq_error {x : Res α} {f : Failure} : expect x = .error f ↔ f = .panic ∧ ∀ a, x ≠ .ok a := by
  cases x <;> simp [expect, eq_comm]

@[simp] theorem handled_eq_panic {x : Res α} : handled x = .error .panic ↔ x = .error .panic := by
  cases x with
  | ok a => simp [handled]
  | error e => cases e <;> simp [handled]

theorem pure_ne_panic {a : α} : (pure a : Res α) ≠ .error .panic := nofun

theorem bind_ne_panic {x : Res α} {f : α → Res β} (hx : x ≠ .error .panic)
    (hf : ∀ a, x = .ok a → f a ≠ .error .panic) : x >>= f ≠ .error .panic := by
  intro h
  obtain h | ⟨a, ha, h⟩ := bind_eq_error.mp h
  · exact hx h
  · exact hf a ha h

theorem unwrap_ne_panic {o : Option α} (h : o ≠ none) : unwrap o ≠ .error .panic :=
  fun hnone => h (unwrap_eq_panic.mp hnone)

theorem failure_ne_panic {x : Res α} (h : x ≠ .error .panic) (e : Failure) (he : x = .error e) : e ≠ .panic :=
  fun hpanic => h (hpanic ▸ he)

end Panic

section Arithmetic

/-- Whether the crates are built with overflow checks, as `cargo run` builds them. Without them a result that
overflows wraps around. -/
class Build where
  overflowChecks : Bool

/-- The release build, which is meant wherever no other one is. -/
instance release : Build := ⟨false⟩

variable {p : Prop} [Decidable p]

/-- An operation that overflows if `p` holds. -/
def overflow [build : Build] (p : Prop) [Decidable p] : Res Unit := throwIf (build.overflowChecks = true ∧ p) .panic

@[simp] theorem overflow_release : overflow p = .ok () := rfl

theorem overflow_eq_panic [build : Build] : overflow p = .error .panic ↔ build.overflowChecks = true ∧ p := by
  rw [overflow, throwIf_eq_error]
  exact and_iff_left rfl

end Arithmetic

end MercuryLayer.Error
