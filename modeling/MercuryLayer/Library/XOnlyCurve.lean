import Mathlib

namespace MercuryLayer.Library.XOnlyCurve

abbrev Bytes := List UInt8

/-- The factor that turns a point or a scalar around when a parity bit is set. -/
def sign {n : ℕ} (b : Bool) : ZMod n := if b then -1 else 1

@[simp] theorem sign_mul_self {n : ℕ} (b : Bool) : (sign b : ZMod n) * sign b = 1 := by
  cases b <;> simp [sign]

theorem sign_bne {n : ℕ} (a b : Bool) : (sign (a != b) : ZMod n) = sign a * sign b := by
  cases a <;> cases b <;> simp [sign]

theorem ite_neg_eq_sign {n : ℕ} (b : Bool) (k : ZMod n) : (if b then -k else k) = sign b * k := by
  cases b <;> simp [sign]

/-- A curve group of prime order `n` with the x-only view of its points: an
x-coordinate shared by `P` and `-P`, the parity of y, and the lift to the even point. -/
structure Curve (n : ℕ) (E : Type) [AddCommGroup E] [Module (ZMod n) E] where
  G : E
  G_ne_zero : G ≠ 0
  prime : n.Prime
  order : 3 < n
  x : E → Bytes
  odd : E → Bool
  lift : Bytes → Option E
  getB32 : ZMod n → Bytes
  setB32 : Bytes → Option (ZMod n)
  x_neg : ∀ P, x (-P) = x P
  odd_neg : ∀ P, P ≠ 0 → odd (-P) = !odd P
  lift_x : ∀ P, P ≠ 0 → lift (x P) = some (if odd P then -P else P)
  setB32_getB32 : ∀ k, setB32 (getB32 k) = some k

variable {n : ℕ} {E : Type} [AddCommGroup E] [Module (ZMod n) E]

/-- Public keys are points other than infinity. -/
abbrev Point (E : Type) [AddCommGroup E] := { P : E // P ≠ 0 }

namespace Curve

variable (c : Curve n E)

def evenY (P : E) : E := if c.odd P then -P else P

theorem evenY_eq_sign (P : E) : c.evenY P = (sign (c.odd P) : ZMod n) • P := by
  cases h : c.odd P <;> simp [evenY, sign, h]

@[simp] theorem x_evenY (P : E) : c.x (c.evenY P) = c.x P := by
  cases h : c.odd P <;> simp [evenY, h, c.x_neg]

theorem odd_evenY {P : E} (hP : P ≠ 0) : c.odd (c.evenY P) = false := by
  cases h : c.odd P <;> simp [evenY, h, c.odd_neg P hP]

theorem evenY_ne_zero {P : E} (hP : P ≠ 0) : c.evenY P ≠ 0 := by
  cases h : c.odd P <;> simp [evenY, h, hP]

theorem smul_G_injective : Function.Injective (fun k : ZMod n => k • c.G) := by
  have : Fact n.Prime := ⟨c.prime⟩
  exact smul_left_injective (ZMod n) c.G_ne_zero

theorem smul_G_ne_zero {k : ZMod n} (hk : k ≠ 0) : k • c.G ≠ 0 := by
  have : Fact n.Prime := ⟨c.prime⟩
  exact smul_ne_zero hk c.G_ne_zero

include c in
/-- The group is large enough to step around any three points. -/
theorem exists_ne_three (A B C : E) : ∃ P : E, P ≠ A ∧ P ≠ B ∧ P ≠ C := by
  classical
  have : Fact n.Prime := ⟨c.prime⟩
  have hcard : ({A, B, C} : Finset E).card < (Finset.univ.image (fun k : ZMod n => k • c.G)).card := by
    rw [Finset.card_image_of_injective _ c.smul_G_injective, Finset.card_univ, ZMod.card]
    exact lt_of_le_of_lt Finset.card_le_three c.order
  obtain ⟨P, -, hP⟩ := Finset.exists_mem_notMem_of_card_lt_card hcard
  exact ⟨P, by simpa using hP⟩

/-- The Schnorr verifier over x-only keys: recompute the nonce point from the response
and accept when it is even with the x-coordinate of the signature. -/
def schnorrVerify [DecidableEq E] (challenge : Bytes → Bytes → Bytes → ZMod n)
    (r s msg pubkey : Bytes) : Bool :=
  match c.setB32 s, c.lift pubkey with
  | some k, some P =>
      let R := k • c.G + (-challenge r pubkey msg) • P
      decide (R ≠ 0) && !c.odd R && decide (c.x R = r)
  | _, _ => false

/-- A response that opens the even nonce point against the even key is accepted. -/
theorem schnorrVerify_of_response [DecidableEq E] (challenge : Bytes → Bytes → Bytes → ZMod n)
    {R P : E} (hR : R ≠ 0) (hP : P ≠ 0) (s : ZMod n) (msg : Bytes)
    (hs : s • c.G = c.evenY R + challenge (c.x R) (c.x P) msg • c.evenY P) :
    c.schnorrVerify challenge (c.x R) (c.getB32 s) msg (c.x P) = true := by
  have hr : s • c.G + (-challenge (c.x R) (c.x P) msg) • c.evenY P = c.evenY R := by
    rw [hs, neg_smul, add_neg_cancel_right]
  have hl : c.lift (c.x P) = some (c.evenY P) := c.lift_x P hP
  simp only [schnorrVerify, c.setB32_getB32, hl, hr]
  simp [c.evenY_ne_zero hR, c.odd_evenY hR]

end Curve

end MercuryLayer.Library.XOnlyCurve
