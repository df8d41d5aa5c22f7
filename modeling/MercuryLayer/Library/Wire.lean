import Mathlib

namespace MercuryLayer.Library.Wire

variable {α β : Type}

/-- A self-delimiting encoding into numbers that are code points of characters. -/
structure Encoding (α : Type) where
  put : α → List ℕ
  get : List ℕ → Option (α × List ℕ)
  get_put : ∀ a rest, get (put a ++ rest) = some (a, rest)
  put_lt : ∀ a, ∀ token ∈ put a, token < 0xD800

/-- Digits to the base 4096, the lowest one first; all but the last are marked. -/
def digits : ℕ → ℕ → List ℕ
  | 0, k => [k % 4096]
  | fuel + 1, k => if k < 4096 then [k] else (4096 + k % 4096) :: digits fuel (k / 4096)

def getDigits : List ℕ → Option (ℕ × List ℕ)
  | [] => none
  | token :: rest =>
    if token < 4096 then some (token, rest)
    else (getDigits rest).map (fun r => (token - 4096 + 4096 * r.1, r.2))

theorem getDigits_digits {fuel k : ℕ} (h : k < 4096 ^ (fuel + 1)) (rest : List ℕ) :
    getDigits (digits fuel k ++ rest) = some (k, rest) := by
  induction fuel generalizing k with
  | zero =>
    rw [Nat.zero_add, Nat.pow_one] at h
    rw [digits, Nat.mod_eq_of_lt h, List.singleton_append, getDigits, if_pos h]
  | succ fuel ih =>
    by_cases hlt : k < 4096
    · rw [digits, if_pos hlt, List.singleton_append, getDigits, if_pos hlt]
    · have hhigh : k / 4096 < 4096 ^ (fuel + 1) := by
        rw [Nat.div_lt_iff_lt_mul (by decide), ← Nat.pow_succ]
        exact h
      rw [digits, if_neg hlt, List.cons_append, getDigits, if_neg (by omega), ih hhigh, Option.map_some]
      simp only [Option.some.injEq, Prod.mk.injEq, and_true]
      omega

theorem digits_lt (fuel k : ℕ) : ∀ token ∈ digits fuel k, token < 0xD800 := by
  induction fuel generalizing k with
  | zero =>
    intro token htoken
    rw [digits, List.mem_singleton] at htoken
    omega
  | succ fuel ih =>
    intro token htoken
    rw [digits] at htoken
    split_ifs at htoken with hlt
    · rw [List.mem_singleton] at htoken
      omega
    · obtain rfl | hrest := List.mem_cons.mp htoken
      · omega
      · exact ih _ token hrest

/-- A type of numbers below a power of the base. -/
def number (toNat : α → ℕ) (ofNat : ℕ → α) (fuel : ℕ) (hlt : ∀ a, toNat a < 4096 ^ (fuel + 1))
    (hofNat : ∀ a, ofNat (toNat a) = a) : Encoding α where
  put a := digits fuel (toNat a)
  get tokens := (getDigits tokens).map (fun r => (ofNat r.1, r.2))
  get_put a rest := by rw [getDigits_digits (hlt a), Option.map_some, hofNat]
  put_lt a := digits_lt fuel (toNat a)

def pair (w : Encoding α) (v : Encoding β) : Encoding (α × β) where
  put p := w.put p.1 ++ v.put p.2
  get tokens := (w.get tokens).bind (fun r => (v.get r.2).map (fun r' => ((r.1, r'.1), r'.2)))
  get_put p rest := by
    rw [List.append_assoc, w.get_put, Option.bind_some, v.get_put, Option.map_some]
  put_lt p token htoken := by
    obtain h | h := List.mem_append.mp htoken
    · exact w.put_lt p.1 token h
    · exact v.put_lt p.2 token h

def map (w : Encoding α) (toFun : α → β) (invFun : β → α) (h : ∀ b, toFun (invFun b) = b) : Encoding β where
  put b := w.put (invFun b)
  get tokens := (w.get tokens).map (fun r => (toFun r.1, r.2))
  get_put b rest := by rw [w.get_put, Option.map_some, h]
  put_lt b := w.put_lt (invFun b)

/-- Each element is announced by a one, and the end by a zero. -/
def putList (w : Encoding α) : List α → List ℕ
  | [] => [0]
  | a :: as => 1 :: (w.put a ++ putList w as)

def getList (w : Encoding α) : ℕ → List ℕ → Option (List α × List ℕ)
  | fuel + 1, 1 :: tokens =>
    (w.get tokens).bind (fun r => (getList w fuel r.2).map (fun r' => (r.1 :: r'.1, r'.2)))
  | _ + 1, 0 :: tokens => some ([], tokens)
  | _, _ => none

theorem getList_putList (w : Encoding α) {fuel : ℕ} {as : List α} (h : as.length < fuel) (rest : List ℕ) :
    getList w fuel (putList w as ++ rest) = some (as, rest) := by
  induction as generalizing fuel with
  | nil =>
    obtain ⟨fuel, rfl⟩ := Nat.exists_eq_succ_of_ne_zero (Nat.ne_zero_of_lt h)
    rfl
  | cons a as ih =>
    obtain ⟨fuel, rfl⟩ := Nat.exists_eq_succ_of_ne_zero (Nat.ne_zero_of_lt h)
    rw [List.length_cons] at h
    rw [putList, List.cons_append, List.append_assoc, getList, w.get_put, Option.bind_some, ih (by omega),
      Option.map_some]

theorem length_lt_putList (w : Encoding α) (as : List α) : as.length < (putList w as).length := by
  induction as with
  | nil => exact Nat.one_pos
  | cons a as ih =>
    rw [putList, List.length_cons, List.length_cons, List.length_append]
    omega

def list (w : Encoding α) : Encoding (List α) where
  put := putList w
  get tokens := getList w tokens.length tokens
  get_put as rest := by
    apply getList_putList
    rw [List.length_append]
    exact Nat.lt_add_right _ (length_lt_putList w as)
  put_lt as := by
    induction as with
    | nil =>
      intro token htoken
      rw [putList, List.mem_singleton] at htoken
      omega
    | cons a as ih =>
      intro token htoken
      obtain rfl | htoken := List.mem_cons.mp htoken
      · omega
      · obtain h | h := List.mem_append.mp htoken
        · exact w.put_lt a token h
        · exact ih token h

def char : Encoding Char :=
  number Char.toNat Char.ofNat 2 (fun c => Nat.lt_trans c.val.toNat_lt (by decide)) Char.ofNat_toNat

def string : Encoding String := map (list char) String.ofList String.toList (fun _ => String.ofList_toList)

def uint8 : Encoding UInt8 := number UInt8.toNat UInt8.ofNat 0 (fun u => Nat.lt_trans u.toNat_lt (by decide)) (fun _ => by simp)

def uint32 : Encoding UInt32 :=
  number UInt32.toNat UInt32.ofNat 2 (fun u => Nat.lt_trans u.toNat_lt (by decide)) (fun _ => by simp)

def uint64 : Encoding UInt64 :=
  number UInt64.toNat UInt64.ofNat 5 (fun u => Nat.lt_trans u.toNat_lt (by decide)) (fun _ => by simp)

section Text

variable (w : Encoding α)

def toText (a : α) : String := String.ofList ((w.put a).map Char.ofNat)

def ofText (text : String) : Option α := (w.get (text.toList.map Char.toNat)).map Prod.fst

theorem map_toNat_ofNat {tokens : List ℕ} (h : ∀ token ∈ tokens, token < 0xD800) :
    (tokens.map Char.ofNat).map Char.toNat = tokens := by
  rw [List.map_map]
  conv_rhs => rw [← List.map_id tokens]
  apply List.map_congr_left
  intro token htoken
  have hvalid : token.isValidChar := .inl (h token htoken)
  rw [Function.comp_apply, Char.ofNat, dif_pos hvalid]
  rfl

theorem ofText_toText (a : α) : ofText w (toText w a) = some a := by
  have hput := w.get_put a []
  rw [List.append_nil] at hput
  rw [ofText, toText, String.toList_ofList, map_toNat_ofNat (w.put_lt a), hput, Option.map_some]

end Text

end MercuryLayer.Library.Wire
