import MercuryLayer.Crates
import MercuryLayer.Library.Matching

namespace MercuryLayer.Server.KeyList

open Error Library.Matching Library.Validation
open Library.XOnlyCurve (Bytes)

/-- The columns of `statechain_data` that are published. Both may be `NULL`, which cannot be read. -/
structure KeyRow where
  serverPublicKey : Option Bytes
  statechainId : Option String
deriving DecidableEq

/-- The columns of `statechain_signature_data` that are published. -/
structure SignatureRow where
  txN : Option Int32
  statechainId : Option String
  createdAt : String
deriving DecidableEq

structure PubKeyInfo where
  serverPubkey : String
  txN : UInt32
  createdAt : String
deriving DecidableEq

def noteSignatures (statechainId : String) : PubKeyInfo → List SignatureRow → Res PubKeyInfo
  | keyinfo, [] => return keyinfo
  | keyinfo, rowSig :: rowsSigs => do
    let txN ← unwrap rowSig.txN
    let statechainIdSig ← unwrap rowSig.statechainId
    noteSignatures statechainId
      (if statechainId = statechainIdSig then
        { keyinfo with txN := txN.toUInt32, createdAt := rowSig.createdAt }
      else keyinfo) rowsSigs

/-- One turn of the outer loop. The text of a key is that of `PublicKey::from_slice`, which not all bytes have. -/
def keyinfoOf (keyText : Bytes → Option String) (rowsSigs : List SignatureRow) (row : KeyRow) : Res PubKeyInfo := do
  let serverPublicKeyBytes ← unwrap row.serverPublicKey
  let serverPubkey ← unwrap (keyText serverPublicKeyBytes)
  let statechainId ← unwrap row.statechainId
  noteSignatures statechainId ⟨serverPubkey, 0, ""⟩ rowsSigs

def infoKeylist (keyText : Bytes → Option String) (rows : List KeyRow) (rowsSigs : List SignatureRow) :
    Res (List PubKeyInfo) :=
  rows.mapM (keyinfoOf keyText rowsSigs)

section Loop

def Readable (rowSig : SignatureRow) : Prop := rowSig.txN ≠ none ∧ rowSig.statechainId ≠ none

def signaturesOf (statechainId : String) (rowsSigs : List SignatureRow) : List SignatureRow :=
  rowsSigs.filter (fun rowSig => rowSig.statechainId == some statechainId)

/-- What the last of some signatures makes of the entry. -/
def noted (keyinfo : PubKeyInfo) : Option SignatureRow → PubKeyInfo
  | none => keyinfo
  | some rowSig => { keyinfo with txN := (rowSig.txN.getD 0).toUInt32, createdAt := rowSig.createdAt }

variable {statechainId : String} {rowsSigs : List SignatureRow}

theorem noteSignatures_eq_ok {keyinfo : PubKeyInfo} (h : ∀ rowSig ∈ rowsSigs, Readable rowSig) :
    noteSignatures statechainId keyinfo rowsSigs = .ok (noted keyinfo (signaturesOf statechainId rowsSigs).getLast?) := by
  induction rowsSigs generalizing keyinfo with
  | nil => rfl
  | cons rowSig rowsSigs ih =>
    obtain ⟨⟨htxN, hid⟩, hrest⟩ := List.forall_mem_cons.mp h
    obtain ⟨txN, htxN⟩ := Option.ne_none_iff_exists'.mp htxN
    obtain ⟨id, hid⟩ := Option.ne_none_iff_exists'.mp hid
    simp only [noteSignatures, htxN, hid, unwrap_some, ok_bind, ih hrest]
    by_cases hsame : statechainId = id
    · have hfilter : signaturesOf statechainId (rowSig :: rowsSigs) = rowSig :: signaturesOf statechainId rowsSigs :=
        List.filter_cons_of_pos (by rw [hid, hsame]; exact beq_self_eq_true _)
      rw [if_pos hsame, hfilter, List.getLast?_cons]
      cases (signaturesOf statechainId rowsSigs).getLast? with
      | none => simp only [noted, Option.getD_none, htxN, Option.getD_some]
      | some last => rfl
    · have hfilter : signaturesOf statechainId (rowSig :: rowsSigs) = signaturesOf statechainId rowsSigs :=
        List.filter_cons_of_neg (by rw [hid]; simpa using Ne.symm hsame)
      rw [if_neg hsame, hfilter]

theorem readable_of_noteSignatures {keyinfo keyinfo' : PubKeyInfo}
    (h : noteSignatures statechainId keyinfo rowsSigs = .ok keyinfo') : ∀ rowSig ∈ rowsSigs, Readable rowSig := by
  induction rowsSigs generalizing keyinfo with
  | nil => exact fun _ hmem => absurd hmem List.not_mem_nil
  | cons rowSig rowsSigs ih =>
    obtain ⟨txN, htxN, h⟩ := bind_eq_ok.mp h
    obtain ⟨id, hid, h⟩ := bind_eq_ok.mp h
    refine List.forall_mem_cons.mpr ⟨⟨?_, ?_⟩, ih h⟩
    · rw [unwrap_eq_ok.mp htxN]
      exact Option.some_ne_none txN
    · rw [unwrap_eq_ok.mp hid]
      exact Option.some_ne_none id

end Loop

/-- The entry tells the largest number among the signatures of the statechain and when that signature was
made. Without signatures it stays empty. -/
def TellsLatest (statechainId : String) (rowsSigs : List SignatureRow) (keyinfo : PubKeyInfo) : Prop :=
  (signaturesOf statechainId rowsSigs = [] → keyinfo.txN = 0 ∧ keyinfo.createdAt = "") ∧
    (signaturesOf statechainId rowsSigs ≠ [] → ∃ latest ∈ signaturesOf statechainId rowsSigs, ∃ txN,
      latest.txN = some txN ∧ txN.toInt = keyinfo.txN.toNat ∧ keyinfo.createdAt = latest.createdAt ∧
        ∀ rowSig ∈ signaturesOf statechainId rowsSigs, ∀ other, rowSig.txN = some other → other.toInt ≤ txN.toInt)

def Describes (keyText : Bytes → Option String) (rowsSigs : List SignatureRow) (row : KeyRow) (keyinfo : PubKeyInfo) :
    Prop :=
  ∃ bytes statechainId, row.serverPublicKey = some bytes ∧ keyText bytes = some keyinfo.serverPubkey ∧
    row.statechainId = some statechainId ∧ TellsLatest statechainId rowsSigs keyinfo

/-- Every statechain is published with its key and its latest signature. -/
def PublishesLatest (keyText : Bytes → Option String) (rows : List KeyRow) (rowsSigs : List SignatureRow) : Prop :=
  ∃ list, infoKeylist keyText rows rowsSigs = .ok list ∧ List.Forall₂ (Describes keyText rowsSigs) rows list

/-- All columns can be read, and the signature of the statechain that is returned last has the largest number, which
is not negative. -/
def LatestComesLast (keyText : Bytes → Option String) (rowsSigs : List SignatureRow) (row : KeyRow) : Prop :=
  (∀ rowSig ∈ rowsSigs, Readable rowSig) ∧ ∃ bytes text statechainId, row.serverPublicKey = some bytes ∧
    keyText bytes = some text ∧ row.statechainId = some statechainId ∧
      ∀ last txN, (signaturesOf statechainId rowsSigs).getLast? = some last → last.txN = some txN →
        0 ≤ txN.toInt ∧ ∀ rowSig ∈ signaturesOf statechainId rowsSigs, ∀ other, rowSig.txN = some other →
          other.toInt ≤ txN.toInt

theorem toNat_toUInt32 (txN : Int32) :
    (0 ≤ txN.toInt → (txN.toUInt32.toNat : ℤ) = txN.toInt) ∧
      (txN.toInt < 0 → (2 : ℤ) ^ 31 ≤ txN.toUInt32.toNat) ∧ txN.toInt < 2 ^ 31 := by
  have hcond := BitVec.toInt_eq_toNat_cond txN.toBitVec
  have hint : txN.toInt = txN.toBitVec.toInt := rfl
  have hnat : txN.toUInt32.toNat = txN.toBitVec.toNat := rfl
  have hlt := txN.toBitVec.isLt
  rw [hint, hnat, hcond]
  split_ifs <;> omega

variable {statechainId : String} {rowsSigs : List SignatureRow}

theorem tellsLatest_noted {serverPubkey : String} (hread : ∀ rowSig ∈ rowsSigs, Readable rowSig) :
    TellsLatest statechainId rowsSigs (noted ⟨serverPubkey, 0, ""⟩ (signaturesOf statechainId rowsSigs).getLast?) ↔
      ∀ last txN, (signaturesOf statechainId rowsSigs).getLast? = some last → last.txN = some txN →
        0 ≤ txN.toInt ∧ ∀ rowSig ∈ signaturesOf statechainId rowsSigs, ∀ other, rowSig.txN = some other →
          other.toInt ≤ txN.toInt := by
  cases hlast : (signaturesOf statechainId rowsSigs).getLast? with
  | none =>
    have hnil := List.getLast?_eq_none_iff.mp hlast
    exact iff_of_true ⟨fun _ => ⟨rfl, rfl⟩, fun hne => absurd hnil hne⟩ (fun _ _ h => nomatch h)
  | some last =>
    have hmem := List.mem_of_getLast? hlast
    have hne := List.ne_nil_of_mem hmem
    obtain ⟨txN, htxN⟩ := Option.ne_none_iff_exists'.mp (hread last (List.mem_of_mem_filter hmem)).1
    have hnat := toNat_toUInt32 txN
    constructor
    · rintro ⟨-, htells⟩ last' txN' hlast' htxN'
      cases Option.some.inj hlast'
      cases Option.some.inj (htxN.symm.trans htxN')
      obtain ⟨latest, hlatest, n, hn, hvalue, -, hmax⟩ := htells hne
      have hsmall := (toNat_toUInt32 n).2.2
      have hle := hmax last hmem txN htxN
      simp only [noted, htxN, Option.getD_some] at hvalue
      have hsame : txN.toInt = n.toInt := by
        by_cases hpos : 0 ≤ txN.toInt
        · have := hnat.1 hpos
          omega
        · have := hnat.2.1 (by omega)
          omega
      refine ⟨by omega, fun rowSig hrow other hother => ?_⟩
      rw [hsame]
      exact hmax rowSig hrow other hother
    · intro h
      obtain ⟨hpos, hmax⟩ := h last txN rfl htxN
      refine ⟨fun hnil => absurd hnil hne, fun _ => ⟨last, hmem, txN, htxN, ?_, rfl, hmax⟩⟩
      simp only [noted, htxN, Option.getD_some]
      exact (hnat.1 hpos).symm

theorem describes_iff {keyText : Bytes → Option String} {row : KeyRow} :
    (∃ keyinfo, keyinfoOf keyText rowsSigs row = .ok keyinfo ∧ Describes keyText rowsSigs row keyinfo) ↔
      LatestComesLast keyText rowsSigs row := by
  constructor
  · rintro ⟨keyinfo, hkeyinfo, bytes, statechainId, hbytes, htext, hid, htells⟩
    simp only [keyinfoOf, hbytes, htext, hid, unwrap_some, ok_bind] at hkeyinfo
    have hread := readable_of_noteSignatures hkeyinfo
    rw [← Except.ok.inj ((noteSignatures_eq_ok hread).symm.trans hkeyinfo)] at htells
    exact ⟨hread, bytes, _, statechainId, hbytes, htext, hid, (tellsLatest_noted hread).mp htells⟩
  · rintro ⟨hread, bytes, text, statechainId, hbytes, htext, hid, hlast⟩
    refine ⟨noted ⟨text, 0, ""⟩ (signaturesOf statechainId rowsSigs).getLast?, ?_, bytes, statechainId, hbytes, ?_, hid,
      (tellsLatest_noted hread).mpr hlast⟩
    · simp only [keyinfoOf, hbytes, htext, hid, unwrap_some, ok_bind, noteSignatures_eq_ok hread]
    · rw [htext]
      cases (signaturesOf statechainId rowsSigs).getLast? <;> rfl

/-- The list is right exactly if the database returns the latest signature of every statechain last. -/
theorem publishes_latest_iff (keyText : Bytes → Option String) (rows : List KeyRow) (rowsSigs : List SignatureRow) :
    PublishesLatest keyText rows rowsSigs ↔ ∀ row ∈ rows, LatestComesLast keyText rowsSigs row := by
  rw [PublishesLatest, infoKeylist, mapM_forall₂_iff]
  exact forall₂_congr (fun row _ => describes_iff)

/-- The two signatures of a statechain, the first of which a later `UPDATE` has moved behind the second. -/
def movedRows : List SignatureRow := [⟨some 2, some "coin", "b"⟩, ⟨some 1, some "coin", "a"⟩]

/-- The first signature is published as the latest. -/
theorem moved_row_published :
    infoKeylist (fun _ => some "key") [⟨some [], some "coin"⟩] movedRows = .ok [⟨"key", 1, "a"⟩] ∧
      infoKeylist (fun _ => some "key") [⟨some [], some "coin"⟩] movedRows.reverse = .ok [⟨"key", 2, "b"⟩] ∧
      ¬PublishesLatest (fun _ => some "key") [⟨some [], some "coin"⟩] movedRows := by
  have hmoved : infoKeylist (fun _ => some "key") [⟨some [], some "coin"⟩] movedRows = .ok [⟨"key", 1, "a"⟩] := by
    decide +kernel
  refine ⟨hmoved, by decide +kernel, ?_⟩
  rintro ⟨list, hlist, hall⟩
  cases Except.ok.inj (hlist.symm.trans hmoved)
  cases hall with
  | cons hdescribes _ =>
    obtain ⟨_, statechainId, -, -, hid, -, htells⟩ := hdescribes
    cases Option.some.inj hid
    obtain ⟨latest, -, txN, -, hvalue, -, hmax⟩ := htells (List.ne_nil_of_mem List.mem_cons_self)
    have hle : (2 : Int32).toInt ≤ txN.toInt := hmax ⟨some 2, some "coin", "b"⟩ List.mem_cons_self 2 rfl
    rw [hvalue] at hle
    exact absurd hle (by decide)

end MercuryLayer.Server.KeyList
