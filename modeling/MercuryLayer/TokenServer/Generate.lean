import Mathlib
import MercuryLayer.Library.Holdings
import MercuryLayer.Library.Runs

namespace MercuryLayer.TokenServer.Generate

open Library.Holdings Library.Programs Library.Runs

/-- The descriptor of the configuration. An address need not exist at every index. -/
structure Descriptor where
  checksum : String
  addressAt : UInt32 → Option String

/-- A row of the table `tokens`, as `insert_new_token` writes it. -/
structure Token where
  tokenId : String
  onchainAddress : String
  descriptorChecksum : String
  onchainAddressIndex : Int32
  confirmed : Bool
  spent : Bool
deriving DecidableEq

/-- The steps of `token_gen`. The identifier is drawn with the insertion; what a transaction
has inserted is in the table once it is committed. -/
inductive Call
  | begin
  | takeIndex
  | insertNewToken (onchainAddress descriptorChecksum : String) (onchainAddressIndex : Int32)
  | commit (token : Token)
deriving DecidableEq

def Reply : Call → Type
  | .begin => Option Unit
  | .takeIndex => UInt64
  | .insertNewToken .. => Option String
  | .commit _ => Option Unit

structure ServerConfig where
  publicKeyDescriptor : Descriptor
  fee : UInt64
  confirmationTarget : UInt32

structure Answer where
  tokenId : String
  depositAddress : String
  fee : UInt64
  confirmationTarget : UInt32
deriving DecidableEq

abbrev Handler := Prog Call Reply Answer

section Program

variable (config : ServerConfig)

def commitToken (token : Token) : Handler :=
  .call (.commit token) fun committed => do
    Prog.unwrap (committed : Option Unit)
    return ⟨token.tokenId, token.onchainAddress, config.fee, config.confirmationTarget⟩

def insertAt (onchainAddress : String) (onchainAddressIndex : Int32) : Handler :=
  let checksum := config.publicKeyDescriptor.checksum
  .call (.insertNewToken onchainAddress checksum onchainAddressIndex) fun tokenId => do
    let tokenId ← Prog.unwrap (tokenId : Option String)
    commitToken config ⟨tokenId, onchainAddress, checksum, onchainAddressIndex, false, false⟩

/-- `token_gen`, with the conversions `index as u32` and `index as i32`. -/
def tokenGen : Handler :=
  .call .begin fun tx => do
    Prog.unwrap (tx : Option Unit)
    .call .takeIndex fun (index : UInt64) => do
      let onchainAddress ← Prog.unwrap (config.publicKeyDescriptor.addressAt index.toUInt32)
      insertAt config onchainAddress index.toUInt32.toInt32

end Program

/-- `TokenServerState`, with the table that outlives it. -/
structure Store where
  tokens : List Token
  serverConfig : ServerConfig
  keyIndex : UInt64

/-- What the database does with a call: whether it carries it out, whether the answer comes
back, and the identifier that is drawn. -/
structure Choice where
  performed : Bool
  heard : Bool
  tokenId : String

def handle (choice : Choice) : (c : Call) → Store → Reply c × Store
  | .begin, s => (if choice.performed && choice.heard then some () else none, s)
  | .takeIndex, s => (s.keyIndex + 1, { s with keyIndex := s.keyIndex + 1 })
  | .insertNewToken .., s =>
    (if choice.performed && choice.heard && s.tokens.all (·.tokenId != choice.tokenId) then some choice.tokenId
      else none, s)
  | .commit token, s =>
    (if choice.performed && choice.heard then some () else none,
      if choice.performed then { s with tokens := s.tokens ++ [token] } else s)

/-- `get_descriptor_index`: a query that fails counts as an empty table. -/
def getDescriptorIndex (answers : Bool) (tokens : List Token) (checksum : String) : Int32 :=
  if answers then
    ((tokens.filter (·.descriptorChecksum = checksum)).map (·.onchainAddressIndex)).max?.getD 0
  else 0

abbrev System := Config Call Reply Answer Store

/-- A restart ends the requests under way and reads the counter from the table. -/
inductive Event
  | restart (config : ServerConfig) (answers : Bool)
  | request (event : Library.Programs.Event Unit Choice)

/-- `TokenServerState::new`, with the conversion `index as u64`. -/
def restarted (tokens : List Token) (config : ServerConfig) (answers : Bool) : System :=
  let index := getDescriptorIndex answers tokens config.publicKeyDescriptor.checksum
  ⟨⟨tokens, config, index.toInt64.toUInt64⟩, []⟩

def step (s : System) : Event → System
  | .restart config answers => restarted s.store.tokens config answers
  | .request event => s.step (fun _ => tokenGen s.store.serverConfig) handle event

def init (config : ServerConfig) : System := restarted [] config true

def Store.checksum (s : Store) : String := s.serverConfig.publicKeyDescriptor.checksum

def NeverReused (tokens : List Token) : Prop :=
  tokens.Pairwise (fun a b =>
    a.descriptorChecksum = b.descriptorChecksum → a.onchainAddressIndex ≠ b.onchainAddressIndex)

instance (tokens : List Token) : Decidable (NeverReused tokens) :=
  inferInstanceAs (Decidable (tokens.Pairwise _))

/-- The next index fits the column, or no address exists at it. -/
def InRange (s : Store) : Prop :=
  s.keyIndex.toNat + 1 < 2 ^ 31 ∨
    (s.keyIndex.toNat + 1 < 2 ^ 64 ∧ s.serverConfig.publicKeyDescriptor.addressAt (s.keyIndex + 1).toUInt32 = none)

instance (s : Store) : Decidable (InRange s) := inferInstanceAs (Decidable (_ ∨ _ ∧ _))

/-- A restart reads the largest index, or there is none to read; an index taken is in range. -/
def Sparing (s : System) : Event → Prop
  | .restart config answers => answers = true ∨
      ∀ token ∈ s.store.tokens, token.descriptorChecksum ≠ config.publicKeyDescriptor.checksum
  | .request (.advance i _) => s.threads[i]?.bind Prog.next? = some .takeIndex → InRange s.store
  | .request _ => True

instance (s : System) (event : Event) : Decidable (Sparing s event) :=
  match event with
  | .restart config answers => inferInstanceAs (Decidable (answers = true ∨
      ∀ token ∈ s.store.tokens, token.descriptorChecksum ≠ config.publicKeyDescriptor.checksum))
  | .request (.advance _ _) => inferInstanceAs (Decidable (_ → _))
  | .request (.start _) => isTrue trivial
  | .request (.stop _) => isTrue trivial

section Index

theorem toInt_toInt32 {index : UInt64} (h : index.toNat < 2 ^ 31) : index.toUInt32.toInt32.toInt = index.toNat := by
  have hnat : index.toUInt32.toBitVec.toNat = index.toNat := by
    have hmod : index.toUInt32.toNat = index.toNat % 2 ^ 32 := UInt64.toNat_toUInt32 index
    rw [Nat.mod_eq_of_lt (by omega)] at hmod
    exact hmod
  have hsmall : 2 * index.toUInt32.toBitVec.toNat < 2 ^ 32 := by omega
  calc index.toUInt32.toInt32.toInt = index.toUInt32.toBitVec.toInt := rfl
    _ = index.toUInt32.toBitVec.toNat := BitVec.toInt_eq_toNat_of_lt hsmall
    _ = index.toNat := by rw [hnat]

theorem toNat_toUInt64 {index : Int32} (h : 0 ≤ index.toInt) : (index.toInt64.toUInt64.toNat : ℤ) = index.toInt := by
  have hint : index.toInt64.toBitVec.toInt = index.toInt := Int32.toInt_toInt64 index
  have hnonneg : 0 ≤ index.toInt64.toBitVec.toInt := by omega
  rw [← hint]
  exact (BitVec.toInt_eq_toNat_of_lt (BitVec.toInt_pos_iff.mp hnonneg)).symm

theorem toNat_succ {index : UInt64} (h : index.toNat + 1 < 2 ^ 64) : (index + 1).toNat = index.toNat + 1 := by
  rw [UInt64.toNat_add]
  exact Nat.mod_eq_of_lt h

instance lawfulOrderMaxInt32 : Std.LawfulOrderMax Int32 where
  max_eq_or a b := by
    change (if a ≤ b then b else a) = a ∨ (if a ≤ b then b else a) = b
    by_cases h : a ≤ b
    · exact .inr (if_pos h)
    · exact .inl (if_neg h)
  max_le_iff a b c := by
    change (if a ≤ b then b else a) ≤ c ↔ _
    by_cases h : a ≤ b
    · rw [if_pos h]
      exact ⟨fun hb => ⟨Std.le_trans h hb, hb⟩, fun hb => hb.2⟩
    · rw [if_neg h]
      exact ⟨fun ha => ⟨ha, Std.le_trans (Std.le_of_not_ge h) ha⟩, fun hb => hb.1⟩

end Index

def indexes (tokens : List Token) (checksum : String) : List ℤ :=
  (tokens.filter (·.descriptorChecksum = checksum)).map (·.onchainAddressIndex.toInt)

theorem mem_indexes {tokens : List Token} {checksum : String} {i : ℤ} :
    i ∈ indexes tokens checksum ↔
      ∃ token ∈ tokens, token.descriptorChecksum = checksum ∧ token.onchainAddressIndex.toInt = i := by
  simp [indexes, and_assoc]

theorem nodup_indexes {tokens : List Token} (h : NeverReused tokens) (checksum : String) :
    (indexes tokens checksum).Nodup := by
  refine List.pairwise_map.mpr (List.Pairwise.imp_of_mem ?_ (h.filter _))
  intro a b ha hb hab hindex
  have hachecksum : a.descriptorChecksum = checksum := by simpa using (List.mem_filter.mp ha).2
  have hbchecksum : b.descriptorChecksum = checksum := by simpa using (List.mem_filter.mp hb).2
  exact hab (hachecksum.trans hbchecksum.symm) (Int32.toInt_inj.mp hindex)

/-- The counter read from the table is not below any index in it. -/
theorem le_getDescriptorIndex {tokens : List Token} {checksum : String} {i : ℤ} (hi : i ∈ indexes tokens checksum)
    (hnonneg : ∀ token ∈ tokens, 0 ≤ token.onchainAddressIndex.toInt) :
    i ≤ (getDescriptorIndex true tokens checksum).toInt64.toUInt64.toNat := by
  obtain ⟨token, htoken, hchecksum, rfl⟩ := mem_indexes.mp hi
  let column := (tokens.filter (·.descriptorChecksum = checksum)).map (·.onchainAddressIndex)
  have hmem : token.onchainAddressIndex ∈ column :=
    List.mem_map_of_mem (List.mem_filter.mpr ⟨htoken, by simpa using hchecksum⟩)
  cases hmax : column.max? with
  | none =>
    rw [List.max?_eq_none_iff.mp hmax] at hmem
    exact absurd hmem List.not_mem_nil
  | some top =>
    have hindex : getDescriptorIndex true tokens checksum = top := congrArg (Option.getD · 0) hmax
    obtain ⟨htop, hle⟩ := List.max?_eq_some_iff.mp hmax
    obtain ⟨other, hother, rfl⟩ := List.mem_map.mp htop
    rw [hindex, toNat_toUInt64 (hnonneg other (List.mem_filter.mp hother).1)]
    exact Int32.le_iff_toInt_le.mp (hle _ hmem)

section Requests

variable {config : ServerConfig}

def indexOf : Call → Option ℤ
  | .begin => none
  | .takeIndex => none
  | .insertNewToken _ _ onchainAddressIndex => some onchainAddressIndex.toInt
  | .commit token => some token.onchainAddressIndex.toInt

/-- The index that a request has taken and not yet committed. -/
def held (p : Handler) : Option ℤ := p.next?.bind indexOf

def Own (config : ServerConfig) : Call → Prop
  | .begin => True
  | .takeIndex => True
  | .insertNewToken _ checksum _ => checksum = config.publicKeyDescriptor.checksum
  | .commit token => token.descriptorChecksum = config.publicKeyDescriptor.checksum

/-- The indexes that a request may hold after a call. -/
def Passes (config : ServerConfig) : (c : Call) → Reply c → ℤ → Prop
  | .begin, _, _ => False
  | .takeIndex, index, i =>
    config.publicKeyDescriptor.addressAt (UInt64.toUInt32 index) ≠ none ∧ i = (UInt64.toUInt32 index).toInt32.toInt
  | .insertNewToken _ _ onchainAddressIndex, _, i => i = onchainAddressIndex.toInt
  | .commit _, _, _ => False

/-- A request holds an index only from taking it to committing it. -/
def Keeps (config : ServerConfig) : Handler → Prop
  | .ret _ => True
  | .abort => True
  | .call c next =>
    Own config c ∧ ∀ r, (∀ i, held (next r) = some i → Passes config c r i) ∧ Keeps config (next r)

theorem keeps_commitToken {token : Token} (h : token.descriptorChecksum = config.publicKeyDescriptor.checksum) :
    Keeps config (commitToken config token) := by
  refine ⟨h, ?_⟩
  rintro (_ | _)
  · exact ⟨nofun, trivial⟩
  · exact ⟨nofun, trivial⟩

theorem keeps_insertAt (onchainAddress : String) (onchainAddressIndex : Int32) :
    Keeps config (insertAt config onchainAddress onchainAddressIndex) := by
  refine ⟨rfl, ?_⟩
  rintro (_ | tokenId)
  · exact ⟨nofun, trivial⟩
  · refine ⟨?_, keeps_commitToken rfl⟩
    intro i hi
    exact (Option.some.inj hi).symm

theorem keeps_tokenGen : Keeps config (tokenGen config) := by
  refine ⟨trivial, ?_⟩
  rintro (_ | _)
  · exact ⟨nofun, trivial⟩
  · refine ⟨nofun, trivial, ?_⟩
    intro index
    cases haddress : config.publicKeyDescriptor.addressAt (UInt64.toUInt32 index) with
    | none =>
      simp only [haddress]
      exact ⟨nofun, trivial⟩
    | some onchainAddress =>
      simp only [haddress]
      refine ⟨?_, keeps_insertAt _ _⟩
      intro i hi
      refine ⟨?_, (Option.some.inj hi).symm⟩
      rw [haddress]
      exact Option.some_ne_none _

end Requests

/-- No index is held twice, or held and committed, and the counter is not below any of them. -/
structure Orderly (s : System) : Prop where
  neverReused : NeverReused s.store.tokens
  fresh : (holdings held s.threads ++ indexes s.store.tokens s.store.checksum).Nodup
  bounded : ∀ i ∈ holdings held s.threads ++ indexes s.store.tokens s.store.checksum, i ≤ s.store.keyIndex.toNat
  nonneg : ∀ token ∈ s.store.tokens, 0 ≤ token.onchainAddressIndex.toInt
  heldNonneg : ∀ i ∈ holdings held s.threads, 0 ≤ i
  keeps : AllBut (Keeps s.store.serverConfig) none s.threads

section Step

variable {s : System} {i : ℕ} {c : Call} {next : Reply c → Handler}

theorem Orderly.shrink (hs : Orderly s) {threads : List Handler}
    (hsub : (holdings held threads).Subperm (holdings held s.threads))
    (hkeeps : AllBut (Keeps s.store.serverConfig) none threads) : Orderly ⟨s.store, threads⟩ := by
  have hall := (List.subperm_append_right (indexes s.store.tokens s.store.checksum)).mpr hsub
  exact {
    neverReused := hs.neverReused
    fresh := nodup_of_subperm hall hs.fresh
    bounded := fun i hi => hs.bounded i (hall.subset hi)
    nonneg := hs.nonneg
    heldNonneg := fun i hi => hs.heldNonneg i (hsub.subset hi)
    keeps := hkeeps }

theorem orderly_restarted {config : ServerConfig} {answers : Bool} (hs : Orderly s)
    (h : Sparing s (.restart config answers)) : Orderly (restarted s.store.tokens config answers) where
  neverReused := hs.neverReused
  fresh := nodup_indexes hs.neverReused _
  bounded := by
    intro i hi
    obtain h | h := h
    · subst h
      exact le_getDescriptorIndex hi hs.nonneg
    · obtain ⟨token, htoken, hchecksum, -⟩ := mem_indexes.mp hi
      exact absurd hchecksum (h token htoken)
  nonneg := hs.nonneg
  heldNonneg := fun _ h => absurd h List.not_mem_nil
  keeps := allBut_nil

/-- An index that is taken is above every index held or committed. -/
theorem orderly_takeIndex {next : UInt64 → Handler} (hs : Orderly s)
    (hi : s.threads[i]? = some (.call .takeIndex next)) (hrange : InRange s.store) :
    Orderly ⟨{ s.store with keyIndex := s.store.keyIndex + 1 }, s.threads.set i (next (s.store.keyIndex + 1))⟩ := by
  obtain ⟨-, hnext⟩ := hs.keeps i _ nofun hi
  obtain ⟨hpasses, hkeeps⟩ := hnext (s.store.keyIndex + 1)
  have hsucc : (s.store.keyIndex + 1).toNat = s.store.keyIndex.toNat + 1 := by
    obtain h | h := hrange
    · exact toNat_succ (by omega)
    · exact toNat_succ h.1
  have hthreads := hs.keeps.set hkeeps i
  cases hheld : held (next (s.store.keyIndex + 1)) with
  | none =>
    have hsame := hs.shrink (holdings_stop_subperm hheld) hthreads
    refine ⟨hsame.neverReused, hsame.fresh, ?_, hsame.nonneg, hsame.heldNonneg, hthreads⟩
    intro j hj
    have hle : j ≤ s.store.keyIndex.toNat := hsame.bounded j hj
    change j ≤ ((s.store.keyIndex + 1).toNat : ℤ)
    omega
  | some index =>
    obtain ⟨haddress, hindex⟩ := hpasses index hheld
    have htaken : index = s.store.keyIndex.toNat + 1 := by
      obtain h | h := hrange
      · have hint : index = (s.store.keyIndex + 1).toNat := hindex.trans (toInt_toInt32 (by omega))
        omega
      · exact absurd h.2 haddress
    have hperm : (holdings held (s.threads.set i (next (s.store.keyIndex + 1)))).Perm
        (index :: holdings held s.threads) := holdings_take hi rfl hheld
    have hall := hperm.append_right (indexes s.store.tokens s.store.checksum)
    refine ⟨hs.neverReused, ?_, ?_, hs.nonneg, ?_, hthreads⟩
    · refine hall.nodup_iff.mpr (List.nodup_cons.mpr ⟨?_, hs.fresh⟩)
      intro hmem
      have hle := hs.bounded index hmem
      omega
    · intro j hj
      change j ≤ ((s.store.keyIndex + 1).toNat : ℤ)
      obtain rfl | hj := List.mem_cons.mp (hall.subset hj)
      · omega
      · have hle := hs.bounded j hj
        omega
    · intro j hj
      obtain rfl | hj := List.mem_cons.mp (hperm.subset hj)
      · omega
      · exact hs.heldNonneg j hj

theorem orderly_commit {token : Token} {next : Option Unit → Handler} (hs : Orderly s)
    (hi : s.threads[i]? = some (.call (.commit token) next)) (r : Option Unit) :
    Orderly ⟨{ s.store with tokens := s.store.tokens ++ [token] }, s.threads.set i (next r)⟩ := by
  obtain ⟨hown, hnext⟩ := hs.keeps i _ nofun hi
  obtain ⟨hpasses, hkeeps⟩ := hnext r
  have hheld : held (next r) = none := by
    rw [Option.eq_none_iff_forall_ne_some]
    exact fun j hj => hpasses j hj
  have hindexes : indexes (s.store.tokens ++ [token]) s.store.checksum =
      indexes s.store.tokens s.store.checksum ++ [token.onchainAddressIndex.toInt] := by
    have hchecksum : token.descriptorChecksum = s.store.checksum := hown
    simp [indexes, hchecksum]
  have hperm : (holdings held (s.threads.set i (next r)) ++ indexes (s.store.tokens ++ [token]) s.store.checksum).Perm
      (holdings held s.threads ++ indexes s.store.tokens s.store.checksum) := by
    rw [hindexes]
    have hcommits : held (.call (.commit token) next) = some token.onchainAddressIndex.toInt := rfl
    exact holdings_release hi hcommits hheld _
  have hmem : token.onchainAddressIndex.toInt ∈ holdings held s.threads :=
    mem_holdings.mpr ⟨_, List.mem_of_getElem? hi, rfl⟩
  refine ⟨?_, hperm.nodup_iff.mpr hs.fresh, fun j hj => hs.bounded j (hperm.subset hj), ?_, ?_,
    hs.keeps.set hkeeps i⟩
  · refine List.pairwise_append.mpr ⟨hs.neverReused, List.pairwise_singleton _ _, ?_⟩
    intro a ha b hb hchecksum hindex
    obtain rfl := List.mem_singleton.mp hb
    have ha' : b.onchainAddressIndex.toInt ∈ indexes s.store.tokens s.store.checksum :=
      mem_indexes.mpr ⟨a, ha, hchecksum.trans hown, congrArg Int32.toInt hindex⟩
    exact (List.nodup_append.mp hs.fresh).2.2 _ hmem _ ha' rfl
  · intro a ha
    obtain ha | ha := List.mem_append.mp ha
    · exact hs.nonneg a ha
    · rw [List.mem_singleton.mp ha]
      exact hs.heldNonneg _ hmem
  · intro j hj
    exact hs.heldNonneg j ((holdings_stop_subperm hheld).subset hj)

theorem orderly_still {r : Reply c} (hs : Orderly s) (hi : s.threads[i]? = some (.call c next))
    (hc : ∀ j, Passes s.store.serverConfig c r j → indexOf c = some j) :
    Orderly ⟨s.store, s.threads.set i (next r)⟩ := by
  obtain ⟨-, hnext⟩ := hs.keeps i _ nofun hi
  obtain ⟨hpasses, hkeeps⟩ := hnext r
  exact hs.shrink (holdings_set_subperm hi (fun j hj => hc j (hpasses j hj))) (hs.keeps.set hkeeps i)

theorem orderly_advance {choice : Choice} (hs : Orderly s) (h : Sparing s (.request (.advance i choice))) :
    Orderly (step s (.request (.advance i choice))) := by
  change Orderly (s.step (fun _ : Unit => tokenGen s.store.serverConfig) handle (.advance i choice))
  obtain heq | ⟨c, next, hi, heq⟩ := step_advance_cases (fun _ : Unit => tokenGen s.store.serverConfig) handle s i choice
  · rw [heq]
    exact hs
  · rw [heq]
    cases c with
    | begin => exact orderly_still hs hi nofun
    | takeIndex =>
      apply orderly_takeIndex hs hi
      apply h
      rw [hi]
      rfl
    | insertNewToken => exact orderly_still hs hi (fun j hj => congrArg some hj.symm)
    | commit token =>
      cases hperformed : choice.performed with
      | false =>
        simp only [handle, hperformed]
        exact orderly_still hs hi nofun
      | true =>
        simp only [handle, hperformed]
        exact orderly_commit hs hi _

theorem orderly_step {event : Event} (hs : Orderly s) (h : Sparing s event) : Orderly (step s event) := by
  cases event with
  | restart config answers => exact orderly_restarted hs h
  | request event =>
    cases event with
    | start => exact hs.shrink (by rw [holdings_append rfl]) (hs.keeps.append keeps_tokenGen)
    | advance i choice => exact orderly_advance hs h
    | stop i => exact hs.shrink (holdings_stop_subperm rfl) (hs.keeps.set (p := .abort) trivial i)

end Step

theorem orderly_init (config : ServerConfig) : Orderly (init config) where
  neverReused := .nil
  fresh := .nil
  bounded := fun _ h => absurd h List.not_mem_nil
  nonneg := fun _ h => absurd h List.not_mem_nil
  heldNonneg := fun _ h => absurd h List.not_mem_nil
  keeps := allBut_nil

/-- In every interleaving of requests and restarts whose restarts read the table and whose
indexes stay in range, no two tokens of one checksum have the same index. -/
theorem addresses_never_reused (config : ServerConfig) {events : List Event}
    (h : Guarded step Sparing (init config) events) : NeverReused (run step (init config) events).store.tokens :=
  (invariant_run (fun _ _ => orderly_step) (orderly_init config) h).neverReused

section Pair

def pairConfig : ServerConfig := ⟨⟨"x0y", fun index => some (String.ofList (List.replicate index.toNat 'a'))⟩, 10, 1⟩

def served (i : ℕ) (tokenId : String) : List Event :=
  .request (.start ()) :: List.replicate 4 (.request (.advance i ⟨true, true, tokenId⟩))

theorem addresses_never_reused_pair :
    Guarded step Sparing (init pairConfig) (served 0 "t1" ++ [.restart pairConfig true] ++ served 0 "t2") ∧
      NeverReused (run step (init pairConfig)
        (served 0 "t1" ++ [.restart pairConfig true] ++ served 0 "t2")).store.tokens := by
  have h : Guarded step Sparing (init pairConfig)
      (served 0 "t1" ++ [.restart pairConfig true] ++ served 0 "t2") := by decide +kernel
  exact ⟨h, addresses_never_reused pairConfig h⟩

/-- The query fails at the restart, and the first index is given out again. -/
theorem address_reused_after_restart :
    ¬ NeverReused (run step (init pairConfig)
      (served 0 "t1" ++ [.restart pairConfig false] ++ served 0 "t2")).store.tokens := by
  decide +kernel

end Pair

end MercuryLayer.TokenServer.Generate
