import MercuryLayer.Client.HostileMessage

namespace MercuryLayer.Web.TransferReceive

open Client.TransferReceiver Crates Error Library.Validation Library.XOnlyCurve Receiver WalletData

/-- An unspent output as an esplora server lists it. `none` is `NaN`. -/
structure Utxo where
  txid : String
  vout : ℕ
  confirmed : Bool
  blockHeight : Option ℤ
deriving DecidableEq, Repr

/-- The answer to `blocks/tip/height` and what `parseInt` makes of it. -/
structure TipHeight where
  blockHeader : String
  blockheight : Option ℤ
deriving DecidableEq, Repr

/-- The `break` for an output in the mempool leaves the loop without a result. No comparison with `NaN`
holds. -/
def verifyTx0OutputIsUnspentAndConfirmed (confirmationTarget : UInt32) (tx0Outpoint : OutPoint) (tip : TipHeight) :
    List Utxo → Except String (Bool × CoinStatus)
  | [] => .ok (false, .unconfirmed)
  | unspent :: utxoList =>
    if unspent.txid = tx0Outpoint.txid ∧ unspent.vout = tx0Outpoint.vout.toNat then
      if unspent.confirmed = false then .ok (false, .inMempool)
      else match tip.blockheight with
        | none => .error ("Invalid block height: " ++ tip.blockHeader)
        | some blockheight =>
          let confirmations := unspent.blockHeight.map (fun height => blockheight - height + 1)
          .ok (true, if confirmations.any (fun n => decide ((confirmationTarget.toNat : ℤ) ≤ n)) then .confirmed
            else .unconfirmed)
    else verifyTx0OutputIsUnspentAndConfirmed confirmationTarget tx0Outpoint tip utxoList

section Views

/-- The same output in the listings of both servers. Electrum gives the height 0 to the mempool. -/
def utxoOf (unspent : Unspent) : Utxo where
  txid := unspent.txHash
  vout := unspent.txPos.toNat
  confirmed := decide (0 < unspent.height)
  blockHeight := if 0 < unspent.height then some unspent.height.toNat else none

def tipOf (blockheight : UInt64) : TipHeight := ⟨toString blockheight, some blockheight.toNat⟩

def IsAt (outpoint : OutPoint) (unspent : Unspent) : Prop :=
  unspent.txHash = outpoint.txid ∧ unspent.txPos.toUInt32 = outpoint.vout

instance (outpoint : OutPoint) (unspent : Unspent) : Decidable (IsAt outpoint unspent) :=
  inferInstanceAs (Decidable (_ ∧ _))

/-- A listing has every output once, at a position of 32 bits. -/
structure Listing (unspents : List Unspent) : Prop where
  once : unspents.Pairwise (fun a b => ¬(a.txHash = b.txHash ∧ a.txPos = b.txPos))
  position : ∀ unspent ∈ unspents, unspent.txPos.toNat < 2 ^ 32

/-- The output is in a block, and as many blocks as wanted are on it. -/
def Deep (confirmationTarget : UInt32) (outpoint : OutPoint) (unspents : List Unspent) (blockheight : UInt64) : Prop :=
  ∃ unspent ∈ unspents, IsAt outpoint unspent ∧ 0 < unspent.height.toNat ∧
    (confirmationTarget.toNat : ℤ) ≤ blockheight.toNat - unspent.height.toNat + 1

/-- The difference and the number of confirmations are those of the integers. -/
def Exact (outpoint : OutPoint) (unspents : List Unspent) (blockheight : UInt64) : Prop :=
  ∀ unspent ∈ unspents, IsAt outpoint unspent →
    ((blockheight - unspent.height).toNat : ℤ) = blockheight.toNat - unspent.height.toNat ∧
      ((blockheight - unspent.height + 1).toUInt32.toNat : ℤ) = blockheight.toNat - unspent.height.toNat + 1

/-- The output, if it is listed, is in a block that is not above the tip. -/
def Settled (outpoint : OutPoint) (unspents : List Unspent) (blockheight : UInt64) : Prop :=
  ∀ unspent ∈ unspents, IsAt outpoint unspent →
    0 < unspent.height.toNat ∧ unspent.height.toNat ≤ blockheight.toNat ∧
      blockheight.toNat - unspent.height.toNat + 1 < 2 ^ 32

end Views

section Status

variable {outpoint : OutPoint} {unspents : List Unspent} {blockheight : UInt64} {target : UInt32}

theorem exact_iff {blockheight height : UInt64} :
    (((blockheight - height).toNat : ℤ) = blockheight.toNat - height.toNat ∧
      ((blockheight - height + 1).toUInt32.toNat : ℤ) = blockheight.toNat - height.toNat + 1) ↔
    height.toNat ≤ blockheight.toNat ∧ blockheight.toNat - height.toNat + 1 < 2 ^ 32 := by
  have hb := blockheight.toNat_lt
  have hh := height.toNat_lt
  rw [UInt64.toNat_toUInt32, UInt64.toNat_add, UInt64.toNat_sub, UInt64.toNat_one]
  omega

theorem isAt_utxoOf (hlisting : Listing unspents) {unspent : Unspent} (hunspent : unspent ∈ unspents) :
    ((utxoOf unspent).txid = outpoint.txid ∧ (utxoOf unspent).vout = outpoint.vout.toNat) ↔ IsAt outpoint unspent := by
  have hposition := hlisting.position unspent hunspent
  refine and_congr_right (fun _ => ?_)
  rw [← UInt32.toNat_inj, UInt64.toNat_toUInt32, Nat.mod_eq_of_lt hposition]
  rfl

theorem eq_of_isAt (hlisting : Listing unspents) {a b : Unspent} (ha : a ∈ unspents) (hb : b ∈ unspents)
    (hata : IsAt outpoint a) (hatb : IsAt outpoint b) : a = b := by
  by_contra hne
  have hsymm : Std.Symm (fun a b : Unspent => ¬(a.txHash = b.txHash ∧ a.txPos = b.txPos)) :=
    ⟨fun _ _ h h' => h ⟨h'.1.symm, h'.2.symm⟩⟩
  refine hlisting.once.forall ha hb hne ⟨hata.1.trans hatb.1.symm, ?_⟩
  have hposition := congrArg UInt32.toNat (hata.2.trans hatb.2.symm)
  rw [UInt64.toNat_toUInt32, UInt64.toNat_toUInt32, Nat.mod_eq_of_lt (hlisting.position a ha),
    Nat.mod_eq_of_lt (hlisting.position b hb)] at hposition
  exact UInt64.toNat_inj.mp hposition

theorem Listing.tail {unspent : Unspent} (h : Listing (unspent :: unspents)) : Listing unspents :=
  ⟨(List.pairwise_cons.mp h.once).2, fun other hother => h.position other (List.mem_cons_of_mem _ hother)⟩

theorem web_eq (hlisting : Listing unspents) (target : UInt32) (tip : TipHeight) :
    verifyTx0OutputIsUnspentAndConfirmed target outpoint tip (unspents.map utxoOf) =
      match unspents.find? (fun unspent => decide (IsAt outpoint unspent)) with
      | none => .ok (false, .unconfirmed)
      | some unspent => verifyTx0OutputIsUnspentAndConfirmed target outpoint tip [utxoOf unspent] := by
  induction unspents with
  | nil => rfl
  | cons unspent unspents ih =>
    have hat : _ ↔ IsAt outpoint unspent := isAt_utxoOf hlisting List.mem_cons_self
    rw [List.map_cons, verifyTx0OutputIsUnspentAndConfirmed, List.find?_cons]
    by_cases h : IsAt outpoint unspent
    · simp only [hat, h, decide_true, if_true]
      rw [verifyTx0OutputIsUnspentAndConfirmed]
      simp only [hat, h, if_true]
    · simp only [hat, h, decide_false, if_false]
      exact ih hlisting.tail

theorem web_settled {unspent : Unspent} (hlisting : Listing unspents) (hunspent : unspent ∈ unspents)
    (hat : IsAt outpoint unspent) (target : UInt32) (blockheight : UInt64) :
    verifyTx0OutputIsUnspentAndConfirmed target outpoint (tipOf blockheight) [utxoOf unspent] =
      if 0 < unspent.height.toNat then
        .ok (true, if (target.toNat : ℤ) ≤ blockheight.toNat - unspent.height.toNat + 1 then .confirmed
          else .unconfirmed)
      else .ok (false, .inMempool) := by
  have hheight : 0 < unspent.height ↔ 0 < unspent.height.toNat := UInt64.lt_iff_toNat_lt
  rw [verifyTx0OutputIsUnspentAndConfirmed, if_pos ((isAt_utxoOf hlisting hunspent).mpr hat)]
  by_cases h : 0 < unspent.height.toNat
  · simp [utxoOf, tipOf, hheight, h]
  · simp [utxoOf, hheight, h]

end Status

section Agreement

variable {E K F : Type}

/-- The answer is the right one, made of exact numbers, and the web client gives it too. -/
def Agrees (target : UInt32) (outpoint : OutPoint) (unspents : List Unspent) (blockheight : UInt64)
    (answer : Bool × CoinStatus) : Prop :=
  Exact outpoint unspents blockheight ∧
    (answer.2 = .confirmed ↔ Deep target outpoint unspents blockheight) ∧
    ∃ web, verifyTx0OutputIsUnspentAndConfirmed target outpoint (tipOf blockheight) (unspents.map utxoOf) = .ok web ∧
      web.1 = answer.1 ∧ (web.2 = .confirmed ↔ answer.2 = .confirmed)

variable {env : Env E K F} {outpoint : OutPoint} {tx0Hex network address : String} {net : Network} {script : Bytes}
  {unspents : List Unspent} {blockheight : UInt64}

theorem verify_eq (haddress : getOutputAddressFromTx0 env.btc outpoint tx0Hex network = .ok address)
    (hnet : getNetwork network = .ok net) (hscript : env.btc.scriptOfAddress address net = some script)
    (hunspents : env.electrum.scriptListUnspent script = .ok unspents)
    (hheight : env.electrum.blockHeadersSubscribeRaw = .ok blockheight) :
    Client.TransferReceiver.verifyTx0OutputIsUnspentAndConfirmed env outpoint tx0Hex network =
      match unspents.find? (fun unspent => decide (IsAt outpoint unspent)) with
      | none => .ok (false, .unconfirmed)
      | some unspent => .ok (true,
          if env.clientConfig.confirmationTarget.toNat ≤ (blockheight - unspent.height + 1).toUInt32.toNat then .confirmed
          else .unconfirmed) := by
  have hpredicate : (fun unspent : Unspent => unspent.txHash == outpoint.txid && unspent.txPos.toUInt32 == outpoint.vout) =
      fun unspent => decide (IsAt outpoint unspent) := by
    funext unspent
    rw [Bool.eq_iff_iff, Bool.and_eq_true, beq_iff_eq, beq_iff_eq, decide_eq_true_iff, IsAt]
  simp only [Client.TransferReceiver.verifyTx0OutputIsUnspentAndConfirmed, haddress, hnet, hscript, hunspents, hheight,
    anyhow, orThrow_some, ok_bind, hpredicate]
  cases unspents.find? (fun unspent => decide (IsAt outpoint unspent)) with
  | none => rfl
  | some unspent => rfl

/-- The answer agrees with the chain and with the web client exactly where the output, if it is listed,
is in a block that is not above the tip. -/
theorem status_agrees_iff (env : Env E K F) (outpoint : OutPoint) (tx0Hex network address : String) (net : Network)
    (script : Bytes) (unspents : List Unspent) (blockheight : UInt64)
    (haddress : getOutputAddressFromTx0 env.btc outpoint tx0Hex network = .ok address)
    (hnet : getNetwork network = .ok net) (hscript : env.btc.scriptOfAddress address net = some script)
    (hunspents : env.electrum.scriptListUnspent script = .ok unspents)
    (hheight : env.electrum.blockHeadersSubscribeRaw = .ok blockheight) (hlisting : Listing unspents) :
    (∃ answer, Client.TransferReceiver.verifyTx0OutputIsUnspentAndConfirmed env outpoint tx0Hex network = .ok answer ∧
      Agrees env.clientConfig.confirmationTarget outpoint unspents blockheight answer) ↔
    Settled outpoint unspents blockheight := by
  rw [verify_eq haddress hnet hscript hunspents hheight]
  cases hfind : unspents.find? (fun unspent => decide (IsAt outpoint unspent)) with
  | none =>
    have habsent : ∀ unspent ∈ unspents, ¬IsAt outpoint unspent := by
      intro unspent hunspent
      simpa using List.find?_eq_none.mp hfind unspent hunspent
    refine iff_of_true ⟨_, rfl, fun unspent hunspent hat => absurd hat (habsent unspent hunspent), ?_, ?_⟩
      (fun unspent hunspent hat => absurd hat (habsent unspent hunspent))
    · exact iff_of_false nofun (fun ⟨unspent, hunspent, hat, _⟩ => habsent unspent hunspent hat)
    · refine ⟨(false, .unconfirmed), ?_, rfl, Iff.rfl⟩
      rw [web_eq hlisting, hfind]
  | some unspent =>
    have hunspent := List.mem_of_find?_eq_some hfind
    have hat : IsAt outpoint unspent := by
      simpa using List.find?_some hfind
    have honly : ∀ other ∈ unspents, IsAt outpoint other → other = unspent :=
      fun other hother hother' => eq_of_isAt hlisting hother hunspent hother' hat
    have hexact : Exact outpoint unspents blockheight ↔ _ :=
      ⟨fun h => exact_iff.mp (h unspent hunspent hat), fun h other hother hother' => by
        rw [honly other hother hother']
        exact exact_iff.mpr h⟩
    have hsettled : Settled outpoint unspents blockheight ↔ 0 < unspent.height.toNat ∧ _ :=
      ⟨fun h => h unspent hunspent hat, fun h other hother hother' => by
        rw [honly other hother hother']
        exact h⟩
    have hweb : verifyTx0OutputIsUnspentAndConfirmed env.clientConfig.confirmationTarget outpoint (tipOf blockheight)
        (unspents.map utxoOf) = _ := web_eq hlisting _ _
    rw [hfind] at hweb
    dsimp only at hweb
    rw [web_settled hlisting hunspent hat] at hweb
    constructor
    · rintro ⟨_, hanswer, hnumbers, -, web, hweb', hsame, -⟩
      cases hanswer
      by_cases hblock : 0 < unspent.height.toNat
      · exact hsettled.mpr ⟨hblock, hexact.mp hnumbers⟩
      · rw [hweb, if_neg hblock] at hweb'
        cases hweb'
        cases hsame
    · intro h
      obtain ⟨hblock, hrange⟩ := hsettled.mp h
      rw [if_pos hblock] at hweb
      have hcount : env.clientConfig.confirmationTarget.toNat ≤ (blockheight - unspent.height + 1).toUInt32.toNat ↔
          (env.clientConfig.confirmationTarget.toNat : ℤ) ≤ blockheight.toNat - unspent.height.toNat + 1 := by
        rw [← (exact_iff.mpr hrange).2, Int.ofNat_le]
      refine ⟨_, rfl, hexact.mpr hrange, ?_, _, hweb, rfl, ?_⟩
      · simp only [hcount]
        constructor
        · intro hstatus
          split_ifs at hstatus with hdeep
          exact ⟨unspent, hunspent, hat, hblock, hdeep⟩
        · rintro ⟨other, hother, hother', -, hdeep⟩
          rw [honly other hother hother'] at hdeep
          rw [if_pos hdeep]
      · simp only [hcount]

section Seven

open Client.HostileMessage Client.LocktimeGuard Client.Operations Client.Withdraw Musig.Session

/-- The output is listed at the given height, and the tip is at 5. -/
def listedAt (height : UInt64) : (c : Client.Operations.Call ℕ) → Client.Operations.Reply c
  | .sending (.scriptListUnspent _) => (.ok [⟨"f", 0, height, 1000⟩] : Except String (List Unspent))
  | .sending .blockHeadersSubscribeRaw => (.ok 5 : Except String UInt64)
  | c => granting c

def fundingHex : String := wireBtc.serialize ⟨2, 0, [], [⟨1000, []⟩]⟩

def statusAtHeight (height : UInt64) : Res (Bool × CoinStatus) × Except String (Bool × CoinStatus) :=
  (Client.TransferReceiver.verifyTx0OutputIsUnspentAndConfirmed (envOf sevenKit ⟨.ok, listedAt height⟩) ⟨"f", 0⟩
      fundingHex "regtest",
    verifyTx0OutputIsUnspentAndConfirmed 1 ⟨"f", 0⟩ (tipOf 5) [utxoOf ⟨"f", 0, height, 1000⟩])

/-- An output in block 3 is confirmed for both clients. -/
theorem status_agrees_seven :
    ∃ answer, Client.TransferReceiver.verifyTx0OutputIsUnspentAndConfirmed (envOf sevenKit ⟨.ok, listedAt 3⟩) ⟨"f", 0⟩
        fundingHex "regtest" = .ok answer ∧ Agrees 1 ⟨"f", 0⟩ [⟨"f", 0, 3, 1000⟩] 5 answer := by
  refine (status_agrees_iff (envOf sevenKit ⟨.ok, listedAt 3⟩) ⟨"f", 0⟩ fundingHex "regtest" "address" .regtest []
    [⟨"f", 0, 3, 1000⟩] 5 (by decide +kernel) rfl rfl rfl rfl ⟨List.pairwise_singleton _ _, ?_⟩).mpr ?_
  · intro unspent hunspent
    cases List.mem_singleton.mp hunspent
    decide
  · intro unspent hunspent _
    cases List.mem_singleton.mp hunspent
    decide

/-- An output in the mempool is confirmed for one client and refused by the other, and one in a block
above the tip is confirmed for the first client only. -/
theorem status_mistaken_seven :
    statusAtHeight 0 = (.ok (true, .confirmed), .ok (false, .inMempool)) ∧
      statusAtHeight 10 = (.ok (true, .confirmed), .ok (true, .unconfirmed)) := by
  decide +kernel

end Seven

end Agreement

end MercuryLayer.Web.TransferReceive
