import MercuryLayer.Musig.ChallengeCheck
import MercuryLayer.Musig.Cosign
import MercuryLayer.Sender

namespace MercuryLayer.KeyHandover

open Crates Error Library.Validation Library.XOnlyCurve Lockbox.Enclave Musig.Cosign MercuryLayer.Musig
open Musig.Session Receiver Sender WalletData

variable {n : ℕ} {E : Type} [AddCommGroup E] [Module (ZMod n) E] [DecidableEq E]

/-- A funded coin: the shares at deposit and the funding output, whose script carries the
taproot key of their sum. -/
structure Deposit (p : Params n E) where
  btc : Bitcoin
  tx0Hex : String
  tx0Outpoint : OutPoint
  o1 : ZMod n
  s1 : ZMod n
  s1_ne_zero : s1 ≠ 0
  tx0Output : TxOut
  outputKey : Bytes
  funded : txOutput btc tx0Hex tx0Outpoint.vout = .ok tx0Output
  script : xOnlyOfScript p.secp tx0Output.scriptPubkey = .ok outputKey
  aggregated : p.secp.p2trOutputKey (p.x ((o1 + s1) • p.G)) = some outputKey

/-- One transfer: the message as the receiver decrypted it, the server's `x1`, and the
receiver's coin with the share and the authentication key that it holds. -/
structure Transfer (n : ℕ) where
  transferMsg : TransferMsg
  network : String
  x1 : ZMod n
  coin : Coin
  share : ZMod n
  authKey : ZMod n
  nonce : Bytes

variable (enclave : Keyring n E) (deposit : Deposit enclave.params)

/-- The transfer is accepted at the server share `s` and the lockbox moves to `s'`. -/
structure Step (s s' : ZMod n) (tr : Transfer n) : Prop where
  userPubkey : tr.coin.userPubkey = enclave.params.secp.publicKeyToStr (enclave.params.publicKey tr.share)
  authPrivkey : tr.coin.authPrivkey = enclave.params.wif.encode tr.authKey
  share_ne_zero : tr.share ≠ 0
  authKey_ne_zero : tr.authKey ≠ 0
  x1_ne_zero : tr.x1 ≠ 0
  tx0OutputPubkey : validateTx0OutputPubkey deposit.btc enclave.params.secp
    (enclave.params.secp.publicKeyToStr (enclave.params.publicKey s)) tr.transferMsg deposit.tx0Outpoint
    deposit.tx0Hex tr.network = .ok true
  t1pub : ∃ sender, enclave.params.secp.publicKeyFromStr tr.transferMsg.userPublicKey = some sender ∧
    validateT1pub enclave.params.secp tr.transferMsg.t1 (enclave.params.publicKey tr.x1) sender = .ok true
  updated : ∃ t2 old response, calculateT2 enclave.params.secp tr.transferMsg tr.share = .ok t2 ∧
    enclave.keypairs.unlock old = some s ∧
    keyUpdate enclave old (enclave.params.getB32 tr.x1) (enclave.params.getB32 t2) tr.nonce = .ok response ∧
    enclave.keypairs.unlock response.encryptedData = some s'

/-- A chain of accepted transfers from one server share to another. -/
inductive Chain : ZMod n → List (Transfer n) → ZMod n → Prop
  | nil (s : ZMod n) : Chain s [] s
  | cons {s s' s'' : ZMod n} {tr : Transfer n} {trs : List (Transfer n)} :
      Step enclave deposit s s' tr → Chain s' trs s'' → Chain s (tr :: trs) s''

/-- The sender of the transfer holds the share `o` and follows the protocol. -/
def Honest (p : Params n E) (o : ZMod n) (tr : Transfer n) : Prop :=
  ∃ envelope : Envelope (Point E), ∃ coin x1 transferSignature backupTransactions,
    coin.userPrivkey = p.wif.encode o ∧ envelope.bytes32FromHex x1 = .ok (p.getB32 tr.x1) ∧
    createTransferMsg p.secp envelope x1 coin transferSignature backupTransactions = .ok tr.transferMsg

def HonestFrom (p : Params n E) : ZMod n → List (Transfer n) → Prop
  | _, [] => True
  | o, tr :: trs => Honest p o tr ∧ HonestFrom p tr.share trs

def ownerAfter : ZMod n → List (Transfer n) → ZMod n
  | o, [] => o
  | _, tr :: trs => ownerAfter tr.share trs

/-- With `t1 * G = O1 + X1` the scalar `t1` is the sum of the owner's share and of `x1`. -/
theorem t1_of_validateT1pub {p : Params n E} {o1 x1 : ZMod n} (ho1 : o1 ≠ 0) (hx1 : x1 ≠ 0) {t1 : Bytes}
    (h : validateT1pub p.secp t1 (p.publicKey x1) (p.publicKey o1) = .ok true) : p.setB32 t1 = some (o1 + x1) := by
  obtain ⟨secretT1, hsecret, hcombine⟩ := (validateT1pub_eq_true _).mp h
  obtain ⟨ht1, hne⟩ := Option.filter_eq_some_iff.mp hsecret
  have hsum : (p.publicKey o1 : E) + p.publicKey x1 = p.publicKey secretT1 := Params.toPoint_eq_some.mp hcombine
  rw [p.coe_publicKey ho1, p.coe_publicKey hx1, p.coe_publicKey (of_decide_eq_true hne), ← add_smul] at hsum
  rw [ht1, p.smul_G_injective hsum]

theorem t2_of_calculateT2 {p : Params n E} {transferMsg : TransferMsg} {o2 t1 t2 : ZMod n}
    (ht1 : p.setB32 transferMsg.t1 = some t1) (h : calculateT2 p.secp transferMsg o2 = .ok t2) : t2 = t1 - o2 := by
  obtain ⟨t1', ht1', hadd⟩ := (calculateT2_eq_ok _).mp h
  have hsame : t1' = t1 := Option.some.inj (ht1'.symm.trans ht1)
  have htweak : (if -o2 + t1' = 0 then none else some (-o2 + t1')) = some t2 := hadd
  split_ifs at htweak with hzero
  rw [← Option.some.inj htweak, hsame]
  ring

variable {enclave deposit} {s s' : ZMod n} {tr : Transfer n} {trs : List (Transfer n)}

/-- What the update computes: the scalar `t1` of the message takes the place of the two
shares, with the receiver's share and `x1` taken out. -/
theorem Step.share_eq (h : Step enclave deposit s s' tr) :
    ∃ t1, enclave.params.setB32 tr.transferMsg.t1 = some t1 ∧ s' = s + (t1 - tr.share) - tr.x1 ∧ s' ≠ 0 := by
  obtain ⟨t2, old, response, ht2, hold, hkey, hnew⟩ := h.updated
  obtain ⟨t1, ht1, -⟩ := (calculateT2_eq_ok _).mp ht2
  obtain ⟨seckey, t2', x1, hseckey, ht2', -, hx1, -, hne, rfl⟩ := (keyUpdate_eq_ok enclave).mp hkey
  rw [enclave.params.setB32_getB32, Option.some.injEq] at ht2' hx1
  rw [hold, Option.some.injEq] at hseckey
  rw [enclave.keypairs.unlock_lock, Option.some.injEq] at hnew
  subst ht2' hx1 hseckey hnew
  exact ⟨t1, ht1, by rw [t2_of_calculateT2 ht1 ht2], hne⟩

theorem Chain.share_ne_zero {s s' : ZMod n} {trs : List (Transfer n)}
    (h : Chain enclave deposit s trs s') (hs : s ≠ 0) : s' ≠ 0 := by
  induction h with
  | nil s => exact hs
  | cons hstep _ ih =>
    obtain ⟨_, -, -, hne⟩ := hstep.share_eq
    exact ih hne

/-- The new shares make the point that the receiver checked: the sender's key with the
server's old key. -/
theorem Step.aggregate_eq (h : Step enclave deposit s s' tr) (hs : s ≠ 0) :
    ∃ aggregate : Point E, (aggregate : E) = (tr.share + s') • enclave.params.G ∧
      enclave.params.secp.p2trOutputKey (enclave.params.x aggregate) = some deposit.outputKey ∧
      ∃ net, getNetwork tr.network = .ok net := by
  obtain ⟨t1, ht1, hs', -⟩ := h.share_eq
  obtain ⟨sender, hsender, hvalid⟩ := h.t1pub
  obtain ⟨secretT1, hsecret, hcombine⟩ := (validateT1pub_eq_true _).mp hvalid
  obtain ⟨net, enclaveKey, sender', aggregate, script, key, tx0Output, hnet, henclave, hsender', hagg, hscript,
    hkey, hout, hkey'⟩ := (validateTx0OutputPubkey_eq_true _ _).mp h.tx0OutputPubkey
  obtain ⟨hsecret', hsecret0⟩ := Option.filter_eq_some_iff.mp hsecret
  have ht1eq : secretT1 = t1 := Option.some.inj (hsecret'.symm.trans ht1)
  subst ht1eq
  rw [hsender, Option.some.injEq] at hsender'
  rw [enclave.params.publicKeyFromStr_toStr, Option.some.injEq] at henclave
  rw [deposit.funded, Except.ok.injEq] at hout
  subst hsender' henclave hout
  rw [deposit.script, Except.ok.injEq] at hkey'
  have hsum : (sender : E) + enclave.params.publicKey tr.x1 = enclave.params.publicKey secretT1 :=
    Params.toPoint_eq_some.mp hcombine
  have haggregate : (sender : E) + enclave.params.publicKey s = aggregate := Params.toPoint_eq_some.mp hagg
  rw [Params.coe_publicKey _ h.x1_ne_zero, Params.coe_publicKey _ (of_decide_eq_true hsecret0)] at hsum
  rw [Params.coe_publicKey _ hs] at haggregate
  obtain ⟨out, hp2tr, rfl⟩ := p2trScript_eq_ok.mp hscript
  rw [xOnlyOfScript_p2tr, unwrap_eq_ok] at hkey
  obtain ⟨_, -, hkey⟩ := Option.map_eq_some_iff.mp hkey
  refine ⟨aggregate, ?_, ?_, net, hnet⟩
  · rw [← haggregate, eq_sub_of_add_eq hsum, hs']
    module
  · rw [hkey', ← hkey]
    exact hp2tr

theorem serverPubkey_eq {old serializedX1 serializedT2 nonce : Bytes} {response : NewKeyPairResponse E}
    (hkey : keyUpdate enclave old serializedX1 serializedT2 nonce = .ok response)
    (hnew : enclave.keypairs.unlock response.encryptedData = some s') :
    response.serverPubkey = enclave.params.publicKey s' := by
  obtain ⟨seckey, t2, x1, -, -, -, -, -, -, rfl⟩ := (keyUpdate_eq_ok enclave).mp hkey
  rw [enclave.keypairs.unlock_lock, Option.some.injEq] at hnew
  rw [hnew]

theorem Step.newKeyInfo (h : Step enclave deposit s s' tr) (hs : s ≠ 0) :
    ∃ info, getNewKeyInfo deposit.btc enclave.params.secp
      (enclave.params.secp.publicKeyToStr (enclave.params.publicKey s')) tr.coin tr.transferMsg.statechainId
      deposit.tx0Outpoint deposit.tx0Hex tr.network = .ok info := by
  obtain ⟨aggregate, haggregate, hp2tr, net, hnet⟩ := h.aggregate_eq hs
  obtain ⟨_, -, -, hs'⟩ := h.share_eq
  have hauth : enclave.params.secp.privateKeyFromWif (enclave.params.wif.encode tr.authKey) = some tr.authKey := by
    simp [Params.secp, h.authKey_ne_zero]
  have hcombine : enclave.params.secp.combine (enclave.params.publicKey tr.share) (enclave.params.publicKey s') =
      some aggregate := by
    refine Params.toPoint_eq_some.mpr ?_
    rw [Params.coe_publicKey _ h.share_ne_zero, Params.coe_publicKey _ hs', haggregate, add_smul]
  have hscript : p2trScript enclave.params.secp (enclave.params.secp.xOnly aggregate) =
      .ok (0x51 :: 0x20 :: deposit.outputKey) := p2trScript_eq_ok.mpr ⟨_, hp2tr, rfl⟩
  have hkey : xOnlyOfScript enclave.params.secp (0x51 :: 0x20 :: deposit.outputKey) = .ok deposit.outputKey := by
    rw [xOnlyOfScript_p2tr, unwrap_eq_ok]
    exact enclave.params.xOnlyFromSlice_idem (xOnlyOfScript_eq_ok.mp deposit.script).2
  simp only [getNewKeyInfo, hnet, h.authPrivkey, h.userPubkey, hauth, publicKeyFromStr,
    enclave.params.publicKeyFromStr_toStr, orErr_some, ok_bind, hcombine, hscript, hkey, deposit.funded,
    deposit.script, throwIf, ne_eq, not_true_eq_false, if_false]
  exact ⟨_, rfl⟩

theorem Honest.share_eq {o : ZMod n} (hh : Honest enclave.params o tr) (h : Step enclave deposit s s' tr) :
    s' + tr.share = s + o := by
  obtain ⟨envelope, coin, x1, transferSignature, backupTransactions, hwif, hx1, hmsg⟩ := hh
  obtain ⟨t1, ht1, hs', -⟩ := h.share_eq
  simp only [createTransferMsg, hwif, hx1, bind_eq_ok, orErr_eq_ok, Except.ok.injEq, pure_eq_ok, unwrap_eq_ok]
    at hmsg
  obtain ⟨o', ho', _, rfl, x1', hx1', t1', ht1', _, -, hmsg⟩ := hmsg
  have ho : o = o' := by
    have ho'' := (Option.filter_eq_some_iff.mp ho').1
    rw [enclave.params.wif.decode_encode] at ho''
    exact Option.some.inj ho''
  have hx : tr.x1 = x1' := Option.some.inj ((enclave.params.setB32_getB32 tr.x1).symm.trans hx1')
  subst ho hx
  have hadd : (if o + tr.x1 = 0 then none else some (o + tr.x1)) = some t1' := ht1'
  split_ifs at hadd with h0
  have ht : t1' = t1 := by
    rw [← hmsg] at ht1
    exact Option.some.inj ((enclave.params.setB32_getB32 t1').symm.trans ht1)
  rw [hs', ← ht, ← Option.some.inj hadd]
  ring

/-- With honest senders the sum of the shares is the same at every point of the chain. -/
theorem Chain.share_eq {s s' o : ZMod n} (h : Chain enclave deposit s trs s')
    (hh : HonestFrom enclave.params o trs) : s' + ownerAfter o trs = s + o := by
  induction h generalizing o with
  | nil s => rfl
  | cons hstep _ ih =>
    obtain ⟨hhead, htail⟩ := hh
    rw [ownerAfter, ih htail, hhead.share_eq hstep]

theorem HonestFrom.append {p : Params n E} {o : ZMod n} (h : HonestFrom p o (trs ++ [tr])) :
    HonestFrom p o trs ∧ Honest p (ownerAfter o trs) tr := by
  induction trs generalizing o with
  | nil => exact ⟨trivial, h.1⟩
  | cons tr' trs ih =>
    obtain ⟨hhead, htail⟩ := h
    obtain ⟨h1, h2⟩ := ih htail
    exact ⟨⟨hhead, h1⟩, h2⟩

/-- Every transfer of every chain leaves the taproot key of the funding output unchanged, and
the sum of the shares as well when the senders are honest. -/
theorem handover_preserves_coin_key (enclave : Keyring n E) (deposit : Deposit enclave.params)
    (trs : List (Transfer n)) (tr : Transfer n) (s s' : ZMod n)
    (hchain : Chain enclave deposit deposit.s1 trs s) (hstep : Step enclave deposit s s' tr) :
    enclave.params.secp.p2trOutputKey
        (enclave.params.x (tr.share • enclave.params.G + s' • enclave.params.G)) = some deposit.outputKey ∧
      (∀ old serializedX1 serializedT2 nonce response,
        keyUpdate enclave old serializedX1 serializedT2 nonce = .ok response →
        enclave.keypairs.unlock response.encryptedData = some s' →
        ∃ info, getNewKeyInfo deposit.btc enclave.params.secp
          (enclave.params.secp.publicKeyToStr response.serverPubkey) tr.coin tr.transferMsg.statechainId
          deposit.tx0Outpoint deposit.tx0Hex tr.network = .ok info) ∧
      (HonestFrom enclave.params deposit.o1 (trs ++ [tr]) → s' + tr.share = deposit.s1 + deposit.o1) := by
  have hs := hchain.share_ne_zero deposit.s1_ne_zero
  obtain ⟨aggregate, haggregate, hp2tr, -⟩ := hstep.aggregate_eq hs
  refine ⟨?_, fun old serializedX1 serializedT2 nonce response hkey hnew => ?_, fun hh => ?_⟩
  · rw [← add_smul, ← haggregate]
    exact hp2tr
  · rw [serverPubkey_eq hkey hnew]
    exact hstep.newKeyInfo hs
  · obtain ⟨htrs, htr⟩ := hh.append
    rw [htr.share_eq hstep, hchain.share_eq htrs]

section Seven

def sevenDeposit : Deposit sevenKeyring.params where
  btc := ChallengeCheck.replayBtc
  tx0Hex := "tx0"
  tx0Outpoint := ⟨"tx0", 0⟩
  o1 := 1
  s1 := 1
  s1_ne_zero := one_ne_zero_seven
  tx0Output := { value := 1000, scriptPubkey := [0x51, 0x20, 3] }
  outputKey := [3]
  funded := rfl
  script := rfl
  aggregated := rfl

/-- The coin in the hands of the owner with the given share. -/
def coinOf (share : ZMod 7) : Coin :=
  { sevenCoin with
    userPrivkey := seven.wif.encode share
    userPubkey := seven.secp.publicKeyToStr (seven.publicKey share)
    authPrivkey := seven.wif.encode 1 }

/-- A transfer under `x1 = 1` from the owner with one share to the receiver with another. -/
def sevenTransfer (owner share : ZMod 7) : Transfer 7 where
  transferMsg :=
    { statechainId := "statechain", transferSignature := "", backupTransactions := [], t1 := b32 (owner + 1)
      userPublicKey := seven.secp.publicKeyToStr (seven.publicKey owner) }
  network := "regtest"
  x1 := 1
  coin := coinOf share
  share := share
  authKey := 1
  nonce := []

theorem sevenStep : Step sevenKeyring sevenDeposit 1 5 (sevenTransfer 1 4) where
  userPubkey := rfl
  authPrivkey := rfl
  share_ne_zero := by decide
  authKey_ne_zero := by decide
  x1_ne_zero := by decide
  tx0OutputPubkey := rfl
  t1pub := ⟨seven.publicKey 1, seven.publicKeyFromStr_toStr _, rfl⟩
  updated := ⟨5, [1], _, rfl, rfl, rfl, rfl⟩

theorem sevenStep_again : Step sevenKeyring sevenDeposit 5 3 (sevenTransfer 4 6) where
  userPubkey := rfl
  authPrivkey := rfl
  share_ne_zero := by decide
  authKey_ne_zero := by decide
  x1_ne_zero := by decide
  tx0OutputPubkey := rfl
  t1pub := ⟨seven.publicKey 4, seven.publicKeyFromStr_toStr _, rfl⟩
  updated := ⟨6, [5], _, rfl, rfl, rfl, rfl⟩

def sevenEnvelope : Envelope (Point (ZMod 7)) :=
  ⟨fun _ => .error .panic, fun _ => .ok (b32 1), fun _ => [], fun _ _ => none⟩

theorem handover_preserves_coin_key_seven :
    Chain sevenKeyring sevenDeposit sevenDeposit.s1 [sevenTransfer 1 4] 5 ∧
      Step sevenKeyring sevenDeposit 5 3 (sevenTransfer 4 6) ∧
      seven.secp.p2trOutputKey (seven.x (6 • seven.G + 3 • seven.G)) = some [3] ∧
      (3 : ZMod 7) + 6 = sevenDeposit.s1 + sevenDeposit.o1 := by
  have hchain : Chain sevenKeyring sevenDeposit sevenDeposit.s1 [sevenTransfer 1 4] 5 :=
    .cons sevenStep (.nil _)
  obtain ⟨hkey, -, hsum⟩ := handover_preserves_coin_key sevenKeyring sevenDeposit [sevenTransfer 1 4]
    (sevenTransfer 4 6) 5 3 hchain sevenStep_again
  exact ⟨hchain, sevenStep_again, hkey, hsum ⟨⟨sevenEnvelope, coinOf 1, "", "", [], rfl, rfl, rfl⟩,
    ⟨sevenEnvelope, coinOf 4, "", "", [], rfl, rfl, rfl⟩, trivial⟩⟩

end Seven

end MercuryLayer.KeyHandover
