import MercuryLayer.Client.SignatureScheme
import MercuryLayer.Musig.ChallengeCheck

namespace MercuryLayer.Client.RowCoverage

open Client.SignatureScheme Client.TransferReceiver Crates Error Library.Validation Library.XOnlyCurve
open Musig.ChallengeCheck Musig.Session Receiver WalletData

/-- The row that a backup transaction is checked against, by its place in the list. -/
def rowIndex (info : StatechainInfoResponsePayload) (backupTx : BackupTx) : Option ℕ :=
  info.statechainInfo.findIdx? (fun row => row.txN == backupTx.txN)

/-- No two transactions are checked against the same row, and each row has its transaction. -/
structure Accounted (info : StatechainInfoResponsePayload) (txs : List BackupTx) : Prop where
  injective : (txs.map (rowIndex info)).Nodup
  covers : ∀ k < info.statechainInfo.length, some k ∈ txs.map (rowIndex info)

theorem rowIndex_eq_some {info : StatechainInfoResponsePayload} {backupTx : BackupTx} {k : ℕ}
    (h : rowIndex info backupTx = some k) :
    ∃ hk : k < info.statechainInfo.length, info.statechainInfo[k].txN = backupTx.txN := by
  obtain ⟨hk, hrow, -⟩ := List.findIdx?_eq_some_iff_getElem.mp h
  exact ⟨hk, beq_iff_eq.mp hrow⟩

theorem rowIndex_congr {info : StatechainInfoResponsePayload} {a b : BackupTx} (h : a.txN = b.txN) :
    rowIndex info a = rowIndex info b := by
  rw [rowIndex, rowIndex, h]

theorem nodup_rowIndex_iff {info : StatechainInfoResponsePayload} {txs : List BackupTx}
    (h : ∀ b ∈ txs, ∃ k, rowIndex info b = some k) :
    (txs.map (rowIndex info)).Nodup ↔ (txs.map BackupTx.txN).Nodup := by
  have hsame : ∀ a ∈ txs, ∀ b ∈ txs, rowIndex info a = rowIndex info b ↔ a.txN = b.txN := by
    intro a ha b hb
    refine ⟨fun heq => ?_, rowIndex_congr⟩
    obtain ⟨k, hk⟩ := h a ha
    obtain ⟨hlt, hrow⟩ := rowIndex_eq_some hk
    obtain ⟨hlt', hrow'⟩ := rowIndex_eq_some (heq.symm.trans hk)
    exact hrow.symm.trans hrow'
  rw [List.Nodup, List.Nodup, List.pairwise_map, List.pairwise_map]
  constructor
  · intro hpair
    exact hpair.imp_of_mem (fun ha hb hne heq => hne ((hsame _ ha _ hb).mpr heq))
  · intro hpair
    exact hpair.imp_of_mem (fun ha hb hne heq => hne ((hsame _ ha _ hb).mp heq))

/-- As many different rows as there are: all of them. -/
theorem covers_of_nodup {info : StatechainInfoResponsePayload} {txs : List BackupTx}
    (h : ∀ b ∈ txs, ∃ k, rowIndex info b = some k) (hnodup : (txs.map (rowIndex info)).Nodup)
    (hlength : info.statechainInfo.length ≤ txs.length) :
    ∀ k < info.statechainInfo.length, some k ∈ txs.map (rowIndex info) := by
  have hsubset : txs.map (rowIndex info) ⊆ (List.range info.statechainInfo.length).map some := by
    intro index hindex
    obtain ⟨b, hb, rfl⟩ := List.mem_map.mp hindex
    obtain ⟨k, hk⟩ := h b hb
    obtain ⟨hlt, -⟩ := rowIndex_eq_some hk
    rw [hk]
    exact List.mem_map_of_mem (List.mem_range.mpr hlt)
  have hperm : (txs.map (rowIndex info)).Perm ((List.range info.statechainInfo.length).map some) := by
    refine (hnodup.subperm hsubset).perm_of_length_le ?_
    rw [List.length_map, List.length_map, List.length_range]
    exact hlength
  intro k hk
  exact hperm.mem_iff.mpr (List.mem_map_of_mem (List.mem_range.mpr hk))

section Accepted

variable {E K F : Type} [Add F] [Sub F] [Div F] [NatCast F] [LT F] [DecidableLT F] {env : Env E K F} {coin : Coin}
  {encMessage network : String} {infoConfig : InfoConfig F} {blockheight : UInt32} {transferMsg : TransferMsg}
  {info : StatechainInfoResponsePayload}

theorem row_of_accepted (hok : validateEncryptedMessage env coin encMessage network infoConfig blockheight = .ok ())
    (hmsg : decryptTransferMsg env.secp env.ecies encMessage coin.authPrivkey = .ok transferMsg)
    (hinfo : env.getStatechainInfo transferMsg.statechainId = .ok (some info)) :
    ∀ b ∈ transferMsg.backupTransactions, ∃ k, rowIndex info b = some k := by
  intro b hb
  simp only [validateEncryptedMessage, hmsg, ok_bind] at hok
  obtain ⟨groups, hgroups, hvalid⟩ := bind_eq_ok.mp hok
  obtain ⟨outpointOf, houtpoint⟩ := exists_outpointOf hgroups
  cases (splitBackupTransactions_eq houtpoint).symm.trans hgroups
  obtain ⟨group, hgroup, hmem⟩ := mem_group_of_mem hb
  obtain ⟨i, hi⟩ := List.getElem?_of_mem hgroup
  obtain ⟨_, tx0Hex, info', _, lockTime, -, -, -, hinfo', -, -, -, -, hscheme⟩ :=
    validateGroup_eq_ok.mp (forM_eq_ok.mp hvalid _ (List.mk_mem_zipIdx_iff_getElem?.mpr hi))
  cases hinfo.symm.trans hinfo'
  obtain ⟨row, hrow, -⟩ := checked_of_validateSignatureScheme hscheme b hmem
  refine Option.isSome_iff_exists.mp ?_
  have hnumber := List.find?_some hrow
  rw [rowIndex, List.findIdx?_isSome, List.any_eq_true]
  exact ⟨row, List.mem_of_find?_eq_some hrow, hnumber⟩

/-- An accepted message accounts for the server's rows exactly if no two of its transactions have one
number, and the server has no more rows than the message has transactions. -/
theorem accounted_iff (hok : validateEncryptedMessage env coin encMessage network infoConfig blockheight = .ok ())
    (hmsg : decryptTransferMsg env.secp env.ecies encMessage coin.authPrivkey = .ok transferMsg)
    (hinfo : env.getStatechainInfo transferMsg.statechainId = .ok (some info)) :
    Accounted info transferMsg.backupTransactions ↔
      (transferMsg.backupTransactions.map BackupTx.txN).Nodup ∧
        info.statechainInfo.length ≤ transferMsg.backupTransactions.length := by
  have hrow := row_of_accepted hok hmsg hinfo
  constructor
  · rintro ⟨hinjective, hcovers⟩
    have hsubset : (List.range info.statechainInfo.length).map some ⊆
        transferMsg.backupTransactions.map (rowIndex info) := by
      intro index hindex
      obtain ⟨k, hk, rfl⟩ := List.mem_map.mp hindex
      exact hcovers k (List.mem_range.mp hk)
    have hrange : ((List.range info.statechainInfo.length).map some).Nodup :=
      List.nodup_range.map (Option.some_injective ℕ)
    have hlength := (hrange.subperm hsubset).length_le
    rw [List.length_map, List.length_map, List.length_range] at hlength
    exact ⟨(nodup_rowIndex_iff hrow).mp hinjective, hlength⟩
  · rintro ⟨hnodup, hlength⟩
    have hinjective := (nodup_rowIndex_iff hrow).mpr hnodup
    exact ⟨hinjective, covers_of_nodup hrow hinjective hlength⟩

end Accepted

section Seven

/-- Two transactions that spend one output, with lock times 1000 and 990. -/
def rivalTx (lockTime : UInt32) : Transaction :=
  { replayTx with lockTime := lockTime, output := [{ value := 1000, scriptPubkey := [0x51, 0x20, 3] }] }

def rivalBtc : Bitcoin where
  deserialize tx := .ok (if tx = "tx0" then fundingTx else rivalTx (if tx = "older" then 1000 else 990))
  serialize tx := if tx.lockTime = 1000 then "older" else "newer"
  txid _ := "tx0"
  txidFromStr _ := some []
  vsize _ := 1
  sighash _ _ := some []
  addressToStr _ _ := ""
  addressFromScript _ _ := some ""
  scriptOfAddress _ _ := some []

/-- Both transactions, under the number and the challenge of the server's second row. -/
def rivalMsg (txN : UInt32) : TransferMsg :=
  { statechainId := "statechain"
    transferSignature := seven.secp.signatureToStr (seven.secp.signSchnorr [] 1)
    backupTransactions :=
      [{ solvedBackupTx with txN := txN, tx := "older" }, { solvedBackupTx with txN := 2, tx := "newer" }]
    t1 := []
    userPublicKey := seven.secp.publicKeyToStr (point 1 one_ne_zero_seven) }

def rivalInfo : StatechainInfoResponsePayload :=
  { enclavePublicKey := seven.secp.publicKeyToStr (point 1 one_ne_zero_seven)
    numSigs := 2
    statechainInfo := [{ recordedRow with txN := 1 }, { recordedRow with txN := 2 }]
    x1Pub := none }

def rivalEnv (txN : UInt32) : Env (Point (ZMod 7)) (ZMod 7) ℕ where
  btc := rivalBtc
  secp := seven.secp
  ecies :=
    { hexDecode := fun _ => some []
      decrypt := fun _ _ => some []
      transferMsgFromJson := fun _ => some (rivalMsg txN) }
  clientConfig := { feeRateTolerance := 0, confirmationTarget := 0, maxFeeRate := 0 }
  electrum :=
    { batchTransactionGetRaw := fun _ => .ok ["tx0"]
      scriptListUnspent := fun _ => .ok [{ txHash := "tx0", txPos := 0, height := 0, value := 0 }]
      blockHeadersSubscribeRaw := .ok 0 }
  getStatechainInfo := fun _ => .ok (some rivalInfo)

def rivalCoin : Coin :=
  { index := 0, userPrivkey := "", userPubkey := seven.secp.publicKeyToStr (point 2 two_ne_zero_seven)
    authPrivkey := seven.wif.encode 1, authPubkey := "", derivationPath := "", fingerprint := "", address := ""
    backupAddress := "", status := .initialised, duplicateIndex := 0 }

def rivalConfig : InfoConfig ℕ := { initlock := 1000, interval := 10, feeRateSatsPerByte := 0 }

/-- Each transaction has its own row. -/
theorem accounted_seven :
    validateEncryptedMessage (rivalEnv 1) rivalCoin "" "regtest" rivalConfig 0 = .ok () ∧
      Accounted rivalInfo (rivalMsg 1).backupTransactions := by
  have hok : validateEncryptedMessage (rivalEnv 1) rivalCoin "" "regtest" rivalConfig 0 = .ok () := by
    decide +kernel
  have hmsg : decryptTransferMsg (rivalEnv 1).secp (rivalEnv 1).ecies "" rivalCoin.authPrivkey = .ok (rivalMsg 1) := by
    decide +kernel
  exact ⟨hok, (accounted_iff hok hmsg rfl).mpr ⟨by decide +kernel, by decide⟩⟩

/-- Both transactions are accepted against the second row, which leaves the first one without a
transaction. -/
theorem unaccounted_row_seven :
    validateEncryptedMessage (rivalEnv 2) rivalCoin "" "regtest" rivalConfig 0 = .ok () ∧
      decryptTransferMsg (rivalEnv 2).secp (rivalEnv 2).ecies "" rivalCoin.authPrivkey = .ok (rivalMsg 2) ∧
      (rivalMsg 2).backupTransactions.map (rowIndex rivalInfo) = [some 1, some 1] ∧
      ¬Accounted rivalInfo (rivalMsg 2).backupTransactions := by
  have hindex : (rivalMsg 2).backupTransactions.map (rowIndex rivalInfo) = [some 1, some 1] := by decide +kernel
  refine ⟨by decide +kernel, by decide +kernel, hindex, fun h => ?_⟩
  have hinjective := h.injective
  rw [hindex] at hinjective
  exact absurd hinjective (by decide)

end Seven

end MercuryLayer.Client.RowCoverage
