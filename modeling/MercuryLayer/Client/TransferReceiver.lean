import MercuryLayer.Library.Grouping
import MercuryLayer.Receiver

namespace MercuryLayer.Client.TransferReceiver

open Crates Error Library.Validation Library.XOnlyCurve Receiver WalletData Library

structure Unspent where
  txHash : String
  txPos : UInt64
  height : UInt64
  value : UInt64
deriving DecidableEq, Repr

/-- The answers of the electrum server. A raw transaction is kept as its hex text, and an
error as its message. -/
structure Electrum where
  batchTransactionGetRaw : Bytes → Except String (List String)
  scriptListUnspent : Bytes → Except String (List Unspent)
  blockHeadersSubscribeRaw : Except String UInt64

structure ClientConfig (F : Type) where
  feeRateTolerance : F
  confirmationTarget : UInt32
  maxFeeRate : F

structure InfoConfig (F : Type) where
  initlock : UInt32
  interval : UInt32
  feeRateSatsPerByte : F

/-- Everything the receiving client consults: the crates, its configuration, the chain
and the statechain entity's answer to `/info/statechain`. -/
structure Env (E K F : Type) where
  btc : Bitcoin
  secp : Secp E K
  ecies : Ecies K
  clientConfig : ClientConfig F
  electrum : Electrum
  getStatechainInfo : String → Res (Option StatechainInfoResponsePayload)

/-- The `?` operator on an error that `anyhow` wraps. -/
def anyhow {α : Type} : Except String α → Res α
  | .ok a => .ok a
  | .error text => .error (.anyhow text)

@[simp] theorem anyhow_eq_ok {α : Type} {x : Except String α} {a : α} : anyhow x = .ok a ↔ x = .ok a := by
  cases x <;> simp [anyhow]

theorem anyhow_ne_panic {α : Type} {reply : Except String α} : anyhow reply ≠ .error .panic := by
  cases reply <;> exact nofun

/-- Group the backup transactions by the outpoint they spend, in order of appearance, and
sort each group by `tx_n`. An unreadable outpoint is a panic. -/
def splitBackupTransactions (btc : Bitcoin) (backupTransactions : List BackupTx) :
    Res (List (List BackupTx)) := do
  let rows ← backupTransactions.mapM (fun tx => do
    let outpoint ← expect (getPreviousOutpoint btc tx)
    return (outpoint, tx))
  let g := rows.foldl Grouping.push Grouping.empty
  return (Grouping.collect g.orderOfAppearance g.grouped).map sortByTxN

def groupByOutpoint (outpointOf : String → OutPoint) (txs : List BackupTx) : List (List BackupTx) :=
  (txs.map (fun b => outpointOf b.tx)).eraseDups.map
    (fun key => sortByTxN (txs.filter (fun b => outpointOf b.tx = key)))

theorem rowsOf_outpoint (outpointOf : String → OutPoint) (txs : List BackupTx) (key : OutPoint) :
    Grouping.rowsOf key (txs.map (fun b => (outpointOf b.tx, b))) =
      txs.filter (fun b => outpointOf b.tx = key) := by
  rw [Grouping.rowsOf, List.filter_map, List.map_map]
  exact List.map_id _

/-- When every transaction is readable the split is the partition by outpoint. -/
theorem splitBackupTransactions_eq {btc : Bitcoin} {outpointOf : String → OutPoint} {txs : List BackupTx}
    (h : ∀ b ∈ txs, getPreviousOutpoint btc b = .ok (outpointOf b.tx)) :
    splitBackupTransactions btc txs = .ok (groupByOutpoint outpointOf txs) := by
  have hrows : txs.mapM (fun tx => do
      let outpoint ← expect (getPreviousOutpoint btc tx)
      return (outpoint, tx)) = Except.ok (txs.map (fun b => (outpointOf b.tx, b))) := by
    apply mapM_eq_ok
    intro b hb
    rw [h b hb]
    rfl
  simp only [splitBackupTransactions, hrows, ok_bind, Grouping.collect_foldl, List.map_map, groupByOutpoint,
    Function.comp_def, rowsOf_outpoint]
  rfl

theorem exists_outpointOf {btc : Bitcoin} {txs : List BackupTx} {groups : List (List BackupTx)}
    (h : splitBackupTransactions btc txs = .ok groups) :
    ∃ outpointOf : String → OutPoint, ∀ b ∈ txs, getPreviousOutpoint btc b = .ok (outpointOf b.tx) := by
  obtain ⟨rows, hrows, -⟩ := bind_eq_ok.mp h
  refine ⟨fun tx => ((getPreviousOutpoint btc ⟨0, tx, "", "", "", "", ""⟩).toOption).getD ⟨"", 0⟩, fun b hb => ?_⟩
  obtain ⟨row, hrow⟩ := exists_of_mapM_eq_ok hrows b hb
  obtain ⟨outpoint, houtpoint, -⟩ := bind_eq_ok.mp hrow
  have hread : getPreviousOutpoint btc b = .ok outpoint := expect_eq_ok.mp houtpoint
  have hsame : getPreviousOutpoint btc ⟨0, b.tx, "", "", "", "", ""⟩ = .ok outpoint := hread
  dsimp only
  rw [hread, hsame]
  rfl

theorem mem_group_of_mem {outpointOf : String → OutPoint} {txs : List BackupTx} {b : BackupTx} (hb : b ∈ txs) :
    ∃ g ∈ groupByOutpoint outpointOf txs, b ∈ g := by
  refine ⟨sortByTxN (txs.filter (fun b' => outpointOf b'.tx = outpointOf b.tx)), ?_, ?_⟩
  · exact List.mem_map.mpr ⟨outpointOf b.tx, List.mem_eraseDups.mpr (List.mem_map_of_mem hb), rfl⟩
  · rw [(sortByTxN_perm _).mem_iff]
    simp [hb]

theorem groupByOutpoint_ne_nil {outpointOf : String → OutPoint} {txs g : List BackupTx}
    (hg : g ∈ groupByOutpoint outpointOf txs) : g ≠ [] := by
  obtain ⟨key, hkey, rfl⟩ := List.mem_map.mp hg
  obtain ⟨b, hb, rfl⟩ := List.mem_map.mp (List.mem_eraseDups.mp hkey)
  have hmem : b ∈ sortByTxN (txs.filter (fun b' => outpointOf b'.tx = outpointOf b.tx)) := by
    rw [(sortByTxN_perm _).mem_iff]
    simp [hb]
  exact List.ne_nil_of_mem hmem

theorem mem_of_mem_group {outpointOf : String → OutPoint} {txs g : List BackupTx} {b : BackupTx}
    (hg : g ∈ groupByOutpoint outpointOf txs) (hb : b ∈ g) : b ∈ txs := by
  obtain ⟨key, -, rfl⟩ := List.mem_map.mp hg
  rw [(sortByTxN_perm _).mem_iff] at hb
  exact List.mem_of_mem_filter hb

variable {E K F : Type} (env : Env E K F)

def getTx0 (tx0Txid : String) : Res String := do
  let txid ← orThrow (.anyhow "bitcoin::hashes::hex::Error") (env.btc.txidFromStr tx0Txid)
  let txBytes ← anyhow (env.electrum.batchTransactionGetRaw txid)
  orThrow (.anyhow "tx0 not found") txBytes[0]?

/-- Whether the funding output is among the unspent outputs of its address, with the status
that its number of confirmations gives. -/
def verifyTx0OutputIsUnspentAndConfirmed [Build] (tx0Outpoint : OutPoint) (tx0Hex network : String) :
    Res (Bool × CoinStatus) := do
  let outputAddress ← getOutputAddressFromTx0 env.btc tx0Outpoint tx0Hex network
  let network ← getNetwork network
  let script ← orThrow (.anyhow "bitcoin::address::Error") (env.btc.scriptOfAddress outputAddress network)
  let res ← anyhow (env.electrum.scriptListUnspent script)
  let blockheight ← anyhow env.electrum.blockHeadersSubscribeRaw
  match res.find? (fun unspent => unspent.txHash == tx0Outpoint.txid && unspent.txPos.toUInt32 == tx0Outpoint.vout) with
  | some unspent =>
    overflow (blockheight < unspent.height ∨ 2 ^ 64 ≤ blockheight.toNat - unspent.height.toNat + 1)
    let confirmations := blockheight - unspent.height + 1
    return (true, if confirmations.toUInt32 ≥ env.clientConfig.confirmationTarget then .confirmed else .unconfirmed)
  | none => return (false, .unconfirmed)

section Validate

variable [Add F] [Sub F] [Div F] [NatCast F] [LT F] [DecidableLT F]

def currentFeeRateSatsPerByte (infoConfig : InfoConfig F) : F :=
  if env.clientConfig.maxFeeRate < infoConfig.feeRateSatsPerByte then env.clientConfig.maxFeeRate
  else infoConfig.feeRateSatsPerByte

def signatureSchemeFailure : Failure → Failure
  | .mercury e => .anyhow ("Signature scheme validation failed. Error " ++ e.toText)
  | f => f

/-- One turn of the loop of `validate_encrypted_message`, for the group at `index`. -/
def validateGroup [Build] (coin : Coin) (network : String) (infoConfig : InfoConfig F) (blockheight : UInt32)
    (transferMsg : TransferMsg) (index : ℕ) (backupTransactions : List BackupTx) : Res Unit := do
  let tx0Outpoint ← getTx0Outpoint env.btc backupTransactions
  let tx0Hex ← getTx0 env tx0Outpoint.txid
  if index = 0 then
    let isTransferSignatureValid ←
      verifyTransferSignature env.btc env.secp coin.userPubkey tx0Outpoint transferMsg
    throwIf (isTransferSignatureValid = false) (.anyhow "Invalid transfer signature")
  let statechainInfo ← orThrow (.anyhow "Statechain info not found")
    (← env.getStatechainInfo transferMsg.statechainId)
  let isTx0OutputPubkeyValid ← validateTx0OutputPubkey env.btc env.secp statechainInfo.enclavePublicKey
    transferMsg tx0Outpoint tx0Hex network
  throwIf (isTx0OutputPubkeyValid = false) (.anyhow "Invalid tx0 output pubkey")
  let latestBackupTxPaysToUserPubkey ←
    verifyLatestBackupTxPaysToUserPubkey env.btc env.secp transferMsg coin.userPubkey network
  throwIf (latestBackupTxPaysToUserPubkey = false)
    (.anyhow "Latest Backup Tx does not pay to the expected public key")
  throwIf (statechainInfo.numSigs ≠ transferMsg.backupTransactions.length.toUInt32)
    (.anyhow "num_sigs is not correct")
  let (isTx0OutputUnspent, _) ← verifyTx0OutputIsUnspentAndConfirmed env tx0Outpoint tx0Hex network
  throwIf (isTx0OutputUnspent = false) (.anyhow "tx0 output is spent or not confirmed")
  let _ ← (validateSignatureScheme env.btc env.secp statechainInfo tx0Hex blockheight
    env.clientConfig.feeRateTolerance (currentFeeRateSatsPerByte env infoConfig)
    infoConfig.initlock infoConfig.interval backupTransactions).mapError signatureSchemeFailure

def validateEncryptedMessage [Build] (coin : Coin) (encMessage network : String) (infoConfig : InfoConfig F)
    (blockheight : UInt32) : Res Unit := do
  let transferMsg ← decryptTransferMsg env.secp env.ecies encMessage coin.authPrivkey
  let groupedBackupTransactions ← splitBackupTransactions env.btc transferMsg.backupTransactions
  groupedBackupTransactions.zipIdx.forM (fun group =>
    validateGroup env coin network infoConfig blockheight transferMsg group.2 group.1)

variable {env} {coin : Coin} {network : String} {infoConfig : InfoConfig F} {blockheight : UInt32}
  {transferMsg : TransferMsg} {index : ℕ} {group : List BackupTx}

theorem validateGroup_eq_ok [Build] :
    validateGroup env coin network infoConfig blockheight transferMsg index group = .ok () ↔
      ∃ tx0Outpoint tx0Hex info status lockTime,
        getTx0Outpoint env.btc group = .ok tx0Outpoint ∧
        getTx0 env tx0Outpoint.txid = .ok tx0Hex ∧
        (index = 0 →
          verifyTransferSignature env.btc env.secp coin.userPubkey tx0Outpoint transferMsg = .ok true) ∧
        env.getStatechainInfo transferMsg.statechainId = .ok (some info) ∧
        validateTx0OutputPubkey env.btc env.secp info.enclavePublicKey transferMsg tx0Outpoint tx0Hex network =
          .ok true ∧
        verifyLatestBackupTxPaysToUserPubkey env.btc env.secp transferMsg coin.userPubkey network = .ok true ∧
        info.numSigs = transferMsg.backupTransactions.length.toUInt32 ∧
        verifyTx0OutputIsUnspentAndConfirmed env tx0Outpoint tx0Hex network = .ok (true, status) ∧
        validateSignatureScheme env.btc env.secp info tx0Hex blockheight env.clientConfig.feeRateTolerance
          (currentFeeRateSatsPerByte env infoConfig) infoConfig.initlock infoConfig.interval group =
          .ok lockTime := by
  by_cases hi : index = 0 <;> simp [validateGroup, hi]

end Validate

end MercuryLayer.Client.TransferReceiver
