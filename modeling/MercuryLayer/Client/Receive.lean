import MercuryLayer.Client.Operations
import MercuryLayer.Library.StableSort

namespace MercuryLayer.Client.Receive

open Client.Operations
open Client.Transaction hiding Call Reply
open Client.TransferReceiver (Unspent InfoConfig Env anyhow splitBackupTransactions
  signatureSchemeFailure)
open Library.StableSort (firstPositions)
open Crates Error Library.Programs Library.Validation Library.XOnlyCurve Receiver Server.Transfer WalletData

variable {E K F : Type} (kit : Kit E K F)

structure DuplicatedCoinData where
  txid : String
  vout : UInt32
  amount : UInt64
  index : UInt32
deriving DecidableEq, Repr

structure MessageResult where
  isBatchLocked : Bool
  statechainId : Option String
  duplicatedCoins : List DuplicatedCoinData
deriving DecidableEq, Repr

def getTx0 (tx0Txid : String) : Operation F String := do
  let txid ← orFail "bitcoin::hashes::hex::Error" (kit.btc.txidFromStr tx0Txid)
  let txBytes : Except String (List String) ← ask (Call.batchTransactionGetRaw txid : Call F)
  let txBytes ← anyhow txBytes
  orFail "tx0 not found" txBytes[0]?

def verifyTx0OutputIsUnspentAndConfirmed [Build] (tx0Outpoint : OutPoint) (tx0Hex network : String) :
    Operation F (Bool × CoinStatus) := do
  let outputAddress ← getOutputAddressFromTx0 kit.btc tx0Outpoint tx0Hex network
  let network ← getNetwork network
  let script ← orFail "bitcoin::address::Error" (kit.btc.scriptOfAddress outputAddress network)
  let res ← scriptListUnspent script
  let blockheight ← send blockHeadersSubscribeRaw
  match res.find? (fun unspent => unspent.txHash == tx0Outpoint.txid && unspent.txPos.toUInt32 == tx0Outpoint.vout) with
  | some unspent =>
    overflow (blockheight < unspent.height ∨ 2 ^ 64 ≤ blockheight.toNat - unspent.height.toNat + 1)
    let confirmations := blockheight - unspent.height + 1
    return (true, if confirmations.toUInt32 ≥ kit.clientConfig.confirmationTarget then .confirmed else .unconfirmed)
  | none => return (false, .unconfirmed)

section Validate

variable [Add F] [Sub F] [Div F] [NatCast F] [LT F] [DecidableLT F]

/-- One turn of the loop of `validate_encrypted_message`, for the group at `index`. -/
def validateGroup [Build] (coin : Coin) (network : String) (infoConfig : InfoConfig F) (blockheight : UInt32)
    (transferMsg : TransferMsg) (index : ℕ) (backupTransactions : List BackupTx) : Operation F Unit := do
  let tx0Outpoint ← getTx0Outpoint kit.btc backupTransactions
  let tx0Hex ← getTx0 kit tx0Outpoint.txid
  if index = 0 then
    let isTransferSignatureValid ←
      verifyTransferSignature kit.btc kit.secp coin.userPubkey tx0Outpoint transferMsg
    failIf (isTransferSignatureValid = false) "Invalid transfer signature"
  let statechainInfo ← orFail "Statechain info not found" (← getStatechainInfo transferMsg.statechainId)
  let isTx0OutputPubkeyValid ← validateTx0OutputPubkey kit.btc kit.secp statechainInfo.enclavePublicKey
    transferMsg tx0Outpoint tx0Hex network
  failIf (isTx0OutputPubkeyValid = false) "Invalid tx0 output pubkey"
  let latestBackupTxPaysToUserPubkey ←
    verifyLatestBackupTxPaysToUserPubkey kit.btc kit.secp transferMsg coin.userPubkey network
  failIf (latestBackupTxPaysToUserPubkey = false) "Latest Backup Tx does not pay to the expected public key"
  failIf (statechainInfo.numSigs ≠ transferMsg.backupTransactions.length.toUInt32) "num_sigs is not correct"
  let (isTx0OutputUnspent, _) ← verifyTx0OutputIsUnspentAndConfirmed kit tx0Outpoint tx0Hex network
  failIf (isTx0OutputUnspent = false) "tx0 output is spent or not confirmed"
  let _ ← (validateSignatureScheme kit.btc kit.secp statechainInfo tx0Hex blockheight
    kit.clientConfig.feeRateTolerance (feeRateSatsPerByte kit.toSetup infoConfig)
    infoConfig.initlock infoConfig.interval backupTransactions).mapError signatureSchemeFailure

def validateEncryptedMessage [Build] (coin : Coin) (encMessage network : String) (infoConfig : InfoConfig F)
    (blockheight : UInt32) : Operation F Unit := do
  let transferMsg ← decryptTransferMsg kit.secp kit.ecies encMessage coin.authPrivkey
  let groupedBackupTransactions ← splitBackupTransactions kit.btc transferMsg.backupTransactions
  groupedBackupTransactions.zipIdx.forM (fun group =>
    validateGroup kit coin network infoConfig blockheight transferMsg group.2 group.1)

end Validate

section Process

def unlockStatecoin (statechainId signedStatechainId authPubkey : String) : Operation F Unit := do
  let response : Transaction.Response ←
    ask (Call.transferUnlock ⟨statechainId, signedStatechainId, some authPubkey⟩ : Call F)
  let response ← anyhow response
  failIf (¬(200 ≤ statusOf response ∧ statusOf response < 300)) "Failed to update transfer message"

/-- The server's new key, or nothing while the batch is locked. -/
def sendTransferReceiverRequestPayload (payload : TransferReceiverRequestPayload) : Operation F (Option String) := do
  let response : Transaction.Response ← ask (Call.transferReceiver payload : Call F)
  let response ← anyhow response
  if statusOf response = 400 then
    match response.bind (answerField "code") with
    | some "StatecoinBatchLockedError" => return none
    | some "ExpiredBatchTimeError" => fail (bodyText response)
    | _ => fail "unknown variant"
  else if statusOf response = 200 then
    some <$> orFail "missing field `server_pubkey`" (response.bind (answerField "server_pubkey"))
  else fail ("Failed to update transfer message: " ++ bodyText response)

def transferReceiverFailure : Failure → Failure
  | .mercury e => .anyhow ("Error: " ++ e.toText)
  | .anyhow text => .anyhow ("Error: " ++ text)
  | .panic => .panic

variable [DecidableEq E]

/-- What the coin becomes once the server has updated its key. -/
def received (coin : Coin) (serverPublicKeyHex : String) (newKeyInfo : NewKeyInfo) (statechainId : String)
    (tx0Outpoint : OutPoint) (locktime : UInt32) (status : CoinStatus) : Coin :=
  { coin with
    serverPubkey := some serverPublicKeyHex
    aggregatedPubkey := some newKeyInfo.aggregatePubkey
    aggregatedAddress := some newKeyInfo.aggregateAddress
    statechainId := some statechainId
    signedStatechainId := some newKeyInfo.signedStatechainId
    amount := some newKeyInfo.amount
    utxoTxid := some tx0Outpoint.txid
    utxoVout := some tx0Outpoint.vout
    locktime := some locktime
    status := status }

/-- The turn of `process_encrypted_message` for the first group, until the coin has been changed.
There is none while the batch is locked. -/
def takeOver [Build] (coin : Coin) (network : String) (transferMsg : TransferMsg) (backupTransactions : List BackupTx) :
    Operation F (Option (Coin × Activity)) := do
  let tx0Outpoint ← getTx0Outpoint kit.btc backupTransactions
  let tx0Hex ← getTx0 kit tx0Outpoint.txid
  let statechainInfo ← unwrap (← getStatechainInfo transferMsg.statechainId)
  let (_, tx0Status) ← verifyTx0OutputIsUnspentAndConfirmed kit tx0Outpoint tx0Hex network
  let backupTx ← unwrap backupTransactions.getLast?
  let lastTxLockTime ← getBlockheight kit.btc backupTx
  let payload ← createTransferReceiverRequestPayload kit.secp statechainInfo transferMsg coin
  let signedStatechainIdForUnlock ← signMessage kit.secp transferMsg.statechainId coin
  unlockStatecoin transferMsg.statechainId signedStatechainIdForUnlock coin.authPubkey
  match ← withContext transferReceiverFailure (sendTransferReceiverRequestPayload payload) with
  | none => return none
  | some serverPublicKeyHex =>
    let newKeyInfo ← getNewKeyInfo kit.btc kit.secp serverPublicKeyHex coin transferMsg.statechainId tx0Outpoint
      tx0Hex network
    let activity ← createActivity tx0Outpoint.txid newKeyInfo.amount "Receive"
    return some (received coin serverPublicKeyHex newKeyInfo transferMsg.statechainId tx0Outpoint lastTxLockTime
      tx0Status, activity)

/-- The turn for a later group. -/
def duplicatedCoinData (index : ℕ) (backupTransactions : List BackupTx) : Operation F DuplicatedCoinData := do
  let tx0Outpoint ← getTx0Outpoint kit.btc backupTransactions
  let tx0Hex ← getTx0 kit tx0Outpoint.txid
  let firstBackupTx ← unwrap backupTransactions.head?
  let txOutpoint ← getPreviousOutpoint kit.btc firstBackupTx
  let amount ← getAmountFromTx0 kit.btc tx0Hex txOutpoint
  return ⟨txOutpoint.txid, txOutpoint.vout, amount, index.toUInt32⟩

def duplicatedCoinsData : List (List BackupTx × ℕ) → Operation F (List DuplicatedCoinData)
  | [] => return []
  | group :: groups => do
    let data ← duplicatedCoinData kit group.2 group.1
    let more ← duplicatedCoinsData groups
    return data :: more

/-- What is left to do once the coin has been changed. -/
def storeReceived (walletName : String) (transferMsg : TransferMsg) (rest : List (List BackupTx × ℕ)) :
    Operation F MessageResult := do
  insertOrUpdateBackupTxs walletName transferMsg.statechainId transferMsg.backupTransactions
  let duplicatedCoins ← duplicatedCoinsData kit rest
  return ⟨false, some transferMsg.statechainId, duplicatedCoins⟩

def openMessage (coin : Coin) (encMessage : String) : Res (TransferMsg × List (List BackupTx × ℕ)) := do
  let transferMsg ← decryptTransferMsg kit.secp kit.ecies encMessage coin.authPrivkey
  let groupedBackupTransactions ← splitBackupTransactions kit.btc transferMsg.backupTransactions
  return (transferMsg, groupedBackupTransactions.zipIdx)

/-- The coin and the activities with the changes made to them, and the result. An error leaves the
changes that came before it. -/
def processEncryptedMessage [Build] (coin : Coin) (encMessage network walletName : String) (activities : List Activity) :
    Operation F (Coin × List Activity × Option MessageResult) := do
  match ← attempt (liftM (openMessage kit coin encMessage)) with
  | none => return (coin, activities, none)
  | some (_, []) => return (coin, activities, some ⟨false, none, []⟩)
  | some (transferMsg, first :: rest) =>
    match ← attempt (takeOver kit coin network transferMsg first.1) with
    | none => return (coin, activities, none)
    | some none => return (coin, activities, some ⟨true, none, []⟩)
    | some (some (coin, activity)) =>
      let result ← attempt (storeReceived kit walletName transferMsg rest)
      return (coin, activities ++ [activity], result)

end Process

section Execute

/-- What `execute` has gathered so far. -/
structure Gathered where
  tempCoins : List Coin
  tempActivities : List Activity
  duplicatedCoins : List Coin
  isThereBatchLocked : Bool
  receivedStatechainIds : List String
deriving DecidableEq, Repr

structure TransferReceiveResult where
  isThereBatchLocked : Bool
  receivedStatechainIds : List String
deriving DecidableEq, Repr

def duplicateOf (coin : Coin) (data : DuplicatedCoinData) : Coin :=
  { coin with
    status := .duplicated, utxoTxid := some data.txid, utxoVout := some data.vout
    amount := some data.amount.toUInt32, duplicateIndex := data.index }

/-- A message that was processed. A locked batch with further deposits fails an `assert!`. -/
def gather (gathered : Gathered) (coin : Coin) (result : MessageResult) : Res Gathered := do
  throwIf (0 < result.duplicatedCoins.length ∧ result.isBatchLocked = true) .panic
  return { gathered with
    isThereBatchLocked := gathered.isThereBatchLocked || result.isBatchLocked
    receivedStatechainIds := gathered.receivedStatechainIds ++ result.statechainId.toList
    duplicatedCoins := gathered.duplicatedCoins ++ result.duplicatedCoins.map (duplicateOf coin) }

/-- The comparison that `sort_coins_by_statechain` hands to `sort_by`. A missing position is a panic. -/
def compareCoins (firstPositions : String → Option ℕ) (a b : Coin) : Res Ordering :=
  match a.statechainId, b.statechainId with
  | none, none => .ok (compare a.duplicateIndex.toNat b.duplicateIndex.toNat)
  | none, some _ => .ok .gt
  | some _, none => .ok .lt
  | some idA, some idB =>
    if idA = idB then .ok (compare a.duplicateIndex.toNat b.duplicateIndex.toNat)
    else do
      let posA ← unwrap (firstPositions idA)
      let posB ← unwrap (firstPositions idB)
      return compare posA posB

def sortCoinsByStatechain (coins : List Coin) : List Coin :=
  coins.insertionSort (fun a b => (compareCoins (firstPositions Coin.statechainId coins) a b).toOption ≠ some .gt)

variable [DecidableEq E] [Add F] [Sub F] [Div F] [NatCast F] [LT F] [DecidableLT F]

/-- A message is validated and processed with the coin, and what has become of the coin is kept. -/
def receiveWith [Build] (wallet : Wallet) (infoConfig : InfoConfig F) (blockheight : UInt32) (gathered : Gathered)
    (coin : Coin) (encMessage : String) (keep : Coin → List Activity → Option MessageResult → Res Gathered) :
    Operation F Gathered := do
  match ← attempt (validateEncryptedMessage kit coin encMessage wallet.network infoConfig blockheight) with
  | none => return gathered
  | some () =>
    let (coin, activities, result) ← processEncryptedMessage kit coin encMessage wallet.network wallet.name
      gathered.tempActivities
    keep coin activities result

/-- The coin takes its place again, whether the message was processed or not. -/
def keepOwn (gathered : Gathered) (place : ℕ) (coin : Coin) (activities : List Activity) :
    Option MessageResult → Res Gathered
  | none => .ok { gathered with tempCoins := gathered.tempCoins.set place coin, tempActivities := activities }
  | some result =>
    gather { gathered with tempCoins := gathered.tempCoins.set place coin, tempActivities := activities } coin result

/-- A new coin is added only if the message was processed. -/
def keepNew (gathered : Gathered) (coin : Coin) (activities : List Activity) : Option MessageResult → Res Gathered
  | none => .ok { gathered with tempActivities := activities }
  | some result =>
    gather { gathered with tempCoins := gathered.tempCoins ++ [coin], tempActivities := activities } coin result

/-- The further deposits that a message tells of. -/
def dataOf (result : Option MessageResult) : List DuplicatedCoinData :=
  (result.map MessageResult.duplicatedCoins).getD []

section Kept

variable {gathered gathered' : Gathered} {coin : Coin} {place : ℕ} {activities : List Activity}
  {result : Option MessageResult}

theorem gather_eq_ok {result : MessageResult} (h : gather gathered coin result = .ok gathered') :
    gathered'.tempCoins = gathered.tempCoins ∧ gathered'.tempActivities = gathered.tempActivities ∧
      gathered'.duplicatedCoins = gathered.duplicatedCoins ++ result.duplicatedCoins.map (duplicateOf coin) := by
  obtain ⟨_, -, h⟩ := bind_eq_ok.mp h
  cases pure_eq_ok.mp h
  exact ⟨rfl, rfl, rfl⟩

theorem keepOwn_eq_ok (h : keepOwn gathered place coin activities result = .ok gathered') :
    gathered'.tempCoins = gathered.tempCoins.set place coin ∧ gathered'.tempActivities = activities ∧
      gathered'.duplicatedCoins = gathered.duplicatedCoins ++ (dataOf result).map (duplicateOf coin) := by
  cases result with
  | none =>
    cases Except.ok.inj h
    exact ⟨rfl, rfl, (List.append_nil _).symm⟩
  | some result => exact gather_eq_ok h

theorem keepNew_eq_ok (h : keepNew gathered coin activities result = .ok gathered') :
    gathered'.tempCoins = gathered.tempCoins ++ (if result = none then [] else [coin]) ∧
      gathered'.tempActivities = activities ∧
      gathered'.duplicatedCoins = gathered.duplicatedCoins ++ (dataOf result).map (duplicateOf coin) := by
  cases result with
  | none =>
    cases Except.ok.inj h
    exact ⟨(List.append_nil _).symm, rfl, (List.append_nil _).symm⟩
  | some result => exact gather_eq_ok h

end Kept

/-- One message for one of the wallet's authentication keys. It goes to the first coin with the key
that has not been used, or to a new copy of the first coin with the key. -/
def receiveMessage [Build] (wallet : Wallet) (infoConfig : InfoConfig F) (blockheight : UInt32) (gathered : Gathered)
    (authPubkey encMessage : String) : Operation F Gathered := do
  match gathered.tempCoins.zipIdx.find? (fun coin =>
      coin.1.authPubkey == authPubkey && coin.1.status == .initialised) with
  | some (coin, place) =>
    receiveWith kit wallet infoConfig blockheight gathered coin encMessage (keepOwn gathered place)
  | none =>
    match ← handled (duplicateCoinToInitializedState wallet authPubkey) with
    | none => return gathered
    | some newCoin => receiveWith kit wallet infoConfig blockheight gathered newCoin encMessage (keepNew gathered)

theorem waiting_of_find {coins : List Coin} {authPubkey : String} {coin : Coin} {place : ℕ}
    (h : coins.zipIdx.find? (fun coin => coin.1.authPubkey == authPubkey && coin.1.status == .initialised) =
      some (coin, place)) : coins[place]? = some coin ∧ coin.status = .initialised := by
  obtain ⟨hcoin, -⟩ := List.find?_eq_some_iff_append.mp h
  exact ⟨List.mem_zipIdx_iff_getElem?.mp (List.mem_of_find?_eq_some h), by simpa using (Bool.and_eq_true_iff.mp hcoin).2⟩

def receiveMessages [Build] (wallet : Wallet) (infoConfig : InfoConfig F) (blockheight : UInt32) :
    List (String × String) → Gathered → Operation F Gathered
  | [], gathered => return gathered
  | (authPubkey, encMessage) :: messages, gathered => do
    let gathered ← receiveMessage kit wallet infoConfig blockheight gathered authPubkey encMessage
    receiveMessages wallet infoConfig blockheight messages gathered

def getMsgAddr (authPubkey : String) : Operation F (List String) := do
  let encMessages : Except String (List String) ← ask (Call.getMsgAddr authPubkey : Call F)
  anyhow encMessages

/-- The messages of each key. -/
def encMsgsPerAuthPubkey : List String → Operation F (List (String × List String))
  | [] => return []
  | authPubkey :: authPubkeys => do
    let encMessages ← getMsgAddr authPubkey
    let rest ← encMsgsPerAuthPubkey authPubkeys
    return if encMessages = [] then rest else (authPubkey, encMessages) :: rest

/-- What `execute` does between reading the wallet and saving it. -/
def gatherMessages [Build] (wallet : Wallet) : Operation F Gathered := do
  let infoConfig ← expectOk (send infoConfig)
  let setOrder : List String → List String ← ask (Call.hashOrder : Call F)
  let encMsgs ← encMsgsPerAuthPubkey (setOrder (wallet.coins.map Coin.authPubkey).eraseDups)
  let blockheight ← send currentBlockheight
  let mapOrder : List String → List String ← ask (Call.hashOrder : Call F)
  let messages := (mapOrder (encMsgs.map Prod.fst)).flatMap (fun authPubkey =>
    ((encMsgs.lookup authPubkey).getD []).map (fun encMessage => (authPubkey, encMessage)))
  receiveMessages kit wallet infoConfig blockheight messages ⟨wallet.coins, wallet.activities, [], false, []⟩

def execute [Build] (walletName : String) : Operation F TransferReceiveResult := do
  let wallet ← getWallet walletName
  let gathered ← gatherMessages kit wallet
  updateWallet { wallet with
    coins := sortCoinsByStatechain (gathered.tempCoins ++ gathered.duplicatedCoins)
    activities := gathered.tempActivities }
  return ⟨gathered.isThereBatchLocked, gathered.receivedStatechainIds⟩

end Execute

end MercuryLayer.Client.Receive
