import MercuryLayer.Client.Operations

namespace MercuryLayer.Client.Deposit

open Client.Operations Client.TransferReceiver
open Client.Transaction hiding Call Reply
open MercuryLayer.Deposit Error Library.Programs Library.Validation Server.Transfer WalletData

variable {E K F : Type} (kit : Kit E K F)

/-- `last_mut().unwrap()` with what is done to the coin. -/
def modifyLast (wallet : Wallet) (f : Coin → Coin) : Res Wallet := do
  let coin ← unwrap wallet.coins.getLast?
  return { wallet with coins := wallet.coins.dropLast ++ [f coin] }

def depositMsg1Response (response : Option Answer) : Option DepositMsg1Response := do
  let answer ← response
  let serverPubkey ← answerField "server_pubkey" answer
  let statechainId ← answerField "statechain_id" answer
  return ⟨serverPubkey, statechainId⟩

def init (wallet : Wallet) (tokenId : String) : Operation F Wallet := do
  let coin ← getNewCoin kit.btc kit.secp kit.derivation wallet
  let wallet := { wallet with coins := wallet.coins ++ [coin] }
  updateWallet wallet
  let depositMsg1 ← createDepositMsg1 kit.secp kit.derivation coin tokenId
  let response : Transaction.Response ← ask (Call.depositInit depositMsg1 : Call F)
  let response ← anyhow response
  failIf (statusOf response ≠ 200) (bodyText response)
  let depositMsg1Response ← orFail "missing field" (depositMsg1Response response)
  let depositInitResult ← handleDepositMsg1Response kit.secp coin depositMsg1Response
  let wallet ← modifyLast wallet (fun coin =>
    { coin with
      statechainId := some depositInitResult.statechainId
      signedStatechainId := some depositInitResult.signedStatechainId
      serverPubkey := some depositInitResult.serverPubkey })
  updateWallet wallet
  return wallet

def getDepositBitcoinAddress (walletName tokenId : String) (amount : UInt32) : Operation F String := do
  let tokenId ← orFail "uuid::Error" (kit.parseUuid tokenId)
  let wallet ← getWallet walletName
  let wallet ← init kit wallet tokenId
  let coin ← unwrap wallet.coins.getLast?
  let aggregatedPublicKey ← createAggregatedAddress kit.btc kit.secp coin wallet.network
  let wallet ← modifyLast wallet (fun coin =>
    { coin with
      amount := some amount
      aggregatedAddress := some aggregatedPublicKey.aggregateAddress
      aggregatedPubkey := some aggregatedPublicKey.aggregatePubkey })
  updateWallet wallet
  return aggregatedPublicKey.aggregateAddress

def newTransferAddress (walletName : String) : Operation F String := do
  let wallet ← getWallet walletName
  let coin ← getNewCoin kit.btc kit.secp kit.derivation wallet
  updateWallet { wallet with coins := wallet.coins ++ [coin] }
  return coin.address

end MercuryLayer.Client.Deposit
