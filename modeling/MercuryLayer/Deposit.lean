import MercuryLayer.Receiver

namespace MercuryLayer.Deposit

open Crates Error Library.Validation Receiver Library.XOnlyCurve WalletData

structure DepositMsg1 where
  authKey : String
  tokenId : String
  signedTokenId : String
deriving DecidableEq, Repr

structure DepositMsg1Response where
  serverPubkey : String
  statechainId : String
deriving DecidableEq, Repr

structure DepositInitResult where
  serverPubkey : String
  statechainId : String
  signedStatechainId : String
deriving DecidableEq, Repr

structure AggregatedPublicKey where
  aggregatePubkey : String
  aggregateAddress : String
deriving DecidableEq, Repr

structure KeyData (E K : Type) where
  secretKey : K
  publicKey : E
  fingerprint : String
  derivationPath : String
  changeIndex : UInt32
  addressIndex : UInt32

/-- The steps outside the library: the `bip32` keys of a wallet's mnemonic, and the text forms of a
secret key, of an x-only key and of a statechain address. -/
structure Derivation (E K : Type) where
  generateNewKey : (walletName network derivationPath : String) → (changeIndex addressIndex : UInt32) →
    Res (KeyData E K)
  toWif : K → Network → String
  xOnlyToStr : Bytes → String
  encodeScAddress : E → E → Network → Res String

def getNextAddressIndex (wallet : Wallet) : UInt32 :=
  match (wallet.coins.map Coin.index).max? with
  | some index => index + 1
  | none => 0

variable {E K : Type} (btc : Bitcoin) (secp : Secp E K)

/-- A failing `assert!` is a panic. -/
def getNewCoin (derivation : Derivation E K) (wallet : Wallet) : Res Coin := do
  let network ← getNetwork wallet.network
  let addressIndex := getNextAddressIndex wallet
  let aggKeyData ← derivation.generateNewKey wallet.name wallet.network "m/86h/0h/0h" 0 addressIndex
  let backupScript ← p2trScript secp (secp.xOnly aggKeyData.publicKey)
  let authKeyData ← derivation.generateNewKey wallet.name wallet.network "m/89h/0h/0h" 0 addressIndex
  throwIf (¬(authKeyData.fingerprint = aggKeyData.fingerprint ∧
    authKeyData.addressIndex = aggKeyData.addressIndex ∧ authKeyData.changeIndex = aggKeyData.changeIndex ∧
    authKeyData.derivationPath ≠ aggKeyData.derivationPath)) .panic
  let coinAddress ← derivation.encodeScAddress aggKeyData.publicKey authKeyData.publicKey network
  return { index := addressIndex
           userPrivkey := derivation.toWif aggKeyData.secretKey network
           userPubkey := secp.publicKeyToStr (secp.publicKey aggKeyData.secretKey)
           authPrivkey := derivation.toWif authKeyData.secretKey network
           authPubkey := secp.publicKeyToStr (secp.publicKey authKeyData.secretKey)
           derivationPath := aggKeyData.derivationPath
           fingerprint := aggKeyData.fingerprint
           address := coinAddress
           backupAddress := btc.addressToStr backupScript network
           status := .initialised
           duplicateIndex := 0 }

def createDepositMsg1 (derivation : Derivation E K) (coin : Coin) (tokenId : String) : Res DepositMsg1 := do
  let authSecretKey ← orErr .keyError (secp.privateKeyFromWif coin.authPrivkey)
  let signedTokenId := secp.signSchnorr (secp.sha256 tokenId.toUTF8.toList) authSecretKey
  let authPubkey ← publicKeyFromStr secp coin.authPubkey
  return { authKey := derivation.xOnlyToStr (secp.xOnly authPubkey)
           tokenId := tokenId
           signedTokenId := secp.signatureToStr signedTokenId }

/-- A server key that cannot be read is a panic. -/
def handleDepositMsg1Response (coin : Coin) (response : DepositMsg1Response) : Res DepositInitResult := do
  let serverPubkeyShare ← unwrap (secp.publicKeyFromStr response.serverPubkey)
  let authSecretKey ← orErr .keyError (secp.privateKeyFromWif coin.authPrivkey)
  let signedStatechainId := secp.signSchnorr (secp.sha256 response.statechainId.toUTF8.toList) authSecretKey
  return { serverPubkey := secp.publicKeyToStr serverPubkeyShare
           statechainId := response.statechainId
           signedStatechainId := secp.signatureToStr signedStatechainId }

def createAggregatedAddress (coin : Coin) (network : String) : Res AggregatedPublicKey := do
  let network ← getNetwork network
  let userPubkeyShare ← publicKeyFromStr secp coin.userPubkey
  let serverPubkey ← unwrap coin.serverPubkey
  let serverPubkeyShare ← publicKeyFromStr secp serverPubkey
  let aggregatePubkey ← orErr .secp256k1UpstreamError (secp.combine userPubkeyShare serverPubkeyShare)
  let script ← p2trScript secp (secp.xOnly aggregatePubkey)
  return { aggregatePubkey := secp.publicKeyToStr aggregatePubkey
           aggregateAddress := btc.addressToStr script network }

/-- Whether the enclave's key still makes up the coin's key with the user's. -/
def isEnclavePubkeyPartOfCoin [DecidableEq E] (coin : Coin) (enclavePubkey : String) : Res Bool := do
  let aggregatedPubkey ← orErr .noAggregatedPubkeyError coin.aggregatedPubkey
  let enclavePubkey ← publicKeyFromStr secp enclavePubkey
  let userPublicKey ← publicKeyFromStr secp coin.userPubkey
  let aggregateEnclavePubkey ← orErr .secp256k1UpstreamError (secp.combine userPublicKey enclavePubkey)
  let coinAggregatedPubkey ← publicKeyFromStr secp aggregatedPubkey
  return aggregateEnclavePubkey == coinAggregatedPubkey

theorem getNewCoin_status {btc : Bitcoin} {secp : Secp E K} {derivation : Derivation E K} {wallet : Wallet}
    {coin : Coin} (h : getNewCoin btc secp derivation wallet = .ok coin) : coin.status = .initialised := by
  simp only [getNewCoin, bind_eq_ok, pure_eq_ok] at h
  obtain ⟨_, -, _, -, _, -, _, -, _, -, _, -, rfl⟩ := h
  rfl

end MercuryLayer.Deposit
