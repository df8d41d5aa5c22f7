import MercuryLayer.Client.ReceiverSoundness
import MercuryLayer.Client.TransferReceiver
import MercuryLayer.Crates
import MercuryLayer.Error
import MercuryLayer.Library.Grouping
import MercuryLayer.Library.Validation
import MercuryLayer.Library.XOnlyCurve
import MercuryLayer.Lockbox.Enclave
import MercuryLayer.Musig.ChallengeCheck
import MercuryLayer.Musig.Session
import MercuryLayer.Receiver
import MercuryLayer.Transaction
import MercuryLayer.WalletData
import MercuryLayer.Musig.Cosign
import MercuryLayer.Sender
import MercuryLayer.KeyHandover
import MercuryLayer.Library.Runs
import MercuryLayer.Lockbox.Server
import MercuryLayer.Lockbox.NonceUse
import MercuryLayer.Library.Programs
import MercuryLayer.Server.Database
import MercuryLayer.Server.Transfer
import MercuryLayer.Server.System
import MercuryLayer.Server.Unlock
import MercuryLayer.Server.Effects
import MercuryLayer.Server.Batch
import MercuryLayer.Lockbox.KeyUpdate
import MercuryLayer.Server.KeyUpdateRace
import MercuryLayer.Server.X1Binding
import MercuryLayer.BackupSpend
import MercuryLayer.Server.Replay
import MercuryLayer.Server.Freeze
import MercuryLayer.Server.Latch
import MercuryLayer.Server.Ownership
import MercuryLayer.Lockbox.Signing
import MercuryLayer.Server.Sign
import MercuryLayer.Server.SignatureAudit
import MercuryLayer.Server.PendingNonce
import MercuryLayer.Client.Transaction
import MercuryLayer.Library.Wire
import MercuryLayer.Client.TransferSender
import MercuryLayer.Client.LocktimeGuard
import MercuryLayer.Server.SignEffects
import MercuryLayer.Client.System
import MercuryLayer.Client.SendRecovery
import MercuryLayer.Client.SignatureScheme
import MercuryLayer.Client.RowCoverage
import MercuryLayer.Server.BatchTime
import MercuryLayer.Library.Monitors
import MercuryLayer.CpfpTx
import MercuryLayer.Deposit
import MercuryLayer.Client.Operations
import MercuryLayer.Client.Withdraw
import MercuryLayer.Client.CoinStatus
import MercuryLayer.Client.Deposit
import MercuryLayer.Client.BroadcastBackupTx
import MercuryLayer.Client.Receive
import MercuryLayer.Library.Matching
import MercuryLayer.Client.LifeCycle
import MercuryLayer.Client.WalletRace
import MercuryLayer.Client.HostileMessage
import MercuryLayer.Client.ScAddress
import MercuryLayer.Client.Fees
import MercuryLayer.Client.Amounts
import MercuryLayer.Web.TransferReceive
import MercuryLayer.Client.Duplicates
import MercuryLayer.Client.BackupChoice
import MercuryLayer.Client.DepositWatch
import MercuryLayer.Client.SavedCoins
import MercuryLayer.Client.Interruptions
import MercuryLayer.Library.Endurance
import MercuryLayer.Server.KeyList
import MercuryLayer.Library.Holdings
import MercuryLayer.TokenServer.Verify
import MercuryLayer.TokenServer.Generate
import MercuryLayer.Enclave.SealingKeyManager
import MercuryLayer.Lockbox.NonceKey
import MercuryLayer.Server.PaymentHash
import MercuryLayer.Server.Withdraw
import MercuryLayer.Server.DepositTokens
import MercuryLayer.Web.TransferSend
import MercuryLayer.Web.SendersAgree
import MercuryLayer.Enclave.SecretExchange
import MercuryLayer.Library.StableSort
import MercuryLayer.Web.BackupGroups
import MercuryLayer.Web.CoinOrder
import MercuryLayer.Client.ReceiptRuns
import MercuryLayer.Server.Mailbox
