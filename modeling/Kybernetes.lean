import Kybernetes.Authentication
import Kybernetes.Base.Result
import Kybernetes.Base.Checked
import Kybernetes.Base.JsonValue
import Kybernetes.Base.Effect
import Kybernetes.Base.Flooding
import Kybernetes.Base.Program
import Kybernetes.Base.Disk
import Kybernetes.Base.TempFile
import Kybernetes.Base.FinmapSum
import Kybernetes.Runtime
import Kybernetes.TipCommitment
import Kybernetes.LedgerSpecification
import Kybernetes.ChainValidity
import Kybernetes.Equivocation
import Kybernetes.PendingPool
import Kybernetes.Restart
import Kybernetes.ForkFreedom
import Kybernetes.Addresses
import Kybernetes.SignedPayloads
import Kybernetes.SyncedPool
import Kybernetes.SyncCompleteness
import Kybernetes.Replies
import Kybernetes.ChunkSize
import Kybernetes.Extension
import Kybernetes.StakeBookkeeping
import Kybernetes.SelectionRun
import Kybernetes.Confluence
import Kybernetes.MessageCodec
import Kybernetes.FrameSoundness
import Kybernetes.ChainStore
import Kybernetes.UserWallet
import Kybernetes.UserWalletRuns
import Kybernetes.Connections
import Kybernetes.Sessions
import Kybernetes.Gossip
import Kybernetes.Propagation
import Kybernetes.AdmittedSelection
import Kybernetes.FailedTransaction
import Kybernetes.ChunkSequences
import Kybernetes.StrictValidation
import Kybernetes.KeystoreActivation
import Kybernetes.NextNonce
import Kybernetes.FeeSplit
import Kybernetes.PeerRegistry
import Kybernetes.FrameStreams
import Kybernetes.TransactionSubmission
