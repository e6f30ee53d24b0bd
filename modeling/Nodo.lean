import Nodo.Lib.Guards
import Nodo.Lib.Quorum
import Nodo.Lib.LockedVoting
import Nodo.Lib.HashTree
import Nodo.Lib.IntVector
import Nodo.Lib.SortedMap
import Nodo.Lib.Text
import Nodo.Lib.FileStore
import Nodo.Lib.NestedText
import Nodo.Lib.ThrowingState
import Nodo.Lib.MapLoop
import Nodo.Lib.FieldSearch
import Nodo.Lib.FloorLookup
import Nodo.Lib.GreedyChoice
import Nodo.Lib.SplitTree
import Nodo.Lib.WeightedTurns
import Nodo.Lib.WeightedMedian
import Nodo.Lib.PriorityLanes
import Nodo.Lib.NumberedChannel
import Nodo.Lib.MapCounts
import Nodo.Model.Crypto
import Nodo.Model.Validators
import Nodo.Model.Votes
import Nodo.Model.Certificates
import Nodo.Model.Evidence
import Nodo.Model.VotePool
import Nodo.Model.VotePoolRuns
import Nodo.Model.Finalization
import Nodo.Model.RoundState
import Nodo.Model.EventLoop
import Nodo.Model.TickEffects
import Nodo.Model.NodeRun
import Nodo.Model.VoteMemory
import Nodo.Model.Durability
import Nodo.Model.RoundVotes
import Nodo.Model.Accountability
import Nodo.Model.Network
import Nodo.Model.Locking
import Nodo.Model.Agreement
import Nodo.Model.ProposerSchedule
import Nodo.Model.UpgradeSchedule
import Nodo.Model.LivenessAccountability
import Nodo.Model.Merkle
import Nodo.Model.Amount
import Nodo.Model.StateRoot
import Nodo.Model.CoinLots
import Nodo.Model.Blockchain
import Nodo.Model.ForkChoice
import Nodo.Model.CommitStorage
import Nodo.Model.RecordCodec
import Nodo.Model.ValidatorSetSchedule
import Nodo.Model.CoinLotTransfer
import Nodo.Model.LedgerState
import Nodo.Model.Staking
import Nodo.Model.StakingLedger
import Nodo.Model.StakingAudit
import Nodo.Model.StakeConservation
import Nodo.Model.TransactionCodec
import Nodo.Model.Mempool
import Nodo.Model.V1Merkle
import Nodo.Model.SnapshotTransfer
import Nodo.Model.HistoryRetention
import Nodo.Model.GovernancePayload
import Nodo.Model.Governance
import Nodo.Model.GovernanceLifecycle
import Nodo.Model.TreasurySpends
import Nodo.Model.BlockCodec
import Nodo.Model.ParallelBlockSync
import Nodo.Model.SyncRecovery
import Nodo.Model.CatchUp
import Nodo.Model.LightClient
import Nodo.Model.ProposerFairness
import Nodo.Model.QuorumAssembly
import Nodo.Model.BftTime
import Nodo.Model.BlockFinalizer
import Nodo.Model.PeerRegistry
import Nodo.Model.EclipseGuard
import Nodo.Model.NetworkEnvelope
import Nodo.Model.EnvelopeCodec
import Nodo.Model.PeerChannel
import Nodo.Model.ChannelRuns
import Nodo.Model.GossipMesh
import Nodo.Model.EclipseBound
import Nodo.Model.ValidatorSetHistory
import Nodo.Model.LedgerAtomicity
import Nodo.Model.ResourceFee
import Nodo.Model.PeerReconnection
import Nodo.Model.HandshakeChallenges
import Nodo.Lib.FixedWindow
import Nodo.Model.PeerRateLimiter
import Nodo.Model.InboundMessages
import Nodo.Model.PenaltyRestore
import Nodo.Model.KeyValueFile
import Nodo.Model.ConsensusRecovery
import Nodo.Lib.Rendezvous
import Nodo.Model.ArchiveProviders
import Nodo.Model.ArchiveAssignment
import Nodo.Model.FeeEconomics
import Nodo.Model.RewardDistribution
