import EthdaNode.State.BatchCanonical
import EthdaNode.Sequencer.ConcurrentAdd
import EthdaNode.Sequencer.InProcess
import EthdaNode.Blob.BlobGas
import EthdaNode.Blob.BeaconApi
import EthdaNode.Blob.ArrayPack
import EthdaNode.Blob.PostedBatches
import EthdaNode.Blob.PoolTx
import EthdaNode.Sequencer.FinalizerSafety
import EthdaNode.Sequencer.FilledBatches
import EthdaNode.L1ParallelSync.Producer
import EthdaNode.Sequencer.ForcedProgress
import EthdaNode.Sequencer.DbTxEnds
import EthdaNode.Sequencer.SanityCheck
import EthdaNode.Sequencer.ForcedTxs
import EthdaNode.Synchronizer.ForcedRequests
import EthdaNode.Synchronizer.Restart
import EthdaNode.Synchronizer.Reorg
import EthdaNode.Synchronizer.GlobalExitRoots
import EthdaNode.Synchronizer.CheckL1Block
import EthdaNode.Synchronizer.CheckL2Block
import EthdaNode.Synchronizer.TrustedCache
import EthdaNode.DataAvailability.Sources
import EthdaNode.DataAvailability.Signatures
import EthdaNode.Etherman.Forks
import EthdaNode.Aggregator.Proofs
import EthdaNode.EthTxManager.Pending
import EthdaNode.Synchronizer.VerifiedBatches
import EthdaNode.State.EffectiveGasPrice
import EthdaNode.Sequencer.NotReady
import EthdaNode.State.ForkIDLookup
import EthdaNode.SequenceSender.SanityCheck
import EthdaNode.Pool.PreExecution
import EthdaNode.GasPrice.Suggesters
import EthdaNode.JsonRpc.Filters
import EthdaNode.JsonRpc.NumberArguments
import EthdaNode.State.MonitorL2Blocks
import EthdaNode.State.FullBatches
import EthdaNode.Aggregator.InputProver
import EthdaNode.Etherman.Sequences
