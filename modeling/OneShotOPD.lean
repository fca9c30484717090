import OneShotOPD.Core.Literals
import OneShotOPD.Core.Words
import OneShotOPD.Core.Lockstep
import OneShotOPD.Core.Latest
import OneShotOPD.Core.Dict
import OneShotOPD.Core.Checks
import OneShotOPD.Core.Scatter
import OneShotOPD.Core.SampleStats
import OneShotOPD.Core.ExtReal
import OneShotOPD.Core.Matching
import OneShotOPD.Core.PyValue
import OneShotOPD.Core.Text
import OneShotOPD.Core.Pattern
import OneShotOPD.Core.FirstFit
import OneShotOPD.Core.Segments
import OneShotOPD.Core.Batching
import OneShotOPD.Core.RowMajor
import OneShotOPD.Core.Gather
import OneShotOPD.Core.Differencing
import OneShotOPD.Teacher.Config
import OneShotOPD.Teacher.Scoring
import OneShotOPD.Teacher.Schedule
import OneShotOPD.Teacher.Scored
import OneShotOPD.Teacher.Routing
import OneShotOPD.Algos.Grpo
import OneShotOPD.Trainer.Advantage
import OneShotOPD.Trainer.OutcomeWeight
import OneShotOPD.Trainer.MultiTrajectories
import OneShotOPD.Trainer.NoPadding
import OneShotOPD.Trainer.NoPaddingRoundTrip
import OneShotOPD.Trainer.BalanceAligned
import OneShotOPD.Teacher.TopK
import OneShotOPD.Teacher.TopKSupport
import OneShotOPD.Teacher.TopKWeights
import OneShotOPD.Teacher.TopKStrategies
import OneShotOPD.Reward.FcEval
import OneShotOPD.ReplayBuffer.Metadata
import OneShotOPD.ReplayBuffer.Async
import OneShotOPD.ReplayBuffer.Sync
import OneShotOPD.ReplayBuffer.SyncRuns
import OneShotOPD.ReplayBuffer.StatusProtocol
import OneShotOPD.FullyAsync.RollouterRuns
import OneShotOPD.FullyAsync.ServerManager
import OneShotOPD.FullyAsync.ServerManagerRuns
import OneShotOPD.FullyAsync.ElasticRollouter
import OneShotOPD.FullyAsync.ElasticRollouterRuns
import OneShotOPD.Rollout.LoadBalancerRuns
import OneShotOPD.Algos.Rloo
import OneShotOPD.Algos.GrpoVectorized
import OneShotOPD.Algos.AggLoss
import OneShotOPD.Protocol.Wire
import OneShotOPD.Protocol.DataProto
import OneShotOPD.Protocol.RowMoves
import OneShotOPD.Protocol.Pieces
import OneShotOPD.Protocol.Concat
import OneShotOPD.SingleController.Dispatch
import OneShotOPD.SingleController.AutoPadding
import OneShotOPD.SingleController.CallerTables
import OneShotOPD.SeqlenBalancing.KarmarkarKarp
import OneShotOPD.SeqlenBalancing.Partitioner
import OneShotOPD.SeqlenBalancing.Rearrange
import OneShotOPD.SeqlenBalancing.Relabel
import OneShotOPD.SeqlenBalancing.GroupSizes
import OneShotOPD.SeqlenBalancing.MicroBatches
import OneShotOPD.SeqlenBalancing.MicroBatchCount
import OneShotOPD.SeqlenBalancing.GroupPartitions
import OneShotOPD.SeqlenBalancing.Restore
import OneShotOPD.SeqlenBalancing.Engine
import OneShotOPD.ContinuousToken.Messages
import OneShotOPD.ContinuousToken.Builder
import OneShotOPD.ContinuousToken.Accounting
import OneShotOPD.AgentLoop.ToolAgentLoop
import OneShotOPD.AgentLoop.GemmaToolTurns
import OneShotOPD.AgentLoop.OutputAlignment
import OneShotOPD.AgentLoop.Postprocess
import OneShotOPD.AgentLoop.RewardColumns
import OneShotOPD.Core.SliceAssign
import OneShotOPD.Core.Zigzag
import OneShotOPD.Core.Masked
import OneShotOPD.Mcore.ThdRoundTrip
import OneShotOPD.Mcore.PackedSeqsRoundTrip
import OneShotOPD.Mcore.BshdRoundTrip
import OneShotOPD.Algos.Passk
import OneShotOPD.Algos.PolicyLoss
import OneShotOPD.Algos.RejectionThresholds
import OneShotOPD.Algos.RejectionMask
import OneShotOPD.Algos.DualClip
import OneShotOPD.Core.Backward
import OneShotOPD.Algos.MaskedRecursion
import OneShotOPD.Trainer.PaddingNeutral
import OneShotOPD.Trainer.Validation
import OneShotOPD.Trainer.ValidationColumns
import OneShotOPD.Trainer.ValidationMetrics
import OneShotOPD.Trainer.ValidationReport
import OneShotOPD.DynamicCp.RoundTrip
import OneShotOPD.WeightSync.Weights
import OneShotOPD.WeightSync.Chunks
import OneShotOPD.WeightSync.NcclEngine
import OneShotOPD.WeightSync.RoundTrip
import OneShotOPD.WeightSync.BucketContents
import OneShotOPD.WeightSync.BucketProtocol
import OneShotOPD.WeightSync.BucketedTransfer
import OneShotOPD.DeltaSync.Framing
import OneShotOPD.DeltaSync.GatherRounds
import OneShotOPD.DeltaSync.SparseGather
import OneShotOPD.DeltaSync.GatherQueue
import OneShotOPD.DeltaSync.Placement
import OneShotOPD.DeltaSync.DTensorPlacement
import OneShotOPD.DeltaSync.MeshBlocks
import OneShotOPD.DeltaSync.Export
import OneShotOPD.DeltaSync.Flush
import OneShotOPD.DeltaSync.DeltaLoader
import OneShotOPD.DeltaSync.Stream
import OneShotOPD.DeltaSync.Sync
import OneShotOPD.DeltaSync.HfConverter
import OneShotOPD.DeltaSync.ConvertedRows
import OneShotOPD.DeltaSync.DefaultConverter
import OneShotOPD.DeltaSync.ConvertedEntry
import OneShotOPD.DeltaSync.ConvertedDelta
import OneShotOPD.Rollout.TemplatePrompt
import OneShotOPD.Rollout.ResumeClient
import OneShotOPD.Ulysses.Exchange
import OneShotOPD.Ulysses.Transparent
import OneShotOPD.TensorDict.Jagged
import OneShotOPD.TensorDict.Surgery
import OneShotOPD.TensorDict.SurgeryRows
import OneShotOPD.TensorDict.Selection
import OneShotOPD.TensorDict.RaggedColumns
import OneShotOPD.Reward.TokenBucket
import OneShotOPD.Reward.TokenBucketBound
import OneShotOPD.ReplayBuffer.EvictionMetrics
import OneShotOPD.Reward.RateLimited
import OneShotOPD.Reward.RewardAlignment
import OneShotOPD.ContinuousToken.DeepSeekEncoding
import OneShotOPD.AgentLoop.DeepSeekToolParser
import OneShotOPD.AgentLoop.Gemma4ToolParser
import OneShotOPD.AgentLoop.Qwen3XMLToolParser
import OneShotOPD.Mcore.PaddedChunks
import OneShotOPD.DynamicCp.PaddingMask
import OneShotOPD.DynamicCp.MaskAgreement
import OneShotOPD.Mcore.ThdRoll
import OneShotOPD.Mcore.ThdRollLabels
