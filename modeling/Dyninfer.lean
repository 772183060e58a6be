import Dyninfer.Architecture.BuiltGraph
import Dyninfer.Architecture.NamingFacts
import Dyninfer.Cache.PublishLock
import Dyninfer.Checkpoint.FingerprintFacts
import Dyninfer.Checkpoint.GgufWriter
import Dyninfer.Checkpoint.LimitFacts
import Dyninfer.Checkpoint.MlxConventionFacts
import Dyninfer.Lowering.DenseProgramFacts
import Dyninfer.Lowering.ShortConvFacts
import Dyninfer.Quantization.DequantFacts
import Dyninfer.Runtime.ArgmaxPath
import Dyninfer.Runtime.CoherentRuns
import Dyninfer.Runtime.GeometryFacts
import Dyninfer.Runtime.GlobalFacts
import Dyninfer.Runtime.Streaming
import Dyninfer.Runtime.PoolRuns
import Dyninfer.Runtime.SentencePiece
import Dyninfer.Runtime.GreedyBudget
import Dyninfer.Cli.GenerateCommand
import Dyninfer.Kernels.Selection
import Dyninfer.Binding.Partition
import Dyninfer.Architecture.SlotRoles
import Dyninfer.Quantization.GgufAccepted
import Dyninfer.Checkpoint.SafeTensorsOverlap
import Dyninfer.Runtime.FileParameters
import Dyninfer.Checkpoint.GgufWork
import Dyninfer.Cli.DriftFacts
import Dyninfer.LlamaLogits.RunModeFacts
import Dyninfer.Lowering.OnlineAttentionFacts
import Dyninfer.Runtime.ReferenceFacts
import Dyninfer.Runtime.RoundtripFacts
import Dyninfer.Lowering.RopeFacts
import Dyninfer.Target.ResolveFacts
