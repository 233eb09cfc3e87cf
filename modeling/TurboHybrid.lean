import TurboHybrid.Query.AutoBudget
import TurboHybrid.Scan.PostingIterator
import TurboHybrid.Scan.Answers
import TurboHybrid.Scan.Seed
import TurboHybrid.Reader.Interleaving
import TurboHybrid.Scan.AccumulatorHeap
import TurboHybrid.Fusion.SelectTopN
import TurboHybrid.Scan.WrittenBounds
import TurboHybrid.Scan.HotPostingsMemory
import TurboHybrid.Quant.PSquare
import TurboHybrid.Graph.PageChains
import TurboHybrid.Graph.SearchTargets
import TurboHybrid.Graph.FrontierOverflow
import TurboHybrid.Graph.SharedLayout
import TurboHybrid.Graph.InsertCache
import TurboHybrid.Quant.QueryTable
import TurboHybrid.Quant.WeightedKernels
import TurboHybrid.Graph.EntrySidecar
import TurboHybrid.Graph.CorrectionCache
import TurboHybrid.Graph.AdjUpdate
import TurboHybrid.Graph.Reachability
import TurboHybrid.Graph.Interleaving
import TurboHybrid.Store.Atomicity
import TurboHybrid.Graph.ExactSlab
import TurboHybrid.Graph.Backbone
import TurboHybrid.Graph.VacuumWalk
import TurboHybrid.Graph.LocalExpansion
import TurboHybrid.Build.CorrectionFit
import TurboHybrid.Executor.Frames
import TurboHybrid.Graph.CacheSafety
import TurboHybrid.Graph.CandidateBand
import TurboHybrid.Graph.Histories
import TurboHybrid.MultiVector.HalfFloat
import TurboHybrid.MultiVector.StreamedPostings
import TurboHybrid.Colbert.PlanBuffers
import TurboHybrid.Colbert.JsonReader
import TurboHybrid.MultiVector.CompactScore
import TurboHybrid.MultiVector.RerankRows
import TurboHybrid.MultiVector.Reservoirs
import TurboHybrid.MultiVector.FieldMaxSim
import TurboHybrid.MultiVector.AccumulatorCapacity
import TurboHybrid.MultiVector.TokenPooling
import TurboHybrid.MultiVector.Precompact
