import CppTransport.Translator.FieldMetric
import CppTransport.Runtime.NoLostContainer
import CppTransport.Runtime.PollProgress
import CppTransport.Runtime.Integrity
import CppTransport.Runtime.ZetaCompute
import CppTransport.Runtime.TaskSchedule
import CppTransport.Runtime.ExactlyOnce
import CppTransport.Library.FileSystem
import CppTransport.Runtime.TransactionManager
import CppTransport.Translator.Directives
import CppTransport.Library.TolerantIndex
import CppTransport.Runtime.LockfileExclusion
import CppTransport.Runtime.TriangleLattices
import CppTransport.Runtime.TwopfDatabase
import CppTransport.Runtime.ThreepfDatabase
import CppTransport.Library.Behaviour
import CppTransport.Runtime.DatabaseClear
import CppTransport.Runtime.Linecache
import CppTransport.Runtime.KeptConfigurations
import CppTransport.Translator.SubexpressionValues
import CppTransport.Runtime.WaitForTasks
import CppTransport.Runtime.PostintegrationSchedule
import CppTransport.Translator.MacroRecursion
import CppTransport.Library.KeyedRows
import CppTransport.Runtime.FNLSums
import CppTransport.Runtime.WorkQueue
import CppTransport.Translator.SubexpressionOrder
import CppTransport.Translator.SubexpressionPools
import CppTransport.Runtime.KconfigTables
import CppTransport.Runtime.StorageFlags
import CppTransport.Runtime.KconfigRoundTrip
import CppTransport.Runtime.PairedContainers
import CppTransport.Runtime.Aggregation
import CppTransport.Runtime.SeededCompletion
import CppTransport.Library.LinkGraph
import CppTransport.Runtime.ContentGraph
import CppTransport.Runtime.ContentNames
import CppTransport.Runtime.TransactionCounter
import CppTransport.Runtime.InflightWriters
import CppTransport.Runtime.WriterLifecycle
import CppTransport.Runtime.RecordUpdates
import CppTransport.Library.Exceptions
import CppTransport.Runtime.CommitDependencies
import CppTransport.Library.Memo
import CppTransport.Runtime.RecordCache
import CppTransport.Library.SortedUnion
import CppTransport.Runtime.ParentGroup
import CppTransport.Translator.FileBuffer
import CppTransport.Library.StateExceptions
import CppTransport.Translator.TokenList
import CppTransport.Translator.LongestMatch
import CppTransport.Library.IndexLoops
import CppTransport.Translator.SumAssignment
import CppTransport.Library.Json
import CppTransport.Runtime.ContentRecord
import CppTransport.Library.TriangularStorage
import CppTransport.Translator.CurvatureTensors
import CppTransport.Translator.TransportTensors
import CppTransport.Translator.CanonicalTensors
import CppTransport.Translator.MetricTensors
import CppTransport.Translator.IdentityMetric
import CppTransport.Translator.ResourceLabels
import CppTransport.Translator.RolledTensors
import CppTransport.Runtime.ShapeParameters
import CppTransport.Runtime.RejectedTriangles
import CppTransport.Translator.AssignmentSet
import CppTransport.Translator.ArgumentLists
import CppTransport.Translator.Lexer
import CppTransport.Translator.NumberLiterals
import CppTransport.Library.Iteration
import CppTransport.Translator.Lexstream
import CppTransport.Translator.Splicing
import CppTransport.Translator.LexerRoundTrip
import CppTransport.Translator.Includes
import CppTransport.Translator.ReplacementRules
import CppTransport.Translator.IndexCounts
import CppTransport.Translator.SubexpressionNames
import CppTransport.Translator.UserMacros
import CppTransport.Translator.MacroDefinitions
import CppTransport.Runtime.CacheEviction
import CppTransport.Runtime.SchedulerErrors
import CppTransport.Translator.IndexDatabase
import CppTransport.Runtime.IntegrationMetadata
import CppTransport.Runtime.TimeDatabases
import CppTransport.Runtime.ZetaWorkLists
import CppTransport.Runtime.MomentumShift
import CppTransport.Runtime.RangeGrids
import CppTransport.Library.Sweep
import CppTransport.Runtime.BulkDeletion
import CppTransport.Library.WrappedRuns
import CppTransport.Runtime.UniqueIds
import CppTransport.Runtime.FailureFlags
import CppTransport.Runtime.WorkJournal
import CppTransport.Runtime.OutputTasks
import CppTransport.Library.ShiftedErasures
import CppTransport.Runtime.TagsAndNotes
import CppTransport.Runtime.LineCollection
import CppTransport.Translator.IndexPositions
import CppTransport.Translator.CurvatureComponents
import CppTransport.Runtime.Packages
import CppTransport.Runtime.PagedTables
import CppTransport.Runtime.RecentContent
import CppTransport.Translator.AssignmentGenerators
import CppTransport.Translator.IndexAccess
import CppTransport.Translator.AssignmentCounts
import CppTransport.Runtime.WorkerOrder
import CppTransport.Runtime.AssignmentRequests
import CppTransport.Translator.SplitLines
import CppTransport.Translator.IndexedResource
import CppTransport.Translator.VertexSymmetry
import CppTransport.Library.JsonParts
import CppTransport.Runtime.DerivedLines
import CppTransport.Runtime.LineClasses
import CppTransport.Runtime.DerivedProducts
import CppTransport.Translator.ExpressionGrammar
import CppTransport.Translator.SymbolTables
import CppTransport.Runtime.Observers
