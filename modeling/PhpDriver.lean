import PhpDriver.Argument
import PhpDriver.Cluster.Builder
import PhpDriver.Cluster.Configuration
import PhpDriver.Cluster.Defaults
import PhpDriver.Cluster.Key
import PhpDriver.Cluster.Lifetimes
import PhpDriver.Cluster.Persistent
import PhpDriver.Cluster.SetterRuns
import PhpDriver.Cluster.Setters
import PhpDriver.Collection.Find
import PhpDriver.Collection.Object
import PhpDriver.Collection.Pass
import PhpDriver.Data.Atomic
import PhpDriver.Data.BigEndian
import PhpDriver.Data.CBuffer
import PhpDriver.Data.CInt
import PhpDriver.Data.DecimalText
import PhpDriver.Data.DoublyLinked
import PhpDriver.Data.FixedWidth
import PhpDriver.Data.HexText
import PhpDriver.Data.Ieee
import PhpDriver.Data.IeeeScaled
import PhpDriver.Data.Joined
import PhpDriver.Data.Labelled
import PhpDriver.Data.LawfulOrder
import PhpDriver.Data.Lexicographic
import PhpDriver.Data.Numeral
import PhpDriver.Data.OrderedMap
import PhpDriver.Data.Outcome
import PhpDriver.Data.Ownership
import PhpDriver.Data.Phrase
import PhpDriver.Data.Responses
import PhpDriver.Data.Run
import PhpDriver.Data.Scaled
import PhpDriver.Data.Sorting
import PhpDriver.Data.Traverse
import PhpDriver.Data.Truncation
import PhpDriver.Data.TwosComplement
import PhpDriver.Data.UtCursor
import PhpDriver.Data.UtKinds
import PhpDriver.Data.UtPass
import PhpDriver.Data.Uthash
import PhpDriver.Data.UthashChains
import PhpDriver.Data.UthashDelete
import PhpDriver.Data.UthashExpand
import PhpDriver.Data.UthashMemory
import PhpDriver.Data.UthashRefines
import PhpDriver.Data.UthashSearch
import PhpDriver.Data.UthashWalk
import PhpDriver.Decimal.Arithmetic
import PhpDriver.Decimal.FromDouble
import PhpDriver.Decimal.Object
import PhpDriver.Decimal.Scale
import PhpDriver.Decimal.ToLong
import PhpDriver.Gmp
import PhpDriver.Map.History
import PhpDriver.Map.Iterator
import PhpDriver.Map.Memory
import PhpDriver.Map.Object
import PhpDriver.Map.Pass
import PhpDriver.Numeric.Arithmetic
import PhpDriver.Numeric.Construction
import PhpDriver.Numeric.Copies
import PhpDriver.Numeric.Division
import PhpDriver.Rows.Iteration
import PhpDriver.Rows.IterationRuns
import PhpDriver.Rows.Object
import PhpDriver.Rows.Paging
import PhpDriver.Session.Agreement
import PhpDriver.Session.Bind
import PhpDriver.Session.BindMemory
import PhpDriver.Session.Execute
import PhpDriver.Session.Handles
import PhpDriver.Session.Options
import PhpDriver.Session.OptionsHonoured
import PhpDriver.Session.OptionsRead
import PhpDriver.Session.Request
import PhpDriver.Set.Compare
import PhpDriver.Set.History
import PhpDriver.Set.Iterator
import PhpDriver.Set.Memory
import PhpDriver.Set.Object
import PhpDriver.Set.Pass
import PhpDriver.Temporal.Construction
import PhpDriver.Temporal.DurationText
import PhpDriver.Temporal.Timestamp
import PhpDriver.Tuple.Object
import PhpDriver.Type.Canonical
import PhpDriver.Type.Column
import PhpDriver.Type.Mirror
import PhpDriver.Type.Object
import PhpDriver.Type.RoundTrip
import PhpDriver.Type.Text
import PhpDriver.TypeOrder
import PhpDriver.Types
import PhpDriver.UserTypeValue.Object
import PhpDriver.Util.Built
import PhpDriver.Util.CachedHash
import PhpDriver.Util.CachedHashRuns
import PhpDriver.Util.Carried
import PhpDriver.Util.ClassAccepted
import PhpDriver.Util.ClassDump
import PhpDriver.Util.ClassGrammar
import PhpDriver.Util.ClassMatch
import PhpDriver.Util.ClassName
import PhpDriver.Util.ClassTree
import PhpDriver.Util.ColumnType
import PhpDriver.Util.CompleteType
import PhpDriver.Util.ContainerHeap
import PhpDriver.Util.DataCompare
import PhpDriver.Util.DecimalBuffer
import PhpDriver.Util.DecimalExact
import PhpDriver.Util.DecimalFormat
import PhpDriver.Util.DecimalGrammar
import PhpDriver.Util.DecimalParse
import PhpDriver.Util.DecimalPrinted
import PhpDriver.Util.DecimalRead
import PhpDriver.Util.DecimalRoundTrip
import PhpDriver.Util.DecimalScan
import PhpDriver.Util.Decoded
import PhpDriver.Util.Delivered
import PhpDriver.Util.DeliveredExact
import PhpDriver.Util.DriverValue
import PhpDriver.Util.Encode
import PhpDriver.Util.Entries
import PhpDriver.Util.FieldCompare
import PhpDriver.Util.FieldRuns
import PhpDriver.Util.Handlers
import PhpDriver.Util.Hash
import PhpDriver.Util.HexCodec
import PhpDriver.Util.Inet
import PhpDriver.Util.InetAccepted
import PhpDriver.Util.InetFormat
import PhpDriver.Util.InetGrammar
import PhpDriver.Util.InetRead
import PhpDriver.Util.InetSafe
import PhpDriver.Util.IntegerExact
import PhpDriver.Util.IntegerParse
import PhpDriver.Util.IntegerRead
import PhpDriver.Util.Iterated
import PhpDriver.Util.LooseEquality
import PhpDriver.Util.MarshalExact
import PhpDriver.Util.MarshalRead
import PhpDriver.Util.MarshalType
import PhpDriver.Util.Mutators
import PhpDriver.Util.OwnCoherence
import PhpDriver.Util.OwnContainers
import PhpDriver.Util.OwnHandlers
import PhpDriver.Util.OwnOrder
import PhpDriver.Util.OwnSamples
import PhpDriver.Util.OwnValues
import PhpDriver.Util.ParseMemory
import PhpDriver.Util.ParsedTypes
import PhpDriver.Util.Properties
import PhpDriver.Util.Result
import PhpDriver.Util.Returned
import PhpDriver.Util.ReturnedFields
import PhpDriver.Util.ReturnedNames
import PhpDriver.Util.RoundTrip
import PhpDriver.Util.SameValue
import PhpDriver.Util.ScalarOrder
import PhpDriver.Util.Shown
import PhpDriver.Util.Slots
import PhpDriver.Util.Told
import PhpDriver.Util.TwosComplement
import PhpDriver.Util.UuidGen
import PhpDriver.Util.Validate
import PhpDriver.Util.ValidatorNodes
import PhpDriver.Values
