import PythonSystemd.Library.CheckedMemory
import PythonSystemd.Library.Tiling
import PythonSystemd.Library.BigEndian
import PythonSystemd.Library.BlumSquares
import PythonSystemd.Library.CrtExponentiation
import PythonSystemd.Library.PrimesThreeModFour
import PythonSystemd.Fsprg.Gcrypt
import PythonSystemd.Fsprg.Codec
import PythonSystemd.Fsprg.Primes
import PythonSystemd.Fsprg.Generator
import PythonSystemd.Fsprg.CutState
import PythonSystemd.Fsprg.FieldWrites
import PythonSystemd.Fsprg.Layout
import PythonSystemd.Fsprg.MasterKey
import PythonSystemd.Fsprg.ForwardState
import PythonSystemd.Fsprg.Seek
import PythonSystemd.Fsprg.Exponents
import PythonSystemd.Fsprg.Orbits
import PythonSystemd.Library.BlockStream
import PythonSystemd.Siphash24.Streaming
import PythonSystemd.Fsprg.Python
import PythonSystemd.Fsprg.VerificationKey
import PythonSystemd.Fsprg.KeyGrammar
import PythonSystemd.Fsprg.StateLists
import PythonSystemd.Fsprg.StateContents
import PythonSystemd.Fsprg.LayoutCodec
import PythonSystemd.Fsprg.SeekCalls
import PythonSystemd.Fsprg.KeyStream
import PythonSystemd.Fsprg.SeekableRuns
import PythonSystemd.Fsprg.ListRuns
import PythonSystemd.Library.HandleTrace
import PythonSystemd.Library.HandleProgram
import PythonSystemd.Library.OrderedDict
import PythonSystemd.Library.BinaryFloat
import PythonSystemd.Library.MatchFormula
import PythonSystemd.Library.RequestLog
import PythonSystemd.Library.Simulation
import PythonSystemd.Library.PackedFields
import PythonSystemd.Library.OwnedHeap
import PythonSystemd.Library.RoundingError
import PythonSystemd.Python.Text
import PythonSystemd.Python.Pyutil
import PythonSystemd.Python.Numbers
import PythonSystemd.Library.IntegerLiterals
import PythonSystemd.Python.Written
import PythonSystemd.Python.Hex
import PythonSystemd.Rocksdb.FssFile
import PythonSystemd.Util.Time
import PythonSystemd.Util.SockAddr
import PythonSystemd.Util.Ports
import PythonSystemd.Util.Strv
import PythonSystemd.Util.LoopRead
import PythonSystemd.Daemon.ListenFds
import PythonSystemd.Daemon.Memory
import PythonSystemd.Login.Monitor
import PythonSystemd.Journal.Reader
import PythonSystemd.Journal.HandleLifeCycle
import PythonSystemd.Journal.Entries
import PythonSystemd.Journal.Timeouts
import PythonSystemd.Journal.Conversion
import PythonSystemd.Journal.Iteration
import PythonSystemd.Journal.Assembly
import PythonSystemd.Journal.Enumeration
import PythonSystemd.Journal.Skipping
import PythonSystemd.Journal.DefaultConverters
import PythonSystemd.Journal.Send
import PythonSystemd.Journal.ReadBack
import PythonSystemd.Journal.Handler
import PythonSystemd.Id128.Calls
import PythonSystemd.Login.Lists
import PythonSystemd.Journal.Sendv
import PythonSystemd.Journal.Opening
import PythonSystemd.Journal.Matches
import PythonSystemd.Journal.MatchQueries
import PythonSystemd.Journal.FieldViews
import PythonSystemd.Journal.TypedReadBack
import PythonSystemd.Journal.PriorityFilter
import PythonSystemd.Journal.IdFilter
import PythonSystemd.Journal.SeekTimes
