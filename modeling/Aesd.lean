import Aesd.Library.BlockHeap
import Aesd.Library.Execution
import Aesd.Library.Segments
import Aesd.Driver.KernelMemory
import Aesd.Driver.CircularBuffer
import Aesd.Driver.CharDevice
import Aesd.Driver.CommandLog
import Aesd.Driver.Representation
import Aesd.Driver.WriteEffect
import Aesd.Driver.ReadEffect
import Aesd.Driver.DeviceRuns
import Aesd.Driver.WriteHistory
import Aesd.Driver.ReadLaw
import Aesd.Driver.SizeAccounting
import Aesd.Driver.Ownership
import Aesd.Library.CharBuffer
import Aesd.Server.MessageRecord
import Aesd.Server.MessageDelivery
import Aesd.Library.Mutex
import Aesd.Server.FileMutex
import Aesd.Server.ThreadRegistry
import Aesd.Driver.ReadAccounting
import Aesd.Driver.Seeking
import Aesd.Driver.OffsetLookup
import Aesd.Server.BufferBounds
import Aesd.Server.MessageHistory
import Aesd.Server.ReplyContent
import Aesd.Server.ThreadStart
import Aesd.Library.LinkedChain
import Aesd.Server.LinkedList
import Aesd.Server.ListRemoval
import Aesd.Driver.RingInvariant
import Aesd.SystemCalls.DoExec
import Aesd.SystemCalls.ExecOutcome
import Aesd.Library.Monitor
import Aesd.Library.Simulation
import Aesd.Driver.CallSteps
import Aesd.Driver.Interleaving
import Aesd.Driver.Linearization
import Aesd.Driver.InterleavedSafety
import Aesd.Driver.UnderLock
import Aesd.Driver.ReleaseRace
import Aesd.Server.Serialization
import Aesd.Server.SharedDevice
import Aesd.Server.Lifecycle
import Aesd.Server.Shutdown
import Aesd.Server.ListMemory
