import Fex.Foundation.Program
import Fex.Foundation.Bytes
import Fex.Foundation.Codec
import Fex.Wire.Abi
import Fex.Types
import Fex.Reply
import Fex.Filesystem
import Fex.SessionImpl
import Fex.Handlers
import Fex.Dispatch
import Fex.Request
import Fex.UringWorker
import Fex.Execution
import Fex.Parsing
import Fex.Serving
import Fex.Compound
import Fex.Sequential
import Fex.Properties.CompoundRefinement
import Fex.Transport
import Fex.Properties.ReplyBounds
import Fex.Scripted
import Fex.Properties.ParseBounds
import Fex.Grammar
import Fex.Properties.RequestRoundTrip
import Fex.Foundation.Transition
import Fex.RingWorker
import Fex.Properties.RingConservation
import Fex.Properties.SlotTransport
import Fex.Properties.SlotSafety
import Fex.Properties.CompoundAtomicity
import Fex.Properties.NodeidThreading
import Fex.Session
import Fex.SessionSteps
import Fex.Properties.StopDelivery
import Fex.Properties.MountHandshake
import Fex.Properties.Unwinding
import Fex.Properties.InitDestroy
import Fex.Properties.WorkerErrors
import Fex.Properties.SlotReuse
import Fex.Properties.ExtensionTransparency
import Fex.Properties.GenuineNames
import Fex.Foundation.Records
import Fex.Properties.DirentRoundTrip
import Fex.Properties.NegotiatedLimits
import Fex.Properties.XattrReplies
import Fex.Foundation.Words
import Fex.Properties.NegotiatedFlags
import Fex.Properties.AttributeReplies
import Fex.Passthrough.InodeTable
import Fex.Passthrough.Daemon
import Fex.Properties.ForgetEquivalence
import Fex.Foundation.Counter
import Fex.Properties.InodeCounts
import Fex.Foundation.Paging
import Fex.Properties.DirectoryPaging
import Fex.Foundation.Ledger
import Fex.Properties.FdOwnership
import Fex.Properties.DaemonTable
import Fex.Foundation.Interleaving
import Fex.Properties.Linearization
import Fex.Properties.Shutdown
import Fex.Passthrough.Code
import Fex.Properties.CodeAgreement
import Fex.Foundation.Ownership
import Fex.Passthrough.Store
import Fex.Properties.DescriptorDiscipline
import Fex.Properties.DescriptorBooks
import Fex.Properties.DescriptorSafety
import Fex.Properties.RemoteCalls
import Fex.Properties.ConcurrentCalls
import Fex.Passthrough.Launch
import Fex.Properties.LaunchHandshake
