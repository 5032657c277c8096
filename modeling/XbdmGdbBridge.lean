import XbdmGdbBridge.Lib.Extraction
import XbdmGdbBridge.Util.CText
import XbdmGdbBridge.Gdb.Packet
import XbdmGdbBridge.Gdb.Transport
import XbdmGdbBridge.Gdb.Wire
import XbdmGdbBridge.Proofs.Frames
import XbdmGdbBridge.Proofs.Reads
import XbdmGdbBridge.Proofs.RoundTrip
import XbdmGdbBridge.Proofs.Wire
import XbdmGdbBridge.Proofs.Fragmentation
import XbdmGdbBridge.Proofs.Dispatch
import XbdmGdbBridge.Proofs.Acks
import XbdmGdbBridge.Lib.Program
import XbdmGdbBridge.Xbox.Expression
import XbdmGdbBridge.Xbox.Debugger
import XbdmGdbBridge.Xbox.Bridge
import XbdmGdbBridge.Proofs.Debugger
import XbdmGdbBridge.Proofs.Handlers
import XbdmGdbBridge.Proofs.Faults
import XbdmGdbBridge.Proofs.Replies
import XbdmGdbBridge.Proofs.Resuming
import XbdmGdbBridge.Proofs.Actions
import XbdmGdbBridge.Proofs.Selection
import XbdmGdbBridge.Lib.Interleaving
import XbdmGdbBridge.Xbox.Session
import XbdmGdbBridge.Proofs.Session
import XbdmGdbBridge.Proofs.Conditions
import XbdmGdbBridge.Util.Numerals
import XbdmGdbBridge.Rdcp.Request
import XbdmGdbBridge.Dyndxt.Loader
import XbdmGdbBridge.Proofs.MemoryWrites
import XbdmGdbBridge.Lib.Memory
import XbdmGdbBridge.Rdcp.Response
import XbdmGdbBridge.Rdcp.ThreadContext
import XbdmGdbBridge.Proofs.ThreadContexts
import XbdmGdbBridge.Proofs.RegisterTexts
import XbdmGdbBridge.Proofs.RegisterWrites
import XbdmGdbBridge.Lib.Runs
import XbdmGdbBridge.Proofs.Threads
import XbdmGdbBridge.Proofs.Breakpoints
import XbdmGdbBridge.Shell.Commands
import XbdmGdbBridge.Proofs.FrontEnds
import XbdmGdbBridge.Xbox.Races
import XbdmGdbBridge.Proofs.Races
import XbdmGdbBridge.Lib.Lines
import XbdmGdbBridge.Rdcp.Answer
import XbdmGdbBridge.Proofs.Answers
import XbdmGdbBridge.Proofs.Maps
import XbdmGdbBridge.Rdcp.Requests
import XbdmGdbBridge.Dyndxt.Requests
import XbdmGdbBridge.Proofs.Requests
import XbdmGdbBridge.Proofs.BreakPackets
import XbdmGdbBridge.Proofs.ShellConditions
import XbdmGdbBridge.Rdcp.Completion
import XbdmGdbBridge.Proofs.Completion
import XbdmGdbBridge.Rdcp.Transport
import XbdmGdbBridge.Proofs.Exchange
import XbdmGdbBridge.Notification.Messages
import XbdmGdbBridge.Notification.Transport
import XbdmGdbBridge.Proofs.NotificationChannel
import XbdmGdbBridge.Util.ArgParser
import XbdmGdbBridge.Proofs.ExpressionRuns
import XbdmGdbBridge.Proofs.ExpressionTrees
import XbdmGdbBridge.Proofs.ExpressionTexts
import XbdmGdbBridge.Proofs.ArgScans
import XbdmGdbBridge.Proofs.ArgWords
import XbdmGdbBridge.Proofs.CommandLines
import XbdmGdbBridge.Proofs.Relocation
import XbdmGdbBridge.Proofs.Imports
import XbdmGdbBridge.Proofs.Escapes
import XbdmGdbBridge.Rdcp.SizeParsers
import XbdmGdbBridge.Proofs.AnswerStream
import XbdmGdbBridge.Proofs.MalformedLines
import XbdmGdbBridge.Proofs.ExpressionFaults
import XbdmGdbBridge.Proofs.ExpressionGrammar
import XbdmGdbBridge.Proofs.NumberReaders
import XbdmGdbBridge.Tracer.FrameCapture
import XbdmGdbBridge.Proofs.CaptureStreams
import XbdmGdbBridge.Proofs.CaptureRecords
import XbdmGdbBridge.Proofs.CaptureHistory
import XbdmGdbBridge.Proofs.Transparency
import XbdmGdbBridge.Proofs.MemoryAccess
import XbdmGdbBridge.Proofs.Stepping
import XbdmGdbBridge.Xbox.Backtrace
import XbdmGdbBridge.Proofs.Backtraces
import XbdmGdbBridge.Proofs.Queries
import XbdmGdbBridge.Proofs.Resolution
import XbdmGdbBridge.Xbox.Attach
import XbdmGdbBridge.Proofs.Attachments
import XbdmGdbBridge.Lib.Places
import XbdmGdbBridge.Shell.FileUtil
import XbdmGdbBridge.Shell.SaveDirectory
import XbdmGdbBridge.Proofs.Containment
import XbdmGdbBridge.Shell.SyncFile
import XbdmGdbBridge.Proofs.FileSync
import XbdmGdbBridge.Proofs.CaptureReads
import XbdmGdbBridge.Tracer.ImageUtil
import XbdmGdbBridge.Proofs.PixelFormats
import XbdmGdbBridge.Tracer.TraceFrame
import XbdmGdbBridge.Proofs.DrainLoops
import XbdmGdbBridge.Tracer.AuxDumps
import XbdmGdbBridge.Proofs.AuxPackets
import XbdmGdbBridge.Proofs.RelocationWalk
import XbdmGdbBridge.Dyndxt.Parse
import XbdmGdbBridge.Proofs.ParseSafety
import XbdmGdbBridge.Dyndxt.Inject
import XbdmGdbBridge.Proofs.Injection
import XbdmGdbBridge.Shell.RemoteTree
import XbdmGdbBridge.Notification.Accesses
import XbdmGdbBridge.Proofs.NotificationReads
import XbdmGdbBridge.Shell.GetMem
import XbdmGdbBridge.Proofs.MemoryDump
import XbdmGdbBridge.Net.SelectThread
import XbdmGdbBridge.Proofs.CloseCallbacks
import XbdmGdbBridge.Proofs.RemoteTrees
import XbdmGdbBridge.Proofs.Deletion
import XbdmGdbBridge.Proofs.Uploads
import XbdmGdbBridge.Proofs.ConditionTexts
import XbdmGdbBridge.Proofs.Tasks
import XbdmGdbBridge.Proofs.Connections
