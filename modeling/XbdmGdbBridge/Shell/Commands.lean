import XbdmGdbBridge.Util.ArgParser
import XbdmGdbBridge.Xbox.Armed

/-!
# The shell's `break` command

`CommandBreak`: its arguments, and what it does with a debugger attached. Conditions are kept with
the debugger; the request itself goes to the target past it.
-/

namespace XbdmGdbBridge.Shell

open Lib XBDMDebugger

/-- The subcommands of `break`. A leading `-` makes `clear` true. -/
inductive BreakArgs where
  | start
  | clearall
  | addr (address : UInt32) (clear : Bool)
  | read (address : UInt32) (size : UInt32) (clear : Bool)
  | write (address : UInt32) (size : UInt32) (clear : Bool)
  | execute (address : UInt32) (size : UInt32) (clear : Bool)
deriving DecidableEq, Repr

namespace BreakArgs

def request : BreakArgs → Request
  | start => .breakAtStart
  | clearall => .breakClearAll
  | addr address clear => .breakAddress address clear
  | read address size clear => .breakOnRead address size clear
  | write address size clear => .breakOnWrite address size clear
  | execute address size clear => .breakOnExecute address size clear

/-- What a condition of the subcommand belongs to. -/
def mode : BreakArgs → Option (BreakpointType × UInt32 × Bool)
  | start | clearall => none
  | addr address clear => some (.breakpoint, address, clear)
  | read address _ clear => some (.readWatch, address, clear)
  | write address _ clear => some (.writeWatch, address, clear)
  | execute address _ clear => some (.executeWatch, address, clear)

end BreakArgs

variable {σ : Type} [Xbdm σ]

def updateCondition (type : BreakpointType) (address : UInt32) (clear : Bool)
    (condition : Option Bytes) : Op σ Unit :=
  if clear then removeBreakpointCondition type address
  else match condition with
    | some text => setBreakpointCondition type address text
    | none => pure ()

-- `start` and `clearall` with a condition print the usage and send nothing.
def commandBreak (args : BreakArgs) (condition : Option Bytes) : Op σ Unit :=
  match args.mode with
  | some (type, address, clear) => do
    updateCondition type address clear condition
    let _ ← XBDMDebugger.request args.request
  | none =>
    if condition.isSome then pure ()
    else do let _ ← XBDMDebugger.request args.request

/-- The two sources of breakpoint operations, and the notification that restores them. -/
inductive FrontEvent where
  | shell (args : BreakArgs) (condition : Option Bytes)
  | addBreakpoint (address : UInt32)
  | removeBreakpoint (address : UInt32)
  | stopped
deriving DecidableEq, Repr

def FrontEvent.perform : FrontEvent → Op (Armed σ) Unit
  | shell args condition => commandBreak args condition
  | addBreakpoint address => do let _ ← XBDMDebugger.addBreakpoint address
  | removeBreakpoint address => do let _ ← XBDMDebugger.removeBreakpoint address
  | stopped => onExecutionStateChanged .stopped

/-- The commands and the notification that concern conditions. -/
inductive ConditionEvent where
  | command (args : BreakArgs) (condition : Option Bytes)
  | reboot
deriving DecidableEq, Repr

def ConditionEvent.perform : ConditionEvent → Op σ Unit
  | command args condition => commandBreak args condition
  | reboot => onExecutionStateChanged .rebooting

end XbdmGdbBridge.Shell
