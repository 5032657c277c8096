import XbdmGdbBridge.Lib.Memory
import XbdmGdbBridge.Notification.Messages
import XbdmGdbBridge.Xbox.Notifications

/-!
# Guessing a backtrace

`GuessBackTrace` reads the stack word by word and takes a word for a return address when the
instruction in front of it is a call. The disassembler, the section map and the bounds of the stack
are parameters.
-/

namespace XbdmGdbBridge

open Lib
open Notifications (Section)

inductive Operand where
  | imm (value : Int64)
  | other
deriving DecidableEq, Repr

/-- What is read of a `cs_insn`. -/
structure Instruction where
  address : UInt64
  size : UInt16
  isCall : Bool
  /-- The operands, if the instruction has details. -/
  detail : Option (List Operand)
deriving DecidableEq, Repr

/-- `cs_disasm`: bytes and the address of the first. -/
abbrev Disassembler := Bytes → UInt32 → List Instruction

/-- `base` and `limit` of a thread. -/
structure Stack where
  base : UInt32
  limit : UInt32
deriving DecidableEq, Repr

structure BacktraceFrame where
  address : UInt32
  isIndirectCall : Bool
  callTarget : Option UInt32
  isSuspicious : Bool := false
  chainId : UInt32 := 0
deriving DecidableEq, Repr

structure PendingFrame where
  frame : BacktraceFrame
  callSite : UInt32
deriving DecidableEq, Repr

/-- A call in front of a return address, with its target if that is an immediate. -/
structure CallSite where
  returnAddress : UInt32
  address : UInt32
  target : Option UInt32
deriving DecidableEq, Repr

namespace Instruction

def target (insn : Instruction) : Option UInt32 :=
  match insn.detail with
  | some (.imm value :: _) => some value.toUInt64.toUInt32
  | _ => none

/-- The last instruction ends at the return address and is a call. -/
def callBefore (insns : List Instruction) (val : UInt32) : Option CallSite :=
  match insns.getLast? with
  | none => none
  | some last =>
    if last.address + last.size.toUInt64 = val.toUInt64 ∧ last.isCall then
      some ⟨val, last.address.toUInt32, last.target⟩
    else none

end Instruction

namespace GuessBackTrace

def kMaxReasonableFunctionOffset : UInt32 := 1024
def kMaxScanBytes : UInt32 := 1024
def kMaxFrames : Nat := 16
def kInstructionLookbehind : UInt32 := 16

/-- The local variables of the scan. -/
structure Scan where
  confirmedEip : UInt32
  speculativeEip : Option UInt32 := none
  speculativeIsStrong : Bool := false
  pendingFrames : List PendingFrame := []
  guessedFrames : List BacktraceFrame := []
  currentSp : UInt32
  bytesScanned : UInt32 := 0
  nextChainId : UInt32 := 1
deriving DecidableEq, Repr

/-- The entry before `upper_bound`, in a map sorted by its keys. -/
def sectionBefore (sections : List (UInt32 × Section)) (val : UInt32) : Option Section :=
  (sections.filter fun e => e.1 ≤ val).getLast?.map Prod.snd

def inExecutableSection (sections : List (UInt32 × Section)) (val : UInt32) : Bool :=
  (sectionBefore sections val).any fun s =>
    s.baseAddress ≤ val && val < s.baseAddress + s.size &&
      (s.name == ascii ".text" || s.name == ascii "KDCODE")

def isMatch (target anchor : UInt32) : Bool :=
  target ≤ anchor && anchor - target ≤ kMaxReasonableFunctionOffset

namespace Scan

/-- The frame a pending one becomes. -/
def mark (asSuspicious : Bool) (id : UInt32) (item : PendingFrame) : BacktraceFrame :=
  { item.frame with chainId := id, isSuspicious := asSuspicious || item.frame.isSuspicious }

def flushPending (asSuspicious : Bool) (s : Scan) : Scan :=
  if s.pendingFrames = [] then s
  else { s with
    nextChainId := if asSuspicious then s.nextChainId + 1 else s.nextChainId
    guessedFrames := s.guessedFrames ++
      s.pendingFrames.map (mark asSuspicious (if asSuspicious then s.nextChainId else 0))
    pendingFrames := [] }

def matchesConfirmed (s : Scan) (call : CallSite) : Bool :=
  call.target.any fun target => isMatch target s.confirmedEip

def matchesSpeculative (s : Scan) (call : CallSite) : Bool :=
  call.target.any fun target => s.speculativeEip.any fun anchor => isMatch target anchor

/-- The three branches for a call. -/
def accept (call : CallSite) (s : Scan) : Scan :=
  if s.matchesConfirmed call then
    let s := s.flushPending true
    { s with
      guessedFrames := s.guessedFrames ++ [⟨call.returnAddress, false, call.target, false, 0⟩]
      confirmedEip := call.address
      speculativeEip := none
      speculativeIsStrong := false }
  else if s.matchesSpeculative call then
    { s with
      pendingFrames := s.pendingFrames ++
        [⟨⟨call.returnAddress, false, call.target, false, 0⟩, call.address⟩]
      speculativeEip := some call.address }
  else
    let s := s.flushPending (!s.speculativeIsStrong)
    { s with
      pendingFrames := s.pendingFrames ++
        [⟨⟨call.returnAddress, call.target.isNone, call.target, call.target.isSome, 0⟩, call.address⟩]
      speculativeEip := some call.address
      speculativeIsStrong := call.target.isNone }

/-- What a stack slot turned out to hold. -/
def note (found : Option CallSite) (s : Scan) : Scan :=
  found.elim s fun call => s.accept call

def advance (s : Scan) : Scan :=
  { s with currentSp := s.currentSp + 4, bytesScanned := s.bytesScanned + 4 }

def more (stackBase : UInt32) (s : Scan) : Bool :=
  s.bytesScanned < kMaxScanBytes &&
    s.guessedFrames.length + s.pendingFrames.length < kMaxFrames && s.currentSp < stackBase

end Scan

end GuessBackTrace

namespace XBDMDebugger

open GuessBackTrace

variable {σ : Type} [Xbdm σ]

-- The cast reads four bytes whatever the size of the vector.
def getDWORD (address : UInt32) : Program Fault (XBDMDebugger σ) (Option UInt32) := do
  match ← getMemory address 4 with
  | none => return none
  | some raw =>
    if raw.length < 4 then Program.fault .range
    else return some (UInt32.ofNat (Memory.value 4 fun a => raw.getD a 0))

/-- The call that the return address in a stack slot belongs to. -/
def probe (disassemble : Disassembler) (sections : List (UInt32 × Section)) (sp : UInt32) :
    Program Fault (XBDMDebugger σ) (Option CallSite) := do
  match ← getDWORD sp with
  | none => return none
  | some val =>
    if inExecutableSection sections val then
      let readAddr := val - kInstructionLookbehind
      match ← getMemory readAddr kInstructionLookbehind with
      | none => return none
      | some bytes =>
        if bytes.length = kInstructionLookbehind.toNat then
          return Instruction.callBefore (disassemble bytes readAddr) val
        else return none
    else return none

/-- The scan loop. The fuel is the number of words of `kMaxScanBytes`. -/
def scanLoop (disassemble : Disassembler) (sections : List (UInt32 × Section)) (stackBase : UInt32) :
    Nat → Scan → Program Fault (XBDMDebugger σ) Scan
  | 0, s => pure s
  | fuel + 1, s =>
    if s.more stackBase then do
      let found ← probe disassemble sections s.currentSp
      scanLoop disassemble sections stackBase fuel (s.note found).advance
    else pure s

def scanStack (disassemble : Disassembler) (sections : List (UInt32 × Section)) (stackBase : UInt32)
    (context : ThreadContext) : Program Fault (XBDMDebugger σ) (List BacktraceFrame) := do
  let s ← scanLoop disassemble sections stackBase (kMaxScanBytes.toNat / 4)
    { confirmedEip := (context.eip.map Int32.toUInt32).getD 0
      currentSp := (context.esp.map Int32.toUInt32).getD 0 }
  return (s.flushPending (!s.speculativeIsStrong)).guessedFrames

/-- `ScopedResume`: whether the target has to run again afterwards. -/
def scopedStop : Op σ Bool := do
  match ← request .stop with
  | none => return false
  | some reply =>
    -- `Stop` is also satisfied when the target had stopped already.
    if reply.status = .ok then
      let _ ← waitForState .stopped
      return true
    else return false

def scopedResume (shouldResume : Bool) : Op σ Unit := do
  if shouldResume then
    let _ ← go

def backTraceOf (disassembler : Option Disassembler) (sections : List (UInt32 × Section))
    (stack : Option Stack) (threadId : UInt32) :
    Program Fault (XBDMDebugger σ) (List BacktraceFrame) := do
  match (← get).getThread threadId with
  | none => return []
  | some i =>
    if !(← Program.total (fetchContextSync i)) then return []
    else if !(← Program.total (fetchInfoSync i)) then return []
    else
      match stack, disassembler with
      | some stack, some disassemble =>
        let thread ← Program.total (deref i)
        scanStack disassemble sections stack.base (thread.context.getD {})
      -- The bounds are unknown, or `cs_open` fails.
      | _, _ => return []

def guessBackTrace (disassembler : Option Disassembler) (sections : List (UInt32 × Section))
    (stack : Option Stack) (threadId : UInt32) :
    Program Fault (XBDMDebugger σ) (List BacktraceFrame) := do
  let shouldResume ← Program.total scopedStop
  let frames ← backTraceOf disassembler sections stack threadId
  Program.total (scopedResume shouldResume)
  return frames

end XBDMDebugger

end XbdmGdbBridge
