import XbdmGdbBridge.Dyndxt.Loader
import XbdmGdbBridge.Xbox.Backtrace

/-!
# Injecting the loader

`InjectLoader` writes a first bootstrap over the function `DmResumeThread`, so that `resume` requests
run it, uses it to allocate memory for a second one, and writes the function back. What comes before,
the attaching, the halting and the look-up of the exports, and what the second bootstrap is used for
are given as programs.
-/

namespace XbdmGdbBridge.Loader

open Lib XBDMDebugger

variable {σ : Type}

/-- The exports of `xbdm.dll` that are looked up. -/
structure Exports where
  dmResumeThread : UInt32
  dmAllocatePoolWithTag : UInt32
  dmFreePool : UInt32
  dmRegisterCommandProcessor : UInt32
deriving DecidableEq, Repr

/-- The images of the bootstraps, and the steps around them. -/
structure Injection (σ : Type) where
  kBootstrapL1 : Bytes
  kBootstrapL2 : Bytes
  /-- Whether the target was running and is to run again, and the exports, if it was attached to and
  has them. -/
  prepare : Program Fault (XBDMDebugger σ) (Bool × Option Exports)
  installDynamicDXTLoader : Program Fault (XBDMDebugger σ) Bool

def contextPart : Part (XBDMDebugger σ) (XBDMContext σ) where
  read := XBDMDebugger.context
  write c d := { d with context := c }

/-- The four bytes of a number. -/
def bytes32 (v : UInt32) : Bytes :=
  (List.range 4).map (Memory.byteOf v.toNat)

namespace Injection

variable [Xbdm σ] (inj : Injection σ) (exports : Exports)

def setMemoryUnsafe (address : UInt32) (data : Bytes) : Program Fault (XBDMDebugger σ) Bool :=
  Program.on contextPart (Loader.setMemoryUnsafe address data)

def invokeL1Bootstrap (parameter : UInt32) : Program Fault (XBDMDebugger σ) Bool :=
  Program.total (accepted (.resume parameter))

/-- The last four bytes of the first bootstrap. -/
def ioAddress : UInt32 :=
  exports.dmResumeThread + UInt32.ofNat inj.kBootstrapL1.length - 4

/-- Zero stands for a failure. -/
def l1BootstrapAllocatePool (size : UInt32) : Program Fault (XBDMDebugger σ) UInt32 := do
  if !(← setMemoryUnsafe (inj.ioAddress exports) (bytes32 size)) then return 0
  else if !(← invokeL1Bootstrap exports.dmAllocatePoolWithTag) then return 0
  else return (← getDWORD (inj.ioAddress exports)).getD 0

def setL1LoaderExecuteMode : Program Fault (XBDMDebugger σ) Bool :=
  setMemoryUnsafe (inj.ioAddress exports) (bytes32 0)

/-- The second bootstrap ends with a table of three imports. -/
def bootstrapL2 : Except Fault Bytes :=
  if inj.kBootstrapL2.length < 12 then .error .range
  else .ok (inj.kBootstrapL2.take (inj.kBootstrapL2.length - 12) ++ bytes32 exports.dmFreePool ++
    bytes32 exports.dmAllocatePoolWithTag ++ bytes32 exports.dmRegisterCommandProcessor)

def installL2Loader : Program Fault (XBDMDebugger σ) Bool := do
  let l2 ← inj.bootstrapL2 exports
  let entrypoint ← inj.l1BootstrapAllocatePool exports (UInt32.ofNat l2.length)
  if entrypoint = 0 then return false
  else if !(← setMemoryUnsafe entrypoint l2) then return false
  else if !(← inj.setL1LoaderExecuteMode exports) then return false
  else invokeL1Bootstrap entrypoint

/-- What follows when the function is patched. -/
def installAndRestore (original : Bytes) : Program Fault (XBDMDebugger σ) Bool := do
  let ret ← inj.installL2Loader exports
  if !(← setMemoryUnsafe exports.dmResumeThread original) then return false
  else if ret then inj.installDynamicDXTLoader
  else return false

def patchAndInstall : Program Fault (XBDMDebugger σ) Bool := do
  match ← getMemory exports.dmResumeThread (UInt32.ofNat inj.kBootstrapL1.length) with
  | none => return false
  | some original =>
    -- A patch that has failed is left as it is.
    if ← setMemoryUnsafe exports.dmResumeThread inj.kBootstrapL1 then
      inj.installAndRestore exports original
    else return false

def patchResolved : Option Exports → Program Fault (XBDMDebugger σ) Bool
  | none => pure false
  | some exports => inj.patchAndInstall exports

/-- The destructor of `ScopedResume`. -/
def resumeIf (shouldResume : Bool) : Program Fault (XBDMDebugger σ) Unit := do
  if shouldResume then
    let _ ← Program.total go
    pure ()
  else pure ()

def injectLoader : Program Fault (XBDMDebugger σ) Bool := do
  let prepared ← inj.prepare
  let ret ← inj.patchResolved prepared.2
  resumeIf prepared.1
  return ret

end Injection

end XbdmGdbBridge.Loader
