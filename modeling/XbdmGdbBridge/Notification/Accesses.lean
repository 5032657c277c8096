import XbdmGdbBridge.Lib.Program
import XbdmGdbBridge.Notification.Messages

/-!
# What the parser of notifications looks at

`ParseXBDMNotification` with its accesses: how far from the start of the line it reads, and which range
it hands to a registered constructor.
-/

namespace XbdmGdbBridge.Notifications

open CText Rdcp

structure Accesses where
  /-- One past the furthest byte that was read. -/
  reach : Nat := 0
  /-- The range that a registered constructor got. -/
  handed : Option (Nat × Nat) := none
deriving DecidableEq, Repr

abbrev Observed (α : Type) := StateM Accesses α

def readUpTo (offset : Nat) : Observed Unit :=
  modify fun a => { a with reach := max a.reach offset }

def hand (first last : Nat) : Observed Unit :=
  modify fun a => { a with handed := some (first, last) }

-- `memcmp` may read all the bytes it compares.
def observeStartsWith (memory : Bytes) (length : Nat) (start : Bytes) : Observed Bool := do
  if start.length > length then return false
  else
    readUpTo start.length
    return start.isPrefixOf memory

/-- The starts of lines are tried one after the other. -/
def observeBuiltIns {γ : Type} (memory : Bytes) (length : Nat) :
    List (Bytes × γ) → Observed (Option (Bytes × γ))
  | [] => pure none
  | entry :: rest => do
    if ← observeStartsWith memory length entry.1 then return some entry
    else observeBuiltIns memory length rest

/-- The search from an offset on. Every byte is read before it is known that the search ends there. -/
def observeStrchr (c : UInt8) : Bytes → Nat → Observed (Except Fault (Option Nat))
  | [], offset => do
    readUpTo (offset + 1)
    return .error .range
  | b :: rest, offset => do
    readUpTo (offset + 1)
    if b = c then return .ok (some offset)
    else if b = 0 then return .ok none
    else observeStrchr c rest (offset + 1)

variable {ν : Type}

def observeCustom (custom : Constructors ν) (memory : Bytes) (length delimiter : Nat) :
    Observed (Except Fault (Option (XBDMNotification ν))) := do
  let start := memory.take delimiter
  if (custom.lookup start).isSome then hand (delimiter + 1) length
  return constructCustom custom start ((memory.take length).drop (delimiter + 1))

def observeDelimited (custom : Constructors ν) (memory : Bytes) (length : Nat) :
    Except Fault (Option Nat) → Observed (Except Fault (Option (XBDMNotification ν)))
  | .error fault => pure (.error fault)
  | .ok none => pure (.ok none)
  | .ok (some delimiter) => observeCustom custom memory length delimiter

def observeKind (custom : Constructors ν) (memory : Bytes) (length : Nat) :
    Option (Bytes × (Bytes → Except Fault (XBDMNotification ν))) →
      Observed (Except Fault (Option (XBDMNotification ν)))
  | some (start, construct) => do
    readUpTo length
    return (construct ((memory.take length).drop start.length)).map some
  | none => do
    let delimiter ← observeStrchr (byte '!') memory 0
    observeDelimited custom memory length delimiter

def observeXBDMNotification (custom : Constructors ν) (memory : Bytes) (length : Nat) :
    Observed (Except Fault (Option (XBDMNotification ν))) := do
  let builtIn ← observeBuiltIns memory length builtIns
  observeKind custom memory length builtIn

end XbdmGdbBridge.Notifications
