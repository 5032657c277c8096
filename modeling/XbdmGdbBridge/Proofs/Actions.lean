import XbdmGdbBridge.Proofs.Resuming

/-!
# One action for each thread

A resume packet is to give each known thread the action of the leftmost element that is about it,
and nothing else. `Settled` says of which threads and packets this is true.
-/

namespace XbdmGdbBridge.Proofs

open Lib Program CText Gdb GDBBridge

variable {σ : Type}

namespace Element

def named (e : Element) : Bool := 0 < e.threadId

def names (t : UInt32) (e : Element) : Bool := e.named && e.threadId.toUInt32 = t

def covers (t : UInt32) (e : Element) : Bool := !e.named || e.threadId.toUInt32 = t

end Element

def elements (args : Bytes) : List Element :=
  (split (byte ';') args).filterMap element

/-- The action of the leftmost element that names the thread or carries no thread id. -/
def leftmost (t : UInt32) (es : List Element) : Option Action :=
  (es.find? (Element.covers t)).map Element.action

def namedActions (t : UInt32) (es : List Element) : List Action :=
  (es.filter (Element.names t)).map Element.action

/-- The continues without a thread id in front of every element that has one. -/
def leading (es : List Element) : Nat :=
  (es.takeWhile (fun e => !e.named)).countP (fun e => e.action = .continue)

/-- Behind an element with a thread id, a continue without one is sent to the thread whose number
is that of the missing id, once for each thread not named so far. -/
def strays (ids : List UInt32) (t : UInt32) : List UInt32 → List Element → Nat
  | _, [] => 0
  | processed, e :: rest =>
    (if noteProcessed processed e.threadId ≠ [] ∧ e.named = false ∧ e.action = .continue ∧
        e.threadId.toUInt32 = t then
      (ids.filter (fun id => !processed.contains id)).length else 0) +
      strays ids t (noteProcessed processed e.threadId) rest

/-- How often elements without a thread id continue thread `t`. -/
def freeContinues (ids : List UInt32) (es : List Element) (t : UInt32) : Nat :=
  leading es * ids.count t + strays ids t [] es

inductive Settled (ids : List UInt32) (es : List Element) (t : UInt32) : Prop where
  | uncovered (none : leftmost t es = none)
  | named (action : Action) (left : leftmost t es = some action)
      (once : namedActions t es = [action]) (free : freeContinues ids es t = 0)
  | free (left : leftmost t es = some .continue) (unnamed : namedActions t es = [])
      (once : freeContinues ids es t = 1)

section Log

variable {ids processed : List UInt32} {t : UInt32}

end Log

section Leftmost

variable {ids : List UInt32} {t : UInt32} {es : List Element}

end Leftmost

section Packets

variable {args : Bytes}

end Packets

end XbdmGdbBridge.Proofs
