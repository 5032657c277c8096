import XbdmGdbBridge.Util.CText

/-!
# The shell's `getmem` command

How `CommandGetMem` prints the bytes it has fetched: as numbers of one, two or four bytes.
-/

namespace XbdmGdbBridge.Shell

open CText

inductive RenderMode where
  | byte | word | dword
deriving DecidableEq, Repr

namespace RenderMode

/-- The modes that print; `none` for a file, and for what is no mode. -/
def ofText (text : Bytes) : Option RenderMode :=
  if text = ascii "b" ∨ text = ascii "byte" then some byte
  else if text = ascii "w" ∨ text = ascii "word" then some word
  else if text = ascii "d" ∨ text = ascii "dword" then some dword
  else none

def bytesPerElement : RenderMode → Nat
  | byte => 1
  | word => 2
  | dword => 4

end RenderMode

namespace GetMem

/-- `int remaining`, and the smaller one of it and the size of an element. -/
def currentElementSize (mode : RenderMode) (data : Bytes) : Int :=
  min (mode.bytesPerElement : Int) (Int32.ofNat data.length).toInt

/-- The bytes of an element, from the one with this number on. -/
def assemble : Nat → Bytes → Nat → Nat
  | _, [], val => val
  | i, b :: rest, val => assemble (i + 1) rest (val ||| (b.toNat <<< (i * 8)))

/-- Whether the element with this number is the last one of its row. -/
def breaksAfter (mode : RenderMode) (count : Nat) : Bool :=
  count ≠ 0 ∧ count % (32 / mode.bytesPerElement) = 0

-- An element without bytes does not bring the loop nearer to its end.
def elementsLoop (mode : RenderMode) : Nat → Bytes → Nat → Bytes → Option Bytes
  | _, [], _, out => some out
  | 0, _ :: _, _, _ => none
  | fuel + 1, b :: rest, count, out =>
    let size := (currentElementSize mode (b :: rest)).toNat
    let val := assemble 0 ((b :: rest).take size) 0
    let out := out ++ hexPadded (size * 2) val ++ [byte ' ']
    let out := if breaksAfter mode count then out ++ [byte '\n'] else out
    elementsLoop mode fuel ((b :: rest).drop size) (count + 1) out

/-- What is printed of fetched bytes, if the loop ends within so many turns. -/
def render (mode : RenderMode) (fuel : Nat) (data : Bytes) : Option Bytes :=
  (elementsLoop mode fuel data 0 []).map (· ++ [byte '\n'])

end GetMem

end XbdmGdbBridge.Shell
