import Mathlib.Data.List.Basic

/-!
# Walking a tree of directories

A place is the list of names that lead to it from the root. A walk goes down by a name or up by one
level, and at the root up leads nowhere. What a walk amounts to is how far it climbs above its start
and by which names it then goes down.
-/

namespace XbdmGdbBridge.Lib

variable {κ : Type}

inductive Move (κ : Type) where
  | up
  | down (name : κ)
deriving DecidableEq, Repr

namespace Move

def apply (place : List κ) : Move κ → List κ
  | .up => place.dropLast
  | .down name => place ++ [name]

end Move

def walk (start : List κ) (moves : List (Move κ)) : List κ :=
  moves.foldl Move.apply start

theorem walk_append (start : List κ) (moves moves' : List (Move κ)) :
    walk start (moves ++ moves') = walk (walk start moves) moves' :=
  List.foldl_append

/-- The places a walk comes to, one for each move. -/
def steps (start : List κ) : List (Move κ) → List (List κ)
  | [] => []
  | move :: moves => move.apply start :: steps (move.apply start) moves

/-- How many levels a walk ends above its start, and the names from there down. -/
structure Net (κ : Type) where
  climbed : Nat := 0
  names : List κ := []
deriving DecidableEq, Repr

namespace Net

/-- One more move: up takes back the last name if there is one. -/
def add (n : Net κ) : Move κ → Net κ
  | .up => if n.names = [] then { n with climbed := n.climbed + 1 } else { n with names := n.names.dropLast }
  | .down name => { n with names := n.names ++ [name] }

end Net

def net (moves : List (Move κ)) : Net κ :=
  moves.foldl Net.add {}

/-- Where a walk leads. -/
def Net.place (start : List κ) (n : Net κ) : List κ :=
  start.take (start.length - n.climbed) ++ n.names

end XbdmGdbBridge.Lib
