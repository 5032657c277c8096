import XbdmGdbBridge.Dyndxt.Library
import XbdmGdbBridge.Dyndxt.Requests

/-!
# Resolving imports

`Loader::ResolveImports`: addresses that are cached are taken from there, the others are asked for in
bulk. The list of requests is split so that none gets longer than a request may be.
-/

namespace XbdmGdbBridge

open Lib CText Rdcp

/-- `ResolveExportList::ResolveRequest`; the import is given by its place in the list. -/
structure ResolveRequest where
  ordinal : UInt32
  out : Nat
deriving DecidableEq, Repr

/-- A map of image bases to requests, in the order of the bases. -/
abbrev ResolutionTable := List (UInt32 × List ResolveRequest)

namespace ResolutionTable

def requests (table : ResolutionTable) : List ResolveRequest :=
  table.flatMap Prod.snd

/-- `find`, and then `emplace` or `emplace_back`. -/
def add (base : UInt32) (request : ResolveRequest) : ResolutionTable → ResolutionTable
  | [] => [(base, [request])]
  | (b, requests) :: table =>
    if b = base then (b, requests ++ [request]) :: table
    else if base < b then (base, [request]) :: (b, requests) :: table
    else (b, requests) :: add base request table

end ResolutionTable

structure Loader where
  moduleBaseAddresses : List (Bytes × UInt32) := []
  moduleExportNames : List (Bytes × List (Bytes × UInt32)) := []
  moduleExports : List (Bytes × List (UInt32 × UInt32)) := []
deriving DecidableEq, Repr

namespace Loader

def ordinalText (request : ResolveRequest) : Bytes :=
  ascii " o=" ++ hexString request.ordinal

def blockText (block : UInt32 × List ResolveRequest) : Bytes :=
  ascii " b=" ++ hexString block.1 ++ block.2.flatMap ordinalText

def resolveExportList (table : ResolutionTable) : RDCPRequest where
  command := ascii "ldxt!r"
  data := table.flatMap blockText
  binaryResponseSizeParser := some fun _ => some ⟨(UInt32.ofNat (4 * table.requests.length)).toNat, 0⟩

/-- The variables of `SplitResolutionTable`; `values` is the last entry of the current table. -/
structure Split where
  ret : List ResolutionTable := []
  current : ResolutionTable := []
  remainingLength : UInt32
deriving DecidableEq, Repr

-- `sizeof("ldxt!r")`
def commandLen : Nat := 7

def addrLen : UInt32 := 13

def newTable (ret : List ResolutionTable) : Split where
  ret := ret
  remainingLength := UInt32.ofNat (MAXIMUM_SEND_LENGTH - commandLen)

-- A base is entered once in a table: it is new there, or the table is.
def Split.newEntry (s : Split) (imageBase : UInt32) : Split :=
  { s with current := s.current ++ [(imageBase, [])] }

def Split.addValue (s : Split) (request : ResolveRequest) : Split :=
  { s with current := s.current.modifyLast fun entry => (entry.1, entry.2 ++ [request]) }

def splitRequest (imageBase : UInt32) (s : Split) (request : ResolveRequest) : Split :=
  let s := { s.addValue request with remainingLength := s.remainingLength - addrLen }
  if s.remainingLength ≤ addrLen then (newTable (s.ret ++ [s.current])).newEntry imageBase else s

def splitBlock (s : Split) (block : UInt32 × List ResolveRequest) : Split :=
  let s := { s.newEntry block.1 with remainingLength := s.remainingLength - addrLen }
  block.2.foldl (splitRequest block.1) s

def splitResolutionTable (table : ResolutionTable) : List ResolutionTable :=
  let s := table.foldl splitBlock (newTable [])
  s.ret ++ [s.current]

/-- What is changed while imports are resolved. -/
structure Resolving (σ : Type) where
  loader : Loader
  imports : List DXTLibraryImport
  remote : σ

/-- How the other end answers a request. -/
abbrev Send (σ : Type) := RDCPRequest → σ → Reply × σ

section Resolve

variable {σ : Type}

def sendCommandSync (send : Send σ) (request : RDCPRequest) : Program Fault (Resolving σ) Reply := fun s =>
  let (reply, remote) := send request s.remote
  .ok (reply, { s with remote := remote })

def setAddress (out : Nat) (address : UInt32) : Program Fault (Resolving σ) Unit :=
  modify fun s => { s with imports := s.imports.modify out fun i => { i with realAddress := address } }

/-- `ResolveExportList::ProcessResponse`. -/
def processResponse : List Nat → Bytes → Program Fault (Resolving σ) Unit
  | [], _ => pure ()
  | out :: outVector, data => do
    match Block.load 4 data 0 with
    | some address => setAddress out (UInt32.ofNat address)
    | none => Program.fault .range
    processResponse outVector (data.drop 4)

/-- Every import of the table has received an address. -/
def received (table : ResolutionTable) (imports : List DXTLibraryImport) : Bool :=
  table.requests.all fun request =>
    match imports[request.out]? with
    | some i => i.realAddress ≠ 0
    | none => false

def resolveTables (send : Send σ) : List ResolutionTable → Program Fault (Resolving σ) Bool
  | [] => pure true
  | table :: tables => do
    let reply ← sendCommandSync send (resolveExportList table)
    if reply.status = .okBinaryResponse then
      processResponse (table.requests.map ResolveRequest.out) reply.data
      let s ← get
      if received table s.imports then resolveTables send tables else return false
    else return false

def bulkResolve (send : Send σ) (table : ResolutionTable) : Program Fault (Resolving σ) Bool :=
  resolveTables send (splitResolutionTable table)

/-- The ordinal of an import; with a name it is looked up, and without a table of names the resolution
is given up. -/
def ordinalFor (names : Option (List (Bytes × UInt32))) (i : DXTLibraryImport) :
    Program Fault (Resolving σ) (Option UInt32) :=
  if i.importName = [] then pure (some i.ordinal)
  else
    match names with
    | none => pure none
    | some table =>
      -- For a name that is not in the table an error is logged and the end is dereferenced.
      match table.lookup i.importName with
      | none => Program.fault .range
      | some ordinal => pure (some ordinal)

/-- The loop over the imports. -/
def collect (names : Option (List (Bytes × UInt32))) (exportTable : List (UInt32 × UInt32))
    (baseAddress : UInt32) :
    List (DXTLibraryImport × Nat) → ResolutionTable → Program Fault (Resolving σ) (Option ResolutionTable)
  | [], table => pure (some table)
  | (i, k) :: others, table => do
    match ← ordinalFor names i with
    | none => pure none
    | some ordinal =>
      match exportTable.lookup ordinal with
      | some address => do
        setAddress k address
        collect names exportTable baseAddress others table
      | none => do
        setAddress k 0
        collect names exportTable baseAddress others (table.add baseAddress ⟨ordinal, k⟩)

/-- `FetchBaseAddress`; `getModule` gives the base address of a module the debugger knows. -/
def fetchBaseAddress (getModule : Bytes → Option UInt32) (moduleName : Bytes) :
    Program Fault (Resolving σ) Bool := do
  let s ← get
  if (s.loader.moduleBaseAddresses.lookup moduleName).isSome then return true
  match getModule moduleName with
  | none => return false
  | some base =>
    set { s with loader := { s.loader with
      moduleBaseAddresses := (moduleName, base) :: s.loader.moduleBaseAddresses
      moduleExports := (moduleName, []) :: s.loader.moduleExports } }
    return true

def resolveImports (send : Send σ) (getModule : Bytes → Option UInt32) (moduleName : Bytes) :
    Program Fault (Resolving σ) Bool := do
  if ← fetchBaseAddress getModule moduleName then
    let s ← get
    let baseAddress := (s.loader.moduleBaseAddresses.lookup moduleName).getD 0
    match s.loader.moduleExports.lookup moduleName with
    | none => Program.fault .assertion
    | some exportTable =>
      match ← collect (s.loader.moduleExportNames.lookup moduleName) exportTable baseAddress
          s.imports.zipIdx [] with
      | none => return false
      | some table => if table = [] then return true else bulkResolve send table
  else return false

end Resolve

end Loader

end XbdmGdbBridge
