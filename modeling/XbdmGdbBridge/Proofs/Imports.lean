import XbdmGdbBridge.Dyndxt.Resolve
import Mathlib.Data.List.Basic
import Mathlib.Data.List.Flatten

/-!
# Imports get their own addresses

The list of requests may be cut anywhere: the pieces in a row are the list, the text of a piece names
its ordinals in the order of the places their addresses are written to, and so the addresses in a row
are those of the imports that were asked for.
-/

namespace XbdmGdbBridge.Proofs.Imports

open Lib CText Rdcp Loader

section Splitting

variable {base : UInt32} {r : ResolveRequest} {table : ResolutionTable} {s : Split}

/-- All requests so far. -/
def taken (s : Split) : List ResolveRequest :=
  s.ret.flatMap ResolutionTable.requests ++ s.current.requests

theorem taken_newEntry (s : Split) (base : UInt32) : taken (s.newEntry base) = taken s := by
  simp [taken, Split.newEntry, ResolutionTable.requests]

theorem current_newEntry (s : Split) (base : UInt32) : (s.newEntry base).current ≠ [] := by
  simp [Split.newEntry]

theorem current_addValue (hne : s.current ≠ []) :
    ∃ front entry, s.current = front ++ [entry] ∧
      (s.addValue r).current = front ++ [(entry.1, entry.2 ++ [r])] := by
  obtain ⟨front, entry, hcurrent⟩ := (List.eq_nil_or_concat' s.current).resolve_left hne
  exact ⟨front, entry, hcurrent, by rw [Split.addValue, hcurrent, List.modifyLast_concat]⟩

theorem taken_splitRequest (base : UInt32) (r : ResolveRequest) (hne : s.current ≠ []) :
    taken (splitRequest base s r) = taken s ++ [r] ∧ (splitRequest base s r).current ≠ [] := by
  obtain ⟨front, entry, hcurrent, hadded⟩ := current_addValue (r := r) hne
  have htaken : s.ret.flatMap ResolutionTable.requests ++ (s.addValue r).current.requests =
      taken s ++ [r] := by
    simp [taken, hcurrent, hadded, ResolutionTable.requests]
  unfold splitRequest
  dsimp only
  split
  · refine ⟨?_, current_newEntry _ _⟩
    rw [taken_newEntry, ← htaken]
    simp [taken, newTable, ResolutionTable.requests, Split.addValue]
  · refine ⟨htaken, ?_⟩
    change (s.addValue r).current ≠ []
    simp [hadded]

theorem taken_foldl (requests : List ResolveRequest) (hne : s.current ≠ []) :
    taken (requests.foldl (splitRequest base) s) = taken s ++ requests := by
  induction requests generalizing s with
  | nil => simp
  | cons r requests ih =>
    obtain ⟨htaken, hne⟩ := taken_splitRequest base r hne
    rw [List.foldl_cons, ih hne, htaken, List.append_assoc]
    rfl

theorem taken_splitBlock (s : Split) (block : UInt32 × List ResolveRequest) :
    taken (splitBlock s block) = taken s ++ block.2 := by
  unfold splitBlock
  dsimp only
  rw [taken_foldl]
  · exact congrArg (· ++ block.2) (taken_newEntry s block.1)
  · exact current_newEntry s block.1

/-- However the table is cut, the pieces in a row are the whole. -/
theorem requests_splitResolutionTable (table : ResolutionTable) :
    (splitResolutionTable table).flatMap ResolutionTable.requests = table.requests := by
  have hfold : ∀ (table : ResolutionTable) (s : Split),
      taken (table.foldl splitBlock s) = taken s ++ table.requests := by
    intro table
    induction table with
    | nil => simp [ResolutionTable.requests]
    | cons block table ih =>
      intro s
      rw [List.foldl_cons, ih, taken_splitBlock, List.append_assoc]
      rfl
  have htaken := hfold table (newTable [])
  simpa [splitResolutionTable, taken, newTable, ResolutionTable.requests] using htaken

end Splitting

section Texts

/-- The ordinals a request names: eight digits behind each ` o=0x`. -/
def ordinalsIn : Bytes → List UInt32
  | [] => []
  | c :: rest =>
    if (ascii " o=0x").isPrefixOf (c :: rest) then
      UInt32.ofNat (numeral 16 ((rest.drop 4).take 8)) :: ordinalsIn rest
    else ordinalsIn rest

/-- The addresses in an answer. -/
def addressesIn : Bytes → List UInt32
  | a :: b :: c :: d :: rest =>
    UInt32.ofNat (Memory.value 4 fun k => [a, b, c, d].getD k 0) :: addressesIn rest
  | _ => []

/-- Characters that are no space are passed over. -/
theorem ordinalsIn_append {text rest : Bytes} (h : ∀ c ∈ text, c ≠ byte ' ') :
    ordinalsIn (text ++ rest) = ordinalsIn rest := by
  induction text with
  | nil => rfl
  | cons c text ih =>
    have hc : (ascii " o=0x").isPrefixOf (c :: (text ++ rest)) = false := by
      have hne : (byte ' ' == c) = false := by simpa using Ne.symm (h c (by simp))
      change (byte ' ' == c && (ascii "o=0x").isPrefixOf (text ++ rest)) = false
      rw [hne, Bool.false_and]
    rw [List.cons_append, ordinalsIn, hc]
    exact ih fun c hc => h c (by simp [hc])

theorem space_not_mem_label {label : Bytes} (h : label.all (· != byte ' ') = true) :
    ∀ c ∈ label, c ≠ byte ' ' := by
  intro c hc
  simpa using List.all_eq_true.mp h c hc

theorem space_not_mem_hexPadded (width n : Nat) : ∀ c ∈ hexPadded width n, c ≠ byte ' ' := by
  rintro c hc rfl
  have := hexDigits_hexPadded width n _ hc
  revert this
  decide

theorem ordinalsIn_ordinalText (r : ResolveRequest) (rest : Bytes) :
    ordinalsIn (ordinalText r ++ rest) = r.ordinal :: ordinalsIn rest := by
  have hlength : (hexPadded 8 r.ordinal.toNat).length = 8 :=
    length_hexPadded (by decide) r.ordinal.toNat_lt
  have htext : ordinalText r ++ rest =
      byte ' ' :: (ascii "o=0x" ++ (hexPadded 8 r.ordinal.toNat ++ rest)) := by
    simp only [ordinalText, hexString, List.append_assoc]
    rfl
  have hdigits : ((ascii "o=0x" ++ (hexPadded 8 r.ordinal.toNat ++ rest)).drop 4).take 8 =
      hexPadded 8 r.ordinal.toNat := by
    rw [show 4 = (ascii "o=0x").length from rfl, List.drop_left, List.take_left' hlength]
  have hstart : (ascii " o=0x").isPrefixOf
      (byte ' ' :: (ascii "o=0x" ++ (hexPadded 8 r.ordinal.toNat ++ rest))) = true := by
    rw [List.isPrefixOf_iff_prefix]
    exact ⟨hexPadded 8 r.ordinal.toNat ++ rest, rfl⟩
  rw [htext, ordinalsIn, if_pos hstart, hdigits, numeral_hexPadded, UInt32.ofNat_toNat,
    ordinalsIn_append (space_not_mem_label (by decide)),
    ordinalsIn_append (space_not_mem_hexPadded _ _)]

theorem ordinalsIn_blockText (block : UInt32 × List ResolveRequest) (rest : Bytes) :
    ordinalsIn (blockText block ++ rest) = block.2.map ResolveRequest.ordinal ++ ordinalsIn rest := by
  have hrequests : ∀ requests : List ResolveRequest,
      ordinalsIn (requests.flatMap ordinalText ++ rest) =
        requests.map ResolveRequest.ordinal ++ ordinalsIn rest := by
    intro requests
    induction requests with
    | nil => rfl
    | cons r requests ih =>
      rw [List.flatMap_cons, List.append_assoc, ordinalsIn_ordinalText, ih]
      rfl
  have htext : blockText block ++ rest = byte ' ' :: (ascii "b=0x" ++
      (hexPadded 8 block.1.toNat ++ (block.2.flatMap ordinalText ++ rest))) := by
    simp only [blockText, hexString, List.append_assoc]
    rfl
  rw [htext, ordinalsIn]
  change ordinalsIn (ascii "b=0x" ++
    (hexPadded 8 block.1.toNat ++ (block.2.flatMap ordinalText ++ rest))) = _
  rw [ordinalsIn_append (space_not_mem_label (by decide)),
    ordinalsIn_append (space_not_mem_hexPadded _ _), hrequests]

/-- A request names its ordinals in order. -/
theorem ordinalsIn_resolveExportList (table : ResolutionTable) :
    ordinalsIn (resolveExportList table).data = table.requests.map ResolveRequest.ordinal := by
  change ordinalsIn (table.flatMap blockText) = _
  induction table with
  | nil => rfl
  | cons block table ih =>
    rw [List.flatMap_cons, ordinalsIn_blockText, ih]
    simp [ResolutionTable.requests]

end Texts

section Answers

variable {σ : Type}

def withAddress (address : UInt32) (i : DXTLibraryImport) : DXTLibraryImport :=
  { i with realAddress := address }

@[simp] theorem withAddress_withAddress (a b : UInt32) (i : DXTLibraryImport) :
    withAddress a (withAddress b i) = withAddress a i := rfl

/-- Addresses written to the imports at some places. -/
def assign (updates : List (Nat × UInt32)) (imports : List DXTLibraryImport) : List DXTLibraryImport :=
  updates.foldl (fun imports u => imports.modify u.1 (withAddress u.2)) imports

theorem assign_append (u u' : List (Nat × UInt32)) (imports : List DXTLibraryImport) :
    assign (u ++ u') imports = assign u' (assign u imports) :=
  List.foldl_append

theorem length_addressesIn {data : Bytes} {n : Nat} (h : data.length = 4 * n) :
    (addressesIn data).length = n := by
  induction n generalizing data with
  | zero =>
    obtain rfl := List.length_eq_zero_iff.mp h
    rfl
  | succ n ih =>
    match data, h with
    | a :: b :: c :: d :: rest, h =>
      have hrest : rest.length = 4 * n := by simpa [Nat.mul_succ] using h
      rw [addressesIn, List.length_cons, ih hrest]

theorem processResponse_ok {outVector : List Nat} {data : Bytes} (h : data.length = 4 * outVector.length)
    (s : Resolving σ) :
    processResponse outVector data s =
      .ok ((), { s with imports := assign (outVector.zip (addressesIn data)) s.imports }) := by
  induction outVector generalizing data s with
  | nil => rfl
  | cons out outVector ih =>
    match data, h with
    | a :: b :: c :: d :: rest, h =>
      have hrest : rest.length = 4 * outVector.length := by simpa [Nat.mul_succ] using h
      have hload : Block.load 4 (a :: b :: c :: d :: rest) 0 =
          some (Memory.value 4 fun k => [a, b, c, d].getD k 0) := by
        simp [Block.load, Memory.value]
      rw [processResponse, hload]
      exact ih hrest _

/-- The other end with a record of what was asked and answered. -/
def recorded (send : Send σ) : Send (σ × List (RDCPRequest × Reply)) := fun request s =>
  let (reply, remote) := send request s.1
  (reply, remote, s.2 ++ [(request, reply)])

/-- The ordinals asked for with the addresses given for them. -/
def given (record : List (RDCPRequest × Reply)) : List (UInt32 × UInt32) :=
  record.flatMap fun exchange => (ordinalsIn exchange.1.data).zip (addressesIn exchange.2.data)

/-- An answer has one address for each ordinal in the text of the request. -/
def Answers (send : Send σ) : Prop :=
  ∀ request s, (send request s).1.status = .okBinaryResponse →
    (send request s).1.data.length = 4 * (ordinalsIn request.data).length

theorem sendCommandSync_recorded (send : Send σ) (request : RDCPRequest)
    (s : Resolving (σ × List (RDCPRequest × Reply))) :
    sendCommandSync (recorded send) request s =
      .ok ((send request s.remote.1).1, { s with remote :=
        ((send request s.remote.1).2, s.remote.2 ++ [(request, (send request s.remote.1).1)]) }) :=
  rfl

theorem resolveTables_true {send : Send σ} (hanswers : Answers send) {tables : List ResolutionTable}
    {s s' : Resolving (σ × List (RDCPRequest × Reply))}
    (h : resolveTables (recorded send) tables s = .ok (true, s')) :
    ∃ addresses : List UInt32,
      addresses.length = (tables.flatMap ResolutionTable.requests).length ∧
      s'.loader = s.loader ∧
      s'.imports = assign (((tables.flatMap ResolutionTable.requests).map ResolveRequest.out).zip addresses)
        s.imports ∧
      given s'.remote.2 = given s.remote.2 ++
        ((tables.flatMap ResolutionTable.requests).map ResolveRequest.ordinal).zip addresses := by
  induction tables generalizing s with
  | nil =>
    cases h
    exact ⟨[], rfl, rfl, rfl, by simp⟩
  | cons table tables ih =>
    rw [resolveTables, Program.bind_of_ok (sendCommandSync_recorded send _ s)] at h
    split at h
    next hstatus =>
      have hlength := hanswers _ _ hstatus
      have hordinals := ordinalsIn_resolveExportList table
      rw [hordinals, List.length_map] at hlength
      rw [Program.bind_of_ok (processResponse_ok (by rw [hlength, List.length_map]) _),
        Program.get_bind_apply] at h
      split at h
      next =>
        have hfirst := length_addressesIn hlength
        obtain ⟨addresses, hlength', hloader, himports, hgiven⟩ := ih h
        refine ⟨addressesIn (send (resolveExportList table) s.remote.1).1.data ++ addresses, ?_, hloader,
          ?_, ?_⟩
        · rw [List.length_append, hfirst, hlength', List.flatMap_cons, List.length_append]
        · rw [himports, ← assign_append, List.flatMap_cons, List.map_append,
            List.zip_append (by rw [List.length_map, hfirst])]
        · have hexchange : given (s.remote.2 ++ [(resolveExportList table,
              (send (resolveExportList table) s.remote.1).1)]) = given s.remote.2 ++
              (table.requests.map ResolveRequest.ordinal).zip
                (addressesIn (send (resolveExportList table) s.remote.1).1.data) := by
            simp [given, hordinals]
          rw [hgiven, hexchange, List.flatMap_cons, List.map_append,
            List.zip_append (by rw [List.length_map, hfirst]), List.append_assoc]
      next => cases h
    next => cases h

end Answers

section Collecting

variable {σ : Type} {names : Option (List (Bytes × UInt32))} {exportTable : List (UInt32 × UInt32)}
  {base : UInt32} {i : DXTLibraryImport} {imports : List DXTLibraryImport}

/-- The ordinal of an import, by its name if it has one. -/
def ordinalOf (names : Option (List (Bytes × UInt32))) (i : DXTLibraryImport) : Option UInt32 :=
  if i.importName = [] then some i.ordinal else names.bind fun table => table.lookup i.importName

theorem ordinalFor_ok {o : UInt32} {s s' : Resolving σ} (h : ordinalFor names i s = .ok (some o, s')) :
    ordinalOf names i = some o ∧ s = s' := by
  unfold ordinalFor at h
  unfold ordinalOf
  split at h
  next hname =>
    cases h
    exact ⟨if_pos hname, rfl⟩
  next hname =>
    rw [if_neg hname]
    cases names with
    | none => cases h
    | some table =>
      dsimp only at h
      cases hlookup : table.lookup i.importName with
      | none =>
        rw [hlookup] at h
        cases h
      | some ordinal =>
        rw [hlookup] at h
        cases h
        exact ⟨hlookup, rfl⟩

/-- The imports with what is cached, and the requests for the others, from the place `n` on. -/
inductive Wanted (names : Option (List (Bytes × UInt32))) (exportTable : List (UInt32 × UInt32)) :
    Nat → List DXTLibraryImport → List DXTLibraryImport → List ResolveRequest → Prop where
  | nil {n : Nat} : Wanted names exportTable n [] [] []
  | cached {n : Nat} {i : DXTLibraryImport} {others others' : List DXTLibraryImport}
      {requests : List ResolveRequest} {o address : UInt32} (hordinal : ordinalOf names i = some o)
      (hcached : exportTable.lookup o = some address)
      (h : Wanted names exportTable (n + 1) others others' requests) :
      Wanted names exportTable n (i :: others) (withAddress address i :: others') requests
  | asked {n : Nat} {i : DXTLibraryImport} {others others' : List DXTLibraryImport}
      {requests : List ResolveRequest} {o : UInt32} (hordinal : ordinalOf names i = some o)
      (hcached : exportTable.lookup o = none)
      (h : Wanted names exportTable (n + 1) others others' requests) :
      Wanted names exportTable n (i :: others) (withAddress 0 i :: others') (⟨o, n⟩ :: requests)

/-- A table with requests for one base. -/
def oneBase (base : UInt32) (requests : List ResolveRequest) : ResolutionTable :=
  if requests = [] then [] else [(base, requests)]

theorem add_oneBase (base : UInt32) (requests : List ResolveRequest) (r : ResolveRequest) :
    (oneBase base requests).add base r = oneBase base (requests ++ [r]) := by
  cases requests with
  | nil => rfl
  | cons first requests => simp [oneBase, ResolutionTable.add]

theorem requests_oneBase (base : UInt32) (requests : List ResolveRequest) :
    (oneBase base requests).requests = requests := by
  cases requests with
  | nil => rfl
  | cons first requests => simp [oneBase, ResolutionTable.requests]

theorem modify_length_append (front rest : List DXTLibraryImport) (i : DXTLibraryImport)
    (f : DXTLibraryImport → DXTLibraryImport) :
    (front ++ i :: rest).modify front.length f = front ++ f i :: rest := by
  induction front with
  | nil => rfl
  | cons first front ih =>
    rw [List.cons_append, List.length_cons, List.modify_succ_cons, ih]
    rfl

theorem collect_some {front : List DXTLibraryImport} {requests : List ResolveRequest}
    {table : ResolutionTable} {s s' : Resolving σ} (himports : s.imports = front ++ imports)
    (h : collect names exportTable base (imports.zipIdx front.length) (oneBase base requests) s =
      .ok (some table, s')) :
    ∃ imports' more, Wanted names exportTable front.length imports imports' more ∧
      table = oneBase base (requests ++ more) ∧ s' = { s with imports := front ++ imports' } := by
  induction imports generalizing front requests s with
  | nil =>
    cases h
    refine ⟨[], [], .nil, by rw [List.append_nil], ?_⟩
    rw [← himports]
  | cons i imports ih =>
    rw [List.zipIdx_cons, collect] at h
    obtain ⟨ordinal, s₁, hfor, h⟩ := Program.bind_ok h
    cases ordinal with
    | none => cases h
    | some o =>
      obtain ⟨hordinal, rfl⟩ := ordinalFor_ok hfor
      have hset : ∀ address, setAddress front.length address s =
          .ok ((), { s with imports := (front ++ [withAddress address i]) ++ imports }) := by
        intro address
        change Except.ok ((), { s with imports := s.imports.modify front.length (withAddress address) }) = _
        rw [himports, modify_length_append, List.append_assoc]
        rfl
      have hlength : ∀ address, front.length + 1 = (front ++ [withAddress address i]).length := by simp
      dsimp only at h
      cases hcached : exportTable.lookup o with
      | some address =>
        rw [hcached] at h
        dsimp only at h
        rw [Program.bind_of_ok (hset address), hlength address] at h
        obtain ⟨imports', more, hwanted, htable, hs⟩ := ih rfl h
        rw [← hlength] at hwanted
        refine ⟨_, more, .cached hordinal hcached hwanted, htable, ?_⟩
        rw [hs]
        simp
      | none =>
        rw [hcached] at h
        dsimp only at h
        rw [Program.bind_of_ok (hset 0), add_oneBase, hlength 0] at h
        obtain ⟨imports', more, hwanted, htable, hs⟩ := ih rfl h
        rw [← hlength] at hwanted
        refine ⟨_, _, .asked hordinal hcached hwanted, ?_, ?_⟩
        · rw [htable, List.append_assoc]
          rfl
        · rw [hs]
          simp

/-- The imports, each with the cached address of its ordinal or the next of the pairs, which is for
that ordinal. -/
inductive Settled (names : Option (List (Bytes × UInt32))) (exportTable : List (UInt32 × UInt32)) :
    List DXTLibraryImport → List (UInt32 × UInt32) → List DXTLibraryImport → Prop where
  | nil : Settled names exportTable [] [] []
  | cached {i : DXTLibraryImport} {others others' : List DXTLibraryImport}
      {pairs : List (UInt32 × UInt32)} {o address : UInt32} (hordinal : ordinalOf names i = some o)
      (hcached : exportTable.lookup o = some address)
      (h : Settled names exportTable others pairs others') :
      Settled names exportTable (i :: others) pairs (withAddress address i :: others')
  | asked {i : DXTLibraryImport} {others others' : List DXTLibraryImport}
      {pairs : List (UInt32 × UInt32)} {o address : UInt32} (hordinal : ordinalOf names i = some o)
      (hcached : exportTable.lookup o = none)
      (h : Settled names exportTable others pairs others') :
      Settled names exportTable (i :: others) ((o, address) :: pairs) (withAddress address i :: others')

theorem Wanted.settled {n : Nat} {front imports' : List DXTLibraryImport}
    {requests : List ResolveRequest} {addresses : List UInt32}
    (h : Wanted names exportTable n imports imports' requests) (hfront : front.length = n)
    (hlength : addresses.length = requests.length) :
    ∃ imports'', assign ((requests.map ResolveRequest.out).zip addresses) (front ++ imports') =
        front ++ imports'' ∧
      Settled names exportTable imports ((requests.map ResolveRequest.ordinal).zip addresses) imports'' := by
  induction h generalizing front addresses with
  | nil => exact ⟨[], rfl, .nil⟩
  | @cached n i others others' requests o address hordinal hcached h ih =>
    have hfront' : (front ++ [withAddress address i]).length = n + 1 := by simp [hfront]
    obtain ⟨imports'', hassign, hsettled⟩ := ih hfront' hlength
    refine ⟨withAddress address i :: imports'', ?_, .cached hordinal hcached hsettled⟩
    simpa using hassign
  | @asked n i others others' requests o hordinal hcached h ih =>
    match addresses, hlength with
    | address :: addresses, hlength =>
      have hfront' : (front ++ [withAddress address i]).length = n + 1 := by simp [hfront]
      obtain ⟨imports'', hassign, hsettled⟩ := ih hfront' (Nat.succ.inj hlength)
      refine ⟨withAddress address i :: imports'', ?_, .asked hordinal hcached hsettled⟩
      subst hfront
      change assign ((requests.map ResolveRequest.out).zip addresses)
        ((front ++ withAddress 0 i :: others').modify front.length (withAddress address)) = _
      rw [modify_length_append]
      simpa using hassign

/-- The ordinal and the address of an import that is not cached. -/
def uncached (names : Option (List (Bytes × UInt32))) (exportTable : List (UInt32 × UInt32))
    (i : DXTLibraryImport) : Option (UInt32 × UInt32) :=
  (ordinalOf names i).bind fun o =>
    if (exportTable.lookup o).isNone then some (o, i.realAddress) else none

theorem Settled.filterMap {imports' : List DXTLibraryImport} {pairs : List (UInt32 × UInt32)}
    (h : Settled names exportTable imports pairs imports') :
    imports'.filterMap (uncached names exportTable) = pairs := by
  induction h with
  | nil => rfl
  | @cached i others others' pairs o address hordinal hcached h ih =>
    have hnone : uncached names exportTable (withAddress address i) = none := by
      change (ordinalOf names i).bind _ = _
      rw [hordinal, Option.bind_some, hcached]
      rfl
    rw [List.filterMap_cons_none hnone, ih]
  | @asked i others others' pairs o address hordinal hcached h ih =>
    have hsome : uncached names exportTable (withAddress address i) = some (o, address) := by
      change (ordinalOf names i).bind _ = _
      rw [hordinal, Option.bind_some, hcached]
      rfl
    rw [List.filterMap_cons_some hsome, ih]

theorem Settled.forall₂ {imports' : List DXTLibraryImport} {pairs : List (UInt32 × UInt32)}
    (h : Settled names exportTable imports pairs imports') :
    List.Forall₂ (fun i i' => ∃ o, ordinalOf names i = some o ∧ i' = withAddress i'.realAddress i ∧
      ∀ address, exportTable.lookup o = some address → i'.realAddress = address) imports imports' := by
  induction h with
  | nil => exact .nil
  | @cached i others others' pairs o address hordinal hcached h ih =>
    refine .cons ⟨o, hordinal, rfl, ?_⟩ ih
    intro a ha
    rw [hcached] at ha
    exact Option.some.inj ha
  | @asked i others others' pairs o address hordinal hcached h ih =>
    refine .cons ⟨o, hordinal, rfl, ?_⟩ ih
    intro a ha
    rw [hcached] at ha
    cases ha

end Collecting

section Results

variable {σ : Type} {send : Send σ} {getModule : Bytes → Option UInt32} {moduleName : Bytes}
  {s s' : Resolving (σ × List (RDCPRequest × Reply))}

theorem fetchBaseAddress_ok {b : Bool} {s s' : Resolving σ}
    (h : fetchBaseAddress getModule moduleName s = .ok (b, s')) :
    s'.imports = s.imports ∧ s'.remote = s.remote ∧
      s'.loader.moduleExportNames = s.loader.moduleExportNames := by
  unfold fetchBaseAddress at h
  rw [Program.get_bind_apply] at h
  split at h
  · cases h
    exact ⟨rfl, rfl, rfl⟩
  · cases hmodule : getModule moduleName with
    | none =>
      rw [hmodule] at h
      cases h
      exact ⟨rfl, rfl, rfl⟩
    | some base =>
      rw [hmodule] at h
      cases h
      exact ⟨rfl, rfl, rfl⟩

/-- What follows when all imports have been looked at. -/
theorem resolved_oneBase {base : UInt32} {requests : List ResolveRequest} {table : ResolutionTable}
    (hanswers : Answers send) (htable : table = oneBase base requests)
    (h : (if table = [] then pure true else bulkResolve (recorded send) table :
      Program Fault (Resolving (σ × List (RDCPRequest × Reply))) Bool) s = .ok (true, s')) :
    ∃ addresses : List UInt32, addresses.length = requests.length ∧ s'.loader = s.loader ∧
      s'.imports = assign ((requests.map ResolveRequest.out).zip addresses) s.imports ∧
      given s'.remote.2 = given s.remote.2 ++ (requests.map ResolveRequest.ordinal).zip addresses := by
  have hrequests : (splitResolutionTable table).flatMap ResolutionTable.requests = requests := by
    rw [requests_splitResolutionTable, htable, requests_oneBase]
  split at h
  next hempty =>
    obtain rfl : requests = [] := by
      rw [hempty, oneBase] at htable
      split at htable
      · assumption
      · cases htable
    cases h
    exact ⟨[], rfl, rfl, rfl, by simp⟩
  next =>
    have htables := resolveTables_true hanswers h
    rwa [hrequests] at htables

/-- When imports were resolved, each one is as before but for its address. That is the cached one of
its ordinal; and the ordinals asked for with the addresses given for them are, one by one and in
order, those of the imports that are not cached. -/
theorem resolveImports_true (hanswers : Answers send) (hrecord : s.remote.2 = [])
    (h : resolveImports (recorded send) getModule moduleName s = .ok (true, s')) :
    ∃ exportTable, s'.loader.moduleExports.lookup moduleName = some exportTable ∧
      List.Forall₂ (fun i i' => ∃ o,
        ordinalOf (s.loader.moduleExportNames.lookup moduleName) i = some o ∧
          i' = withAddress i'.realAddress i ∧
          ∀ address, exportTable.lookup o = some address → i'.realAddress = address)
        s.imports s'.imports ∧
      given s'.remote.2 = s'.imports.filterMap
        (uncached (s.loader.moduleExportNames.lookup moduleName) exportTable) := by
  unfold resolveImports at h
  obtain ⟨b, s₁, hfetch, h⟩ := Program.bind_ok h
  obtain ⟨himports, hremote, hnames⟩ := fetchBaseAddress_ok hfetch
  cases b with
  | false => cases h
  | true =>
    rw [if_pos rfl, Program.get_bind_apply] at h
    cases hexports : s₁.loader.moduleExports.lookup moduleName with
    | none =>
      rw [hexports] at h
      cases h
    | some exportTable =>
      rw [hexports] at h
      dsimp only at h
      obtain ⟨table, s₂, hcollect, h⟩ := Program.bind_ok h
      cases table with
      | none => cases h
      | some table =>
        generalize (s₁.loader.moduleBaseAddresses.lookup moduleName).getD 0 = base at hcollect
        have hstart : collect (s₁.loader.moduleExportNames.lookup moduleName) exportTable base
            (s₁.imports.zipIdx ([] : List DXTLibraryImport).length) (oneBase base []) s₁ =
            .ok (some table, s₂) := hcollect
        obtain ⟨imports', requests, hwanted, htable, hs₂⟩ := collect_some rfl hstart
        rw [List.nil_append] at htable hs₂
        obtain ⟨addresses, hlength, hloader, hassign, hgiven⟩ := resolved_oneBase hanswers htable h
        obtain ⟨imports'', hsettle, hsettled⟩ := hwanted.settled rfl hlength
        have hfinal : s'.imports = imports'' := by
          rw [hassign, hs₂]
          exact hsettle
        rw [hs₂, hremote, hrecord] at hgiven
        rw [himports, hnames] at hsettled
        refine ⟨exportTable, ?_, ?_, ?_⟩
        · rw [hloader, hs₂]
          exact hexports
        · rw [hfinal]
          exact hsettled.forall₂
        · rw [hfinal, hsettled.filterMap, hgiven]
          rfl

/-- A remote that gives the same address for every ordinal. -/
def sameAddress : Send Unit := fun request s =>
  ({ status := .okBinaryResponse, data := (ordinalsIn request.data).flatMap fun _ => [0x10, 0, 0, 0x80] }, s)

theorem answers_sameAddress : Answers sameAddress := by
  intro request s _
  simp [sameAddress, List.length_flatMap, Nat.mul_comm]

/-- Of two imports the first one is cached. -/
def twoImports : Resolving (Unit × List (RDCPRequest × Reply)) where
  loader :=
    { moduleBaseAddresses := [(ascii "xbdm.dll", 0xB0000000)]
      moduleExports := [(ascii "xbdm.dll", [(1, 0xB0001000)])] }
  imports := [{ ordinal := 1 }, { ordinal := 2 }]
  remote := ((), [])

theorem resolveImports_twoImports :
    ∃ s', resolveImports (recorded sameAddress) (fun _ => none) (ascii "xbdm.dll") twoImports =
        .ok (true, s') ∧
      s'.imports = [{ ordinal := 1, realAddress := 0xB0001000 }, { ordinal := 2, realAddress := 0x80000010 }] ∧
      ∃ exportTable, given s'.remote.2 = s'.imports.filterMap (uncached none exportTable) := by
  have hrun : ∃ s', resolveImports (recorded sameAddress) (fun _ => none) (ascii "xbdm.dll") twoImports =
        .ok (true, s') ∧
      s'.imports = [{ ordinal := 1, realAddress := 0xB0001000 }, { ordinal := 2, realAddress := 0x80000010 }] :=
    ⟨_, rfl, rfl⟩
  obtain ⟨s', hrun, himports⟩ := hrun
  obtain ⟨exportTable, -, -, hgiven⟩ := resolveImports_true answers_sameAddress rfl hrun
  exact ⟨s', hrun, himports, exportTable, hgiven⟩

end Results

end XbdmGdbBridge.Proofs.Imports
