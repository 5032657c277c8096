import XbdmGdbBridge.Proofs.Imports

/-!
# What is sent for imports

How long the requests for exports get, and what becomes of an import whose name is unknown.
-/

namespace XbdmGdbBridge.Proofs.Resolution

open Lib CText Rdcp Loader

section Lengths

/-- A base and each of its requests take up the same room. -/
def entries (table : ResolutionTable) : Nat :=
  table.length + table.requests.length

/-- The entries of a table in the order of the text: is it a request, or a base? -/
def marks (table : ResolutionTable) : List Bool :=
  table.flatMap fun block => false :: block.2.map fun _ => true

theorem length_marks (table : ResolutionTable) : (marks table).length = entries table := by
  induction table with
  | nil => rfl
  | cons block table ih =>
    simp only [marks, entries, ResolutionTable.requests, List.flatMap_cons, List.length_append,
      List.length_cons, List.length_map] at ih ⊢
    omega

def commandText (r : RDCPRequest) : Bytes :=
  r.command ++ r.data

theorem length_ordinalText (r : ResolveRequest) : (ordinalText r).length = 13 := by
  rw [ordinalText, List.length_append, length_hexString]
  rfl

theorem length_blockText (block : UInt32 × List ResolveRequest) :
    (blockText block).length = 13 * (1 + block.2.length) := by
  have hordinals : (block.2.flatMap ordinalText).length = 13 * block.2.length := by
    rw [List.length_flatMap]
    simp [length_ordinalText, Nat.mul_comm]
  have hlabel : (ascii " b=").length = 3 := rfl
  rw [blockText, List.length_append, List.length_append, length_hexString, hordinals, hlabel]
  omega

theorem length_commandText (table : ResolutionTable) :
    (commandText (resolveExportList table)).length = 6 + 13 * entries table := by
  have hdata : (table.flatMap blockText).length = 13 * entries table := by
    induction table with
    | nil => rfl
    | cons block table ih =>
      simp only [List.flatMap_cons, List.length_append, ih, length_blockText, entries,
        ResolutionTable.requests, List.length_cons]
      omega
  rw [commandText, List.length_append, resolveExportList, hdata]
  rfl

/-- The bookkeeping of `SplitResolutionTable`: the entries of the finished tables and of the current
one, and what is left of the budget. -/
structure Budget where
  full : List Nat
  size : Nat
  remaining : UInt32

namespace Budget

def spend (b : Budget) : Budget :=
  ⟨b.full, b.size + 1, b.remaining - addrLen⟩

/-- A table is closed behind a request only, and the base that is repeated in the next one is not
charged for. -/
def charge (b : Budget) : Bool → Budget
  | false => b.spend
  | true => if b.spend.remaining ≤ addrLen then ⟨b.full ++ [b.size + 1], 1, 505⟩ else b.spend

/-- All tables, the current one as the last. -/
def tables (b : Budget) : List Nat :=
  b.full ++ [b.size]

end Budget

section Refinement

variable {s : Split}

def budgetOf (s : Split) : Budget :=
  ⟨s.ret.map entries, entries s.current, s.remainingLength⟩

theorem entries_append (table table' : ResolutionTable) :
    entries (table ++ table') = entries table + entries table' := by
  simp only [entries, ResolutionTable.requests, List.length_append, List.flatMap_append]
  omega

theorem entries_addValue (r : ResolveRequest) (hne : s.current ≠ []) :
    entries (s.addValue r).current = entries s.current + 1 := by
  obtain ⟨front, entry, hcurrent, hadded⟩ := Imports.current_addValue (r := r) hne
  rw [hcurrent, hadded, entries_append, entries_append]
  simp only [entries, ResolutionTable.requests, List.flatMap_singleton, List.length_append,
    List.length_singleton]
  omega

theorem budgetOf_splitRequest (base : UInt32) (r : ResolveRequest) (hne : s.current ≠ []) :
    budgetOf (splitRequest base s r) = (budgetOf s).charge true := by
  have hsize := entries_addValue r hne
  by_cases hfull : s.remainingLength - addrLen ≤ addrLen
  · have hcharge : (budgetOf s).charge true =
        ⟨s.ret.map entries ++ [entries s.current + 1], 1, 505⟩ := if_pos hfull
    rw [splitRequest, if_pos hfull, hcharge, ← hsize]
    simp only [budgetOf, newTable, Split.newEntry, List.map_append]
    rfl
  · have hcharge : (budgetOf s).charge true = (budgetOf s).spend := if_neg hfull
    rw [splitRequest, if_neg hfull, hcharge, budgetOf, hsize]
    rfl

theorem budgetOf_foldl (base : UInt32) (requests : List ResolveRequest) (hne : s.current ≠ []) :
    budgetOf (requests.foldl (splitRequest base) s) =
      (requests.map fun _ => true).foldl Budget.charge (budgetOf s) := by
  induction requests generalizing s with
  | nil => rfl
  | cons r requests ih =>
    rw [List.foldl_cons, ih (Imports.taken_splitRequest base r hne).2, budgetOf_splitRequest _ _ hne]
    rfl

theorem budgetOf_splitBlock (s : Split) (block : UInt32 × List ResolveRequest) :
    budgetOf (splitBlock s block) =
      (false :: block.2.map fun _ => true).foldl Budget.charge (budgetOf s) := by
  have hentry : entries (s.newEntry block.1).current = entries s.current + 1 :=
    entries_append s.current [(block.1, [])]
  have hcharge : budgetOf { s.newEntry block.1 with remainingLength := s.remainingLength - addrLen } =
      (budgetOf s).charge false := by
    rw [budgetOf, hentry]
    rfl
  rw [List.foldl_cons, ← hcharge]
  exact budgetOf_foldl _ _ (Imports.current_newEntry s block.1)

/-- The sizes of the tables are those of the bookkeeping. -/
theorem entries_splitResolutionTable (table : ResolutionTable) :
    (splitResolutionTable table).map entries =
      ((marks table).foldl Budget.charge ⟨[], 0, 505⟩).tables := by
  have hfold : ∀ (table : ResolutionTable) (s : Split),
      budgetOf (table.foldl splitBlock s) = (marks table).foldl Budget.charge (budgetOf s) := by
    intro table
    induction table with
    | nil => exact fun _ => rfl
    | cons block table ih =>
      intro s
      rw [List.foldl_cons, ih, budgetOf_splitBlock, ← List.foldl_append]
      rfl
  have hstart : budgetOf (newTable []) = ⟨[], 0, 505⟩ := rfl
  rw [← hstart, ← hfold, splitResolutionTable, List.map_append]
  rfl

end Refinement

namespace Budget

variable {b : Budget}

/-- With room for another entry behind the next one, that one is just added. -/
theorem charge_within (h : 27 ≤ b.remaining.toNat) (isRequest : Bool) :
    b.charge isRequest = b.spend ∧ b.spend.remaining.toNat = b.remaining.toNat - 13 := by
  have hle : addrLen ≤ b.remaining := by
    rw [UInt32.le_iff_toNat_le]
    exact Nat.le_trans (by decide) h
  have hrest : b.spend.remaining.toNat = b.remaining.toNat - 13 :=
    UInt32.toNat_sub_of_le _ _ hle
  refine ⟨?_, hrest⟩
  cases isRequest with
  | false => rfl
  | true =>
    refine if_neg fun hfull => ?_
    have hfull : b.spend.remaining.toNat ≤ 13 := hfull
    omega

/-- A table takes up to 37 charges whatever they are for. -/
theorem foldl_charge_within (l : List Bool) (h : 13 * l.length + 14 ≤ b.remaining.toNat) :
    ∃ remaining, l.foldl charge b = ⟨b.full, b.size + l.length, remaining⟩ ∧
      remaining.toNat = b.remaining.toNat - 13 * l.length := by
  induction l generalizing b with
  | nil => exact ⟨b.remaining, rfl, rfl⟩
  | cons isRequest l ih =>
    rw [List.length_cons] at h
    obtain ⟨hcharge, hrest⟩ := charge_within (b := b) (by omega) isRequest
    obtain ⟨remaining, hfold, hremaining⟩ := ih (b := b.spend) (by omega)
    refine ⟨remaining, ?_, ?_⟩
    · rw [List.foldl_cons, hcharge, hfold, List.length_cons]
      exact congrArg (Budget.mk b.full · remaining) (by simp only [spend]; omega)
    · rw [hremaining, hrest, List.length_cons]
      omega

/-- Some table has more entries than fit. -/
def Over (b : Budget) : Prop :=
  ∃ n ∈ b.tables, 38 < n

theorem over_iff_or : b.Over ↔ (∃ n ∈ b.full, 38 < n) ∨ 38 < b.size := by
  simp only [Over, tables, List.mem_append, or_and_right, exists_or, List.mem_singleton,
    exists_eq_left]

/-- The charge behind 38 entries is one too many, whether the table is closed then or not. -/
theorem over_charge (h : (∃ n ∈ b.full, 38 < n) ∨ 38 ≤ b.size) (isRequest : Bool) :
    (b.charge isRequest).Over := by
  have hcases : b.charge isRequest = b.spend ∨
      b.charge isRequest = ⟨b.full ++ [b.size + 1], 1, 505⟩ := by
    cases isRequest with
    | false => exact .inl rfl
    | true => exact (ite_eq_or_eq _ _ _).symm
  have hgrown : ∃ n ∈ b.full ++ [b.size + 1], 38 < n := by
    rcases h with ⟨n, hn, hlt⟩ | hsize
    · exact ⟨n, List.mem_append_left _ hn, hlt⟩
    · exact ⟨_, List.mem_append_right _ (List.mem_singleton_self _), by omega⟩
  rcases hcases with hcharge | hcharge
  · rw [hcharge]
    exact hgrown
  · rw [hcharge]
    obtain ⟨n, hn, hlt⟩ := hgrown
    exact ⟨n, List.mem_append_left _ hn, hlt⟩

theorem Over.charge (h : b.Over) (isRequest : Bool) : (b.charge isRequest).Over :=
  over_charge ((over_iff_or.mp h).imp_right Nat.le_of_lt) isRequest

theorem Over.foldl (h : b.Over) (l : List Bool) : (l.foldl Budget.charge b).Over := by
  induction l generalizing b with
  | nil => exact h
  | cons isRequest l ih => exact ih (h.charge isRequest)

/-- Behind 38 entries, any other one is too many. -/
theorem over_of_cons (h : 38 ≤ b.size) {l : List Bool} (hne : l ≠ []) :
    (l.foldl Budget.charge b).Over := by
  obtain ⟨isRequest, l, rfl⟩ := List.exists_cons_of_ne_nil hne
  exact (over_charge (.inr h) isRequest).foldl l

/-- A table that repeats a base is over with its 38th charge. -/
theorem over_repeated_iff (l : List Bool) :
    (l.foldl Budget.charge ⟨[38], 1, 505⟩).Over ↔ 37 < l.length := by
  by_cases hshort : l.length ≤ 37
  · obtain ⟨remaining, hfold, -⟩ := foldl_charge_within (b := ⟨[38], 1, 505⟩) l
      (by change _ ≤ 505; omega)
    rw [hfold, over_iff_or]
    simp only [List.mem_singleton, exists_eq_left]
    omega
  · obtain ⟨remaining, hfold, -⟩ := foldl_charge_within (b := ⟨[38], 1, 505⟩) (l.take 37)
      (by rw [List.length_take]; change _ ≤ 505; omega)
    have hrest : l.drop 37 ≠ [] := by
      rw [Ne, List.drop_eq_nil_iff]
      omega
    refine ⟨fun _ => by omega, fun _ => ?_⟩
    rw [← List.take_append_drop 37 l, List.foldl_append, hfold]
    refine over_of_cons ?_ hrest
    change 38 ≤ 1 + (l.take 37).length
    rw [List.length_take]
    omega

/-- The first table is closed behind its 38th entry if that is a request. -/
theorem over_iff (l : List Bool) :
    (l.foldl Budget.charge ⟨[], 0, 505⟩).Over ↔
      38 < l.length ∧ (l[37]? = some true → 75 < l.length) := by
  by_cases hshort : l.length ≤ 37
  · obtain ⟨remaining, hfold, -⟩ := foldl_charge_within (b := ⟨[], 0, 505⟩) l
      (by change _ ≤ 505; omega)
    refine iff_of_false ?_ fun h => absurd h.1 (by omega)
    rw [hfold, over_iff_or]
    rintro (⟨n, hn, -⟩ | hlong)
    · cases hn
    · dsimp only at hlong
      omega
  · have hlt : 37 < l.length := by omega
    have htake : (l.take 37).length = 37 := by
      rw [List.length_take]
      omega
    obtain ⟨remaining, hfold, hremaining⟩ := foldl_charge_within (b := ⟨[], 0, 505⟩) (l.take 37)
      (by rw [htake]; decide)
    rw [htake] at hfold hremaining
    obtain rfl : remaining = 24 := UInt32.toNat_inj.mp hremaining
    have hsplit : l = l.take 37 ++ l[37] :: l.drop 38 := by simp
    have hrest : (l.drop 38).length = l.length - 38 := List.length_drop
    have hrun : l.foldl Budget.charge ⟨[], 0, 505⟩ =
        (l.drop 38).foldl Budget.charge ((⟨[], 37, 24⟩ : Budget).charge l[37]) := by
      conv_lhs => rw [hsplit, List.foldl_append, hfold]
      rfl
    rw [hrun, List.getElem?_eq_getElem hlt]
    cases l[37] with
    | true =>
      have hclosed : (⟨[], 37, 24⟩ : Budget).charge true = ⟨[38], 1, 505⟩ := rfl
      rw [hclosed, over_repeated_iff, hrest]
      simp only [forall_const]
      omega
    | false =>
      have hopen : (⟨[], 37, 24⟩ : Budget).charge false = ⟨[], 38, 11⟩ := rfl
      rw [hopen]
      by_cases hnil : l.drop 38 = []
      · have hall : l.length ≤ 38 := List.drop_eq_nil_iff.mp hnil
        refine iff_of_false ?_ fun h => absurd h.1 (by omega)
        rw [hnil, List.foldl_nil, over_iff_or]
        simp
      · have hpos := List.length_pos_iff.mpr hnil
        refine ⟨fun _ => ⟨by omega, nofun⟩, fun _ => over_of_cons (Nat.le_refl 38) hnil⟩

end Budget

/-- Every request for a table fits. -/
def SplitsShort (table : ResolutionTable) : Prop :=
  ∀ t ∈ splitResolutionTable table,
    (commandText (resolveExportList t)).length ≤ MAXIMUM_SEND_LENGTH

theorem splitsShort_iff_not_over (table : ResolutionTable) :
    SplitsShort table ↔ ¬((marks table).foldl Budget.charge ⟨[], 0, 505⟩).Over := by
  have hfits (t : ResolutionTable) :
      (commandText (resolveExportList t)).length ≤ MAXIMUM_SEND_LENGTH ↔ ¬38 < entries t := by
    rw [length_commandText, MAXIMUM_SEND_LENGTH]
    omega
  unfold SplitsShort Budget.Over
  rw [← entries_splitResolutionTable]
  simp only [hfits, not_exists, not_and, List.forall_mem_map]

/-- Nothing but a single split behind a request is accounted for. -/
theorem splitsShort_iff (table : ResolutionTable) :
    SplitsShort table ↔
      entries table ≤ 38 ∨ entries table ≤ 75 ∧ (marks table)[37]? = some true := by
  rw [splitsShort_iff_not_over, Budget.over_iff, length_marks]
  by_cases hclosed : (marks table)[37]? = some true
  · simp only [hclosed, forall_const, and_true]
    omega
  · simp only [hclosed, false_imp_iff, and_true, and_false, or_false, not_lt]

/-- Of 75 imports from one module, the second request asks for 38. -/
theorem not_splitsShort_imports : ¬SplitsShort [(0xB0000000, List.replicate 75 ⟨1, 0⟩)] := by
  rw [splitsShort_iff_not_over, not_not, Budget.over_iff]
  decide

end Lengths

section Unknown

open Imports

variable {σ : Type} {names : Option (List (Bytes × UInt32))} {exportTable : List (UInt32 × UInt32)}
  {base : UInt32} {i : DXTLibraryImport} {front imports : List DXTLibraryImport} {s : Resolving σ}

/-- An import has been left alone, has no address, or has that of its own ordinal. -/
def Own (names : Option (List (Bytes × UInt32))) (exportTable : List (UInt32 × UInt32))
    (i i' : DXTLibraryImport) : Prop :=
  i' = i ∨ i' = withAddress 0 i ∨ ∃ o address, ordinalOf names i = some o ∧
    exportTable.lookup o = some address ∧ i' = withAddress address i

theorem Own.forall_refl (imports : List DXTLibraryImport) :
    List.Forall₂ (Own names exportTable) imports imports :=
  List.forall₂_same.mpr fun _ _ => .inl rfl

theorem ordinalFor_run (s : Resolving σ) :
    ordinalFor names i s = if ordinalOf names i = none ∧ names.isSome then .error .range
      else .ok (ordinalOf names i, s) := by
  unfold ordinalFor ordinalOf
  by_cases hname : i.importName = []
  · simp only [hname, if_true]
    rfl
  · simp only [hname, if_false]
    cases names with
    | none => rfl
    | some table =>
      cases hlookup : table.lookup i.importName with
      | none => simp [hlookup, Program.fault]
      | some o =>
        simp only [hlookup, Option.bind_some]
        rfl

/-- An import whose ordinal is known is given an address or 0, and queued in that case. -/
theorem collect_known (exportTable : List (UInt32 × UInt32)) (base : UInt32) {o : UInt32}
    (ho : ordinalOf names i = some o) (himports : s.imports = front ++ i :: imports)
    (others : List (DXTLibraryImport × Nat)) (table : ResolutionTable) :
    ∃ i' table', Own names exportTable i i' ∧
      collect names exportTable base ((i, front.length) :: others) table s =
        collect names exportTable base others table'
          { s with imports := (front ++ [i']) ++ imports } := by
  have hfor : ordinalFor names i s = .ok (some o, s) := by
    rw [ordinalFor_run, ho]
    exact if_neg nofun
  have hset (address : UInt32) : setAddress front.length address s =
      .ok ((), { s with imports := (front ++ [withAddress address i]) ++ imports }) := by
    change Except.ok ((), { s with imports := s.imports.modify front.length (withAddress address) }) = _
    rw [himports, modify_length_append, List.append_assoc]
    rfl
  rw [collect, Program.bind_of_ok hfor]
  dsimp only
  cases hcached : exportTable.lookup o with
  | some address =>
    exact ⟨withAddress address i, table, .inr (.inr ⟨o, address, ho, hcached, rfl⟩),
      Program.bind_of_ok (hset address) _⟩
  | none => exact ⟨withAddress 0 i, _, .inr (.inl rfl), Program.bind_of_ok (hset 0) _⟩

/-- Some import is named and its name is not found. -/
def Missing (names : Option (List (Bytes × UInt32))) (imports : List DXTLibraryImport) : Prop :=
  ∃ i ∈ imports, ordinalOf names i = none

theorem Missing.tail {o : UInt32} (h : Missing names (i :: imports)) (ho : ordinalOf names i = some o) :
    Missing names imports := by
  obtain ⟨j, hj, hnone⟩ := h
  rcases List.mem_cons.mp hj with rfl | hj
  · rw [ho] at hnone
    cases hnone
  · exact ⟨j, hj, hnone⟩

/-- With a table of names, the loop comes to dereference its end. -/
theorem collect_unknown (front : List DXTLibraryImport) {known : List (Bytes × UInt32)}
    (h : Missing (some known) imports) (himports : s.imports = front ++ imports) (table : ResolutionTable) :
    collect (some known) exportTable base (imports.zipIdx front.length) table s = .error .range := by
  induction imports generalizing front s table with
  | nil =>
    obtain ⟨i, hi, -⟩ := h
    cases hi
  | cons i imports ih =>
    rw [List.zipIdx_cons]
    cases ho : ordinalOf (some known) i with
    | none =>
      have hfor : ordinalFor (some known) i s = .error .range := by
        rw [ordinalFor_run, if_pos ⟨ho, rfl⟩]
      rw [collect, Program.bind_apply, hfor]
    | some o =>
      obtain ⟨i', table', -, hstep⟩ := collect_known exportTable base ho himports
        (imports.zipIdx (front.length + 1)) table
      have hrest := ih (front ++ [i']) (h.tail ho)
        (s := { s with imports := (front ++ [i']) ++ imports }) rfl table'
      rw [List.length_append] at hrest
      exact hstep.trans hrest

/-- Without one, it is given up at the first import that has a name. -/
theorem collect_unnamed (front : List DXTLibraryImport) (h : Missing none imports)
    (himports : s.imports = front ++ imports) (table : ResolutionTable) :
    ∃ imports', List.Forall₂ (Own none exportTable) imports imports' ∧
      collect none exportTable base (imports.zipIdx front.length) table s =
        .ok (none, { s with imports := front ++ imports' }) := by
  induction imports generalizing front s table with
  | nil =>
    obtain ⟨i, hi, -⟩ := h
    cases hi
  | cons i imports ih =>
    rw [List.zipIdx_cons]
    cases ho : ordinalOf none i with
    | none =>
      have hfor : ordinalFor none i s = .ok (none, s) := by
        rw [ordinalFor_run, if_neg nofun, ho]
      refine ⟨i :: imports, Own.forall_refl _, ?_⟩
      rw [collect, Program.bind_of_ok hfor, ← himports]
      rfl
    | some o =>
      obtain ⟨i', table', hown, hstep⟩ := collect_known exportTable base ho himports
        (imports.zipIdx (front.length + 1)) table
      obtain ⟨imports', hall, hrest⟩ := ih (front ++ [i']) (h.tail ho)
        (s := { s with imports := (front ++ [i']) ++ imports }) rfl table'
      rw [List.length_append] at hrest
      refine ⟨i' :: imports', .cons hown hall, ?_⟩
      rw [List.append_cons]
      exact hstep.trans hrest

/-- Every module with a base address has a table of exports: `FetchBaseAddress` enters both. -/
def Prepared (loader : Loader) : Prop :=
  ∀ name, (loader.moduleBaseAddresses.lookup name).isSome → (loader.moduleExports.lookup name).isSome

variable {send : Send σ} {getModule : Bytes → Option UInt32} {moduleName : Bytes}

/-- The base address is neither known nor to be had. -/
def Unavailable (getModule : Bytes → Option UInt32) (moduleName : Bytes) (loader : Loader) : Prop :=
  loader.moduleBaseAddresses.lookup moduleName = none ∧ getModule moduleName = none

theorem fetchBaseAddress_unavailable (h : Unavailable getModule moduleName s.loader) :
    fetchBaseAddress getModule moduleName s = .ok (false, s) := by
  unfold fetchBaseAddress
  rw [Program.get_bind_apply, h.1, h.2]
  rfl

theorem fetchBaseAddress_available (hloader : Prepared s.loader)
    (h : ¬Unavailable getModule moduleName s.loader) :
    ∃ loader exportTable, fetchBaseAddress getModule moduleName s = .ok (true, { s with loader }) ∧
      loader.moduleExportNames = s.loader.moduleExportNames ∧
      loader.moduleExports.lookup moduleName = some exportTable := by
  unfold fetchBaseAddress
  rw [Program.get_bind_apply]
  by_cases hknown : (s.loader.moduleBaseAddresses.lookup moduleName).isSome = true
  · obtain ⟨exportTable, hexports⟩ := Option.isSome_iff_exists.mp (hloader moduleName hknown)
    rw [if_pos hknown]
    exact ⟨s.loader, exportTable, rfl, rfl, hexports⟩
  · rw [if_neg hknown]
    cases hmodule : getModule moduleName with
    | none => exact absurd ⟨Option.not_isSome_iff_eq_none.mp hknown, hmodule⟩ h
    | some base => exact ⟨_, [], rfl, rfl, List.lookup_cons_self⟩

theorem prepared_fetchBaseAddress {s' : Resolving σ} {fetched : Bool} (hloader : Prepared s.loader)
    (h : fetchBaseAddress getModule moduleName s = .ok (fetched, s')) : Prepared s'.loader := by
  unfold fetchBaseAddress at h
  rw [Program.get_bind_apply] at h
  split at h
  · cases h
    exact hloader
  · cases hmodule : getModule moduleName with
    | none =>
      rw [hmodule] at h
      cases h
      exact hloader
    | some base =>
      rw [hmodule] at h
      cases h
      intro name hname
      by_cases heq : name = moduleName
      · rw [heq, List.lookup_cons_self]
        rfl
      · have hne : (name == moduleName) = false := beq_eq_false_iff_ne.mpr heq
        rw [List.lookup_cons, hne] at hname ⊢
        exact hloader name hname

section Refusing

variable {s : Resolving (σ × List (RDCPRequest × Reply))}

/-- If a name is unknown, imports are not resolved and nothing is sent, and no import has the address
of another export. -/
def Refuses (send : Send σ) (getModule : Bytes → Option UInt32) (moduleName : Bytes)
    (s : Resolving (σ × List (RDCPRequest × Reply))) : Prop :=
  Missing (s.loader.moduleExportNames.lookup moduleName) s.imports →
    ∃ s', resolveImports (recorded send) getModule moduleName s = .ok (false, s') ∧
      s'.remote.2 = s.remote.2 ∧
      List.Forall₂ (Own (s.loader.moduleExportNames.lookup moduleName)
        ((s'.loader.moduleExports.lookup moduleName).getD [])) s.imports s'.imports

theorem refuses_of_unavailable (h : Unavailable getModule moduleName s.loader) :
    Refuses send getModule moduleName s := by
  intro _
  refine ⟨s, ?_, rfl, Own.forall_refl _⟩
  rw [resolveImports, Program.bind_of_ok (fetchBaseAddress_unavailable h)]
  rfl

/-- When the base address is there, the loop over the imports decides whether they are refused. -/
theorem resolveImports_available (send : Send σ) (hloader : Prepared s.loader)
    (h : ¬Unavailable getModule moduleName s.loader) :
    ∃ loader exportTable base, loader.moduleExports.lookup moduleName = some exportTable ∧
      (∀ fault, collect (s.loader.moduleExportNames.lookup moduleName) exportTable base
          s.imports.zipIdx [] { s with loader } = .error fault →
        resolveImports (recorded send) getModule moduleName s = .error fault) ∧
      ∀ s', collect (s.loader.moduleExportNames.lookup moduleName) exportTable base
          s.imports.zipIdx [] { s with loader } = .ok (none, s') →
        resolveImports (recorded send) getModule moduleName s = .ok (false, s') := by
  obtain ⟨loader, exportTable, hfetch, hnames, hexports⟩ := fetchBaseAddress_available hloader h
  refine ⟨loader, exportTable, (loader.moduleBaseAddresses.lookup moduleName).getD 0, hexports, ?_, ?_⟩
  all_goals
    intro outcome hcollect
    rw [resolveImports, Program.bind_of_ok hfetch, if_pos rfl, Program.get_bind_apply]
    dsimp only
    rw [hexports, hnames]
    dsimp only
    rw [Program.bind_apply, hcollect]
  rfl

theorem refuses_iff (hloader : Prepared s.loader) :
    Refuses send getModule moduleName s ↔
      ¬Missing (s.loader.moduleExportNames.lookup moduleName) s.imports ∨
      s.loader.moduleExportNames.lookup moduleName = none ∨
      Unavailable getModule moduleName s.loader := by
  by_cases havailable : Unavailable getModule moduleName s.loader
  · exact iff_of_true (refuses_of_unavailable havailable) (.inr (.inr havailable))
  by_cases hmissing : Missing (s.loader.moduleExportNames.lookup moduleName) s.imports
  · obtain ⟨loader, exportTable, base, hexports, hfault, hrefuse⟩ :=
      resolveImports_available send hloader havailable
    cases hnames : s.loader.moduleExportNames.lookup moduleName with
    | none =>
      rw [hnames] at hmissing hrefuse
      obtain ⟨imports', hall, hcollect⟩ :=
        collect_unnamed [] (s := { s with loader }) hmissing rfl []
      refine iff_of_true (fun _ => ⟨_, hrefuse _ hcollect, rfl, ?_⟩) (.inr (.inl rfl))
      rw [hnames]
      dsimp only
      rw [hexports]
      exact hall
    | some known =>
      rw [hnames] at hmissing hfault
      have herror := hfault _ (collect_unknown [] (s := { s with loader }) hmissing rfl [])
      constructor
      · intro hrefuses
        obtain ⟨s', hrun, -⟩ := hrefuses (hnames ▸ hmissing)
        rw [herror] at hrun
        cases hrun
      · rintro (hfound | hnone | hunavailable)
        · exact absurd hmissing hfound
        · cases hnone
        · exact absurd hunavailable havailable
  · exact iff_of_true (fun h => absurd h hmissing) (.inl hmissing)

/-- A loader that knows one name of `xbdm.dll`, and an import by another name. -/
def unknownName : Resolving (Unit × List (RDCPRequest × Reply)) where
  loader :=
    { moduleBaseAddresses := [(ascii "xbdm.dll", 0xB0000000)]
      moduleExports := [(ascii "xbdm.dll", [])]
      moduleExportNames := [(ascii "xbdm.dll", [(ascii "DmFreePool", 9)])] }
  imports := [{ ordinal := 0, importName := ascii "DmFreePoolX" }]
  remote := ((), [])

theorem prepared_unknownName : Prepared unknownName.loader := by
  intro name hname
  change (List.lookup name [(ascii "xbdm.dll", (0xB0000000 : UInt32))]).isSome = true at hname
  change (List.lookup name [(ascii "xbdm.dll", ([] : List (UInt32 × UInt32)))]).isSome = true
  rw [List.lookup_cons] at hname ⊢
  split at hname
  · rfl
  · cases hname

theorem refuses_iff_otherModule :
    Refuses sameAddress (fun _ => none) (ascii "xboxkrnl.exe") unknownName :=
  (refuses_iff prepared_unknownName).mpr (.inr (.inl rfl))

theorem not_refuses_unknownName : ¬Refuses sameAddress (fun _ => none) (ascii "xbdm.dll") unknownName := by
  intro hrefuses
  obtain ⟨s', hrun, -⟩ := hrefuses ⟨_, List.mem_singleton_self _, rfl⟩
  have hfault : resolveImports (recorded sameAddress) (fun _ => none) (ascii "xbdm.dll") unknownName =
      .error .range := rfl
  rw [hfault] at hrun
  cases hrun

end Refusing

end Unknown

end XbdmGdbBridge.Proofs.Resolution
