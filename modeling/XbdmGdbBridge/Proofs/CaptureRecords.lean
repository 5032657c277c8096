import XbdmGdbBridge.Lib.Assoc
import XbdmGdbBridge.Proofs.CaptureStreams

/-!
# Parameters of captured commands

A command whose parameters follow it gets an id, and the map has its parameters under that id. The
log looks parameters up with `operator[]`, also for commands that have none in the stream; their id
is an address of the target, and looking it up adds an empty entry.
-/

namespace XbdmGdbBridge.Proofs.Captures

open Lib NTRCTracer

section Spec

variable (n : Nat) (ps : List Packet)

def heapCount : Nat :=
  (ps.filter fun p => p.info.hasHeapParameters).length

/-- The ids from `n` on, for the packets that have parameters. -/
def assigned : Nat → List Packet → List (UInt32 × List UInt32)
  | _, [] => []
  | n, p :: ps =>
    if p.info.hasHeapParameters then (UInt32.ofNat n, p.parameters) :: assigned (n + 1) ps
    else assigned n ps

/-- The commands as they are stored. -/
def stored : Nat → List Packet → List PushBufferCommandTraceInfo
  | _, [] => []
  | n, p :: ps =>
    if p.info.hasHeapParameters then p.info.withDataId (UInt32.ofNat n) :: stored (n + 1) ps
    else p.info :: stored n ps

theorem heapCount_cons (p : Packet) :
    heapCount (p :: ps) = (if p.info.hasHeapParameters then 1 else 0) + heapCount ps := by
  unfold heapCount
  rw [List.filter_cons]
  split
  · rw [List.length_cons, Nat.add_comm]
  · rw [Nat.zero_add]

theorem assigned_append (qs : List Packet) :
    assigned n (ps ++ qs) = assigned n ps ++ assigned (n + heapCount ps) qs := by
  induction ps generalizing n with
  | nil => rfl
  | cons p ps ih =>
    rw [List.cons_append, assigned, assigned, heapCount_cons]
    split
    · rw [ih, List.cons_append, Nat.add_assoc]
    · rw [ih, Nat.zero_add]

theorem stored_append (qs : List Packet) :
    stored n (ps ++ qs) = stored n ps ++ stored (n + heapCount ps) qs := by
  induction ps generalizing n with
  | nil => rfl
  | cons p ps ih =>
    rw [List.cons_append, stored, stored, heapCount_cons]
    split
    · rw [ih, List.cons_append, Nat.add_assoc]
    · rw [ih, List.cons_append, Nat.zero_add]

theorem assigned_keys :
    (assigned n ps).map Prod.fst = (List.range' n (heapCount ps)).map UInt32.ofNat := by
  induction ps generalizing n with
  | nil => rfl
  | cons p ps ih =>
    rw [assigned, heapCount_cons]
    split
    · rw [List.map_cons, ih, Nat.add_comm 1, List.range'_succ, List.map_cons]
    · rw [ih, Nat.zero_add]

/-- The entries belong to the stored commands that have parameters. -/
theorem assigned_eq :
    assigned n ps = ((ps.zip (stored n ps)).filter fun x => x.1.info.hasHeapParameters).map
      fun x => (x.2.data.dataId, x.1.parameters) := by
  induction ps generalizing n with
  | nil => rfl
  | cons p ps ih =>
    rw [assigned, stored]
    split
    next hheap => simp [hheap, ih, PushBufferCommandTraceInfo.withDataId]
    next hheap => simp [hheap, ih]

end Spec

section Lookup

variable {n : Nat} {ps : List Packet}

theorem nodup_keys (h : n + heapCount ps ≤ 2 ^ 32) : ((assigned n ps).map Prod.fst).Nodup := by
  rw [assigned_keys]
  refine List.Nodup.map_on ?_ List.nodup_range'
  intro i hi j hj hij
  have hi := List.mem_range'_1.mp hi
  have hj := List.mem_range'_1.mp hj
  have htoNat := congrArg UInt32.toNat hij
  rwa [UInt32.toNat_ofNat_of_lt' (by change i < 2 ^ 32; omega),
    UInt32.toNat_ofNat_of_lt' (by change j < 2 ^ 32; omega)] at htoNat

/-- The next id is not in use. -/
theorem lookup_next (h : n + heapCount ps < 2 ^ 32) :
    (assigned n ps).lookup (UInt32.ofNat (n + heapCount ps)) = none := by
  rw [List.lookup_eq_none_iff]
  intro entry hentry
  have hkey : entry.1 ∈ (assigned n ps).map Prod.fst := List.mem_map_of_mem hentry
  rw [assigned_keys] at hkey
  obtain ⟨i, hi, hkey⟩ := List.mem_map.mp hkey
  have hi := List.mem_range'_1.mp hi
  rw [← hkey, bne_iff_ne]
  intro heq
  have htoNat := congrArg UInt32.toNat heq
  rw [UInt32.toNat_ofNat_of_lt' h, UInt32.toNat_ofNat_of_lt' (by change i < 2 ^ 32; omega)] at htoNat
  omega

end Lookup

section Texts

theorem except_ite_ok_iff {ε α : Type} {c : Prop} [Decidable c] {x : Except ε α} {a : α} :
    (∃ b, (if c then x else .ok a) = .ok b) ↔ (c → ∃ b, x = .ok b) := by
  split <;> simp_all

theorem mapM_ok_iff {ε α β : Type} {f : α → Except ε β} {l : List α} :
    (∃ ys, l.mapM f = .ok ys) ↔ ∀ x ∈ l, ∃ y, f x = .ok y := by
  induction l with
  | nil => simp [pure, Except.pure]
  | cons x l ih =>
    rw [List.mapM_cons, except_bind_ok_iff, List.forall_mem_cons, ← ih]
    constructor
    · rintro ⟨y, hy, h⟩
      obtain ⟨ys, hys, -⟩ := except_bind_ok_iff.mp h
      exact ⟨⟨y, hy⟩, ys, hys⟩
    · rintro ⟨⟨y, hy⟩, ys, hys⟩
      exact ⟨y, hy, except_bind_ok_iff.mpr ⟨ys, hys, _, rfl⟩⟩

variable {packet : PushBufferCommandTraceInfo} {data : Option (List UInt32)} {verbose : Bool}

/-- There are as many words as the packet announces, or there is no pointer to them. -/
def Covers (packet : PushBufferCommandTraceInfo) (data : Option (List UInt32)) : Prop :=
  ∀ words ∈ data, packet.command.parameterCount.toNat ≤ words.length

theorem parameterAt_ok_iff {i : Nat} :
    (∃ param, parameterAt data i = .ok param) ↔ ∀ words ∈ data, i < words.length := by
  cases data with
  | none => simp [parameterAt]
  | some words =>
    by_cases h : i < words.length
    · simp [parameterAt, h]
    · simp [parameterAt, h]

theorem parameters_ok_iff {f : Nat → Option UInt32 → Except Fault Bytes}
    (hf : ∀ i param, ∃ text, f i param = .ok text) :
    (∃ texts, (List.range packet.command.parameterCount.toNat).mapM
      (fun i => parameterAt data i >>= f i) = .ok texts) ↔ Covers packet data := by
  have hread : ∀ i, (∃ text, (parameterAt data i >>= f i) = .ok text) ↔
      ∀ words ∈ data, i < words.length := by
    intro i
    rw [← parameterAt_ok_iff, except_bind_ok_iff]
    exact exists_congr fun param => and_iff_left (hf i param)
  simp only [mapM_ok_iff, hread, List.mem_range]
  constructor
  · intro h words hwords
    by_contra hlt
    exact absurd (h words.length (by omega) words hwords) (lt_irrefl _)
  · intro h i hi words hwords
    exact hi.trans_le (h words hwords)

/-- The loops over the parameters come to their end. -/
def Countable (packet : PushBufferCommandTraceInfo) : Prop :=
  packet.command.parameterCount.toNat < 2 ^ 31

theorem countTo_ok_iff :
    (∃ done, countTo packet.command.parameterCount = .ok done) ↔ Countable packet := by
  unfold countTo Countable
  split <;> simp_all

theorem methodTexts_ok_iff :
    (∃ text, methodTexts packet data = .ok text) ↔ Covers packet data ∧ Countable packet := by
  unfold methodTexts
  rw [except_bind_ok_iff, ← countTo_ok_iff, ← parameters_ok_iff fun i param => ⟨_, rfl⟩,
    ← exists_and_right]
  refine exists_congr fun texts => and_congr_right fun _ => ?_
  rw [except_bind_ok_iff]
  exact exists_congr fun done => and_iff_left ⟨_, rfl⟩

theorem parameterTexts_ok_iff : (∃ text, parameterTexts packet data = .ok text) ↔
    Covers packet data ∧ (data.isSome = true → Countable packet) := by
  unfold parameterTexts
  rw [except_bind_ok_iff, ← countTo_ok_iff, ← parameters_ok_iff fun i param => ?_,
    ← exists_and_right]
  · refine exists_congr fun texts => and_congr_right fun _ => ?_
    dsimp only
    by_cases h : data.isSome = true
    · rw [if_pos h, except_bind_ok_iff, imp_iff_right h]
      exact exists_congr fun done => and_iff_left ⟨_, rfl⟩
    · rw [if_neg h]
      exact iff_of_true ⟨_, rfl⟩ fun h' => absurd h' h
  · cases param with
    | none => exact ⟨_, rfl⟩
    | some value => exact ⟨_, rfl⟩

theorem detailedText_ok_iff : (∃ text, detailedText packet data = .ok text) ↔
    Covers packet data ∧ (data.isSome = true → Countable packet) := by
  unfold detailedText
  rw [except_bind_ok_iff, ← parameterTexts_ok_iff]
  exact exists_congr fun texts => and_iff_left ⟨_, rfl⟩

/-- Nothing is read behind the words as long as there are enough of them, or none is read; and the
loops do not count too far. -/
theorem packetText_ok_iff : (∃ text, packetText packet verbose data = .ok text) ↔
    (packet.command.valid ≠ 0 → Covers packet data ∧ Countable packet) ∧
    (verbose = true → Covers packet data ∧ (data.isSome = true → Countable packet)) := by
  unfold packetText
  rw [except_bind_ok_iff, ← methodTexts_ok_iff, ← except_ite_ok_iff, ← detailedText_ok_iff,
    ← except_ite_ok_iff, ← exists_and_right]
  refine exists_congr fun methods => and_congr_right fun _ => ?_
  rw [except_bind_ok_iff]
  exact exists_congr fun details => and_iff_left ⟨_, rfl⟩

theorem packetText_countable_iff (hcount : Countable packet) :
    (∃ text, packetText packet verbose data = .ok text) ↔
      (packet.command.valid ≠ 0 ∨ verbose = true → Covers packet data) := by
  rw [packetText_ok_iff, and_iff_left hcount, and_iff_left fun _ => hcount, or_imp]

end Texts

section Steps

variable {packet : PushBufferCommandTraceInfo} {r r' : Records} {id : UInt32} {words : List UInt32}

theorem emplace_of_some (h : r.pgraphParameterMap.lookup id = some words) (other : List UInt32) :
    r.emplace id other = r := by
  rw [Records.emplace, if_pos (by rw [h]; rfl)]

theorem emplace_of_none (h : r.pgraphParameterMap.lookup id = none) :
    r.emplace id words = { r with pgraphParameterMap := r.pgraphParameterMap ++ [(id, words)] } := by
  rw [Records.emplace, if_neg (by rw [h]; decide)]

theorem logData_small (h : packet.data.dataState = PBCPDS_SMALL_BUFFER) :
    logData packet r = (some packet.data.buffer, r) := by
  unfold logData
  rw [if_pos h]
  rfl

theorem logData_heap (h : packet.data.dataState = PBCPDS_HEAP_BUFFER) :
    logData packet r =
      (if (r.emplace packet.data.dataId []).parametersAt packet.data.dataId = [] then none
        else some ((r.emplace packet.data.dataId []).parametersAt packet.data.dataId),
        r.emplace packet.data.dataId []) := by
  have hsmall : packet.data.dataState ≠ PBCPDS_SMALL_BUFFER := by
    rw [h]
    decide
  unfold logData
  rw [if_neg hsmall, if_pos h]
  rfl

theorem logData_known (h : packet.data.dataState = PBCPDS_HEAP_BUFFER)
    (hknown : r.pgraphParameterMap.lookup packet.data.dataId = some words) (hne : words ≠ []) :
    logData packet r = (some words, r) := by
  rw [logData_heap h, emplace_of_some hknown, Records.parametersAt, hknown, Option.getD_some,
    if_neg hne]

theorem logData_unknown (h : packet.data.dataState = PBCPDS_HEAP_BUFFER)
    (hunknown : r.pgraphParameterMap.lookup packet.data.dataId = none) :
    logData packet r = (none, { r with
      pgraphParameterMap := r.pgraphParameterMap ++ [(packet.data.dataId, [])] }) := by
  have hentry : (r.pgraphParameterMap ++ [(packet.data.dataId, [])]).lookup packet.data.dataId =
      some ([] : List UInt32) := by
    simp [List.lookup_append, hunknown]
  rw [logData_heap h, emplace_of_none hunknown, Records.parametersAt, hentry]
  rfl

theorem logData_none (hsmall : packet.data.dataState ≠ PBCPDS_SMALL_BUFFER)
    (hheap : packet.data.dataState ≠ PBCPDS_HEAP_BUFFER) : logData packet r = (none, r) := by
  unfold logData
  rw [if_neg hsmall, if_neg hheap]
  rfl

theorem logPacket_ok {data : Option (List UInt32)} {text : Bytes}
    (hdata : logData packet r = (data, r'))
    (htext : packetText packet r'.verboseLogging data = .ok text) :
    logPacket packet r = .ok ((), { r' with nv2aLog := r'.nv2aLog ++ text }) := by
  unfold logPacket
  rw [Program.bind_total, hdata, Program.get_bind_apply, htext]
  rfl

theorem assignId_run (hid : r.nextFreeId < 0xFFFFFFFF) :
    assignId packet words r = .ok (packet.withDataId r.nextFreeId,
      { r with nextFreeId := r.nextFreeId + 1 }.emplace r.nextFreeId words) := by
  unfold assignId
  rw [Program.get_bind_apply, if_neg (UInt32.not_le.mpr hid)]
  rfl

theorem assignId_ok (hid : r.nextFreeId < 0xFFFFFFFF)
    (hnew : r.pgraphParameterMap.lookup r.nextFreeId = none) :
    assignId packet words r = .ok (packet.withDataId r.nextFreeId, { r with
      pgraphParameterMap := r.pgraphParameterMap ++ [(r.nextFreeId, words)]
      nextFreeId := r.nextFreeId + 1 }) := by
  rw [assignId_run hid]
  exact congrArg (fun r' => Except.ok (packet.withDataId r.nextFreeId, r'))
    (emplace_of_none (show ({ r with nextFreeId := r.nextFreeId + 1 } : Records).pgraphParameterMap.lookup
      r.nextFreeId = none from hnew))

theorem assignId_error (hid : 0xFFFFFFFF ≤ r.nextFreeId) :
    assignId packet words r = .error .assertion := by
  unfold assignId
  rw [Program.get_bind_apply, if_pos hid]
  rfl

theorem logPacket_of_error {data : Option (List UInt32)} {e : Fault}
    (hdata : logData packet r = (data, r'))
    (htext : packetText packet r'.verboseLogging data = .error e) :
    logPacket packet r = .error e := by
  unfold logPacket
  rw [Program.bind_total, hdata, Program.get_bind_apply, htext]
  rfl

theorem logPacket_error {data : Option (List UInt32)} (hdata : logData packet r = (data, r'))
    (htext : ¬∃ text, packetText packet r'.verboseLogging data = .ok text) :
    ∃ e, logPacket packet r = .error e := by
  cases h : packetText packet r'.verboseLogging data with
  | error e => exact ⟨e, logPacket_of_error hdata h⟩
  | ok text => exact absurd ⟨text, h⟩ htext

theorem logPacket_of_ok (h : logPacket packet r = .ok ((), r')) :
    ∃ text, r' = { (logData packet r).2 with nv2aLog := (logData packet r).2.nv2aLog ++ text } := by
  unfold logPacket at h
  rw [Program.bind_total, Program.get_bind_apply] at h
  cases htext : packetText packet (logData packet r).2.verboseLogging (logData packet r).1 with
  | error e =>
    rw [htext] at h
    cases h
  | ok text =>
    rw [htext] at h
    cases h
    exact ⟨text, rfl⟩

end Steps

/-- A packet has as many parameters as it announces, and not too many. -/
structure Packet.Complete (p : Packet) : Prop where
  parameters : p.info.hasHeapParameters = true →
    p.parameters.length = p.info.command.parameterCount.toNat
  countable : Countable p.info

theorem parameters_ne_nil {p : Packet}
    (hlength : p.parameters.length = p.info.command.parameterCount.toNat)
    (hheap : p.info.hasHeapParameters = true) : p.parameters ≠ [] := by
  intro hnil
  rw [hnil, List.length_nil] at hlength
  have hzero : p.info.command.parameterCount = 0 := UInt32.toNat_inj.mp hlength.symm
  simp [PushBufferCommandTraceInfo.hasHeapParameters, hzero] at hheap

/-- The text for a packet shows the parameters that followed it. -/
def Shows (verbose : Bool) (p : Packet) (text : Bytes) : Prop :=
  p.info.hasHeapParameters = true → packetText p.info verbose (some p.parameters) = .ok text

/-- The records are those of the packets: ids from `n` on, the parameters under them, and a log. -/
structure Follows (n : Nat) (verbose : Bool) (log : Bytes) (ps : List Packet) (r : Records) :
    Prop where
  complete : ∀ p ∈ ps, p.Complete
  entries : r.pgraphParameterMap = assigned n ps
  commands : r.pgraphCommands = stored n ps
  nextId : r.nextFreeId = UInt32.ofNat (n + heapCount ps)
  bound : n + heapCount ps < 2 ^ 32
  mode : r.verboseLogging = verbose
  logged : ∃ texts, r.nv2aLog = log ++ texts.flatten ∧ List.Forall₂ (Shows verbose) ps texts

/-- A valid command whose parameters should be on the heap but do not follow it has none. -/
theorem count_eq_zero {packet : PushBufferCommandTraceInfo}
    (hstate : packet.data.dataState = PBCPDS_HEAP_BUFFER) (hheap : packet.hasHeapParameters = false)
    (hvalid : packet.command.valid ≠ 0) : packet.command.parameterCount.toNat = 0 := by
  simp [PushBufferCommandTraceInfo.hasHeapParameters, hstate, hvalid] at hheap
  rw [hheap]
  rfl

/-- A packet that is of use behind `earlier`: there is an id for its parameters; an id of parameters
that do not follow it was given to an earlier packet, with as many parameters as are read; and what
is in the packet itself is not more than there is room for. -/
structure Admissible (n : Nat) (verbose : Bool) (earlier : List Packet) (p : Packet) : Prop where
  id : p.info.hasHeapParameters = true → n + heapCount earlier < 0xFFFFFFFF
  known : p.info.data.dataState = PBCPDS_HEAP_BUFFER → p.info.hasHeapParameters = false →
    ∃ words, (p.info.data.dataId, words) ∈ assigned n earlier ∧
      (verbose = true → p.info.command.parameterCount.toNat ≤ words.length)
  room : p.info.data.dataState = PBCPDS_SMALL_BUFFER →
    p.info.command.valid ≠ 0 ∨ verbose = true → p.info.command.parameterCount.toNat ≤ 4

section Following

variable {n : Nat} {verbose : Bool} {log : Bytes} {ps : List Packet} {p : Packet} {r : Records}

theorem heapCount_append (qs : List Packet) : heapCount (ps ++ qs) = heapCount ps + heapCount qs := by
  simp [heapCount]

theorem heapCount_singleton (p : Packet) :
    heapCount [p] = if p.info.hasHeapParameters then 1 else 0 := by
  rw [heapCount_cons]
  rfl

theorem heap_state {packet : PushBufferCommandTraceInfo} (h : packet.hasHeapParameters = true) :
    packet.data.dataState = PBCPDS_HEAP_BUFFER := by
  simp [PushBufferCommandTraceInfo.hasHeapParameters] at h
  exact h.1.2

theorem assigned_ne_nil (hcomplete : ∀ p ∈ ps, p.Complete) {id : UInt32} {words : List UInt32}
    (h : (id, words) ∈ assigned n ps) : words ≠ [] := by
  rw [assigned_eq] at h
  obtain ⟨⟨p, command⟩, hmem, heq⟩ := List.mem_map.mp h
  obtain ⟨hzip, hheap⟩ := List.mem_filter.mp hmem
  obtain ⟨-, rfl⟩ := Prod.mk.inj heq
  exact parameters_ne_nil ((hcomplete p (List.of_mem_zip hzip).1).parameters hheap) hheap

theorem follows_plain (h : Follows n verbose log ps r) (hcomplete : p.Complete)
    (hp : p.info.hasHeapParameters = false) (text : Bytes) :
    Follows n verbose log (ps ++ [p]) { r with
      pgraphCommands := r.pgraphCommands ++ [p.info]
      nv2aLog := r.nv2aLog ++ text } := by
  have hcount : heapCount (ps ++ [p]) = heapCount ps := by
    rw [heapCount_append, heapCount_singleton, hp]
    rfl
  obtain ⟨texts, htexts, hshows⟩ := h.logged
  constructor
  case complete =>
    intro q hq
    rcases List.mem_append.mp hq with hq | hq
    · exact h.complete q hq
    · obtain rfl := List.mem_singleton.mp hq
      exact hcomplete
  case entries => simp [assigned_append, assigned, hp, h.entries]
  case commands => simp [stored_append, stored, hp, h.commands]
  case nextId => rw [hcount]; exact h.nextId
  case bound => rw [hcount]; exact h.bound
  case mode => exact h.mode
  case logged =>
    refine ⟨texts ++ [text], ?_, List.rel_append hshows (.cons ?_ .nil)⟩
    · simp [htexts]
    · intro hheap
      rw [hp] at hheap
      cases hheap

theorem lookup_entry (h : Follows n verbose log ps r) {id : UInt32} {words : List UInt32}
    (hmem : (id, words) ∈ assigned n ps) : r.pgraphParameterMap.lookup id = some words := by
  rw [h.entries]
  exact lookup_of_mem (nodup_keys h.bound.le) hmem

theorem follows_heap (h : Follows n verbose log ps r) (hp : p.info.hasHeapParameters = true)
    (hcomplete : p.Complete) (hid : n + heapCount ps < 0xFFFFFFFF) {text : Bytes}
    (htext : packetText p.info verbose (some p.parameters) = .ok text) :
    Follows n verbose log (ps ++ [p]) { r with
      pgraphParameterMap := r.pgraphParameterMap ++ [(r.nextFreeId, p.parameters)]
      pgraphCommands := r.pgraphCommands ++ [p.info.withDataId r.nextFreeId]
      nextFreeId := r.nextFreeId + 1
      nv2aLog := r.nv2aLog ++ text } := by
  have hcount : heapCount (ps ++ [p]) = heapCount ps + 1 := by
    rw [heapCount_append, heapCount_singleton, hp]
    rfl
  obtain ⟨texts, htexts, hshows⟩ := h.logged
  constructor
  case complete =>
    intro q hq
    rcases List.mem_append.mp hq with hq | hq
    · exact h.complete q hq
    · obtain rfl := List.mem_singleton.mp hq
      exact hcomplete
  case entries => simp [assigned_append, assigned, hp, h.entries, h.nextId]
  case commands => simp [stored_append, stored, hp, h.commands, h.nextId]
  case nextId =>
    rw [hcount, ← Nat.add_assoc, UInt32.ofNat_add, ← h.nextId]
    rfl
  case bound =>
    rw [hcount]
    omega
  case mode => exact h.mode
  case logged =>
    refine ⟨texts ++ [text], ?_, List.rel_append hshows (.cons (fun _ => htext) .nil)⟩
    simp [htexts]

theorem Follows.toNat_nextId (h : Follows n verbose log ps r) :
    r.nextFreeId.toNat = n + heapCount ps := by
  rw [h.nextId]
  exact UInt32.toNat_ofNat_of_lt' h.bound

theorem capturePacket_heap (h : Follows n verbose log ps r)
    (hp : p.info.hasHeapParameters = true) (hcomplete : p.Complete)
    (hid : n + heapCount ps < 0xFFFFFFFF) :
    ∃ r', capturePacket p r = .ok ((), r') ∧ Follows n verbose log (ps ++ [p]) r' := by
  have hstate := heap_state hp
  have hcovers : Covers p.info (some p.parameters) := by
    rintro words ⟨⟩
    exact (hcomplete.parameters hp).ge
  obtain ⟨text, htext⟩ := (packetText_countable_iff hcomplete.countable).mpr fun _ : _ ∨ verbose = true => hcovers
  have hne := parameters_ne_nil (hcomplete.parameters hp) hp
  have hnew : r.pgraphParameterMap.lookup r.nextFreeId = none := by
    rw [h.entries, h.nextId]
    exact lookup_next h.bound
  have hless : r.nextFreeId < 0xFFFFFFFF := UInt32.lt_iff_toNat_lt.mpr (h.toNat_nextId ▸ hid)
  refine ⟨_, ?_, follows_heap h hp hcomplete hid htext⟩
  rw [capturePacket, if_pos hp, Program.bind_of_ok (assignId_ok hless hnew)]
  refine logPacket_ok (logData_known ?_ ?_ hne) ?_
  · exact hstate
  · simp [PushBufferCommandTraceInfo.withDataId, List.lookup_append, hnew]
  · rw [← h.mode] at htext
    exact htext

/-- A packet without parameters of its own is stored as it is. -/
theorem capturePacket_plain (h : Follows n verbose log ps r) (hcomplete : p.Complete)
    (hp : p.info.hasHeapParameters = false) {data : Option (List UInt32)}
    (hdata : logData p.info { r with pgraphCommands := r.pgraphCommands ++ [p.info] } =
      (data, { r with pgraphCommands := r.pgraphCommands ++ [p.info] })) :
    (p.info.command.valid ≠ 0 ∨ verbose = true → Covers p.info data) →
      ∃ r', capturePacket p r = .ok ((), r') ∧ Follows n verbose log (ps ++ [p]) r' := by
  intro hcovers
  obtain ⟨text, htext⟩ := (packetText_countable_iff hcomplete.countable).mpr hcovers
  rw [← h.mode] at htext
  refine ⟨_, ?_, follows_plain h hcomplete hp text⟩
  rw [capturePacket, if_neg (by simp [hp])]
  exact logPacket_ok hdata htext

theorem capturePacket_follows (h : Follows n verbose log ps r) (hcomplete : p.Complete)
    (hp : Admissible n verbose ps p) :
    ∃ r', capturePacket p r = .ok ((), r') ∧ Follows n verbose log (ps ++ [p]) r' := by
  cases hheap : p.info.hasHeapParameters with
  | true => exact capturePacket_heap h hheap hcomplete (hp.id hheap)
  | false =>
    by_cases hsmall : p.info.data.dataState = PBCPDS_SMALL_BUFFER
    · refine capturePacket_plain h hcomplete hheap (logData_small hsmall) fun hread => ?_
      rintro words ⟨⟩
      exact hp.room hsmall hread
    by_cases hstate : p.info.data.dataState = PBCPDS_HEAP_BUFFER
    · obtain ⟨words, hmem, hlength⟩ := hp.known hstate hheap
      have hknown := lookup_entry h hmem
      have hne := assigned_ne_nil h.complete hmem
      refine capturePacket_plain h hcomplete hheap (logData_known hstate hknown hne) fun hread => ?_
      rintro words ⟨⟩
      by_cases hvalid : p.info.command.valid ≠ 0
      · rw [count_eq_zero hstate hheap hvalid]
        exact Nat.zero_le _
      · exact hlength (hread.resolve_left hvalid)
    · refine capturePacket_plain h hcomplete hheap (logData_none hsmall hstate) fun _ => ?_
      rintro words ⟨⟩

/-- An entry without parameters. -/
def Broken (r : Records) : Prop :=
  ∃ id, r.pgraphParameterMap.lookup id = some []

theorem admissible_heap (hheap : p.info.hasHeapParameters = true)
    (hid : n + heapCount ps < 0xFFFFFFFF) : Admissible n verbose ps p := by
  refine ⟨fun _ => hid, fun _ hfalse => ?_, fun hsmall => ?_⟩
  · rw [hheap] at hfalse
    cases hfalse
  · rw [heap_state hheap] at hsmall
    exact absurd hsmall (by decide)

theorem admissible_small (hsmall : p.info.data.dataState = PBCPDS_SMALL_BUFFER)
    (hcovers : p.info.command.valid ≠ 0 ∨ verbose = true →
      Covers p.info (some p.info.data.buffer)) : Admissible n verbose ps p := by
  refine ⟨fun hheap => ?_, fun hstate => ?_, fun _ hread => hcovers hread _ rfl⟩
  · rw [heap_state hheap] at hsmall
    exact absurd hsmall (by decide)
  · rw [hsmall] at hstate
    exact absurd hstate (by decide)

theorem admissible_stray (hstate : p.info.data.dataState = PBCPDS_HEAP_BUFFER)
    (hheap : p.info.hasHeapParameters = false) {words : List UInt32}
    (hmem : (p.info.data.dataId, words) ∈ assigned n ps)
    (hcovers : p.info.command.valid ≠ 0 ∨ verbose = true → Covers p.info (some words)) :
    Admissible n verbose ps p := by
  refine ⟨fun htrue => ?_, fun _ _ => ⟨words, hmem, fun hverbose => ?_⟩, fun hsmall => ?_⟩
  · rw [hheap] at htrue
    cases htrue
  · exact hcovers (.inr hverbose) words rfl
  · rw [hstate] at hsmall
    exact absurd hsmall (by decide)

theorem admissible_other (hsmall : p.info.data.dataState ≠ PBCPDS_SMALL_BUFFER)
    (hstate : p.info.data.dataState ≠ PBCPDS_HEAP_BUFFER) : Admissible n verbose ps p :=
  ⟨fun hheap => absurd (heap_state hheap) hstate, fun h => absurd h hstate, fun h => absurd h hsmall⟩

/-- A packet that is not admissible ends the process or leaves an entry without parameters. -/
theorem capturePacket_breaks (h : Follows n verbose log ps r) (hcomplete : p.Complete)
    (hp : ¬Admissible n verbose ps p) :
    (∃ e, capturePacket p r = .error e) ∨ ∃ r', capturePacket p r = .ok ((), r') ∧ Broken r' := by
  cases hheap : p.info.hasHeapParameters with
  | true =>
    have hid : 0xFFFFFFFF ≤ r.nextFreeId := by
      by_contra hless
      refine hp (admissible_heap hheap ?_)
      rw [← h.toNat_nextId]
      exact UInt32.lt_iff_toNat_lt.mp (UInt32.not_le.mp hless)
    refine .inl ⟨.assertion, ?_⟩
    rw [capturePacket, if_pos hheap, Program.bind_apply, assignId_error hid]
  | false =>
    have hcapture : capturePacket p r =
        logPacket p.info { r with pgraphCommands := r.pgraphCommands ++ [p.info] } := by
      rw [capturePacket, if_neg (by simp [hheap])]
      rfl
    rw [hcapture]
    by_cases hsmall : p.info.data.dataState = PBCPDS_SMALL_BUFFER
    · refine .inl (logPacket_error (logData_small hsmall) fun htext => hp ?_)
      exact admissible_small hsmall (h.mode ▸ (packetText_countable_iff hcomplete.countable).mp htext)
    have hstate : p.info.data.dataState = PBCPDS_HEAP_BUFFER := by
      by_contra hother
      exact hp (admissible_other hsmall hother)
    cases hlookup : r.pgraphParameterMap.lookup p.info.data.dataId with
    | none =>
      -- The empty entry is there from now on.
      obtain ⟨text, htext⟩ := (@packetText_countable_iff p.info none r.verboseLogging
        hcomplete.countable).mpr fun _ words hnone => by cases hnone
      refine .inr ⟨_, logPacket_ok (logData_unknown hstate hlookup) htext, p.info.data.dataId, ?_⟩
      simp [List.lookup_append, hlookup]
    | some words =>
      have hmem : (p.info.data.dataId, words) ∈ assigned n ps := by
        rw [← h.entries]
        obtain ⟨front, back, heq, -⟩ := List.lookup_eq_some_iff.mp hlookup
        rw [heq]
        simp
      have hne := assigned_ne_nil h.complete hmem
      refine .inl (logPacket_error (logData_known hstate hlookup hne) fun htext => hp ?_)
      exact admissible_stray hstate hheap hmem (h.mode ▸ (packetText_countable_iff hcomplete.countable).mp htext)

end Following

section Entries

/-- Entries of the map are never changed or removed. -/
def KeepsEntries (r r' : Records) : Prop :=
  ∀ id words, r.pgraphParameterMap.lookup id = some words →
    r'.pgraphParameterMap.lookup id = some words

theorem KeepsEntries.trans (r r' r'' : Records) (h : KeepsEntries r r') (h' : KeepsEntries r' r'') :
    KeepsEntries r r'' :=
  fun id words hlookup => h' id words (h id words hlookup)

theorem keepsEntries_emplace (r : Records) (id : UInt32) (words : List UInt32) :
    KeepsEntries r (r.emplace id words) := by
  intro other values h
  unfold Records.emplace
  split
  · exact h
  · simp [List.lookup_append, h]

theorem keepsEntries_logData (packet : PushBufferCommandTraceInfo) (r : Records) :
    KeepsEntries r (logData packet r).2 := by
  by_cases hsmall : packet.data.dataState = PBCPDS_SMALL_BUFFER
  · rw [logData_small hsmall]
    exact fun _ _ => id
  by_cases hstate : packet.data.dataState = PBCPDS_HEAP_BUFFER
  · rw [logData_heap hstate]
    exact keepsEntries_emplace _ _ _
  · rw [logData_none hsmall hstate]
    exact fun _ _ => id

theorem within_modify {f : Records → Records} (h : ∀ r, KeepsEntries r (f r)) :
    Program.Within KeepsEntries (modify f : Program Fault Records Unit) :=
  Program.Within.total (x := modify f) h

theorem within_storePacket (packet : PushBufferCommandTraceInfo) :
    Program.Within KeepsEntries (storePacket packet) := by
  refine .bind (within_modify fun r => fun _ _ => id) (fun _ => ?_) KeepsEntries.trans
  intro r _ r' h
  obtain ⟨text, rfl⟩ := logPacket_of_ok h
  exact keepsEntries_logData packet r

theorem within_capturePacket (p : Packet) : Program.Within KeepsEntries (capturePacket p) := by
  refine .ite (.bind ?_ (fun packet => within_storePacket packet) KeepsEntries.trans)
    (within_storePacket _)
  intro r packet r' h
  unfold assignId at h
  rw [Program.get_bind_apply] at h
  split at h
  · cases h
  · cases h
    exact keepsEntries_emplace { r with nextFreeId := r.nextFreeId + 1 } _ _

theorem within_capture (ps : List Packet) : Program.Within KeepsEntries (capture ps) := by
  induction ps with
  | nil => exact .pure (fun _ _ _ => id) ()
  | cons p ps ih => exact .bind (within_capturePacket p) (fun _ => ih) KeepsEntries.trans

end Entries

theorem capture_singleton (p : Packet) : capture [p] = capturePacket p :=
  bind_pure_unit

section Runs

variable {n : Nat} {verbose : Bool} {log : Bytes} {ps : List Packet} {r : Records}

/-- Every packet is admissible behind those in front of it. -/
def AllAdmissible (n : Nat) (verbose : Bool) (ps : List Packet) : Prop :=
  ∀ front p back, ps = front ++ p :: back → Admissible n verbose front p

theorem allAdmissible_append {p : Packet} :
    AllAdmissible n verbose (ps ++ [p]) ↔
      AllAdmissible n verbose ps ∧ Admissible n verbose ps p := by
  constructor
  · intro h
    refine ⟨fun front q back heq => h front q (back ++ [p]) ?_, h ps p [] rfl⟩
    rw [heq, List.append_assoc, List.cons_append]
  · rintro ⟨h, hp⟩ front q back heq
    rcases List.eq_nil_or_concat back with rfl | ⟨back, last, rfl⟩
    · obtain ⟨rfl, hq⟩ := List.append_inj' heq rfl
      obtain rfl := List.singleton_inj.mp hq
      exact hp
    · have heq' : ps ++ [p] = (front ++ q :: back) ++ [last] := by
        rw [heq]
        simp
      exact h front q back (List.append_inj' heq' rfl).1

/-- Along packets that are admissible the records are those of the packets; otherwise the process
ends or there is an entry without parameters. -/
theorem capture_spec (h : Follows n verbose log [] r) (hcomplete : ∀ p ∈ ps, p.Complete) :
    (AllAdmissible n verbose ps → ∃ r', capture ps r = .ok ((), r') ∧ Follows n verbose log ps r') ∧
    (¬AllAdmissible n verbose ps →
      (∃ e, capture ps r = .error e) ∨ ∃ r', capture ps r = .ok ((), r') ∧ Broken r') := by
  induction ps using List.reverseRecOn with
  | nil =>
    refine ⟨fun _ => ⟨r, rfl, h⟩, fun hnot => absurd ?_ hnot⟩
    intro front p back heq
    simp at heq
  | append_singleton ps p ih =>
    obtain ⟨ihgood, ihbad⟩ := ih fun q hq => hcomplete q (by simp [hq])
    rw [allAdmissible_append, capture_append]
    constructor
    · rintro ⟨hps, hp⟩
      obtain ⟨r₁, hrun, hfollows⟩ := ihgood hps
      obtain ⟨r₂, hstep, hfollows⟩ := capturePacket_follows hfollows (hcomplete p (by simp)) hp
      refine ⟨r₂, ?_, hfollows⟩
      rw [Program.bind_of_ok hrun, capture_singleton, hstep]
    · intro hnot
      by_cases hps : AllAdmissible n verbose ps
      · obtain ⟨r₁, hrun, hfollows⟩ := ihgood hps
        rw [Program.bind_of_ok hrun, capture_singleton]
        exact capturePacket_breaks hfollows (hcomplete p (by simp)) fun hp => hnot ⟨hps, hp⟩
      · rcases ihbad hps with ⟨e, hrun⟩ | ⟨r₁, hrun, id, hbroken⟩
        · rw [Program.bind_apply, hrun]
          exact .inl ⟨e, rfl⟩
        · rw [Program.bind_of_ok hrun]
          cases hstep : capture [p] r₁ with
          | error e => exact .inl ⟨e, rfl⟩
          | ok result => exact .inr ⟨result.2, rfl, id, within_capture _ _ _ _ hstep _ _ hbroken⟩

/-- What the capture has of the packets of a stream: the keys of the map are the ids of the stored
commands that had parameters, each has its own, and the log shows them. -/
structure Recorded (verbose : Bool) (log : Bytes) (ps : List Packet) (r : Records) : Prop where
  stored : r.pgraphCommands.length = ps.length
  keys : ∀ id, (r.pgraphParameterMap.lookup id).isSome = true ↔
    ∃ x ∈ ps.zip r.pgraphCommands, x.1.info.hasHeapParameters = true ∧ x.2.data.dataId = id
  parameters : ∀ x ∈ ps.zip r.pgraphCommands, x.1.info.hasHeapParameters = true →
    r.pgraphParameterMap.lookup x.2.data.dataId = some x.1.parameters
  logged : ∃ texts, r.nv2aLog = log ++ texts.flatten ∧ List.Forall₂ (Shows verbose) ps texts

theorem length_stored (n : Nat) (ps : List Packet) : (stored n ps).length = ps.length := by
  induction ps generalizing n with
  | nil => rfl
  | cons p ps ih =>
    rw [stored]
    split <;> simp [ih]

theorem Follows.recorded (h : Follows n verbose log ps r) : Recorded verbose log ps r := by
  have hentry : ∀ x ∈ ps.zip r.pgraphCommands, x.1.info.hasHeapParameters = true →
      r.pgraphParameterMap.lookup x.2.data.dataId = some x.1.parameters := by
    intro x hx hheap
    refine lookup_entry h ?_
    rw [h.commands] at hx
    rw [assigned_eq]
    exact List.mem_map.mpr ⟨x, List.mem_filter.mpr ⟨hx, hheap⟩, rfl⟩
  refine ⟨?_, fun id => ⟨fun hid => ?_, ?_⟩, hentry, h.logged⟩
  · rw [h.commands, length_stored]
  · obtain ⟨words, hlookup⟩ := Option.isSome_iff_exists.mp hid
    obtain ⟨front, back, heq, -⟩ := List.lookup_eq_some_iff.mp hlookup
    have hmem : (id, words) ∈ assigned n ps := by
      rw [← h.entries, heq]
      simp
    rw [assigned_eq] at hmem
    obtain ⟨x, hx, hid⟩ := List.mem_map.mp hmem
    obtain ⟨hzip, hheap⟩ := List.mem_filter.mp hx
    rw [h.commands]
    exact ⟨x, hzip, hheap, (Prod.mk.inj hid).1⟩
  · rintro ⟨x, hx, hheap, rfl⟩
    rw [hentry x hx hheap]
    rfl

theorem Recorded.not_broken (h : Recorded verbose log ps r)
    (hparameters : ∀ p ∈ ps, p.info.hasHeapParameters = true →
      p.parameters.length = p.info.command.parameterCount.toNat) : ¬Broken r := by
  rintro ⟨id, hlookup⟩
  obtain ⟨x, hx, hheap, rfl⟩ := (h.keys id).mp (by rw [hlookup]; rfl)
  rw [h.parameters x hx hheap] at hlookup
  exact parameters_ne_nil (hparameters x.1 (List.of_mem_zip hx).1 hheap) hheap
    (Option.some.inj hlookup)

end Runs

section Streams

theorem nextPacket_parameters {u : Bytes} {e : Extract Unit Packet} (h : nextPacket u = some e)
    (hheap : e.item.info.hasHeapParameters = true) :
    e.item.parameters.length = e.item.info.command.parameterCount.toNat := by
  unfold nextPacket at h
  dsimp only at h
  split at h
  case isFalse => cases h
  case isTrue =>
    obtain rfl := Option.some.inj h
    simp [words, parameterBytes, show (PushBufferCommandTraceInfo.ofBytes u).hasHeapParameters = true
      from hheap]

theorem packets_parameters (u : Bytes) : ∀ p ∈ (packets.drain () u).items,
    p.info.hasHeapParameters = true → p.parameters.length = p.info.command.parameterCount.toNat := by
  suffices h : ∀ s, ∀ p ∈ (packets.drain s u).items, p.info.hasHeapParameters = true →
      p.parameters.length = p.info.command.parameterCount.toNat from h ()
  intro s
  induction s, u using packets.drain_induction with
  | none s u h =>
    rw [Extractor.drain_none h]
    simp
  | some s u e h ih =>
    rw [Extractor.drain_some h]
    intro p hp
    rcases List.mem_cons.mp hp with rfl | hp
    · exact nextPacket_parameters h
    · exact ih p hp

theorem packets_complete {u : Bytes} (h : Bounded u) :
    ∀ p ∈ (packets.drain () u).items, p.Complete :=
  fun p hp => ⟨packets_parameters u p hp, (h.items p hp).trans (by decide)⟩

theorem follows_setup (c : FrameCapture) (artifactPath : Bytes) (verbose : Bool) :
    Follows c.nextFreeId.toNat verbose (ascii "pgraph method log from nvtrc\n") []
      (c.setup artifactPath verbose).toRecords where
  complete := by simp
  entries := rfl
  commands := rfl
  nextId := UInt32.ofNat_toNat.symm
  bound := c.nextFreeId.toNat_lt
  mode := rfl
  logged := ⟨[], by simp [FrameCapture.setup], .nil⟩

/-- The packets that are processed once `data` has arrived. -/
def processed (c : FrameCapture) (data : Bytes) : List Packet :=
  (packets.drain () (c.pgraphTraceBuffer ++ data)).items

/-- After a setup, the map, the stored commands and the log agree on the parameters exactly if every
packet is admissible. -/
theorem recorded_iff (c : FrameCapture) (artifactPath : Bytes) (verbose : Bool) (first : Bytes)
    (pieces : List Bytes) (hbounded : Bounded (c.pgraphTraceBuffer ++ (first :: pieces).flatten)) :
    (∃ c', receivePGRAPHs (first :: pieces) (c.setup artifactPath verbose) = .ok ((), c') ∧
      Recorded verbose (ascii "pgraph method log from nvtrc\n")
        (processed c (first :: pieces).flatten) c'.toRecords) ↔
    AllAdmissible c.nextFreeId.toNat verbose (processed c (first :: pieces).flatten) := by
  have hcomplete := packets_complete hbounded
  obtain ⟨hgood, hbad⟩ := capture_spec (follows_setup c artifactPath verbose) hcomplete
  have hrun : receivePGRAPHs (first :: pieces) (c.setup artifactPath verbose) =
      withRecords (c.setup artifactPath verbose) _
        (capture (processed c (first :: pieces).flatten) (c.setup artifactPath verbose).toRecords) :=
    (receivePGRAPHs_eq first pieces (c.setup artifactPath verbose) hbounded).trans
      (receivePGRAPH_eq _ (c.setup artifactPath verbose) hbounded)
  constructor
  · rintro ⟨c', hc', hrecorded⟩
    by_contra hnot
    rcases hbad hnot with ⟨e, hcapture⟩ | ⟨r, hcapture, hbroken⟩
    · rw [hrun, processed, hcapture] at hc'
      cases hc'
    · rw [hrun, processed, hcapture] at hc'
      cases hc'
      exact hrecorded.not_broken (packets_parameters _) hbroken
  · intro h
    obtain ⟨r, hcapture, hfollows⟩ := hgood h
    rw [hrun, processed, hcapture]
    exact ⟨_, rfl, hfollows.recorded⟩

theorem recorded_heapPacket : ∃ c',
    receivePGRAPHs [heapPacket] (FrameCapture.setup {} [] false) = .ok ((), c') ∧
      Recorded false (ascii "pgraph method log from nvtrc\n")
        (processed {} [heapPacket].flatten) c'.toRecords := by
  have hstream : ({} : FrameCapture).pgraphTraceBuffer ++ [heapPacket].flatten = heapPacket := by
    simp
  refine (recorded_iff {} [] false heapPacket [] ?_).mpr ?_
  · rw [hstream]
    exact bounded_heapPacket
  · rw [processed, hstream, drain_heapPacket]
    refine (@allAdmissible_append _ _ [] _).mpr ⟨fun front p back heq => ?_, ?_⟩
    · simp at heq
    · exact admissible_heap (by decide) (by decide)

/-- A command that is not valid, with an address of the target. -/
def strayPacket : Bytes :=
  packetBytes 0 0 PBCPDS_HEAP_BUFFER 0

/-- The id 0 is looked up before it is given to a command; its parameters are then not kept. -/
theorem not_recorded_stray :
    (receivePGRAPHs [strayPacket ++ heapPacket] (FrameCapture.setup {} [] false)).toOption.map
      (fun result => (result.2.pgraphParameterMap, result.2.pgraphCommands.map (·.data.dataId))) =
    some ([(0, [])], [0, 0]) ∧
    ¬∃ c', receivePGRAPHs [strayPacket ++ heapPacket] (FrameCapture.setup {} [] false) = .ok ((), c') ∧
      Recorded false (ascii "pgraph method log from nvtrc\n")
        (processed {} [strayPacket ++ heapPacket].flatten) c'.toRecords := by
  have hrun : (receivePGRAPHs [strayPacket ++ heapPacket] (FrameCapture.setup {} [] false)).toOption.map
      (fun result => (result.2.pgraphParameterMap, result.2.pgraphCommands.map (·.data.dataId))) =
    some ([(0, [])], [0, 0]) := by decide +kernel
  refine ⟨hrun, ?_⟩
  rintro ⟨c', hc', hrecorded⟩
  rw [hc'] at hrun
  have hmap : c'.pgraphParameterMap = [(0, [])] := congrArg Prod.fst (Option.some.inj hrun)
  refine hrecorded.not_broken (packets_parameters _) ⟨0, ?_⟩
  rw [hmap]
  rfl

end Streams

end XbdmGdbBridge.Proofs.Captures
