import XbdmGdbBridge.Proofs.CaptureRecords

/-!
# Where parameters are read

A turn of the loop copies the parameters behind a header and logs them. It stays inside the buffer and
inside the words it logs exactly if the packet is all there and announces no more than there is.
-/

namespace XbdmGdbBridge.Proofs.Captures

open Lib NTRCTracer

section Errors

/-- The only way to fail is to read where nothing is. -/
def FailsOutside {α : Type} (x : Except Fault α) : Prop :=
  ∀ e, x = .error e → e = .range

theorem failsOutside_ok {α : Type} (a : α) : FailsOutside (.ok a) := nofun

theorem FailsOutside.bind {α β : Type} {x : Except Fault α} {f : α → Except Fault β}
    (hx : FailsOutside x) (hf : ∀ a, FailsOutside (f a)) : FailsOutside (x >>= f) := by
  cases x with
  | error e =>
    rintro e' ⟨⟩
    exact hx e rfl
  | ok a => exact hf a

theorem FailsOutside.ite {α : Type} {c : Prop} [Decidable c] {x y : Except Fault α}
    (hx : FailsOutside x) (hy : FailsOutside y) : FailsOutside (if c then x else y) := by
  split
  · exact hx
  · exact hy

theorem FailsOutside.mapM {α β : Type} {f : α → Except Fault β} (hf : ∀ a, FailsOutside (f a))
    (l : List α) : FailsOutside (l.mapM f) := by
  induction l with
  | nil => exact failsOutside_ok _
  | cons a l ih =>
    rw [List.mapM_cons]
    exact (hf a).bind fun b => ih.bind fun bs => failsOutside_ok _

variable (packet : PushBufferCommandTraceInfo) (data : Option (List UInt32))

theorem failsOutside_parameterAt (i : Nat) : FailsOutside (parameterAt data i) := by
  intro e h
  unfold parameterAt at h
  split at h
  · cases h
  split at h
  · cases h
  · cases h
    rfl

theorem failsOutside_countTo (count : UInt32) : FailsOutside (countTo count) := by
  intro e h
  unfold countTo at h
  split at h
  · cases h
  · cases h
    rfl

theorem failsOutside_methodTexts : FailsOutside (methodTexts packet data) :=
  (FailsOutside.mapM (fun i => (failsOutside_parameterAt data i).bind fun _ => failsOutside_ok _) _).bind
    fun _ => (failsOutside_countTo _).bind fun _ => failsOutside_ok _

theorem failsOutside_parameterTexts : FailsOutside (parameterTexts packet data) := by
  refine (FailsOutside.mapM (fun i => (failsOutside_parameterAt data i).bind ?_) _).bind ?_
  · rintro (_ | value)
    · exact failsOutside_ok _
    · exact failsOutside_ok _
  · intro texts
    exact .ite ((failsOutside_countTo _).bind fun _ => failsOutside_ok _) (failsOutside_ok _)

theorem failsOutside_packetText (verbose : Bool) : FailsOutside (packetText packet verbose data) := by
  refine (FailsOutside.ite (failsOutside_methodTexts packet data) (failsOutside_ok _)).bind ?_
  intro methods
  refine (FailsOutside.ite ?_ (failsOutside_ok _)).bind fun _ => failsOutside_ok _
  exact (failsOutside_parameterTexts packet data).bind fun _ => failsOutside_ok _

end Errors

section Logging

variable {packet : PushBufferCommandTraceInfo} {r : Records} {words : List UInt32}

/-- The pointer to a vector: there is none to an empty one. -/
def pointerTo (words : List UInt32) : Option (List UInt32) :=
  if words = [] then none else some words

/-- The words that `LogPacket` reads of, in a state where `entry` is what the map has for the id of
the packet. -/
def logSource (packet : PushBufferCommandTraceInfo) (entry : List UInt32) : Option (List UInt32) :=
  if packet.data.dataState = PBCPDS_SMALL_BUFFER then some packet.data.buffer
  else if packet.data.dataState = PBCPDS_HEAP_BUFFER then pointerTo entry
  else none

/-- A packet is logged without reading anything that is not there. -/
def LogsInside (packet : PushBufferCommandTraceInfo) (verbose : Bool) (entry : List UInt32) : Prop :=
  (packet.command.valid ≠ 0 → Covers packet (logSource packet entry) ∧ Countable packet) ∧
  (verbose = true → Covers packet (logSource packet entry) ∧
    ((logSource packet entry).isSome = true → Countable packet))

theorem parametersAt_emplace (id : UInt32) (words : List UInt32) :
    (r.emplace id words).parametersAt id = (r.pgraphParameterMap.lookup id).getD words := by
  unfold Records.parametersAt
  cases h : r.pgraphParameterMap.lookup id with
  | none =>
    rw [emplace_of_none h]
    simp [List.lookup_append, h]
  | some found =>
    rw [emplace_of_some h, h]
    rfl

theorem logData_source :
    (logData packet r).1 = logSource packet (r.parametersAt packet.data.dataId) := by
  unfold logSource
  split
  case isTrue hsmall => rw [logData_small hsmall]
  case isFalse hsmall =>
    split
    case isTrue hheap =>
      rw [logData_heap hheap, parametersAt_emplace]
      rfl
    case isFalse hheap => rw [logData_none hsmall hheap]

theorem verbose_emplace (id : UInt32) (words : List UInt32) :
    (r.emplace id words).verboseLogging = r.verboseLogging := by
  unfold Records.emplace
  split <;> rfl

theorem logData_verbose : (logData packet r).2.verboseLogging = r.verboseLogging := by
  by_cases hsmall : packet.data.dataState = PBCPDS_SMALL_BUFFER
  · rw [logData_small hsmall]
  by_cases hheap : packet.data.dataState = PBCPDS_HEAP_BUFFER
  · rw [logData_heap hheap]
    exact verbose_emplace _ _
  · rw [logData_none hsmall hheap]

theorem storePacket_cases (packet : PushBufferCommandTraceInfo) (r : Records) :
    (LogsInside packet r.verboseLogging (r.parametersAt packet.data.dataId) ∧
      ∃ r', storePacket packet r = .ok ((), r')) ∨
    (¬LogsInside packet r.verboseLogging (r.parametersAt packet.data.dataId) ∧
      storePacket packet r = .error .range) := by
  let r' : Records := { r with pgraphCommands := r.pgraphCommands ++ [packet] }
  have hinside : (∃ text, packetText packet (logData packet r').2.verboseLogging
      (logData packet r').1 = .ok text) ↔
      LogsInside packet r.verboseLogging (r.parametersAt packet.data.dataId) := by
    rw [packetText_ok_iff, logData_source, logData_verbose]
    rfl
  rw [← hinside]
  cases htext : packetText packet (logData packet r').2.verboseLogging (logData packet r').1 with
  | ok text => exact .inl ⟨⟨text, rfl⟩, _, logPacket_ok (r := r') rfl htext⟩
  | error e =>
    obtain rfl := failsOutside_packetText _ _ _ e htext
    exact .inr ⟨nofun, logPacket_of_error (r := r') rfl htext⟩

end Logging

section Turns

variable {v : Bytes} {r : Records}

/-- The loop takes the packet at the front: with as many bytes of parameters as the 32 bits of their
size say. -/
def Taken (v : Bytes) : Prop :=
  PushBufferCommandTraceInfo.size ≤ v.length ∧
    ((PushBufferCommandTraceInfo.ofBytes v).hasHeapParameters = true →
      PushBufferCommandTraceInfo.size +
        (4 * (PushBufferCommandTraceInfo.ofBytes v).command.parameterCount).toNat ≤ v.length)

/-- All of the packet at the front is there. -/
def Whole (v : Bytes) : Prop :=
  PushBufferCommandTraceInfo.size ≤ v.length ∧
    ((PushBufferCommandTraceInfo.ofBytes v).hasHeapParameters = true →
      PushBufferCommandTraceInfo.size +
        4 * (PushBufferCommandTraceInfo.ofBytes v).command.parameterCount.toNat ≤ v.length)

/-- A turn of the loop, for a packet that it takes. -/
def turn (v : Bytes) : Program Fault Records Bytes :=
  let packet := PushBufferCommandTraceInfo.ofBytes v
  let count := packet.command.parameterCount
  let behind := v.drop PushBufferCommandTraceInfo.size
  if packet.hasHeapParameters then do
    let packet ← assignId packet (words count.toNat behind)
    if behind.length < 4 * count.toNat then Program.fault .range
    else do
      storePacket packet
      return behind.drop (4 * count).toNat
  else do
    storePacket packet
    return behind

theorem pgraphLoop_of_not_taken (fuel : Nat) (h : ¬Taken v) : pgraphLoop fuel v = pure v := by
  cases fuel with
  | zero => rfl
  | succ fuel =>
    rw [pgraphLoop]
    split
    · rfl
    next hlong =>
      dsimp only
      split
      next hheap =>
        rw [if_pos]
        by_contra hcomplete
        exact h ⟨not_lt.mp hlong, fun _ => not_lt.mp hcomplete⟩
      next hheap => exact absurd ⟨not_lt.mp hlong, fun htrue => absurd htrue hheap⟩ h

theorem pgraphLoop_of_taken (fuel : Nat) (h : Taken v) :
    pgraphLoop (fuel + 1) v = turn v >>= pgraphLoop fuel := by
  rw [pgraphLoop, if_neg (not_lt.mpr h.1), turn]
  dsimp only
  split
  next hheap =>
    rw [if_neg (not_lt.mpr (h.2 hheap)), bind_assoc]
    refine bind_congr fun packet => ?_
    split
    · rfl
    · rw [bind_assoc]
      rfl
  next hheap => rw [bind_assoc]; rfl

/-- The packet as it is logged: with an id of its own if it has parameters. -/
def loggedPacket (v : Bytes) (r : Records) : PushBufferCommandTraceInfo :=
  if (PushBufferCommandTraceInfo.ofBytes v).hasHeapParameters then
    (PushBufferCommandTraceInfo.ofBytes v).withDataId r.nextFreeId
  else PushBufferCommandTraceInfo.ofBytes v

/-- What the map then has for its id: parameters that were just copied, unless the id is known. -/
def loggedEntry (v : Bytes) (r : Records) : List UInt32 :=
  (r.pgraphParameterMap.lookup (loggedPacket v r).data.dataId).getD
    (if (PushBufferCommandTraceInfo.ofBytes v).hasHeapParameters then
      words (PushBufferCommandTraceInfo.ofBytes v).command.parameterCount.toNat
        (v.drop PushBufferCommandTraceInfo.size)
    else [])

/-- There is an id for the packet, if it needs one. -/
def HasId (v : Bytes) (r : Records) : Prop :=
  (PushBufferCommandTraceInfo.ofBytes v).hasHeapParameters = true → r.nextFreeId < 0xFFFFFFFF

/-- The parameters are all there, and those that are logged too. -/
def Inside (v : Bytes) (r : Records) : Prop :=
  Whole v ∧ (HasId v r → LogsInside (loggedPacket v r) r.verboseLogging (loggedEntry v r))

/-- A turn goes through, or leaves the words, or there is no id left. -/
def TurnCases (v : Bytes) (r : Records) : Prop :=
  (Inside v r ∧ HasId v r ∧ ∃ v' r', turn v r = .ok (v', r') ∧ v'.length < v.length) ∨
  (¬Inside v r ∧ HasId v r ∧ turn v r = .error .range) ∨
  (¬HasId v r ∧ turn v r = .error .assertion)

theorem length_behind (h : Taken v) :
    (v.drop PushBufferCommandTraceInfo.size).length < v.length := by
  have hsize : 0 < PushBufferCommandTraceInfo.size := by decide
  have := h.1
  rw [List.length_drop]
  omega

theorem turn_plain (h : Taken v) (r : Records)
    (hheap : (PushBufferCommandTraceInfo.ofBytes v).hasHeapParameters = false) : TurnCases v r := by
  have hwhole : Whole v := ⟨h.1, fun htrue => by rw [hheap] at htrue; cases htrue⟩
  have hid : HasId v r := fun htrue => by rw [hheap] at htrue; cases htrue
  unfold TurnCases Inside loggedEntry loggedPacket turn
  simp only [hheap, Bool.false_eq_true, if_false]
  rcases storePacket_cases (PushBufferCommandTraceInfo.ofBytes v) r with
    ⟨hlogs, r', hstore⟩ | ⟨hlogs, hstore⟩
  · refine .inl ⟨⟨hwhole, fun _ => hlogs⟩, hid, _, r', ?_, length_behind h⟩
    rw [Program.bind_of_ok hstore]
    rfl
  · refine .inr (.inl ⟨fun hinside => hlogs (hinside.2 hid), hid, ?_⟩)
    rw [Program.bind_apply, hstore]

theorem store_assigned (packet : PushBufferCommandTraceInfo) (parameters : List UInt32) :
    let entry := (r.pgraphParameterMap.lookup r.nextFreeId).getD parameters
    let assigned := { r with nextFreeId := r.nextFreeId + 1 }.emplace r.nextFreeId parameters
    (LogsInside (packet.withDataId r.nextFreeId) r.verboseLogging entry ∧
      ∃ r', storePacket (packet.withDataId r.nextFreeId) assigned = .ok ((), r')) ∨
    (¬LogsInside (packet.withDataId r.nextFreeId) r.verboseLogging entry ∧
      storePacket (packet.withDataId r.nextFreeId) assigned = .error .range) := by
  have hcases := storePacket_cases (packet.withDataId r.nextFreeId)
    ({ r with nextFreeId := r.nextFreeId + 1 }.emplace r.nextFreeId parameters)
  rwa [verbose_emplace, show (packet.withDataId r.nextFreeId).data.dataId = r.nextFreeId from rfl,
    parametersAt_emplace] at hcases

theorem turn_heap (h : Taken v) (r : Records)
    (hheap : (PushBufferCommandTraceInfo.ofBytes v).hasHeapParameters = true) : TurnCases v r := by
  unfold TurnCases Inside loggedEntry loggedPacket turn
  simp only [hheap, if_true]
  by_cases hless : r.nextFreeId < 0xFFFFFFFF
  · have hid : HasId v r := fun _ => hless
    rw [Program.bind_of_ok (assignId_run hless)]
    split
    case isTrue hshort =>
      refine .inr (.inl ⟨fun hinside => ?_, hid, rfl⟩)
      have hwhole := hinside.1.2 hheap
      rw [List.length_drop] at hshort
      omega
    case isFalse hcomplete =>
      have hwhole : Whole v := by
        refine ⟨h.1, fun _ => ?_⟩
        have := h.1
        rw [List.length_drop] at hcomplete
        omega
      rcases store_assigned (PushBufferCommandTraceInfo.ofBytes v) _ with
        ⟨hlogs, r', hstore⟩ | ⟨hlogs, hstore⟩
      · have hshorter (n : Nat) :
            ((v.drop PushBufferCommandTraceInfo.size).drop n).length < v.length := by
          rw [List.length_drop]
          exact (Nat.sub_le _ _).trans_lt (length_behind h)
        have hrun (rest : Bytes) := Program.bind_of_ok hstore
          fun _ => (pure rest : Program Fault Records Bytes)
        exact .inl ⟨⟨hwhole, fun _ => hlogs⟩, hid, _, r', hrun _, hshorter _⟩
      · refine .inr (.inl ⟨fun hinside => hlogs (hinside.2 hid), hid, ?_⟩)
        rw [Program.bind_apply, hstore]
  · refine .inr (.inr ⟨fun hid => hless (hid hheap), ?_⟩)
    rw [Program.bind_apply, assignId_error (UInt32.not_lt.mp hless)]

theorem turn_cases (h : Taken v) (r : Records) : TurnCases v r := by
  cases hheap : (PushBufferCommandTraceInfo.ofBytes v).hasHeapParameters with
  | false => exact turn_plain h r hheap
  | true => exact turn_heap h r hheap

/-- What the loop comes to. -/
inductive Reaches (u : Bytes) (r : Records) : Bytes → Records → Prop where
  | start : Reaches u r u r
  | turn {v v' : Bytes} {s s' : Records} : Reaches u r v s → Taken v →
      turn v s = .ok (v', s') → Reaches u r v' s'

end Turns

section Buffer

variable {u v : Bytes} {r s : Records}

theorem Reaches.loop {fuel : Nat} (h : Reaches u r v s) (hfuel : u.length ≤ fuel) :
    ∃ fuel', v.length ≤ fuel' ∧ pgraphLoop fuel u r = pgraphLoop fuel' v s := by
  induction h with
  | start => exact ⟨fuel, hfuel, rfl⟩
  | @turn v v' s s' _ htaken hturn ih =>
    obtain ⟨fuel', hle, hloop⟩ := ih
    rcases turn_cases htaken s with ⟨-, -, v'', s'', hrun, hless⟩ | ⟨-, -, hrun⟩ | ⟨-, hrun⟩
    · cases hturn.symm.trans hrun
      obtain ⟨n, rfl⟩ : ∃ n, fuel' = n + 1 := ⟨fuel' - 1, by omega⟩
      refine ⟨n, by omega, ?_⟩
      rw [hloop, pgraphLoop_of_taken n htaken, Program.bind_of_ok hturn]
    · cases hturn.symm.trans hrun
    · cases hturn.symm.trans hrun

/-- Parameters are read only where there are any, and a packet that is not all there stays in the
buffer. -/
structure ReadsPresent (c : FrameCapture) : Prop where
  present : FrameCapture.processPGRAPHBuffer c ≠ .error .range
  left : ∀ v s, Reaches c.pgraphTraceBuffer c.toRecords v s → ¬Whole v →
    ∃ c', FrameCapture.processPGRAPHBuffer c = .ok ((), c') ∧ c'.pgraphTraceBuffer = v

/-- From where everything ahead is inside, no turn leaves the words. -/
theorem pgraphLoop_ne_range {fuel : Nat} (h : Reaches u r v s)
    (hinside : ∀ v s, Reaches u r v s → Taken v → Inside v s) :
    pgraphLoop fuel v s ≠ .error .range := by
  induction fuel generalizing v s with
  | zero => nofun
  | succ fuel ih =>
    by_cases htaken : Taken v
    · rw [pgraphLoop_of_taken fuel htaken]
      rcases turn_cases htaken s with ⟨-, -, v', s', hturn, -⟩ | ⟨hnot, -⟩ | ⟨-, hturn⟩
      · rw [Program.bind_of_ok hturn]
        exact ih (h.turn htaken hturn)
      · exact absurd (hinside v s h htaken) hnot
      · rw [Program.bind_apply, hturn]
        nofun
    · rw [pgraphLoop_of_not_taken _ htaken]
      nofun

theorem afterLoop_range_iff {c : FrameCapture} {x : Except Fault (Bytes × Records)} :
    afterLoop c x = .error .range ↔ x = .error .range := by
  cases x with
  | error e => simp [afterLoop]
  | ok result => exact iff_of_false nofun nofun

/-- Parameters are read only from where they are, exactly if at every packet the loop comes to all of
them are in the buffer, and as many words as are logged are where they are logged from. -/
theorem readsPresent_iff (c : FrameCapture) :
    ReadsPresent c ↔ ∀ v s, Reaches c.pgraphTraceBuffer c.toRecords v s → Taken v → Inside v s := by
  constructor
  · rintro ⟨hpresent, hleft⟩ v s hreach htaken
    obtain ⟨fuel, hle, hloop⟩ := hreach.loop le_rfl
    have hsome : ∃ n, fuel = n + 1 := by
      have hpos : 0 < PushBufferCommandTraceInfo.size := by decide
      have := htaken.1
      exact ⟨fuel - 1, by omega⟩
    obtain ⟨n, rfl⟩ := hsome
    rw [processPGRAPHBuffer_eq, hloop, pgraphLoop_of_taken n htaken] at hpresent hleft
    rcases turn_cases htaken s with ⟨hinside, -⟩ | ⟨-, -, hturn⟩ | ⟨hid, hturn⟩
    · exact hinside
    · rw [Program.bind_apply, hturn] at hpresent
      exact absurd rfl hpresent
    · refine ⟨?_, fun hid' => absurd hid' hid⟩
      by_contra hwhole
      obtain ⟨c', hrun, -⟩ := hleft v s hreach hwhole
      rw [Program.bind_apply, hturn] at hrun
      cases hrun
  · intro hinside
    refine ⟨?_, fun v s hreach hwhole => ?_⟩
    · rw [processPGRAPHBuffer_eq, ne_eq, afterLoop_range_iff]
      exact pgraphLoop_ne_range .start hinside
    · obtain ⟨fuel, -, hloop⟩ := hreach.loop le_rfl
      have htaken : ¬Taken v := fun htaken => hwhole (hinside v s hreach htaken).1
      rw [processPGRAPHBuffer_eq, hloop, pgraphLoop_of_not_taken fuel htaken]
      exact ⟨_, rfl, rfl⟩

/-- A header that announces `2 ^ 30` parameters and none behind it: their size is 0 in 32 bits. -/
def hugePacket : Bytes :=
  packetBytes 1 0x40000000 PBCPDS_HEAP_BUFFER 0

theorem not_readsPresent_huge :
    FrameCapture.processPGRAPHBuffer { pgraphTraceBuffer := hugePacket } = .error .range ∧
      ¬ReadsPresent { pgraphTraceBuffer := hugePacket } := by
  have hrun : FrameCapture.processPGRAPHBuffer { pgraphTraceBuffer := hugePacket } =
      .error .range := rfl
  exact ⟨hrun, fun h => h.present hrun⟩

end Buffer

end XbdmGdbBridge.Proofs.Captures
