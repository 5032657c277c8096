import XbdmGdbBridge.Proofs.Faults
import XbdmGdbBridge.Proofs.Resuming

/-!
# How many replies a packet gets

Every packet other than `vCont;…` is to get one reply, and `vCont;…` at most one before the target
reports a stop. `Orderly` says for which packets and states this is so.
-/

namespace XbdmGdbBridge.Proofs

open Lib Program CText Gdb GDBBridge

variable {σ τ : Type}

/-- Handling the packet returns and has sent `n` replies. -/
def Sends [Xbdm σ] (packet : GDBPacket) (b : GDBBridge σ) (n : Nat) : Prop :=
  ∃ b', handlePacket packet b = .ok ((), b') ∧ sentCount b' = sentCount b + n

def vContArgs (data : Bytes) : Option Bytes :=
  if (ascii "vCont;").isPrefixOf data then some (data.drop 6) else none

/-- The same bridge, connected to another target. -/
def retarget (b : GDBBridge σ) (target : τ) : GDBBridge τ where
  gdb := b.gdb
  debugger := {
    context := { target, sent := b.debugger.context.sent }
    state := b.debugger.state
    threads := b.debugger.threads
    activeThreadId := b.debugger.activeThreadId
    memoryRegions := b.debugger.memoryRegions
    breakpoints := b.debugger.breakpoints
    breakpointConditions := b.debugger.breakpointConditions
    printThreadInfoOnBreak := b.debugger.printThreadInfoOnBreak
    resumed := b.debugger.resumed }
  threadIdForCommand := b.threadIdForCommand
  threadInfoBuffer := b.threadInfoBuffer
  waitingOnStopPacket := b.waitingOnStopPacket
  replies := b.replies

/-- One reply to an ordinary packet; at most one to a `vCont`, whatever the target answers. -/
def AnsweredOnce [Xbdm σ] (packet : GDBPacket) (b : GDBBridge σ) : Prop :=
  match vContArgs packet.data with
  | none => Sends packet b 1
  | some _ => ∀ (τ : Type) [Xbdm τ] (target : τ), ∃ n ≤ 1, Sends packet (retarget b target) n

/-- A packet that inserts or removes a hardware breakpoint. -/
structure HardwareBreakpoint (data : Bytes) : Prop where
  letter : data.head? = some (byte 'z') ∨ data.head? = some (byte 'Z')
  type : ∃ c, extractBreakpointCommandParams data = some c ∧ c.type = 1

/-- An element that continues: a `c`, with a number for a thread id if it has one. -/
def plainContinue (command : Bytes) : Bool :=
  command.head? == some (byte 'c') && (elementThreadId command).isSome

/-- The elements that can be answered on their own. -/
def answerable (commands : List Bytes) : Nat :=
  commands.countP (fun command => !plainContinue command)

def Orderly [Xbdm σ] (b : GDBBridge σ) (data : Bytes) : Prop :=
  match vContArgs data with
  | none => ¬Hazard b data ∧ ¬Throws data ∧ ¬HardwareBreakpoint data
  | some args =>
    [] ∉ split (byte ';') args ∧
      (answerable (split (byte ';') args) = 0 ∨
        b.debugger.threads = [] ∧ answerable (split (byte ';') args) ≤ 1)

section Ordinary

variable [Xbdm σ] {data : Bytes}

theorem adds_interrupt : Adds sentCount 1 (handleInterruptRequest : Handler σ _) := by
  unfold handleInterruptRequest
  refine (quiet_ask _).adds.after fun halted => ?_
  refine Adds.ite (fun _ => (answers_sendError _).adds) fun _ => ?_
  refine Adds.after ?_ fun _ => ?_
  · unfold goUnlessStarted
    refine (quiet_known _).adds.after fun state => ?_
    exact Adds.ite (fun _ => ((quiet_ask _).bind fun _ => Quiet.pure _).adds) fun _ => Adds.pure _
  · unfold reportActiveThread
    refine (quiet_known _).adds.after fun active => ?_
    cases active with
    | none => exact Adds.fault _
    | some i => exact (answers_stopPacket_or i answers_sendOK).adds

theorem adds_readMemory (data : Bytes) : Adds sentCount 1 (handleReadMemory data : Handler σ _) := by
  unfold handleReadMemory
  split
  · exact Adds.fault _
  · split
    · refine (adds_attempt _).after fun memory => ?_
      cases memory with
      | none => exact (answers_sendError _).adds
      | some bytes => exact (answers_send _).adds
    · exact (answers_sendError _).adds

theorem adds_finishWrite (address length : UInt32) (data : Bytes) :
    Adds sentCount 1 (finishWrite address length data : Handler σ _) := by
  unfold finishWrite
  refine Adds.ite (fun _ => (answers_sendError _).adds) fun _ => ?_
  refine (adds_attempt _).after fun written => ?_
  exact Adds.ite (fun _ => (answers_sendError _).adds) fun _ => answers_sendOK.adds

theorem adds_storeHex (address length : UInt32) (text : Bytes) :
    Adds sentCount 1 (storeHex address length text : Handler σ _) := by
  unfold storeHex
  split
  · exact Adds.fault _
  · exact adds_finishWrite _ _ _

omit [Xbdm σ] in
theorem adds_write {store : UInt32 → UInt32 → Bytes → Handler σ Unit}
    (hstore : ∀ a n text, Adds sentCount 1 (store a n text)) (data : Bytes) :
    Adds sentCount 1 (handleWrite store data) := by
  unfold handleWrite
  split
  · exact Adds.fault _
  · split
    · exact answers_sendOK.adds
    · split
      · exact (answers_sendError _).adds
      · split
        · exact Adds.fault _
        · exact hstore _ _ _

omit [Xbdm σ] in
theorem adds_answerRegister (index : Int32) (t : Thread) :
    Adds sentCount 1 (answerRegister index t : Handler σ _) := by
  unfold answerRegister
  split
  · exact Adds.fault _
  · exact answers_sendEmpty.adds
  · exact (answers_send _).adds

theorem adds_readRegister (data : Bytes) :
    Adds sentCount 1 (handleReadRegister data : Handler σ _) := by
  unfold handleReadRegister
  split
  · exact (answers_sendError _).adds
  · refine quiet_get.adds.after fun b => ?_
    refine Adds.ite (fun _ => answers_sendEmpty.adds) fun _ => ?_
    refine (quiet_known _).adds.after fun thread => ?_
    cases thread with
    | none => exact (answers_sendError _).adds
    | some i =>
      refine Adds.ite (fun _ => ?_) fun _ => ?_
      · refine (quiet_ask _).adds.after fun fetched => ?_
        refine Adds.ite (fun _ => (answers_sendError _).adds) fun _ => ?_
        exact (quiet_known _).adds.after fun t => adds_answerRegister _ t
      · refine (quiet_ask _).adds.after fun _ => ?_
        exact (quiet_known _).adds.after fun t => adds_answerRegister _ t

omit [Xbdm σ] in
theorem adds_querySupported (data : Bytes) :
    Adds sentCount 1 (handleQuerySupported data : Handler σ _) := by
  unfold handleQuerySupported
  split
  · exact answers_sendEmpty.adds
  · split
    · exact Adds.fault _
    · exact (answers_send _).adds

omit [Xbdm σ] in
theorem adds_queryThreadExtraInfo (data : Bytes) :
    Adds sentCount 1 (handleQueryThreadExtraInfo data : Handler σ _) := by
  unfold handleQueryThreadExtraInfo
  split
  · exact Adds.fault _
  · split
    · exact (answers_sendError _).adds
    · refine (quiet_known _).adds.after fun thread => ?_
      cases thread with
      | none => exact (answers_sendError _).adds
      | some i =>
        refine (quiet_known _).adds.after fun t => ?_
        refine Adds.ite (fun _ => (answers_send _).adds) fun _ => ?_
        cases t.lastStopReason with
        | none => exact Adds.fault _
        | some reason => exact (answers_send _).adds

section Breakpoints

variable {software : UInt32 → XBDMDebugger.Op σ Bool}
  {readWatch writeWatch : UInt32 → UInt32 → XBDMDebugger.Op σ Bool}

omit [Xbdm σ] in
theorem answers_breakpointType
    (h : ∀ c, extractBreakpointCommandParams data = some c → c.type ≠ 1) :
    Answers (handleBreakpointType software readWatch writeWatch data) := by
  have hasked : ∀ x : XBDMDebugger.Op σ Bool, Answers (do let _ ← ask x; sendOK) :=
    fun x => (quiet_ask x).answers fun _ => answers_sendOK
  unfold handleBreakpointType
  cases hc : extractBreakpointCommandParams data with
  | none => exact answers_sendError _
  | some c =>
    dsimp only
    apply Answers.ite (hasked _)
    apply Answers.skip (h c hc)
    apply Answers.ite (hasked _)
    apply Answers.ite (hasked _)
    exact Answers.ite ((quiet_ask _).answers fun _ => hasked _) answers_sendEmpty

omit [Xbdm σ] in
/-- The reply to a hardware breakpoint is sent inside the `switch` and again behind it. -/
theorem adds_hardwareBreakpoint
    (h : ∃ c, extractBreakpointCommandParams data = some c ∧ c.type = 1) :
    Adds sentCount 2 (handleBreakpointType software readWatch writeWatch data) := by
  obtain ⟨c, hc, htype⟩ := h
  have hnot : c.type ≠ 0 := by
    rw [htype]
    decide
  unfold handleBreakpointType
  rw [hc]
  dsimp only
  rw [if_neg hnot, if_pos htype]
  exact answers_sendEmpty.adds.bind fun _ => answers_sendEmpty.adds

end Breakpoints

theorem vContArgs_append (args : Bytes) : vContArgs (ascii "vCont;" ++ args) = some args := rfl

theorem adds_query (rest : Bytes) :
    Adds sentCount 1 (handleReadQuery (byte 'q' :: rest) : Handler σ _) := by
  rcases readQuery_cases (σ := σ) rest with ⟨tail, htail⟩ | ⟨tail, htail⟩ | hanswers
  · rw [htail]
    exact adds_querySupported (ascii "qSupported" ++ tail)
  · rw [htail]
    exact adds_queryThreadExtraInfo (ascii "qThreadExtraInfo" ++ tail)
  · exact hanswers.adds

theorem adds_v {rest : Bytes} (h : vContArgs (byte 'v' :: rest) = none) :
    Adds sentCount 1 (handleExtendedVCommand (byte 'v' :: rest) : Handler σ _) := by
  rcases extendedV_cases (σ := σ) (byte 'v' :: rest) with ⟨args, hargs⟩ | hanswers
  · rw [hargs, vContArgs_append] at h
    cases h
  · exact hanswers.adds

theorem adds_ordinary (hv : vContArgs data = none) (hh : ¬HardwareBreakpoint data) :
    Adds sentCount 1 (handlePacket (.ofData data) : Handler σ _) := by
  cases data with
  | nil => exact Adds.fault _
  | cons command rest =>
    by_cases hwatched : command ∈ watched
    · have htype : command = byte 'z' ∨ command = byte 'Z' →
          ∀ c, extractBreakpointCommandParams (command :: rest) = some c → c.type ≠ 1 := by
        intro hletter c hc ht
        apply hh
        refine ⟨?_, c, hc, ht⟩
        rcases hletter with rfl | rfl
        · exact .inl rfl
        · exact .inr rfl
      simp only [watched, List.mem_cons, List.not_mem_nil, or_false] at hwatched
      rcases hwatched with rfl | rfl | rfl | rfl | rfl | rfl | rfl | rfl | rfl
      · exact adds_interrupt
      · exact adds_readMemory _
      · exact adds_write adds_storeHex _
      · exact adds_readRegister _
      · exact adds_query rest
      · exact adds_v hv
      · exact adds_write adds_finishWrite _
      · exact (answers_breakpointType (htype (.inl rfl))).adds
      · exact (answers_breakpointType (htype (.inr rfl))).adds
    · exact (answers_dispatch hwatched _).adds

theorem adds_twice (hh : HardwareBreakpoint data) :
    Adds sentCount 2 (handlePacket (.ofData data) : Handler σ _) := by
  obtain ⟨hletter, htype⟩ := hh
  cases data with
  | nil => simp at hletter
  | cons command rest =>
    simp only [List.head?_cons, Option.some.injEq] at hletter
    rcases hletter with rfl | rfl
    · exact adds_hardwareBreakpoint htype
    · exact adds_hardwareBreakpoint htype

theorem completes_iff (data : Bytes) (b : GDBBridge σ) :
    (∃ b', handlePacket (.ofData data) b = .ok ((), b')) ↔ ¬Hazard b data ∧ ¬Throws data := by
  constructor
  · rintro ⟨b', hrun⟩
    have hnone : faultOf (handlePacket (.ofData data)) b = none :=
      faultOf_eq_none_iff.mpr ⟨(), b', hrun⟩
    constructor
    · intro hh
      obtain ⟨f, -, hf⟩ := fault_of_hazard hh
      rw [hnone] at hf
      cases hf
    · intro ht
      rw [exception_of_throws ht] at hnone
      cases hnone
  · rintro ⟨hh, ht⟩
    cases hf : faultOf (handlePacket (.ofData data)) b with
    | none =>
      obtain ⟨u, b', hrun⟩ := faultOf_eq_none_iff.mp hf
      exact ⟨b', hrun⟩
    | some f =>
      have hexplained := explained_fault hf
      by_cases hexc : f = .exception
      · exact absurd (hexplained.throws hexc) ht
      · exact absurd (hexplained.hazard hexc) hh

theorem sends_ordinary_iff (hv : vContArgs data = none) (b : GDBBridge σ) :
    Sends (.ofData data) b 1 ↔ ¬Hazard b data ∧ ¬Throws data ∧ ¬HardwareBreakpoint data := by
  constructor
  · rintro ⟨b', hrun, hcount⟩
    obtain ⟨hh, ht⟩ := (completes_iff data b).mp ⟨b', hrun⟩
    refine ⟨hh, ht, ?_⟩
    intro htwice
    have htwo := adds_twice htwice b () b' hrun
    omega
  · rintro ⟨hh, ht, honce⟩
    obtain ⟨b', hrun⟩ := (completes_iff data b).mpr ⟨hh, ht⟩
    exact ⟨b', hrun, adds_ordinary hv honce b () b' hrun⟩

end Ordinary

section Elements

variable [Xbdm σ] {command : Bytes}

theorem plainContinue_cons {code : UInt8} {rest : Bytes} {threadId : Int32}
    (hid : elementThreadId (code :: rest) = some threadId) :
    plainContinue (code :: rest) = true ↔ code = byte 'c' := by
  simp [plainContinue, hid]

theorem quiet_plainContinue (processed : List UInt32) (h : plainContinue command = true) :
    Quiet (vContElement processed command : Handler σ _) := by
  unfold vContElement
  cases hid : elementThreadId command with
  | none => simp [plainContinue, hid] at h
  | some threadId =>
    cases command with
    | nil => simp [plainContinue] at h
    | cons code rest =>
      have hc := (plainContinue_cons hid).mp h
      refine Quiet.bind ?_ fun _ => Quiet.pure _
      unfold vContAction
      dsimp only
      rw [if_pos hc]
      exact quiet_vContContinue _ _

theorem atMost_vContStep (threadId : Int32) :
    AtMost sentCount 1 (vContStep threadId : Handler σ _) := by
  unfold vContStep
  refine AtMost.ite (fun _ => ?_) fun _ => (answers_sendError _).adds.atMost (Nat.le_refl 1)
  refine (quiet_ask _).adds.atMost_after fun _ => ?_
  refine (quiet_ask _).adds.atMost_after fun stepped => ?_
  refine AtMost.ite (fun _ => ?_) fun _ => ?_
  · exact (answers_sendError _).adds.atMost (Nat.le_refl 1)
  · exact (Quiet.pure _).adds.atMost (Nat.zero_le 1)

theorem atMost_vContElement (processed : List UInt32) (command : Bytes) :
    AtMost sentCount 1 (vContElement processed command : Handler σ _) := by
  unfold vContElement
  cases elementThreadId command with
  | none =>
    exact ((answers_sendError _).then fun _ => Quiet.pure _).adds.atMost (Nat.le_refl 1)
  | some threadId =>
    refine AtMost.bind (n := 1) (k := 0) ?_ fun _ => (Adds.pure _).atMost (Nat.le_refl 0)
    cases command with
    | nil => exact (Adds.fault _).atMost (Nat.le_refl 1)
    | cons code rest =>
      refine AtMost.ite (fun _ => (quiet_vContContinue _ _).adds.atMost (Nat.zero_le 1)) fun _ => ?_
      refine AtMost.ite (fun _ => atMost_vContStep threadId) fun _ => ?_
      exact answers_sendEmpty.adds.atMost (Nat.le_refl 1)

theorem answerable_cons (command : Bytes) (rest : List Bytes) :
    answerable (command :: rest) =
      (if plainContinue command = true then 0 else 1) + answerable rest := by
  unfold answerable
  rw [List.countP_cons, Nat.add_comm]
  cases plainContinue command with
  | true => rfl
  | false => rfl

theorem atMost_vContElements (processed : List UInt32) (commands : List Bytes) :
    AtMost sentCount (answerable commands) (vContElements processed commands : Handler σ _) := by
  induction commands generalizing processed with
  | nil => exact (Adds.pure _).atMost (Nat.le_refl 0)
  | cons command rest ih =>
    rw [answerable_cons]
    refine AtMost.bind ?_ fun next => ih next
    split
    · rename_i h
      exact (quiet_plainContinue processed h).adds.atMost (Nat.le_refl 0)
    · exact atMost_vContElement processed command

end Elements

section Marking

variable [Xbdm σ]

theorem marked_count (b : GDBBridge σ) :
    sentCount (marked b) = sentCount b ∨ sentCount (marked b) = sentCount b + 1 := by
  unfold marked
  cases (XBDMDebugger.getFirstStoppedThread b.debugger).1 with
  | none => exact .inl rfl
  | some i =>
    dsimp only
    cases reportable ((XBDMDebugger.getFirstStoppedThread b.debugger).2.threadAt i) with
    | none => exact .inl rfl
    | some reason => exact .inr (by simp [sentCount, reported])

theorem marked_without_threads {b : GDBBridge σ} (h : b.debugger.threads = []) :
    sentCount (marked b) = sentCount b := by
  unfold marked
  cases hf : (XBDMDebugger.getFirstStoppedThread b.debugger).1 with
  | none => rfl
  | some i =>
    have hlt := (getFirstStoppedThread_spec b.debugger hf).1
    simp [h] at hlt

end Marking

/-- A target whose threads have all stopped and that refuses everything but to say so. -/
structure Frozen where

instance : Xbdm Frozen where
  answer r s :=
    match r with
    | .isStopped _ => ({ status := .ok, reason := ascii "stopped" }, s)
    | _ => ({ status := .errAccessDenied }, s)
  announces _ s := (false, s)

section Worst

theorem stepInstruction_frozen (d : XBDMDebugger Frozen) :
    (XBDMDebugger.stepInstruction d).1 = false := by
  simp only [XBDMDebugger.stepInstruction, run_bind, run_get]
  cases d.activeThread with
  | none => rfl
  | some i => rfl

theorem adds_vContStep_frozen (threadId : Int32) :
    Adds sentCount 1 (vContStep threadId : Handler Frozen _) := by
  unfold vContStep
  refine Adds.ite (fun _ => ?_) fun _ => (answers_sendError _).adds
  refine (quiet_ask _).adds.after fun _ => ?_
  intro b a b' h
  rw [ask_bind, stepInstruction_frozen, if_pos (show (!false) = true from rfl)] at h
  exact (answers_sendError EFAULT).adds
    { b with debugger := (XBDMDebugger.stepInstruction b.debugger).2 } a b' h

theorem adds_vContElement_frozen (processed : List UInt32) {command : Bytes}
    (h : ¬plainContinue command = true) :
    Adds sentCount 1 (vContElement processed command : Handler Frozen _) := by
  unfold vContElement
  cases hid : elementThreadId command with
  | none => exact ((answers_sendError _).then fun _ => Quiet.pure _).adds
  | some threadId =>
    refine Adds.bind (n := 1) (k := 0) ?_ fun _ => Adds.pure _
    cases command with
    | nil => exact Adds.fault _
    | cons code rest =>
      refine Adds.ite (fun hc => absurd ((plainContinue_cons hid).mpr hc) h) fun _ => ?_
      exact Adds.ite (fun _ => adds_vContStep_frozen threadId) fun _ => answers_sendEmpty.adds

theorem adds_vContElements_frozen (processed : List UInt32) (commands : List Bytes) :
    Adds sentCount (answerable commands) (vContElements processed commands : Handler Frozen _) := by
  induction commands generalizing processed with
  | nil => exact Adds.pure _
  | cons command rest ih =>
    rw [answerable_cons]
    refine Adds.bind ?_ fun next => ih next
    split
    · rename_i h
      exact (quiet_plainContinue processed h).adds
    · rename_i h
      exact adds_vContElement_frozen processed h

theorem fetchStopReasonSync_frozen {d : XBDMDebugger Frozen} {i : ThreadRef}
    (hi : i < d.threads.length) :
    (XBDMDebugger.fetchStopReasonSync i d).1 = true ∧
      reportable ((XBDMDebugger.fetchStopReasonSync i d).2.threadAt i) = some .unknown := by
  unfold XBDMDebugger.fetchStopReasonSync
  constructor
  · rw [fetch_result]
    rfl
  · rw [fetch_threadAt hi]
    rfl

theorem reportable_stopped {t : Thread} {reason : StopReason} (h : reportable t = some reason) :
    t.stopped = true := by
  unfold reportable at h
  split at h
  · assumption
  · cases h

theorem getFirstStoppedThread_frozen {d : XBDMDebugger Frozen} (h : d.threads ≠ []) :
    ∃ i, (XBDMDebugger.getFirstStoppedThread d).1 = some i ∧
      reportable ((XBDMDebugger.getFirstStoppedThread d).2.threadAt i) = some .unknown := by
  rw [getFirstStoppedThread_eq]
  cases ha : d.activeThread with
  | some i =>
    obtain ⟨id, -, hi⟩ := Option.bind_eq_some_iff.mp ha
    obtain ⟨hfetched, hreason⟩ := fetchStopReasonSync_frozen (getThread_lt hi)
    dsimp only
    rw [if_pos (by rw [hfetched, reportable_stopped hreason]; rfl)]
    exact ⟨i, rfl, hreason⟩
  | none =>
    have hpos : 0 < d.threads.length := List.length_pos_iff.mpr h
    have hactive : d.activeThreadId ≠ some (d.threadAt 0).threadId := by
      intro he
      have hsome := getThread_isSome.mpr (threadAt_mem hpos)
      rw [XBDMDebugger.activeThread, he, Option.bind_some] at ha
      rw [ha] at hsome
      cases hsome
    obtain ⟨hfetched, hreason⟩ := fetchStopReasonSync_frozen hpos
    obtain ⟨n, hn⟩ := Nat.exists_eq_add_one_of_ne_zero (Nat.pos_iff_ne_zero.mp hpos)
    dsimp only
    rw [hn, List.range_succ_eq_map, firstStopped_cons, if_neg hactive,
      if_pos (by rw [hfetched, reportable_stopped hreason]; rfl)]
    exact ⟨0, rfl, hreason⟩

theorem marked_frozen {b : GDBBridge Frozen} (h : b.debugger.threads ≠ []) :
    sentCount (marked b) = sentCount b + 1 := by
  obtain ⟨i, hfound, hreason⟩ := getFirstStoppedThread_frozen h
  unfold marked
  rw [hfound]
  dsimp only
  rw [hreason]
  simp [sentCount, reported]

end Worst

section Resume

variable [Xbdm σ] {args : Bytes}

theorem vCont_replies (hne : [] ∉ split (byte ';') args) (b : GDBBridge σ) :
    ∃ b' b'', vContElements [] (split (byte ';') args) b = .ok ((), b') ∧
      b'.debugger.threadIds = b.debugger.threadIds ∧ handleVCont args b = .ok ((), b'') ∧
      sentCount b'' = sentCount (marked b') := by
  obtain ⟨b', hrun, hwhole⟩ := handleVCont_run hne b
  obtain ⟨c, active, log, hrun', hcore, -⟩ := vContElements_run [] hne b
  obtain rfl : c = b' := by
    rw [hrun] at hrun'
    cases hrun'
    rfl
  exact ⟨c, _, hrun, congrArg Core.threadIds hcore, hwhole, rfl⟩

omit [Xbdm σ] in
theorem threads_nil_iff {d d' : XBDMDebugger σ} (h : d'.threadIds = d.threadIds) :
    d'.threads = [] ↔ d.threads = [] := by
  rw [← List.length_eq_zero_iff, ← List.length_eq_zero_iff, length_of_ids h]

theorem vCont_atMost (hne : [] ∉ split (byte ';') args) (b : GDBBridge σ)
    (hcount : answerable (split (byte ';') args) = 0 ∨
      b.debugger.threads = [] ∧ answerable (split (byte ';') args) ≤ 1) :
    ∃ n ≤ 1, ∃ b'', handleVCont args b = .ok ((), b'') ∧ sentCount b'' = sentCount b + n := by
  obtain ⟨b', b'', hrun, hids, hwhole, hsent⟩ := vCont_replies hne b
  obtain ⟨k, hk, hfirst⟩ := atMost_vContElements [] _ b () b' hrun
  rcases hcount with hzero | ⟨hnone, hone⟩
  · rcases marked_count b' with hmark | hmark
    · exact ⟨k, by omega, b'', hwhole, by omega⟩
    · exact ⟨k + 1, by omega, b'', hwhole, by omega⟩
  · have hmark := marked_without_threads ((threads_nil_iff hids).mpr hnone)
    exact ⟨k, by omega, b'', hwhole, by omega⟩

/-- Against a target that refuses everything, each element that can be answered is, and the thread
found stopped is reported behind them. -/
theorem vCont_frozen (hne : [] ∉ split (byte ';') args) (b : GDBBridge Frozen) {n : Nat}
    {b'' : GDBBridge Frozen} (hrun : handleVCont args b = .ok ((), b''))
    (hsent : sentCount b'' = sentCount b + n) :
    n = answerable (split (byte ';') args) + if b.debugger.threads = [] then 0 else 1 := by
  obtain ⟨b', c, helements, hids, hwhole, hcount⟩ := vCont_replies hne b
  obtain rfl : c = b'' := by
    rw [hrun] at hwhole
    cases hwhole
    rfl
  have hfirst := adds_vContElements_frozen [] _ b () b' helements
  split
  · rename_i hnone
    have hmark := marked_without_threads ((threads_nil_iff hids).mpr hnone)
    omega
  · rename_i hsome
    have hmark := marked_frozen (fun h => hsome ((threads_nil_iff hids).mp h))
    omega

end Resume

theorem vContArgs_cases (data : Bytes) :
    vContArgs data = none ∨ ∃ args, vContArgs data = some args ∧ data = ascii "vCont;" ++ args := by
  unfold vContArgs
  by_cases h : (ascii "vCont;").isPrefixOf data = true
  · obtain ⟨args, rfl⟩ := List.isPrefixOf_iff_prefix.mp h
    exact .inr ⟨args, rfl, rfl⟩
  · exact .inl (if_neg h)

theorem answeredOnce_iff_orderly [Xbdm σ] (packet : GDBPacket) (b : GDBBridge σ) :
    AnsweredOnce packet b ↔ Orderly b packet.data := by
  unfold AnsweredOnce Orderly
  rcases vContArgs_cases packet.data with hv | ⟨args, hv, hdata⟩
  · rw [hv]
    exact sends_ordinary_iff hv b
  · have hpacket : ∀ (τ : Type) [Xbdm τ] (c : GDBBridge τ),
        handlePacket packet c = handleVCont args c := by
      intro τ _ c
      rw [← vCont_command args, ← hdata]
      rfl
    rw [hv]
    dsimp only
    constructor
    · intro h
      obtain ⟨n, hn, b'', hrun, hsent⟩ := h Frozen ⟨⟩
      rw [hpacket] at hrun
      have hne : [] ∉ split (byte ';') args := by
        intro hblank
        have hfault := faultOf_vCont args (retarget b (⟨⟩ : Frozen))
        rw [if_pos hblank, faultOf_eq_some_iff, hrun] at hfault
        cases hfault
      refine ⟨hne, ?_⟩
      have hcount := vCont_frozen hne _ hrun hsent
      by_cases hnone : b.debugger.threads = []
      · rw [if_pos (show (retarget b (⟨⟩ : Frozen)).debugger.threads = [] from hnone)] at hcount
        exact .inr ⟨hnone, by omega⟩
      · rw [if_neg (show ¬(retarget b (⟨⟩ : Frozen)).debugger.threads = [] from hnone)] at hcount
        exact .inl (by omega)
    · rintro ⟨hne, hcount⟩ τ _ target
      obtain ⟨n, hn, b'', hrun, hsent⟩ := vCont_atMost hne (retarget b target) hcount
      exact ⟨n, hn, b'', (hpacket τ _).trans hrun, hsent⟩

/-- A hardware breakpoint gets the empty reply twice. -/
theorem not_answeredOnce_hardware :
    ¬AnsweredOnce (.ofData (ascii "Z1,1000,1")) (GDBBridge.fresh : GDBBridge Script) := by
  rintro ⟨b', hrun, hsent⟩
  have htwo : sentCount b' = 2 := by
    cases hrun
    rfl
  rw [htwo] at hsent
  cases hsent

end XbdmGdbBridge.Proofs
