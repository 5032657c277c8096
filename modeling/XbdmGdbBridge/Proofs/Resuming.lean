import XbdmGdbBridge.Proofs.HandlerFaults

/-!
# Which threads a resume packet resumes

`HandleVCont` goes through its elements from left to right. What each of them asks of the debugger
is a function of the known threads and of the threads named so far; what a whole packet does to one
thread is put together from that.
-/

namespace XbdmGdbBridge.Proofs

open Lib Program CText Gdb GDBBridge

variable {σ : Type}

/-- A `c` or `s` element. A thread id that is not positive stands for no thread in particular. -/
structure Element where
  action : Action
  threadId : Int32
deriving DecidableEq, Repr

def elementAction (code : UInt8) : Option Action :=
  if code = byte 'c' then some .continue
  else if code = byte 's' then some .step
  else none

def element (command : Bytes) : Option Element :=
  match command with
  | [] => none
  | code :: _ =>
    match elementAction code, elementThreadId command with
    | some action, some threadId => some ⟨action, threadId⟩
    | _, _ => none

/-- The threads an element asks the debugger to resume, behind elements that named `processed`. -/
def elementLog (ids processed : List UInt32) (e : Element) : List (UInt32 × Action) :=
  match e.action with
  | .continue =>
    if processed = [] ∧ e.threadId ≤ 0 then ids.map fun id => (id, .continue)
    else if 0 < e.threadId then
      if e.threadId.toUInt32 ∈ ids then [(e.threadId.toUInt32, .continue)] else []
    else if e.threadId.toUInt32 ∈ ids then
      List.replicate (ids.filter (fun id => !processed.contains id)).length
        (e.threadId.toUInt32, .continue)
    else []
  | .step =>
    if 0 < e.threadId ∧ e.threadId.toUInt32 ∈ ids then [(e.threadId.toUInt32, .step)] else []

section Steps

theorem send_run (data : Bytes) (b : GDBBridge σ) :
    ∃ b', send data b = .ok ((), b') ∧ b'.debugger = b.debugger := ⟨_, rfl, rfl⟩

variable [Xbdm σ]

theorem continueUnprocessed_core (processed : List UInt32) (threadId : Int32)
    (rest : List UInt32) (d : XBDMDebugger σ) :
    core (continueUnprocessed processed threadId rest d).2 = (core d).resume
      (if threadId.toUInt32 ∈ d.threadIds then
        List.replicate (rest.filter (fun id => !processed.contains id)).length
          (threadId.toUInt32, .continue)
      else []) := by
  induction rest generalizing d with
  | nil =>
    rw [List.filter_nil, List.length_nil, List.replicate_zero, ite_self]
    exact (Core.resume_nil _).symm
  | cons id rest ih =>
    unfold continueUnprocessed
    rw [run_ite]
    by_cases hp : processed.contains id = true
    · rw [if_pos hp, ih, List.filter_cons_of_neg (by simpa using hp)]
    · have hids : (XBDMDebugger.continueThread threadId.toUInt32 d).2.threadIds = d.threadIds :=
        congrArg Core.threadIds (continueThread_core threadId.toUInt32 d)
      rw [if_neg hp, run_bind, ih, continueThread_core, Core.resume_resume, hids,
        List.filter_cons_of_pos (by simpa using hp)]
      by_cases hk : threadId.toUInt32 ∈ d.threadIds
      · simp only [if_pos hk, List.length_cons, List.replicate_succ, List.singleton_append]
      · simp only [if_neg hk, List.nil_append]

theorem vContContinue_run (processed : List UInt32) (threadId : Int32) (b : GDBBridge σ) :
    ∃ b', vContContinue processed threadId b = .ok ((), b') ∧
      core b'.debugger = (core b.debugger).resume
        (elementLog b.debugger.threadIds processed ⟨.continue, threadId⟩) := by
  unfold vContContinue elementLog
  by_cases hall : processed = [] ∧ threadId ≤ 0
  · simp only [if_pos hall]
    exact ⟨_, rfl, continueAll_core b.debugger⟩
  simp only [if_neg hall]
  by_cases hpos : 0 < threadId
  · simp only [if_pos hpos]
    exact ⟨_, rfl, continueThread_core _ b.debugger⟩
  simp only [if_neg hpos]
  exact ⟨_, rfl, continueUnprocessed_core processed threadId b.debugger.threadIds b.debugger⟩

theorem vContStep_run (processed : List UInt32) (threadId : Int32) (b : GDBBridge σ) :
    ∃ b' active, vContStep threadId b = .ok ((), b') ∧
      core b'.debugger = { core b.debugger with activeThreadId := active }.resume
        (elementLog b.debugger.threadIds processed ⟨.step, threadId⟩) := by
  unfold vContStep elementLog
  by_cases hpos : 0 < threadId
  · have hcore : ∀ d : XBDMDebugger σ, core (XBDMDebugger.stepInstruction
        (XBDMDebugger.setActiveThread threadId.toUInt32 d).2).2 =
        ((core d).activate threadId.toUInt32).resume
          (if 0 < threadId ∧ threadId.toUInt32 ∈ d.threadIds then [(threadId.toUInt32, .step)]
          else []) := by
      intro d
      rw [stepInstruction_core, setActiveThread_core]
      by_cases hk : threadId.toUInt32 ∈ d.threadIds
      · rw [setActiveThread_known hk, if_pos ⟨hpos, hk⟩]
        have hk' : threadId.toUInt32 ∈
            ({ d with activeThreadId := some threadId.toUInt32 } : XBDMDebugger σ).threadIds := hk
        simp only [Option.filter_some, hk', decide_true, if_true]
        rfl
      · rw [setActiveThread_unknown hk, if_neg (fun h => hk h.2)]
        rfl
    simp only [if_pos hpos, ask_bind]
    cases (XBDMDebugger.stepInstruction
      (XBDMDebugger.setActiveThread threadId.toUInt32 b.debugger).2).1 with
    | true => exact ⟨_, _, rfl, hcore b.debugger⟩
    | false => exact ⟨_, _, rfl, hcore b.debugger⟩
  · rw [if_neg hpos]
    obtain ⟨b', hrun, hsame⟩ := send_run (byte 'E' :: hexByte EBADMSG) b
    refine ⟨b', b.debugger.activeThreadId, hrun, ?_⟩
    rw [hsame]
    simp only [hpos, false_and, if_false]
    exact (Core.resume_nil _).symm

theorem element_cons {code : UInt8} {rest : Bytes} {threadId : Int32}
    (hid : elementThreadId (code :: rest) = some threadId) :
    element (code :: rest) = (elementAction code).map fun action => ⟨action, threadId⟩ := by
  simp only [element, hid]
  cases elementAction code with
  | none => rfl
  | some action => rfl

/-- An element changes the active thread and the threads asked to resume; the rest of the core,
the list of threads above all, stays. -/
theorem vContElement_run (processed : List UInt32) {command : Bytes} (hne : command ≠ [])
    (b : GDBBridge σ) :
    ∃ next b' active log, vContElement processed command b = .ok (next, b') ∧
      core b'.debugger = { core b.debugger with activeThreadId := active }.resume log ∧
      ∀ e, element command = some e → next = noteProcessed processed e.threadId ∧
        log = elementLog b.debugger.threadIds next e := by
  have hquiet : ∀ b' : GDBBridge σ, b'.debugger = b.debugger → core b'.debugger =
      { core b.debugger with activeThreadId := b.debugger.activeThreadId }.resume [] := by
    intro b' hsame
    rw [hsame]
    exact (Core.resume_nil _).symm
  obtain ⟨code, rest, rfl⟩ := List.exists_cons_of_ne_nil hne
  unfold vContElement
  cases hid : elementThreadId (code :: rest) with
  | none =>
    refine ⟨_, _, _, _, rfl, hquiet _ rfl, ?_⟩
    intro e he
    simp only [element, hid] at he
    cases ha : elementAction code with
    | none => simp [ha] at he
    | some action => simp [ha] at he
  | some threadId =>
    rw [element_cons hid]
    dsimp only
    rw [bind_apply]
    unfold vContAction
    dsimp only
    by_cases hc : code = byte 'c'
    · subst hc
      rw [if_pos rfl]
      obtain ⟨b', hrun, hcore⟩ := vContContinue_run (noteProcessed processed threadId) threadId b
      rw [hrun]
      refine ⟨_, b', b.debugger.activeThreadId, _, rfl, hcore, ?_⟩
      intro e he
      obtain rfl := Option.some.inj he
      exact ⟨rfl, rfl⟩
    rw [if_neg hc]
    by_cases hs : code = byte 's'
    · subst hs
      rw [if_pos rfl]
      obtain ⟨b', active, hrun, hcore⟩ :=
        vContStep_run (noteProcessed processed threadId) threadId b
      rw [hrun]
      refine ⟨_, b', active, _, rfl, hcore, ?_⟩
      intro e he
      obtain rfl := Option.some.inj he
      exact ⟨rfl, rfl⟩
    rw [if_neg hs]
    refine ⟨_, _, _, _, rfl, hquiet _ rfl, ?_⟩
    intro e he
    simp only [elementAction, if_neg hc, if_neg hs, Option.map_none] at he
    cases he

def elementsLog (ids : List UInt32) : List UInt32 → List Element → List (UInt32 × Action)
  | _, [] => []
  | processed, e :: rest =>
    elementLog ids (noteProcessed processed e.threadId) e ++
      elementsLog ids (noteProcessed processed e.threadId) rest

theorem vContElements_run (processed : List UInt32) {commands : List Bytes}
    (hne : [] ∉ commands) (b : GDBBridge σ) :
    ∃ b' active log, vContElements processed commands b = .ok ((), b') ∧
      core b'.debugger = { core b.debugger with activeThreadId := active }.resume log ∧
      ∀ es, commands.map element = es.map some →
        log = elementsLog b.debugger.threadIds processed es := by
  induction commands generalizing processed b with
  | nil =>
    refine ⟨b, b.debugger.activeThreadId, [], rfl, (Core.resume_nil _).symm, ?_⟩
    intro es hes
    obtain rfl : es = [] := by simpa using hes.symm
    rfl
  | cons command rest ih =>
    rw [List.mem_cons, not_or] at hne
    obtain ⟨next, b₁, active₁, log₁, hrun₁, hcore₁, hlog₁⟩ :=
      vContElement_run processed (Ne.symm hne.1) b
    obtain ⟨b₂, active₂, log₂, hrun₂, hcore₂, hlog₂⟩ := ih next hne.2 b₁
    refine ⟨b₂, active₂, log₁ ++ log₂, ?_, ?_, ?_⟩
    · unfold vContElements
      rw [bind_apply, hrun₁]
      exact hrun₂
    · rw [hcore₂, hcore₁]
      exact Core.resume_resume { core b.debugger with activeThreadId := active₂ } log₁ log₂
    · intro es hes
      cases es with
      | nil => cases hes
      | cons e es =>
        simp only [List.map_cons, List.cons.injEq] at hes
        obtain ⟨rfl, hfirst⟩ := hlog₁ e hes.1
        have hids : b₁.debugger.threadIds = b.debugger.threadIds := congrArg Core.threadIds hcore₁
        rw [hfirst, hlog₂ es hes.2, hids]
        rfl

/-- The bridge behind `MarkWaitingForStopPacket`. -/
def marked (b : GDBBridge σ) : GDBBridge σ :=
  let d := (XBDMDebugger.getFirstStoppedThread b.debugger).2
  match (XBDMDebugger.getFirstStoppedThread b.debugger).1 with
  | none => { b with debugger := d, waitingOnStopPacket := true }
  | some i =>
    match reportable (d.threadAt i) with
    | none => { b with debugger := d, waitingOnStopPacket := false }
    | some reason => reported { b with debugger := d } (d.threadAt i).threadId reason

theorem markWaiting_eq (b : GDBBridge σ) :
    markWaitingForStopPacket b = .ok ((), marked b) := by
  unfold markWaitingForStopPacket marked
  rw [ask_bind]
  cases (XBDMDebugger.getFirstStoppedThread b.debugger).1 with
  | none => rfl
  | some i =>
    dsimp only
    rw [bind_apply, sendThreadStopPacket_some]
    dsimp only
    cases reportable ((XBDMDebugger.getFirstStoppedThread b.debugger).2.threadAt i) with
    | none => rfl
    | some reason => rfl

/-- A list of elements without an empty one is worked through; then the bridge looks for a stopped
thread and lets the target go. -/
theorem handleVCont_run {args : Bytes} (hne : [] ∉ split (byte ';') args) (b : GDBBridge σ) :
    ∃ b', vContElements [] (split (byte ';') args) b = .ok ((), b') ∧
      handleVCont args b = .ok ((), { marked b' with
        debugger := (XBDMDebugger.go (marked b').debugger).2 }) := by
  obtain ⟨b', -, -, hrun, -⟩ := vContElements_run [] hne b
  refine ⟨b', hrun, ?_⟩
  have hargs : args ≠ [] := by
    rintro rfl
    exact hne (by decide)
  unfold handleVCont refuseEmpty
  rw [if_neg hargs, bind_apply, pure_apply]
  dsimp only
  rw [bind_apply, hrun]
  dsimp only
  rw [bind_apply, markWaiting_eq]
  rfl

end Steps

end XbdmGdbBridge.Proofs
