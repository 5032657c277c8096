import XbdmGdbBridge.Proofs.Session

/-!
# Breakpoints whose condition is false

The debugger evaluates the condition and lets the thread go on, but what it has noted about the stop
stays with the thread, and the bridge decides from that note alone.
-/

namespace XbdmGdbBridge.Proofs

open Lib Program Gdb XBDMDebugger

section Evaluation

open DebuggerExpressionParser

variable {τ γ α : Type} {g : τ → γ} {p : DebuggerExpressionParser τ}
  {expression : Precedence → List Token → Evaluation τ (UInt32 × List Token)}

theorem leaves_unexpected (message : Bytes) : Leaves g (unexpected message : Evaluation τ α).run :=
  Leaves.pure _

theorem leaves_return (a : α) : Leaves g (pure a : Evaluation τ α).run :=
  Leaves.pure _

theorem leaves_fault (fault : Fault) :
    Leaves g (ExceptT.lift (Program.fault fault) : Evaluation τ α).run :=
  Leaves.bind (Leaves.fault _) fun _ => Leaves.pure _

/-- An evaluation touches the state only through the memory reader. -/
theorem leaves_performRead
    (hread : ∀ read, p.memoryReader = some read → ∀ a n, Leaves g (read a n)) (addr size : UInt32) :
    Leaves g (p.performRead addr size).run := by
  unfold performRead
  cases hp : p.memoryReader with
  | none => exact leaves_unexpected _
  | some read =>
    dsimp only
    split
    · exact leaves_unexpected _
    · refine Leaves.except_bind (hread read hp addr size) ?_
      intro data
      split
      · exact leaves_unexpected _
      · split
        · exact leaves_fault _
        · exact leaves_return _

theorem leaves_parseSizedRead (hread : ∀ addr size, Leaves g (p.performRead addr size).run)
    (hexpr : ∀ precedence tokens, Leaves g (expression precedence tokens).run)
    (tokens : List Token) : Leaves g (parseSizedRead p expression tokens).run := by
  refine Leaves.except_bind (hexpr _ _) ?_
  rintro ⟨addr, rest⟩
  have hclose : ∀ r : UInt32 × List Token, Leaves g (if (peek r.2).type ≠ .rparen then
      unexpected (ascii "Expected ')'")
      else p.performRead addr r.1 >>= fun value => pure (value, r.2.tail) :
        Evaluation τ (UInt32 × List Token)).run := by
    intro r
    split
    · exact leaves_unexpected _
    · exact Leaves.except_bind (hread _ _) fun _ => leaves_return _
  dsimp only
  split
  · exact Leaves.except_bind (hexpr _ _) hclose
  · exact hclose (4, rest)

theorem leaves_parseBareRead (hread : ∀ addr size, Leaves g (p.performRead addr size).run)
    (hexpr : ∀ precedence tokens, Leaves g (expression precedence tokens).run)
    (tokens : List Token) : Leaves g (parseBareRead p expression tokens).run := by
  refine Leaves.except_bind (hexpr _ _) ?_
  rintro ⟨addr, rest⟩
  dsimp only
  split
  · refine Leaves.except_bind (hexpr _ _) ?_
    rintro ⟨offset, rest⟩
    dsimp only
    split
    · exact leaves_unexpected _
    · exact Leaves.except_bind (hread _ _) fun _ => leaves_return _
  · exact Leaves.except_bind (hread _ _) fun _ => leaves_return _

theorem leaves_parsePrefix (hread : ∀ addr size, Leaves g (p.performRead addr size).run)
    (hexpr : ∀ precedence tokens, Leaves g (expression precedence tokens).run) (token : Token)
    (tokens : List Token) : Leaves g (parsePrefix p expression token tokens).run := by
  unfold parsePrefix
  split
  · exact leaves_return _
  · split
    · split
      · exact leaves_unexpected _
      · exact leaves_return _
    · exact leaves_unexpected _
  · exact Leaves.except_bind (Leaves.pure _) fun _ => leaves_return _
  · refine Leaves.except_bind (hexpr _ _) ?_
    rintro ⟨value, rest⟩
    dsimp only
    split
    · exact leaves_unexpected _
    · exact leaves_return _
  · split
    · exact leaves_parseSizedRead hread hexpr _
    · exact leaves_parseBareRead hread hexpr _
  · exact leaves_unexpected _

theorem leaves_parseInfix (hexpr : ∀ precedence tokens, Leaves g (expression precedence tokens).run)
    (token : Token) (left : UInt32) (tokens : List Token) :
    Leaves g (parseInfix expression token left tokens).run := by
  refine Leaves.except_bind (hexpr _ _) ?_
  rintro ⟨right, rest⟩
  dsimp only
  split
  case h_12 => exact leaves_fault _
  all_goals exact leaves_return _

theorem leaves_infixLoop (hexpr : ∀ precedence tokens, Leaves g (expression precedence tokens).run)
    (precedence : Precedence) (fuel : Nat) (left : UInt32) (tokens : List Token) :
    Leaves g (infixLoop expression precedence fuel left tokens).run := by
  induction fuel generalizing left tokens with
  | zero => exact leaves_return _
  | succ fuel ih =>
    unfold infixLoop
    split
    · exact Leaves.except_bind (leaves_parseInfix hexpr _ _ _) fun _ => ih _ _
    · exact leaves_return _

theorem leaves_parseExpression (hread : ∀ addr size, Leaves g (p.performRead addr size).run)
    (fuel : Nat) (precedence : Precedence) (tokens : List Token) :
    Leaves g (parseExpression p fuel precedence tokens).run := by
  induction fuel generalizing precedence tokens with
  | zero => exact leaves_unexpected _
  | succ fuel ih =>
    unfold parseExpression
    split
    · exact leaves_unexpected _
    · exact Leaves.except_bind (leaves_parsePrefix hread ih _ _) fun _ => leaves_infixLoop ih _ _ _ _

theorem leaves_parse
    (hread : ∀ read, p.memoryReader = some read → ∀ a n, Leaves g (read a n)) (expr : Bytes) :
    Leaves g (p.parse expr).run := by
  unfold parse
  split
  · exact leaves_unexpected _
  · dsimp only
    split
    · exact leaves_unexpected _
    · refine Leaves.except_bind (leaves_parseExpression (leaves_performRead hread) _ _ _) ?_
      rintro ⟨value, rest⟩
      dsimp only
      split
      · exact leaves_unexpected _
      · exact leaves_return _

end Evaluation

/-- What a stop packet for the active thread depends on. -/
structure Standing where
  threads : List (UInt32 × Option StopReason)
  activeThreadId : Option UInt32

section Standing

variable {σ : Type}

def standing (d : XBDMDebugger σ) : Standing :=
  ⟨d.threads.map (fun t => (t.threadId, reportable t)), d.activeThreadId⟩

theorem threadIds_standing {d d' : XBDMDebugger σ} (h : standing d' = standing d) :
    d'.threadIds = d.threadIds := by
  have hthreads := congrArg (fun s => s.threads.map Prod.fst) h
  simpa [standing, threadIds, Function.comp_def] using hthreads

theorem activeThread_standing {d d' : XBDMDebugger σ} (h : standing d' = standing d) :
    d'.activeThread = d.activeThread := by
  have hactive : d'.activeThreadId = d.activeThreadId := congrArg Standing.activeThreadId h
  unfold activeThread
  rw [hactive]
  congr 1
  funext id
  exact getThread_congr (threadIds_standing h) id

theorem reportable_standing {d d' : XBDMDebugger σ} (h : standing d' = standing d) (i : ThreadRef) :
    reportable (d'.threadAt i) = reportable (d.threadAt i) := by
  have he := congrArg (fun s => s.threads[i]?.map Prod.snd) h
  simp only [standing, List.getElem?_map, Option.map_map] at he
  unfold threadAt
  rw [List.getD_eq_getElem?_getD, List.getD_eq_getElem?_getD]
  cases h₁ : d.threads[i]? <;> cases h₂ : d'.threads[i]? <;> simp_all

theorem findBreakpointCondition_core {d d' : XBDMDebugger σ}
    (h : (core d').conditions = (core d).conditions) (kind : BreakpointType) (address : UInt32) :
    d'.findBreakpointCondition kind address = d.findBreakpointCondition kind address :=
  congrArg (List.lookup (kind, address)) h

theorem keeps_standing_update (i : ThreadRef) {f : Thread → Thread}
    (hid : ∀ t, (f t).threadId = t.threadId) (hstop : ∀ t, reportable (f t) = reportable t) :
    Keeps standing (update i f : Op σ _) := by
  intro d
  have hthreads : (d.threads.modify i f).map (fun t => (t.threadId, reportable t)) =
      d.threads.map (fun t => (t.threadId, reportable t)) := by
    apply map_modify_same
    intro t
    rw [hid, hstop]
  change Standing.mk ((d.threads.modify i f).map _) _ = _
  rw [hthreads]
  rfl

theorem keeps_standing_deref (i : ThreadRef) : Keeps standing (deref i : Op σ _) := fun _ => rfl

variable [Xbdm σ]

theorem keeps_standing_request (r : Request) : Keeps standing (request r : Op σ _) := fun _ => rfl

theorem keeps_standing_accepted (r : Request) : Keeps standing (accepted r : Op σ _) :=
  (keeps_standing_request r).bind fun _ => Keeps.pure _

theorem keeps_standing_fetch (i : ThreadRef) (query : UInt32 → Request) {forget : Thread → Thread}
    {store : Reply → Thread → Thread}
    (hf : ∀ t, (forget t).threadId = t.threadId ∧ reportable (forget t) = reportable t)
    (hs : ∀ r t, (store r t).threadId = t.threadId ∧ reportable (store r t) = reportable t) :
    Keeps standing (fetch i query forget store : Op σ _) := by
  apply (keeps_standing_deref i).bind
  intro t
  apply (keeps_standing_request _).bind
  intro r
  cases r with
  | none =>
    exact (keeps_standing_update i (fun t => (hf t).1) fun t => (hf t).2).bind fun _ => Keeps.pure _
  | some reply =>
    exact (keeps_standing_update i (fun t => (hs reply t).1) fun t => (hs reply t).2).bind
      fun _ => Keeps.pure _

theorem keeps_standing_fetchInfoSync (i : ThreadRef) :
    Keeps standing (fetchInfoSync i : Op σ _) :=
  keeps_standing_fetch i _ (fun _ => ⟨rfl, rfl⟩) fun _ _ => ⟨rfl, rfl⟩

theorem keeps_standing_fetchContextSync (i : ThreadRef) :
    Keeps standing (fetchContextSync i : Op σ _) :=
  keeps_standing_fetch i _ (fun _ => ⟨rfl, rfl⟩) fun _ _ => ⟨rfl, rfl⟩

theorem keeps_standing_suspendBreakpoints (bps : List UInt32) :
    Keeps standing (suspendBreakpoints bps : Op σ _) := by
  induction bps with
  | nil => exact Keeps.pure _
  | cons bp rest ih => exact (keeps_standing_request _).bind fun _ => ih

theorem keeps_standing_restoreBreakpoints (bps : List UInt32) :
    Keeps standing (restoreBreakpoints bps : Op σ _) := by
  induction bps with
  | nil => exact Keeps.pure _
  | cons bp rest ih => exact (keeps_standing_request _).bind fun _ => ih

theorem keeps_standing_readMemory (address length : UInt32) :
    Keeps standing (readMemory address length : Op σ _) := by
  apply Keeps.get.bind
  intro d
  apply (keeps_standing_suspendBreakpoints _).bind
  intro _
  apply (keeps_standing_request _).bind
  intro _
  exact (keeps_standing_restoreBreakpoints _).bind fun _ => Keeps.pure _

theorem leaves_getMemory (address length : UInt32) :
    Leaves standing (getMemory address length : XBDMDebugger.Handler σ _) := by
  have hvalidate : Leaves standing (validateMemoryAccess address length :
      XBDMDebugger.Handler σ Bool) := by
    unfold validateMemoryAccess
    split
    · exact Leaves.fault _
    · intro d a d' h
      cases h
      rfl
  refine hvalidate.bind ?_
  intro allowed
  cases allowed with
  | false => exact Leaves.pure _
  | true => exact (keeps_standing_readMemory address length).leaves

theorem leaves_evaluateCondition (i : ThreadRef) (condition : Bytes) :
    Leaves standing (evaluateCondition i condition : XBDMDebugger.Handler σ _) := by
  refine (keeps_standing_fetchContextSync i).leaves.bind ?_
  intro fetched
  refine (keeps_standing_deref i).leaves.bind ?_
  intro thread
  cases thread.context with
  | none => exact Leaves.pure _
  | some context =>
    refine Leaves.bind (leaves_parse ?_ condition) ?_
    · intro read hr address size
      cases hr
      refine (leaves_getMemory address size).bind ?_
      intro data
      cases data with
      | none => exact Leaves.pure _
      | some data => exact Leaves.pure _
    · intro result
      cases result with
      | error message => exact Leaves.pure _
      | ok value => exact Leaves.pure _

/-- Neither the continue of a thread nor the go touches what was noted about its stop. -/
theorem keeps_standing_continueThread (threadId : UInt32) :
    Keeps standing (continueThread threadId : Op σ _) := by
  apply Keeps.get.bind
  intro d
  cases d.getThread threadId with
  | none => exact Keeps.pure _
  | some i =>
    apply (keeps_standing_deref i).bind
    intro thread
    have hnote : Keeps standing (noteResumed thread.threadId .continue : Op σ _) := fun _ => rfl
    apply hnote.bind
    intro _
    exact (keeps_standing_deref i).bind fun _ => keeps_standing_accepted _

end Standing

section Reports

open GDBBridge

variable {σ α : Type}

theorem attempt_apply (x : XBDMDebugger.Handler σ α) (b : GDBBridge σ) :
    attempt x b = match x b.debugger with
      | .ok (a, d) => .ok (a, { b with debugger := d })
      | .error e => .error e := by
  unfold attempt Program.on
  rw [show debuggerPart.read b = b.debugger from rfl]
  cases x b.debugger <;> rfl

/-- GDB waits for a stop, and the active thread is marked stopped with a known reason. -/
def Reports (b : GDBBridge σ) : Prop :=
  b.waitingOnStopPacket = true ∧
    ∃ i, b.debugger.activeThread = some i ∧ (reportable (b.debugger.threadAt i)).isSome

theorem reportStop_spec (b : GDBBridge σ) :
    ∃ b' replies, reportStop b = .ok ((), b') ∧ b'.debugger = b.debugger ∧
      b'.replies = b.replies ++ replies ∧
      ((∀ p ∈ replies, isStopReply p = false) ↔ ¬Reports b) := by
  have hquiet : ¬Reports b → reportStop b = .ok ((), b) := by
    intro hr
    rw [reportStop_eq]
    split
    next hw =>
      cases hactive : b.debugger.activeThread with
      | none => rfl
      | some i =>
        have hnone : reportable (b.debugger.threadAt i) = none := by
          rw [← Option.not_isSome_iff_eq_none]
          exact fun hsome => hr ⟨hw, i, hactive, hsome⟩
        rw [sendThreadStopPacket_some, hnone]
    next => rfl
  by_cases hr : Reports b
  · obtain ⟨hw, i, hactive, hsome⟩ := hr
    obtain ⟨reason, hreason⟩ := Option.isSome_iff_exists.mp hsome
    refine ⟨reported b (b.debugger.threadAt i).threadId reason, _, ?_, rfl, rfl, ?_⟩
    · rw [reportStop_eq, if_pos hw, hactive, sendThreadStopPacket_some, hreason]
    · refine iff_of_false ?_ (not_not.mpr ⟨hw, i, hactive, hsome⟩)
      intro hall
      have hstop := hall _ (List.mem_singleton.mpr rfl)
      rw [stopPacket_isStopReply] at hstop
      cases hstop
  · exact ⟨b, [], hquiet hr, rfl, (List.append_nil _).symm, by simpa using hr⟩

end Reports

section Notifications

open GDBBridge

variable {σ : Type} [Xbdm σ]

/-- What `OnBreakpoint` does before it looks for a condition. -/
def arriveBreakpoint (i : ThreadRef) (address : UInt32) : Op σ Unit := do
  noteStop i address
  let _ ← fetchInfoSync i
  match (← deref i).suspendCount with
  | none => pure ()
  | some n => if 0 < n then let _ ← resumeSync i else pure ()

/-- The condition `text` is evaluated to 0 for thread `i` in the state `d`. -/
def EvaluatesToZero (i : ThreadRef) (text : Bytes) (d : XBDMDebugger σ) : Prop :=
  ∃ d', evaluateCondition i text d = .ok (some 0, d')

/-- The notification is for a known thread and has a registered condition, which evaluates to 0 when
the debugger comes to it. -/
def ConditionFalse (d : XBDMDebugger σ) : Notification → Prop
  | .breakpoint threadId address => ∃ i text, d.getThread threadId = some i ∧
      d.findBreakpointCondition .breakpoint address = some text ∧
      EvaluatesToZero i text (arriveBreakpoint i address d).2
  | .watchpoint type threadId address watched => ∃ i kind text, d.getThread threadId = some i ∧
      watchType type = some kind ∧ d.findBreakpointCondition kind watched = some text ∧
      EvaluatesToZero i text (noteStop i address d).2
  | _ => False

/-- The reason the target gives for the stop of the thread, if it is one the bridge knows. -/
def reasonGiven (d : XBDMDebugger σ) (threadId : UInt32) : Option StopReason :=
  let reply := (Xbdm.answer (.isStopped threadId) d.context.target).1
  if reply.status = .ok then reply.stopReason else none

/-- The state in which `noteStop` asks the target for the reason. -/
def stoppedAt (d : XBDMDebugger σ) (i : ThreadRef) (address : UInt32) : XBDMDebugger σ :=
  { d with
    activeThreadId := some (d.threadAt i).threadId
    threads := d.threads.modify i fun t => { t with lastKnownAddress := some address } }

theorem noteStop_eq {d : XBDMDebugger σ} {threadId : UInt32} {i : ThreadRef}
    (h : d.getThread threadId = some i) (address : UInt32) :
    (noteStop i address d).2 = (fetchStopReasonSync i (stoppedAt d i address)).2 := by
  have hmem : (d.threadAt i).threadId ∈ d.threadIds := threadAt_mem (getThread_lt h)
  have hset := setActiveThread_known hmem
  change (fetchStopReasonSync i (update i _ (setActiveThread (d.threadAt i).threadId d).2).2).2 = _
  rw [hset]
  rfl

theorem noteStop_core {d : XBDMDebugger σ} {threadId : UInt32} {i : ThreadRef}
    (h : d.getThread threadId = some i) (address : UInt32) :
    core (noteStop i address d).2 = { core d with activeThreadId := some threadId } := by
  rw [noteStop_eq h, aside_core.fetchStopReasonSync]
  have hids : (stoppedAt d i address).threadIds = d.threadIds := map_modify_same (by intro t; rfl) _ _
  unfold core
  rw [hids, ← getThread_id h]
  rfl

theorem reportable_noteStopReason (reply : Reply) (t : Thread) :
    reportable (noteStopReason reply t) =
      if reply.status = .ok then reply.stopReason else none := by
  unfold reportable noteStopReason
  by_cases hok : reply.status = .ok
  · rw [if_pos hok, if_pos (by rw [hok]; rfl)]
  · rw [if_neg hok, if_neg (by simpa using hok)]

theorem noteStop_reportable {d : XBDMDebugger σ} {threadId : UInt32} {i : ThreadRef}
    (h : d.getThread threadId = some i) (address : UInt32) :
    reportable ((noteStop i address d).2.threadAt i) = reasonGiven d threadId := by
  have hlt : i < (stoppedAt d i address).threads.length := by
    simpa [stoppedAt] using getThread_lt h
  have hthread := threadAt_update (getThread_lt h) fun t : Thread =>
    { t with lastKnownAddress := some address }
  have hid : ((stoppedAt d i address).threadAt i).threadId = threadId :=
    (congrArg Thread.threadId hthread).trans (getThread_id h)
  rw [noteStop_eq h, fetchStopReasonSync, fetch_threadAt hlt, hid]
  unfold reasonGiven
  have hreply : (request (.isStopped threadId) (stoppedAt d i address)).1 =
      let reply := (Xbdm.answer (.isStopped threadId) d.context.target).1
      if Request.isOK (.isStopped threadId) reply.status then some reply else none := rfl
  rw [hreply]
  generalize (Xbdm.answer (.isStopped threadId) d.context.target).1 = reply
  dsimp only
  split
  next answered hnone =>
    have hrefused : ¬reply.status = .ok := by
      intro hok
      rw [hok] at hnone
      cases hnone
    rw [if_neg hrefused]
    unfold reportable
    split <;> rfl
  next answered other hsome =>
    have hanswered : other = reply := by
      split at hsome
      · exact (Option.some.inj hsome).symm
      · cases hsome
    rw [hanswered]
    exact reportable_noteStopReason reply _

theorem concludeStop_false {d : XBDMDebugger σ} {i : ThreadRef} {text : Bytes}
    (h : EvaluatesToZero i text d) :
    ∃ d', concludeStop i (some text) d = .ok ((), d') ∧ standing d' = standing d := by
  obtain ⟨d₁, h₁⟩ := h
  have hgo : Keeps standing (go : Op σ _) := keeps_standing_accepted _
  refine ⟨(go (continueThread (d₁.threadAt i).threadId d₁).2).2, ?_, ?_⟩
  · unfold concludeStop
    dsimp only
    rw [bind_apply, h₁]
    rfl
  · rw [hgo, keeps_standing_continueThread]
    exact leaves_evaluateCondition i text _ _ _ h₁

theorem keeps_arrival (i : ThreadRef) (d : XBDMDebugger σ) (address : UInt32) {γ : Type}
    {g : XBDMDebugger σ → γ} (hinfo : Keeps g (fetchInfoSync i : Op σ _))
    (hresume : Keeps g (resumeSync i : Op σ _)) :
    g (arriveBreakpoint i address d).2 = g (noteStop i address d).2 := by
  have hrest : Keeps g (do
      let _ ← fetchInfoSync i
      match (← deref i).suspendCount with
      | none => pure ()
      | some n => if 0 < n then let _ ← resumeSync i else pure () : Op σ Unit) := by
    apply hinfo.bind
    intro _
    apply Keeps.bind (fun _ => rfl)
    intro thread
    cases thread.suspendCount with
    | none => exact Keeps.pure _
    | some n =>
      refine Keeps.ite ?_ (Keeps.pure _)
      exact hresume.bind fun _ => Keeps.pure _
  exact hrest _

theorem onBreakpoint_eq {d : XBDMDebugger σ} {threadId : UInt32} {i : ThreadRef}
    (h : d.getThread threadId = some i) (address : UInt32) :
    onBreakpoint threadId address d =
      concludeStop i ((arriveBreakpoint i address d).2.findBreakpointCondition .breakpoint address)
        (arriveBreakpoint i address d).2 := by
  unfold onBreakpoint arriveBreakpoint
  rw [get_bind_apply, h]
  dsimp only
  rw [bind_total, bind_total, get_bind_apply]
  simp only [run_bind, run_deref]
  generalize (fetchInfoSync i (noteStop i address d).2).2 = d₁
  cases (d₁.threadAt i).suspendCount with
  | none => rfl
  | some n =>
    dsimp only
    by_cases hn : 0 < n
    · rw [if_pos hn, if_pos hn]
      rfl
    · rw [if_neg hn, if_neg hn]
      rfl

theorem onWatchpoint_eq {d : XBDMDebugger σ} {threadId : UInt32} {i : ThreadRef}
    (h : d.getThread threadId = some i) (type : AccessType) (address watched : UInt32) :
    onWatchpoint type threadId address watched d =
      concludeStop i ((watchType type).bind
        ((noteStop i address d).2.findBreakpointCondition · watched)) (noteStop i address d).2 := by
  unfold onWatchpoint
  rw [get_bind_apply, h]
  rfl

/-- The thread a breakpoint or watchpoint notification is about. -/
def threadOf : Notification → Option UInt32
  | .breakpoint threadId _ => some threadId
  | .watchpoint _ threadId _ _ => some threadId
  | _ => none

theorem marked_noteStop {d d' : XBDMDebugger σ} {threadId : UInt32} {i : ThreadRef}
    (hi : d.getThread threadId = some i) {address : UInt32}
    (h : standing d' = standing (noteStop i address d).2) :
    d'.activeThread = some i ∧ reportable (d'.threadAt i) = reasonGiven d threadId := by
  have hcore := noteStop_core hi address
  have hids : (noteStop i address d).2.threadIds = d.threadIds := congrArg Core.threadIds hcore
  have hactive : (noteStop i address d).2.activeThreadId = some threadId :=
    congrArg Core.activeThreadId hcore
  constructor
  · rw [activeThread_standing h, activeThread, hactive]
    exact (getThread_congr hids threadId).trans hi
  · rw [reportable_standing h, noteStop_reportable hi]

/-- Behind the debugger's handling the thread is the active one and is marked with what the target
said about it, as if the condition had held. -/
theorem onNotification_false {d : XBDMDebugger σ} {n : Notification} (h : ConditionFalse d n) :
    ∃ threadId i d', threadOf n = some threadId ∧ XBDMDebugger.onNotification n d = .ok ((), d') ∧
      d'.activeThread = some i ∧ reportable (d'.threadAt i) = reasonGiven d threadId := by
  cases n with
  | breakpoint threadId address =>
    obtain ⟨i, text, hi, htext, hzero⟩ := h
    obtain ⟨d', hrun, hd⟩ := concludeStop_false hzero
    have hcore : core (arriveBreakpoint i address d).2 = core (noteStop i address d).2 :=
      keeps_arrival i d address (aside_core.fetchInfoSync i) (aside_core.resumeSync i)
    have hstanding : standing (arriveBreakpoint i address d).2 = standing (noteStop i address d).2 :=
      keeps_arrival i d address (keeps_standing_fetchInfoSync i)
        ((keeps_standing_deref i).bind fun _ => keeps_standing_accepted _)
    have hfind : (arriveBreakpoint i address d).2.findBreakpointCondition .breakpoint address =
        some text := by
      rw [← htext]
      apply findBreakpointCondition_core
      rw [hcore, noteStop_core hi]
    refine ⟨threadId, i, d', rfl, ?_, marked_noteStop hi (hd.trans hstanding)⟩
    change onBreakpoint threadId address d = _
    rw [onBreakpoint_eq hi, hfind, hrun]
  | watchpoint type threadId address watched =>
    obtain ⟨i, kind, text, hi, hkind, htext, hzero⟩ := h
    obtain ⟨d', hrun, hd⟩ := concludeStop_false hzero
    have hfind : (noteStop i address d).2.findBreakpointCondition kind watched = some text := by
      rw [← htext]
      apply findBreakpointCondition_core
      rw [noteStop_core hi]
    refine ⟨threadId, i, d', rfl, ?_, marked_noteStop hi hd⟩
    change onWatchpoint type threadId address watched d = _
    rw [onWatchpoint_eq hi, hkind, Option.bind_some, hfind, hrun]
  | _ => exact h.elim

/-- Both subscribers have handled the notification and no stop reply has been sent. -/
def Invisible (first : First) (n : Notification) (b : GDBBridge σ) : Prop :=
  ∃ b' replies, dispatchNotification first n b = .ok ((), b') ∧ b'.replies = b.replies ++ replies ∧
    ∀ p ∈ replies, isStopReply p = false

/-- The bridge's handler comes to a stop it reports: on the notified thread, if the debugger has been
told first and the target gives a known reason, or on the thread that was active before. -/
def Shown (b : GDBBridge σ) (n : Notification) : First → Prop
  | .debugger => b.waitingOnStopPacket = true ∧
      ∃ threadId, threadOf n = some threadId ∧ (reasonGiven b.debugger threadId).isSome
  | .bridge => Reports b

theorem invisible_of_run {first : First} {n : Notification} {b b' : GDBBridge σ}
    {replies : List GDBPacket} (hrun : dispatchNotification first n b = .ok ((), b'))
    (hreplies : b'.replies = b.replies ++ replies) :
    Invisible first n b ↔ ∀ p ∈ replies, isStopReply p = false := by
  constructor
  · rintro ⟨c, other, hc, hother, hnone⟩
    rw [hrun] at hc
    cases hc
    rw [hreplies] at hother
    rwa [List.append_cancel_left hother]
  · exact fun hnone => ⟨b', replies, hrun, hreplies, hnone⟩

/-- A stop whose condition is false is hidden from GDB only if there is nothing to report. -/
theorem invisible_iff_not_shown {first : First} {n : Notification} {b : GDBBridge σ}
    (h : ConditionFalse b.debugger n) : Invisible first n b ↔ ¬Shown b n first := by
  obtain ⟨threadId, i, d, hthread, hdebugger, hactive, hreason⟩ := onNotification_false h
  have hreports : (GDBBridge.onNotification n : GDBBridge.Handler σ Unit) = reportStop := by
    cases n with
    | breakpoint id address => rfl
    | watchpoint type id address watched => rfl
    | _ => cases hthread
  cases first with
  | debugger =>
    obtain ⟨b', replies, hrun, -, hreplies, hnone⟩ := reportStop_spec { b with debugger := d }
    have hboth : dispatchNotification .debugger n b = .ok ((), b') := by
      change (attempt (XBDMDebugger.onNotification n) >>= fun _ => GDBBridge.onNotification n) b = _
      rw [bind_apply, attempt_apply, hdebugger, hreports]
      exact hrun
    rw [invisible_of_run hboth hreplies, hnone]
    refine not_congr (and_congr_right fun _ => ?_)
    constructor
    · rintro ⟨j, hj, hsome⟩
      obtain rfl : i = j := Option.some.inj (hactive.symm.trans hj)
      exact ⟨threadId, hthread, hreason ▸ hsome⟩
    · rintro ⟨id, hid, hsome⟩
      obtain rfl : threadId = id := Option.some.inj (hthread.symm.trans hid)
      exact ⟨i, hactive, hreason.symm ▸ hsome⟩
  | bridge =>
    obtain ⟨b', replies, hrun, hd, hreplies, hnone⟩ := reportStop_spec b
    have hboth : dispatchNotification .bridge n b = .ok ((), { b' with debugger := d }) := by
      change (GDBBridge.onNotification n >>= fun _ => attempt (XBDMDebugger.onNotification n)) b = _
      rw [bind_apply, hreports, hrun]
      dsimp only
      rw [attempt_apply, hd, hdebugger]
    rw [invisible_of_run hboth hreplies, hnone]
    rfl

/-- A bridge with the condition "0" at address 0x1000 and one thread, which the target reports as
stopped at a breakpoint. -/
def neverStops (waiting : Bool) : GDBBridge Script :=
  let b := GDBBridge.fresh
    [{ status := .ok, reason := ascii "break" }, { status := .okMultilineResponse },
      { status := .okMultilineResponse }, { status := .ok }, { status := .ok }]
    [⟨1, none, none, none, none, false, none⟩]
  { b with
    debugger := { b.debugger with breakpointConditions := [((.breakpoint, 0x1000), ascii "0")] }
    waitingOnStopPacket := waiting }

theorem conditionFalse_neverStops (waiting : Bool) :
    ConditionFalse (neverStops waiting).debugger (.breakpoint 1 0x1000) :=
  ⟨0, ascii "0", rfl, rfl, _, rfl⟩

theorem invisible_not_waiting :
    ConditionFalse (neverStops false).debugger (.breakpoint 1 0x1000) ∧
      Invisible .debugger (.breakpoint 1 0x1000) (neverStops false) := by
  have hfalse := conditionFalse_neverStops false
  refine ⟨hfalse, (invisible_iff_not_shown hfalse).mpr ?_⟩
  rintro ⟨hw, -⟩
  cases hw

theorem not_invisible_waiting :
    ConditionFalse (neverStops true).debugger (.breakpoint 1 0x1000) ∧
      ¬Invisible .debugger (.breakpoint 1 0x1000) (neverStops true) := by
  refine ⟨conditionFalse_neverStops true, ?_⟩
  rintro ⟨b, replies, hrun, hreplies, hnone⟩
  cases hrun
  have hsent : replies = [.ofData (stopPacket 1 .breakpoint)] := hreplies.symm
  have hstop := hnone _ (hsent ▸ List.mem_singleton_self _)
  rw [stopPacket_isStopReply] at hstop
  cases hstop

end Notifications

end XbdmGdbBridge.Proofs
