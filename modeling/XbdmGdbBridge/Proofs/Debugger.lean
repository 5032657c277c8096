import XbdmGdbBridge.Xbox.Notifications

/-!
# What debugger operations leave alone

Most operations only talk to the target and refresh what is known about a thread. `Core` is the
part of the debugger they do not touch; the few that do are described one by one.
-/

namespace XbdmGdbBridge.Proofs

open Lib XBDMDebugger

variable {σ : Type}

structure Core where
  threadIds : List UInt32
  activeThreadId : Option UInt32
  resumed : List (UInt32 × Action)
  state : ExecutionState
  breakpoints : List UInt32
  conditions : List ((BreakpointType × UInt32) × Bytes)

def core (d : XBDMDebugger σ) : Core :=
  ⟨d.threadIds, d.activeThreadId, d.resumed, d.state, d.breakpoints, d.breakpointConditions⟩

section Refs

variable {d d' : XBDMDebugger σ} {i : ThreadRef} {id : UInt32}

theorem getThread_lt (h : d.getThread id = some i) : i < d.threads.length :=
  (List.findIdx?_eq_some_iff_getElem.mp h).choose

theorem getThread_id (h : d.getThread id = some i) : (d.threadAt i).threadId = id := by
  obtain ⟨hi, he, -⟩ := List.findIdx?_eq_some_iff_getElem.mp h
  rw [threadAt, List.getD_eq_getElem _ _ hi]
  simpa using he

theorem getThread_isSome : (d.getThread id).isSome ↔ id ∈ d.threadIds := by
  simp [getThread, threadIds, List.findIdx?_isSome]

theorem activeThread_nil (h : d.threadIds = []) : d.activeThread = none := by
  have hnil : d.threads = [] := List.map_eq_nil_iff.mp h
  unfold activeThread
  cases d.activeThreadId with
  | none => rfl
  | some id => simp [getThread, hnil]

theorem threadAt_mem (h : i < d.threads.length) : (d.threadAt i).threadId ∈ d.threadIds := by
  rw [threadAt, List.getD_eq_getElem _ _ h]
  exact List.mem_map_of_mem (List.getElem_mem h)

theorem length_of_ids (h : d'.threadIds = d.threadIds) : d'.threads.length = d.threads.length := by
  simpa [threadIds] using congrArg List.length h

theorem threadAt_update (h : i < d.threads.length) (f : Thread → Thread) :
    ({ d with threads := d.threads.modify i f } : XBDMDebugger σ).threadAt i = f (d.threadAt i) := by
  unfold threadAt
  rw [List.getD_eq_getElem _ _ h, List.getD_eq_getElem _ _ (by simpa using h)]
  exact List.getElem_modify_eq f i d.threads _

/-- A position holds the same thread as long as the ids stay as they are. -/
theorem threadAt_id_congr (h : d'.threadIds = d.threadIds) (i : ThreadRef) :
    (d'.threadAt i).threadId = (d.threadAt i).threadId := by
  have he := congrArg (fun l => l[i]?) h
  simp only [threadIds, List.getElem?_map] at he
  unfold threadAt
  rw [List.getD_eq_getElem?_getD, List.getD_eq_getElem?_getD]
  cases h₁ : d.threads[i]? <;> cases h₂ : d'.threads[i]? <;> simp_all

theorem getThread_congr (h : d'.threadIds = d.threadIds) (id : UInt32) :
    d'.getThread id = d.getThread id := by
  have hm : ∀ e : XBDMDebugger σ, e.getThread id = e.threadIds.findIdx? (· == id) := by
    intro e
    simp [getThread, threadIds, List.findIdx?_map, Function.comp_def]
  rw [hm, hm, h]

theorem anyThreadID_eq (d : XBDMDebugger σ) :
    d.anyThreadID = d.threadIds.head?.map fun id => d.activeThreadId.getD id := by
  unfold anyThreadID threadIds
  cases d.threads <;> rfl

end Refs

section Quiet

theorem run_deref (i : ThreadRef) (d : XBDMDebugger σ) : deref i d = (d.threadAt i, d) := rfl

theorem keeps_deref (i : ThreadRef) : Keeps core (deref i : Op σ _) := fun _ => rfl

theorem map_modify_same {α β : Type} {g : α → β} {f : α → α} (hf : ∀ a, g (f a) = g a) (l : List α)
    (i : Nat) : (l.modify i f).map g = l.map g := by
  apply List.ext_getElem?
  intro n
  rw [List.getElem?_map, List.getElem?_map, List.getElem?_modify]
  cases l[n]? with
  | none => simp
  | some a => by_cases hn : i = n <;> simp [hn, hf]

theorem keeps_update (i : ThreadRef) {f : Thread → Thread}
    (hf : ∀ t, (f t).threadId = t.threadId) : Keeps core (update i f : Op σ _) := by
  intro d
  change Core.mk ((d.threads.modify i f).map Thread.threadId) _ _ _ _ _ = _
  rw [map_modify_same hf]
  rfl

variable [Xbdm σ]

theorem keeps_request (r : Request) : Keeps core (request r : Op σ _) := fun _ => rfl

theorem keeps_accepted (r : Request) : Keeps core (accepted r : Op σ _) :=
  (keeps_request r).bind fun _ => Keeps.pure _

theorem fetch_result (i : ThreadRef) (query : UInt32 → Request) (forget : Thread → Thread)
    (store : Reply → Thread → Thread) (d : XBDMDebugger σ) :
    (fetch i query forget store d).1 = (request (query (d.threadAt i).threadId) d).1.isSome := by
  simp only [fetch, run_bind, run_deref]
  cases (request (query (d.threadAt i).threadId) d).1 with
  | none => rfl
  | some reply => rfl

theorem fetch_threadAt {i : ThreadRef} {d : XBDMDebugger σ} (h : i < d.threads.length)
    (query : UInt32 → Request) (forget : Thread → Thread) (store : Reply → Thread → Thread) :
    (fetch i query forget store d).2.threadAt i =
      match (request (query (d.threadAt i).threadId) d).1 with
      | none => forget (d.threadAt i)
      | some reply => store reply (d.threadAt i) := by
  simp only [fetch, run_bind, run_deref]
  cases (request (query (d.threadAt i).threadId) d).1 with
  | none => exact threadAt_update h forget
  | some reply => exact threadAt_update h (store reply)

theorem fetch_context (i : ThreadRef) (query : UInt32 → Request) (forget : Thread → Thread)
    (store : Reply → Thread → Thread) (d : XBDMDebugger σ) :
    (fetch i query forget store d).2.context =
      (request (query (d.threadAt i).threadId) d).2.context := by
  simp only [fetch, run_bind, run_deref]
  cases (request (query (d.threadAt i).threadId) d).1 with
  | none => rfl
  | some reply => rfl

/-- A part of the debugger that is not touched by talking to the target about anything but
breakpoints, by what is noted about a thread, and by what is known of the memory. -/
structure Aside {γ : Type} (g : XBDMDebugger σ → γ) : Prop where
  request (r : Request) (h : r.isBreak = false) : Keeps g (XBDMDebugger.request r : Op σ _)
  update (i : ThreadRef) {f : Thread → Thread} (h : ∀ t, (f t).threadId = t.threadId) :
    Keeps g (XBDMDebugger.update i f : Op σ _)
  regions (l : List MemoryRegion) : Keeps g (modify fun d => { d with memoryRegions := l } : Op σ _)

namespace Aside

variable {γ : Type} {g : XBDMDebugger σ → γ} (h : Aside g)
include h

theorem accepted {r : Request} (hr : r.isBreak = false) :
    Keeps g (XBDMDebugger.accepted r : Op σ _) :=
  (h.request r hr).bind fun _ => Keeps.pure _

omit h [Xbdm σ] in
theorem deref (i : ThreadRef) : Keeps g (XBDMDebugger.deref i : Op σ _) := fun _ => rfl

theorem fetch (i : ThreadRef) {query : UInt32 → Request} (hq : ∀ id, (query id).isBreak = false)
    {forget : Thread → Thread} {store : Reply → Thread → Thread}
    (hf : ∀ t, (forget t).threadId = t.threadId) (hs : ∀ r t, (store r t).threadId = t.threadId) :
    Keeps g (XBDMDebugger.fetch i query forget store : Op σ _) := by
  apply (deref i).bind
  intro t
  apply (h.request _ (hq _)).bind
  intro r
  cases r with
  | none => exact (h.update i hf).bind fun _ => Keeps.pure _
  | some reply => exact (h.update i (hs reply)).bind fun _ => Keeps.pure _

theorem fetchInfoSync (i : ThreadRef) : Keeps g (XBDMDebugger.fetchInfoSync i : Op σ _) :=
  h.fetch i (fun _ => rfl) (fun _ => rfl) fun _ _ => rfl

theorem fetchContextSync (i : ThreadRef) : Keeps g (XBDMDebugger.fetchContextSync i : Op σ _) :=
  h.fetch i (fun _ => rfl) (fun _ => rfl) fun _ _ => rfl

theorem fetchFloatContextSync (i : ThreadRef) :
    Keeps g (XBDMDebugger.fetchFloatContextSync i : Op σ _) :=
  h.fetch i (fun _ => rfl) (fun _ => rfl) fun _ _ => rfl

theorem fetchStopReasonSync (i : ThreadRef) :
    Keeps g (XBDMDebugger.fetchStopReasonSync i : Op σ _) :=
  h.fetch i (fun _ => rfl) (fun _ => rfl) fun _ _ => rfl

theorem continueSync (i : ThreadRef) : Keeps g (XBDMDebugger.continueSync i : Op σ _) :=
  (deref i).bind fun _ => h.accepted rfl

theorem resumeSync (i : ThreadRef) : Keeps g (XBDMDebugger.resumeSync i : Op σ _) :=
  (deref i).bind fun _ => h.accepted rfl

theorem stepThread (i : ThreadRef) : Keeps g (XBDMDebugger.stepThread i : Op σ _) := by
  apply (h.fetchContextSync i).bind
  intro fetched
  apply Keeps.ite (Keeps.pure _)
  apply (deref i).bind
  intro t
  dsimp only
  split
  · exact Keeps.pure _
  · apply Keeps.ite (Keeps.pure _)
    apply (h.accepted rfl).bind
    intro written
    exact Keeps.ite (Keeps.pure _) (h.continueSync i)

theorem stop : Keeps g (XBDMDebugger.stop : Op σ _) := h.accepted rfl

theorem go : Keeps g (XBDMDebugger.go : Op σ _) := h.accepted rfl

theorem stepAndGo (i : ThreadRef) : Keeps g (XBDMDebugger.stepAndGo i : Op σ _) :=
  (h.stepThread i).bind fun _ => Keeps.ite h.go (Keeps.pure _)

theorem firstStopped (active : Option UInt32) (refs : List ThreadRef) :
    Keeps g (XBDMDebugger.firstStopped active refs : Op σ _) := by
  induction refs with
  | nil => exact Keeps.pure _
  | cons i rest ih =>
    apply (deref i).bind
    intro t
    apply Keeps.ite ih
    apply (h.fetchStopReasonSync i).bind
    intro fetched
    apply (deref i).bind
    intro t'
    exact Keeps.ite (Keeps.pure _) ih

theorem getFirstStoppedThread : Keeps g (XBDMDebugger.getFirstStoppedThread : Op σ _) := by
  apply Keeps.get.bind
  intro d
  cases d.activeThread with
  | none => exact h.firstStopped _ _
  | some i =>
    apply (h.fetchStopReasonSync i).bind
    intro fetched
    apply (deref i).bind
    intro t
    exact Keeps.ite (Keeps.pure _) (h.firstStopped _ _)

theorem fetchMemoryMap : Keeps g (XBDMDebugger.fetchMemoryMap : Op σ _) := by
  apply (h.request _ rfl).bind
  intro r
  cases r with
  | none => exact Keeps.pure _
  | some reply => exact (h.regions _).bind fun _ => Keeps.pure _

theorem pollStopped (i : ThreadRef) (fuel wait : Nat) :
    Keeps g (XBDMDebugger.pollStopped i fuel wait : Op σ _) := by
  induction fuel generalizing wait with
  | zero => exact Keeps.pure _
  | succ fuel ih =>
    apply (deref i).bind
    intro t
    apply Keeps.ite (Keeps.pure _)
    apply (h.fetchStopReasonSync i).bind
    intro _
    exact Keeps.ite (Keeps.pure _) (ih _)

end Aside

theorem aside_core : Aside (core : XBDMDebugger σ → Core) where
  request r _ := keeps_request r
  update i _ hf := keeps_update i hf
  regions _ := fun _ => rfl

theorem keeps_suspendBreakpoints (bps : List UInt32) :
    Keeps core (suspendBreakpoints bps : Op σ _) := by
  induction bps with
  | nil => exact Keeps.pure _
  | cons bp rest ih => exact (keeps_request _).bind fun _ => ih

theorem keeps_restoreBreakpoints (bps : List UInt32) :
    Keeps core (restoreBreakpoints bps : Op σ _) := by
  induction bps with
  | nil => exact Keeps.pure _
  | cons bp rest ih => exact (keeps_request _).bind fun _ => ih

theorem keeps_stepAt (i : ThreadRef) : Keeps core (stepAt i : Op σ _) := by
  apply aside_core.stop.bind
  intro stopped
  apply Keeps.ite (Keeps.pure _)
  apply (aside_core.fetchContextSync i).bind
  intro fetched
  apply Keeps.ite (Keeps.pure _)
  apply (keeps_deref i).bind
  intro t
  split
  · exact Keeps.pure _
  · apply Keeps.get.bind
    intro d
    apply (keeps_suspendBreakpoints _).bind
    intro _
    apply (aside_core.stepAndGo i).bind
    intro stepped
    exact Keeps.ite (Keeps.pure _) ((keeps_restoreBreakpoints _).bind fun _ => Keeps.pure _)

end Quiet

section Stopped

variable [Xbdm σ]

theorem firstStopped_cons (active : Option UInt32) (i : ThreadRef) (rest : List ThreadRef)
    (d : XBDMDebugger σ) :
    firstStopped active (i :: rest) d =
      if active = some (d.threadAt i).threadId then firstStopped active rest d
      else if (fetchStopReasonSync i d).1 && ((fetchStopReasonSync i d).2.threadAt i).stopped then
        (some i, (fetchStopReasonSync i d).2)
      else firstStopped active rest (fetchStopReasonSync i d).2 := by
  simp only [firstStopped, run_bind, run_deref, ↓run_ite, run_pure]
  rfl

theorem getFirstStoppedThread_eq (d : XBDMDebugger σ) :
    getFirstStoppedThread d =
      match d.activeThread with
      | none => firstStopped d.activeThreadId (List.range d.threads.length) d
      | some i =>
        if (fetchStopReasonSync i d).1 && ((fetchStopReasonSync i d).2.threadAt i).stopped then
          (some i, (fetchStopReasonSync i d).2)
        else firstStopped d.activeThreadId (List.range d.threads.length)
          (fetchStopReasonSync i d).2 := by
  simp only [getFirstStoppedThread, run_bind, run_get]
  cases d.activeThread with
  | none => rfl
  | some i =>
    simp only [run_bind, run_deref, ↓run_ite, run_pure]
    rfl

theorem firstStopped_spec (active : Option UInt32) (refs : List ThreadRef)
    (d : XBDMDebugger σ) {i : ThreadRef} (h : (firstStopped active refs d).1 = some i) :
    i ∈ refs ∧ ((firstStopped active refs d).2.threadAt i).stopped = true := by
  induction refs generalizing d with
  | nil => cases h
  | cons j rest ih =>
    rw [firstStopped_cons] at h ⊢
    split at h
    · rw [if_pos ‹_›]
      exact ⟨List.mem_cons_of_mem _ (ih d h).1, (ih d h).2⟩
    · rw [if_neg ‹_›]
      split at h
      · rename_i hs
        rw [if_pos hs]
        obtain rfl : j = i := Option.some.inj h
        rw [Bool.and_eq_true] at hs
        exact ⟨List.mem_cons_self, hs.2⟩
      · rw [if_neg ‹_›]
        exact ⟨List.mem_cons_of_mem _ (ih _ h).1, (ih _ h).2⟩

theorem getFirstStoppedThread_spec (d : XBDMDebugger σ) {i : ThreadRef}
    (h : (getFirstStoppedThread d).1 = some i) :
    i < d.threads.length ∧ ((getFirstStoppedThread d).2.threadAt i).stopped = true := by
  rw [getFirstStoppedThread_eq] at h ⊢
  cases ha : d.activeThread with
  | none =>
    simp only [ha] at h ⊢
    obtain ⟨hm, hs⟩ := firstStopped_spec _ _ _ h
    exact ⟨List.mem_range.mp hm, hs⟩
  | some j =>
    simp only [ha] at h ⊢
    split at h
    · rename_i hs
      rw [if_pos hs]
      obtain rfl : j = i := Option.some.inj h
      obtain ⟨id, -, hj⟩ := Option.bind_eq_some_iff.mp ha
      rw [Bool.and_eq_true] at hs
      exact ⟨getThread_lt hj, hs.2⟩
    · rw [if_neg ‹_›]
      obtain ⟨hm, hs⟩ := firstStopped_spec _ _ _ h
      exact ⟨List.mem_range.mp hm, hs⟩

end Stopped

section Halting

theorem keeps_ids {α : Type} {x : Op σ α} (h : Keeps core x) :
    Keeps (XBDMDebugger.threadIds : XBDMDebugger σ → _) x :=
  h.comp Core.threadIds

theorem keeps_ids_setActiveThread (id : UInt32) :
    Keeps threadIds (setActiveThread id : Op σ _) := by
  apply Keeps.get.bind
  intro d
  exact Keeps.ite (Keeps.bind (fun _ => rfl) fun _ => Keeps.pure _)
    (Keeps.bind (fun _ => rfl) fun _ => Keeps.pure _)

theorem setActiveThread_known {d : XBDMDebugger σ} {id : UInt32} (h : id ∈ d.threadIds) :
    setActiveThread id d = (true, { d with activeThreadId := some id }) := by
  simp only [setActiveThread, run_bind, run_get, ↓run_ite, run_modify, run_pure]
  exact if_pos (List.contains_iff_mem.mpr h)

theorem setActiveThread_unknown {d : XBDMDebugger σ} {id : UInt32} (h : id ∉ d.threadIds) :
    setActiveThread id d = (false, { d with activeThreadId := none }) := by
  simp only [setActiveThread, run_bind, run_get, ↓run_ite, run_modify, run_pure]
  exact if_neg (fun hc => h (List.contains_iff_mem.mp hc))

variable [Xbdm σ]

theorem keeps_ids_onExecutionStateChanged (state : ExecutionState) :
    Keeps threadIds (onExecutionStateChanged state : Op σ _) := by
  apply Keeps.bind (fun _ => rfl)
  intro _
  apply Keeps.ite (fun _ => rfl)
  refine Keeps.ite ?_ (Keeps.pure _)
  apply Keeps.get.bind
  intro d
  apply (keeps_ids (keeps_restoreBreakpoints _)).bind
  intro _
  apply (keeps_ids aside_core.getFirstStoppedThread).bind
  intro found
  cases found with
  | none => exact (keeps_ids aside_core.fetchMemoryMap).bind fun _ => Keeps.pure _
  | some i =>
    apply (keeps_ids (keeps_deref i)).bind
    intro t
    apply (keeps_ids_setActiveThread _).bind
    intro _
    exact (keeps_ids aside_core.fetchMemoryMap).bind fun _ => Keeps.pure _

theorem keeps_ids_waitForState (state : ExecutionState) :
    Keeps threadIds (waitForState state : Op σ _) := by
  apply Keeps.get.bind
  intro d
  apply Keeps.ite (Keeps.pure _)
  apply Keeps.bind (fun _ => rfl)
  intro announced
  exact Keeps.ite ((keeps_ids_onExecutionStateChanged state).bind fun _ => Keeps.pure _)
    (Keeps.pure _)

/-- One of the known threads is the active one. -/
def Core.ActiveKnown (c : Core) : Prop :=
  ∃ id ∈ c.threadIds, c.activeThreadId = some id

omit [Xbdm σ] in
theorem activeThread_isSome {d : XBDMDebugger σ} (h : (core d).ActiveKnown) :
    d.activeThread.isSome := by
  obtain ⟨id, hm, he⟩ := h
  simp only [activeThread, show d.activeThreadId = some id from he, Option.bind_some]
  exact getThread_isSome.mpr hm

theorem activateStopped_active {d : XBDMDebugger σ} (h : d.threadIds ≠ []) (wait : Nat) :
    (core (activateStopped wait d).2).ActiveKnown := by
  -- The position the rest works on is one of the list: a stopped thread, or the first.
  have hi : (getFirstStoppedThread d).1.getD 0 < (getFirstStoppedThread d).2.threads.length := by
    rw [length_of_ids (keeps_ids aside_core.getFirstStoppedThread d)]
    cases hf : (getFirstStoppedThread d).1 with
    | none => simpa [threadIds, List.length_pos_iff] using h
    | some i => simpa using (getFirstStoppedThread_spec d hf).1
  have hm := threadAt_mem hi
  simp only [activateStopped, run_bind, run_deref, run_pure]
  rw [aside_core.pollStopped, setActiveThread_known hm]
  exact ⟨_, hm, rfl⟩

theorem haltAll_eq (wait : Nat) (d : XBDMDebugger σ) :
    haltAll wait d =
      if d.threads = [] then (true, d)
      else if !(accepted .halt d).1 then (false, (accepted .halt d).2)
      else if !(waitForState .stopped (accepted .halt d).2).1 then
        (false, (waitForState .stopped (accepted .halt d).2).2)
      else activateStopped wait (waitForState .stopped (accepted .halt d).2).2 := by
  simp only [haltAll, run_bind, run_get, ↓run_ite, run_pure]

/-- A successful halt of a non-empty list of threads leaves one of them active. -/
theorem haltAll_active {d : XBDMDebugger σ} (wait : Nat) (h : d.threads ≠ [])
    (hr : (haltAll wait d).1 = true) : (core (haltAll wait d).2).ActiveKnown := by
  rw [haltAll_eq, if_neg h] at hr ⊢
  split at hr
  · cases hr
  · rw [if_neg ‹_›]
    split at hr
    · cases hr
    · rw [if_neg ‹_›]
      apply activateStopped_active
      rw [keeps_ids_waitForState, keeps_ids (keeps_accepted _)]
      simpa [threadIds] using h

end Halting

section Resuming

/-- The debugger was asked to resume these threads as well. -/
def Core.resume (c : Core) (log : List (UInt32 × Action)) : Core :=
  { c with resumed := c.resumed ++ log }

/-- The thread becomes the active one if it is known; otherwise none is. -/
def Core.activate (c : Core) (id : UInt32) : Core :=
  { c with activeThreadId := if id ∈ c.threadIds then some id else none }

theorem Core.resume_nil (c : Core) : c.resume [] = c := by
  simp [Core.resume]

theorem Core.resume_resume (c : Core) (log log' : List (UInt32 × Action)) :
    (c.resume log).resume log' = c.resume (log ++ log') := by
  simp [Core.resume]

theorem noteResumed_core (id : UInt32) (action : Action) (d : XBDMDebugger σ) :
    core (noteResumed id action d).2 = (core d).resume [(id, action)] := rfl

theorem setActiveThread_core (id : UInt32) (d : XBDMDebugger σ) :
    core (setActiveThread id d).2 = (core d).activate id := by
  by_cases h : id ∈ d.threadIds
  · have hc : (core d).activate id = { core d with activeThreadId := some id } := by
      unfold Core.activate
      rw [if_pos (show id ∈ (core d).threadIds from h)]
    rw [setActiveThread_known h, hc]
    rfl
  · have hc : (core d).activate id = { core d with activeThreadId := none } := by
      unfold Core.activate
      rw [if_neg (show id ∉ (core d).threadIds from h)]
    rw [setActiveThread_unknown h, hc]
    rfl

theorem threadIds_eq_map_range (d : XBDMDebugger σ) :
    (List.range d.threads.length).map (fun i => (d.threadAt i).threadId) = d.threadIds := by
  apply List.ext_getElem
  · simp [threadIds]
  · intro n h₁ h₂
    have hn : n < d.threads.length := by simpa using h₁
    simp [threadIds, threadAt, hn]

variable [Xbdm σ]

theorem continueEach_core (refs : List ThreadRef) (d : XBDMDebugger σ) :
    core (continueEach refs d).2 =
      (core d).resume (refs.map fun i => ((d.threadAt i).threadId, .continue)) := by
  induction refs generalizing d with
  | nil => exact (Core.resume_nil _).symm
  | cons i rest ih =>
    simp only [continueEach, run_bind, run_deref, run_pure]
    rw [ih, aside_core.continueSync, noteResumed_core, Core.resume_resume]
    have hids : (continueSync i (noteResumed (d.threadAt i).threadId .continue d).2).2.threadIds =
        d.threadIds := keeps_ids (aside_core.continueSync i) _
    simp only [threadAt_id_congr hids, List.map_cons, List.singleton_append]

theorem continueAll_core (d : XBDMDebugger σ) :
    core (continueAll d).2 = (core d).resume (d.threadIds.map fun id => (id, .continue)) := by
  simp only [continueAll, run_bind, run_get]
  rw [continueEach_core, ← threadIds_eq_map_range d, List.map_map]
  rfl

theorem continueThread_core (id : UInt32) (d : XBDMDebugger σ) :
    core (continueThread id d).2 =
      (core d).resume (if id ∈ d.threadIds then [(id, .continue)] else []) := by
  simp only [continueThread, run_bind, run_get]
  cases h : d.getThread id with
  | none =>
    have hm : id ∉ d.threadIds := by
      rw [← getThread_isSome, h]
      simp
    rw [if_neg hm, Core.resume_nil]
    rfl
  | some i =>
    have hm : id ∈ d.threadIds := by
      rw [← getThread_isSome, h]
      rfl
    simp only [run_bind, run_deref]
    rw [if_pos hm, aside_core.continueSync, noteResumed_core, getThread_id h]

/-- The step is noted for the active thread, if it is known. -/
theorem stepInstruction_core (d : XBDMDebugger σ) :
    core (stepInstruction d).2 =
      (core d).resume
        ((d.activeThreadId.filter (· ∈ d.threadIds)).toList.map fun id => (id, .step)) := by
  simp only [stepInstruction, run_bind, run_get]
  unfold activeThread
  cases ha : d.activeThreadId with
  | none => exact (Core.resume_nil _).symm
  | some id =>
    rw [Option.bind_some]
    cases h : d.getThread id with
    | none =>
      have hm : id ∉ d.threadIds := by
        rw [← getThread_isSome, h]
        simp
      simp only [Option.filter_some, hm, decide_false, Bool.false_eq_true, if_false]
      exact (Core.resume_nil _).symm
    | some i =>
      have hm : id ∈ d.threadIds := by
        rw [← getThread_isSome, h]
        rfl
      simp only [run_bind, run_deref, Option.filter_some, hm, decide_true, if_true]
      rw [keeps_stepAt, noteResumed_core, getThread_id h]
      rfl

end Resuming

end XbdmGdbBridge.Proofs
