import XbdmGdbBridge.Lib.Runs
import XbdmGdbBridge.Proofs.Conditions

/-!
# The thread list and the active thread

Notifications, `SetActiveThread` and `HaltAll` move the active thread within the list or follow
changes of it. `FetchThreads` puts another list in its place and leaves the active thread alone.
-/

namespace XbdmGdbBridge.Proofs

open Lib Program XBDMDebugger

variable {σ : Type}

/-- The thread list and the active thread agree. -/
structure Tidy (d : XBDMDebugger σ) : Prop where
  nodup : d.threadIds.Nodup
  active : ∀ id, d.activeThreadId = some id → id ∈ d.threadIds
  ids : d.getThreadIDs.Perm d.threadIds
  any : d.threadIds ≠ [] → ∃ id ∈ d.threadIds, d.anyThreadID = some id

section Lists

variable {d : XBDMDebugger σ}

theorem getThreadIDs_perm (hids : d.threadIds.Nodup)
    (hactive : ∀ id, d.activeThreadId = some id → id ∈ d.threadIds) :
    d.getThreadIDs.Perm d.threadIds := by
  unfold getThreadIDs
  split
  next hnil =>
    have hempty : d.threadIds = [] := List.map_eq_nil_iff.mpr hnil
    rw [hempty]
  next =>
    cases ha : d.activeThreadId with
    | none => simp
    | some id =>
      have hrest : d.threadIds.filter (fun other => some other ≠ some id) = d.threadIds.erase id := by
        rw [hids.erase_eq_filter]
        apply List.filter_congr
        intro other _
        simp only [ne_eq, Option.some.injEq, decide_not]
        rfl
      rw [hrest]
      exact (List.perm_cons_erase (hactive id ha)).symm

/-- The first two parts carry the others. -/
theorem tidy_of_active (hids : d.threadIds.Nodup)
    (hactive : ∀ id, d.activeThreadId = some id → id ∈ d.threadIds) : Tidy d where
  nodup := hids
  active := hactive
  ids := getThreadIDs_perm hids hactive
  any := by
    intro hne
    obtain ⟨first, rest, hcons⟩ := List.exists_cons_of_ne_nil hne
    rw [anyThreadID_eq, hcons]
    cases ha : d.activeThreadId with
    | none => exact ⟨first, List.mem_cons_self, rfl⟩
    | some id =>
      have hmem := hactive id ha
      rw [hcons] at hmem
      exact ⟨id, hmem, rfl⟩

end Lists

/-- The list stays, and the active thread stays, goes, or becomes another one of the list. -/
def Reassigns (d d' : XBDMDebugger σ) : Prop :=
  d'.threadIds = d.threadIds ∧ (d'.activeThreadId = d.activeThreadId ∨
    ∀ id, d'.activeThreadId = some id → id ∈ d.threadIds)

section Reassigning

theorem Reassigns.trans (d d' d'' : XBDMDebugger σ) (h : Reassigns d d') (h' : Reassigns d' d'') :
    Reassigns d d'' := by
  obtain ⟨hids, hactive⟩ := h
  obtain ⟨hids', hactive'⟩ := h'
  refine ⟨hids'.trans hids, ?_⟩
  obtain hsame | hknown := hactive'
  · rw [hsame]
    exact hactive
  · rw [hids] at hknown
    exact .inr hknown

theorem Reassigns.of_core (d d' : XBDMDebugger σ) (h : core d' = core d) : Reassigns d d' :=
  ⟨congrArg Core.threadIds h, .inl (congrArg Core.activeThreadId h)⟩

theorem Reassigns.of_standing (d d' : XBDMDebugger σ) (h : standing d' = standing d) :
    Reassigns d d' :=
  ⟨threadIds_standing h, .inl (congrArg Standing.activeThreadId h)⟩

theorem Reassigns.tidy {d d' : XBDMDebugger σ} (h : Reassigns d d') (ht : Tidy d) : Tidy d' := by
  obtain ⟨hids, hactive⟩ := h
  apply tidy_of_active
  · rw [hids]
    exact ht.nodup
  · rw [hids]
    obtain hsame | hknown := hactive
    · rw [hsame]
      exact ht.active
    · exact hknown

variable {ε α : Type}

theorem reassigns_setActiveThread (id : UInt32) :
    Within Reassigns (total (setActiveThread id) : Program ε (XBDMDebugger σ) Bool) := by
  apply Within.total
  intro d
  by_cases hid : id ∈ d.threadIds
  · rw [setActiveThread_known hid]
    refine ⟨rfl, .inr ?_⟩
    intro other hother
    cases hother
    exact hid
  · rw [setActiveThread_unknown hid]
    refine ⟨rfl, .inr ?_⟩
    intro other hother
    cases hother

theorem reassigns_of_keeps {x : Op σ α} (h : Keeps core x) :
    Within Reassigns (total x : Program ε (XBDMDebugger σ) α) :=
  h.within Reassigns.of_core

variable [Xbdm σ]

theorem reassigns_noteStop (i : ThreadRef) (address : UInt32) :
    Within Reassigns (total (noteStop i address) : Program ε (XBDMDebugger σ) Unit) := by
  refine (reassigns_of_keeps (keeps_deref i)).total_bind ?_ Reassigns.trans
  intro t
  refine (reassigns_setActiveThread t.threadId).total_bind ?_ Reassigns.trans
  intro _
  refine Within.total_bind (reassigns_of_keeps (keeps_update i ?_)) ?_ Reassigns.trans
  · exact fun _ => rfl
  intro _
  exact reassigns_of_keeps ((aside_core.fetchStopReasonSync i).bind fun _ => Keeps.pure _)

theorem reassigns_onExecutionStateChanged (state : ExecutionState) :
    Within Reassigns
      (total (onExecutionStateChanged state) : Program ε (XBDMDebugger σ) Unit) := by
  refine Within.total_bind (Within.total fun d => ⟨rfl, .inl rfl⟩) ?_ Reassigns.trans
  intro _
  split
  · exact Within.total fun d => ⟨rfl, .inl rfl⟩
  · split
    · refine (reassigns_of_keeps Keeps.get).total_bind ?_ Reassigns.trans
      intro d
      refine (reassigns_of_keeps (keeps_restoreBreakpoints _)).total_bind ?_ Reassigns.trans
      intro _
      refine (reassigns_of_keeps aside_core.getFirstStoppedThread).total_bind ?_ Reassigns.trans
      intro found
      have hmap : Keeps core (fetchMemoryMap >>= fun _ => pure () : Op σ Unit) :=
        aside_core.fetchMemoryMap.bind fun _ => Keeps.pure _
      cases found with
      | none => exact reassigns_of_keeps hmap
      | some i =>
        refine (reassigns_of_keeps (keeps_deref i)).total_bind ?_ Reassigns.trans
        intro t
        exact (reassigns_setActiveThread t.threadId).total_bind (fun _ => reassigns_of_keeps hmap)
          Reassigns.trans
    · exact reassigns_of_keeps (Keeps.pure _)

theorem reassigns_waitForState (state : ExecutionState) :
    Within Reassigns (total (waitForState state) : Program ε (XBDMDebugger σ) Bool) := by
  refine (reassigns_of_keeps Keeps.get).total_bind ?_ Reassigns.trans
  intro d
  split
  · exact reassigns_of_keeps (Keeps.pure _)
  · refine Within.total_bind (Within.total fun d => ⟨rfl, .inl rfl⟩) ?_ Reassigns.trans
    intro announced
    split
    · exact (reassigns_onExecutionStateChanged state).total_bind
        (fun _ => reassigns_of_keeps (Keeps.pure _)) Reassigns.trans
    · exact reassigns_of_keeps (Keeps.pure _)

theorem reassigns_activateStopped (wait : Nat) :
    Within Reassigns (total (activateStopped wait) : Program ε (XBDMDebugger σ) Bool) := by
  refine (reassigns_of_keeps aside_core.getFirstStoppedThread).total_bind ?_ Reassigns.trans
  intro found
  refine (reassigns_of_keeps (keeps_deref _)).total_bind ?_ Reassigns.trans
  intro t
  refine (reassigns_setActiveThread t.threadId).total_bind ?_ Reassigns.trans
  intro _
  exact reassigns_of_keeps ((aside_core.pollStopped _ _ _).bind fun _ =>
    (keeps_deref _).bind fun _ => Keeps.pure _)

theorem reassigns_haltAll (wait : Nat) :
    Within Reassigns (total (haltAll wait) : Program ε (XBDMDebugger σ) Bool) := by
  refine (reassigns_of_keeps Keeps.get).total_bind ?_ Reassigns.trans
  intro d
  split
  · exact reassigns_of_keeps (Keeps.pure _)
  · refine (reassigns_of_keeps (keeps_accepted _)).total_bind ?_ Reassigns.trans
    intro halted
    split
    · exact reassigns_of_keeps (Keeps.pure _)
    · refine (reassigns_waitForState .stopped).total_bind ?_ Reassigns.trans
      intro stopped
      split
      · exact reassigns_of_keeps (Keeps.pure _)
      · exact reassigns_activateStopped wait

end Reassigning

section Notified

variable [Xbdm σ]

theorem leaves_performAfterStopActions (i : ThreadRef) :
    Leaves core (total (performAfterStopActions i) : XBDMDebugger.Handler σ _) := by
  apply Keeps.leaves
  apply Keeps.get.bind
  intro d
  exact Keeps.ite ((aside_core.fetchContextSync i).bind fun _ => Keeps.pure _) (Keeps.pure _)

theorem reassigns_concludeStop (i : ThreadRef) (condition : Option Bytes) :
    Within Reassigns (concludeStop i condition : XBDMDebugger.Handler σ Unit) := by
  -- What follows the evaluation, whatever came of it.
  have hrest : ∀ value : Option UInt32, Within Reassigns (if value = some 0 then do
      let _ ← total (do continueThread (← deref i).threadId)
      let _ ← total go
    else total (performAfterStopActions i) : XBDMDebugger.Handler σ Unit) := by
    intro value
    split
    · refine Within.bind ((Keeps.bind (keeps_standing_deref i) fun t =>
        keeps_standing_continueThread t.threadId).within Reassigns.of_standing) ?_ Reassigns.trans
      intro _
      exact (reassigns_of_keeps aside_core.go).bind
        (fun _ => Within.pure (fun d => Reassigns.of_core d d rfl) _) Reassigns.trans
    · exact (leaves_performAfterStopActions i).within Reassigns.of_core
  cases condition with
  | none => exact hrest none
  | some text =>
    exact Within.bind ((leaves_evaluateCondition i text).within Reassigns.of_standing) hrest
      Reassigns.trans

theorem reassigns_onBreakpoint (threadId address : UInt32) :
    Within Reassigns (onBreakpoint threadId address : XBDMDebugger.Handler σ Unit) := by
  intro d a d' h
  cases hi : d.getThread threadId with
  | none =>
    unfold onBreakpoint at h
    rw [get_bind_apply, hi] at h
    cases h
    exact Reassigns.of_core d d rfl
  | some i =>
    rw [onBreakpoint_eq hi] at h
    have harrive : core (arriveBreakpoint i address d).2 = core (noteStop i address d).2 :=
      keeps_arrival i d address (aside_core.fetchInfoSync i) (aside_core.resumeSync i)
    have hnote : Reassigns d (noteStop i address d).2 :=
      reassigns_noteStop (ε := Fault) i address d _ _ rfl
    exact (hnote.trans _ _ _ (Reassigns.of_core _ _ harrive)).trans _ _ _
      (reassigns_concludeStop i _ _ _ _ h)

theorem reassigns_onWatchpoint (type : AccessType) (threadId address watched : UInt32) :
    Within Reassigns (onWatchpoint type threadId address watched : XBDMDebugger.Handler σ Unit) := by
  refine Within.bind (reassigns_of_keeps Keeps.get) ?_ Reassigns.trans
  intro d
  cases d.getThread threadId with
  | none => exact Within.pure (fun d => Reassigns.of_core d d rfl) _
  | some i =>
    refine (reassigns_noteStop i address).bind ?_ Reassigns.trans
    intro _
    exact Within.bind (reassigns_of_keeps Keeps.get) (fun d => reassigns_concludeStop i _)
      Reassigns.trans

theorem reassigns_onPlainStop (threadId address : UInt32) :
    Within Reassigns (onPlainStop threadId address : XBDMDebugger.Handler σ Unit) := by
  refine Within.bind (reassigns_of_keeps Keeps.get) ?_ Reassigns.trans
  intro d
  cases d.getThread threadId with
  | none => exact Within.pure (fun d => Reassigns.of_core d d rfl) _
  | some i =>
    exact (reassigns_noteStop i address).bind
      (fun _ => (leaves_performAfterStopActions i).within Reassigns.of_core) Reassigns.trans

omit [Xbdm σ] in
theorem tidy_onThreadCreated (threadId : UInt32) {d : XBDMDebugger σ} (ht : Tidy d) :
    Tidy (onThreadCreated threadId d).2 := by
  unfold onThreadCreated
  rw [run_modify]
  dsimp only
  split
  · exact ht
  next hnew =>
    have hids : ({ d with threads := d.threads ++ [{ threadId }] } : XBDMDebugger σ).threadIds =
        d.threadIds ++ [threadId] := by
      unfold threadIds
      exact List.map_append
    rw [List.contains_iff_mem] at hnew
    apply tidy_of_active
    · rw [hids]
      exact List.nodup_append_comm.mp (List.nodup_cons.mpr ⟨hnew, ht.nodup⟩)
    · intro id hid
      rw [hids]
      exact List.mem_append_left _ (ht.active id hid)

omit [Xbdm σ] in
theorem tidy_onThreadTerminated (threadId : UInt32) {d : XBDMDebugger σ} (ht : Tidy d) :
    Tidy (onThreadTerminated threadId d).2 := by
  unfold onThreadTerminated
  rw [run_modify]
  dsimp only
  split
  next =>
    have hids : (d.threads.eraseP fun t => t.threadId == threadId).map Thread.threadId =
        d.threadIds.erase threadId := by
      unfold threadIds
      rw [List.erase_eq_eraseP', List.eraseP_map]
      rfl
    apply tidy_of_active
    · unfold threadIds
      dsimp only
      rw [hids]
      exact ht.nodup.erase _
    · intro id hid
      unfold threadIds
      dsimp only at hid ⊢
      rw [hids]
      split at hid
      · cases hid
      next hother =>
        have hne : id ≠ threadId := by
          intro he
          rw [he] at hid
          exact hother hid
        exact (List.mem_erase_of_ne hne).mpr (ht.active id hid)
  · exact ht

theorem tidy_onNotification (n : Notification) {d d' : XBDMDebugger σ} (ht : Tidy d)
    (h : XBDMDebugger.onNotification n d = .ok ((), d')) : Tidy d' := by
  have hreassigns (hn : Within Reassigns (XBDMDebugger.onNotification n)) : Tidy d' :=
    (hn d () d' h).tidy ht
  cases n with
  | executionStateChanged state => exact hreassigns (reassigns_onExecutionStateChanged state)
  | breakpoint threadId address => exact hreassigns (reassigns_onBreakpoint threadId address)
  | watchpoint type threadId address watched =>
    exact hreassigns (reassigns_onWatchpoint type threadId address watched)
  | singleStep threadId address => exact hreassigns (reassigns_onPlainStop threadId address)
  | exception threadId address => exact hreassigns (reassigns_onPlainStop threadId address)
  | threadCreated threadId =>
    cases h
    exact tidy_onThreadCreated threadId ht
  | threadTerminated threadId =>
    cases h
    exact tidy_onThreadTerminated threadId ht
  | moduleLoaded | sectionLoaded | sectionUnloaded =>
    exact hreassigns ((reassigns_of_keeps aside_core.fetchMemoryMap).bind
      (fun _ => Within.pure (fun d => Reassigns.of_core d d rfl) _) Reassigns.trans)

end Notified

section Runs

variable [Xbdm σ]

theorem keeps_fetchInfos (refs : List ThreadRef) : Keeps core (fetchInfos refs : Op σ _) := by
  induction refs with
  | nil => exact Keeps.pure _
  | cons i rest ih => exact (aside_core.fetchInfoSync i).bind fun _ => ih

/-- The list is replaced if the target gives one; the active thread is not looked at. -/
theorem fetchThreads_lists (d : XBDMDebugger σ) :
    (fetchThreads d).2.activeThreadId = d.activeThreadId ∧
      (fetchThreads d).2.threadIds = match (request .threads d).1 with
        | none => d.threadIds
        | some reply => reply.threads := by
  unfold fetchThreads
  rw [run_bind]
  cases (request .threads d).1 with
  | none => exact ⟨rfl, rfl⟩
  | some reply =>
    have hinfos := keeps_fetchInfos (List.range reply.threads.length) { (request .threads d).2 with
      threads := reply.threads.map fun id => { threadId := id } }
    refine ⟨congrArg Core.activeThreadId hinfos, (congrArg Core.threadIds hinfos).trans ?_⟩
    change (reply.threads.map _).map Thread.threadId = reply.threads
    rw [List.map_map]
    exact List.map_id _

/-- What happens to a debugger, as far as its threads are concerned. -/
inductive ThreadEvent where
  | fetchThreads
  | notified (n : Notification)
  | setActiveThread (threadId : UInt32)
  | haltAll (optimisticMaxWait : Nat)

def ThreadEvent.perform : ThreadEvent → XBDMDebugger.Handler σ Unit
  | .fetchThreads => do let _ ← total XBDMDebugger.fetchThreads
  | .notified n => XBDMDebugger.onNotification n
  | .setActiveThread threadId => do let _ ← total (XBDMDebugger.setActiveThread threadId)
  | .haltAll wait => do let _ ← total (XBDMDebugger.haltAll wait)

/-- The ids a `FetchThreads` in this state is answered with. -/
def fetchedIds (e : ThreadEvent) (d : XBDMDebugger σ) : Option (List UInt32) :=
  match e with
  | .fetchThreads => (request .threads d).1.map Reply.threads
  | _ => none

/-- An event runs to its end; a list of threads names none twice. -/
def ThreadStep (e : ThreadEvent) (d d' : XBDMDebugger σ) : Prop :=
  e.perform d = .ok ((), d') ∧ ∀ ids, fetchedIds e d = some ids → ids.Nodup

/-- A fetched list still has the active thread in it. -/
def ListsActive (e : ThreadEvent) (d : XBDMDebugger σ) : Prop :=
  ∀ ids, fetchedIds e d = some ids → ∀ id, d.activeThreadId = some id → id ∈ ids

theorem tidy_fetched_iff {d : XBDMDebugger σ} (ht : Tidy d)
    (hids : ∀ ids, fetchedIds .fetchThreads d = some ids → ids.Nodup) :
    Tidy (fetchThreads d).2 ↔ ListsActive .fetchThreads d := by
  obtain ⟨hactive, hlist⟩ := fetchThreads_lists d
  unfold ListsActive
  unfold fetchedIds at hids ⊢
  dsimp only at hids ⊢
  cases hreply : (request .threads d).1 with
  | none =>
    rw [hreply] at hlist
    refine iff_of_true (tidy_of_active ?_ ?_) (fun ids hnone => by cases hnone)
    · rw [hlist]
      exact ht.nodup
    · rw [hlist, hactive]
      exact ht.active
  | some reply =>
    rw [hreply] at hlist hids
    constructor
    · intro htidy ids hsome id hid
      cases hsome
      rw [← hactive] at hid
      have hmem := htidy.active id hid
      rwa [hlist] at hmem
    · intro hlists
      apply tidy_of_active
      · rw [hlist]
        exact hids _ rfl
      · rw [hlist, hactive]
        exact hlists _ rfl

theorem tidy_step_iff (e : ThreadEvent) (d d' : XBDMDebugger σ) (ht : Tidy d)
    (h : ThreadStep e d d') : Tidy d' ↔ ListsActive e d := by
  obtain ⟨hrun, hids⟩ := h
  cases e with
  | fetchThreads =>
    cases hrun
    exact tidy_fetched_iff ht hids
  | notified n =>
    exact iff_of_true (tidy_onNotification n ht hrun) fun ids hnone => by cases hnone
  | setActiveThread threadId =>
    cases hrun
    refine iff_of_true ?_ fun ids hnone => by cases hnone
    exact (reassigns_setActiveThread (ε := Fault) threadId d _ _ rfl).tidy ht
  | haltAll wait =>
    cases hrun
    refine iff_of_true ?_ fun ids hnone => by cases hnone
    exact (reassigns_haltAll (ε := Fault) wait d _ _ rfl).tidy ht

/-- From a debugger that knows no threads on, the list and the active thread agree in every state
exactly as long as each list that is fetched has the active thread in it. -/
theorem run_tidy_iff_listsActive {d d' : XBDMDebugger σ} {events : List (ThreadEvent × XBDMDebugger σ)}
    (hthreads : d.threads = []) (hactive : d.activeThreadId = none)
    (h : Run ThreadStep d events d') :
    Run.Always Tidy events d' ↔ ∀ e ∈ events, ListsActive e.1 e.2 := by
  apply h.always_iff tidy_step_iff
  apply tidy_of_active
  · rw [threadIds, hthreads]
    exact List.nodup_nil
  · rw [hactive]
    intro id hnone
    cases hnone

/-- A debugger without threads, for a target that answers the next request with a list. -/
def listing (ids : List UInt32) : XBDMDebugger Script :=
  { context := { target := ⟨[{ status := Request.threads.success, threads := ids }]⟩ } }

/-- Thread 1 is created, made active, and then the list is fetched. -/
def refetch (ids : List UInt32) : List (ThreadEvent × XBDMDebugger Script) :=
  let created := { listing ids with threads := [{ threadId := 1 }] }
  [(.notified (.threadCreated 1), listing ids), (.setActiveThread 1, created),
    (.fetchThreads, { created with activeThreadId := some 1 })]

theorem run_refetch {ids : List UInt32} (h : ids.Nodup) : ∃ d,
    Run ThreadStep (listing ids) (refetch ids) d ∧ d.activeThreadId = some 1 ∧
      d.threadIds = ids := by
  let d : XBDMDebugger Script :=
    { listing ids with threads := [{ threadId := 1 }], activeThreadId := some 1 }
  refine ⟨(fetchThreads d).2, ?_, fetchThreads_lists d⟩
  refine .cons ⟨rfl, ?_⟩ (.cons ⟨rfl, ?_⟩ (.cons ⟨rfl, ?_⟩ (.nil _)))
  · intro fetched hnone
    cases hnone
  · intro fetched hnone
    cases hnone
  · intro fetched hsome
    cases hsome
    exact h

theorem run_refetch_kept : ∃ d, Run ThreadStep (listing [2, 1]) (refetch [2, 1]) d ∧
    Run.Always Tidy (refetch [2, 1]) d := by
  obtain ⟨d, hrun, -⟩ := run_refetch (show [2, 1].Nodup by decide)
  refine ⟨d, hrun, (run_tidy_iff_listsActive rfl rfl hrun).mpr ?_⟩
  intro e he ids hids id hid
  simp only [refetch, List.mem_cons, List.not_mem_nil, or_false] at he
  obtain rfl | rfl | rfl := he
  · cases hids
  · cases hids
  · cases hids
    cases hid
    decide

/-- The active thread has gone when the list is fetched again, and stays active. -/
theorem run_refetch_gone : ∃ d, Run ThreadStep (listing [2]) (refetch [2]) d ∧
    ¬Run.Always Tidy (refetch [2]) d := by
  obtain ⟨d, hrun, hactive, hids⟩ := run_refetch (show [2].Nodup by decide)
  refine ⟨d, hrun, ?_⟩
  rintro ⟨-, htidy⟩
  have hmem := htidy.active 1 hactive
  rw [hids] at hmem
  revert hmem
  decide

end Runs

end XbdmGdbBridge.Proofs
