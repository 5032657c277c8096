import XbdmGdbBridge.Lib.Runs
import XbdmGdbBridge.Xbox.Attach

/-!
# What is held while a debugger is attached

Calls of `Attach` and `Shutdown` in any order: which handler the context holds for the debugger, and
what the target was last told.
-/

namespace XbdmGdbBridge.Proofs.Attachments

open Lib Program Attachment

/-- The ids of the debugger's handlers among these. -/
def owned (handlers : List (Nat × HandlerOwner)) : List Nat :=
  (handlers.filter fun entry => entry.2 = .debugger).map Prod.fst

/-- Whether a `debugger` request that was accepted asks to connect. -/
def connection : ControlRequest × StatusCode → Option Bool
  | (.debugger connect, status) =>
    if ControlRequest.isOK (.debugger connect) status then some connect else none
  | _ => none

/-- What the accepted `debugger` requests asked for, oldest first. -/
def connections (a : Attachment) : List Bool :=
  a.sent.filterMap connection

section Calls

/-- Handlers without one of them. -/
def without (id : Nat) (handlers : List (Nat × HandlerOwner)) : List (Nat × HandlerOwner) :=
  if id = 0 then handlers else handlers.filter fun entry => entry.1 ≠ id

/-- Notifications are requested, and the target accepts a debugger. -/
def connects (o : Attempt) : Bool :=
  ControlRequest.isOK (.notifyAt 0 false true) o.notifyAt &&
    ControlRequest.isOK (.debugger true) o.debugger

/-- All that is fetched behind that is answered. -/
def fetches (o : Attempt) : Bool :=
  ControlRequest.isOK .threads o.threads && ControlRequest.isOK .modules o.modules &&
    ControlRequest.isOK .walkMem o.walkMem

theorem unregister_run (id : Nat) (a : Attachment) :
    unregisterNotificationHandler id a = ((), { a with handlers := without id a.handlers }) := by
  unfold unregisterNotificationHandler without
  split <;> rfl

/-- The handlers are as before. -/
structure SameHandlers (a a' : Attachment) : Prop where
  handlers : a'.handlers = a.handlers
  handlerId : a'.handlerId = a.handlerId
  nextHandlerId : a'.nextHandlerId = a.nextHandlerId

theorem SameHandlers.trans {a b c : Attachment} (h : SameHandlers a b) (h' : SameHandlers b c) :
    SameHandlers a c :=
  ⟨h'.handlers.trans h.handlers, h'.handlerId.trans h.handlerId,
    h'.nextHandlerId.trans h.nextHandlerId⟩

theorem sendCommandSync_run (r : ControlRequest) (status : StatusCode) (a : Attachment) :
    ∃ a', sendCommandSync r status a = (r.isOK status, a') ∧ SameHandlers a a' ∧
      connections a' = connections a ++ (connection (r, status)).toList := by
  refine ⟨_, rfl, ⟨rfl, rfl, rfl⟩, ?_⟩
  change (a.sent ++ [(r, status)]).filterMap connection = _
  rw [List.filterMap_append]
  cases hconnection : connection (r, status) <;> simp [hconnection, connections]

theorem setDebugger_run (enabled : Bool) (status : StatusCode) (a : Attachment) :
    ∃ a', setDebugger enabled status a = (ControlRequest.isOK (.debugger true) status, a') ∧
      SameHandlers a a' ∧ connections a' =
        connections a ++ if ControlRequest.isOK (.debugger true) status then [true] else [] := by
  obtain ⟨a₁, hsend, hsame, hconnections⟩ := sendCommandSync_run (.debugger true) status a
  unfold setDebugger
  rw [run_bind, hsend]
  rw [connection] at hconnections
  cases hok : ControlRequest.isOK (.debugger true) status with
  | true =>
    rw [hok] at hconnections
    exact ⟨_, rfl, ⟨hsame.handlers, hsame.handlerId, hsame.nextHandlerId⟩, hconnections⟩
  | false =>
    rw [hok] at hconnections
    exact ⟨_, rfl, hsame, hconnections⟩

theorem requestDebugNotifications_run (port : UInt16) (drop notify : StatusCode) (a : Attachment) :
    ∃ a', requestDebugNotifications port drop notify a =
        (ControlRequest.isOK (.notifyAt 0 false true) notify, a') ∧
      SameHandlers a a' ∧ connections a' = connections a := by
  obtain ⟨a₁, hdrop, hsame₁, hconnections₁⟩ := sendCommandSync_run (.notifyAt port true true) drop a
  obtain ⟨a₂, hnotify, hsame₂, hconnections₂⟩ :=
    sendCommandSync_run (.notifyAt port false true) notify a₁
  refine ⟨a₂, ?_, hsame₁.trans hsame₂, ?_⟩
  · unfold requestDebugNotifications
    rw [run_bind, hdrop]
    exact hnotify
  · rw [hconnections₂, hconnections₁]
    simp [connection]

theorem fetchAll_run (o : Attempt) (a : Attachment) :
    ∃ a', fetchAll o a = (fetches o, a') ∧ SameHandlers a a' ∧ connections a' = connections a := by
  obtain ⟨a₁, hthreads, hsame₁, hconnections₁⟩ := sendCommandSync_run .threads o.threads a
  obtain ⟨a₂, hmodules, hsame₂, hconnections₂⟩ := sendCommandSync_run .modules o.modules a₁
  obtain ⟨a₃, hwalk, hsame₃, hconnections₃⟩ := sendCommandSync_run .walkMem o.walkMem a₂
  simp only [connection, Option.toList_none, List.append_nil] at hconnections₁ hconnections₂ hconnections₃
  unfold fetchAll fetches
  rw [run_bind, hthreads]
  cases ControlRequest.isOK .threads o.threads with
  | false => exact ⟨a₁, rfl, hsame₁, hconnections₁⟩
  | true =>
    dsimp only
    rw [if_pos rfl, run_bind, hmodules]
    cases ControlRequest.isOK .modules o.modules with
    | false => exact ⟨a₂, rfl, hsame₁.trans hsame₂, hconnections₂.trans hconnections₁⟩
    | true =>
      exact ⟨a₃, hwalk, (hsame₁.trans hsame₂).trans hsame₃,
        hconnections₃.trans (hconnections₂.trans hconnections₁)⟩

/-- The handler is given up when the target does not connect, but not when something cannot be
fetched. -/
theorem requestAll_run (port : UInt16) (id : Nat) (o : Attempt) (a : Attachment) :
    ∃ a', requestAll port id o a = (connects o && fetches o, a') ∧
      SameHandlers { a with
        handlers := if connects o then a.handlers else without id a.handlers } a' ∧
      connections a' = connections a ++ if connects o then [true] else [] := by
  obtain ⟨a₁, hnotify, hsame₁, hconnections₁⟩ :=
    requestDebugNotifications_run port o.notifyAtDrop o.notifyAt a
  obtain ⟨a₂, hdebugger, hsame₂, hconnections₂⟩ := setDebugger_run true o.debugger a₁
  obtain ⟨a₃, hfetch, hsame₃, hconnections₃⟩ := fetchAll_run o a₂
  have hgiven : ∀ b, SameHandlers a b → connections b = connections a →
      ∃ a', (do unregisterNotificationHandler id; return false : Op Bool) b = (false, a') ∧
        SameHandlers { a with handlers := without id a.handlers } a' ∧
        connections a' = connections a ++ [] := by
    intro b hsame hconnections
    rw [run_bind, unregister_run]
    refine ⟨_, rfl, ⟨congrArg (without id) hsame.handlers, hsame.handlerId, hsame.nextHandlerId⟩, ?_⟩
    rw [List.append_nil]
    exact hconnections
  unfold requestAll connects
  rw [run_bind, hnotify]
  cases ControlRequest.isOK (.notifyAt 0 false true) o.notifyAt with
  | false => exact hgiven a₁ hsame₁ hconnections₁
  | true =>
    dsimp only
    rw [if_neg (by decide), run_bind, hdebugger]
    cases hok : ControlRequest.isOK (.debugger true) o.debugger with
    | false =>
      rw [hok, if_neg (by decide), List.append_nil] at hconnections₂
      exact hgiven a₂ (hsame₁.trans hsame₂) (hconnections₂.trans hconnections₁)
    | true =>
      rw [hok, hconnections₁] at hconnections₂
      have hsame := (hsame₁.trans hsame₂).trans hsame₃
      dsimp only
      rw [if_neg (by decide), run_bind, hfetch]
      cases fetches o with
      | false => exact ⟨a₃, rfl, hsame, hconnections₃.trans hconnections₂⟩
      | true =>
        exact ⟨_, rfl, ⟨hsame.handlers, hsame.handlerId, hsame.nextHandlerId⟩,
          hconnections₃.trans hconnections₂⟩

/-- A new handler takes the place of the old one. -/
def renewed (a : Attachment) : Attachment :=
  { a with
    handlers := without a.handlerId a.handlers ++ [(a.nextHandlerId, .debugger)]
    nextHandlerId := a.nextHandlerId + 1
    handlerId := a.nextHandlerId }

theorem attachAt_eq (port : UInt16) (o : Attempt) (a : Attachment) :
    attachAt port o a = requestAll port a.nextHandlerId o (renewed a) := by
  unfold attachAt
  rw [run_bind, run_get, run_bind, unregister_run]
  rfl

end Calls

section Keeping

variable {a a' : Attachment}

theorem owned_append (l l' : List (Nat × HandlerOwner)) : owned (l ++ l') = owned l ++ owned l' := by
  simp [owned]

theorem mem_owned {handlers : List (Nat × HandlerOwner)} {id : Nat} (h : id ∈ owned handlers) :
    ∃ entry ∈ handlers, entry.1 = id := by
  obtain ⟨entry, hentry, rfl⟩ := List.mem_map.mp h
  exact ⟨entry, (List.mem_filter.mp hentry).1, rfl⟩

theorem owned_without {id : Nat} (hid : id ≠ 0) (handlers : List (Nat × HandlerOwner)) :
    owned (without id handlers) = (owned handlers).filter fun i => i ≠ id := by
  rw [without, if_neg hid, owned, owned, List.filter_map, List.filter_comm]
  rfl

theorem without_subset (id : Nat) (handlers : List (Nat × HandlerOwner)) :
    without id handlers ⊆ handlers := by
  unfold without
  split
  · exact List.Subset.refl _
  · exact List.filter_subset_self _

/-- What holds between calls: the debugger knows the handler that calls it, if there is one, and there
is none before the target first connects. -/
structure Tidy (a : Attachment) : Prop where
  known : owned a.handlers = [] ∨ owned a.handlers = [a.handlerId]
  ids : ∀ entry ∈ a.handlers, 0 < entry.1 ∧ entry.1 < a.nextHandlerId
  next : 0 < a.nextHandlerId
  always : ∀ connect ∈ connections a, connect = true
  quiet : connections a = [] → owned a.handlers = []

theorem Tidy.owned_without (h : Tidy a) : owned (without a.handlerId a.handlers) = [] := by
  by_cases hid : a.handlerId = 0
  · rw [without, if_pos hid]
    refine h.known.resolve_right fun hknown => ?_
    obtain ⟨entry, hentry, heq⟩ := mem_owned (hknown ▸ List.mem_singleton_self _)
    have := (h.ids entry hentry).1
    omega
  · rw [Attachments.owned_without hid]
    rcases h.known with hnone | hone
    · rw [hnone]
      rfl
    · simp [hone]

theorem Tidy.owned_renewed (h : Tidy a) : owned (renewed a).handlers = [a.nextHandlerId] := by
  rw [renewed, owned_append, h.owned_without]
  rfl

theorem Tidy.ids_renewed (h : Tidy a) :
    ∀ entry ∈ (renewed a).handlers, 0 < entry.1 ∧ entry.1 < (renewed a).nextHandlerId := by
  intro entry hentry
  rcases List.mem_append.mp hentry with hold | hnew
  · have := h.ids entry (without_subset _ _ hold)
    exact ⟨this.1, Nat.lt_succ_of_lt this.2⟩
  · rw [List.mem_singleton.mp hnew]
    exact ⟨h.next, Nat.lt_succ_self _⟩

theorem mem_connections {accepted : Bool} (h : Tidy a)
    (hconnections : connections a' = connections a ++ if accepted then [true] else []) :
    ∀ connect ∈ connections a', connect = true := by
  intro connect hconnect
  rw [hconnections] at hconnect
  rcases List.mem_append.mp hconnect with hold | hnew
  · exact h.always connect hold
  · cases accepted with
    | false => cases hnew
    | true => exact List.mem_singleton.mp hnew

theorem tidy_attachAt {port : UInt16} {o : Attempt} {result : Bool} (h : Tidy a)
    (hrun : attachAt port o a = (result, a')) :
    Tidy a' ∧ result = (connects o && fetches o) ∧
      connections a' = (connections a ++ if connects o then [true] else []) ∧
      (connects o = true → owned a'.handlers = [a'.handlerId]) := by
  obtain ⟨b, hb, hsame, hconnections⟩ := requestAll_run port a.nextHandlerId o (renewed a)
  rw [attachAt_eq, hb] at hrun
  obtain ⟨rfl, rfl⟩ := Prod.mk.inj hrun
  have hconnections : connections b = connections a ++ if connects o then [true] else [] :=
    hconnections
  have hids := h.ids_renewed
  have hid : b.handlerId = a.nextHandlerId := hsame.handlerId
  have hnext : b.nextHandlerId = a.nextHandlerId + 1 := hsame.nextHandlerId
  have halways := mem_connections h hconnections
  cases hconnects : connects o with
  | true =>
    rw [hconnects] at hconnections hsame
    have hhandlers : b.handlers = (renewed a).handlers := hsame.handlers
    have howned : owned b.handlers = [b.handlerId] := by rw [hhandlers, h.owned_renewed, hid]
    refine ⟨⟨.inr howned, ?_, by omega, halways, ?_⟩, rfl, hconnections, fun _ => howned⟩
    · rw [hhandlers, hnext]
      exact hids
    · rw [hconnections]
      simp
  | false =>
    rw [hconnects] at hconnections hsame
    have hhandlers : b.handlers = without a.nextHandlerId (renewed a).handlers := hsame.handlers
    have howned : owned b.handlers = [] := by
      rw [hhandlers, owned_without h.next.ne', h.owned_renewed]
      simp
    refine ⟨⟨.inl howned, ?_, by omega, halways, fun _ => howned⟩, rfl, hconnections, nofun⟩
    rw [hhandlers, hnext]
    exact fun entry hentry => hids entry (without_subset _ _ hentry)

theorem tidy_shutdown (status : StatusCode) (h : Tidy a) :
    Tidy (shutdown status a).2 ∧
      connections (shutdown status a).2 =
        connections a ++ if ControlRequest.isOK (.debugger true) status then [true] else [] := by
  obtain ⟨b, hb, hsame, hconnections⟩ :=
    setDebugger_run false status { a with isAttached := false }
  have hshutdown : (shutdown status a).2 =
      { b with handlers := without b.handlerId b.handlers, handlerId := 0 } := by
    unfold shutdown
    rw [run_bind, run_modify, run_bind, hb]
    dsimp only
    rw [run_bind, run_get, run_bind, unregister_run]
    rfl
  have hhandlers : without b.handlerId b.handlers = without a.handlerId a.handlers := by
    rw [hsame.handlers, hsame.handlerId]
  have hconnections : connections b =
      connections a ++ if ControlRequest.isOK (.debugger true) status then [true] else [] :=
    hconnections
  rw [hshutdown, hhandlers]
  refine ⟨⟨.inl h.owned_without, ?_, ?_, mem_connections h hconnections, fun _ => h.owned_without⟩,
    hconnections⟩
  · intro entry hentry
    rw [hsame.nextHandlerId]
    exact h.ids entry (without_subset _ _ hentry)
  · rw [hsame.nextHandlerId]
    exact h.next

end Keeping

section Sequences

inductive Call where
  | attach (o : Attempt)
  | shutdown (debugger : StatusCode)

/-- The server listens, or can be made to. -/
def listens (o : Attempt) : Bool :=
  o.port.isSome || (o.started && o.startedPort.isSome)

/-- The target accepts the `debugger` request of the call. -/
def Call.connects : Call → Bool
  | .attach o => listens o && Attachments.connects o
  | .shutdown status => ControlRequest.isOK (.debugger true) status

/-- An `Attach` that meets with no refusal. -/
def Call.succeeds : Call → Bool
  | .attach o => listens o && (Attachments.connects o && fetches o)
  | .shutdown _ => false

/-- The attachment, and whether the last `Attach` succeeded and no `Shutdown` followed it. -/
structure Observed where
  succeeded : Bool
  attachment : Attachment

def step : Call → Observed → Observed → Prop
  | .attach o, s, s' => attach o s.attachment = .ok (s'.succeeded, s'.attachment)
  | .shutdown status, s, s' =>
    s'.succeeded = false ∧ s'.attachment = (shutdown status s.attachment).2

/-- There is one handler exactly after an `Attach` that succeeded, and only then was the target last
told to connect. -/
def Consistent (s : Observed) : Prop :=
  (owned s.attachment.handlers).length = (if s.succeeded then 1 else 0) ∧
    ((connections s.attachment).getLast? = some true ↔ s.succeeded = true)

theorem attach_cases (o : Attempt) (a : Attachment) :
    (attach o a = .error .assertion) ∨ (listens o = false ∧ attach o a = .ok (false, a)) ∨
      (listens o = true ∧ ∃ port, attach o a = .ok (attachAt port o a)) := by
  unfold attach serverPort listens
  cases o.port with
  | some port => exact .inr (.inr ⟨rfl, port, rfl⟩)
  | none =>
    cases o.started with
    | false => exact .inr (.inl ⟨rfl, rfl⟩)
    | true =>
      cases o.startedPort with
      | some port => exact .inr (.inr ⟨rfl, port, rfl⟩)
      | none => exact .inl rfl

structure Kept (s : Observed) : Prop where
  tidy : Tidy s.attachment
  holds : s.succeeded = true →
    owned s.attachment.handlers = [s.attachment.handlerId] ∧ connections s.attachment ≠ []

theorem step_spec {call : Call} {s s' : Observed} (h : Tidy s.attachment) (hstep : step call s s') :
    Kept s' ∧ s'.succeeded = call.succeeds ∧
      connections s'.attachment =
        connections s.attachment ++ if call.connects then [true] else [] := by
  cases call with
  | shutdown status =>
    obtain ⟨hsucceeded, hattachment⟩ := hstep
    obtain ⟨htidy, hconnections⟩ := tidy_shutdown status h
    rw [← hattachment] at htidy hconnections
    exact ⟨⟨htidy, fun htrue => absurd (htrue.symm.trans hsucceeded) nofun⟩, hsucceeded, hconnections⟩
  | attach o =>
    have hstep : attach o s.attachment = .ok (s'.succeeded, s'.attachment) := hstep
    rcases attach_cases o s.attachment with hfault | ⟨hlistens, hfail⟩ | ⟨hlistens, port, hrun⟩
    · rw [hfault] at hstep
      cases hstep
    · rw [hfail] at hstep
      obtain ⟨hsucceeded, hattachment⟩ := Prod.mk.inj (Except.ok.inj hstep)
      rw [Call.succeeds, Call.connects, hlistens, ← hattachment]
      refine ⟨⟨hattachment ▸ h, fun htrue => absurd (htrue.symm.trans hsucceeded.symm) nofun⟩,
        hsucceeded.symm, (List.append_nil _).symm⟩
    · rw [hrun] at hstep
      obtain ⟨htidy, hresult, hconnections, howned⟩ := tidy_attachAt h (Except.ok.inj hstep)
      rw [Call.succeeds, Call.connects, hlistens, Bool.true_and, Bool.true_and]
      refine ⟨⟨htidy, fun htrue => ?_⟩, hresult, hconnections⟩
      rw [hresult, Bool.and_eq_true] at htrue
      refine ⟨howned htrue.1, ?_⟩
      rw [hconnections, htrue.1]
      simp

/-- Nothing has been done yet. -/
structure Fresh (a : Attachment) : Prop where
  handlerId : a.handlerId = 0
  owned : owned a.handlers = []
  ids : ∀ entry ∈ a.handlers, 0 < entry.1 ∧ entry.1 < a.nextHandlerId
  next : 0 < a.nextHandlerId
  sent : a.sent = []

theorem Fresh.tidy {a : Attachment} (h : Fresh a) : Tidy a where
  known := .inl h.owned
  ids := h.ids
  next := h.next
  always := by simp [connections, h.sent]
  quiet _ := h.owned

/-- The last call is an `Attach` that meets with no refusal. -/
def EndsAttached (calls : List (Call × Observed)) : Prop :=
  ∃ call, calls.getLast? = some call ∧ call.1.succeeds = true

theorem run_spec {s s' : Observed} {calls : List (Call × Observed)} (h : Run step s calls s')
    (hs : Kept s) :
    Kept s' ∧
      (s'.succeeded = true ↔ EndsAttached calls ∨ calls = [] ∧ s.succeeded = true) ∧
      (connections s'.attachment = [] ↔
        connections s.attachment = [] ∧ ∀ call ∈ calls, call.1.connects = false) := by
  induction h with
  | nil s => simp [hs, EndsAttached]
  | @cons call s s₁ s' rest first others ih =>
    obtain ⟨hkept, hsucceeded, hconnections⟩ := step_spec hs.tidy first
    obtain ⟨hkept', hsucceeded', hconnections'⟩ := ih hkept
    refine ⟨hkept', ?_, ?_⟩
    · rw [hsucceeded']
      cases rest with
      | nil => simp [EndsAttached, hsucceeded]
      | cons next rest => simp [EndsAttached, List.getLast?_cons_cons]
    · rw [hconnections', hconnections, List.forall_mem_cons]
      cases call.connects <;> simp

theorem consistent_iff {s : Observed} (h : Kept s) :
    Consistent s ↔ s.succeeded = true ∨ connections s.attachment = [] := by
  unfold Consistent
  cases hsucceeded : s.succeeded with
  | true =>
    obtain ⟨howned, hne⟩ := h.holds hsucceeded
    have hlast : (connections s.attachment).getLast? = some true := by
      rw [List.getLast?_eq_some_getLast hne, h.tidy.always _ (List.getLast_mem hne)]
    simp [howned, hlast]
  | false =>
    constructor
    · rintro ⟨-, hlast⟩
      right
      by_contra hne
      have htrue := h.tidy.always _ (List.getLast_mem hne)
      have := hlast.mp (by rw [List.getLast?_eq_some_getLast hne, htrue])
      cases this
    · rintro (hfalse | hnone)
      · cases hfalse
      · simp [hnone, h.tidy.quiet hnone]

/-- Any calls of a debugger that was not attached before. -/
theorem attachments_consistent_iff {a : Attachment} {calls : List (Call × Observed)} {s : Observed}
    (hfresh : Fresh a) (h : Run step ⟨false, a⟩ calls s) :
    Consistent s ↔ EndsAttached calls ∨ ∀ call ∈ calls, call.1.connects = false := by
  have hstart : Kept ⟨false, a⟩ := ⟨hfresh.tidy, nofun⟩
  have hnone : connections a = [] := by simp [connections, hfresh.sent]
  obtain ⟨hkept, hsucceeded, hconnections⟩ := run_spec h hstart
  rw [consistent_iff hkept, hsucceeded, hconnections]
  simp [hnone]

/-- The server listens, and every request is answered. -/
def obliging : Attempt where
  port := some 1024
  started := false
  startedPort := none
  notifyAtDrop := .ok
  notifyAt := .ok
  debugger := .ok
  threads := .okMultilineResponse
  modules := .okMultilineResponse
  walkMem := .okMultilineResponse

theorem fresh_default : Fresh {} :=
  ⟨rfl, rfl, by simp, by decide, rfl⟩

def attached : Observed :=
  ⟨true, (attachAt 1024 obliging {}).2⟩

theorem step_attached : step (.attach obliging) ⟨false, {}⟩ attached := by
  change attach obliging {} = .ok (attached.succeeded, attached.attachment)
  rfl

theorem attachments_consistent_attached : Consistent attached :=
  (attachments_consistent_iff fresh_default (.cons step_attached (.nil _))).mpr
    (.inl ⟨_, rfl, rfl⟩)

/-- After a `Shutdown` the target has last been told to connect. -/
theorem not_consistent_shutdown :
    Fresh {} ∧ ∃ s, Run step ⟨false, {}⟩
        [(.attach obliging, ⟨false, {}⟩), (.shutdown .ok, attached)] s ∧ ¬Consistent s := by
  refine ⟨fresh_default, ⟨false, (shutdown .ok attached.attachment).2⟩,
    .cons step_attached (.cons ⟨rfl, rfl⟩ (.nil _)), ?_⟩
  rintro ⟨-, hlast⟩
  exact absurd (hlast.mp rfl) nofun

end Sequences

end XbdmGdbBridge.Proofs.Attachments
