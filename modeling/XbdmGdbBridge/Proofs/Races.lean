import XbdmGdbBridge.Proofs.FrontEnds
import XbdmGdbBridge.Xbox.Races

/-!
# A read against a change of the breakpoints

`GetMemory` lifts the breakpoints it has found in its range and brings the same ones back, whatever
has become of them in between.
-/

namespace XbdmGdbBridge.Proofs

open Lib Program XBDMDebugger

variable {σ : Type} [Xbdm σ]

section Alone

theorem run_restore (l : List UInt32) (s : Shared σ) :
    (Shared.restoreBreakpoints l).run s =
      .ok ((), { s with debugger := (restoreBreakpoints l s.debugger).2 }) := by
  induction l generalizing s with
  | nil => rfl
  | cons bp rest ih =>
    exact ih { s with debugger := (request (.breakAddress bp false) s.debugger).2 }

theorem run_suspend (next : Shared.Turns σ) (l : List UInt32) (s : Shared σ) :
    (Shared.suspendBreakpoints next l).run s =
      next.run { s with debugger := (suspendBreakpoints l s.debugger).2 } := by
  induction l generalizing s with
  | nil => rfl
  | cons bp rest ih =>
    exact ih { s with debugger := (request (.breakAddress bp true) s.debugger).2 }

/-- The debugger behind a read that has found the breakpoints `overlaps`. -/
def readBehind (address length : UInt32) (overlaps : List UInt32) (d : XBDMDebugger (Armed σ)) :
    XBDMDebugger (Armed σ) :=
  (restoreBreakpoints overlaps
    (request (.getMemBinary address length) (suspendBreakpoints overlaps d).2).2).2

theorem run_read (address length : UInt32) (overlaps : List UInt32) (s : Shared σ) :
    (Shared.readMemory address length overlaps).run s =
      .ok ((), { s with debugger := readBehind address length overlaps s.debugger }) := by
  unfold Shared.readMemory
  rw [run_suspend]
  exact run_restore overlaps _

/-- Without interruption it is `AddBreakpoint` or `RemoveBreakpoint`. -/
theorem run_change (address : UInt32) (clear : Bool) (d : XBDMDebugger (Armed σ)) :
    (Shared.changeTurns address clear).run ⟨d, false⟩ = .ok ((),
      ⟨(if clear then removeBreakpoint address d else addBreakpoint address d).2, false⟩) := by
  have hasked : (Shared.changeTurns address clear).run ⟨d, false⟩ =
      (if (accepted (.breakAddress address clear) d).1 then
        Task.call (Shared.on (Shared.note address clear)) fun _ => .once Shared.release
        else .once Shared.release : Shared.Turns σ).run
          ⟨(accepted (.breakAddress address clear) d).2, true⟩ := rfl
  rw [hasked]
  cases clear with
  | true =>
    unfold removeBreakpoint
    rw [run_bind]
    cases (accepted (.breakAddress address true) d).1 <;> rfl
  | false =>
    unfold addBreakpoint
    rw [run_bind]
    cases (accepted (.breakAddress address false) d).1 <;> rfl

omit [Xbdm σ] in
theorem validate_run (address length : UInt32) (d : XBDMDebugger (Armed σ)) :
    (validateMemoryAccess address length : XBDMDebugger.Handler (Armed σ) Bool) d =
      if length = 0 then .error .assertion else .ok (d.accessible address length false, d) := by
  unfold validateMemoryAccess
  split <;> rfl

/-- Without interruption it is `GetMemory`. -/
theorem run_getMemory (address length : UInt32) (validate : Bool) (d : XBDMDebugger (Armed σ)) :
    (Shared.getMemory address length validate).run ⟨d, false⟩ =
      match (BreakEvent.getMemory address length validate).perform d with
      | .ok (_, d') => .ok ((), ⟨d', false⟩)
      | .error e => .error e := by
  have hread : (Task.call (Shared.snapshot address length)
      (Shared.readMemory address length) : Shared.Turns σ).run ⟨d, false⟩ =
        .ok ((), ⟨(readMemory address length d).2, false⟩) :=
    run_read address length (d.getActiveBreakpointsInRange address length) ⟨d, false⟩
  cases validate with
  | false => exact hread
  | true =>
    change (Program.on Shared.debuggerPart (validateMemoryAccess address length) >>= fun allowed =>
      (if allowed then _ else _ : Shared.Turns σ).run) ⟨d, false⟩ =
        match (XBDMDebugger.getMemory address length >>= fun _ => pure ()) d with
        | .ok (_, d') => .ok ((), ⟨d', false⟩)
        | .error e => .error e
    unfold XBDMDebugger.getMemory
    rw [bind_apply, bind_apply, bind_apply, Program.on]
    rw [show Shared.debuggerPart.read (⟨d, false⟩ : Shared σ) = d from rfl, validate_run]
    by_cases hzero : length = 0
    · rw [if_pos hzero]
    · rw [if_neg hzero]
      cases d.accessible address length false with
      | true => exact hread
      | false => rfl

end Alone

/-- A read of memory and a change of one breakpoint: `AddBreakpoint` or, with `clear`,
`RemoveBreakpoint`. -/
structure RacingCalls where
  address : UInt32
  length : UInt32
  validate : Bool
  changed : UInt32
  clear : Bool

namespace RacingCalls

def read (c : RacingCalls) : Shared.Turns σ :=
  Shared.getMemory c.address c.length c.validate

def change (c : RacingCalls) : Shared.Turns σ :=
  if c.clear then Shared.removeBreakpoint c.changed else Shared.addBreakpoint c.changed

/-- The check of the range lets the read through. -/
def Allowed (c : RacingCalls) (d : XBDMDebugger (Armed σ)) : Prop :=
  c.validate = true → d.accessible c.address c.length false = true

def InRange (c : RacingCalls) (bp : UInt32) : Prop :=
  c.address ≤ bp ∧ bp < c.address + c.length

/-- The breakpoints there should be, before and behind the request of the change. -/
def wanted (c : RacingCalls) (d : XBDMDebugger (Armed σ)) (asked : Bool) : Finset UInt32 :=
  if asked then (Request.breakAddress c.changed c.clear).arm d.breakpoints.toFinset
  else d.breakpoints.toFinset

theorem change_eq (c : RacingCalls) :
    (c.change : Shared.Turns σ) = Shared.changeTurns c.changed c.clear := by
  unfold change
  cases c.clear <;> rfl

end RacingCalls

/-- Where the reading thread is. -/
inductive ReadAt where
  | start
  | allowed
  | lifting (rest overlaps : List UInt32)
  | restoring (rest : List UInt32)

namespace ReadAt

def turns (c : RacingCalls) : ReadAt → Shared.Turns σ
  | start => c.read
  | allowed => .call (Shared.snapshot c.address c.length) (Shared.readMemory c.address c.length)
  | lifting rest overlaps => Shared.suspendBreakpoints
      (.call (Shared.on (request (.getMemBinary c.address c.length))) fun _ =>
        Shared.restoreBreakpoints overlaps) rest
  | restoring rest => Shared.restoreBreakpoints rest

/-- What is still to be restored. -/
def pending : ReadAt → List UInt32
  | start | allowed => []
  | lifting _ overlaps => overlaps
  | restoring rest => rest

end ReadAt

/-- Where the thread that changes a breakpoint is. -/
inductive ChangeAt where
  | start | holding | asked | noted | finished

namespace ChangeAt

def turns (c : RacingCalls) : ChangeAt → Shared.Turns σ
  | start => c.change
  | holding => .call (Shared.on (accepted (.breakAddress c.changed c.clear))) fun granted =>
      if granted then .call (Shared.on (Shared.note c.changed c.clear)) fun _ =>
        .once Shared.release
      else .once Shared.release
  | asked => .call (Shared.on (Shared.note c.changed c.clear)) fun _ => .once Shared.release
  | noted => .once Shared.release
  | finished => .done

def holds : ChangeAt → Bool
  | holding | asked | noted => true
  | _ => false

def hasAsked : ChangeAt → Bool
  | asked | noted | finished => true
  | _ => false

def hasNoted : ChangeAt → Bool
  | noted | finished => true
  | _ => false

end ChangeAt

/-- What holds between the turns: what should be there is installed or about to be restored, and
nothing else is. -/
structure Racing (c : RacingCalls) (d : XBDMDebugger (Armed σ)) (r : ReadAt) (k : ChangeAt)
    (s : Shared σ) : Prop where
  locked : s.locked = k.holds
  regions : s.debugger.memoryRegions = d.memoryRegions
  known : s.debugger.breakpoints.toFinset = c.wanted d k.hasNoted
  installed : s.debugger.installed ⊆ c.wanted d k.hasAsked
  kept : c.wanted d k.hasAsked ⊆ s.debugger.installed ∪ r.pending.toFinset
  pending : ∀ bp ∈ r.pending, c.Allowed d ∧ c.InRange bp ∧ bp ∈ c.wanted d k.hasAsked
  checked : r = .allowed → c.Allowed d
  lifted : ∀ rest overlaps, r = .lifting rest overlaps → ∀ bp ∈ rest, bp ∈ overlaps

section Turns

variable {α : Type} {c : RacingCalls} {d : XBDMDebugger (Armed σ)} {r : ReadAt} {k : ChangeAt}
  {s s' : Shared σ} {t : Shared.Turns σ}

omit [Xbdm σ] in
theorem on_turn {x : Op (Armed σ) α} {a : α} (h : Shared.on x s = .ok (a, s')) :
    a = (x s.debugger).1 ∧ s' = { s with debugger := (x s.debugger).2 } := by
  obtain ⟨rfl, rfl⟩ := Prod.mk.inj (Except.ok.inj h)
  exact ⟨rfl, rfl⟩

omit [Xbdm σ] in
theorem unlessLocked_turn {x : Shared.Turn σ α} {a : α}
    (h : Shared.unlessLocked x s = .ok (a, s')) : s.locked = false ∧ x s = .ok (a, s') := by
  unfold Shared.unlessLocked at h
  cases hl : s.locked with
  | true =>
    rw [hl] at h
    cases h
  | false =>
    rw [hl] at h
    exact ⟨rfl, h⟩

omit [Xbdm σ] in
theorem validated_turn {address length : UInt32} {validate allowed : Bool}
    (h : Shared.validated address length validate s = .ok (allowed, s')) :
    s' = s ∧ (allowed = true → validate = true →
      s.debugger.accessible address length false = true) := by
  cases validate with
  | false =>
    cases h
    exact ⟨rfl, fun _ hf => by cases hf⟩
  | true =>
    obtain ⟨d', hrun, rfl⟩ := on_ok
      (show Program.on Shared.debuggerPart (validateMemoryAccess address length) s = _ from h)
    rw [show Shared.debuggerPart.read s = s.debugger from rfl, validate_run] at hrun
    split at hrun
    · cases hrun
    · cases hrun
      exact ⟨rfl, fun hallowed _ => hallowed⟩

theorem Racing.lift (hok : Obliging σ) {bp : UInt32} {rest overlaps : List UInt32}
    (h : Racing c d (.lifting (bp :: rest) overlaps) k s) :
    Racing c d (.lifting rest overlaps) k
      { s with debugger := (request (.breakAddress bp true) s.debugger).2 } where
  locked := h.locked
  regions := h.regions
  known := h.known
  installed := by
    rw [request_installed, grants_obliging hok]
    exact (Finset.erase_subset _ _).trans h.installed
  kept := by
    rw [request_installed, grants_obliging hok]
    intro a ha
    have hbp := h.lifted _ _ rfl bp List.mem_cons_self
    by_cases he : a = bp
    · rw [he]
      exact Finset.mem_union_right _ (List.mem_toFinset.mpr hbp)
    · obtain hi | hp := Finset.mem_union.mp (h.kept ha)
      · exact Finset.mem_union_left _ (Finset.mem_erase.mpr ⟨he, hi⟩)
      · exact Finset.mem_union_right _ hp
  pending := h.pending
  checked := by
    intro he
    cases he
  lifted := by
    intro rest' overlaps' he a ha
    cases he
    exact h.lifted _ _ rfl a (List.mem_cons_of_mem _ ha)

theorem Racing.restore (hok : Obliging σ) {bp : UInt32} {rest : List UInt32}
    (h : Racing c d (.restoring (bp :: rest)) k s) :
    Racing c d (.restoring rest) k
      { s with debugger := (request (.breakAddress bp false) s.debugger).2 } where
  locked := h.locked
  regions := h.regions
  known := h.known
  installed := by
    rw [request_installed, grants_obliging hok]
    exact Finset.insert_subset (h.pending bp List.mem_cons_self).2.2 h.installed
  kept := by
    rw [request_installed, grants_obliging hok]
    intro a ha
    obtain hi | hp := Finset.mem_union.mp (h.kept ha)
    · exact Finset.mem_union_left _ (Finset.mem_insert_of_mem hi)
    · obtain rfl | hrest := List.mem_cons.mp (List.mem_toFinset.mp hp)
      · exact Finset.mem_union_left _ (Finset.mem_insert_self _ _)
      · exact Finset.mem_union_right _ (List.mem_toFinset.mpr hrest)
  pending := fun a ha => h.pending a (List.mem_cons_of_mem _ ha)
  checked := by
    intro he
    cases he
  lifted := by
    intro rest' overlaps' he
    cases he

omit [Xbdm σ] in
/-- The copy is made while nobody holds the lock: the set is what should be there. -/
theorem Racing.copy (h : Racing c d .allowed k s) (hfree : s.locked = false) :
    let overlaps := s.debugger.getActiveBreakpointsInRange c.address c.length
    Racing c d (.lifting overlaps overlaps) k s := by
  have hsame : k.hasAsked = k.hasNoted := by
    have hholds := h.locked.symm.trans hfree
    cases k with
    | start | finished => rfl
    | holding | asked | noted => cases hholds
  exact {
    locked := h.locked
    regions := h.regions
    known := h.known
    installed := h.installed
    kept := h.kept.trans (Finset.union_subset_union_right (Finset.empty_subset _))
    pending := by
      intro bp hbp
      obtain ⟨hmem, hrange⟩ := List.mem_filter.mp hbp
      rw [Bool.and_eq_true, decide_eq_true_iff, decide_eq_true_iff] at hrange
      refine ⟨h.checked rfl, hrange, ?_⟩
      rw [hsame, ← h.known]
      exact List.mem_toFinset.mpr hmem
    checked := by
      intro he
      cases he
    lifted := by
      intro rest overlaps he
      cases he
      exact fun _ hbp => hbp }

theorem Racing.fetch {overlaps : List UInt32} (h : Racing c d (.lifting [] overlaps) k s) :
    Racing c d (.restoring overlaps) k { s with
      debugger := (request (.getMemBinary c.address c.length) s.debugger).2 } := by
  have harms := aside_arms.request (.getMemBinary c.address c.length) rfl s.debugger
  have hinstalled : (request (.getMemBinary c.address c.length) s.debugger).2.installed =
      s.debugger.installed := congrArg (fun a => a.2.1) harms
  exact {
    locked := h.locked
    regions := h.regions
    known := h.known
    installed := by
      rw [hinstalled]
      exact h.installed
    kept := by
      rw [hinstalled]
      exact h.kept
    pending := h.pending
    checked := by
      intro he
      cases he
    lifted := by
      intro rest overlaps he
      cases he }

theorem Racing.read_step (hok : Obliging σ) (h : Racing c d r k s)
    (hs : Task.Step (r.turns c) s t s') : ∃ r', t = r'.turns c ∧ Racing c d r' k s' := by
  cases r with
  | start =>
    obtain ⟨allowed, hrun, rfl⟩ := Task.step_call hs
    obtain ⟨rfl, hallowed⟩ := validated_turn hrun
    have hcheck : allowed = true → c.Allowed d := by
      intro ha hv
      have haccessible := hallowed ha hv
      unfold accessible at haccessible ⊢
      rwa [h.regions] at haccessible
    cases allowed with
    | true =>
      exact ⟨.allowed, rfl, { h with
        checked := fun _ => hcheck rfl
        lifted := by
          intro rest overlaps he
          cases he }⟩
    | false =>
      exact ⟨.restoring [], rfl, { h with
        checked := by
          intro he
          cases he
        lifted := by
          intro rest overlaps he
          cases he }⟩
  | allowed =>
    obtain ⟨overlaps, hrun, rfl⟩ := Task.step_call hs
    obtain ⟨hfree, hrun⟩ := unlessLocked_turn hrun
    cases hrun
    exact ⟨.lifting _ _, rfl, h.copy hfree⟩
  | lifting rest overlaps =>
    cases rest with
    | nil =>
      obtain ⟨reply, hrun, rfl⟩ := Task.step_call hs
      obtain ⟨-, rfl⟩ := on_turn hrun
      exact ⟨.restoring overlaps, rfl, h.fetch⟩
    | cons bp rest =>
      obtain ⟨reply, hrun, rfl⟩ := Task.step_call hs
      obtain ⟨-, rfl⟩ := on_turn hrun
      exact ⟨.lifting rest overlaps, rfl, h.lift hok⟩
  | restoring rest =>
    cases rest with
    | nil => cases hs
    | cons bp rest =>
      obtain ⟨reply, hrun, rfl⟩ := Task.step_call hs
      obtain ⟨-, rfl⟩ := on_turn hrun
      exact ⟨.restoring rest, rfl, h.restore hok⟩

/-- What the read lifts, the change leaves among the breakpoints there should be. -/
def RacingCalls.Spares (c : RacingCalls) (d : XBDMDebugger (Armed σ)) : Prop :=
  c.Allowed d → ∀ bp, c.InRange bp → bp ∈ c.wanted d false → bp ∈ c.wanted d true

omit [Xbdm σ] in
theorem arm_mono (address : UInt32) (clear : Bool) {a b : Finset UInt32} (h : a ⊆ b) :
    (Request.breakAddress address clear).arm a ⊆ (Request.breakAddress address clear).arm b := by
  cases clear with
  | false => exact Finset.insert_subset_insert _ h
  | true => exact Finset.erase_subset_erase _ h

omit [Xbdm σ] in
theorem arm_union (address : UInt32) (clear : Bool) (a b : Finset UInt32) :
    (Request.breakAddress address clear).arm (a ∪ b) ⊆
      (Request.breakAddress address clear).arm a ∪ b := by
  cases clear with
  | false => exact (Finset.insert_union address a b).symm.subset
  | true =>
    intro bp hbp
    obtain ⟨hne, hmem⟩ := Finset.mem_erase.mp hbp
    obtain ha | hb := Finset.mem_union.mp hmem
    · exact Finset.mem_union_left _ (Finset.mem_erase.mpr ⟨hne, ha⟩)
    · exact Finset.mem_union_right _ hb

theorem Racing.ask (hok : Obliging σ) (hspares : c.Spares d) (h : Racing c d r .holding s) :
    Racing c d r .asked { s with
      debugger := (accepted (.breakAddress c.changed c.clear) s.debugger).2 } := by
  have hinstalled :
      (accepted (.breakAddress c.changed c.clear) s.debugger).2.installed =
        (Request.breakAddress c.changed c.clear).arm s.debugger.installed := by
    change (request (.breakAddress c.changed c.clear) s.debugger).2.installed = _
    rw [request_installed, grants_obliging hok, if_pos rfl]
  exact { h with
    installed := by
      rw [hinstalled]
      exact arm_mono _ _ h.installed
    kept := by
      rw [hinstalled]
      exact (arm_mono _ _ h.kept).trans (arm_union _ _ _ _)
    pending := by
      intro bp hbp
      obtain ⟨hallowed, hrange, hwanted⟩ := h.pending bp hbp
      exact ⟨hallowed, hrange, hspares hallowed bp hrange hwanted⟩ }

omit [Xbdm σ] in
theorem Racing.note (h : Racing c d r .asked s) :
    Racing c d r .noted { s with
      debugger := (Shared.note c.changed c.clear s.debugger).2 } := by
  have hknown : (Shared.note c.changed c.clear s.debugger).2.breakpoints.toFinset =
      (Request.breakAddress c.changed c.clear).arm s.debugger.breakpoints.toFinset := by
    unfold Shared.note
    cases c.clear with
    | false => exact toFinset_added _ _
    | true => exact toFinset_removed _ _
  exact { h with
    known := by
      rw [hknown, h.known]
      rfl }

theorem Racing.change_step (hok : Obliging σ) (hspares : c.Spares d) (h : Racing c d r k s)
    (hs : Task.Step (k.turns c) s t s') : ∃ k', t = k'.turns c ∧ Racing c d r k' s' := by
  cases k with
  | start =>
    unfold ChangeAt.turns at hs
    rw [c.change_eq] at hs
    obtain ⟨_, hrun, rfl⟩ := Task.step_call hs
    obtain ⟨-, hrun⟩ := unlessLocked_turn hrun
    cases hrun
    exact ⟨.holding, rfl, { h with locked := rfl }⟩
  | holding =>
    obtain ⟨granted, hrun, rfl⟩ := Task.step_call hs
    obtain ⟨hgranted, rfl⟩ := on_turn hrun
    have hyes : granted = true := by
      rw [hgranted]
      exact (request_isSome _ _).trans (grants_obliging hok _ _)
    rw [hyes]
    exact ⟨.asked, rfl, h.ask hok hspares⟩
  | asked =>
    obtain ⟨_, hrun, rfl⟩ := Task.step_call hs
    obtain ⟨-, rfl⟩ := on_turn hrun
    exact ⟨.noted, rfl, h.note⟩
  | noted =>
    obtain ⟨_, hrun, rfl⟩ := Task.step_call hs
    cases hrun
    exact ⟨.finished, rfl, { h with locked := rfl }⟩
  | finished => cases hs

omit [Xbdm σ] in
theorem racing_start (hd : d.installed = d.breakpoints.toFinset) :
    Racing c d .start .start ⟨d, false⟩ where
  locked := rfl
  regions := rfl
  known := rfl
  installed := hd.subset
  kept := hd.symm.subset.trans Finset.subset_union_left
  pending := by
    intro bp hbp
    cases hbp
  checked := by
    intro he
    cases he
  lifted := by
    intro rest overlaps he
    cases he

theorem ReadAt.pending_of_done (h : (r.turns c : Shared.Turns σ) = .done) : r.pending = [] := by
  cases r with
  | start | allowed => cases h
  | lifting rest overlaps => cases rest <;> cases h
  | restoring rest =>
    cases rest with
    | nil => rfl
    | cons bp rest => cases h

theorem ChangeAt.finished_of_done (h : (k.turns c : Shared.Turns σ) = .done) : k = .finished := by
  cases k with
  | start =>
    unfold ChangeAt.turns at h
    rw [c.change_eq] at h
    cases h
  | holding | asked | noted => cases h
  | finished => rfl

/-- Behind both calls nothing is pending, and the set has the change. -/
theorem Racing.settled (h : Racing c d r k s) (hr : (r.turns c : Shared.Turns σ) = .done)
    (hk : (k.turns c : Shared.Turns σ) = .done) :
    s.debugger.installed = s.debugger.breakpoints.toFinset := by
  obtain rfl := ChangeAt.finished_of_done hk
  have hkept := h.kept
  rw [ReadAt.pending_of_done hr, List.toFinset_nil, Finset.union_empty] at hkept
  rw [h.known]
  exact h.installed.antisymm hkept

theorem racing_interleaved (hok : Obliging σ) (hspares : c.Spares d)
    (hd : d.installed = d.breakpoints.toFinset) {u : Shared.Turns σ}
    (h : Task.Interleaved c.read c.change ⟨d, false⟩ t u s) :
    ∃ r k, t = ReadAt.turns c r ∧ u = ChangeAt.turns c k ∧ Racing c d r k s := by
  refine Task.Interleaved.keeps
    (P := fun t u s => ∃ r k, t = ReadAt.turns c r ∧ u = ChangeAt.turns c k ∧ Racing c d r k s)
    ?_ ?_ h ⟨.start, .start, rfl, rfl, racing_start hd⟩
  · rintro _ t' _ s s' ⟨r, k, rfl, rfl, hracing⟩ hstep
    obtain ⟨r', rfl, hracing'⟩ := hracing.read_step hok hstep
    exact ⟨r', k, rfl, rfl, hracing'⟩
  · rintro _ _ u' s s' ⟨r, k, rfl, rfl, hracing⟩ hstep
    obtain ⟨k', rfl, hracing'⟩ := hracing.change_step hok hspares hstep
    exact ⟨r, k', rfl, rfl, hracing'⟩

end Turns

section Exposed

variable {c : RacingCalls} {d : XBDMDebugger (Armed σ)}

/-- `RemoveBreakpoint` takes away a breakpoint that the read lifts. -/
def RacingCalls.Exposed (c : RacingCalls) (d : XBDMDebugger (Armed σ)) : Prop :=
  c.clear = true ∧ c.changed ∈ d.breakpoints ∧ c.InRange c.changed ∧ c.Allowed d

omit [Xbdm σ] in
theorem spares_of_not_exposed (h : ¬c.Exposed d) : c.Spares d := by
  intro hallowed bp hrange hbp
  unfold RacingCalls.wanted at hbp ⊢
  cases hclear : c.clear with
  | false => exact Finset.mem_insert_of_mem hbp
  | true =>
    refine Finset.mem_erase.mpr ⟨?_, hbp⟩
    rintro rfl
    exact h ⟨hclear, List.mem_toFinset.mp hbp, hrange, hallowed⟩

omit [Xbdm σ] in
theorem mem_overlaps (hbp : c.changed ∈ d.breakpoints) (hrange : c.InRange c.changed) :
    c.changed ∈ d.getActiveBreakpointsInRange c.address c.length := by
  refine List.mem_filter.mpr ⟨hbp, ?_⟩
  rw [Bool.and_eq_true, decide_eq_true_iff, decide_eq_true_iff]
  exact hrange

omit [Xbdm σ] in
theorem validated_allowed (hallowed : c.Allowed d) {bp : UInt32} (hrange : c.InRange bp) :
    Shared.validated c.address c.length c.validate ⟨d, false⟩ = .ok (true, ⟨d, false⟩) := by
  have hlength : c.length ≠ 0 := by
    intro hzero
    obtain ⟨hlow, hhigh⟩ := hrange
    rw [hzero, UInt32.add_zero] at hhigh
    exact absurd hlow (UInt32.not_le.mpr hhigh)
  unfold Shared.validated
  cases hvalidate : c.validate with
  | false => rfl
  | true =>
    change Program.on Shared.debuggerPart (validateMemoryAccess c.address c.length) _ = _
    unfold Program.on
    rw [show Shared.debuggerPart.read (⟨d, false⟩ : Shared σ) = d from rfl, validate_run,
      if_neg hlength, hallowed hvalidate]
    rfl

/-- The change takes its turns between the copy of the breakpoints and the first request. -/
theorem interleaved_between (hallowed : c.Allowed d) {bp : UInt32} (hrange : c.InRange bp) :
    Task.Interleaved c.read c.change ⟨d, false⟩ .done .done
      ⟨readBehind c.address c.length (d.getActiveBreakpointsInRange c.address c.length)
        (if c.clear then removeBreakpoint c.changed d else addBreakpoint c.changed d).2,
        false⟩ := by
  let overlaps := d.getActiveBreakpointsInRange c.address c.length
  have hcopy : Task.Step (ReadAt.allowed.turns c) (⟨d, false⟩ : Shared σ)
      (Shared.readMemory c.address c.length overlaps) ⟨d, false⟩ := .call rfl
  have hchange := run_change c.changed c.clear d
  rw [← c.change_eq] at hchange
  refine .left (.call (validated_allowed hallowed hrange)) (.left hcopy ?_)
  exact (Task.interleaved_right (Task.alone_of_run hchange) _).trans
    (Task.interleaved_left (Task.alone_of_run (run_read _ _ overlaps _)) _)

theorem readBehind_breakpoints (address length : UInt32) (overlaps : List UInt32)
    (d : XBDMDebugger (Armed σ)) :
    (readBehind address length overlaps d).breakpoints = d.breakpoints := by
  have hlifted := congrArg Core.breakpoints (keeps_suspendBreakpoints overlaps d)
  exact (congrArg Core.breakpoints (keeps_restoreBreakpoints overlaps _)).trans hlifted

theorem readBehind_installed (hok : Obliging σ) (address length : UInt32) (overlaps : List UInt32)
    (d : XBDMDebugger (Armed σ)) :
    overlaps.toFinset ⊆ (readBehind address length overlaps d).installed := by
  unfold readBehind
  rw [restore_obliging hok]
  exact Finset.subset_union_right

/-- The read brings back a breakpoint that has been removed in between. -/
theorem exposed_unsettled (hok : Obliging σ) (h : c.Exposed d) :
    ∃ s' : Shared σ, Task.Interleaved c.read c.change ⟨d, false⟩ .done .done s' ∧
      c.changed ∈ s'.debugger.installed ∧ c.changed ∉ s'.debugger.breakpoints := by
  obtain ⟨hclear, hbp, hrange, hallowed⟩ := h
  refine ⟨_, interleaved_between hallowed hrange, ?_, ?_⟩
  · exact readBehind_installed hok _ _ _ _ (List.mem_toFinset.mpr (mem_overlaps hbp hrange))
  · have harms := removeBreakpoint_arms c.changed d
    rw [grants_obliging hok] at harms
    change c.changed ∉ (readBehind _ _ _ _).breakpoints
    rw [hclear, readBehind_breakpoints, if_pos rfl, ← List.mem_toFinset, harms.2]
    exact Finset.notMem_erase _ _

/-- The target has the breakpoints of the set again behind every interleaving exactly if the change
does not remove one that the read lifts. -/
theorem interleaved_settled_iff (hok : Obliging σ) (c : RacingCalls) (d : XBDMDebugger (Armed σ))
    (hd : d.installed = d.breakpoints.toFinset) :
    (∀ s' : Shared σ, Task.Interleaved c.read c.change ⟨d, false⟩ .done .done s' →
      s'.debugger.installed = s'.debugger.breakpoints.toFinset) ↔ ¬c.Exposed d := by
  constructor
  · intro hall hexposed
    obtain ⟨s', hrun, hinstalled, hgone⟩ := exposed_unsettled hok hexposed
    rw [hall s' hrun, List.mem_toFinset] at hinstalled
    exact hgone hinstalled
  · intro hspared s' hrun
    obtain ⟨r, k, hr, hk, hracing⟩ :=
      racing_interleaved hok (spares_of_not_exposed hspared) hd hrun
    exact hracing.settled hr.symm hk.symm

end Exposed

/-- One breakpoint, known here and there. -/
def armed : XBDMDebugger (Armed Willing) where
  context := { target := { target := {}, installed := {0x1000} } }
  breakpoints := [0x1000]

theorem interleaved_settled_added : ∃ s' : Shared Willing,
    Task.Interleaved (RacingCalls.read ⟨0x1000, 4, true, 0x1002, false⟩)
      (RacingCalls.change ⟨0x1000, 4, true, 0x1002, false⟩) ⟨armed, false⟩ .done .done s' ∧
    s'.debugger.breakpoints = [0x1000, 0x1002] ∧
    s'.debugger.installed = s'.debugger.breakpoints.toFinset := by
  have hrange : RacingCalls.InRange ⟨0x1000, 4, true, 0x1002, false⟩ 0x1002 :=
    ⟨by decide, by decide⟩
  have hrun := interleaved_between (d := armed) (fun _ => rfl) hrange
  refine ⟨_, hrun, by decide, (interleaved_settled_iff obliging_willing _ armed rfl).mpr ?_ _ hrun⟩
  rintro ⟨hclear, -⟩
  cases hclear

theorem interleaved_removed_ghost :
    Obliging Willing ∧ armed.installed = armed.breakpoints.toFinset ∧ ∃ s' : Shared Willing,
      Task.Interleaved (RacingCalls.read ⟨0x1000, 4, true, 0x1000, true⟩)
        (RacingCalls.change ⟨0x1000, 4, true, 0x1000, true⟩) ⟨armed, false⟩ .done .done s' ∧
      s'.debugger.installed = {0x1000} ∧ s'.debugger.breakpoints = [] := by
  have hrange : RacingCalls.InRange ⟨0x1000, 4, true, 0x1000, true⟩ 0x1000 := ⟨by decide, by decide⟩
  exact ⟨obliging_willing, rfl, _, interleaved_between (fun _ => rfl) hrange, by decide, rfl⟩

end XbdmGdbBridge.Proofs
