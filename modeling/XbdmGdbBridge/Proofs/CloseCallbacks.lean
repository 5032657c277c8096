import XbdmGdbBridge.Lib.Assoc
import XbdmGdbBridge.Net.SelectThread

/-!
# Callbacks of closed connections

What a step of the select thread does to its lists, and from that along every run: whether each removed
connection has had its callback.
-/

namespace XbdmGdbBridge.Proofs.Closing

open Lib Networking SelectThread

variable {κ : Type} [DecidableEq κ]

/-- The lists and the history, wherever the thread is. -/
def books (s : SelectThread κ) : SelectThread κ :=
  { s with running := false, place := .outside }

/-- The entries that are removed at the end of a pass. -/
def ending (e : Event κ) (s : SelectThread κ) : Option (List κ) :=
  match e, s.place with
  | .endSelecting, .selecting [] toRemove _ => some toRemove
  | .endProcessing, .processing [] toRemove => some toRemove
  | _, _ => none

/-- What a step does to the lists. -/
inductive Booked (e : Event κ) (s s' : SelectThread κ) : Prop where
  | unchanged (hend : ending e s = none) (h : books s' = books s)
  | added (conn : κ) (hend : ending e s = none) (h : books s' = books (s.addConnection conn))
  | addedOnClose (conn : κ) (onClose : OnClose κ) (hend : ending e s = none)
      (h : books s' = books (s.addConnectionOnClose conn onClose))
  | connected (transport : κ) (hnew : s.isNew transport = true) (hend : ending e s = none)
      (h : books s' = books (s.onNotificationChannelConnected transport))
  | erased (toRemove : List κ) (hend : ending e s = some toRemove)
      (h : books s' = books (s.eraseAll toRemove))

theorem step_booked {e : Event κ} {s s' : SelectThread κ} (h : Step e s s') : Booked e s s' := by
  unfold Step next at h
  split at h
  next signaller hplace =>
    cases h
    exact .added signaller rfl rfl
  next =>
    cases h
    exact .unchanged rfl rfl
  next conn =>
    cases h
    exact .added conn rfl rfl
  next conn onClose =>
    cases h
    exact .addedOnClose conn onClose rfl rfl
  next transport =>
    split at h
    next hnew =>
      cases h
      exact .connected transport hnew rfl rfl
    next => cases h
  next =>
    split at h <;> cases h <;> exact .unchanged rfl rfl
  next =>
    split at h <;> cases h <;> exact .unchanged rfl rfl
  next toRemove maxFd hplace =>
    cases h
    exact .erased toRemove (by simp [ending, hplace]) rfl
  next =>
    split at h <;> cases h <;> exact .unchanged rfl rfl
  next =>
    cases h
    exact .unchanged rfl rfl
  next toRemove hplace =>
    cases h
    exact .erased toRemove (by simp [ending, hplace]) rfl
  next => cases h

/-- For each removal of a connection with a callback it was run once and its entry dropped, none was
run for a connection that was registered, and no removed transport is kept. -/
structure Accounted (s : SelectThread κ) : Prop where
  once : ∀ c, (s.ran.map Prod.fst).count c = s.due.count c
  dropped : ∀ c, s.hasCallback c = true → c ∈ s.selectables
  closed : ∀ r ∈ s.ran, r.2 = false
  transports : ∀ t ∈ s.notificationTransports, t ∉ s.removed

/-- What holds in any case: nothing has run a callback, and every transport has one. -/
structure Standing (s : SelectThread κ) : Prop where
  silent : s.ran = []
  covered : ∀ t ∈ s.notificationTransports, s.hasCallback t = true

/-- The pass that ends removes no connection with a callback. -/
def Harmless (e : Event κ) (s : SelectThread κ) : Prop :=
  ∀ toRemove, ending e s = some toRemove →
    ∀ c ∈ s.selectables, c ∈ toRemove → s.hasCallback c = false

theorem harmless_of_none {e : Event κ} {s : SelectThread κ} (h : ending e s = none) :
    Harmless e s := by
  intro toRemove hend
  rw [h] at hend
  cases hend

section Books

variable {s s' : SelectThread κ}

theorem accounted_congr (h : books s' = books s) : Accounted s' ↔ Accounted s := by
  have hbooks (s : SelectThread κ) : Accounted (books s) ↔ Accounted s :=
    ⟨fun h => ⟨h.once, h.dropped, h.closed, h.transports⟩,
      fun h => ⟨h.once, h.dropped, h.closed, h.transports⟩⟩
  rw [← hbooks, h, hbooks]

theorem standing_congr (h : books s' = books s) : Standing s' ↔ Standing s := by
  have hbooks (s : SelectThread κ) : Standing (books s) ↔ Standing s :=
    ⟨fun h => ⟨h.silent, h.covered⟩, fun h => ⟨h.silent, h.covered⟩⟩
  rw [← hbooks, h, hbooks]

theorem hasCallback_assign (s : SelectThread κ) (conn : κ) (onClose : OnClose κ) (c : κ) :
    (s.assignCallback conn onClose).hasCallback c = (c == conn || s.hasCallback c) := by
  unfold hasCallback assignCallback
  rw [List.lookup_cons, lookup_filter_ne]
  by_cases hc : c = conn
  · simp [hc]
  · simp [hc, beq_eq_false_iff_ne.mpr hc]

theorem hasCallback_addOnClose (s : SelectThread κ) (conn : κ) (onClose : OnClose κ) (c : κ) :
    (s.addConnectionOnClose conn onClose).hasCallback c = (c == conn || s.hasCallback c) :=
  hasCallback_assign (s.addConnection conn) conn onClose c

end Books

section Steps

variable {s : SelectThread κ}

theorem Accounted.addConnection (h : Accounted s) (conn : κ) : Accounted (s.addConnection conn) :=
  ⟨h.once, fun c hc => List.mem_append_left _ (h.dropped c hc), h.closed, h.transports⟩

theorem Accounted.addOnClose (h : Accounted s) (conn : κ) (onClose : OnClose κ) :
    Accounted (s.addConnectionOnClose conn onClose) := by
  refine ⟨h.once, fun c hc => ?_, h.closed, h.transports⟩
  change c ∈ s.selectables ++ [conn]
  rw [hasCallback_addOnClose, Bool.or_eq_true, beq_iff_eq] at hc
  rcases hc with rfl | hold
  · exact List.mem_append_right _ List.mem_cons_self
  · exact List.mem_append_left _ (h.dropped c hold)

theorem Accounted.connected (h : Accounted s) {transport : κ} (hnew : s.isNew transport = true) :
    Accounted (s.onNotificationChannelConnected transport) := by
  obtain ⟨-, -, hremoved, -⟩ := of_decide_eq_true hnew
  have hkept : Accounted { s with
      notificationTransports := s.notificationTransports ++ [transport] } := by
    refine ⟨h.once, h.dropped, h.closed, fun t ht => ?_⟩
    rcases List.mem_append.mp ht with hold | hlast
    · exact h.transports t hold
    · rw [List.mem_singleton.mp hlast]
      exact hremoved
  exact hkept.addOnClose transport _

theorem Standing.addOnClose (h : Standing s) (conn : κ) (onClose : OnClose κ) :
    Standing (s.addConnectionOnClose conn onClose) := by
  refine ⟨h.silent, fun t ht => ?_⟩
  rw [hasCallback_addOnClose, h.covered t ht, Bool.or_true]

theorem Standing.connected (h : Standing s) (transport : κ) :
    Standing (s.onNotificationChannelConnected transport) := by
  refine ⟨h.silent, fun t ht => ?_⟩
  have hcallback := hasCallback_addOnClose
    { s with notificationTransports := s.notificationTransports ++ [transport] } transport
    (.forget transport) t
  refine hcallback.trans ?_
  rw [Bool.or_eq_true, beq_iff_eq]
  rcases List.mem_append.mp ht with hold | hlast
  · exact .inr (h.covered t hold)
  · exact .inl (List.mem_singleton.mp hlast)

/-- The removal of connections without callbacks, and no other, leaves nothing to be done. -/
theorem accounted_eraseAll_iff (hstanding : Standing s) (h : Accounted s) (toRemove : List κ) :
    Accounted (s.eraseAll toRemove) ↔
      ∀ c ∈ s.selectables, c ∈ toRemove → s.hasCallback c = false := by
  have hdue : s.due = [] := by
    rw [List.eq_nil_iff_forall_not_mem]
    intro c hc
    have honce := h.once c
    rw [hstanding.silent] at honce
    exact absurd (List.count_pos_iff.mpr hc) (by rw [← honce]; simp)
  have hgone (c : κ) : c ∈ (s.selectables.filter (· ∈ toRemove)).dedup ↔
      c ∈ s.selectables ∧ c ∈ toRemove := by simp
  constructor
  · intro herased c hc hremove
    by_contra hcallback
    have hmem : c ∈ (s.eraseAll toRemove).due := by
      refine List.mem_append_right _ (List.mem_filter.mpr ⟨(hgone c).mpr ⟨hc, hremove⟩, ?_⟩)
      simpa using hcallback
    have honce := herased.once c
    rw [show (s.eraseAll toRemove).ran = [] from hstanding.silent] at honce
    exact absurd (List.count_pos_iff.mpr hmem) (by rw [← honce]; simp)
  · intro hharmless
    have hnone : (s.selectables.filter (· ∈ toRemove)).dedup.filter s.hasCallback = [] := by
      rw [List.filter_eq_nil_iff]
      intro c hc
      obtain ⟨hreg, hremove⟩ := (hgone c).mp hc
      simp [hharmless c hreg hremove]
    refine ⟨fun c => ?_, fun c hc => ?_, h.closed, fun t ht hmem => ?_⟩
    · change (s.ran.map Prod.fst).count c =
        (s.due ++ (s.selectables.filter (· ∈ toRemove)).dedup.filter s.hasCallback).count c
      rw [hnone, List.append_nil]
      exact h.once c
    · have hreg := h.dropped c hc
      refine List.mem_filter.mpr ⟨hreg, ?_⟩
      simp only [decide_not, Bool.not_eq_true', decide_eq_false_iff_not]
      intro hremove
      exact absurd hc (by rw [show (s.eraseAll toRemove).hasCallback c = s.hasCallback c from rfl,
        hharmless c hreg hremove]; simp)
    · rcases List.mem_append.mp hmem with hold | hnew
      · exact h.transports t ht hold
      · obtain ⟨hreg, hremove⟩ := (hgone t).mp hnew
        have hcovered := hstanding.covered t ht
        rw [hharmless t hreg hremove] at hcovered
        cases hcovered

end Steps

section Runs

variable {e : Event κ} {s s' : SelectThread κ}

theorem standing_step (h : Standing s) (hstep : Step e s s') : Standing s' := by
  rcases step_booked hstep with ⟨-, hb⟩ | ⟨conn, -, hb⟩ | ⟨conn, onClose, -, hb⟩ |
    ⟨transport, -, -, hb⟩ | ⟨toRemove, -, hb⟩ <;> rw [standing_congr hb]
  · exact h
  · exact ⟨h.silent, h.covered⟩
  · exact h.addOnClose conn onClose
  · exact h.connected transport
  · exact ⟨h.silent, h.covered⟩

theorem accounted_step (hstanding : Standing s) (h : Accounted s) (hstep : Step e s s') :
    Accounted s' ↔ Harmless e s := by
  rcases step_booked hstep with ⟨hend, hb⟩ | ⟨conn, hend, hb⟩ | ⟨conn, onClose, hend, hb⟩ |
    ⟨transport, hnew, hend, hb⟩ | ⟨toRemove, hend, hb⟩ <;> rw [accounted_congr hb]
  · exact iff_of_true h (harmless_of_none hend)
  · exact iff_of_true (h.addConnection conn) (harmless_of_none hend)
  · exact iff_of_true (h.addOnClose conn onClose) (harmless_of_none hend)
  · exact iff_of_true (h.connected hnew) (harmless_of_none hend)
  · rw [accounted_eraseAll_iff hstanding h]
    refine ⟨fun hharmless toRemove' hend' => ?_, fun hharmless => hharmless toRemove hend⟩
    rw [hend] at hend'
    cases hend'
    exact hharmless

theorem accounted_start : Accounted ({} : SelectThread κ) :=
  ⟨fun _ => rfl, fun _ h => absurd h (by simp [hasCallback]), by simp, by simp⟩

theorem standing_start : Standing ({} : SelectThread κ) :=
  ⟨rfl, by simp⟩

/-- Along a run everything is accounted for exactly if no pass removes a connection with a callback. -/
theorem always_accounted_iff {events : List (Event κ × SelectThread κ)}
    (h : Run Step ({} : SelectThread κ) events s') :
    Run.Always Accounted events s' ↔ ∀ e ∈ events, Harmless e.1 e.2 :=
  Run.always_iff_of_invariant (fun _ _ _ hs hstep => standing_step hs hstep)
    (fun _ _ _ hs ha hstep => accounted_step hs ha hstep) h standing_start accounted_start

/-- Something arrives, and is shut down when it is asked for its descriptors. -/
def visit (arrival : Event Nat) : List (Event Nat) :=
  [.start 0, arrival, .beginTurn, .select 3 false, .select (-1) true, .endSelecting]

/-- A connection without a callback comes and goes. -/
theorem always_accounted_plain : ∃ events s', Run Step ({} : SelectThread Nat) events s' ∧
    s'.removed = [1] ∧ (Run.Always Accounted events s' ↔ ∀ e ∈ events, Harmless e.1 e.2) := by
  have hreplay : replay next {} (visit (.addConnection 1)) = some (_, _) := rfl
  have hrun : Run Step ({} : SelectThread Nat) _ _ := run_of_replay hreplay
  exact ⟨_, _, hrun, rfl, always_accounted_iff hrun⟩

/-- A notification channel that is shut down stays with the context. -/
theorem not_always_accounted_channel : ∃ events s', Run Step ({} : SelectThread Nat) events s' ∧
    ¬Run.Always Accounted events s' := by
  have hreplay : replay next {} (visit (.notificationChannelConnected 1)) = some (_, _) := rfl
  have hrun : Run Step ({} : SelectThread Nat) _ _ := run_of_replay hreplay
  refine ⟨_, _, hrun, fun halways => ?_⟩
  exact halways.2.transports 1 (by decide) (by decide)

end Runs

end XbdmGdbBridge.Proofs.Closing
