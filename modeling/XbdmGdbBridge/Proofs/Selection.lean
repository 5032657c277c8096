import XbdmGdbBridge.Lib.Assoc
import XbdmGdbBridge.Proofs.HandlerFaults

/-!
# The thread a register command works on

`H` packets select threads, one for each operation letter; the three register commands look the
selection up under their own letter. The requests a command sends show which thread it worked on.
-/

namespace XbdmGdbBridge.Proofs

open Lib Program CText Gdb GDBBridge

variable {σ α β : Type}

/-- The letter and thread id of an `H` packet that is accepted; `text` is what follows the `H`. -/
def selection : Bytes → Option (UInt8 × Int32)
  | operation :: id :: rest => (hexInt32 (id :: rest)).map fun threadId => (operation, threadId)
  | _ => none

/-- The thread id most recently selected for a letter. -/
def lastSelected (operation : UInt8) (texts : List Bytes) : Option Int32 :=
  (texts.reverse.filterMap selection).lookup operation

def selectAll [Xbdm σ] : List Bytes → Handler σ Unit
  | [] => pure ()
  | text :: rest => do
    handlePacket (.ofData (byte 'H' :: text))
    selectAll rest

/-- A register command with the numbers it needs. -/
inductive RegisterCommand : UInt8 → Bytes → Prop where
  | readAll (rest : Bytes) : RegisterCommand (byte 'g') (byte 'g' :: rest)
  | read {rest : Bytes} {index : Int32} (number : hexInt32 rest = some index) :
      RegisterCommand (byte 'p') (byte 'p' :: rest)
  | write {rest index value : Bytes} {n : Int32} {v : UInt64}
      (parts : Cut (byte '=') rest index value) (number : hexInt32 rest = some n)
      (content : hexUInt64 value = some v) : RegisterCommand (byte 'P') (byte 'P' :: rest)

/-- The requests are for the thread a selection stands for: a positive id for that thread, 0 for any
one thread, a negative id for none. -/
def RightThread (d : XBDMDebugger σ) (selected : Int32) (requests : List Request) : Prop :=
  if selected = 0 then ∃ t, ∀ r ∈ requests, r.thread? = some t
  else if 0 < selected then
    (∀ r ∈ requests, r.thread? = some selected.toUInt32) ∧
      (selected.toUInt32 ∈ d.threadIds → requests ≠ [])
  else requests = []

/-- The requests between two states are for the selected thread; no selection is as good as 0. -/
def ActsOnSelected (selected : Option Int32) (b b' : GDBBridge σ) : Prop :=
  ∃ requests, b'.debugger.context.sent = b.debugger.context.sent ++ requests ∧
    RightThread b.debugger (selected.getD 0) requests

/-- The known thread a thread id stands for: 0 for any thread, a negative id for none. -/
def chosen (d : XBDMDebugger σ) (threadId : Int32) : Option UInt32 :=
  if threadId < 0 then none
  else if threadId = 0 then d.anyThreadID.filter (· ∈ d.threadIds)
  else if threadId.toUInt32 ∈ d.threadIds then some threadId.toUInt32 else none

section Table

variable [Xbdm σ]

/-- An `H` packet leaves the debugger alone; an accepted one is what its letter stands for. -/
theorem select_run (text : Bytes) (b : GDBBridge σ) :
    ∃ b', handlePacket (.ofData (byte 'H' :: text)) b = .ok ((), b') ∧
      b'.debugger = b.debugger ∧ ∀ op, b'.threadIdForCommand.lookup op =
        ((selection text).toList.lookup op).or (b.threadIdForCommand.lookup op) := by
  change ∃ b', handleSelectThreadForCommandGroup (byte 'H' :: text) b = .ok ((), b') ∧ _
  unfold handleSelectThreadForCommandGroup selection
  match text with
  | [] => exact ⟨_, rfl, rfl, fun _ => rfl⟩
  | [_] => exact ⟨_, rfl, rfl, fun _ => rfl⟩
  | operation :: id :: rest =>
    dsimp only
    cases hexInt32 (id :: rest) with
    | none => exact ⟨_, rfl, rfl, fun _ => rfl⟩
    | some threadId =>
      refine ⟨_, rfl, rfl, ?_⟩
      intro op
      change List.lookup op ((operation, threadId) :: _) = _
      rw [Option.map_some, Option.toList_some]
      by_cases hop : op = operation
      · subst hop
        simp
      · have hne : (op == operation) = false := by simpa using hop
        simp only [List.lookup, hne, lookup_filter_ne, hop, if_false, Option.none_or]

theorem selectAll_run (texts : List Bytes) (b : GDBBridge σ) :
    ∃ b', selectAll texts b = .ok ((), b') ∧ b'.debugger = b.debugger ∧
      ∀ op, b'.threadIdForCommand.lookup op =
        (lastSelected op texts).or (b.threadIdForCommand.lookup op) := by
  induction texts generalizing b with
  | nil => exact ⟨b, rfl, rfl, fun _ => rfl⟩
  | cons text rest ih =>
    obtain ⟨b₁, hrun₁, hsame₁, htable₁⟩ := select_run text b
    obtain ⟨b₂, hrun₂, hsame₂, htable₂⟩ := ih b₁
    refine ⟨b₂, ?_, hsame₂.trans hsame₁, ?_⟩
    · unfold selectAll
      rw [bind_apply, hrun₁]
      exact hrun₂
    · intro op
      have hone : [text].filterMap selection = (selection text).toList := by
        cases h : selection text with
        | none => rw [List.filterMap_cons_none h]; rfl
        | some entry => rw [List.filterMap_cons_some h]; rfl
      unfold lastSelected at htable₂ ⊢
      rw [htable₂, htable₁, ← Option.or_assoc, List.reverse_cons, List.filterMap_append,
        List.lookup_append, hone]

end Table

section Requests

/-- The requests between two states are for thread `t`. -/
def Talked (t : UInt32) (d d' : XBDMDebugger σ) : Prop :=
  ∃ requests, d'.context.sent = d.context.sent ++ requests ∧ ∀ r ∈ requests, r.thread? = some t

theorem Talked.refl (t : UInt32) (d : XBDMDebugger σ) : Talked t d d := ⟨[], by simp, by simp⟩

theorem Talked.trans {t : UInt32} {d d' d'' : XBDMDebugger σ} (h : Talked t d d')
    (h' : Talked t d' d'') : Talked t d d'' := by
  obtain ⟨requests, hsent, hall⟩ := h
  obtain ⟨more, hmore, hall'⟩ := h'
  refine ⟨requests ++ more, by rw [hmore, hsent, List.append_assoc], ?_⟩
  intro r hr
  rcases List.mem_append.mp hr with hr | hr
  · exact hall r hr
  · exact hall' r hr

/-- As long as position `i` holds thread `t`, it still does behind the run, and the requests sent
are for `t`. -/
def TalksTo (i : ThreadRef) (t : UInt32) (b b' : GDBBridge σ) : Prop :=
  (b.debugger.threadAt i).threadId = t →
    (b'.debugger.threadAt i).threadId = t ∧ Talked t b.debugger b'.debugger

variable {i : ThreadRef} {t : UInt32}

theorem TalksTo.refl (b : GDBBridge σ) : TalksTo i t b b := fun h => ⟨h, Talked.refl t _⟩

theorem TalksTo.trans {b b' b'' : GDBBridge σ} (h : TalksTo i t b b') (h' : TalksTo i t b' b'') :
    TalksTo i t b b'' := by
  intro hi
  obtain ⟨hi', htalked⟩ := h hi
  obtain ⟨hi'', htalked'⟩ := h' hi'
  exact ⟨hi'', htalked.trans htalked'⟩

theorem talksTo_bind {x : Handler σ α} {f : α → Handler σ β} (hx : Within (TalksTo i t) x)
    (hf : ∀ a, Within (TalksTo i t) (f a)) : Within (TalksTo i t) (x >>= f) :=
  hx.bind hf fun _ _ _ => TalksTo.trans

theorem talksTo_known (f : XBDMDebugger σ → α) : Within (TalksTo i t) (known f) := by
  intro b a b' h
  cases h
  exact TalksTo.refl b

theorem talksTo_send (data : Bytes) : Within (TalksTo i t) (send data : Handler σ _) := by
  intro b a b' h
  cases h
  exact fun hi => ⟨hi, Talked.refl t _⟩

/-- An operation that keeps the list of threads and only talks to the thread at position `i`. -/
theorem talksTo_ask {x : XBDMDebugger.Op σ α} (hids : Keeps XBDMDebugger.threadIds x)
    (hx : ∀ d, (d.threadAt i).threadId = t → Talked t d (x d).2) :
    Within (TalksTo i t) (ask x) := by
  intro b a b' h
  cases h
  intro hi
  exact ⟨(threadAt_id_congr (hids b.debugger) i).trans hi, hx b.debugger hi⟩

theorem talksTo_update {f : Thread → Thread} (hf : ∀ s, (f s).threadId = s.threadId) :
    Within (TalksTo i t) (ask (XBDMDebugger.update i f) : Handler σ _) :=
  talksTo_ask (keeps_ids (keeps_update i hf)) fun _ _ => ⟨[], (List.append_nil _).symm, by simp⟩

variable [Xbdm σ]

theorem talked_accepted {r : Request} (hr : r.thread? = some t) (d : XBDMDebugger σ) :
    Talked t d (XBDMDebugger.accepted r d).2 := by
  refine ⟨[r], rfl, ?_⟩
  intro q hq
  rw [List.mem_singleton.mp hq]
  exact hr

theorem fetch_sent (i : ThreadRef) (query : UInt32 → Request) (forget : Thread → Thread)
    (store : Reply → Thread → Thread) (d : XBDMDebugger σ) :
    (XBDMDebugger.fetch i query forget store d).2.context.sent =
      d.context.sent ++ [query (d.threadAt i).threadId] := by
  simp only [XBDMDebugger.fetch, run_bind, run_deref]
  cases (XBDMDebugger.request (query (d.threadAt i).threadId) d).1 with
  | none => rfl
  | some reply => rfl

theorem talked_fetch {query : UInt32 → Request} {forget : Thread → Thread}
    {store : Reply → Thread → Thread} (hq : ∀ id, (query id).thread? = some id)
    {d : XBDMDebugger σ} (hi : (d.threadAt i).threadId = t) :
    Talked t d (XBDMDebugger.fetch i query forget store d).2 := by
  refine ⟨_, fetch_sent i query forget store d, ?_⟩
  intro q hmem
  rw [List.mem_singleton.mp hmem, hq, hi]

theorem talksTo_fetchFloatContext :
    Within (TalksTo i t) (ask (XBDMDebugger.fetchFloatContextSync i) : Handler σ _) :=
  talksTo_ask (keeps_ids (aside_core.fetchFloatContextSync i)) fun _ hi =>
    talked_fetch (fun _ => rfl) hi

theorem talksTo_pushContext :
    Within (TalksTo i t) (ask (XBDMDebugger.pushContextSync i) : Handler σ _) := by
  apply talksTo_ask
  · apply (keeps_ids (keeps_deref i)).bind
    intro thread
    split
    · exact Keeps.pure _
    · exact keeps_ids (keeps_accepted _)
  · intro d hi
    simp only [XBDMDebugger.pushContextSync, run_bind, run_deref]
    cases (d.threadAt i).context with
    | none => exact Talked.refl t d
    | some context =>
      exact talked_accepted (r := .setContext (d.threadAt i).threadId context) (congrArg some hi) d

theorem talksTo_pushFloatContext :
    Within (TalksTo i t) (ask (XBDMDebugger.pushFloatContextSync i) : Handler σ _) := by
  apply talksTo_ask
  · apply (keeps_ids (keeps_deref i)).bind
    intro thread
    split
    · exact Keeps.pure _
    · exact keeps_ids (keeps_accepted _)
  · intro d hi
    simp only [XBDMDebugger.pushFloatContextSync, run_bind, run_deref]
    cases (d.threadAt i).floatContext with
    | none => exact Talked.refl t d
    | some context =>
      exact talked_accepted (r := .setFloatContext (d.threadAt i).threadId context)
        (congrArg some hi) d

theorem isBreak_of_thread {r : Request} {id : UInt32} (h : r.thread? = some id) :
    r.isBreak = false := by
  cases r <;> first | rfl | cases h

/-- At least one request between two states, and all of them for thread `t`. -/
def WorkedOn (t : UInt32) (b b' : GDBBridge σ) : Prop :=
  ∃ requests, requests ≠ [] ∧
    b'.debugger.context.sent = b.debugger.context.sent ++ requests ∧
    ∀ r ∈ requests, r.thread? = some t

/-- A program that starts by fetching something of thread `t` and then only talks to it. -/
theorem workedOn_fetch {query : UInt32 → Request} {forget : Thread → Thread}
    {store : Reply → Thread → Thread} (hq : ∀ id, (query id).thread? = some id)
    (hforget : ∀ s, (forget s).threadId = s.threadId)
    (hstore : ∀ r s, (store r s).threadId = s.threadId) {f : Bool → Handler σ Unit}
    (hf : ∀ a, Within (TalksTo i t) (f a)) {b b' : GDBBridge σ}
    (hi : (b.debugger.threadAt i).threadId = t)
    (h : (ask (XBDMDebugger.fetch i query forget store) >>= f) b = .ok ((), b')) :
    WorkedOn t b b' := by
  rw [ask_bind] at h
  have hquiet : ∀ id, (query id).isBreak = false := fun id => isBreak_of_thread (hq id)
  have hids := keeps_ids (aside_core.fetch i hquiet hforget hstore) b.debugger
  obtain ⟨-, requests, hsent, hall⟩ := hf _ _ _ _ h ((threadAt_id_congr hids i).trans hi)
  refine ⟨query t :: requests, by simp, ?_, ?_⟩
  · rw [hsent, fetch_sent, hi, List.append_assoc]
    rfl
  · intro r hr
    rcases List.mem_cons.mp hr with rfl | hr
    · exact hq t
    · exact hall r hr

variable {f : Bool → Handler σ Unit} {b b' : GDBBridge σ}

theorem workedOn_fetchContext (hf : ∀ a, Within (TalksTo i t) (f a))
    (hi : (b.debugger.threadAt i).threadId = t)
    (h : (ask (XBDMDebugger.fetchContextSync i) >>= f) b = .ok ((), b')) : WorkedOn t b b' := by
  unfold XBDMDebugger.fetchContextSync at h
  refine workedOn_fetch ?_ ?_ ?_ hf hi h
  · exact fun _ => rfl
  · exact fun _ => rfl
  · exact fun _ _ => rfl

theorem workedOn_fetchFloatContext (hf : ∀ a, Within (TalksTo i t) (f a))
    (hi : (b.debugger.threadAt i).threadId = t)
    (h : (ask (XBDMDebugger.fetchFloatContextSync i) >>= f) b = .ok ((), b')) :
    WorkedOn t b b' := by
  unfold XBDMDebugger.fetchFloatContextSync at h
  refine workedOn_fetch ?_ ?_ ?_ hf hi h
  · exact fun _ => rfl
  · exact fun _ => rfl
  · exact fun _ _ => rfl

end Requests

section Commands

/-- What the register commands have in common. -/
def onSelected (threadId : Int32) (body : ThreadRef → Handler σ Unit) : Handler σ Unit := do
  if threadId < 0 then sendEmpty
  else
    match ← known (selectedThread · threadId) with
    | none => sendError EBADMSG
    | some i => body i

theorem getThread_map_id (d : XBDMDebugger σ) (id : UInt32) :
    (d.getThread id).map (fun i => (d.threadAt i).threadId) =
      if id ∈ d.threadIds then some id else none := by
  cases h : d.getThread id with
  | none =>
    have hm : id ∉ d.threadIds := by
      rw [← getThread_isSome, h]
      simp
    rw [if_neg hm]
    rfl
  | some i =>
    have hm : id ∈ d.threadIds := by
      rw [← getThread_isSome, h]
      rfl
    rw [if_pos hm, Option.map_some, getThread_id h]

theorem selectedThread_chosen (d : XBDMDebugger σ) {threadId : Int32} (h : ¬threadId < 0) :
    (selectedThread d threadId).map (fun i => (d.threadAt i).threadId) = chosen d threadId := by
  unfold selectedThread chosen
  rw [if_neg h]
  by_cases hz : threadId = 0
  · rw [if_pos hz, if_pos hz, getThread_map_id]
    cases hany : d.anyThreadID with
    | none =>
      have hnil : d.threadIds = [] := by
        unfold XBDMDebugger.anyThreadID at hany
        split at hany
        · simp [XBDMDebugger.threadIds, *]
        · cases hany
      simp [hnil]
    | some id =>
      rw [Option.getD_some, Option.filter_some]
      simp
  · rw [if_neg hz, if_neg hz, getThread_map_id]

theorem onSelected_requests {threadId : Int32} {body : ThreadRef → Handler σ Unit}
    {b b' : GDBBridge σ}
    (hbody : ∀ i t, (b.debugger.threadAt i).threadId = t → body i b = .ok ((), b') →
      WorkedOn t b b')
    (h : onSelected threadId body b = .ok ((), b')) :
    (chosen b.debugger threadId = none ∧
      b'.debugger.context.sent = b.debugger.context.sent) ∨
    ∃ t, chosen b.debugger threadId = some t ∧ WorkedOn t b b' := by
  unfold onSelected at h
  by_cases hneg : threadId < 0
  · rw [if_pos hneg] at h
    cases h
    exact .inl ⟨if_pos hneg, rfl⟩
  rw [if_neg hneg, known_bind] at h
  rw [← selectedThread_chosen b.debugger hneg]
  cases hthread : selectedThread b.debugger threadId with
  | none =>
    rw [hthread] at h
    cases h
    exact .inl ⟨rfl, rfl⟩
  | some i =>
    rw [hthread] at h
    exact .inr ⟨_, rfl, hbody i _ rfl h⟩

variable {i : ThreadRef} {t : UInt32}

theorem talksTo_answerRegister (index : Int32) (thread : Thread) :
    Within (TalksTo i t) (answerRegister index thread : Handler σ _) := by
  unfold answerRegister
  split
  · exact Within.fault _
  · exact talksTo_send _
  · exact talksTo_send _

variable [Xbdm σ] {b b' : GDBBridge σ}

theorem workedOn_readAll (hi : (b.debugger.threadAt i).threadId = t)
    (h : (do
      if !(← ask (XBDMDebugger.fetchContextSync i)) then sendError EBUSY
      else
        let _ ← ask (XBDMDebugger.fetchFloatContextSync i)
        let thread ← known (·.threadAt i)
        send (Registers.serializeRegisters thread.context thread.floatContext)
      : Handler σ Unit) b = .ok ((), b')) : WorkedOn t b b' := by
  refine workedOn_fetchContext (fun fetched => ?_) hi h
  refine Within.ite (talksTo_send _) (talksTo_bind talksTo_fetchFloatContext fun _ => ?_)
  exact talksTo_bind (talksTo_known _) fun _ => talksTo_send _

theorem workedOn_read {index : Int32} (hi : (b.debugger.threadAt i).threadId = t)
    (h : (do
      if index < 19 then
        if !(← ask (XBDMDebugger.fetchContextSync i)) then sendError EBUSY
        else answerRegister index (← known (·.threadAt i))
      else
        let _ ← ask (XBDMDebugger.fetchFloatContextSync i)
        answerRegister index (← known (·.threadAt i))
      : Handler σ Unit) b = .ok ((), b')) : WorkedOn t b b' := by
  by_cases hlow : index < 19
  · rw [if_pos hlow] at h
    refine workedOn_fetchContext (fun fetched => ?_) hi h
    refine Within.ite (talksTo_send _) ?_
    exact talksTo_bind (talksTo_known _) fun _ => talksTo_answerRegister _ _
  · rw [if_neg hlow] at h
    refine workedOn_fetchFloatContext (fun fetched => ?_) hi h
    exact talksTo_bind (talksTo_known _) fun _ => talksTo_answerRegister _ _

theorem workedOn_writeGeneral {index : Int32} {value : UInt64}
    (hi : (b.debugger.threadAt i).threadId = t)
    (h : writeGeneralRegister i index value b = .ok ((), b')) : WorkedOn t b b' := by
  unfold writeGeneralRegister at h
  refine workedOn_fetchContext (fun fetched => ?_) hi h
  refine Within.ite (talksTo_send _) (talksTo_bind (talksTo_known _) fun thread => ?_)
  split
  · exact talksTo_send _
  · refine talksTo_bind (talksTo_update fun _ => rfl) fun _ => ?_
    refine talksTo_bind talksTo_pushContext fun pushed => ?_
    exact Within.ite (talksTo_send _) (talksTo_send _)

theorem workedOn_writeFloat {index : Int32} {value : UInt64}
    (hi : (b.debugger.threadAt i).threadId = t)
    (h : writeFloatRegister i index value b = .ok ((), b')) : WorkedOn t b b' := by
  unfold writeFloatRegister at h
  refine workedOn_fetchFloatContext (fun fetched => ?_) hi h
  refine talksTo_bind (talksTo_known _) fun thread => ?_
  split
  · exact talksTo_send _
  · refine talksTo_bind (talksTo_update fun _ => rfl) fun _ => ?_
    refine talksTo_bind talksTo_pushFloatContext fun pushed => ?_
    exact Within.ite (talksTo_send _) (talksTo_send _)

/-- A register command works on the thread its own letter selects, or on none. -/
theorem registerCommand_requests {command : UInt8} {data : Bytes}
    (hform : RegisterCommand command data)
    (h : handlePacket (.ofData data) b = .ok ((), b')) :
    (chosen b.debugger (b.getThreadIDForCommand command) = none ∧
      b'.debugger.context.sent = b.debugger.context.sent) ∨
    ∃ t, chosen b.debugger (b.getThreadIDForCommand command) = some t ∧ WorkedOn t b b' := by
  cases hform with
  | readAll rest => exact onSelected_requests (fun i t hi hrun => workedOn_readAll hi hrun) h
  | @read rest index number =>
    change handleReadRegister (byte 'p' :: rest) b = _ at h
    unfold handleReadRegister at h
    rw [show (byte 'p' :: rest).drop 1 = rest from rfl, number] at h
    exact onSelected_requests (fun i t hi hrun => workedOn_read hi hrun) h
  | @write rest index value n v parts number content =>
    have hcut := parts.cons (d := byte 'P') (by decide)
    change handleWriteRegister (byte 'P' :: rest) b = _ at h
    unfold handleWriteRegister at h
    rw [hcut.memchr] at h
    dsimp only at h
    rw [hcut.drop, show (byte 'P' :: rest).drop 1 = rest from rfl, number, content] at h
    refine onSelected_requests (fun i t hi hrun => ?_) h
    by_cases hlow : n < 19
    · rw [if_pos hlow] at hrun
      exact workedOn_writeGeneral hi hrun
    · rw [if_neg hlow] at hrun
      exact workedOn_writeFloat hi hrun

end Commands

section Selected

theorem chosen_mem {d : XBDMDebugger σ} {threadId : Int32} {t : UInt32}
    (h : chosen d threadId = some t) : t ∈ d.threadIds := by
  unfold chosen at h
  split at h
  · cases h
  · split at h
    · have hfilter := Option.filter_eq_some_iff.mp h
      simpa using hfilter.2
    · split at h
      · rename_i hmem
        cases h
        exact hmem
      · cases h

theorem chosen_positive {d : XBDMDebugger σ} {threadId : Int32} (h : 0 < threadId) :
    chosen d threadId = if threadId.toUInt32 ∈ d.threadIds then some threadId.toUInt32 else none := by
  have hneg : ¬threadId < 0 := Int32.not_lt.mpr (Int32.le_of_lt h)
  have hz : threadId ≠ 0 := by
    rintro rfl
    exact absurd h (by decide)
  unfold chosen
  rw [if_neg hneg, if_neg hz]

theorem chosen_negative {d : XBDMDebugger σ} {threadId : Int32} (h : threadId < 0) :
    chosen d threadId = none := if_pos h

theorem negative_of_not_positive {threadId : Int32} (hz : threadId ≠ 0) (hp : ¬0 < threadId) :
    threadId < 0 := by
  rcases Int32.lt_or_eq_of_le (Int32.not_lt.mp hp) with h | h
  · exact h
  · exact absurd h hz

theorem rightThread_nil {d : XBDMDebugger σ} {selected : Int32} :
    RightThread d selected [] ↔ selected = 0 ∨ none = chosen d selected := by
  unfold RightThread
  by_cases hz : selected = 0
  · rw [if_pos hz]
    exact ⟨fun _ => .inl hz, fun _ => ⟨0, by simp⟩⟩
  rw [if_neg hz, or_iff_right hz]
  by_cases hp : 0 < selected
  · rw [if_pos hp, chosen_positive hp]
    by_cases hm : selected.toUInt32 ∈ d.threadIds <;> simp [hm]
  · rw [if_neg hp, chosen_negative (negative_of_not_positive hz hp)]
    simp

theorem rightThread_for {d : XBDMDebugger σ} {selected : Int32} {t : UInt32}
    {requests : List Request} (hknown : t ∈ d.threadIds) (hne : requests ≠ [])
    (hall : ∀ r ∈ requests, r.thread? = some t) :
    RightThread d selected requests ↔ selected = 0 ∨ some t = chosen d selected := by
  unfold RightThread
  by_cases hz : selected = 0
  · rw [if_pos hz]
    exact ⟨fun _ => .inl hz, fun _ => ⟨t, hall⟩⟩
  rw [if_neg hz, or_iff_right hz]
  by_cases hp : 0 < selected
  · rw [if_pos hp, chosen_positive hp]
    constructor
    · rintro ⟨hsel, -⟩
      obtain ⟨r, hr⟩ := List.exists_mem_of_ne_nil _ hne
      obtain rfl : t = selected.toUInt32 := Option.some.inj ((hall r hr).symm.trans (hsel r hr))
      rw [if_pos hknown]
    · intro h
      split at h
      · obtain rfl := Option.some.inj h
        exact ⟨hall, fun _ => hne⟩
      · cases h
  · rw [if_neg hp, chosen_negative (negative_of_not_positive hz hp)]
    simp [hne]

theorem actsOnSelected_requests {selected : Option Int32} {b b' : GDBBridge σ}
    {requests : List Request}
    (hsent : b'.debugger.context.sent = b.debugger.context.sent ++ requests) :
    ActsOnSelected selected b b' ↔ RightThread b.debugger (selected.getD 0) requests := by
  constructor
  · rintro ⟨requests', hsent', hright⟩
    obtain rfl := List.append_cancel_left (hsent.symm.trans hsent')
    exact hright
  · intro hright
    exact ⟨requests, hsent, hright⟩

variable [Xbdm σ]

/-- After any `H` packets of a session, a register command that returns has worked on the thread
selected for `g` just when the letter of the command selects the same thread. -/
theorem actsOnSelected_iff {b₀ b b' : GDBBridge σ} {texts : List Bytes} {command : UInt8}
    {data : Bytes} (hstart : b₀.threadIdForCommand = [])
    (hselect : selectAll texts b₀ = .ok ((), b)) (hform : RegisterCommand command data)
    (hrun : handlePacket (.ofData data) b = .ok ((), b')) :
    ActsOnSelected (lastSelected (byte 'g') texts) b b' ↔
      (lastSelected (byte 'g') texts).getD 0 = 0 ∨
        chosen b₀.debugger ((lastSelected command texts).getD 0) =
          chosen b₀.debugger ((lastSelected (byte 'g') texts).getD 0) := by
  obtain ⟨c, hselect', hsame, htable⟩ := selectAll_run texts b₀
  obtain rfl : c = b := by
    rw [hselect] at hselect'
    cases hselect'
    rfl
  have hid : c.getThreadIDForCommand command = (lastSelected command texts).getD 0 := by
    rw [getThreadIDForCommand, htable, hstart]
    simp
  rw [← hsame, ← hid]
  rcases registerCommand_requests hform hrun with
    ⟨hnone, hsent⟩ | ⟨t, hsome, requests, hne, hsent, hall⟩
  · rw [hnone, actsOnSelected_requests (hsent.trans (List.append_nil _).symm)]
    exact rightThread_nil
  · rw [hsome, actsOnSelected_requests hsent]
    exact rightThread_for (chosen_mem hsome) hne hall

/-- A session with threads 1 and 2, whose target answers one request for registers. -/
def twoThreads : GDBBridge Script :=
  GDBBridge.fresh [{ status := .okMultilineResponse }]
    [⟨1, none, none, none, none, false, none⟩, ⟨2, none, none, none, none, false, none⟩]

theorem readFirst : RegisterCommand (byte 'p') (ascii "p0") :=
  .read (show hexInt32 (ascii "0") = some 0 by decide)

theorem actsOnSelected_both_letters :
    ∃ b b', selectAll [ascii "g2", ascii "p2"] twoThreads = .ok ((), b) ∧
      handlePacket (.ofData (ascii "p0")) b = .ok ((), b') ∧
      ActsOnSelected (lastSelected (byte 'g') [ascii "g2", ascii "p2"]) b b' :=
  ⟨_, _, rfl, rfl, (actsOnSelected_iff rfl rfl readFirst rfl).mpr (.inr (by decide))⟩

/-- After `Hg2` alone, `p0` reads a register of thread 1. -/
theorem not_actsOnSelected_read :
    ∃ b b', selectAll [ascii "g2"] twoThreads = .ok ((), b) ∧
      handlePacket (.ofData (ascii "p0")) b = .ok ((), b') ∧
      ¬ActsOnSelected (lastSelected (byte 'g') [ascii "g2"]) b b' := by
  refine ⟨_, _, rfl, rfl, ?_⟩
  intro hacts
  have hright : RightThread twoThreads.debugger 2 [Request.getContext 1] :=
    (actsOnSelected_requests rfl).mp hacts
  have hsame := (rightThread_for (t := 1) (by decide) (by decide) (by decide)).mp hright
  exact absurd hsame (by decide)

end Selected

end XbdmGdbBridge.Proofs
