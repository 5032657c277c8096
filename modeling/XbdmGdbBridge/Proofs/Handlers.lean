import XbdmGdbBridge.Proofs.Debugger
import XbdmGdbBridge.Xbox.Bridge

/-!
# How the handlers answer

A program that is `Quiet` sends nothing and cannot fault; one that `Answers` sends exactly one
reply and cannot fault. Every handler is one of the two, up to the few that can fault.
-/

namespace XbdmGdbBridge.Proofs

open Lib Program CText Gdb GDBBridge

variable {σ α β : Type}

def sentCount (b : GDBBridge σ) : Nat :=
  b.replies.length

structure Quiet (x : Handler σ α) : Prop where
  adds : Adds sentCount 0 x
  safe : Safe x

structure Answers (x : Handler σ α) : Prop where
  adds : Adds sentCount 1 x
  safe : Safe x

section Rules

theorem Quiet.pure (a : α) : Quiet (pure a : Handler σ α) :=
  ⟨Adds.pure a, Safe.pure a⟩

theorem Quiet.bind {x : Handler σ α} {f : α → Handler σ β} (hx : Quiet x)
    (hf : ∀ a, Quiet (f a)) : Quiet (x >>= f) :=
  ⟨hx.adds.after fun a => (hf a).adds, hx.safe.bind fun a => (hf a).safe⟩

theorem Quiet.ite {c : Prop} [Decidable c] {x y : Handler σ α} (hx : Quiet x) (hy : Quiet y) :
    Quiet (if c then x else y) := by
  split
  · exact hx
  · exact hy

theorem Quiet.answers {x : Handler σ α} {f : α → Handler σ β} (hx : Quiet x)
    (hf : ∀ a, Answers (f a)) : Answers (x >>= f) :=
  ⟨hx.adds.after fun a => (hf a).adds, hx.safe.bind fun a => (hf a).safe⟩

theorem Answers.then {x : Handler σ α} {f : α → Handler σ β} (hx : Answers x)
    (hf : ∀ a, Quiet (f a)) : Answers (x >>= f) :=
  ⟨hx.adds.bind fun a => (hf a).adds, hx.safe.bind fun a => (hf a).safe⟩

theorem Answers.ite {c : Prop} [Decidable c] {x y : Handler σ α} (hx : Answers x)
    (hy : Answers y) : Answers (if c then x else y) := by
  split
  · exact hx
  · exact hy

/-- A branch of a `switch` that is not taken. -/
theorem Answers.skip {c : Prop} [Decidable c] {x y : Handler σ α} (hc : ¬c) (hy : Answers y) :
    Answers (if c then x else y) := by
  rw [if_neg hc]
  exact hy

theorem quiet_get : Quiet (get : Handler σ _) := by
  refine ⟨?_, fun _ => rfl⟩
  intro b a b' h
  cases h
  rfl

theorem quiet_modify {f : GDBBridge σ → GDBBridge σ} (hf : ∀ b, (f b).replies = b.replies) :
    Quiet (modify f : Handler σ _) := by
  refine ⟨?_, fun _ => rfl⟩
  intro b a b' h
  cases h
  exact congrArg List.length (hf b)

theorem quiet_ask (x : XBDMDebugger.Op σ α) : Quiet (ask x) :=
  ⟨Adds.on (fun _ _ => rfl) _, (Safe.total x).on⟩

theorem quiet_known (f : XBDMDebugger σ → α) : Quiet (known f) :=
  quiet_get.bind fun _ => Quiet.pure _

theorem known_bind (f : XBDMDebugger σ → α) (g : α → Handler σ β) (b : GDBBridge σ) :
    (known f >>= g) b = g (f b.debugger) b := rfl

theorem ask_bind (x : XBDMDebugger.Op σ α) (g : α → Handler σ β) (b : GDBBridge σ) :
    (ask x >>= g) b = g (x b.debugger).1 { b with debugger := (x b.debugger).2 } := rfl

theorem faultOf_get_bind (g : GDBBridge σ → Handler σ β) (b : GDBBridge σ) :
    faultOf (get >>= g) b = faultOf (g b) b := rfl

theorem faultOf_known_bind (f : XBDMDebugger σ → α) (g : α → Handler σ β) (b : GDBBridge σ) :
    faultOf (known f >>= g) b = faultOf (g (f b.debugger)) b := rfl

theorem faultOf_ask_bind (x : XBDMDebugger.Op σ α) (g : α → Handler σ β) (b : GDBBridge σ) :
    faultOf (ask x >>= g) b =
      faultOf (g (x b.debugger).1) { b with debugger := (x b.debugger).2 } := rfl

theorem adds_attempt (x : XBDMDebugger.Handler σ α) : Adds sentCount 0 (attempt x) :=
  Adds.on (fun _ _ => rfl) x

theorem faultOf_attempt_bind {x : XBDMDebugger.Handler σ α} {g : α → Handler σ β}
    (hg : ∀ a, Safe (g a)) (b : GDBBridge σ) :
    faultOf (attempt x >>= g) b = faultOf x b.debugger := by
  rw [faultOf_bind_safe hg]
  exact faultOf_on _ _ _

theorem answers_send (data : Bytes) : Answers (send data : Handler σ _) := by
  refine ⟨?_, fun _ => rfl⟩
  intro b a b' h
  cases h
  simp [sentCount]

theorem answers_sendOK : Answers (sendOK : Handler σ _) := answers_send _

theorem answers_sendEmpty : Answers (sendEmpty : Handler σ _) := answers_send _

theorem answers_sendError (error : UInt8) : Answers (sendError error : Handler σ _) :=
  answers_send _

end Rules

section StopPackets

/-- The reason a stop packet for the thread would carry, if one can be sent. -/
def reportable (t : Thread) : Option StopReason :=
  if t.stopped then t.lastStopReason else none

/-- The bridge behind a stop packet for thread `i`. -/
def reported (b : GDBBridge σ) (threadId : UInt32) (reason : StopReason) : GDBBridge σ :=
  { b with
    waitingOnStopPacket := false
    gdb := b.gdb.send (.ofData (stopPacket threadId reason))
    replies := b.replies ++ [.ofData (stopPacket threadId reason)] }

theorem sendThreadStopPacket_some (i : ThreadRef) (b : GDBBridge σ) :
    sendThreadStopPacket (some i) b =
      match reportable (b.debugger.threadAt i) with
      | none => .ok (false, b)
      | some reason => .ok (true, reported b (b.debugger.threadAt i).threadId reason) := by
  simp only [sendThreadStopPacket, known_bind, reportable]
  cases (b.debugger.threadAt i).stopped with
  | false => rfl
  | true =>
    simp only [Bool.not_true, Bool.false_eq_true, if_false, if_true]
    cases (b.debugger.threadAt i).lastStopReason with
    | none => rfl
    | some reason => rfl

/-- One reply, whether the thread can be reported or not. -/
theorem answers_stopPacket_or (i : ThreadRef) {x : Handler σ Unit} (hx : Answers x) :
    Answers (do if !(← sendThreadStopPacket (some i)) then x) := by
  have hrun : ∀ b : GDBBridge σ, (do if !(← sendThreadStopPacket (some i)) then x : Handler σ _) b =
      match reportable (b.debugger.threadAt i) with
      | none => x b
      | some reason => .ok ((), reported b (b.debugger.threadAt i).threadId reason) := by
    intro b
    rw [bind_apply, sendThreadStopPacket_some]
    cases reportable (b.debugger.threadAt i) with
    | none => rfl
    | some reason => rfl
  constructor
  · intro b a b' h
    rw [hrun] at h
    cases hr : reportable (b.debugger.threadAt i) with
    | none =>
      rw [hr] at h
      exact hx.adds _ _ _ h
    | some reason =>
      rw [hr] at h
      cases h
      simp [sentCount, reported]
  · intro b
    rw [faultOf, hrun]
    cases reportable (b.debugger.threadAt i) with
    | none => exact hx.safe b
    | some reason => rfl

end StopPackets

section Handlers

theorem answers_bCommandGroup (data : Bytes) : Answers (handleBCommandGroup data : Handler σ _) := by
  unfold handleBCommandGroup
  split
  · exact Answers.ite answers_sendEmpty (Answers.ite answers_sendEmpty answers_sendEmpty)
  · exact answers_sendEmpty

theorem answers_currentThreadID : Answers (handleQueryCurrentThreadID : Handler σ _) := by
  unfold handleQueryCurrentThreadID
  apply (quiet_known _).answers
  intro id
  cases id with
  | none => exact answers_sendEmpty
  | some id => exact Answers.ite (answers_send _) answers_sendEmpty

theorem answers_featuresRead (data : Bytes) : Answers (handleFeaturesRead data : Handler σ _) := by
  unfold handleFeaturesRead
  split
  · exact answers_sendError _
  · dsimp only
    split
    · exact answers_sendError _
    · apply Answers.ite (answers_sendError _)
      split
      · exact answers_sendError _
      · split
        · exact answers_send _
        · exact answers_sendError _

theorem answers_threadInfoBuffer (sendAll : Bool) :
    Answers (sendThreadInfoBuffer sendAll : Handler σ _) := by
  unfold sendThreadInfoBuffer
  apply quiet_get.answers
  intro b
  split
  · exact answers_send _
  · refine Quiet.answers ?_ fun _ => answers_send _
    exact quiet_modify fun _ => rfl

theorem answers_selectThread (data : Bytes) :
    Answers (handleSelectThreadForCommandGroup data : Handler σ _) := by
  unfold handleSelectThreadForCommandGroup
  split
  · split
    · exact answers_sendError _
    · refine Quiet.answers ?_ fun _ => answers_sendOK
      exact quiet_modify fun _ => rfl
  · exact answers_sendError _

theorem answers_writeQuery (data : Bytes) : Answers (handleWriteQuery data : Handler σ _) := by
  unfold handleWriteQuery
  refine Answers.ite (Quiet.answers ?_ fun _ => answers_sendOK) answers_sendEmpty
  exact quiet_modify fun _ => rfl

variable [Xbdm σ]

theorem answers_queryHaltReason : Answers (handleQueryHaltReason : Handler σ _) := by
  unfold handleQueryHaltReason
  apply (quiet_ask _).answers
  intro found
  cases found with
  | none => exact answers_sendError _
  | some i =>
    apply (quiet_known _).answers
    intro t
    exact Answers.ite (answers_sendError _) (answers_stopPacket_or i answers_sendEmpty)

theorem answers_detach : Answers (handleDetach : Handler σ _) := by
  unfold handleDetach
  apply (quiet_ask _).answers
  intro _
  exact (quiet_ask _).answers fun _ => answers_sendOK

theorem answers_readGeneralRegisters : Answers (handleReadGeneralRegisters : Handler σ _) := by
  unfold handleReadGeneralRegisters
  apply quiet_get.answers
  intro b
  apply Answers.ite answers_sendEmpty
  apply (quiet_known _).answers
  intro thread
  cases thread with
  | none => exact answers_sendError _
  | some i =>
    apply (quiet_ask _).answers
    intro fetched
    apply Answers.ite (answers_sendError _)
    apply (quiet_ask _).answers
    intro _
    exact (quiet_known _).answers fun _ => answers_send _

theorem answers_writeGeneralRegister (i : ThreadRef) (index : Int32) (value : UInt64) :
    Answers (writeGeneralRegister i index value : Handler σ _) := by
  unfold writeGeneralRegister
  apply (quiet_ask _).answers
  intro fetched
  apply Answers.ite (answers_sendError _)
  apply (quiet_known _).answers
  intro t
  split
  · exact answers_sendError _
  · apply (quiet_ask _).answers
    intro _
    apply (quiet_ask _).answers
    intro pushed
    exact Answers.ite (answers_sendError _) answers_sendOK

theorem answers_writeFloatRegister (i : ThreadRef) (index : Int32) (value : UInt64) :
    Answers (writeFloatRegister i index value : Handler σ _) := by
  unfold writeFloatRegister
  apply (quiet_ask _).answers
  intro _
  apply (quiet_known _).answers
  intro t
  split
  · exact answers_sendError _
  · apply (quiet_ask _).answers
    intro _
    apply (quiet_ask _).answers
    intro pushed
    exact Answers.ite (answers_sendError _) answers_sendOK

theorem answers_writeRegister (data : Bytes) : Answers (handleWriteRegister data : Handler σ _) := by
  unfold handleWriteRegister
  split
  · exact answers_sendError _
  · split
    · apply quiet_get.answers
      intro b
      apply Answers.ite answers_sendEmpty
      apply (quiet_known _).answers
      intro thread
      cases thread with
      | none => exact answers_sendError _
      | some i =>
        exact Answers.ite (answers_writeGeneralRegister i _ _) (answers_writeFloatRegister i _ _)
    · exact answers_sendError _

theorem answers_threadInfoStart : Answers (handleThreadInfoStart : Handler σ _) := by
  unfold handleThreadInfoStart
  apply (quiet_ask _).answers
  intro fetched
  apply Answers.ite (answers_sendError _)
  apply (quiet_known _).answers
  intro ids
  refine Quiet.answers ?_ fun _ => answers_threadInfoBuffer _
  exact quiet_modify fun _ => rfl

end Handlers

end XbdmGdbBridge.Proofs
