import XbdmGdbBridge.Proofs.Breakpoints
import XbdmGdbBridge.Proofs.Handlers

/-!
# What GDB believes of its breakpoints

GDB inserts and removes breakpoints by packets, takes `OK` for success, and keeps its own list.
-/

namespace XbdmGdbBridge.Proofs

open Lib Program CText Gdb GDBBridge

/-- The letter that removes or inserts. -/
def breakLetter (clear : Bool) : UInt8 :=
  if clear then byte 'z' else byte 'Z'

/-- A packet that removes or inserts a software breakpoint or a watchpoint. -/
structure BreakPacket where
  clear : Bool
  rest : Bytes
  command : BreakpointCommand
  params : extractBreakpointCommandParams (breakLetter clear :: rest) = some command
  type : command.type = 0 ∨ command.type = 2 ∨ command.type = 3 ∨ command.type = 4

namespace BreakPacket

def packet (p : BreakPacket) : GDBPacket :=
  .ofData (breakLetter p.clear :: p.rest)

/-- The requests the packet causes. -/
def causes (p : BreakPacket) : List Request :=
  let address := p.command.address
  let size := p.command.kind.toUInt32
  if p.command.type = 0 then [.breakAddress address p.clear]
  else if p.command.type = 2 then [.breakOnWrite address size p.clear]
  else if p.command.type = 3 then [.breakOnRead address size p.clear]
  else [.breakOnRead address size p.clear, .breakOnWrite address size p.clear]

/-- What GDB makes of an `OK`. -/
def believe (p : BreakPacket) (believed : Finset UInt32) : Finset UInt32 :=
  if p.command.type = 0 then
    if p.clear then believed.erase p.command.address else insert p.command.address believed
  else believed

end BreakPacket

section Outcomes

variable {σ : Type} [Xbdm σ]

/-- Whether the requests succeed when they are sent one after the other. -/
def outcomes : List Request → σ → List Bool
  | [], _ => []
  | r :: rest, target =>
    r.isOK (Xbdm.answer r target).1.status :: outcomes rest (Xbdm.answer r target).2

def Succeed (requests : List Request) (target : σ) : Prop :=
  ∀ o ∈ outcomes requests target, o = true

end Outcomes

section Packets

variable {σ : Type} [Xbdm σ]

/-- The debugger's operation on a software breakpoint. -/
def software (clear : Bool) (address : UInt32) : XBDMDebugger.Op σ Bool :=
  if clear then XBDMDebugger.removeBreakpoint address else XBDMDebugger.addBreakpoint address

def BreakPacket.operation (p : BreakPacket) : XBDMDebugger.Op σ Unit :=
  let address := p.command.address
  let size := p.command.kind.toUInt32
  if p.command.type = 0 then do
    let _ ← software p.clear address
  else if p.command.type = 2 then do
    let _ ← XBDMDebugger.accepted (.breakOnWrite address size p.clear)
  else if p.command.type = 3 then do
    let _ ← XBDMDebugger.accepted (.breakOnRead address size p.clear)
  else do
    let _ ← XBDMDebugger.accepted (.breakOnRead address size p.clear)
    let _ ← XBDMDebugger.accepted (.breakOnWrite address size p.clear)

theorem handlePacket_break (p : BreakPacket) :
    (handlePacket p.packet : Handler σ _) =
      handleBreakpointType (software p.clear)
        (fun address size => XBDMDebugger.accepted (.breakOnRead address size p.clear))
        (fun address size => XBDMDebugger.accepted (.breakOnWrite address size p.clear))
        (breakLetter p.clear :: p.rest) := by
  obtain ⟨clear, rest, command, params, type⟩ := p
  cases clear with
  | true => rfl
  | false => rfl

theorem break_run (p : BreakPacket) (b : GDBBridge σ) :
    handlePacket p.packet b = sendOK { b with debugger := (p.operation b.debugger).2 } := by
  rw [handlePacket_break]
  unfold handleBreakpointType BreakPacket.operation
  rw [p.params]
  dsimp only
  obtain htype | htype | htype | htype := p.type
  · rw [if_pos htype, if_pos htype]
    rfl
  · simp only [htype]
    rfl
  · simp only [htype]
    rfl
  · simp only [htype]
    rfl

theorem software_breakpoints (clear : Bool) (address : UInt32) (d : XBDMDebugger σ)
    (h : (Request.breakAddress address clear).isOK
      (Xbdm.answer (.breakAddress address clear) d.context.target).1.status = true) :
    (software clear address d).2.breakpoints.toFinset =
      if clear then d.breakpoints.toFinset.erase address
      else insert address d.breakpoints.toFinset := by
  have haccepted : (XBDMDebugger.accepted (.breakAddress address clear) d).1 = true := by
    change (if (Request.breakAddress address clear).isOK
      (Xbdm.answer (.breakAddress address clear) d.context.target).1.status then some _
      else none).isSome = true
    rw [h]
    rfl
  cases clear with
  | true =>
    change (XBDMDebugger.removeBreakpoint address d).2.breakpoints.toFinset = _
    unfold XBDMDebugger.removeBreakpoint
    rw [run_bind, haccepted]
    exact toFinset_removed _ _
  | false =>
    change (XBDMDebugger.addBreakpoint address d).2.breakpoints.toFinset = _
    unfold XBDMDebugger.addBreakpoint
    rw [run_bind, haccepted]
    exact toFinset_added _ _

theorem software_sent (clear : Bool) (address : UInt32) (d : XBDMDebugger σ) :
    (software clear address d).2.context.sent =
      d.context.sent ++ [.breakAddress address clear] := by
  cases clear with
  | true =>
    change (XBDMDebugger.removeBreakpoint address d).2.context.sent = _
    unfold XBDMDebugger.removeBreakpoint
    rw [run_bind]
    cases (XBDMDebugger.accepted (.breakAddress address true) d).1 <;> rfl
  | false =>
    change (XBDMDebugger.addBreakpoint address d).2.context.sent = _
    unfold XBDMDebugger.addBreakpoint
    rw [run_bind]
    cases (XBDMDebugger.accepted (.breakAddress address false) d).1 <;> rfl

theorem operation_sent (p : BreakPacket) (d : XBDMDebugger σ) :
    (p.operation d).2.context.sent = d.context.sent ++ p.causes := by
  unfold BreakPacket.operation BreakPacket.causes
  dsimp only
  split
  · exact software_sent _ _ d
  · split
    · rfl
    · split
      · rfl
      · change _ ++ [_] ++ [_] = _
        rw [List.append_assoc]
        rfl

theorem operation_breakpoints (p : BreakPacket) (d : XBDMDebugger σ)
    (h : Succeed p.causes d.context.target) :
    (p.operation d).2.breakpoints.toFinset = p.believe d.breakpoints.toFinset := by
  unfold BreakPacket.causes at h
  unfold BreakPacket.operation BreakPacket.believe
  dsimp only at h ⊢
  split
  next htype =>
    rw [if_pos htype] at h
    exact software_breakpoints p.clear p.command.address d (h _ (by simp [outcomes]))
  next =>
    split
    · rfl
    · split <;> rfl

end Packets

section Runs

variable {σ : Type} [Xbdm σ]

/-- The bridge, and what GDB knows of it. -/
structure GdbSession (σ : Type) where
  bridge : GDBBridge σ
  believed : Finset UInt32
  /-- History: for each packet whether it was answered `OK` and whether its requests all
  succeeded, oldest first. -/
  answers : List (Bool × Bool) := []

def answeredOK (b b' : GDBBridge σ) : Bool :=
  b'.replies = b.replies ++ [.ofData (ascii "OK")]

/-- All requests that were sent between two states succeeded. -/
def allSucceeded (b b' : GDBBridge σ) : Bool :=
  let sent := b'.debugger.context.sent.drop b.debugger.context.sent.length
  (outcomes sent b.debugger.context.target).all id

def PacketStep (p : BreakPacket) (s s' : GdbSession σ) : Prop :=
  handlePacket p.packet s.bridge = .ok ((), s'.bridge) ∧
    s'.answers =
      s.answers ++ [(answeredOK s.bridge s'.bridge, allSucceeded s.bridge s'.bridge)] ∧
    s'.believed = if answeredOK s.bridge s'.bridge then p.believe s.believed else s.believed

/-- Every `OK` stood for success and everything else for failure, and GDB's list is the
debugger's. -/
def Truthful (s : GdbSession σ) : Prop :=
  (∀ a ∈ s.answers, a.1 = a.2) ∧ s.believed = s.bridge.debugger.breakpoints.toFinset

theorem packetStep_total (p : BreakPacket) (s : GdbSession σ) : ∃ s', PacketStep p s s' := by
  obtain ⟨b', hrun⟩ : ∃ b', handlePacket p.packet s.bridge = .ok ((), b') :=
    ⟨_, break_run p s.bridge⟩
  exact ⟨{
    bridge := b'
    believed := if answeredOK s.bridge b' then p.believe s.believed else s.believed
    answers := s.answers ++ [(answeredOK s.bridge b', allSucceeded s.bridge b')] }, hrun, rfl, rfl⟩

theorem truthful_step_iff (p : BreakPacket) (s s' : GdbSession σ) (hs : Truthful s)
    (h : PacketStep p s s') :
    Truthful s' ↔ Succeed p.causes s.bridge.debugger.context.target := by
  obtain ⟨hrun, hanswers, hbelieved⟩ := h
  have hbridge : s'.bridge.debugger = (p.operation s.bridge.debugger).2 ∧
      s'.bridge.replies = s.bridge.replies ++ [.ofData (ascii "OK")] := by
    rw [break_run] at hrun
    have hafter : s'.bridge = _ := total_ok hrun
    rw [hafter]
    exact ⟨rfl, rfl⟩
  have hok : answeredOK s.bridge s'.bridge = true := by
    simp [answeredOK, hbridge.2]
  have hall : allSucceeded s.bridge s'.bridge = true ↔
      Succeed p.causes s.bridge.debugger.context.target := by
    unfold allSucceeded Succeed
    rw [hbridge.1, operation_sent, List.drop_left]
    simp
  unfold Truthful
  rw [hanswers, hbelieved, hok, if_pos rfl, hbridge.1]
  constructor
  · rintro ⟨hsame, -⟩
    exact hall.mp (hsame _ (List.mem_append_right _ (List.mem_singleton_self _))).symm
  · intro hsucceed
    refine ⟨?_, ?_⟩
    · intro a ha
      rcases List.mem_append.mp ha with hold | hnew
      · exact hs.1 a hold
      · rw [List.mem_singleton.mp hnew]
        exact (hall.mpr hsucceed).symm
    · rw [operation_breakpoints p _ hsucceed, hs.2]

/-- GDB's answers and its list of breakpoints are right in every state exactly if every request
that its packets cause succeeds. -/
theorem run_truthful_iff_succeed {b : GDBBridge σ} {events : List (BreakPacket × GdbSession σ)}
    {s : GdbSession σ}
    (h : Run PacketStep ⟨b, b.debugger.breakpoints.toFinset, []⟩ events s) :
    Run.Always Truthful events s ↔
      ∀ e ∈ events, Succeed e.1.causes e.2.bridge.debugger.context.target := by
  apply h.always_iff truthful_step_iff
  exact ⟨by simp, rfl⟩

/-- `Z0,1000,1`. -/
def insertPacket : BreakPacket where
  clear := false
  rest := ascii "0,1000,1"
  command := ⟨0, 0x1000, 1⟩
  params := by decide +kernel
  type := .inl rfl

/-- A bridge whose target grants everything. -/
def grantedBridge : GDBBridge Willing :=
  { debugger := { context := { target := {} } } }

theorem run_insert_granted : ∃ s,
    Run PacketStep ⟨grantedBridge, ∅, []⟩ [(insertPacket, ⟨grantedBridge, ∅, []⟩)] s ∧
      Run.Always Truthful [(insertPacket, ⟨grantedBridge, ∅, []⟩)] s := by
  obtain ⟨s, hstep⟩ := packetStep_total insertPacket ⟨grantedBridge, ∅, []⟩
  have hrun : Run PacketStep ⟨grantedBridge, ∅, []⟩ [(insertPacket, ⟨grantedBridge, ∅, []⟩)] s :=
    .cons hstep (.nil _)
  refine ⟨s, hrun, (run_truthful_iff_succeed hrun).mpr ?_⟩
  rw [List.forall_mem_singleton]
  unfold Succeed
  decide +kernel

/-- The target is gone: the request fails, GDB is told `OK` and believes in a breakpoint that the
debugger does not have. -/
theorem run_insert_refused : ∃ s,
    Run PacketStep ⟨fresh, ∅, []⟩ [(insertPacket, ⟨fresh, ∅, []⟩)] s ∧
      s.answers = [(true, false)] ∧ s.believed = {0x1000} ∧ s.bridge.debugger.breakpoints = [] := by
  let b : GDBBridge Script := { fresh with debugger := (insertPacket.operation fresh.debugger).2 }
  let b' : GDBBridge Script := { b with
    gdb := b.gdb.send (.ofData (ascii "OK")), replies := b.replies ++ [.ofData (ascii "OK")] }
  have hstep : PacketStep insertPacket ⟨fresh, ∅, []⟩ ⟨b', {0x1000}, [(true, false)]⟩ :=
    ⟨break_run insertPacket fresh, by decide +kernel, by decide +kernel⟩
  exact ⟨_, .cons hstep (.nil _), rfl, rfl, by decide +kernel⟩

end Runs

end XbdmGdbBridge.Proofs
