import XbdmGdbBridge.Xbox.Armed

/-!
# Reads do not show breakpoints

A breakpoint on code is an opcode in the memory of the target. `GetMemory` takes the breakpoints of
its range out before it reads and puts them back. Whether a breakpoint is in the range is decided with
an end that has 32 bits.
-/

namespace XbdmGdbBridge.Proofs.Transparency

open Lib XBDMDebugger

/-- A target that grants every request and has an opcode wherever a breakpoint is installed. A read
changes nothing else of it, so the memory below is never written. -/
structure Patched where
  memory : UInt32 → UInt8
  installed : Finset UInt32

/-- `int3`. -/
def opcode : UInt8 := 0xCC

namespace Patched

def shown (t : Patched) (address : UInt32) : UInt8 :=
  if address ∈ t.installed then opcode else t.memory address

/-- The bytes of a range, each read by `f`. -/
def bytes (f : UInt32 → UInt8) (address length : UInt32) : Bytes :=
  (List.range length.toNat).map fun i => f (address + UInt32.ofNat i)

def data (t : Patched) : Request → Bytes
  | .getMemBinary address length => bytes t.shown address length
  | _ => []

instance : Xbdm Patched where
  answer r t := ({ status := r.success, data := t.data r }, { t with installed := r.arm t.installed })
  announces _ t := (true, t)

end Patched

open Patched

section Requests

variable {d : XBDMDebugger Patched}

theorem request_run (r : Request) (d : XBDMDebugger Patched) :
    request r d = (some { status := r.success, data := d.context.target.data r },
      { d with context := {
        target := { d.context.target with installed := r.arm d.context.target.installed }
        sent := d.context.sent ++ [r] } }) := by
  have h : request r d = (if r.isOK r.success then
      some { status := r.success, data := d.context.target.data r } else none, _) := rfl
  rw [h, Request.isOK_success, if_pos rfl]

/-- Breakpoints of the list are gone, and nothing else of the memory changed. -/
theorem suspend_target (l : List UInt32) (d : XBDMDebugger Patched) :
    (suspendBreakpoints l d).2.context.target =
      { d.context.target with installed := d.context.target.installed \ l.toFinset } := by
  induction l generalizing d with
  | nil =>
    rw [List.toFinset_nil, Finset.sdiff_empty]
    rfl
  | cons bp rest ih =>
    change (suspendBreakpoints rest (request (.breakAddress bp true) d).2).2.context.target = _
    rw [ih, request_run (.breakAddress bp true) d, List.toFinset_cons]
    dsimp only [Request.arm]
    rw [Finset.sdiff_insert, Finset.erase_sdiff_comm]

theorem restore_target (l : List UInt32) (d : XBDMDebugger Patched) :
    (restoreBreakpoints l d).2.context.target =
      { d.context.target with installed := d.context.target.installed ∪ l.toFinset } := by
  induction l generalizing d with
  | nil =>
    rw [List.toFinset_nil, Finset.union_empty]
    rfl
  | cons bp rest ih =>
    change (restoreBreakpoints rest (request (.breakAddress bp false) d).2).2.context.target = _
    rw [ih, request_run (.breakAddress bp false) d, List.toFinset_cons]
    dsimp only [Request.arm]
    rw [Finset.insert_union, Finset.union_insert]

end Requests

/-- The breakpoint is in the range, counted without overflow. -/
def Within (address length bp : UInt32) : Prop :=
  address.toNat ≤ bp.toNat ∧ bp.toNat < address.toNat + length.toNat

/-- What a read returns: the breakpoints outside its list are still in the memory. -/
theorem readMemory_data (address length : UInt32) (d : XBDMDebugger Patched) :
    (readMemory address length d).1 = some (bytes
      (shown { d.context.target with
        installed := d.context.target.installed \
          (d.getActiveBreakpointsInRange address length).toFinset }) address length) := by
  change Option.map Reply.data (request (.getMemBinary address length)
    (suspendBreakpoints (d.getActiveBreakpointsInRange address length) d).2).1 = _
  rw [request_run]
  dsimp only [Option.map_some, Patched.data]
  rw [suspend_target]

theorem readMemory_target (address length : UInt32) (d : XBDMDebugger Patched) :
    (readMemory address length d).2.context.target = { d.context.target with
      installed := d.context.target.installed ∪
        (d.getActiveBreakpointsInRange address length).toFinset } := by
  change (restoreBreakpoints (d.getActiveBreakpointsInRange address length)
    (request (.getMemBinary address length)
      (suspendBreakpoints (d.getActiveBreakpointsInRange address length) d).2).2).2.context.target = _
  rw [restore_target, request_run (.getMemBinary address length)]
  dsimp only [Request.arm]
  rw [suspend_target]
  dsimp only
  rw [Finset.sdiff_union_self_eq_union]

/-- `GetMemory` suspends exactly the breakpoints of the range, returns what the memory holds without
breakpoints, and leaves installed what was. -/
structure Transparent (d : XBDMDebugger Patched) (address length : UInt32) : Prop where
  suspends : ∀ bp, bp ∈ d.getActiveBreakpointsInRange address length ↔
    bp ∈ d.breakpoints ∧ Within address length bp
  unchecked : (readMemory address length d).1 =
    some (bytes d.context.target.memory address length)
  checked : d.accessible address length false = true →
    getMemory address length d =
      .ok (some (bytes d.context.target.memory address length), (readMemory address length d).2)
  installed : (readMemory address length d).2.context.target = d.context.target

section Ranges

variable {d : XBDMDebugger Patched} {address length : UInt32}

theorem mem_getActiveBreakpointsInRange {bp : UInt32} :
    bp ∈ d.getActiveBreakpointsInRange address length ↔
      bp ∈ d.breakpoints ∧ address ≤ bp ∧ bp < address + length := by
  simp only [getActiveBreakpointsInRange, List.mem_filter, Bool.and_eq_true, decide_eq_true_eq]

theorem toNat_end (h : address.toNat + length.toNat < 2 ^ 32) :
    (address + length).toNat = address.toNat + length.toNat := by
  rw [UInt32.toNat_add, Nat.mod_eq_of_lt h]

theorem end_eq_zero (h : address.toNat + length.toNat = 2 ^ 32) : address + length = 0 := by
  apply UInt32.toNat_inj.mp
  rw [UInt32.toNat_add, h, Nat.mod_self]
  rfl

theorem toNat_lt_of_ne_last (h : address ≠ 0xFFFFFFFF) : address.toNat < 2 ^ 32 - 1 := by
  have := address.toNat_lt
  have hval : address.toNat ≠ 2 ^ 32 - 1 := fun heq => h (UInt32.toNat_inj.mp heq)
  omega

theorem toNat_succ (h : address.toNat < 2 ^ 32 - 1) : (address + 1).toNat = address.toNat + 1 :=
  toNat_end (by rw [UInt32.toNat_one]; omega)

theorem bytes_congr {f g : UInt32 → UInt8} (hend : address.toNat + length.toNat ≤ 2 ^ 32)
    (h : ∀ a, Within address length a → f a = g a) :
    bytes f address length = bytes g address length := by
  refine List.map_congr_left fun i hi => h _ ?_
  have hi : i < length.toNat := List.mem_range.mp hi
  have hlt : address.toNat + i < 2 ^ 32 := by omega
  have hat : (address + UInt32.ofNat i).toNat = address.toNat + i := by
    rw [UInt32.toNat_add, UInt32.toNat_ofNat', Nat.add_mod_mod, Nat.mod_eq_of_lt hlt]
  unfold Within
  omega

/-- Exactly the breakpoints of the range are suspended, unless the end of the range is zero and some
breakpoint is in it. -/
theorem suspends_iff (hend : address.toNat + length.toNat ≤ 2 ^ 32) :
    (∀ bp, bp ∈ d.getActiveBreakpointsInRange address length ↔
      bp ∈ d.breakpoints ∧ Within address length bp) ↔
    address.toNat + length.toNat < 2 ^ 32 ∨ ∀ bp ∈ d.breakpoints, bp < address := by
  by_cases htop : address.toNat + length.toNat < 2 ^ 32
  · refine iff_of_true (fun bp => ?_) (.inl htop)
    rw [mem_getActiveBreakpointsInRange, UInt32.le_iff_toNat_le, UInt32.lt_iff_toNat_lt,
      toNat_end htop, Within]
  · have hsum : address.toNat + length.toNat = 2 ^ 32 := by omega
    have hnone (bp) : bp ∉ d.getActiveBreakpointsInRange address length := by
      rw [mem_getActiveBreakpointsInRange, end_eq_zero hsum]
      exact fun h => UInt32.not_lt_zero h.2.2
    have hwithin (bp : UInt32) : Within address length bp ↔ ¬bp < address := by
      have := bp.toNat_lt
      rw [UInt32.lt_iff_toNat_lt, Within]
      omega
    simp only [hnone, hwithin, htop, false_iff, false_or, not_and, not_not]

end Ranges

theorem validateMemoryAccess_run {σ : Type} {address length : UInt32} (hlen : 1 ≤ length.toNat)
    (isWrite : Bool) (d : XBDMDebugger σ) :
    validateMemoryAccess address length isWrite d = .ok (d.accessible address length isWrite, d) := by
  have hne : length ≠ 0 := by
    rintro rfl
    exact absurd hlen (by decide)
  rw [validateMemoryAccess, if_neg hne]
  rfl

theorem getMemory_of_accessible {d : XBDMDebugger Patched} {address length : UInt32}
    (hlen : 1 ≤ length.toNat) (hacc : d.accessible address length false = true) :
    getMemory address length d = .ok (readMemory address length d) := by
  have hvalid : validateMemoryAccess address length false d = .ok (true, d) := by
    rw [validateMemoryAccess_run hlen, hacc]
  exact Program.bind_of_ok hvalid _

/-- Every request succeeds, and the breakpoints of the debugger are those of the target. A read is
transparent exactly when it stays below the top of the address space or no breakpoint is at or above
its first byte. -/
theorem transparent_iff {d : XBDMDebugger Patched} {address length : UInt32}
    (hinst : d.context.target.installed = d.breakpoints.toFinset)
    (hlen : 1 ≤ length.toNat) (hend : address.toNat + length.toNat ≤ 2 ^ 32) :
    Transparent d address length ↔
      address.toNat + length.toNat < 2 ^ 32 ∨ ∀ bp ∈ d.breakpoints, bp < address := by
  refine ⟨fun h => (suspends_iff hend).mp h.suspends, fun h => ?_⟩
  have hsuspends := (suspends_iff (d := d) hend).mpr h
  have hread : (readMemory address length d).1 =
      some (bytes d.context.target.memory address length) := by
    rw [readMemory_data]
    refine congrArg some (bytes_congr hend fun a ha => ?_)
    -- an installed breakpoint of the range was suspended
    refine if_neg fun hmem => ?_
    rw [Finset.mem_sdiff, hinst, List.mem_toFinset, List.mem_toFinset] at hmem
    exact hmem.2 ((hsuspends a).mpr ⟨hmem.1, ha⟩)
  refine ⟨hsuspends, hread, fun hacc => ?_, ?_⟩
  · rw [getMemory_of_accessible hlen hacc, ← hread]
    rfl
  · rw [readMemory_target, hinst, Finset.union_eq_left.mpr, ← hinst]
    intro bp hbp
    exact List.mem_toFinset.mpr ((hsuspends bp).mp (List.mem_toFinset.mp hbp)).1

/-- A debugger of a target whose memory is zero, with these breakpoints. -/
def debugging (breakpoints : List UInt32) : XBDMDebugger Patched where
  context := { target := { memory := fun _ => 0, installed := breakpoints.toFinset } }
  breakpoints := breakpoints

theorem transparent_inside : Transparent (debugging [0x10000, 0x10002]) 0x10000 2 :=
  (transparent_iff rfl (by decide) (by decide)).mpr (.inl (by decide))

/-- The last byte of the address space has a breakpoint: the read returns its opcode. -/
theorem not_transparent_top :
    (debugging [0xFFFFFFFF]).context.target.installed = (debugging [0xFFFFFFFF]).breakpoints.toFinset ∧
      (readMemory 0xFFFFFFFF 1 (debugging [0xFFFFFFFF])).1 = some [opcode] ∧
      ¬Transparent (debugging [0xFFFFFFFF]) 0xFFFFFFFF 1 := by
  refine ⟨rfl, by decide, fun h => ?_⟩
  exact absurd ((h.suspends 0xFFFFFFFF).mpr ⟨by decide, by decide, by decide⟩) (by decide)

end XbdmGdbBridge.Proofs.Transparency
