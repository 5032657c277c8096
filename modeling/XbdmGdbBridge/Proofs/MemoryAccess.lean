import XbdmGdbBridge.Proofs.Transparency

/-!
# Which accesses the memory map allows

`ValidateMemoryAccess` walks over the regions once and moves its start to the end of each region that
holds it. The ends have 32 bits: a region that reaches the top of memory ends at zero, and the byte
after the last address is zero too.
-/

namespace XbdmGdbBridge.Proofs.Access

open Lib XBDMDebugger Transparency

/-- The address is one of the bytes of the region. -/
def Covers (r : MemoryRegion) (a : UInt32) : Prop :=
  r.start.toNat ≤ a.toNat ∧ a.toNat < r.start.toNat + r.size.toNat

/-- The region reaches the top of memory, so that its stored end is zero. -/
def AtTop (r : MemoryRegion) : Prop :=
  r.start.toNat + r.size.toNat = 2 ^ 32

instance (r : MemoryRegion) (a : UInt32) : Decidable (Covers r a) :=
  inferInstanceAs (Decidable (_ ∧ _))

instance (r : MemoryRegion) : Decidable (AtTop r) :=
  inferInstanceAs (Decidable (_ = _))

instance (address length a : UInt32) : Decidable (Within address length a) :=
  inferInstanceAs (Decidable (_ ∧ _))

/-- A memory map: sorted by start, no byte in two regions, all within 32 bits. -/
structure MemoryMap (l : List MemoryRegion) : Prop where
  sorted : l.Pairwise fun r s => r.start ≤ s.start
  disjoint : l.Pairwise fun r s => ∀ a, Covers r a → ¬Covers s a
  bounded : ∀ r ∈ l, r.start.toNat + r.size.toNat ≤ 2 ^ 32

/-- Every byte of the range lies in some region. -/
def Mapped (l : List MemoryRegion) (address length : UInt32) : Prop :=
  ∀ a, Within address length a → ∃ r ∈ l, Covers r a

/-- A byte of the range lies in the region. -/
def Overlaps (address length : UInt32) (r : MemoryRegion) : Prop :=
  ∃ a, Within address length a ∧ Covers r a

section Regions

variable {r s : MemoryRegion} {l : List MemoryRegion} {a : UInt32}

theorem MemoryMap.tail (h : MemoryMap (r :: l)) : MemoryMap l :=
  ⟨(List.pairwise_cons.mp h.sorted).2, (List.pairwise_cons.mp h.disjoint).2,
    fun s hs => h.bounded s (List.mem_cons_of_mem _ hs)⟩

theorem MemoryMap.bounded_head (h : MemoryMap (r :: l)) : r.start.toNat + r.size.toNat ≤ 2 ^ 32 :=
  h.bounded r List.mem_cons_self

theorem MemoryMap.unique (h : MemoryMap l) (hr : r ∈ l) (hs : s ∈ l) (har : Covers r a)
    (has : Covers s a) : r = s := by
  by_contra hne
  have : Std.Symm fun r s : MemoryRegion => ∀ a, Covers r a → ¬Covers s a :=
    ⟨fun r s hrs a hs hr => hrs a hr hs⟩
  exact h.disjoint.forall hr hs hne a har has

theorem toNat_end_of_not_atTop (hb : r.start.toNat + r.size.toNat ≤ 2 ^ 32) (hr : ¬AtTop r) :
    r.end.toNat = r.start.toNat + r.size.toNat := by
  refine toNat_end ?_
  unfold AtTop at hr
  omega

theorem end_of_atTop (hr : AtTop r) : r.end = 0 :=
  end_eq_zero hr

/-- Below the last address `Contains` is exact, but a region at the top contains nothing. -/
theorem contains_iff (hb : r.start.toNat + r.size.toNat ≤ 2 ^ 32) (ha : a.toNat < 2 ^ 32 - 1) :
    r.contains a = true ↔ Covers r a ∧ ¬AtTop r := by
  rw [MemoryRegion.contains, Bool.and_eq_true, decide_eq_true_eq, decide_eq_true_eq,
    UInt32.le_iff_toNat_le, UInt32.le_iff_toNat_le, toNat_succ ha]
  by_cases hr : AtTop r
  · rw [end_of_atTop hr]
    exact iff_of_false (fun h => absurd h.2 (by rw [UInt32.toNat_zero]; omega)) fun h => h.2 hr
  · rw [toNat_end_of_not_atTop hb hr, Covers]
    simp only [hr, not_false_eq_true, and_true]
    omega

/-- The byte after the last address is zero: every region contains the last address. -/
theorem contains_last : r.contains 0xFFFFFFFF = true := by
  rw [MemoryRegion.contains, Bool.and_eq_true, decide_eq_true_eq, decide_eq_true_eq]
  have := r.start.toNat_lt
  refine ⟨?_, ?_⟩
  · rw [UInt32.le_iff_toNat_le]
    change r.start.toNat ≤ 2 ^ 32 - 1
    omega
  · change (0 : UInt32) ≤ r.end
    exact UInt32.zero_le

end Regions

section Walk

variable {l : List MemoryRegion} {start last : UInt32} {isWrite : Bool}

/-- The walk found every byte from `start` to `last` in a region below the top, and the region of the
last byte allows the access. -/
structure Reaches (l : List MemoryRegion) (start last : UInt32) (isWrite : Bool) : Prop where
  found : ∀ a : UInt32, start.toNat ≤ a.toNat → a.toNat ≤ last.toNat →
    ∃ r ∈ l, Covers r a ∧ ¬AtTop r
  allowed : ∃ r ∈ l, Covers r last ∧ (isWrite = true → r.isWritable = true)

/-- A region that does not hold the first byte holds none of the later ones: the region of the first
byte comes after it. -/
theorem Reaches.of_cons {r : MemoryRegion} (hmap : MemoryMap (r :: l))
    (hle : start.toNat ≤ last.toNat) (hr : ¬(Covers r start ∧ ¬AtTop r))
    (h : Reaches (r :: l) start last isWrite) : Reaches l start last isWrite := by
  have hafter (a : UInt32) (ha : start.toNat ≤ a.toNat) (htop : ¬AtTop r) : ¬Covers r a := by
    intro hra
    obtain ⟨s, hs, hcover, hstop⟩ := h.found start le_rfl hle
    rcases List.mem_cons.mp hs with rfl | hs
    · exact hr ⟨hcover, hstop⟩
    · have hsorted := UInt32.le_iff_toNat_le.mp ((List.pairwise_cons.mp hmap.sorted).1 s hs)
      have hout : ¬Covers r start := fun hc => hr ⟨hc, htop⟩
      unfold Covers at hra hcover hout
      omega
  have hfound (a : UInt32) (ha : start.toNat ≤ a.toNat) (hal : a.toNat ≤ last.toNat) :
      ∃ s ∈ l, Covers s a ∧ ¬AtTop s := by
    obtain ⟨s, hs, hcover, hstop⟩ := h.found a ha hal
    rcases List.mem_cons.mp hs with rfl | hs
    · exact absurd hcover (hafter a ha hstop)
    · exact ⟨s, hs, hcover, hstop⟩
  refine ⟨hfound, ?_⟩
  obtain ⟨s, hs, hcover, hallowed⟩ := h.allowed
  -- the region of the last byte is the one that was found for it
  obtain ⟨s', hs', hcover', hstop⟩ := hfound last hle le_rfl
  obtain rfl := hmap.unique hs (List.mem_cons_of_mem _ hs') hcover hcover'
  exact ⟨s, hs', hcover', hallowed⟩

theorem Reaches.cons {r : MemoryRegion} (h : Reaches l start last isWrite) :
    Reaches (r :: l) start last isWrite := by
  refine ⟨fun a ha hal => ?_, ?_⟩
  · obtain ⟨s, hs, hcover⟩ := h.found a ha hal
    exact ⟨s, List.mem_cons_of_mem _ hs, hcover⟩
  · obtain ⟨s, hs, hallowed⟩ := h.allowed
    exact ⟨s, List.mem_cons_of_mem _ hs, hallowed⟩

/-- A region that holds the first byte and not the last: the walk goes on behind its end. -/
theorem reaches_cons_iff {r : MemoryRegion} {e : UInt32}
    (hfirst : Covers r start) (htop : ¬AtTop r) (hlast : ¬Covers r last)
    (he : e.toNat = r.start.toNat + r.size.toNat) :
    Reaches (r :: l) start last isWrite ↔ Reaches l e last isWrite := by
  have hbehind {a : UInt32} (ha : e.toNat ≤ a.toNat) : ¬Covers r a := by
    unfold Covers
    omega
  constructor
  · intro h
    refine ⟨fun a ha hal => ?_, ?_⟩
    · obtain ⟨s, hs, hcover, hstop⟩ := h.found a (by unfold Covers at hfirst; omega) hal
      rcases List.mem_cons.mp hs with rfl | hs
      · exact absurd hcover (hbehind ha)
      · exact ⟨s, hs, hcover, hstop⟩
    · obtain ⟨s, hs, hcover, hallowed⟩ := h.allowed
      rcases List.mem_cons.mp hs with rfl | hs
      · exact absurd hcover hlast
      · exact ⟨s, hs, hcover, hallowed⟩
  · intro h
    refine ⟨fun a ha hal => ?_, h.cons.allowed⟩
    by_cases hae : e.toNat ≤ a.toNat
    · exact h.cons.found a hae hal
    · refine ⟨r, List.mem_cons_self, ?_, htop⟩
      unfold Covers at hfirst ⊢
      omega

theorem reaches_of_covers {r : MemoryRegion} (hmap : MemoryMap (r :: l)) (hfirst : Covers r start)
    (hlast : Covers r last) (htop : ¬AtTop r) :
    Reaches (r :: l) start last isWrite ↔ (isWrite = true → r.isWritable = true) := by
  constructor
  · intro h
    obtain ⟨s, hs, hcover, hallowed⟩ := h.allowed
    obtain rfl := hmap.unique hs List.mem_cons_self hcover hlast
    exact hallowed
  · intro h
    refine ⟨fun a ha hal => ⟨r, List.mem_cons_self, ?_, htop⟩, r, List.mem_cons_self, hlast, h⟩
    unfold Covers at hfirst hlast ⊢
    omega

/-- The walk, for a range that stays below the last address. -/
theorem coveredFrom_iff (hmap : MemoryMap l) (hle : start.toNat ≤ last.toNat)
    (hlast : last.toNat < 2 ^ 32 - 1) :
    coveredFrom last isWrite start l = true ↔ Reaches l start last isWrite := by
  induction l generalizing start with
  | nil =>
    refine iff_of_false Bool.false_ne_true fun h => ?_
    obtain ⟨r, hr, -⟩ := h.allowed
    exact List.not_mem_nil hr
  | cons r rest ih =>
    have hstart := contains_iff hmap.bounded_head (a := start) (by omega)
    have hlast' := contains_iff hmap.bounded_head hlast
    rw [coveredFrom]
    by_cases hs : Covers r start ∧ ¬AtTop r
    · rw [if_pos (hstart.mpr hs)]
      have hend := toNat_end_of_not_atTop hmap.bounded_head hs.2
      by_cases hl : Covers r last ∧ ¬AtTop r
      · rw [if_pos (hlast'.mpr hl)]
        rw [reaches_of_covers hmap hs.1 hl.1 hs.2]
        cases isWrite <;> simp
      · rw [if_neg (mt hlast'.mp hl)]
        have hout : ¬Covers r last := fun h => hl ⟨h, hs.2⟩
        rw [reaches_cons_iff hs.1 hs.2 hout hend]
        refine ih hmap.tail ?_
        have := hs.1
        unfold Covers at this hout
        omega
    · rw [if_neg (mt hstart.mp hs), ih hmap.tail hle]
      exact ⟨.cons, .of_cons hmap hle hs⟩

/-- The walk to the last address: only the first byte is looked at. -/
theorem coveredFrom_last_iff (hmap : MemoryMap l) (hstart : start.toNat < 2 ^ 32 - 1) :
    coveredFrom 0xFFFFFFFF false start l = true ↔ ∃ r ∈ l, Covers r start ∧ ¬AtTop r := by
  induction l with
  | nil => exact iff_of_false Bool.false_ne_true (by simp)
  | cons r rest ih =>
    have hcontains := contains_iff hmap.bounded_head hstart
    rw [coveredFrom, List.exists_mem_cons_iff]
    by_cases hr : Covers r start ∧ ¬AtTop r
    · rw [if_pos (hcontains.mpr hr), if_pos contains_last]
      exact iff_of_true rfl (.inl hr)
    · rw [if_neg (mt hcontains.mp hr), ih hmap.tail, or_iff_right hr]

theorem coveredFrom_last_last (hne : l ≠ []) : coveredFrom 0xFFFFFFFF false 0xFFFFFFFF l = true := by
  cases l with
  | nil => exact absurd rfl hne
  | cons r rest => rw [coveredFrom, if_pos contains_last, if_pos contains_last]; rfl

end Walk

section Accesses

variable {σ : Type} {d : XBDMDebugger σ} {address length : UInt32} {isWrite : Bool}

theorem validateMemoryAccess_iff (hlen : 1 ≤ length.toNat) :
    validateMemoryAccess address length isWrite d = .ok (true, d) ↔
      d.accessible address length isWrite = true := by
  rw [validateMemoryAccess_run hlen, Except.ok.injEq, Prod.mk.injEq, and_iff_left rfl]

theorem accessible_iff (hne : d.memoryRegions ≠ []) :
    d.accessible address length isWrite = true ↔
      coveredFrom (address + length - 1) isWrite address d.memoryRegions = true := by
  simp only [accessible, hne, decide_false, Bool.false_or]

theorem toNat_last (hlen : 1 ≤ length.toNat) (hend : address.toNat + length.toNat ≤ 2 ^ 32) :
    (address + length - 1).toNat = address.toNat + length.toNat - 1 := by
  rw [UInt32.toNat_sub, UInt32.toNat_add, UInt32.toNat_one]
  omega

theorem reaches_iff_mapped (hmap : MemoryMap d.memoryRegions) (hlen : 1 ≤ length.toNat)
    (hend : address.toNat + length.toNat ≤ 2 ^ 32) :
    Reaches d.memoryRegions address (address + length - 1) isWrite ↔
      Mapped d.memoryRegions address length ∧
      (∀ r ∈ d.memoryRegions, Overlaps address length r → ¬AtTop r) ∧
      ∃ r ∈ d.memoryRegions, Covers r (address + length - 1) ∧
        (isWrite = true → r.isWritable = true) := by
  have hlast := toNat_last hlen hend
  have hrange (a : UInt32) : Within address length a ↔
      address.toNat ≤ a.toNat ∧ a.toNat ≤ (address + length - 1).toNat := by
    unfold Within
    omega
  constructor
  · intro h
    refine ⟨fun a ha => ?_, fun r hr hover => ?_, h.allowed⟩
    · obtain ⟨r, hr, hcover, -⟩ := h.found a ((hrange a).mp ha).1 ((hrange a).mp ha).2
      exact ⟨r, hr, hcover⟩
    · obtain ⟨a, ha, hcover⟩ := hover
      obtain ⟨s, hs, hcover', hstop⟩ := h.found a ((hrange a).mp ha).1 ((hrange a).mp ha).2
      rwa [hmap.unique hr hs hcover hcover']
  · rintro ⟨hmapped, htop, hallowed⟩
    refine ⟨fun a ha hal => ?_, hallowed⟩
    have hwithin := (hrange a).mpr ⟨ha, hal⟩
    obtain ⟨r, hr, hcover⟩ := hmapped a hwithin
    exact ⟨r, hr, hcover, htop r hr ⟨a, hwithin, hcover⟩⟩

/-- A read is accepted exactly when there is no map or all its bytes are mapped. -/
def AcceptsMapped (d : XBDMDebugger σ) (address length : UInt32) : Prop :=
  validateMemoryAccess address length false d = .ok (true, d) ↔
    d.memoryRegions = [] ∨ Mapped d.memoryRegions address length

theorem acceptsMapped_below (hmap : MemoryMap d.memoryRegions) (hne : d.memoryRegions ≠ [])
    (hlen : 1 ≤ length.toNat) (hend : address.toNat + length.toNat < 2 ^ 32) :
    AcceptsMapped d address length ↔ ¬(Mapped d.memoryRegions address length ∧
      ∃ r ∈ d.memoryRegions, AtTop r ∧ Overlaps address length r) := by
  have hlast := toNat_last hlen hend.le
  rw [AcceptsMapped, validateMemoryAccess_iff hlen, accessible_iff hne,
    coveredFrom_iff hmap (by omega) (by omega), reaches_iff_mapped hmap hlen hend.le]
  constructor
  · rintro h ⟨hmapped, r, hr, htop, hover⟩
    exact (h.mpr (.inr hmapped)).2.1 r hr hover htop
  · intro h
    refine ⟨fun haccepts => .inr haccepts.1, fun hor => ?_⟩
    have hmapped := hor.resolve_left hne
    obtain ⟨r, hr, hcover⟩ := hmapped (address + length - 1) (by unfold Within; omega)
    exact ⟨hmapped, fun s hs hover htop => h ⟨hmapped, s, hs, htop, hover⟩,
      r, hr, hcover, fun hwrite => absurd hwrite Bool.false_ne_true⟩

theorem acceptsMapped_top (hmap : MemoryMap d.memoryRegions) (hne : d.memoryRegions ≠ [])
    (hlen : 1 ≤ length.toNat) (hend : address.toNat + length.toNat = 2 ^ 32) :
    AcceptsMapped d address length ↔
      (Mapped d.memoryRegions address length →
        address = 0xFFFFFFFF ∨ ∀ r ∈ d.memoryRegions, Covers r address → ¬AtTop r) ∧
      (¬Mapped d.memoryRegions address length →
        address ≠ 0xFFFFFFFF ∧ ∀ r ∈ d.memoryRegions, Covers r address → AtTop r) := by
  have hlast : address + length - 1 = 0xFFFFFFFF := by
    rw [end_eq_zero hend]
    rfl
  rw [AcceptsMapped, validateMemoryAccess_iff hlen, accessible_iff hne, hlast, or_iff_right hne]
  by_cases hfirst : address = 0xFFFFFFFF
  · subst hfirst
    rw [iff_true_left (coveredFrom_last_last hne)]
    simp
  rw [coveredFrom_last_iff hmap (toNat_lt_of_ne_last hfirst), or_iff_right hfirst, and_iff_right hfirst]
  constructor
  · intro h
    refine ⟨fun hmapped r hr hcover => ?_, fun hnot r hr hcover => ?_⟩
    · obtain ⟨s, hs, hcover', hstop⟩ := h.mpr hmapped
      rwa [hmap.unique hr hs hcover hcover']
    · by_contra htop
      exact hnot (h.mp ⟨r, hr, hcover, htop⟩)
  · rintro ⟨hyes, hno⟩
    refine ⟨fun hfound => ?_, fun hmapped => ?_⟩
    · obtain ⟨r, hr, hcover, htop⟩ := hfound
      by_contra hnot
      exact htop (hno hnot r hr hcover)
    · obtain ⟨r, hr, hcover⟩ := hmapped address (by unfold Within; omega)
      exact ⟨r, hr, hcover, hyes hmapped r hr hcover⟩

/-- When reads are validated exactly. There are two defects: below the last address a region that
reaches the top of memory is taken for unmapped; a range up to the last address is judged by its first
byte. -/
theorem acceptsMapped_iff (hmap : MemoryMap d.memoryRegions) (hlen : 1 ≤ length.toNat)
    (hend : address.toNat + length.toNat ≤ 2 ^ 32) :
    AcceptsMapped d address length ↔
      d.memoryRegions = [] ∨
      (address.toNat + length.toNat < 2 ^ 32 ∧ ¬(Mapped d.memoryRegions address length ∧
        ∃ r ∈ d.memoryRegions, AtTop r ∧ Overlaps address length r)) ∨
      (address.toNat + length.toNat = 2 ^ 32 ∧
        (Mapped d.memoryRegions address length →
          address = 0xFFFFFFFF ∨ ∀ r ∈ d.memoryRegions, Covers r address → ¬AtTop r) ∧
        (¬Mapped d.memoryRegions address length →
          address ≠ 0xFFFFFFFF ∧ ∀ r ∈ d.memoryRegions, Covers r address → AtTop r)) := by
  by_cases hne : d.memoryRegions = []
  · refine iff_of_true ?_ (.inl hne)
    rw [AcceptsMapped, validateMemoryAccess_iff hlen]
    refine iff_of_true ?_ (.inl hne)
    simp only [accessible, hne, decide_true, Bool.true_or]
  rw [or_iff_right hne]
  rcases hend.lt_or_eq with hlt | heq
  · rw [acceptsMapped_below hmap hne hlen hlt, and_iff_right hlt]
    exact (or_iff_left fun h => hlt.ne h.1).symm
  · rw [acceptsMapped_top hmap hne hlen heq, and_iff_right heq]
    exact (or_iff_right fun h => h.1.ne heq).symm

end Accesses

/-- A debugger that knows these regions. -/
def mapping (regions : List MemoryRegion) : XBDMDebugger Unit where
  context := { target := () }
  memoryRegions := regions

/-- Regions one after the other, with or without gaps. -/
theorem MemoryMap.of_ends {l : List MemoryRegion}
    (h : l.Pairwise fun r s => r.start.toNat + r.size.toNat ≤ s.start.toNat)
    (hb : ∀ r ∈ l, r.start.toNat + r.size.toNat ≤ 2 ^ 32) : MemoryMap l := by
  refine ⟨h.imp fun hrs => ?_, h.imp fun hrs a hr hs => ?_, hb⟩
  · rw [UInt32.le_iff_toNat_le]
    omega
  · unfold Covers at hr hs
    omega

theorem acceptsMapped_adjacent :
    AcceptsMapped (mapping [⟨0x10000, 0x1000, 0x04⟩, ⟨0x11000, 0x1000, 0x02⟩]) 0x10800 0x1000 := by
  refine (acceptsMapped_iff (.of_ends (by decide) (by decide)) (by decide) (by decide)).mpr ?_
  refine .inr (.inl ⟨by decide, fun h => ?_⟩)
  obtain ⟨-, r, hr, htop, -⟩ := h
  have hnone : ∀ r ∈ (mapping [⟨0x10000, 0x1000, 0x04⟩, ⟨0x11000, 0x1000, 0x02⟩]).memoryRegions,
      ¬AtTop r := by decide
  exact hnone r hr htop

/-- A read inside a region at the top of memory is refused, and a read of the last address is accepted
though nothing there is mapped. -/
theorem not_acceptsMapped_top :
    (MemoryMap [⟨0xFFFF0000, 0x10000, 0x04⟩] ∧
      ¬AcceptsMapped (mapping [⟨0xFFFF0000, 0x10000, 0x04⟩]) 0xFFFF0000 0x1000) ∧
    MemoryMap [⟨0x10000, 0x1000, 0x04⟩] ∧
      ¬AcceptsMapped (mapping [⟨0x10000, 0x1000, 0x04⟩]) 0xFFFFFFFF 1 := by
  have htop : MemoryMap [⟨0xFFFF0000, 0x10000, 0x04⟩] := .of_ends (by decide) (by decide)
  have hlow : MemoryMap [⟨0x10000, 0x1000, 0x04⟩] := .of_ends (by decide) (by decide)
  refine ⟨⟨htop, fun h => ?_⟩, hlow, fun h => ?_⟩
  · have haccess := h.mpr (.inr fun a ha => ⟨_, List.mem_singleton.mpr rfl, ?_⟩)
    · exact absurd ((validateMemoryAccess_iff (by decide)).mp haccess) (by decide)
    · change 0xFFFF0000 ≤ a.toNat ∧ a.toNat < 0xFFFF0000 + 0x1000 at ha
      change 0xFFFF0000 ≤ a.toNat ∧ a.toNat < 0xFFFF0000 + 0x10000
      omega
  · have haccess := h.mp ((validateMemoryAccess_iff (by decide)).mpr (by decide))
    obtain ⟨r, hr, hcover⟩ := haccess.resolve_left (by decide) 0xFFFFFFFF (by decide)
    have hnone : ∀ r ∈ (mapping [⟨0x10000, 0x1000, 0x04⟩]).memoryRegions,
        ¬Covers r 0xFFFFFFFF := by decide
    exact hnone r hr hcover

section Writes

variable {σ : Type} {d : XBDMDebugger σ} {address length : UInt32}

/-- An accepted write touches writable regions only. -/
def WritesOnlyWritable (d : XBDMDebugger σ) (address length : UInt32) : Prop :=
  validateMemoryAccess address length true d = .ok (true, d) →
    ∀ r ∈ d.memoryRegions, Overlaps address length r → r.isWritable = true

/-- Of all the regions of a range only the one with its last byte is asked whether it is writable. -/
theorem writesOnlyWritable_iff (hne : d.memoryRegions ≠ []) (hmap : MemoryMap d.memoryRegions)
    (hbelow : ∀ r ∈ d.memoryRegions, r.start.toNat + r.size.toNat < 2 ^ 32)
    (hlen : 1 ≤ length.toNat) (hend : address.toNat + length.toNat ≤ 2 ^ 32 - 1) :
    WritesOnlyWritable d address length ↔
      ¬(Mapped d.memoryRegions address length ∧
        (∃ r ∈ d.memoryRegions, Covers r (address + length - 1) ∧ r.isWritable = true) ∧
        ∃ r ∈ d.memoryRegions, Overlaps address length r ∧ r.isWritable = false) := by
  have hlast := toNat_last hlen (by omega : address.toNat + length.toNat ≤ 2 ^ 32)
  have hnever : ∀ r ∈ d.memoryRegions, Overlaps address length r → ¬AtTop r :=
    fun r hr _ htop => (hbelow r hr).ne htop
  have haccepts : validateMemoryAccess address length true d = .ok (true, d) ↔
      Mapped d.memoryRegions address length ∧
        ∃ r ∈ d.memoryRegions, Covers r (address + length - 1) ∧ r.isWritable = true := by
    rw [validateMemoryAccess_iff hlen, accessible_iff hne,
      coveredFrom_iff hmap (by omega) (by omega), reaches_iff_mapped hmap hlen (by omega),
      and_iff_right hnever]
    simp only [forall_const]
  rw [WritesOnlyWritable, haccepts]
  constructor
  · rintro h ⟨hmapped, hwritable, r, hr, hover, hread⟩
    rw [h ⟨hmapped, hwritable⟩ r hr hover] at hread
    exact absurd hread (by decide)
  · rintro h ⟨hmapped, hwritable⟩ r hr hover
    by_contra hread
    exact h ⟨hmapped, hwritable, r, hr, hover, Bool.eq_false_iff.mpr hread⟩

end Writes

theorem writesOnlyWritable_adjacent : WritesOnlyWritable
    (mapping [⟨0x10000, 0x1000, 0x04⟩, ⟨0x11000, 0x1000, 0x40⟩]) 0x10FFF 2 := by
  refine (writesOnlyWritable_iff (by decide) (.of_ends (by decide) (by decide)) (by decide)
    (by decide) (by decide)).mpr fun h => ?_
  obtain ⟨-, -, r, hr, -, hread⟩ := h
  have hall : ∀ r ∈ (mapping [⟨0x10000, 0x1000, 0x04⟩, ⟨0x11000, 0x1000, 0x40⟩]).memoryRegions,
      r.isWritable = true := by decide
  exact absurd ((hall r hr).symm.trans hread) (by decide)

/-- A write of two bytes from a read-only region into a writable one is accepted. -/
theorem not_writesOnlyWritable_adjacent :
    MemoryMap [⟨0x10000, 0x1000, 0x02⟩, ⟨0x11000, 0x1000, 0x04⟩] ∧ ¬WritesOnlyWritable
      (mapping [⟨0x10000, 0x1000, 0x02⟩, ⟨0x11000, 0x1000, 0x04⟩]) 0x10FFF 2 := by
  refine ⟨.of_ends (by decide) (by decide), fun h => ?_⟩
  have hwritable := h ((validateMemoryAccess_iff (by decide)).mpr (by decide))
    ⟨0x10000, 0x1000, 0x02⟩ List.mem_cons_self ⟨0x10FFF, by decide, by decide⟩
  exact absurd hwritable (by decide)

end XbdmGdbBridge.Proofs.Access
