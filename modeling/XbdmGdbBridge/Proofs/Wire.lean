import XbdmGdbBridge.Gdb.Wire
import XbdmGdbBridge.Proofs.Frames

namespace XbdmGdbBridge.Proofs.WireShape
open Gdb Gdb.GDBPacket Gdb.GDBTransport Lib Frames

variable {w : Wire} {b : UInt8}

/-- Filler holds neither a leader nor an interrupt, a body holds no trailer. -/
def Well : Pos → Prop
  | .gap junk => kPacketLeader ∉ junk ∧ kInterrupt ∉ junk
  | .body junk data | .trailer junk data _ =>
    (kPacketLeader ∉ junk ∧ kInterrupt ∉ junk) ∧ kPacketTrailer ∉ data

theorem well_plain (h : Well w.pos) (b : UInt8) : Well (w.plain b).pos := by
  obtain ⟨pos, items⟩ := w
  cases pos with
  | gap junk =>
    obtain ⟨hl, hi⟩ := h
    simp only [Wire.plain, Wire.inGap]
    by_cases hb : b = kPacketLeader
    · simp [hb, Well, hl, hi]
    · by_cases hc : b = kInterrupt
      · simp only [↓reduceIte, hc]
        exact ⟨hl, hi⟩
      · have hw : Well (.gap (junk ++ [b])) := by
          simp [Well, hl, hi, Ne.symm hb, Ne.symm hc]
        simp only [hb, ↓reduceIte, hc]
        split
        · exact hw
        · split <;> exact hw
  | body junk data =>
    obtain ⟨hj, ht⟩ := h
    simp only [Wire.plain, Wire.inBody]
    split
    · exact ⟨hj, ht⟩
    · rename_i hb
      exact ⟨hj, by simpa [ht] using Ne.symm hb⟩
  | trailer junk data first => exact h

theorem well_start : Well (.gap []) := ⟨by simp, by simp⟩

theorem well_step (h : Well w.pos) (b : UInt8) : Well (w.step b).pos := by
  obtain ⟨pos, items⟩ := w
  cases pos with
  | gap junk => exact well_plain h b
  | body junk data => exact well_plain h b
  | trailer junk data first =>
    cases first with
    | none => exact well_plain h b
    | some c =>
      simp only [Wire.step]
      split
      · exact well_start
      · have hc : Well (Wire.plain ⟨.gap [], items ++ [.frame data c b]⟩ c).pos :=
          well_plain well_start c
        exact well_plain hc b

theorem run_append (w : Wire) (a b : Bytes) : w.run (a ++ b) = (w.run a).run b := by
  simp [Wire.run]

theorem plain_start (items : List Item) (c : UInt8) :
    (Wire.plain ⟨.gap [], items⟩ c).pos =
      if c = kPacketLeader then .body [] [] else if c = kInterrupt then .gap [] else .gap [c] := by
  simp only [Wire.plain, Wire.inGap]
  split
  · rfl
  · split
    · rfl
    · split
      · rfl
      · split <;> rfl

theorem plain_extends (hi : ∀ junk, w.pos = .gap junk → b ≠ kInterrupt)
    (ht : ∀ junk data c, w.pos ≠ .trailer junk data (some c)) :
    (w.plain b).pos.pending = w.pos.pending ++ [b] ∧
      ((w.plain b).items = w.items ∨ (w.plain b).items = w.items ++ [.ack] ∨
        (w.plain b).items = w.items ++ [.nack]) := by
  obtain ⟨pos, items⟩ := w
  cases pos with
  | gap junk =>
    have hb := hi junk rfl
    simp only [Wire.plain, Wire.inGap, hb, ↓reduceIte]
    by_cases hl : b = kPacketLeader
    · rw [if_pos hl, hl]
      exact ⟨rfl, .inl rfl⟩
    · rw [if_neg hl]
      split
      · exact ⟨rfl, .inr (.inl rfl)⟩
      · split
        · exact ⟨rfl, .inr (.inr rfl)⟩
        · exact ⟨rfl, .inl rfl⟩
  | body junk data =>
    simp only [Wire.plain, Wire.inBody]
    by_cases hb : b = kPacketTrailer
    · simp [hb, Pos.pending]
    · simp [hb, Pos.pending]
  | trailer junk data first =>
    cases first with
    | none => simp [Wire.plain, Pos.pending]
    | some c => exact absurd rfl (ht junk data c)

theorem items_plain (w : Wire) (b : UInt8) : w.items <+: (w.plain b).items := by
  obtain ⟨pos, items⟩ := w
  cases pos with
  | gap junk =>
    simp only [Wire.plain, Wire.inGap]
    split
    · exact List.prefix_refl _
    · split
      · exact List.prefix_append _ _
      · split
        · exact List.prefix_append _ _
        · split
          · exact List.prefix_append _ _
          · exact List.prefix_refl _
  | body junk data =>
    simp only [Wire.plain, Wire.inBody]
    split <;> exact List.prefix_refl _
  | trailer junk data first => exact List.prefix_refl _

theorem items_step (w : Wire) (b : UInt8) : w.items <+: (w.step b).items := by
  obtain ⟨pos, items⟩ := w
  cases pos with
  | gap junk => exact items_plain _ b
  | body junk data => exact items_plain _ b
  | trailer junk data first =>
    cases first with
    | none => exact items_plain _ b
    | some c =>
      simp only [Wire.step]
      split
      · exact List.prefix_append _ _
      · have hd : items <+: (⟨.gap [], items ++ [.frame data c b]⟩ : Wire).items :=
          List.prefix_append _ _
        exact hd.trans ((items_plain _ c).trans (items_plain _ b))

theorem items_run (w : Wire) (v : Bytes) : w.items <+: (w.run v).items := by
  induction v generalizing w with
  | nil => exact List.prefix_refl _
  | cons b v ih => exact (items_step w b).trans (ih (w.step b))

theorem step_outside (hp : w.pos.inFrame = false) (b : UInt8) : w.step b = w.plain b := by
  obtain ⟨pos, items⟩ := w
  cases pos with
  | gap junk => rfl
  | body junk data => simp [Pos.inFrame] at hp
  | trailer junk data first => simp [Pos.inFrame] at hp

/-- Acknowledgements and interrupts between frames open no frame. -/
theorem step_stays_outside (hp : w.pos.inFrame = false) (hb : isRun b = true) :
    (w.step b).pos.inFrame = false := by
  have hl : b ≠ kPacketLeader := by
    rintro rfl
    exact absurd hb (by decide)
  rw [step_outside hp]
  obtain ⟨pos, items⟩ := w
  cases pos with
  | gap junk =>
    simp only [Wire.plain, Wire.inGap, hl, ↓reduceIte]
    split
    · rfl
    · split
      · rfl
      · split <;> rfl
  | body junk data => simp [Pos.inFrame] at hp
  | trailer junk data first => simp [Pos.inFrame] at hp

theorem frame_mem (junk data : Bytes) (items : List Item) (c b : UInt8) :
    .frame data c b ∈ (Wire.step ⟨.trailer junk data (some c), items⟩ b).items := by
  simp only [Wire.step]
  split
  · simp
  · have hd : Item.frame data c b ∈ (⟨.gap [], items ++ [.frame data c b]⟩ : Wire).items := by simp
    exact ((items_plain _ c).trans (items_plain _ b)).subset hd

end XbdmGdbBridge.Proofs.WireShape
