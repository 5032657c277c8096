import XbdmGdbBridge.Lib.Extraction
import XbdmGdbBridge.Gdb.Transport

namespace XbdmGdbBridge.Proofs.Frames
open Gdb Gdb.GDBPacket Gdb.GDBTransport Lib CText

theorem memchr_none (h : c ∉ u) : memchr c u = none := by
  simpa [memchr, List.idxOf?_eq_none_iff] using h

theorem memchr_first (h : c ∉ a) : memchr c (a ++ c :: b) = some a.length := by
  induction a with
  | nil => simp [memchr, List.idxOf?_cons]
  | cons x a ih =>
    have hx : x ≠ c := fun he => h (he ▸ List.mem_cons_self)
    have ht := ih (fun hm => h (List.mem_cons_of_mem _ hm))
    simp only [memchr] at ht
    simp [memchr, List.idxOf?_cons, hx, ht]

theorem split_first (h : c ∈ u) : ∃ a b, u = a ++ c :: b ∧ c ∉ a := by
  obtain ⟨a, b, he, ha⟩ := List.eq_append_cons_of_mem h
  exact ⟨a, b, he, ha⟩

theorem numeral_two (h₁ : isDigit 16 c₁ = true) (h₂ : isDigit 16 c₂ = true) :
    numeral 16 [c₁, c₂] < 256 := by
  unfold isDigit at h₁ h₂
  cases hd₁ : digitValue c₁ with
  | none => simp [hd₁] at h₁
  | some n =>
    cases hd₂ : digitValue c₂ with
    | none => simp [hd₂] at h₂
    | some m =>
      simp only [hd₁, hd₂, decide_eq_true_eq] at h₁ h₂
      simp only [numeral, List.foldl_cons, List.foldl_nil, hd₁, hd₂, Option.getD_some]
      omega

theorem checksumValue_digits (h₁ : isDigit 16 c₁ = true) (h₂ : isDigit 16 c₂ = true) :
    checksumValue c₁ c₂ = some (numeral 16 [c₁, c₂] : Int) := by
  have hlt := numeral_two h₁ h₂
  simp only [checksumValue, strtol, scanNumber_digits h₁ h₂, Bool.false_eq_true, ↓reduceIte,
    Option.some.injEq]
  omega

/-- What `Parse` can find in a buffer: no leader, a body that is still open, a
frame that lacks checksum characters, or a complete frame. -/
inductive View (u : Bytes) : Prop where
  | noLeader (h : kPacketLeader ∉ u)
  | openBody (junk body : Bytes) (he : u = junk ++ kPacketLeader :: body)
      (hj : kPacketLeader ∉ junk) (hb : kPacketTrailer ∉ body)
  | short (junk body cs : Bytes) (he : u = junk ++ kPacketLeader :: (body ++ kPacketTrailer :: cs))
      (hj : kPacketLeader ∉ junk) (hb : kPacketTrailer ∉ body) (hs : cs.length < 2)
  | frame (junk body : Bytes) (c₁ c₂ : UInt8) (rest : Bytes)
      (he : u = junk ++ kPacketLeader :: (body ++ kPacketTrailer :: c₁ :: c₂ :: rest))
      (hj : kPacketLeader ∉ junk) (hb : kPacketTrailer ∉ body)

theorem view (u : Bytes) : View u := by
  by_cases hl : kPacketLeader ∈ u
  · obtain ⟨junk, body, rfl, hj⟩ := split_first hl
    by_cases ht : kPacketTrailer ∈ body
    · obtain ⟨body, cs, rfl, hb⟩ := split_first ht
      match cs with
      | [] => exact .short junk body [] rfl hj hb (by simp)
      | [c] => exact .short junk body [c] rfl hj hb (by simp)
      | c₁ :: c₂ :: rest => exact .frame junk body c₁ c₂ rest rfl hj hb
    · exact .openBody junk body rfl hj ht
  · exact .noLeader hl

theorem parse_noLeader (p : GDBPacket) (h : kPacketLeader ∉ u) : p.parse u = (0, p) := by
  simp [parse, memchr_none h]

theorem drop_leader (junk tail : Bytes) :
    (junk ++ kPacketLeader :: tail).drop (junk.length + 1) = tail := by
  rw [← List.drop_drop, List.drop_left]
  rfl

theorem parse_openBody (p : GDBPacket) (hj : kPacketLeader ∉ junk) (hb : kPacketTrailer ∉ body) :
    p.parse (junk ++ kPacketLeader :: body) = (0, p) := by
  simp only [parse, memchr_first hj, drop_leader, memchr_none hb]

theorem parse_short (p : GDBPacket) (hj : kPacketLeader ∉ junk) (hb : kPacketTrailer ∉ body)
    (hs : cs.length < 2) :
    p.parse (junk ++ kPacketLeader :: (body ++ kPacketTrailer :: cs)) = (0, p) := by
  have hd : (body ++ kPacketTrailer :: cs).drop (body.length + 1) = cs := by
    rw [← List.drop_drop, List.drop_left]
    rfl
  match cs, hs with
  | [], _ | [_], _ => simp only [parse, memchr_first hj, drop_leader, memchr_first hb, hd]

theorem parse_frame (p : GDBPacket) (c₁ c₂ : UInt8) (rest : Bytes) (hj : kPacketLeader ∉ junk) (hb : kPacketTrailer ∉ body) :
    p.parse (junk ++ kPacketLeader :: (body ++ kPacketTrailer :: c₁ :: c₂ :: rest)) =
      match checksumValue c₁ c₂ with
      | none => (junk.length + body.length + 2, p)
      | some sent => (junk.length + body.length + 4, ofFrame body sent) := by
  have hd : (body ++ kPacketTrailer :: c₁ :: c₂ :: rest).drop (body.length + 1) =
      c₁ :: c₂ :: rest := by
    rw [← List.drop_drop, List.drop_left]
    rfl
  simp only [parse, memchr_first hj, drop_leader, memchr_first hb, hd, List.take_left]
  cases checksumValue c₁ c₂ <;> simp only [Prod.mk.injEq, and_true] <;> omega

/-- One iteration of the packet loop. -/
def nextPacket (last : GDBPacket) : Bytes → Option (Extract GDBPacket GDBPacket)
  | [] => none
  | b :: rest =>
    if b = kInterrupt then some ⟨1, interruptPacket, last⟩
    else
      let (n, p) := last.parse (b :: rest)
      if n = 0 then none else some ⟨n, p, p⟩

theorem nextPacket_interrupt (last : GDBPacket) (rest : Bytes) :
    nextPacket last (kInterrupt :: rest) = some ⟨1, interruptPacket, last⟩ := by
  simp [nextPacket]

theorem nextPacket_idle {last : GDBPacket} (hh : u.head? ≠ some kInterrupt)
    (hp : last.parse u = (0, last)) : nextPacket last u = none := by
  cases u with
  | nil => rfl
  | cons b rest =>
    have hb : b ≠ kInterrupt := by simpa using hh
    simp [nextPacket, hb, hp]

theorem leader_ne_interrupt : kPacketLeader ≠ kInterrupt := by decide

/-- Junk in front of a leader that does not begin with an interrupt keeps the
whole buffer from beginning with one. -/
theorem head_junk (tail : Bytes) (hh : junk.head? ≠ some kInterrupt) :
    (junk ++ kPacketLeader :: tail).head? ≠ some kInterrupt := by
  cases junk with
  | nil => simpa using leader_ne_interrupt
  | cons b junk => simpa using hh

theorem nextPacket_frame (last : GDBPacket) (c₁ c₂ : UInt8) (rest : Bytes)
    (hh : junk.head? ≠ some kInterrupt) (hj : kPacketLeader ∉ junk) (hb : kPacketTrailer ∉ body) :
    nextPacket last (junk ++ kPacketLeader :: (body ++ kPacketTrailer :: c₁ :: c₂ :: rest)) =
      match checksumValue c₁ c₂ with
      | none => some ⟨junk.length + body.length + 2, last, last⟩
      | some sent => some ⟨junk.length + body.length + 4, ofFrame body sent, ofFrame body sent⟩ := by
  have hp := parse_frame last c₁ c₂ rest hj hb
  have hn := head_junk (body ++ kPacketTrailer :: c₁ :: c₂ :: rest) hh
  generalize hu : junk ++ kPacketLeader :: (body ++ kPacketTrailer :: c₁ :: c₂ :: rest) = u at hp hn
  cases u with
  | nil => simp at hu
  | cons b u =>
    have hi : b ≠ kInterrupt := by simpa using hn
    simp only [nextPacket, hi, ↓reduceIte, hp]
    cases checksumValue c₁ c₂ <;> simp

/-- Everything an iteration can do, by what stands at the front. -/
theorem nextPacket_cases (u : Bytes) :
    (∃ rest, u = kInterrupt :: rest) ∨ (u.head? ≠ some kInterrupt ∧
      ((∀ p, nextPacket p u = none) ∨
        ∃ junk body c₁ c₂ rest,
          u = junk ++ kPacketLeader :: (body ++ kPacketTrailer :: c₁ :: c₂ :: rest) ∧
          junk.head? ≠ some kInterrupt ∧ kPacketLeader ∉ junk ∧ kPacketTrailer ∉ body)) := by
  by_cases hh : u.head? = some kInterrupt
  · left
    cases u with
    | nil => simp at hh
    | cons b rest => exact ⟨rest, by simpa using hh⟩
  · right
    refine ⟨hh, ?_⟩
    cases view u with
    | noLeader hl => exact .inl fun p => nextPacket_idle hh (parse_noLeader p hl)
    | openBody junk body he hj hb =>
      exact .inl fun p => nextPacket_idle hh (he ▸ parse_openBody p hj hb)
    | short junk body cs he hj hb hs =>
      exact .inl fun p => nextPacket_idle hh (he ▸ parse_short p hj hb hs)
    | frame junk body c₁ c₂ rest he hj hb =>
      refine .inr ⟨junk, body, c₁, c₂, rest, he, ?_, hj, hb⟩
      intro hc
      cases junk with
      | nil => simp at hc
      | cons b junk => exact hh (by simpa [he] using hc)

theorem nextPacket_progress (h : nextPacket last u = some e) : 0 < e.count ∧ e.count ≤ u.length := by
  rcases nextPacket_cases u with ⟨rest, rfl⟩ | ⟨_, hn | ⟨junk, body, c₁, c₂, rest, rfl, hh, hj, hb⟩⟩
  · rw [nextPacket_interrupt] at h
    cases h
    simp
  · rw [hn last] at h
    cases h
  · rw [nextPacket_frame _ _ _ _ hh hj hb] at h
    cases hc : checksumValue c₁ c₂ with
    | none =>
      simp only [hc, Option.some.injEq] at h
      subst e
      simp only [List.length_append, List.length_cons]
      omega
    | some sent =>
      simp only [hc, Option.some.injEq] at h
      subst e
      simp only [List.length_append, List.length_cons]
      omega

theorem nextPacket_stable (h : nextPacket last u = some e) : nextPacket last (u ++ v) = some e := by
  rcases nextPacket_cases u with ⟨rest, rfl⟩ | ⟨_, hn | ⟨junk, body, c₁, c₂, rest, rfl, hh, hj, hb⟩⟩
  · rw [List.cons_append, nextPacket_interrupt, ← h, nextPacket_interrupt]
  · rw [hn last] at h
    cases h
  · have he : junk ++ kPacketLeader :: (body ++ kPacketTrailer :: c₁ :: c₂ :: rest) ++ v =
        junk ++ kPacketLeader :: (body ++ kPacketTrailer :: c₁ :: c₂ :: (rest ++ v)) := by simp
    rw [he, nextPacket_frame _ _ _ _ hh hj hb, ← h, nextPacket_frame _ _ _ _ hh hj hb]

/-- The packet loop as an extractor; its state is the reused packet object. -/
def packets : Extractor GDBPacket UInt8 GDBPacket where
  next := nextPacket
  progress := nextPacket_progress
  stable := nextPacket_stable

@[simp] theorem packets_next (last : GDBPacket) (u : Bytes) :
    packets.next last u = nextPacket last u := rfl

theorem stuck_noLeader (hh : u.head? ≠ some kInterrupt) (h : kPacketLeader ∉ u) :
    packets.Stuck u :=
  fun last => nextPacket_idle hh (parse_noLeader last h)

theorem stuck_openBody (hh : junk.head? ≠ some kInterrupt) (hj : kPacketLeader ∉ junk)
    (hb : kPacketTrailer ∉ body) : packets.Stuck (junk ++ kPacketLeader :: body) :=
  fun last => nextPacket_idle (head_junk _ hh) (parse_openBody last hj hb)

theorem stuck_short (hh : junk.head? ≠ some kInterrupt) (hj : kPacketLeader ∉ junk)
    (hb : kPacketTrailer ∉ body) (hs : cs.length < 2) :
    packets.Stuck (junk ++ kPacketLeader :: (body ++ kPacketTrailer :: cs)) :=
  fun last => nextPacket_idle (head_junk _ hh) (parse_short last hj hb hs)

theorem processLoop_drainFor (fuel : Nat) (last : GDBPacket) (u : Bytes) :
    processLoop fuel last u =
      ((packets.drainFor fuel last u).items, (packets.drainFor fuel last u).rest) := by
  induction fuel generalizing last u with
  | zero => rfl
  | succ fuel ih =>
    cases u with
    | nil => rfl
    | cons b rest =>
      by_cases hb : b = kInterrupt
      · subst b
        have hn : packets.next last (kInterrupt :: rest) = some ⟨1, interruptPacket, last⟩ :=
          nextPacket_interrupt last rest
        simp only [processLoop, ↓reduceIte, ih, Extractor.drainFor, hn]
        rfl
      · by_cases hz : (last.parse (b :: rest)).1 = 0
        · have hn : packets.next last (b :: rest) = none := by
            simp [packets, nextPacket, hb, hz]
          simp only [processLoop, hb, ↓reduceIte, hz, Extractor.drainFor, hn]
        · have hn : packets.next last (b :: rest) = some ⟨(last.parse (b :: rest)).1,
              (last.parse (b :: rest)).2, (last.parse (b :: rest)).2⟩ := by
            simp [packets, nextPacket, hb, hz]
          simp only [processLoop, hb, ↓reduceIte, hz, ih, Extractor.drainFor, hn]
          rfl

theorem processLoop_drain (last : GDBPacket) (u : Bytes) :
    processLoop u.length last u = ((packets.drain last u).items, (packets.drain last u).rest) :=
  processLoop_drainFor u.length last u

end XbdmGdbBridge.Proofs.Frames
