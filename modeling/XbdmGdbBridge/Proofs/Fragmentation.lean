import XbdmGdbBridge.Proofs.Reads
import XbdmGdbBridge.Proofs.Wire

namespace XbdmGdbBridge.Proofs.Fragmentation
open Gdb Gdb.GDBPacket Gdb.GDBTransport Lib Frames Reads WireShape

/-- However a beginning of the stream is cut into reads, the same packets are
handed over as for one read, and no interrupt waits outside a frame. -/
def SplitSafe (s : Bytes) : Prop :=
  ∀ reads : List Bytes, reads.flatten <+: s →
    (receiveAll {} reads).received = (receive {} reads.flatten).received ∧
      kInterrupt ∉ (receiveAll {} reads).unescapedReadBuffer.takeWhile (· != kPacketLeader)

/-- The packet a complete frame stands for when its checksum is a number. -/
def numeric? : Item → Option GDBPacket
  | .frame data c₁ c₂ => (checksumValue c₁ c₂).map (ofFrame data)
  | _ => none

/-- What the packet loop hands over for an item. A frame without a number for
its checksum repeats the reused packet, here still the empty one. -/
def packet? : Item → Option GDBPacket
  | .interrupt => some interruptPacket
  | .frame data c₁ c₂ => some ((numeric? (.frame data c₁ c₂)).getD {})
  | _ => none

def packetsOf (w : Wire) : List GDBPacket := w.items.filterMap packet?

/-- The packet of the latest frame with a number for its checksum. -/
def lastOf (w : Wire) : GDBPacket := (w.items.filterMap numeric?).getLast?.getD {}

/-- Whether the outcome at this byte depends on the reads: an interrupt behind
filler, an acknowledgement character in a completed frame, or a frame without
a number for its checksum behind an earlier packet. -/
def blurred (w : Wire) (b : UInt8) : Bool :=
  match w.pos with
  | .gap junk => b == kInterrupt && junk != []
  | .body _ _ | .trailer _ _ none => false
  | .trailer _ data (some c₁) =>
    match checksumValue c₁ b with
    | some _ => data.any isAck || isAck c₁
    | none =>
      isAck c₁ || isAck b || lastOf w != {} ||
        (c₁ != kInterrupt && c₁ != kPacketLeader && b == kInterrupt)

/-- No byte of the stream is blurred. -/
def clear (w : Wire) : Bytes → Bool
  | [] => true
  | b :: s => !blurred w b && clear (w.step b) s

theorem clear_append (w : Wire) (a b : Bytes) :
    clear w (a ++ b) = (clear w a && clear (w.run a) b) := by
  induction a generalizing w with
  | nil => rfl
  | cons x a ih =>
    simp only [List.cons_append, clear, ih, Bool.and_assoc]
    rfl

/-- The first list is the second without some acknowledgement characters;
without loss it is the second. -/
inductive Thinned (lossy : Prop) : Bytes → Bytes → Prop where
  | nil : Thinned lossy [] []
  | keep (b : UInt8) (h : Thinned lossy u v) : Thinned lossy (b :: u) (b :: v)
  | drop (hl : lossy) (hb : isAck b = true) (h : Thinned lossy u v) : Thinned lossy u (b :: v)

namespace Thinned

variable {lossy : Prop} {u v : Bytes}

theorem refl (lossy : Prop) (u : Bytes) : Thinned lossy u u := by
  induction u with
  | nil => exact .nil
  | cons b u ih => exact .keep b ih

theorem append (h : Thinned lossy u v) (h' : Thinned lossy u' v') :
    Thinned lossy (u ++ u') (v ++ v') := by
  induction h with
  | nil => exact h'
  | keep b h ih => exact .keep b ih
  | drop hl hb h ih => exact .drop hl hb ih

theorem skip (h : Thinned lossy u v) (hl : lossy) (hb : isAck b = true) :
    Thinned lossy u (v ++ [b]) := by
  simpa using h.append (.drop hl hb .nil)

theorem subset (h : Thinned lossy u v) : u ⊆ v := by
  induction h with
  | nil => exact List.Subset.refl _
  | keep b h ih => exact List.cons_subset_cons b ih
  | drop hl hb h ih => exact List.Subset.trans ih (List.subset_cons_self _ _)

theorem eq_of_clean (h : Thinned lossy u v) (hv : v.any isAck = false) : u = v := by
  induction h with
  | nil => rfl
  | keep b h ih =>
    simp only [List.any_cons, Bool.or_eq_false_iff] at hv
    rw [ih hv.2]
  | drop hl hb h ih => simp [hb] at hv

theorem eq_of_lossless (h : Thinned False u v) : u = v := by
  induction h with
  | nil => rfl
  | keep b h ih => rw [ih]
  | drop hl hb h ih => exact hl.elim

theorem nil_right (h : Thinned lossy u []) : u = [] := by
  cases h
  rfl

/-- A character that is no acknowledgement is still there, in its place. -/
theorem split (hc : isAck c = false) (h : Thinned lossy u (a ++ c :: b)) :
    ∃ a' b', u = a' ++ c :: b' ∧ Thinned lossy a' a ∧ Thinned lossy b' b := by
  induction a generalizing u with
  | nil =>
    cases h with
    | keep _ h => exact ⟨[], _, rfl, .nil, h⟩
    | drop hl hb h => simp [hc] at hb
  | cons x a ih =>
    cases h with
    | keep _ h =>
      obtain ⟨a', b', rfl, ha, hb⟩ := ih h
      exact ⟨x :: a', b', rfl, .keep x ha, hb⟩
    | drop hl hx h =>
      obtain ⟨a', b', rfl, ha, hb⟩ := ih h
      exact ⟨a', b', rfl, .drop hl hx ha, hb⟩

theorem length_le (h : Thinned lossy u v) : u.length ≤ v.length := by
  induction h with
  | nil => exact Nat.le_refl _
  | keep b h ih => exact Nat.succ_le_succ ih
  | drop hl hb h ih => exact Nat.le_succ_of_le ih

end Thinned

theorem head_ne {u : Bytes} (h : c ∉ u) : u.head? ≠ some c :=
  fun he => h (List.mem_of_mem_head? he)

theorem leader_kept : isAck kPacketLeader = false := by decide

theorem trailer_kept : isAck kPacketTrailer = false := by decide

theorem thinned_stuck {pos : Pos} (hw : Well pos) (h : Thinned lossy u pos.pending) :
    packets.Stuck u := by
  cases pos with
  | gap junk =>
    obtain ⟨hl, hi⟩ := hw
    exact stuck_noLeader (head_ne fun hm => hi (h.subset hm)) (fun hm => hl (h.subset hm))
  | body junk data =>
    obtain ⟨⟨hl, hi⟩, ht⟩ := hw
    obtain ⟨j, d, rfl, hj, hd⟩ := h.split leader_kept
    exact stuck_openBody (head_ne fun hm => hi (hj.subset hm)) (fun hm => hl (hj.subset hm))
      (fun hm => ht (hd.subset hm))
  | trailer junk data first =>
    obtain ⟨⟨hl, hi⟩, ht⟩ := hw
    obtain ⟨j, r, rfl, hj, hr⟩ := h.split leader_kept
    obtain ⟨d, cs, rfl, hd, hcs⟩ := hr.split trailer_kept
    have hlen : cs.length < 2 := by
      have := hcs.length_le
      cases first <;> simp only [Option.toList, List.length_cons, List.length_nil] at this <;> omega
    exact stuck_short (head_ne fun hm => hi (hj.subset hm)) (fun hm => hl (hj.subset hm))
      (fun hm => ht (hd.subset hm)) hlen

/-- A transport in the middle of a read agrees with the stream so far. The
reused packet may have been reset at the beginning of a read, and reads may
have dropped acknowledgement characters, when loss is allowed. -/
structure Tracks (lossy : Prop) (w : Wire) (l : Live) : Prop where
  well : Well w.pos
  last : l.last = lastOf w ∨ (lossy ∧ l.last = {})
  buf : Thinned lossy l.buf w.pos.pending
  out : l.out = packetsOf w

variable {lossy : Prop} {w : Wire} {l : Live} {b c₁ : UInt8} {junk data : Bytes}

/-- Items that are no packets change neither the packets nor the latest one. -/
theorem items_extend (h : w'.items = w.items ∨ w'.items = w.items ++ [.ack] ∨
    w'.items = w.items ++ [.nack]) : packetsOf w' = packetsOf w ∧ lastOf w' = lastOf w := by
  rcases h with h | h | h
  · simp [packetsOf, lastOf, h]
  · simp [packetsOf, lastOf, h, packet?, numeric?]
  · simp [packetsOf, lastOf, h, packet?, numeric?]

theorem Tracks.extend (h : Tracks lossy w l) (hi : ∀ junk, w.pos = .gap junk → b ≠ kInterrupt)
    (ht : ∀ junk data c, w.pos ≠ .trailer junk data (some c)) :
    Tracks lossy (w.plain b) (l.feed b) := by
  obtain ⟨hp, hitems⟩ := plain_extends hi ht
  obtain ⟨hout, hlast⟩ := items_extend hitems
  have hbuf : Thinned lossy (l.buf ++ [b]) (w.plain b).pos.pending :=
    hp ▸ h.buf.append (.refl lossy [b])
  have hwell := well_plain h.well b
  rw [Live.feed_stuck (thinned_stuck hwell hbuf)]
  exact ⟨hwell, hlast ▸ h.last, hbuf, hout ▸ h.out⟩

/-- A read may drop an acknowledgement character that completes nothing. -/
theorem Tracks.skip (h : Tracks lossy w l) (hl : lossy) (hb : isAck b = true)
    (ht : ∀ junk data c, w.pos ≠ .trailer junk data (some c)) : Tracks lossy (w.plain b) l := by
  have hi : ∀ junk, w.pos = .gap junk → b ≠ kInterrupt := by
    rintro junk - rfl
    exact absurd hb (by decide)
  obtain ⟨hp, hitems⟩ := plain_extends hi ht
  obtain ⟨hout, hlast⟩ := items_extend hitems
  exact ⟨well_plain h.well b, hlast ▸ h.last, hp ▸ h.buf.skip hl hb, hout ▸ h.out⟩

theorem Tracks.interrupt (h : Tracks lossy w l) (hp : w.pos = .gap []) :
    Tracks lossy (w.plain kInterrupt) (l.feed kInterrupt) := by
  obtain ⟨pos, items⟩ := w
  simp only at hp
  subst pos
  have hw : Wire.plain ⟨.gap [], items⟩ kInterrupt = ⟨.gap [], items ++ [.interrupt]⟩ := by
    simp [Wire.plain, Wire.inGap, Ne.symm leader_ne_interrupt]
  rw [Live.feed_interrupt h.buf.nil_right, hw]
  refine ⟨h.well, ?_, .nil, ?_⟩
  · simpa [lastOf, numeric?] using h.last
  · simpa [packetsOf, packet?] using h.out

/-- Every byte but the second checksum character. -/
theorem Tracks.plain (h : Tracks lossy w l) (hg : ∀ junk, w.pos = .gap junk → b = kInterrupt → junk = [])
    (ht : ∀ junk data c, w.pos ≠ .trailer junk data (some c)) :
    Tracks lossy (w.plain b) (l.feed b) := by
  by_cases hi : (∃ junk, w.pos = .gap junk) ∧ b = kInterrupt
  · obtain ⟨⟨junk, hp⟩, rfl⟩ := hi
    exact h.interrupt (hg junk hp rfl ▸ hp)
  · exact h.extend (fun junk hp hb => hi ⟨⟨junk, hp⟩, hb⟩) ht

theorem checksumValue_ack (c : UInt8) (hb : isAck b = true) : checksumValue c b = none := by
  have hplus : ∀ c : UInt8, checksumValue c 0x2b = none := by decide +kernel
  have hminus : ∀ c : UInt8, checksumValue c 0x2d = none := by decide +kernel
  simp only [isAck, Bool.or_eq_true, beq_iff_eq] at hb
  rcases hb with rfl | rfl
  · exact hplus c
  · exact hminus c

theorem Tracks.parts (h : Tracks lossy w l) (hp : w.pos = .trailer junk data (some c₁)) :
    ∃ j d cs, l.buf = j ++ kPacketLeader :: (d ++ kPacketTrailer :: cs) ∧
      Thinned lossy d data ∧ Thinned lossy cs [c₁] ∧ j.head? ≠ some kInterrupt ∧
      kPacketLeader ∉ j ∧ kPacketTrailer ∉ d := by
  have hw := h.well
  have hb := h.buf
  rw [hp] at hw hb
  obtain ⟨⟨hl, hi⟩, ht⟩ := hw
  obtain ⟨j, r, he, hj, hr⟩ := hb.split leader_kept
  obtain ⟨d, cs, rfl, hd, hcs⟩ := hr.split trailer_kept
  exact ⟨j, d, cs, he, hd, hcs, head_ne fun hm => hi (hj.subset hm), fun hm => hl (hj.subset hm),
    fun hm => ht (hd.subset hm)⟩

theorem Tracks.number (h : Tracks lossy w l) (hp : w.pos = .trailer junk data (some c₁))
    (hc : checksumValue c₁ b = some sum) (ha : data.any isAck = false) (hc₁ : isAck c₁ = false) :
    Tracks lossy (w.step b) (l.feed b) := by
  obtain ⟨j, d, cs, hbuf, hd, hcs, hh, hj, ht⟩ := h.parts hp
  have hde := hd.eq_of_clean ha
  have hce := hcs.eq_of_clean (by simp [hc₁])
  subst d cs
  rw [Live.feed_number hbuf hh hj ht hc]
  simp only [Wire.step, hp, hc]
  refine ⟨well_start, ?_, .nil, ?_⟩
  · simp [lastOf, numeric?, hc]
  · simp [packetsOf, packet?, numeric?, hc, h.out]

theorem Tracks.noNumber (h : Tracks lossy w l) (hp : w.pos = .trailer junk data (some c₁))
    (hc : checksumValue c₁ b = none) (hc₁ : isAck c₁ = false) (hlast : lastOf w = {})
    (hr : c₁ = kInterrupt ∨ c₁ = kPacketLeader ∨ b ≠ kInterrupt) :
    Tracks lossy (w.step b) (l.feed b) := by
  obtain ⟨j, d, cs, hbuf, hd, hcs, hh, hj, ht⟩ := h.parts hp
  have hce := hcs.eq_of_clean (by simp [hc₁])
  subst cs
  have hl : l.last = {} := by
    rcases h.last with he | ⟨-, he⟩
    · exact he.trans hlast
    · exact he
  rw [Live.feed_noNumber hbuf hh hj ht hc]
  simp only [Wire.step, hp, hc]
  have hdone : Tracks lossy ⟨.gap [], w.items ++ [.frame data c₁ b]⟩
      { l with buf := [], out := l.out ++ [l.last] } := by
    refine ⟨well_start, ?_, .nil, ?_⟩
    · left
      simpa [lastOf, numeric?, hc] using hl.trans hlast.symm
    · simp [packetsOf, packet?, numeric?, hc, h.out, hl]
  have hfirst := hdone.plain (b := c₁) (fun junk hg _ => by simpa using hg.symm) (by simp)
  refine hfirst.plain ?_ ?_
  · intro junk hg hb
    rw [plain_start] at hg
    rcases hr with rfl | rfl | hne
    · simpa [Ne.symm leader_ne_interrupt] using hg.symm
    · simp at hg
    · exact absurd hb hne
  · intro junk data c hg
    rw [plain_start] at hg
    split at hg
    · cases hg
    · split at hg <;> cases hg

/-- A byte that is not blurred keeps the transport and the stream together. -/
theorem Tracks.feed (h : Tracks lossy w l) (hb : blurred w b = false) :
    Tracks lossy (w.step b) (l.feed b) := by
  cases hp : w.pos with
  | gap junk =>
    have hs : w.step b = w.plain b := by simp [Wire.step, hp]
    rw [hs]
    refine h.plain ?_ (by simp [hp])
    intro junk' hg hi
    rw [hp] at hg
    cases hg
    simpa [blurred, hp, hi] using hb
  | body junk data =>
    have hs : w.step b = w.plain b := by simp [Wire.step, hp]
    rw [hs]
    exact h.plain (by simp [hp]) (by simp [hp])
  | trailer junk data first =>
    cases first with
    | none =>
      have hs : w.step b = w.plain b := by simp [Wire.step, hp]
      rw [hs]
      exact h.plain (by simp [hp]) (by simp [hp])
    | some c₁ =>
      cases hc : checksumValue c₁ b with
      | some sum =>
        simp only [blurred, hp, hc, Bool.or_eq_false_iff] at hb
        exact h.number hp hc hb.1 hb.2
      | none =>
        simp only [blurred, hp, hc, Bool.or_eq_false_iff] at hb
        obtain ⟨⟨⟨hc₁, -⟩, hlast⟩, hr⟩ := hb
        refine h.noNumber hp hc hc₁ (by simpa using hlast) ?_
        by_cases h₁ : c₁ = kInterrupt
        · exact .inl h₁
        · by_cases h₂ : c₁ = kPacketLeader
          · exact .inr (.inl h₂)
          · refine .inr (.inr ?_)
            simpa [h₁, h₂] using hr

theorem Tracks.drop (h : Tracks lossy w l) (hl : lossy) (ha : isAck b = true)
    (hb : blurred w b = false) : Tracks lossy (w.step b) l := by
  have ht : ∀ junk data c, w.pos ≠ .trailer junk data (some c) := by
    intro junk data c hp
    simp [blurred, hp, checksumValue_ack c ha, ha] at hb
  have hs : w.step b = w.plain b := by
    unfold Wire.step
    split
    · rename_i hp
      exact absurd hp (ht _ _ _)
    · rfl
  exact hs ▸ h.skip hl ha ht

theorem tracks_start (lossy : Prop) (run : Bool) : Tracks lossy {} ⟨run, {}, [], []⟩ :=
  ⟨well_start, .inl rfl, .nil, rfl⟩

theorem run_snoc (w : Wire) (p : Bytes) (b : UInt8) : w.run (p ++ [b]) = (w.run p).step b := by
  simp [Wire.run]

theorem clear_snoc (w : Wire) (p : Bytes) (b : UInt8) :
    clear w (p ++ [b]) = (clear w p && !blurred (w.run p) b) := by
  simp [clear_append, clear]

/-- A transport in the middle of a read, after the bytes `p` of all reads. -/
def Agrees (p : Bytes) (l : Live) : Prop :=
  (clear {} (strip p) = true → Tracks True (Wire.run {} (strip p)) l) ∧
    (p.all isRun = true → l.run = true)

theorem Agrees.byte (h : Agrees p l) (b : UInt8) : Agrees (p ++ [b]) (l.byte b) := by
  obtain ⟨ht, hrun⟩ := h
  by_cases hs : (l.run && isAck b) = true
  · have hl : l.byte b = l := by simp [Live.byte, hs]
    obtain ⟨hlr, ha⟩ := Bool.and_eq_true_iff.mp hs
    rw [hl]
    refine ⟨?_, fun _ => hlr⟩
    rw [strip_snoc]
    split
    · exact ht
    · intro hc
      rw [clear_snoc, Bool.and_eq_true_iff] at hc
      rw [run_snoc]
      exact (ht hc.1).drop trivial ha (by simpa using hc.2)
  · have hl : l.byte b = { l.feed b with run := l.run && b == kInterrupt } := by
      simp only [Live.byte, hs, Bool.false_eq_true, ↓reduceIte]
    have hn : ¬ (p.all isRun && isAck b) = true := by
      intro hp
      obtain ⟨hp, ha⟩ := Bool.and_eq_true_iff.mp hp
      exact hs (by simp [hrun hp, ha])
    rw [hl]
    constructor
    · rw [strip_snoc, if_neg hn]
      intro hc
      rw [clear_snoc, Bool.and_eq_true_iff] at hc
      rw [run_snoc]
      have h := (ht hc.1).feed (b := b) (by simpa using hc.2)
      exact ⟨h.well, h.last, h.buf, h.out⟩
    · intro hall
      simp only [List.all_append, List.all_cons, List.all_nil, Bool.and_true,
        Bool.and_eq_true] at hall
      have hlr := hrun hall.1
      have ha : isAck b = false := by simpa [hlr] using hs
      have hi : (b == kInterrupt) = true := by simpa [isRun, ha] using hall.2
      simp [hlr, hi]

theorem reads_tracked (hr : kPacketEscapeChar ∉ reads.flatten)
    (hc : clear {} (strip reads.flatten) = true) :
    Tracks True (Wire.run {} (strip reads.flatten)) (.ofTransport (receiveAll {} reads)) := by
  have hagrees : Agrees reads.flatten (.ofTransport (receiveAll {} reads)) := by
    refine receiveAll_invariant ?_ ?_ ?_ hr
    · exact ⟨fun _ => tracks_start True true, fun _ => rfl⟩
    · rintro p l ⟨ht, -⟩
      refine ⟨fun hc => ?_, fun _ => rfl⟩
      have h := ht hc
      exact ⟨h.well, .inr ⟨trivial, rfl⟩, h.buf, h.out⟩
    · intro p l b h
      exact h.byte b
  exact hagrees.1 hc

theorem takeWhile_cut (j x : Bytes) (c : UInt8) : (j ++ c :: x).takeWhile (· != c) ⊆ j := by
  induction j with
  | nil => simp
  | cons b j ih =>
    rw [List.cons_append, List.takeWhile_cons]
    split
    · exact List.cons_subset_cons b ih
    · exact List.nil_subset _

/-- No interrupt waits in front of the first leader. -/
theorem Tracks.timely (h : Tracks lossy w l) :
    kInterrupt ∉ l.buf.takeWhile (· != kPacketLeader) := by
  have hw := h.well
  have hb := h.buf
  cases hp : w.pos with
  | gap junk =>
    rw [hp] at hw hb
    exact fun hm => hw.2 (hb.subset ((List.takeWhile_sublist _).subset hm))
  | body junk data =>
    rw [hp] at hw hb
    obtain ⟨j, r, he, hj, -⟩ := hb.split leader_kept
    rw [he]
    exact fun hm => hw.1.2 (hj.subset (takeWhile_cut j r _ hm))
  | trailer junk data first =>
    rw [hp] at hw hb
    obtain ⟨j, r, he, hj, -⟩ := hb.split leader_kept
    rw [he]
    exact fun hm => hw.1.2 (hj.subset (takeWhile_cut j r _ hm))

def start : Live := ⟨true, {}, [], []⟩

theorem receive_fresh (hp : kPacketEscapeChar ∉ p) :
    (receive {} p).received = ((strip p).foldl Live.feed start).out ∧
      (receive {} p).unescapedReadBuffer = ((strip p).foldl Live.feed start).buf := by
  have h := receive_bytes settled_fresh hp
  rw [Live.foldl_byte p (l := .ofTransport {}) rfl] at h
  exact h

theorem whole_tracked (hc : clear {} v = true) :
    Tracks False (Wire.run {} v) (v.foldl Live.feed start) := by
  induction v using List.reverseRecOn with
  | nil => exact tracks_start False true
  | append_singleton v b ih =>
    rw [clear_snoc, Bool.and_eq_true_iff] at hc
    rw [run_snoc, List.foldl_append]
    exact (ih hc.1).feed (by simpa using hc.2)

theorem feed_out (l : Live) (b : UInt8) : l.out <+: (l.feed b).out := List.prefix_append _ _

/-- Without a number the reused packet comes next. -/
theorem noNumber_out (hbuf : l.buf = junk ++ kPacketLeader :: (data ++ kPacketTrailer :: [c₁]))
    (hh : junk.head? ≠ some kInterrupt) (hj : kPacketLeader ∉ junk) (hd : kPacketTrailer ∉ data)
    (hc : checksumValue c₁ b = none) : l.out ++ [l.last] <+: (l.feed b).out := by
  rw [Live.feed_noNumber hbuf hh hj hd hc]
  have hfirst := feed_out { l with buf := [], out := l.out ++ [l.last] } c₁
  exact hfirst.trans (feed_out _ b)

theorem Thinned.nil_of_ack (h : Thinned lossy u [c]) (hc : isAck c = true)
    (hu : u.any isAck = false) : u = [] := by
  cases h with
  | keep _ h => simp [hc] at hu
  | drop _ _ h => exact h.nil_right

/-- The transport that got every byte in a read of its own: the reused packet
is empty and no acknowledgement character is left. -/
structure Single (w : Wire) (l : Live) : Prop where
  tracks : Tracks True w l
  run : l.run = true
  last : l.last = {}
  bare : l.buf.any isAck = false

theorem Single.parts (h : Single w l) (hp : w.pos = .trailer junk data (some c₁)) :
    ∃ j d cs, l.buf = j ++ kPacketLeader :: (d ++ kPacketTrailer :: cs) ∧
      d.any isAck = false ∧ cs.any isAck = false ∧ Thinned True d data ∧ Thinned True cs [c₁] ∧
      j.head? ≠ some kInterrupt ∧ kPacketLeader ∉ j ∧ kPacketTrailer ∉ d := by
  obtain ⟨j, d, cs, hbuf, hd, hcs, hh, hj, ht⟩ := h.tracks.parts hp
  have hb := h.bare
  simp only [hbuf, List.any_append, List.any_cons, Bool.or_eq_false_iff] at hb
  exact ⟨j, d, cs, hbuf, hb.2.2.1, hb.2.2.2.2, hd, hcs, hh, hj, ht⟩

/-- With an acknowledgement for a checksum character the frame stays open. -/
theorem Single.waits (h : Single w l) (hp : w.pos = .trailer junk data (some c₁))
    (ha : isAck c₁ = true ∨ isAck b = true) : (l.byte b).out = l.out := by
  by_cases hb : isAck b = true
  · simp [Live.byte, h.run, hb]
  · obtain ⟨j, d, cs, hbuf, -, hbare, -, hcs, hh, hj, ht⟩ := h.parts hp
    have hnil := hcs.nil_of_ack (ha.resolve_right hb) hbare
    have hstuck : packets.Stuck (l.buf ++ [b]) := by
      have hs : packets.Stuck (j ++ kPacketLeader :: (d ++ kPacketTrailer :: [b])) :=
        stuck_short hh hj ht (by simp)
      simpa [hbuf, hnil] using hs
    simp [Live.byte, hb, Live.feed_stuck hstuck]

/-- Otherwise it gives up its packet like any other. -/
theorem Single.frame (h : Single w l) (hp : w.pos = .trailer junk data (some c₁))
    (hc₁ : isAck c₁ = false) (hb : isAck b = false) :
    ∃ d, d.any isAck = false ∧
      (∀ sum, checksumValue c₁ b = some sum → (l.byte b).out = l.out ++ [ofFrame d sum]) ∧
      (checksumValue c₁ b = none → l.out ++ [({} : GDBPacket)] <+: (l.byte b).out) := by
  obtain ⟨j, d, cs, hbuf, hbare, -, -, hcs, hh, hj, ht⟩ := h.parts hp
  have hce := hcs.eq_of_clean (by simp [hc₁])
  subst cs
  have hbyte : (l.byte b).out = (l.feed b).out := by simp [Live.byte, hb]
  refine ⟨d, hbare, ?_, ?_⟩
  · intro sum hc
    rw [hbyte, Live.feed_number hbuf hh hj ht hc]
  · intro hc
    rw [hbyte, ← h.last]
    exact noNumber_out hbuf hh hj ht hc

theorem append_ne_self {a : List α} (h : a ++ [x] <+: c) : a ≠ c := by
  rintro rfl
  have := h.length_le
  simp at this

theorem prefix_last_eq {a : List α} (hx : a ++ [x] <+: c) (hy : a ++ [y] <+: c) : x = y := by
  have h := List.prefix_of_prefix_length_le hx hy (by simp)
  simpa using h.eq_of_length (by simp)

/-- Filler in front of an interrupt keeps it waiting. -/
theorem waiting_interrupt (hne : u ≠ []) (hl : kPacketLeader ∉ u) (hi : kInterrupt ∉ u) :
    packets.Stuck (u ++ [kInterrupt]) ∧
      kInterrupt ∈ (u ++ [kInterrupt]).takeWhile (· != kPacketLeader) := by
  have hn : kPacketLeader ∉ u ++ [kInterrupt] := by
    simp only [List.mem_append, List.mem_singleton, not_or]
    exact ⟨hl, leader_ne_interrupt⟩
  constructor
  · apply stuck_noLeader _ hn
    cases u with
    | nil => exact absurd rfl hne
    | cons x u =>
      intro he
      exact hi (by simp at he; simp [he])
  · have ht : (u ++ [kInterrupt]).takeWhile (· != kPacketLeader) = u ++ [kInterrupt] := by
      apply List.takeWhile_eq_self_iff.mpr
      intro x hx
      have hxl : x ≠ kPacketLeader := fun he => hn (he ▸ hx)
      simpa using hxl
    rw [ht]
    simp

/-- At a blurred byte one read of everything keeps an interrupt waiting, or it
hands over other packets than single-byte reads do. -/
theorem blurred_differs {lw ls : Live} (hw : Tracks False w lw) (hs : Single w ls)
    (hb : blurred w b = true) :
    kInterrupt ∈ (lw.feed b).buf.takeWhile (· != kPacketLeader) ∨
      (ls.byte b).out ≠ (lw.feed b).out := by
  have hout : ls.out = lw.out := hs.tracks.out.trans hw.out.symm
  cases hp : w.pos with
  | gap junk =>
    left
    simp only [blurred, hp, Bool.and_eq_true, beq_iff_eq, bne_iff_ne] at hb
    obtain ⟨rfl, hne⟩ := hb
    have hwell := hw.well
    have hbuf := hw.buf.eq_of_lossless
    rw [hp] at hwell hbuf
    obtain ⟨hstuck, hmem⟩ := waiting_interrupt hne hwell.1 hwell.2
    change lw.buf = junk at hbuf
    rw [← hbuf] at hstuck hmem
    rw [Live.feed_stuck hstuck]
    exact hmem
  | body junk data => simp [blurred, hp] at hb
  | trailer junk data first =>
    cases first with
    | none => simp [blurred, hp] at hb
    | some c₁ =>
      obtain ⟨j, d, cs, hbuf, hd, hcs, hh, hj, ht⟩ := hw.parts hp
      have hde := hd.eq_of_lossless
      have hce := hcs.eq_of_lossless
      subst d cs
      cases hc : checksumValue c₁ b with
      | some sum =>
        right
        have hbn : isAck b = false := by
          by_contra ha
          simp [checksumValue_ack c₁ (by simpa using ha)] at hc
        rw [Live.feed_number hbuf hh hj ht hc]
        by_cases ha : isAck c₁ = true
        · rw [hs.waits hp (.inl ha), hout]
          exact append_ne_self (List.prefix_refl _)
        · have hdata : data.any isAck = true := by simpa [blurred, hp, hc, ha] using hb
          obtain ⟨d, hd, hnum, -⟩ := hs.frame hp (by simpa using ha) hbn
          rw [hnum sum hc, hout]
          intro he
          have hpk : ofFrame d sum = ofFrame data sum := by simpa using he
          have hdd : d = data := congrArg GDBPacket.data hpk
          simp [hdd, hdata] at hd
      | none =>
        have hlw : lw.last = lastOf w := hw.last.resolve_right (fun h => h.1)
        have hpre := noNumber_out hbuf hh hj ht hc
        by_cases ha : isAck c₁ = true ∨ isAck b = true
        · right
          rw [hs.waits hp ha, hout]
          exact append_ne_self hpre
        · simp only [not_or, Bool.not_eq_true] at ha
          by_cases hlast : lw.last = {}
          · left
            have hlo : lastOf w = {} := hlw ▸ hlast
            simp only [blurred, hp, hc, ha.1, ha.2, hlo, bne_self_eq_false, Bool.or_false,
              Bool.false_or, Bool.and_eq_true, bne_iff_ne, beq_iff_eq] at hb
            obtain ⟨⟨hci, hcl⟩, rfl⟩ := hb
            have hl : kPacketLeader ∉ [c₁] := by simpa using Ne.symm hcl
            have hi : kInterrupt ∉ [c₁] := by simpa using Ne.symm hci
            obtain ⟨hstuck, hmem⟩ := waiting_interrupt (by simp) hl hi
            have hone : packets.Stuck [c₁] := stuck_noLeader (head_ne hi) hl
            have hfirst := Live.feed_stuck (b := c₁)
              (l := { lw with buf := [], out := lw.out ++ [lw.last] }) (by simpa using hone)
            rw [Live.feed_noNumber hbuf hh hj ht hc, hfirst, Live.feed_stuck (by simpa using hstuck)]
            simpa using hmem
          · right
            obtain ⟨d, -, -, hnone⟩ := hs.frame hp ha.1 ha.2
            intro he
            have hsingle := hnone hc
            rw [he, hout] at hsingle
            exact hlast (prefix_last_eq hpre hsingle)

theorem drain_rest_suffix (last : GDBPacket) (u : Bytes) : (packets.drain last u).rest <:+ u := by
  induction last, u using packets.drain_induction with
  | none last u h => simp [Extractor.drain_none h]
  | some last u e h ih =>
    rw [Extractor.drain_some h]
    exact ih.trans (List.drop_suffix _ _)

theorem flatten_single (p : Bytes) : (p.map fun b => [b]).flatten = p := by
  induction p with
  | nil => rfl
  | cons b p ih => simp [ih]

theorem receiveAll_single (p : Bytes) (b : UInt8) (hp : kPacketEscapeChar ∉ p ++ [b]) :
    Live.ofTransport (receiveAll {} ((p ++ [b]).map fun b => [b])) =
      let l := (Live.ofTransport (receiveAll {} (p.map fun b => [b]))).byte b
      ⟨true, {}, l.buf, l.out⟩ := by
  simp only [List.mem_append, not_or] at hp
  have hsettled : Settled (receiveAll {} (p.map fun b => [b])) :=
    settled_fresh.receiveAll (by rw [flatten_single]; exact hp.1)
  obtain ⟨hout, hbuf⟩ := receive_bytes hsettled hp.2
  rw [List.map_append, receiveAll_append]
  change Live.ofTransport (receive _ [b]) = _
  rw [Live.ofTransport, hout, hbuf]
  rfl

theorem single_bare {p : Bytes} (hp : kPacketEscapeChar ∉ p) :
    (Live.ofTransport (receiveAll {} (p.map fun b => [b]))).buf.any isAck = false := by
  induction p using List.reverseRecOn with
  | nil => rfl
  | append_singleton p b ih =>
    have hih := ih (fun hm => hp (List.mem_append_left _ hm))
    rw [receiveAll_single p b hp]
    by_cases hb : isAck b = true
    · simpa [Live.byte, hb, Live.ofTransport] using hih
    · apply List.any_eq_false.mpr
      intro x hx
      have hm : x ∈ (Live.ofTransport (receiveAll {} (p.map fun b => [b]))).buf ++ [b] := by
        simp only [Live.byte, hb, Bool.and_false, Bool.false_eq_true, ↓reduceIte, Live.feed] at hx
        exact (drain_rest_suffix _ _).subset hx
      rcases List.mem_append.mp hm with hm | hm
      · exact List.any_eq_false.mp hih x hm
      · rw [List.mem_singleton.mp hm]
        exact hb

theorem not_splitSafe_of_blurred (hp : kPacketEscapeChar ∉ p ++ [b])
    (hc : clear {} (strip p) = true) (hs : strip (p ++ [b]) = strip p ++ [b])
    (hb : blurred (Wire.run {} (strip p)) b = true) : ¬ SplitSafe (p ++ [b]) := by
  intro h
  have hpp : kPacketEscapeChar ∉ p := fun hm => hp (List.mem_append_left _ hm)
  have hsingle : Single (Wire.run {} (strip p))
      (.ofTransport (receiveAll {} (p.map fun b => [b]))) := by
    have he := flatten_single p
    have ht := reads_tracked (he.symm ▸ hpp) (he.symm ▸ hc)
    rw [he] at ht
    exact ⟨ht, rfl, rfl, single_bare hpp⟩
  have hwhole := receive_fresh hp
  rw [hs, List.foldl_append] at hwhole
  rcases blurred_differs (whole_tracked hc) hsingle hb with hwait | hdiffer
  · have h₁ := (h [p ++ [b]] (by simp)).2
    change kInterrupt ∉ (receive {} (p ++ [b])).unescapedReadBuffer.takeWhile _ at h₁
    rw [hwhole.2] at h₁
    exact h₁ hwait
  · have h₂ := (h ((p ++ [b]).map fun b => [b]) (by rw [flatten_single])).1
    rw [flatten_single, hwhole.1] at h₂
    apply hdiffer
    have hl := congrArg Live.out (receiveAll_single p b hp)
    exact hl.symm.trans h₂

/-- The packets do not depend on the reads, and no interrupt waits, exactly
for the streams without a blurred byte. -/
theorem splitSafe_iff (hs : kPacketEscapeChar ∉ s) :
    SplitSafe s ↔ clear {} (strip s) = true := by
  constructor
  · intro h
    have hpre : ∀ p, p <+: s → clear {} (strip p) = true := by
      intro p
      induction p using List.reverseRecOn with
      | nil => exact fun _ => rfl
      | append_singleton p b ih =>
        intro hp
        have hc := ih ((List.prefix_append _ _).trans hp)
        by_cases hn : (p.all isRun && isAck b) = true
        · rw [strip_snoc, if_pos hn]
          exact hc
        · have he : strip (p ++ [b]) = strip p ++ [b] := by rw [strip_snoc, if_neg hn]
          rw [he, clear_snoc, hc, Bool.true_and, Bool.not_eq_true']
          by_contra hb
          refine not_splitSafe_of_blurred (fun hm => hs (hp.subset hm)) hc he (by simpa using hb) ?_
          exact fun reads hr => h reads (hr.trans hp)
    exact hpre s (List.prefix_refl s)
  · intro hc reads hr
    have hread : kPacketEscapeChar ∉ reads.flatten := fun hm => hs (hr.subset hm)
    have hclear : clear {} (strip reads.flatten) = true := by
      obtain ⟨q, rfl⟩ := hr
      obtain ⟨v, hv⟩ := strip_append reads.flatten q
      rw [← hv, clear_append, Bool.and_eq_true_iff] at hc
      exact hc.1
    have ht := reads_tracked hread hclear
    refine ⟨?_, ht.timely⟩
    rw [(receive_fresh hread).1, (whole_tracked hclear).out]
    exact ht.out

/-- Two frames with interrupts around them, behind an acknowledgement. -/
theorem splitSafe_two_frames : SplitSafe (ascii "+\x03$g#67\x03$m0,1#fa") :=
  (splitSafe_iff (by decide)).mpr (by decide)

/-- Behind a frame an acknowledgement in the same read hides the interrupt that
follows it. -/
theorem not_splitSafe_ack_interrupt :
    kPacketEscapeChar ∉ ascii "$g#67+\x03" ∧ ¬ SplitSafe (ascii "$g#67+\x03") := by
  refine ⟨by decide, fun h => ?_⟩
  have hcut := (h [ascii "$g#67", ascii "+\x03"] (by decide)).1
  exact absurd hcut (by decide)

end XbdmGdbBridge.Proofs.Fragmentation
