import XbdmGdbBridge.Proofs.Reads

namespace XbdmGdbBridge.Proofs.RoundTrip
open Gdb Gdb.GDBPacket Gdb.GDBTransport Lib Frames Reads CText

/-- A fresh transport that reads a serialized packet hands over exactly that
packet and keeps nothing back. -/
def RoundTrips (d : Bytes) : Prop :=
  let t := ({} : GDBTransport).receive (ofData d).serialize
  (∃ p, t.received = [p] ∧ p.data = d ∧ p.checksumOk = true) ∧
    t.readBuffer = [] ∧ t.unescapedReadBuffer = []

theorem checksumValue_hexByte (b : UInt8) :
    checksumValue (hexDigit (b.toNat / 16)) (hexDigit (b.toNat % 16)) = some (b.toNat : Int) := by
  have hb := b.toNat_lt
  have hd : b.toNat / 16 < 16 := by omega
  have hm : b.toNat % 16 < 16 := by omega
  rw [checksumValue_digits (isDigit_hexDigit hd) (isDigit_hexDigit hm), numeral_hexDigits hd hm]
  congr 2
  omega

theorem escapeBuffer_plain (h : ∀ b ∈ d, b ∉ kEscapeCharacterSet) : escapeBuffer d = d := by
  induction d with
  | nil => rfl
  | cons b d ih =>
    have hb := h b List.mem_cons_self
    have hd := ih (fun x hx => h x (List.mem_cons_of_mem _ hx))
    simp only [escapeBuffer] at hd
    simp [escapeBuffer, hb, hd]

theorem escapeBuffer_escapes (hb : b ∈ d) (he : b ∈ kEscapeCharacterSet) :
    kPacketEscapeChar ∈ escapeBuffer d := by
  refine List.mem_flatMap.mpr ⟨b, hb, ?_⟩
  simp [he]

/-- The bytes of an escape pair are decoded but not reported as consumed. -/
theorem unescapeBuffer_short (s : Bytes) :
    (unescapeBuffer s).1 ≤ s.length ∧
      (kPacketEscapeChar ∈ s → (unescapeBuffer s).1 < s.length) := by
  induction s using unescapeBuffer.induct with
  | case1 => simp [unescapeBuffer]
  | case2 => simp [unescapeBuffer]
  | case3 b hb =>
    have hn : kPacketEscapeChar ≠ b := fun he => hb he.symm
    simp [unescapeBuffer, hb, hn]
  | case4 x rest count out hu ih =>
    simp only [hu] at ih
    simp only [unescapeBuffer, ↓reduceIte, hu, List.length_cons]
    omega
  | case5 b x rest hb count out hu ih =>
    have hn : kPacketEscapeChar ≠ b := fun he => hb he.symm
    simp only [hu, List.length_cons] at ih
    simp only [unescapeBuffer, hb, ↓reduceIte, hu, List.length_cons]
    refine ⟨by omega, fun hm => ?_⟩
    have hr := ih.2 ((List.mem_cons.mp hm).resolve_left hn)
    omega

theorem serialize_plain (h : ∀ b ∈ d, b ∉ kEscapeCharacterSet) :
    (ofData d).serialize = kPacketLeader :: (d ++ kPacketTrailer ::
      hexDigit ((mod256Checksum d).toNat / 16) :: hexDigit ((mod256Checksum d).toNat % 16) :: []) := by
  simp [serialize, ofData, escapeBuffer_plain h, hexByte]

theorem receive_serialize_plain (h : ∀ b ∈ d, b ∉ kEscapeCharacterSet) :
    let t := ({} : GDBTransport).receive (ofData d).serialize
    t.received = [ofFrame d (mod256Checksum d).toNat] ∧ t.readBuffer = [] ∧
      t.unescapedReadBuffer = [] := by
  have hno : kPacketEscapeChar ∉ (ofData d).serialize := by
    have hx : ∀ n < 16, kPacketEscapeChar ≠ hexDigit n := by decide
    have hsum := (mod256Checksum d).toNat_lt
    have hd : kPacketEscapeChar ∉ d := fun hm => h _ hm (by decide)
    have hl : kPacketEscapeChar ≠ kPacketLeader := by decide
    have ht : kPacketEscapeChar ≠ kPacketTrailer := by decide
    simp only [serialize_plain h, List.mem_cons, List.mem_append, List.not_mem_nil, or_false,
      not_or]
    exact ⟨hl, hd, ht, hx _ (by omega), hx _ (by omega)⟩
  have htr : kPacketTrailer ∉ d := fun hm => h _ hm (by decide)
  have hs : strip (ofData d).serialize = (ofData d).serialize := strip_other (by decide)
  have hn : packets.next {} (ofData d).serialize =
      some ⟨d.length + 4, ofFrame d (mod256Checksum d).toNat, ofFrame d (mod256Checksum d).toNat⟩ := by
    have hnil : ([] : Bytes).head? ≠ some kInterrupt := by simp
    have hf := nextPacket_frame {} (hexDigit ((mod256Checksum d).toNat / 16))
      (hexDigit ((mod256Checksum d).toNat % 16)) [] hnil List.not_mem_nil htr
    rw [checksumValue_hexByte] at hf
    simpa [serialize_plain h] using hf
  have hl : (ofData d).serialize.drop (d.length + 4) = [] := by
    apply List.drop_eq_nil_of_le
    simp [serialize_plain h]
  rw [receive_plain settled_fresh hno]
  simp only [hs, List.nil_append, Extractor.drain_some hn, hl]
  refine ⟨rfl, ?_, rfl⟩
  trivial

theorem receive_readBuffer (hb : isRun b = false) (s : Bytes) :
    (({} : GDBTransport).receive (b :: s)).readBuffer =
      (b :: s).drop (unescapeBuffer (b :: s)).1 := by
  have hle := Nat.not_lt.mpr (unescapeBuffer_short (b :: s)).1
  simp only [receive, List.nil_append, onBytesRead, leadingRun_spec, List.takeWhile_cons, hb,
    Bool.false_eq_true, ↓reduceIte, List.length_nil, shiftReadBuffer, gt_iff_lt, Nat.not_lt_zero,
    List.drop_zero, hle]
  split
  · rfl
  · rfl

/-- A payload that needs escaping leaves bytes behind in the read buffer. -/
theorem receive_serialize_escaped (hb : b ∈ d) (he : b ∈ kEscapeCharacterSet) :
    (({} : GDBTransport).receive (ofData d).serialize).readBuffer ≠ [] := by
  have hm : kPacketEscapeChar ∈ (ofData d).serialize :=
    List.mem_cons_of_mem _ (List.mem_append_left _ (escapeBuffer_escapes hb he))
  have hlt := (unescapeBuffer_short (ofData d).serialize).2 hm
  have hr : (({} : GDBTransport).receive (ofData d).serialize).readBuffer =
      (ofData d).serialize.drop (unescapeBuffer (ofData d).serialize).1 :=
    receive_readBuffer (by decide) _
  rw [hr]
  intro hnil
  have hle := List.drop_eq_nil_iff.mp hnil
  omega

/-- The round trip works for exactly the payloads without a character that the
serializer escapes. -/
theorem roundTrips_iff (d : Bytes) :
    RoundTrips d ↔ kPacketEscapeChar ∉ d ∧ kPacketLeader ∉ d ∧ kPacketTrailer ∉ d := by
  constructor
  · rintro ⟨-, hempty, -⟩
    refine ⟨?_, ?_, ?_⟩
    · exact fun hm => receive_serialize_escaped hm (by decide) hempty
    · exact fun hm => receive_serialize_escaped hm (by decide) hempty
    · exact fun hm => receive_serialize_escaped hm (by decide) hempty
  · rintro ⟨he, hl, ht⟩
    have h : ∀ b ∈ d, b ∉ kEscapeCharacterSet := by
      intro b hb hm
      simp only [kEscapeCharacterSet, List.mem_cons, List.not_mem_nil, or_false] at hm
      rcases hm with rfl | rfl | rfl
      · exact he hb
      · exact hl hb
      · exact ht hb
    obtain ⟨hr, hread, hun⟩ := receive_serialize_plain h
    exact ⟨⟨_, hr, rfl, by simp [ofFrame]⟩, hread, hun⟩

/-- The payload with a single escape character is handed over, but two bytes of its frame
stay in the read buffer and are read again with the next packet. -/
theorem not_roundTrips_escape : ¬ RoundTrips [kPacketEscapeChar] := by
  intro h
  exact absurd h.2.1 (by decide)

end XbdmGdbBridge.Proofs.RoundTrip
