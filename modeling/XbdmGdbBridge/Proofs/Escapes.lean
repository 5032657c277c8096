import XbdmGdbBridge.Proofs.RoundTrip

/-!
# Escape pairs

How many bytes `UnescapeBuffer` reports as decoded, and what the escapes of `Serialize` do to the
checksum of a frame.
-/

namespace XbdmGdbBridge.Proofs.Escapes
open Gdb Gdb.GDBPacket Gdb.GDBTransport RoundTrip CText

section Decoding

/-- A text of whole escape pairs and plain bytes, and what it stands for. -/
inductive Decodes : Bytes → Bytes → Prop where
  | nil : Decodes [] []
  | plain {b : UInt8} {s out : Bytes} (hb : b ≠ kPacketEscapeChar) (h : Decodes s out) :
      Decodes (b :: s) (b :: out)
  | pair {s out : Bytes} (x : UInt8) (h : Decodes s out) :
      Decodes (kPacketEscapeChar :: x :: s) ((x ^^^ 0x20) :: out)

/-- The bytes reported as consumed are those that were decoded behind the bytes already there, all
but an escape character at the end, and `ShiftReadBuffer` leaves only that one. -/
def DecodesConsumed (buffer before : Bytes) : Prop :=
  let (count, out) := unescapeBuffer buffer
  (∃ decoded, Decodes (buffer.take count) decoded ∧ before ++ out = before ++ decoded) ∧
    (buffer.drop count = [] ∨ buffer.drop count = [kPacketEscapeChar]) ∧
    ∀ t : GDBTransport, t.readBuffer = buffer → (t.shiftReadBuffer count).readBuffer = buffer.drop count

theorem shiftReadBuffer_readBuffer (t : GDBTransport) {count : Nat}
    (h : count ≤ t.readBuffer.length) :
    (t.shiftReadBuffer count).readBuffer = t.readBuffer.drop count := by
  have hle := Nat.not_lt.mpr h
  simp only [shiftReadBuffer, gt_iff_lt, hle, if_false]

/-- A pair leaves two bytes uncounted. -/
theorem unescapeBuffer_pair {s : Bytes} (h : kPacketEscapeChar ∈ s.dropLast) :
    (unescapeBuffer s).1 + 2 ≤ s.length := by
  induction s using unescapeBuffer.induct with
  | case1 => simp at h
  | case2 => simp at h
  | case3 b hb => simp at h
  | case4 x rest count out hu ih =>
    have hshort := (unescapeBuffer_short rest).1
    simp only [hu] at hshort
    simp only [unescapeBuffer, ↓reduceIte, hu, List.length_cons]
    omega
  | case5 b x rest hb count out hu ih =>
    have hn : kPacketEscapeChar ≠ b := fun he => hb he.symm
    rw [List.dropLast_cons_of_ne_nil (by simp)] at h
    have hrest := ih ((List.mem_cons.mp h).resolve_left hn)
    simp only [hu] at hrest
    simp only [unescapeBuffer, hb, ↓reduceIte, hu, List.length_cons] at hrest ⊢
    omega

/-- Without a pair everything is counted, up to an escape character at the end. -/
theorem unescapeBuffer_plain {s : Bytes} (h : kPacketEscapeChar ∉ s.dropLast) :
    Decodes (s.take (unescapeBuffer s).1) (unescapeBuffer s).2 ∧
      (s.drop (unescapeBuffer s).1 = [] ∨ s.drop (unescapeBuffer s).1 = [kPacketEscapeChar]) := by
  induction s using unescapeBuffer.induct with
  | case1 => exact ⟨.nil, .inl rfl⟩
  | case2 => exact ⟨.nil, .inr rfl⟩
  | case3 b hb =>
    simp only [unescapeBuffer, hb, ↓reduceIte, List.take_succ_cons, List.take_nil,
      List.drop_succ_cons, List.drop_nil]
    exact ⟨.plain hb .nil, .inl trivial⟩
  | case4 x rest count out hu ih =>
    rw [List.dropLast_cons_of_ne_nil (by simp)] at h
    exact absurd List.mem_cons_self h
  | case5 b x rest hb count out hu ih =>
    rw [List.dropLast_cons_of_ne_nil (by simp)] at h
    have hrest := ih fun hm => h (List.mem_cons_of_mem _ hm)
    simp only [hu] at hrest
    simp only [unescapeBuffer, hb, ↓reduceIte, hu, List.take_succ_cons, List.drop_succ_cons]
    exact ⟨.plain hb hrest.1, hrest.2⟩

/-- Exactly what was decoded is reported as consumed if no byte stands behind an escape character. -/
theorem decodesConsumed_iff (buffer before : Bytes) :
    DecodesConsumed buffer before ↔ kPacketEscapeChar ∉ buffer.dropLast := by
  constructor
  · rintro ⟨-, hdrop, -⟩ hm
    have hpair := unescapeBuffer_pair hm
    have hlength : (buffer.drop (unescapeBuffer buffer).1).length ≤ 1 := by
      obtain hdrop | hdrop := hdrop
      · simp [hdrop]
      · simp [hdrop]
    rw [List.length_drop] at hlength
    omega
  · intro h
    obtain ⟨hdecodes, hdrop⟩ := unescapeBuffer_plain h
    refine ⟨⟨_, hdecodes, rfl⟩, hdrop, ?_⟩
    rintro t rfl
    exact shiftReadBuffer_readBuffer t (unescapeBuffer_short _).1

/-- An escape pair is decoded, and is in front of the read buffer again after the shift. -/
theorem not_decodesConsumed_pair :
    ¬DecodesConsumed [kPacketEscapeChar, 0x5d] [] ∧
      unescapeBuffer [kPacketEscapeChar, 0x5d] = (0, [kPacketEscapeChar]) ∧
      (shiftReadBuffer { readBuffer := [kPacketEscapeChar, 0x5d] }
        (unescapeBuffer [kPacketEscapeChar, 0x5d]).1).readBuffer = [kPacketEscapeChar, 0x5d] := by
  refine ⟨?_, by decide, by decide⟩
  rintro ⟨-, hdrop, -⟩
  revert hdrop
  decide

end Decoding

section Checksums

/-- The sum of the bytes modulo 256, as a peer computes it. -/
def peerChecksum (body : Bytes) : UInt8 :=
  UInt8.ofNat (body.map UInt8.toNat).sum

/-- A frame as a peer checks it: what is transmitted between the leader and the first trailer adds up
to the two digits behind it. -/
def ValidFrame (bytes : Bytes) : Prop :=
  ∃ body, kPacketLeader ∉ body ∧ kPacketTrailer ∉ body ∧
    bytes = kPacketLeader :: (body ++ kPacketTrailer :: hexByte (peerChecksum body))

theorem foldl_checksum (body : Bytes) (sum : UInt8) :
    body.foldl (fun ret b => ret + b) sum = sum + peerChecksum body := by
  induction body generalizing sum with
  | nil => simp [peerChecksum]
  | cons b body ih =>
    simp only [List.foldl_cons, ih, peerChecksum, List.map_cons, List.sum_cons, UInt8.ofNat_add,
      UInt8.ofNat_toNat, UInt8.add_assoc]

theorem mod256Checksum_eq (body : Bytes) : mod256Checksum body = peerChecksum body := by
  rw [mod256Checksum, foldl_checksum, UInt8.zero_add]

theorem peerChecksum_append (a b : Bytes) :
    peerChecksum (a ++ b) = peerChecksum a + peerChecksum b := by
  simp only [peerChecksum, List.map_append, List.sum_append, UInt8.ofNat_add]

theorem mem_kEscapeCharacterSet {b : UInt8} : b ∈ kEscapeCharacterSet ↔
    b = kPacketEscapeChar ∨ b = kPacketLeader ∨ b = kPacketTrailer := by
  simp [kEscapeCharacterSet]

/-- What the serializer puts for one byte of the payload. -/
theorem escapeBuffer_cons (b : UInt8) (d : Bytes) :
    escapeBuffer (b :: d) =
      (if b ∈ kEscapeCharacterSet then [kPacketEscapeChar, b ^^^ 0x20] else [b]) ++ escapeBuffer d :=
  List.flatMap_cons

/-- Each escaped byte adds 93 to the sum, whichever of the three it is. -/
theorem peerChecksum_escapeBuffer (d : Bytes) :
    peerChecksum (escapeBuffer d) =
      peerChecksum d + 93 * UInt8.ofNat (d.countP (· ∈ kEscapeCharacterSet)) := by
  have hescaped : ∀ b ∈ kEscapeCharacterSet,
      peerChecksum [kPacketEscapeChar, b ^^^ 0x20] = peerChecksum [b] + 93 := by
    intro b hb
    obtain rfl | rfl | rfl := mem_kEscapeCharacterSet.mp hb
    · decide
    · decide
    · decide
  induction d with
  | nil => rfl
  | cons b d ih =>
    have hcons : peerChecksum (b :: d) = peerChecksum [b] + peerChecksum d :=
      peerChecksum_append [b] d
    rw [escapeBuffer_cons, peerChecksum_append, ih, hcons, List.countP_cons]
    by_cases hb : b ∈ kEscapeCharacterSet
    · simp only [hb, if_true, decide_true, hescaped b hb, UInt8.ofNat_add]
      have hone : UInt8.ofNat 1 = 1 := rfl
      rw [hone, UInt8.mul_add, UInt8.mul_one]
      ac_rfl
    · simp only [hb, if_false, decide_false, Bool.false_eq_true, Nat.add_zero]
      ac_rfl

theorem notMem_escapeBuffer {c : UInt8} (hc : c = kPacketLeader ∨ c = kPacketTrailer) (d : Bytes) :
    c ∉ escapeBuffer d := by
  intro hm
  obtain ⟨b, -, hb⟩ := List.mem_flatMap.mp hm
  by_cases hset : b ∈ kEscapeCharacterSet
  · rw [if_pos hset] at hb
    revert hb
    obtain rfl | rfl := hc
    · obtain rfl | rfl | rfl := mem_kEscapeCharacterSet.mp hset
      all_goals decide
    · obtain rfl | rfl | rfl := mem_kEscapeCharacterSet.mp hset
      all_goals decide
  · rw [if_neg hset] at hb
    obtain rfl := List.mem_singleton.mp hb
    exact hset (mem_kEscapeCharacterSet.mpr (.inr hc))

theorem body_unique {a b s t : Bytes} (ha : kPacketTrailer ∉ a) (hb : kPacketTrailer ∉ b)
    (h : a ++ kPacketTrailer :: s = b ++ kPacketTrailer :: t) : a = b ∧ s = t := by
  induction a generalizing b with
  | nil =>
    cases b with
    | nil => exact ⟨rfl, (List.cons.inj h).2⟩
    | cons c b => exact absurd (List.cons.inj h).1 fun he => hb (he ▸ List.mem_cons_self)
  | cons c a ih =>
    cases b with
    | nil => exact absurd (List.cons.inj h).1 fun he => ha (he ▸ List.mem_cons_self)
    | cons e b =>
      obtain ⟨rfl, hrest⟩ := List.cons.inj h
      obtain ⟨rfl, hs⟩ := ih (fun hm => ha (List.mem_cons_of_mem _ hm))
        (fun hm => hb (List.mem_cons_of_mem _ hm)) hrest
      exact ⟨rfl, hs⟩

theorem hexByte_injective {a b : UInt8} (h : hexByte a = hexByte b) : a = b := by
  simp only [hexByte, List.cons.injEq, and_true] at h
  have hvalue := checksumValue_hexByte a
  rw [h.1, h.2, checksumValue_hexByte b] at hvalue
  exact UInt8.toNat_inj.mp (Int.ofNat.inj (Option.some.inj hvalue)).symm

theorem mul_93_eq_zero_iff (n : Nat) : 93 * UInt8.ofNat n = 0 ↔ 256 ∣ n := by
  rw [← UInt8.toNat_inj, UInt8.toNat_mul, UInt8.toNat_ofNat']
  change 93 * (n % 2 ^ 8) % 2 ^ 8 = 0 ↔ 256 ∣ n
  omega

/-- The digits are those of the payload, and the peer sums up the escaped body. -/
theorem validFrame_serialize_iff (d : Bytes) :
    ValidFrame (ofData d).serialize ↔ peerChecksum d = peerChecksum (escapeBuffer d) := by
  have hleader : kPacketLeader ∉ escapeBuffer d := notMem_escapeBuffer (.inl rfl) d
  have htrailer : kPacketTrailer ∉ escapeBuffer d := notMem_escapeBuffer (.inr rfl) d
  have hserialize : (ofData d).serialize =
      kPacketLeader :: (escapeBuffer d ++ kPacketTrailer :: hexByte (peerChecksum d)) := by
    rw [← mod256Checksum_eq]
    rfl
  rw [hserialize]
  constructor
  · rintro ⟨body, -, hbody, hframe⟩
    obtain ⟨rfl, hdigits⟩ := body_unique htrailer hbody (List.cons.inj hframe).2
    exact hexByte_injective hdigits
  · intro h
    exact ⟨escapeBuffer d, hleader, htrailer, by rw [h]⟩

/-- The checksum of a serialized packet is that of the bytes on the wire for exactly the payloads
whose escaped bytes are a multiple of 256 in number. -/
theorem serialize_validFrame_iff (d : Bytes) :
    ValidFrame (ofData d).serialize ↔ 256 ∣ d.countP (· ∈ kEscapeCharacterSet) := by
  rw [validFrame_serialize_iff, peerChecksum_escapeBuffer, UInt8.left_eq_add, mul_93_eq_zero_iff]

/-- `#` is sent as `}` and 0x03, with the checksum of the single byte. -/
theorem not_validFrame_trailer :
    (ofData [kPacketTrailer]).serialize =
        [kPacketLeader, kPacketEscapeChar, 0x03, kPacketTrailer] ++ ascii "23" ∧
      peerChecksum [kPacketEscapeChar, 0x03] = 0x80 ∧
      ¬ValidFrame (ofData [kPacketTrailer]).serialize := by
  refine ⟨by decide, by decide, ?_⟩
  rw [validFrame_serialize_iff]
  decide

end Checksums

end XbdmGdbBridge.Proofs.Escapes
