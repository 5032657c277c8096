import XbdmGdbBridge.Dyndxt.Loader
import XbdmGdbBridge.Proofs.HandlerFaults
import XbdmGdbBridge.Rdcp.Request

/-!
# Memory writes

GDB's two write packets, and the two functions that turn a write into `setmem` requests.
-/

namespace XbdmGdbBridge.Proofs

open Lib Program CText GDBBridge

section Packets

variable {σ : Type}

/-- A write packet: `M` carries the data in hexadecimal, `X` as it is. -/
def writePacket (command : UInt8) (address : UInt32) (length : Nat) (payload : Bytes) : Bytes :=
  command :: (hexText address.toNat ++ byte ',' :: (hexText length ++ byte ':' :: payload))

def hexPacket (address : UInt32) (data : Bytes) : Bytes :=
  writePacket (byte 'M') address data.length (hexEncode data)

def binaryPacket (address : UInt32) (data : Bytes) : Bytes :=
  writePacket (byte 'X') address data.length data

theorem not_mem_hexText {c : UInt8} (hc : isDigit 16 c = false) (n : Nat) : c ∉ hexText n := by
  intro hm
  rw [hexDigits_hexText n c hm] at hc
  cases hc

theorem writeParts_packet (address : UInt32) (length : Nat) (payload : Bytes) :
    WriteParts (hexText address.toNat ++ byte ',' :: (hexText length ++ byte ':' :: payload))
      (hexText address.toNat) (hexText length) payload := by
  have hcomma : isDigit 16 (byte ',') = false := by decide
  have hcolon : isDigit 16 (byte ':') = false := by decide
  exact ⟨⟨_, ⟨rfl, not_mem_hexText hcomma _⟩, ⟨rfl, not_mem_hexText hcolon _⟩⟩,
    not_mem_hexText hcolon _⟩

/-- The header is read back, whatever the payload: separators in it come later. -/
theorem handleWrite_packet (store : UInt32 → UInt32 → Bytes → Handler σ Unit) {command : UInt8}
    (hc : command ≠ byte ',') (hd : command ≠ byte ':') (address : UInt32) (length : Nat)
    (payload : Bytes) :
    handleWrite store (writePacket command address length payload) =
      store address (UInt32.ofNat (min length (2 ^ 64 - 1))) payload := by
  have hlength : hexUInt32 (hexText length) = some (UInt32.ofNat (min length (2 ^ 64 - 1))) := by
    rw [hexUInt32, maybeParseHexInt_hexText]
    rfl
  unfold handleWrite writePacket
  rw [writeParts_full hc hd (writeParts_packet address length payload)]
  dsimp only
  rw [hlength, hexUInt32_hexText]

variable [Xbdm σ]

/-- One call of `SetMemory`, answered by its outcome. -/
def writeOnce (address : UInt32) (data : Bytes) : Handler σ Unit := do
  if !(← attempt (XBDMDebugger.setMemory address data)) then sendError EFAULT else sendOK

/-- Both packets come to one call of `SetMemory` with the data, and to its reply. -/
def SameEffect (address : UInt32) (data : Bytes) (b : GDBBridge σ) : Prop :=
  handleWriteMemory (hexPacket address data) b = writeOnce address data b ∧
    handleWriteMemoryBinary (binaryPacket address data) b = writeOnce address data b

theorem handleWriteMemoryBinary_packet {data : Bytes} (h : data.length < 2 ^ 32)
    (address : UInt32) :
    (handleWriteMemoryBinary (binaryPacket address data) : Handler σ Unit) =
      writeOnce address data := by
  have hsize : (UInt32.ofNat (min data.length (2 ^ 64 - 1))).toNat = data.length := by
    rw [Nat.min_eq_left (by omega), UInt32.toNat_ofNat_of_lt' h]
  unfold handleWriteMemoryBinary binaryPacket
  rw [handleWrite_packet _ (by decide) (by decide), finishWrite, hsize, if_neg (by simp)]
  rfl

theorem upperHexDigit_isDigit : ∀ n < 16, isDigit 16 (upperHexDigit n) = true := by decide

/-- The decoded bytes are written through the start of a vector without elements. -/
theorem handleWriteMemory_packet {data : Bytes} (h : data ≠ []) (address : UInt32)
    (b : GDBBridge σ) : handleWriteMemory (hexPacket address data) b = .error .emptyAccess := by
  obtain ⟨first, rest, rfl⟩ := List.exists_cons_of_ne_nil h
  have hlt := first.toNat_lt
  have hhigh := upperHexDigit_isDigit (first.toNat / 16) (by omega)
  have hlow := upperHexDigit_isDigit (first.toNat % 16) (by omega)
  have hdecode : unhexIntoEmpty (hexEncode (first :: rest)) = .error .emptyAccess := by
    simp [hexEncode, unhexIntoEmpty, hhigh, hlow]
  unfold handleWriteMemory hexPacket
  rw [handleWrite_packet _ (by decide) (by decide), storeHex, hdecode]
  rfl

theorem writeOnce_ne_emptyAccess (address : UInt32) (data : Bytes) (b : GDBBridge σ) :
    writeOnce address data b ≠ .error .emptyAccess := by
  intro h
  have hfault : faultOf (writeOnce address data) b = some .emptyAccess := faultOf_eq_some_iff.mpr h
  unfold writeOnce at hfault
  rw [faultOf_attempt_bind, faultOf_setMemory] at hfault
  · split at hfault <;> cases hfault
  · intro written
    exact Safe.ite (fun _ => (answers_sendError _).safe) fun _ => answers_sendOK.safe

theorem sameEffect_iff_empty (address : UInt32) (data : Bytes) (b : GDBBridge σ) :
    SameEffect address data b ↔ data = [] := by
  constructor
  · rintro ⟨hhex, -⟩
    by_contra hne
    rw [handleWriteMemory_packet hne] at hhex
    exact writeOnce_ne_emptyAccess address data b hhex.symm
  · rintro rfl
    refine ⟨?_, ?_⟩
    · unfold handleWriteMemory hexPacket
      rw [handleWrite_packet _ (by decide) (by decide)]
      rfl
    · rw [handleWriteMemoryBinary_packet (by decide)]

theorem not_sameEffect_one_byte : ¬SameEffect 0x1000 [0x41] (GDBBridge.fresh) := by
  rintro ⟨hhex, -⟩
  rw [handleWriteMemory_packet (by decide)] at hhex
  exact writeOnce_ne_emptyAccess _ _ _ hhex.symm

end Packets

/-- Slices that follow one another in memory, beginning at the address. -/
def Consecutive : UInt32 → List (UInt32 × Bytes) → Prop
  | _, [] => True
  | address, (start, bytes) :: rest =>
    start = address ∧ Consecutive (address + UInt32.ofNat bytes.length) rest

section Requests

open XBDMDebugger Loader Rdcp

variable {σ : Type}

/-- The requests sent between the two states are `setmem` requests that fit on the wire, follow one
another in memory and together write the data at the address. -/
def WritesExactly (address : UInt32) (data : Bytes) (c c' : XBDMContext σ) : Prop :=
  ∃ slices : List (UInt32 × Bytes),
    c'.sent = c.sent ++ slices.map (fun s => .setMem s.1 s.2) ∧
      Consecutive address slices ∧ slices.flatMap Prod.snd = data ∧
      ∀ s ∈ slices, (setMemText s.1 s.2).length ≤ MAXIMUM_SEND_LENGTH

theorem setMemText_fits {data : Bytes} (h : data.length ≤ kMaximumDataSize) (address : UInt32) :
    (setMemText address data).length ≤ MAXIMUM_SEND_LENGTH := by
  rw [length_setMemText]
  simp only [kMaximumDataSize, MAXIMUM_SEND_LENGTH] at h ⊢
  omega

/-- The slices of data that is written from an address on. -/
def slicesFrom : Nat → UInt32 → Bytes → List (UInt32 × Bytes)
  | fuel + 1, address, first :: rest =>
    (address, (first :: rest).take kMaximumDataSize) ::
      slicesFrom fuel (address + UInt32.ofNat kMaximumDataSize)
        ((first :: rest).drop kMaximumDataSize)
  | _, _, _ => []

/-- The slices the loader cuts data into. Only data without bytes makes a slice without bytes. -/
def slicesOf (address : UInt32) (data : Bytes) : List (UInt32 × Bytes) :=
  if data.length ≤ kMaximumDataSize then [(address, data)]
  else slicesFrom data.length address data

/-- Slices that hold the data, one behind the other from the address on. -/
structure Slices (address : UInt32) (data : Bytes) (slices : List (UInt32 × Bytes)) : Prop where
  consecutive : Consecutive address slices
  whole : slices.flatMap Prod.snd = data
  short : ∀ s ∈ slices, s.2.length ≤ kMaximumDataSize
  pos : ∀ s ∈ slices, data ≠ [] → 1 ≤ s.2.length

theorem slicesFrom_nil (fuel : Nat) (address : UInt32) : slicesFrom fuel address [] = [] := by
  cases fuel <;> rfl

theorem slicesFrom_of_ne {data : Bytes} (h : data ≠ []) (fuel : Nat) (address : UInt32) :
    slicesFrom (fuel + 1) address data =
      (address, data.take kMaximumDataSize) ::
        slicesFrom fuel (address + UInt32.ofNat kMaximumDataSize) (data.drop kMaximumDataSize) := by
  obtain ⟨first, rest, rfl⟩ := List.exists_cons_of_ne_nil h
  rfl

theorem slices_nil (address : UInt32) : Slices address [] [] :=
  ⟨trivial, rfl, by simp, by simp⟩

/-- By induction on the fuel: one slice is taken off, and the rest lies behind it. -/
theorem slices_slicesFrom (fuel : Nat) (address : UInt32) (data : Bytes) (h : data.length ≤ fuel) :
    Slices address data (slicesFrom fuel address data) := by
  induction fuel generalizing address data with
  | zero =>
    obtain rfl : data = [] := List.length_eq_zero_iff.mp (by omega)
    exact slices_nil address
  | succ fuel ih =>
    rcases eq_or_ne data [] with rfl | hne
    · exact slices_nil address
    have hdata : 1 ≤ data.length := List.length_pos_iff.mpr hne
    have hpos : 1 ≤ (data.take kMaximumDataSize).length := by
      rw [List.length_take]
      exact Nat.le_min.mpr ⟨by decide, hdata⟩
    have hfuel : (data.drop kMaximumDataSize).length ≤ fuel := by
      simp only [List.length_drop, kMaximumDataSize]
      omega
    have hrest := ih (address + UInt32.ofNat kMaximumDataSize) _ hfuel
    rw [slicesFrom_of_ne hne]
    refine ⟨⟨rfl, ?_⟩, ?_, ?_, ?_⟩
    · by_cases hlast : data.length ≤ kMaximumDataSize
      · rw [List.drop_eq_nil_of_le hlast, slicesFrom_nil]
        trivial
      · rw [List.length_take_of_le (by omega)]
        exact hrest.consecutive
    · rw [List.flatMap_cons, hrest.whole]
      exact List.take_append_drop _ _
    · exact List.forall_mem_cons.mpr ⟨List.length_take_le _ _, hrest.short⟩
    · refine List.forall_mem_cons.mpr ⟨fun _ => hpos, fun s hs _ => hrest.pos s hs ?_⟩
      intro hnil
      rw [hnil, slicesFrom_nil] at hs
      cases hs

theorem slices_slicesOf (address : UInt32) (data : Bytes) :
    Slices address data (slicesOf address data) := by
  unfold slicesOf
  split
  next hshort =>
    refine ⟨⟨rfl, trivial⟩, List.flatMap_singleton _ _, ?_, ?_⟩
    · exact List.forall_mem_singleton.mpr hshort
    · exact List.forall_mem_singleton.mpr List.length_pos_iff.mpr
  next => exact slices_slicesFrom _ _ _ (Nat.le_refl _)

variable [Xbdm σ]

/-- How the target answers the request for a slice. -/
def accepts (c : XBDMContext σ) (s : UInt32 × Bytes) : Bool :=
  Request.isOK (.setMem s.1 s.2) (c.sendCommandSync (.setMem s.1 s.2)).1.status

/-- The requests for these slices have been sent. -/
def sentAll (c : XBDMContext σ) (slices : List (UInt32 × Bytes)) : XBDMContext σ :=
  slices.foldl (fun c s => (c.sendCommandSync (.setMem s.1 s.2)).2) c

theorem sent_sentAll (c : XBDMContext σ) (slices : List (UInt32 × Bytes)) :
    (sentAll c slices).sent = c.sent ++ slices.map fun s => .setMem s.1 s.2 := by
  induction slices generalizing c with
  | nil => exact (List.append_nil _).symm
  | cons s rest ih =>
    change (sentAll (c.sendCommandSync (.setMem s.1 s.2)).2 rest).sent = _
    rw [ih]
    simp [XBDMContext.sendCommandSync]

/-- Requests are sent one after the other until one is refused. -/
def sendSlices : List (UInt32 × Bytes) → XBDMContext σ → Bool × XBDMContext σ
  | [], c => (true, c)
  | s :: rest, c =>
    if accepts c s then sendSlices rest (c.sendCommandSync (.setMem s.1 s.2)).2
    else (false, (c.sendCommandSync (.setMem s.1 s.2)).2)

theorem sendSetMem_run {data : Bytes} (h : data.length ≤ kMaximumDataSize) (address : UInt32)
    (c : XBDMContext σ) :
    sendSetMem address data c =
      .ok (accepts c (address, data), (c.sendCommandSync (.setMem address data)).2) := by
  unfold sendSetMem
  rw [if_neg (by omega)]
  rfl

theorem sendSetMem_eq {data : Bytes} (h : data.length ≤ kMaximumDataSize) (address : UInt32)
    (c : XBDMContext σ) : sendSetMem address data c = .ok (sendSlices [(address, data)] c) := by
  rw [sendSetMem_run h, sendSlices, sendSlices]
  cases accepts c (address, data) <;> rfl

theorem writeSlices_of_ne {data : Bytes} (h : data ≠ []) (fuel : Nat) (address : UInt32) :
    (writeSlices (fuel + 1) address data : Program Fault (XBDMContext σ) Bool) = do
      if ← sendSetMem address (data.take kMaximumDataSize) then
        writeSlices fuel (address + UInt32.ofNat kMaximumDataSize) (data.drop kMaximumDataSize)
      else return false := by
  obtain ⟨first, rest, rfl⟩ := List.exists_cons_of_ne_nil h
  rfl

theorem writeSlices_eq (fuel : Nat) (address : UInt32) (data : Bytes) (c : XBDMContext σ) :
    writeSlices fuel address data c = .ok (sendSlices (slicesFrom fuel address data) c) := by
  induction fuel generalizing address data c with
  | zero => cases data <;> rfl
  | succ fuel ih =>
    rcases eq_or_ne data [] with rfl | hne
    · rfl
    rw [writeSlices_of_ne hne, bind_apply, sendSetMem_run (List.length_take_le _ _),
      slicesFrom_of_ne hne, sendSlices]
    dsimp only
    split
    next => exact ih _ _ _
    next => rfl

/-- The loader sends the slices until one is refused. -/
theorem setMemoryUnsafe_eq (address : UInt32) (data : Bytes) (c : XBDMContext σ) :
    setMemoryUnsafe address data c = .ok (sendSlices (slicesOf address data) c) := by
  unfold setMemoryUnsafe slicesOf
  split
  next hshort => exact sendSetMem_eq hshort address c
  next => exact writeSlices_eq _ _ _ _

/-- The loop over the bytes that are left is the loop over the two iterators: the end of a slice is
always as far behind its start as the data allows. -/
theorem sliceLoop_eq_writeSlices (data : Bytes) (fuel first : Nat) (h : first ≤ data.length)
    (address : UInt32) :
    (sliceLoop data fuel first (min (first + kMaximumDataSize) data.length) address :
      Program Fault (XBDMContext σ) Bool) = writeSlices fuel address (data.drop first) := by
  induction fuel generalizing first address with
  | zero => cases data.drop first <;> rfl
  | succ fuel ih =>
    rw [sliceLoop]
    split
    next hend =>
      rw [hend, List.drop_length]
      rfl
    next hmore =>
      obtain ⟨last, hlast⟩ : ∃ last, last = min (first + kMaximumDataSize) data.length := ⟨_, rfl⟩
      have hne : data.drop first ≠ [] := by
        rw [Ne, List.drop_eq_nil_iff]
        omega
      have hslice : (data.drop first).take (last - first) =
          (data.drop first).take kMaximumDataSize := by
        rw [List.take_eq_take_iff, List.length_drop]
        omega
      have hnext : (if data.length < last + kMaximumDataSize then data.length
          else last + kMaximumDataSize) = min (last + kMaximumDataSize) data.length := by
        split <;> omega
      have hdrop : data.drop last = (data.drop first).drop kMaximumDataSize := by
        rw [List.drop_drop]
        by_cases hfull : first + kMaximumDataSize ≤ data.length
        · rw [hlast, Nat.min_eq_left hfull]
        · rw [List.drop_eq_nil_of_le (by omega), List.drop_eq_nil_of_le (by omega)]
      dsimp only
      rw [← hlast, writeSlices_of_ne hne, hslice, hnext, ih last (by omega), hdrop]

/-- `SetMemoryUnsafe` with the loop of the source. -/
theorem setMemoryUnsafe_eq_sliceLoop (address : UInt32) (data : Bytes) :
    (setMemoryUnsafe address data : Program Fault (XBDMContext σ) Bool) =
      if data.length ≤ kMaximumDataSize then sendSetMem address data
      else sliceLoop data data.length 0 kMaximumDataSize address := by
  unfold setMemoryUnsafe
  split
  next => rfl
  next hlong =>
    have hloop := sliceLoop_eq_writeSlices (σ := σ) data data.length 0 (Nat.zero_le _) address
    rw [Nat.zero_add, Nat.min_eq_left (by omega), List.drop_zero] at hloop
    exact hloop.symm

/-- The first `k` requests are accepted, each in the state the ones before it leave. -/
def AcceptsFirst (c : XBDMContext σ) (slices : List (UInt32 × Bytes)) (k : Nat) : Prop :=
  ∀ i < k, ∀ s, slices[i]? = some s → accepts (sentAll c (slices.take i)) s = true

theorem AcceptsFirst.tail {c : XBDMContext σ} {s : UInt32 × Bytes} {rest : List (UInt32 × Bytes)}
    {k : Nat} (h : AcceptsFirst c (s :: rest) (k + 1)) :
    accepts c s = true ∧ AcceptsFirst (c.sendCommandSync (.setMem s.1 s.2)).2 rest k :=
  ⟨h 0 (Nat.succ_pos k) s rfl, fun i hi => h (i + 1) (Nat.succ_lt_succ hi)⟩

theorem AcceptsFirst.cons {c : XBDMContext σ} {s : UInt32 × Bytes} {rest : List (UInt32 × Bytes)}
    {k : Nat} (h : AcceptsFirst (c.sendCommandSync (.setMem s.1 s.2)).2 rest k)
    (hs : accepts c s = true) : AcceptsFirst c (s :: rest) (k + 1) := by
  intro i hi r hr
  cases i with
  | zero =>
    cases hr
    exact hs
  | succ i => exact h i (Nat.lt_of_succ_lt_succ hi) r hr

theorem sendSlices_of_accepted {c : XBDMContext σ} {slices : List (UInt32 × Bytes)}
    (h : AcceptsFirst c slices slices.length) : sendSlices slices c = (true, sentAll c slices) := by
  induction slices generalizing c with
  | nil => rfl
  | cons s rest ih =>
    rw [sendSlices, if_pos h.tail.1, ih h.tail.2]
    rfl

theorem sendSlices_of_refused {c : XBDMContext σ} {slices : List (UInt32 × Bytes)} {k : Nat}
    {s : UInt32 × Bytes} (hk : slices[k]? = some s) (h : AcceptsFirst c slices k)
    (hrefused : accepts (sentAll c (slices.take k)) s = false) :
    sendSlices slices c = (false, sentAll c (slices.take (k + 1))) := by
  induction slices generalizing c k with
  | nil => cases hk
  | cons first rest ih =>
    cases k with
    | zero =>
      cases hk
      have hfirst : accepts c s = false := hrefused
      rw [sendSlices, if_neg (ne_true_of_eq_false hfirst)]
      rfl
    | succ k =>
      rw [sendSlices, if_pos h.tail.1, ih hk h.tail.2 hrefused]
      rfl

/-- However the target answers: the slices make up the data, all of them are sent if none is refused,
and when one is refused exactly those up to it are. -/
theorem setMemoryUnsafe_slices (address : UInt32) (data : Bytes) (c : XBDMContext σ) :
    ∃ slices, Slices address data slices ∧
      (AcceptsFirst c slices slices.length → ∃ c', setMemoryUnsafe address data c = .ok (true, c') ∧
        c'.sent = c.sent ++ slices.map fun s => .setMem s.1 s.2) ∧
      ∀ (k : Nat) (s : UInt32 × Bytes), slices[k]? = some s → AcceptsFirst c slices k →
        accepts (sentAll c (slices.take k)) s = false →
        ∃ c', setMemoryUnsafe address data c = .ok (false, c') ∧
          c'.sent = c.sent ++ (slices.take (k + 1)).map fun s => .setMem s.1 s.2 := by
  refine ⟨slicesOf address data, slices_slicesOf address data, fun h => ?_, fun k s hk h hrefused => ?_⟩
  · rw [setMemoryUnsafe_eq, sendSlices_of_accepted h]
    exact ⟨_, rfl, sent_sentAll _ _⟩
  · rw [setMemoryUnsafe_eq, sendSlices_of_refused hk h hrefused]
    exact ⟨_, rfl, sent_sentAll _ _⟩

/-- Every request is answered with a status it counts as success. -/
def Obliging (σ : Type) [Xbdm σ] : Prop :=
  ∀ (r : Request) (s : σ), r.isOK (Xbdm.answer r s).1.status = true

theorem acceptsFirst_of_obliging (hok : Obliging σ) (c : XBDMContext σ)
    (slices : List (UInt32 × Bytes)) (k : Nat) : AcceptsFirst c slices k :=
  fun _ _ _ _ => hok _ _

theorem setMemoryUnsafe_run (hok : Obliging σ) (address : UInt32) (data : Bytes)
    (c : XBDMContext σ) :
    ∃ c', setMemoryUnsafe address data c = .ok (true, c') ∧ WritesExactly address data c c' := by
  have hslices := slices_slicesOf address data
  rw [setMemoryUnsafe_eq, sendSlices_of_accepted (acceptsFirst_of_obliging hok _ _ _)]
  exact ⟨_, rfl, _, sent_sentAll _ _, hslices.consecutive, hslices.whole,
    fun s hs => setMemText_fits (hslices.short s hs) s.1⟩

/-- `SetMemory` writes the data as the loader would. -/
def WritesAsLoader (address : UInt32) (data : Bytes) (d : XBDMDebugger σ) : Prop :=
  ∃ d', setMemory address data d = .ok (true, d') ∧
    WritesExactly address data d.context d'.context ∧
    setMemoryUnsafe address data d.context = .ok (true, d'.context)

theorem setMemory_run {address : UInt32} {data : Bytes} {d : XBDMDebugger σ}
    (hvalid : validateMemoryAccess address (UInt32.ofNat data.length) true d = .ok (true, d)) :
    setMemory address data d =
      if kMaximumDataSize < data.length then .error .assertion
      else .ok (accepted (.setMem address data) d) := by
  unfold setMemory
  rw [bind_apply, hvalid]
  dsimp only
  split
  next => split <;> rfl
  next h => exact absurd rfl h

theorem writesAsLoader_iff_short {address : UInt32} {data : Bytes} {d : XBDMDebugger σ}
    (hvalid : validateMemoryAccess address (UInt32.ofNat data.length) true d = .ok (true, d))
    (hok : Obliging σ) : WritesAsLoader address data d ↔ data.length ≤ kMaximumDataSize := by
  have hrun := setMemory_run hvalid
  constructor
  · rintro ⟨d', hwrite, -⟩
    rw [hrun] at hwrite
    split at hwrite
    · cases hwrite
    · omega
  · intro hshort
    obtain ⟨c, hloader, hexact⟩ := setMemoryUnsafe_run hok address data d.context
    have hone : sendSetMem address data d.context =
        .ok (true, (d.context.sendCommandSync (.setMem address data)).2) := by
      rw [sendSetMem_run hshort, accepts, XBDMContext.sendCommandSync, hok]
    have hsame : setMemoryUnsafe address data d.context = sendSetMem address data d.context := by
      rw [setMemoryUnsafe, if_pos hshort]
    rw [hsame, hone] at hloader
    cases hloader
    have haccepted : accepted (.setMem address data) d =
        (true, { d with context := (d.context.sendCommandSync (.setMem address data)).2 }) := by
      have hanswer := hok (.setMem address data) d.context.target
      simp only [accepted, request, run_bind, run_pure, XBDMContext.sendCommandSync, hanswer]
      rfl
    refine ⟨{ d with context := (d.context.sendCommandSync (.setMem address data)).2 }, ?_, hexact,
      hsame.trans hone⟩
    rw [hrun, if_neg (by omega), haccepted]

theorem obliging_willing : Obliging Willing :=
  fun r _ => r.isOK_success

/-- A debugger that knows no memory regions and so accepts every access. -/
def unmapped : XBDMDebugger Willing where
  context := { target := {} }

theorem writesAsLoader_short : WritesAsLoader 0x1000 [0x41, 0x42] unmapped :=
  (writesAsLoader_iff_short rfl obliging_willing).mpr (by decide)

theorem not_writesAsLoader_121 :
    validateMemoryAccess 0x1000 121 true unmapped = .ok (true, unmapped) ∧ Obliging Willing ∧
      ¬WritesAsLoader 0x1000 (List.replicate 121 0x41) unmapped := by
  refine ⟨rfl, obliging_willing, ?_⟩
  rintro ⟨d, hwrite, -⟩
  rw [setMemory_run (by rw [List.length_replicate]; rfl), List.length_replicate] at hwrite
  cases hwrite

end Requests

end XbdmGdbBridge.Proofs
