import XbdmGdbBridge.Proofs.Debugger
import XbdmGdbBridge.Proofs.Maps
import XbdmGdbBridge.Util.Numerals
import XbdmGdbBridge.Xbox.Console

/-!
# Thread contexts there and back

What a context that is written in the form of a request reads as in the form of an answer.
-/

namespace XbdmGdbBridge.Proofs

open Lib CText Rdcp

/-- A text the tokenizer takes character by character. -/
def Plain (s : Bytes) : Prop :=
  ∀ c ∈ s, c ≠ 0 ∧ c ≠ 0x20 ∧ c ≠ 0x22 ∧ c ≠ 0x0d

section Tokens

variable {w : Bytes}

theorem Plain.word (h : Plain w) : Word w := by
  intro c hc
  obtain ⟨hzero, hspace, hquote, -⟩ := h c hc
  exact ⟨hzero, hquote, fun hc => absurd hc hspace⟩

theorem Plain.append {v : Bytes} (hv : Plain v) (hw : Plain w) : Plain (v ++ w) := by
  intro c hc
  rcases List.mem_append.mp hc with hc | hc
  · exact hv c hc
  · exact hw c hc

end Tokens

section Maps

open RDCPMapResponse

variable {key : Bytes}

/-- The words of the entries that are present. -/
def presentWords (entries : List (Bytes × Option Int32)) : List Bytes :=
  entries.filterMap fun entry =>
    entry.2.map fun v => entry.1 ++ byte '=' :: ThreadContext.valueText v

theorem lookup_add (hname : byte '=' ∉ key) (v : Int32) (r : RDCPMapResponse) (k : Bytes) :
    (r.add (key ++ byte '=' :: ThreadContext.valueText v)).map.lookup k =
      if k = toLowerCopy key then some (ThreadContext.valueText v) else r.map.lookup k := by
  have hhead : (ThreadContext.valueText v).head? ≠ some 0x22 := by
    change some (byte '0') ≠ some 0x22
    decide
  rw [add_pair hname hhead, lookup_assign]

theorem lookup_others (entries : List (Bytes × Option Int32)) (r : RDCPMapResponse)
    (hnames : ∀ e ∈ entries, byte '=' ∉ e.1) (hkey : key ∉ entries.map fun e => toLowerCopy e.1) :
    ((presentWords entries).foldl add r).map.lookup key = r.map.lookup key := by
  induction entries generalizing r with
  | nil => rfl
  | cons entry entries ih =>
    obtain ⟨name, v⟩ := entry
    rw [List.map_cons, List.mem_cons, not_or] at hkey
    have hrest := fun r => ih r (fun e he => hnames e (by simp [he])) hkey.2
    cases v with
    | none => exact hrest r
    | some v =>
      have hadd := lookup_add (hnames (name, some v) (by simp)) v r key
      rw [if_neg hkey.1] at hadd
      exact (hrest _).trans hadd

theorem lookup_entry (entries : List (Bytes × Option Int32)) (r : RDCPMapResponse)
    (hnames : ∀ e ∈ entries, byte '=' ∉ e.1)
    (hnodup : (entries.map fun e => toLowerCopy e.1).Nodup) {name : Bytes} {v : Option Int32}
    (hmem : (name, v) ∈ entries) :
    ((presentWords entries).foldl add r).map.lookup (toLowerCopy name) =
      (v.map ThreadContext.valueText).or (r.map.lookup (toLowerCopy name)) := by
  induction entries generalizing r with
  | nil => cases hmem
  | cons entry entries ih =>
    obtain ⟨other, w⟩ := entry
    rw [List.map_cons, List.nodup_cons] at hnodup
    have hplain : ∀ e ∈ entries, byte '=' ∉ e.1 := fun e he => hnames e (by simp [he])
    rcases List.mem_cons.mp hmem with heq | hlater
    · obtain ⟨rfl, rfl⟩ := Prod.mk.inj heq
      cases v with
      | none => exact lookup_others entries r hplain hnodup.1
      | some v =>
        have hadd := lookup_add (hnames (name, some v) (by simp)) v r (toLowerCopy name)
        rw [if_pos rfl] at hadd
        exact (lookup_others entries _ hplain hnodup.1).trans hadd
    · have hne : toLowerCopy name ≠ toLowerCopy other := by
        intro heq
        apply hnodup.1
        rw [← heq]
        exact List.mem_map.mpr ⟨(name, v), hlater, rfl⟩
      cases w with
      | none => exact ih r hplain hnodup.2 hlater
      | some w =>
        have hadd := lookup_add (hnames (other, some w) (by simp)) w r (toLowerCopy name)
        rw [if_neg hne] at hadd
        rw [← hadd]
        exact ih _ hplain hnodup.2 hlater

end Maps

section RoundTrip

open RDCPMapResponse

theorem digit_isPlain : ∀ c : UInt8, isDigit 16 c = true →
    c ≠ 0 ∧ c ≠ 0x20 ∧ c ≠ 0x22 ∧ c ≠ 0x0d := by
  decide +kernel

theorem plain_valueText (v : Int32) : Plain (ThreadContext.valueText v) := by
  have hprefix : Plain (ascii "0x") := by
    unfold Plain
    decide +kernel
  exact hprefix.append fun c hc => digit_isPlain c (hexDigits_hexText _ c hc)

theorem parseUint32_valueText (v : Int32) :
    parseUint32 (ThreadContext.valueText v) = v.toUInt32 := by
  have hlt := v.toUInt32.toNat_lt
  have htext : ThreadContext.valueText v = 0x30 :: 0x78 :: hexText v.toUInt32.toNat := rfl
  have hbase : integerBase (0x30 :: 0x78 :: hexText v.toUInt32.toNat) = 16 := by
    obtain ⟨c, rest, h⟩ := List.exists_cons_of_ne_nil (hexText_ne_nil v.toUInt32.toNat)
    rw [h]
    rfl
  unfold parseUint32 strtoull
  rw [htext, hbase, scanNumber_prefixed (hexDigits_hexText _) (hexText_ne_nil _), numeral_hexText]
  simp only [Bool.false_eq_true, if_false]
  rw [if_neg (by omega)]
  simp

theorem entries_text (entries : List (Bytes × Option Int32)) :
    (entries.flatMap fun e => ThreadContext.entryText e.1 e.2) =
      (presentWords entries).flatMap (0x20 :: ·) := by
  induction entries with
  | nil => rfl
  | cons entry entries ih =>
    obtain ⟨name, v⟩ := entry
    cases v with
    | none => exact ih
    | some v =>
      have hword : ThreadContext.entryText name (some v) =
          0x20 :: (name ++ byte '=' :: ThreadContext.valueText v) := by
        change ascii " " ++ name ++ ascii "=" ++ _ = _
        rw [List.append_assoc, List.append_assoc]
        rfl
      rw [List.flatMap_cons, hword, ih]
      rfl

theorem plain_presentWords {entries : List (Bytes × Option Int32)}
    (h : ∀ e ∈ entries, Plain e.1) : ∀ w ∈ presentWords entries, Plain w := by
  intro w hw
  obtain ⟨⟨name, v⟩, hmem, hv⟩ := List.mem_filterMap.mp hw
  obtain ⟨v, rfl, rfl⟩ := Option.map_eq_some_iff.mp hv
  have hdelimiter : Plain [byte '='] := by
    unfold Plain
    decide +kernel
  have hname : Plain name := h (name, some v) hmem
  simpa using hname.append (hdelimiter.append (plain_valueText v))

/-- The written text is read as its words. A leading separator adds a word without a name. -/
theorem ofText_entries {entries : List (Bytes × Option Int32)} (h : ∀ e ∈ entries, Plain e.1) :
    ∃ base : RDCPMapResponse,
      ofText (entries.flatMap fun e => ThreadContext.entryText e.1 e.2) =
        .ok ((presentWords entries).foldl add base) ∧
      ∀ key, key ≠ [] → base.map.lookup key = none := by
  rw [entries_text]
  have hplain := plain_presentWords h
  generalize presentWords entries = words at hplain
  cases words with
  | nil => exact ⟨{}, rfl, fun _ _ => rfl⟩
  | cons w words =>
    refine ⟨add {} [], ?_, ?_⟩
    · have hline : Free 0x0d 0x0a ((w :: words).flatMap (0x20 :: ·)) := by
        apply free_of_notMem
        intro hm
        obtain ⟨v, hv, hc⟩ := List.mem_flatMap.mp hm
        rcases List.mem_cons.mp hc with hc | hc
        · cases hc
        · exact (hplain v hv 0x0d hc).2.2.2 rfl
      have hwords : ∀ v ∈ (w :: words).map fun v => (v, v), ReadsAs v.1 v.2 := by
        intro v hv
        obtain ⟨u, hu, rfl⟩ := List.mem_map.mp hv
        exact (hplain u hu).word.readsAs
      have hread := ofText_arguments ((w :: words).map fun v => (v, v)) hwords (by simp)
        (by rwa [List.flatMap_map])
      have htokens : ((w :: words).map fun v => (v, v)).map Prod.snd = w :: words := by
        rw [List.map_map]
        exact List.map_id _
      rw [List.flatMap_map, htokens] at hread
      rw [hread]
      rfl
    · intro key hkey
      have hbase : (add {} []).map = [([], [])] := rfl
      have hne : (key == []) = false := by simpa using hkey
      rw [hbase, List.lookup_cons, hne]
      rfl

/-- The names of the registers, in lower case all different. -/
def registerNames : List Bytes :=
  (ThreadContext.entries {}).map Prod.fst

theorem names_eq (c : ThreadContext) : c.entries.map Prod.fst = registerNames := rfl

theorem registerNames_nodup : (registerNames.map toLowerCopy).Nodup := by
  decide +kernel

theorem registerNames_plain : ∀ n ∈ registerNames, Plain n ∧ byte '=' ∉ n ∧ toLowerCopy n ≠ [] := by
  unfold Plain
  decide +kernel

theorem name_mem {c : ThreadContext} {e : Bytes × Option Int32} (h : e ∈ c.entries) :
    e.1 ∈ registerNames := by
  rw [← names_eq c]
  exact List.mem_map_of_mem h

theorem ofText_serialize (c : ThreadContext) :
    ∃ r, ofText c.serialize = .ok r ∧ ThreadContext.parse r = c := by
  obtain ⟨base, hread, hbase⟩ :=
    ofText_entries fun e (he : e ∈ c.entries) => (registerNames_plain e.1 (name_mem he)).1
  have hnodup : (c.entries.map fun e => toLowerCopy e.1).Nodup := registerNames_nodup
  have hfield : ∀ name v, (name, v) ∈ c.entries →
      getOptionalDWORD ((presentWords c.entries).foldl add base) name = v := by
    intro name v hmem
    obtain ⟨-, hdelimiter, hname⟩ := registerNames_plain name (name_mem hmem)
    have hlookup := lookup_entry c.entries base
      (fun e he => (registerNames_plain e.1 (name_mem he)).2.1) hnodup hmem
    unfold getOptionalDWORD
    rw [hlookup, hbase _ hname, Option.or_none]
    cases v with
    | none => rfl
    | some v => simp [parseUint32_valueText]
  refine ⟨_, hread, ?_⟩
  unfold ThreadContext.parse
  rw [hfield (ascii "Ebp") c.ebp (by simp [ThreadContext.entries]),
    hfield (ascii "Esp") c.esp (by simp [ThreadContext.entries]),
    hfield (ascii "Eip") c.eip (by simp [ThreadContext.entries]),
    hfield (ascii "EFlags") c.eflags (by simp [ThreadContext.entries]),
    hfield (ascii "Eax") c.eax (by simp [ThreadContext.entries]),
    hfield (ascii "Ebx") c.ebx (by simp [ThreadContext.entries]),
    hfield (ascii "Ecx") c.ecx (by simp [ThreadContext.entries]),
    hfield (ascii "Edx") c.edx (by simp [ThreadContext.entries]),
    hfield (ascii "Edi") c.edi (by simp [ThreadContext.entries]),
    hfield (ascii "Esi") c.esi (by simp [ThreadContext.entries]),
    hfield (ascii "Cr0NpxState") c.cr0NpxState (by simp [ThreadContext.entries])]

theorem parse_serialize (c : ThreadContext) :
    (ofText c.serialize).map ThreadContext.parse = .ok c := by
  obtain ⟨r, hread, hparse⟩ := ofText_serialize c
  rw [hread]
  exact congrArg Except.ok hparse

end RoundTrip

section Float

open ThreadFloatContext

/-- A place of the object that belongs to a member. -/
def Member (a : Nat) : Prop :=
  a < 28 ∨ (32 ≤ a ∧ a < 100)

theorem byteOf_int32At (m : Memory) (offset : Nat) {i : Nat} (h : i < 4) :
    Memory.byteOf (int32At m offset).toUInt32.toNat i = m (offset + i) := by
  have hlt := Memory.value_lt 4 fun a => m (offset + a)
  have hvalue : (int32At m offset).toUInt32.toNat = Memory.value 4 fun a => m (offset + a) := by
    simp only [int32At, UInt32.toUInt32_toInt32]
    exact UInt32.toNat_ofNat_of_lt' hlt
  rw [hvalue, Memory.byteOf_value _ h]

theorem byteOf_int64At (m : Memory) (offset : Nat) {i : Nat} (h : i < 8) :
    Memory.byteOf (int64At m offset).toUInt64.toNat i = m (offset + i) := by
  have hlt := Memory.value_lt 8 fun a => m (offset + a)
  have hvalue : (int64At m offset).toUInt64.toNat = Memory.value 8 fun a => m (offset + a) := by
    simp only [int64At, UInt64.toUInt64_toInt64]
    exact UInt64.toNat_ofNat_of_lt' hlt
  rw [hvalue, Memory.byteOf_value _ h]

theorem words_ofImage (m : Memory) :
    (ofImage m).words = (List.range 7).map fun k => int32At m (4 * k) := rfl

theorem stack_ofImage (m : Memory) :
    Registers.stack (ofImage m) = (List.range 8).map fun k => int64At m (32 + 8 * k) := rfl

/-- The members hold the bytes of the image. -/
theorem image_ofImage (m : Memory) {a : Nat} (h : Member a) : (ofImage m).image a = m a := by
  unfold image
  split
  next hword =>
    have hk : a / 4 < 7 := by omega
    rw [words_ofImage, List.getD_eq_getElem?_getD, List.getElem?_map, List.getElem?_range hk]
    change Memory.byteOf (int32At m (4 * (a / 4))).toUInt32.toNat (a % 4) = _
    rw [byteOf_int32At m _ (by omega), Nat.div_add_mod]
  next =>
    split
    next hstack =>
      have hk : (a - 32) / 8 < 8 := by omega
      rw [stack_ofImage, List.getD_eq_getElem?_getD, List.getElem?_map, List.getElem?_range hk]
      change Memory.byteOf (int64At m (32 + 8 * ((a - 32) / 8))).toUInt64.toNat ((a - 32) % 8) = _
      rw [byteOf_int64At m _ (by omega)]
      congr 1
      omega
    next =>
      split
      next hlast =>
        change Memory.byteOf (int32At m 96).toUInt32.toNat (a - 96) = _
        rw [byteOf_int32At m _ (by omega)]
        congr 1
        omega
      next => unfold Member at h; omega

section Copies

variable (buffer : Bytes) (c : ThreadFloatContext)

theorem parse_word {a : Nat} (h : a < 28) : (parse buffer c).image a = buffer.getD a 0 := by
  unfold parse
  rw [image_ofImage _ (.inl h)]
  dsimp only
  rw [Memory.copy_outside _ _ (.inl (by omega)), Memory.copies_before _ _ (by omega),
    Memory.copies_inside _ _ (show a = 0 + 4 * (a / 4) + a % 4 by omega) (by omega) (by omega)
      (by omega), Nat.div_add_mod]

theorem parse_stack {i k : Nat} (hi : i < 8) (hk : k < 8) :
    (parse buffer c).image (32 + 8 * i + k) = buffer.getD (28 + 10 * i + k) 0 := by
  unfold parse
  rw [image_ofImage _ (.inr (by omega))]
  dsimp only
  rw [Memory.copy_outside _ _ (.inl (by omega)),
    Memory.copies_inside _ _ rfl hi hk (by omega), Nat.add_assoc]

theorem parse_last {k : Nat} (hk : k < 4) :
    (parse buffer c).image (96 + k) = buffer.getD (108 + k) 0 := by
  unfold parse
  rw [image_ofImage _ (.inr (by omega))]
  exact Memory.copy_inside _ _ hk

theorem length_serialize : c.serialize.length = wireSize := by
  simp [serialize]

theorem serialize_word {a : Nat} (h : a < 28) : c.serialize[a]? = some (c.image a) := by
  unfold serialize wireSize
  rw [List.getElem?_map, List.getElem?_range (by omega)]
  simp only [Option.map_some]
  rw [Memory.copy_outside _ _ (.inl (by omega)), Memory.copies_before _ _ (by omega),
    Memory.copies_inside _ _ (show a = 0 + 4 * (a / 4) + a % 4 by omega) (by omega) (by omega)
      (by omega), Nat.div_add_mod]

theorem serialize_stack {i k : Nat} (hi : i < 8) (hk : k < 10) :
    c.serialize[28 + 10 * i + k]? = some (c.image (32 + 8 * i + k)) := by
  unfold serialize wireSize
  rw [List.getElem?_map, List.getElem?_range (by omega)]
  simp only [Option.map_some]
  rw [Memory.copy_outside _ _ (.inl (by omega)), Memory.copies_inside _ _ rfl hi hk hk,
    Nat.add_assoc]

theorem serialize_last {k : Nat} (hk : k < 4) :
    c.serialize[108 + k]? = some (c.image (96 + k)) := by
  unfold serialize wireSize
  rw [List.getElem?_map, List.getElem?_range (by omega)]
  simp only [Option.map_some]
  rw [Memory.copy_inside _ _ hk]

/-- The first eight bytes of a stack register survive, the other two are those that follow. -/
theorem roundTrip_stack {i k : Nat} (hi : i < 8) (hk : k < 10) :
    (parse buffer c).serialize[28 + 10 * i + k]? =
      some (buffer.getD (if k < 8 then 28 + 10 * i + k else 30 + 10 * i + k) 0) := by
  rw [serialize_stack _ hi hk]
  split
  next hlow => rw [parse_stack _ _ hi hlow]
  next hhigh =>
    by_cases hlast : i = 7
    · rw [show 32 + 8 * i + k = 96 + (k - 8) by omega, parse_last _ _ (by omega),
        show 108 + (k - 8) = 30 + 10 * i + k by omega]
    · rw [show 32 + 8 * i + k = 32 + 8 * (i + 1) + (k - 8) by omega,
        parse_stack _ _ (by omega) (by omega),
        show 28 + 10 * (i + 1) + (k - 8) = 30 + 10 * i + k by omega]

end Copies

/-- The two upper bytes of each stack register repeat the two bytes that follow them: the lowest of
the next register, or behind the last one of `cr0_npx_state`. -/
def Mirrored (buffer : Bytes) : Prop :=
  ∀ i < 8, ∀ k < 2, buffer.getD (36 + 10 * i + k) 0 = buffer.getD (38 + 10 * i + k) 0

theorem getElem?_getD {buffer : Bytes} {a : Nat} (h : a < buffer.length) :
    buffer[a]? = some (buffer.getD a 0) := by
  rw [List.getD_eq_getElem?_getD, List.getElem?_eq_getElem h]
  rfl

theorem roundTrip_iff_mirrored {buffer : Bytes} (h : buffer.length = wireSize)
    (c : ThreadFloatContext) : (parse buffer c).serialize = buffer ↔ Mirrored buffer := by
  constructor
  · intro hsame i hi k hk
    have hbyte := roundTrip_stack buffer c hi (show k + 8 < 10 by omega)
    rw [hsame, getElem?_getD (by rw [h, wireSize]; omega), if_neg (by omega)] at hbyte
    have hvalue := Option.some.inj hbyte
    rwa [show 28 + 10 * i + (k + 8) = 36 + 10 * i + k by omega,
      show 30 + 10 * i + (k + 8) = 38 + 10 * i + k by omega] at hvalue
  · intro hmirror
    apply List.ext_getElem?
    intro a
    by_cases ha : a < wireSize
    · have hbuffer : buffer[a]? = some (buffer.getD a 0) := getElem?_getD (by omega)
      rw [hbuffer]
      rw [wireSize] at ha
      by_cases hword : a < 28
      · rw [serialize_word _ hword, parse_word _ _ hword]
      · by_cases hlast : 108 ≤ a
        · have hserialize := serialize_last (parse buffer c) (show a - 108 < 4 by omega)
          rw [parse_last _ _ (show a - 108 < 4 by omega)] at hserialize
          rwa [show 108 + (a - 108) = a by omega] at hserialize
        · obtain ⟨i, k, hi, hk, rfl⟩ : ∃ i k, i < 8 ∧ k < 10 ∧ a = 28 + 10 * i + k :=
            ⟨(a - 28) / 10, (a - 28) % 10, by omega, by omega, by omega⟩
          rw [roundTrip_stack _ _ hi hk]
          split
          next => rfl
          next hhigh =>
            have hbyte := hmirror i hi (k - 8) (by omega)
            rw [show 36 + 10 * i + (k - 8) = 28 + 10 * i + k by omega,
              show 38 + 10 * i + (k - 8) = 30 + 10 * i + k by omega] at hbyte
            rw [hbyte]
    · rw [List.getElem?_eq_none (by rw [length_serialize]; omega),
        List.getElem?_eq_none (by omega)]

section Target

open XBDMDebugger

theorem Console.grant_status (r : Request) (s : Console) : (Console.grant r s).1.status = r.success := by
  cases r <;> rfl

/-- A request to the console either leaves it as it is, or is granted. -/
theorem console_request (r : Request) (d : XBDMDebugger Console) :
    request r d = if d.context.target.refuses r then
        (none, { d with context := { d.context with sent := d.context.sent ++ [r] } })
      else (some (Console.grant r d.context.target).1,
        { d with context := ⟨(Console.grant r d.context.target).2, d.context.sent ++ [r]⟩ }) := by
  have hanswer : Xbdm.answer r d.context.target =
      if d.context.target.refuses r then ({ status := .errNotConnected }, d.context.target)
      else Console.grant r d.context.target := rfl
  simp only [request, XBDMContext.sendCommandSync, hanswer]
  cases d.context.target.refuses r with
  | true => cases r <;> rfl
  | false =>
    have hok : r.isOK (Console.grant r d.context.target).1.status = true := by
      rw [Console.grant_status, Request.isOK_success]
    simp only [Bool.false_eq_true, if_false, hok, if_true]

variable {d : XBDMDebugger Console} {i : ThreadRef}

/-- `FetchFloatContextSync` and then `PushFloatContextSync`. -/
def refreshFloat (i : ThreadRef) : Op Console Bool := do
  let _ ← fetchFloatContextSync i
  pushFloatContextSync i

/-- Either a request is refused, or the state becomes what parsing and serializing make of it. -/
theorem refreshFloat_floats (h : i < d.threads.length) :
    (refreshFloat i d).2.context.target.floats = d.context.target.floats ∨
      (refreshFloat i d).2.context.target.floats =
        Function.update d.context.target.floats (d.threadAt i).threadId
          (parse (d.context.target.floats (d.threadAt i).threadId) {}).serialize := by
  let id := (d.threadAt i).threadId
  let fetched := (fetchFloatContextSync i d).2
  have hcontext : fetched.context = (request (.getExtContext id) d).2.context :=
    fetch_context i _ _ _ d
  have hthread : fetched.threadAt i = _ := fetch_threadAt h _ _ _
  have hpush : (refreshFloat i d).2 = ((fetched.threadAt i).floatContext.elim (false, fetched)
      fun context =>
        accepted (.setFloatContext (fetched.threadAt i).threadId context) fetched).2 := by
    change (pushFloatContextSync i fetched).2 = _
    simp only [pushFloatContextSync, run_bind, run_deref]
    cases (fetched.threadAt i).floatContext <;> rfl
  rw [console_request] at hcontext hthread
  cases hfetch : d.context.target.refuses (.getExtContext id) with
  | true =>
    rw [hfetch, if_pos rfl] at hcontext hthread
    rw [hpush, hthread]
    dsimp only [Option.elim_none]
    rw [hcontext]
    exact .inl rfl
  | false =>
    rw [hfetch, if_neg (by decide)] at hcontext hthread
    rw [hpush, hthread]
    dsimp only [Option.elim_some]
    have hsend := console_request (.setFloatContext id
      (Console.grant (.getExtContext id) d.context.target).1.floatContext) fetched
    rw [hcontext] at hsend
    change (request _ fetched).2.context.target.floats = _ ∨
      (request _ fetched).2.context.target.floats = _
    rw [hsend]
    split
    · exact .inl rfl
    · exact .inr rfl

end Target

/-- A 112-byte state survives a parse and a serialization, and so a thread's state survives being
fetched and pushed. -/
structure FloatKept (buffer : Bytes) : Prop where
  bytes : ∀ c, (parse buffer c).serialize = buffer
  state : ∀ (d : XBDMDebugger Console) (i : ThreadRef), i < d.threads.length →
    d.context.target.floats (d.threadAt i).threadId = buffer →
    (refreshFloat i d).2.context.target.floats = d.context.target.floats

theorem floatKept_iff_mirrored {buffer : Bytes} (h : buffer.length = wireSize) :
    FloatKept buffer ↔ Mirrored buffer := by
  constructor
  · intro hkept
    exact (roundTrip_iff_mirrored h {}).mp (hkept.bytes {})
  · intro hmirror
    have hbytes : ∀ c, (parse buffer c).serialize = buffer :=
      fun c => (roundTrip_iff_mirrored h c).mpr hmirror
    refine ⟨hbytes, ?_⟩
    intro d i hi hstate
    rcases refreshFloat_floats hi with hsame | hnew
    · exact hsame
    · rw [hnew, hstate, hbytes, ← hstate, Function.update_eq_self]

def zeroState : Bytes :=
  List.replicate 112 0

theorem floatKept_zero : FloatKept zeroState := by
  apply (floatKept_iff_mirrored (by decide)).mpr
  unfold Mirrored
  decide

/-- The value 1.0 in ST0. -/
def oneState : Bytes :=
  List.replicate 35 0 ++ [0x80, 0xff, 0x3f] ++ List.replicate 74 0

theorem not_floatKept_one : oneState.length = wireSize ∧ ¬FloatKept oneState := by
  refine ⟨by decide, ?_⟩
  intro hkept
  have hbyte := roundTrip_stack oneState {} (show 0 < 8 by decide) (show 8 < 10 by decide)
  rw [hkept.bytes] at hbyte
  revert hbyte
  decide

end Float

end XbdmGdbBridge.Proofs
