import XbdmGdbBridge.Proofs.RegisterTexts

/-!
# A register written and read back

`P` pushes the context it has changed, and a target that keeps it answers the next `g` with it. `P`
takes its value for a number, `g` shows the bytes of a register from low to high.
-/

namespace XbdmGdbBridge.Proofs

open Lib CText Registers XBDMDebugger GDBBridge

section Contexts

variable {c c' : ThreadContext} {n : Nat}

theorem general_setRegister (h : n < 10) (v : UInt32) (c : ThreadContext) :
    ∃ c', setRegister (UInt32.ofNat n) v c = some c' ∧
      general c' = (general c).set n (some v.toInt32) := by
  interval_cases n <;> exact ⟨_, rfl, rfl⟩

theorem registerTexts_set (h : n < 10) {v : Option Int32} (hc : general c' = (general c).set n v)
    (float : Option ThreadFloatContext) :
    registerTexts (some c') float = (registerTexts (some c) float).set n (appendRegister v) := by
  have hgeneral : n < (general c).length := h
  unfold registerTexts generals
  dsimp only
  rw [hc, List.set_append_left _ _ (by rw [length_words]; omega), ← List.map_set,
    List.set_append_left _ _ hgeneral]

theorem field_set (h : n < 10) {v : Int32} (hc : general c' = (general c).set n (some v))
    (float : Option ThreadFloatContext) (m : Nat) :
    field regSizes m (serializeRegisters (some c') float) =
      if m = n then hexPadded 8 (byteSwap v.toUInt32.toNat)
      else field regSizes m (serializeRegisters (some c) float) := by
  have hlength : n < (registerTexts (some c) float).length := by
    unfold registerTexts
    rw [List.length_append, generals, length_words]
    omega
  rw [field_serializeRegisters, field_serializeRegisters, registerTexts_set h hc]
  split
  · subst m
    rw [List.getD_eq_getElem?_getD, List.getElem?_set_self hlength, Option.getD_some,
      appendRegister_some]
  · rw [List.getD_eq_getElem?_getD, List.getElem?_set_ne (by omega), List.getD_eq_getElem?_getD]

theorem readContext_serialize (c : ThreadContext) : Console.readContext c.serialize = c := by
  obtain ⟨r, hr, hc⟩ := ofText_serialize c
  rw [Console.readContext, hr]
  exact hc

end Contexts

section Fetching

variable {d : XBDMDebugger Console} {i : ThreadRef}

theorem fetchContextSync_refused
    (h : d.context.target.refuses (.getContext (d.threadAt i).threadId) = true) :
    (fetchContextSync i d).1 = false := by
  rw [fetchContextSync, fetch_result, console_request, if_pos h]
  rfl

theorem fetchContextSync_granted (hi : i < d.threads.length)
    (h : d.context.target.refuses (.getContext (d.threadAt i).threadId) = false) :
    (fetchContextSync i d).1 = true ∧
      (fetchContextSync i d).2.context.target = d.context.target ∧
      (fetchContextSync i d).2.threadAt i = { d.threadAt i with
        context := some (Console.readContext
          (d.context.target.registers (d.threadAt i).threadId)) } := by
  rw [fetchContextSync, fetch_result, fetch_context, fetch_threadAt hi, console_request, h]
  exact ⟨rfl, rfl, rfl⟩

theorem accepted_refused {r : Request} (h : d.context.target.refuses r = true) :
    (accepted r d).1 = false := by
  change (request r d).1.isSome = false
  rw [console_request, if_pos h]
  rfl

theorem accepted_granted {r : Request} (h : d.context.target.refuses r = false) :
    (accepted r d).1 = true ∧
      (accepted r d).2.context.target = (Console.grant r d.context.target).2 := by
  change (request r d).1.isSome = true ∧ (request r d).2.context.target = _
  rw [console_request, h]
  exact ⟨rfl, rfl⟩

/-- What is known of the floating-point state once the target has been asked for it. -/
def floatOf (s : Console) (threadId : UInt32) : Option ThreadFloatContext :=
  if s.refuses (.getExtContext threadId) then none
  else some (ThreadFloatContext.parse (s.floats threadId) {})

theorem fetchFloatContextSync_threadAt (hi : i < d.threads.length) :
    (fetchFloatContextSync i d).2.threadAt i = { d.threadAt i with
      floatContext := floatOf d.context.target (d.threadAt i).threadId } := by
  rw [fetchFloatContextSync, fetch_threadAt hi, console_request, floatOf]
  cases d.context.target.refuses (.getExtContext (d.threadAt i).threadId) <;> rfl

end Fetching

section Handlers

variable {σ : Type}

/-- The thread a register command works on, if it gets to one. -/
def registerThread (b : GDBBridge σ) (command : UInt8) : Option ThreadRef :=
  if b.getThreadIDForCommand command < 0 then none
  else selectedThread b.debugger (b.getThreadIDForCommand command)

theorem registerThread_some {b : GDBBridge σ} {command : UInt8} {i : ThreadRef}
    (h : registerThread b command = some i) : ¬b.getThreadIDForCommand command < 0 ∧
      selectedThread b.debugger (b.getThreadIDForCommand command) = some i := by
  unfold registerThread at h
  split at h
  · cases h
  · exact ⟨by assumption, h⟩

theorem registerThread_lt {b : GDBBridge σ} {command : UInt8} {i : ThreadRef}
    (h : registerThread b command = some i) : i < b.debugger.threads.length :=
  selectedThread_lt (registerThread_some h).2

theorem registerThread_congr {b b' : GDBBridge σ} (hcore : core b'.debugger = core b.debugger)
    (hcommands : b'.threadIdForCommand = b.threadIdForCommand) (command : UInt8) :
    registerThread b' command = registerThread b command := by
  have hids := congrArg Core.threadIds hcore
  have hactive := congrArg Core.activeThreadId hcore
  have hany : b'.debugger.anyThreadID = b.debugger.anyThreadID := by
    rw [anyThreadID_eq, anyThreadID_eq, show b'.debugger.threadIds = _ from hids,
      show b'.debugger.activeThreadId = _ from hactive]
    rfl
  unfold registerThread getThreadIDForCommand selectedThread
  rw [hcommands, hany, getThread_congr hids, getThread_congr hids]

/-- The packet that writes register `n`. -/
def registerPacket (n : Nat) (value : Bytes) : Bytes :=
  byte 'P' :: (hexText n ++ byte '=' :: value)

theorem memchr_registerPacket (n : Nat) (value : Bytes) :
    Gdb.GDBPacket.memchr (byte '=') (registerPacket n value) = some ((hexText n).length + 1) := by
  have hhead : byte '=' ∉ byte 'P' :: hexText n := by
    intro hm
    obtain he | hm := List.mem_cons.mp hm
    · revert he
      decide
    · have hdigit := hexDigits_hexText n _ hm
      revert hdigit
      decide
  exact Frames.memchr_first hhead

theorem hexInt32_registerPacket {n : Nat} (hn : n < 10) (value : Bytes) :
    hexInt32 ((registerPacket n value).drop 1) = some (Int32.ofNat n) := by
  have hend : ∀ c, (byte '=' :: value).head? = some c →
      isDigit 16 c = false ∧ c ≠ 0x78 ∧ c ≠ 0x58 := by
    intro c hc
    cases hc
    decide
  have hparse := maybeParseHexInt_digits (hexDigits_hexText n) (hexText_ne_nil n) hend
  rw [numeral_hexText, Nat.min_eq_left (by omega)] at hparse
  exact congrArg (Option.map fun n => (UInt32.ofNat n).toInt32) hparse

theorem hexUInt64_registerPacket (n : Nat) {value : Bytes} (hv : HexDigits value)
    (hlength : value.length = 8) :
    hexUInt64 ((registerPacket n value).drop ((hexText n).length + 1 + 1)) =
      some (UInt64.ofNat (numeral 16 value)) := by
  have hdrop : (registerPacket n value).drop ((hexText n).length + 1 + 1) = value := by
    change (hexText n ++ byte '=' :: value).drop ((hexText n).length + 1) = value
    rw [List.drop_append, List.drop_eq_nil_of_le (by omega), List.nil_append,
      Nat.add_sub_cancel_left]
    rfl
  have hne : value ≠ [] := by
    intro h
    rw [h] at hlength
    cases hlength
  have hend : ∀ c, ([] : Bytes).head? = some c → isDigit 16 c = false ∧ c ≠ 0x78 ∧ c ≠ 0x58 := by
    intro c hc
    cases hc
  have hparse := maybeParseHexInt_digits hv hne hend
  have hlt := numeral_lt value hv
  rw [hlength] at hlt
  rw [List.append_nil, Nat.min_eq_left (by omega)] at hparse
  rw [hdrop]
  exact congrArg (Option.map UInt64.ofNat) hparse

variable [Xbdm σ]

/-- The packet is read back, and what happens depends on the thread. -/
theorem handlePacket_register {n : Nat} (hn : n < 10) {value : Bytes} (hv : HexDigits value)
    (hlength : value.length = 8) (b : GDBBridge σ) :
    handlePacket (.ofData (registerPacket n value)) b =
      if b.getThreadIDForCommand (byte 'P') < 0 then sendEmpty b
      else match selectedThread b.debugger (b.getThreadIDForCommand (byte 'P')) with
        | none => sendError EBADMSG b
        | some i =>
          writeGeneralRegister i (Int32.ofNat n) (UInt64.ofNat (numeral 16 value)) b := by
  have hgeneral : Int32.ofNat n < 19 := by
    interval_cases n <;> decide
  change handleWriteRegister (registerPacket n value) b = _
  unfold handleWriteRegister
  rw [memchr_registerPacket]
  dsimp only
  rw [hexInt32_registerPacket hn, hexUInt64_registerPacket n hv hlength]
  change (if b.getThreadIDForCommand (byte 'P') < 0 then (sendEmpty : GDBBridge.Handler σ Unit)
    else _) b = _
  split
  · rfl
  · rw [known_bind]
    cases selectedThread b.debugger (b.getThreadIDForCommand (byte 'P')) with
    | none => rfl
    | some i => rfl

end Handlers

section Writing

variable {b b' : GDBBridge Console} {i : ThreadRef}

/-- The registers of a thread as `g` shows them. -/
def registersText (s : Console) (threadId : UInt32) : Bytes :=
  serializeRegisters (some (Console.readContext (s.registers threadId))) (floatOf s threadId)

/-- `g` is answered with the text. -/
def Reads (b : GDBBridge Console) (text : Bytes) : Prop :=
  ∃ b', handlePacket (.ofData [byte 'g']) b = .ok ((), b') ∧
    b'.replies = b.replies ++ [.ofData text]

theorem reply_unique {replies : List Gdb.GDBPacket} {text text' : Bytes}
    (h : replies ++ [.ofData text] = replies ++ [.ofData text']) : text = text' :=
  congrArg Gdb.GDBPacket.data (List.cons.inj (List.append_cancel_left h)).1

theorem Reads.unique {text text' : Bytes} (h : Reads b text) (h' : Reads b text') :
    text = text' := by
  obtain ⟨c, hc, hreply⟩ := h
  obtain ⟨c', hc', hreply'⟩ := h'
  rw [hc] at hc'
  cases hc'
  exact reply_unique (hreply.symm.trans hreply')

theorem reads_registersText (hthread : registerThread b (byte 'g') = some i)
    (hgrant : b.debugger.context.target.refuses
      (.getContext (b.debugger.threadAt i).threadId) = false) :
    Reads b (registersText b.debugger.context.target (b.debugger.threadAt i).threadId) := by
  obtain ⟨hone, hselected⟩ := registerThread_some hthread
  have hi := registerThread_lt hthread
  obtain ⟨hfetched, htarget, hcontext⟩ := fetchContextSync_granted hi hgrant
  have hlength := length_of_ids (congrArg Core.threadIds (aside_core.fetchContextSync i b.debugger))
  have hfloat := fetchFloatContextSync_threadAt (hlength ▸ hi)
  rw [htarget, hcontext] at hfloat
  have hrun : handlePacket (.ofData [byte 'g']) b =
      send (registersText b.debugger.context.target (b.debugger.threadAt i).threadId) { b with
        debugger := (fetchFloatContextSync i (fetchContextSync i b.debugger).2).2 } := by
    change (if b.getThreadIDForCommand (byte 'g') < 0 then
      (sendEmpty : GDBBridge.Handler Console Unit) else _) b = _
    rw [if_neg hone, known_bind, hselected]
    dsimp only
    rw [ask_bind, hfetched]
    change (ask (fetchFloatContextSync i) >>= _) _ = _
    rw [ask_bind, known_bind, hfloat]
    rfl
  exact ⟨_, hrun, rfl⟩

theorem pushContextSync_eq {d : XBDMDebugger Console} {c : ThreadContext}
    (h : (d.threadAt i).context = some c) :
    pushContextSync i d = accepted (.setContext (d.threadAt i).threadId c) d := by
  unfold pushContextSync
  rw [run_bind, run_deref]
  dsimp only
  rw [h]

/-- The debugger once the context of the thread has been fetched and changed to `c`. -/
def changed (i : ThreadRef) (c : ThreadContext) (d : XBDMDebugger Console) : XBDMDebugger Console :=
  (update i (fun t => { t with context := some c }) (fetchContextSync i d).2).2

theorem core_changed (i : ThreadRef) (c : ThreadContext) (d : XBDMDebugger Console) :
    core (changed i c d) = core d := by
  have hupdate : Keeps core (update i fun t => { t with context := some c } : Op Console _) :=
    keeps_update i fun _ => rfl
  exact (hupdate _).trans (aside_core.fetchContextSync i d)

theorem threadAt_changed {d : XBDMDebugger Console} (hi : i < d.threads.length)
    (hgrant : d.context.target.refuses (.getContext (d.threadAt i).threadId) = false)
    (c : ThreadContext) : (changed i c d).threadAt i = { d.threadAt i with context := some c } := by
  have hlength := length_of_ids (congrArg Core.threadIds (aside_core.fetchContextSync i d))
  obtain ⟨-, -, hcontext⟩ := fetchContextSync_granted hi hgrant
  refine (threadAt_update (hlength ▸ hi) _).trans ?_
  rw [hcontext]

/-- `P` on a general register, once the context has been fetched. -/
theorem writeGeneralRegister_fetched {n : Nat} {value : UInt64} {c : ThreadContext}
    (hi : i < b.debugger.threads.length)
    (hgrant : b.debugger.context.target.refuses
      (.getContext (b.debugger.threadAt i).threadId) = false)
    (hset : setRegister (UInt32.ofNat n) value.toUInt32 (Console.readContext
      (b.debugger.context.target.registers (b.debugger.threadAt i).threadId)) = some c) :
    writeGeneralRegister i (Int32.ofNat n) value b =
      let pushed := accepted (.setContext (b.debugger.threadAt i).threadId c)
        (changed i c b.debugger)
      (if pushed.1 then sendOK else sendError EBUSY) { b with debugger := pushed.2 } := by
  obtain ⟨hfetched, htarget, hcontext⟩ := fetchContextSync_granted hi hgrant
  have hthread := threadAt_changed hi hgrant c
  have hbind : ((fetchContextSync i b.debugger).2.threadAt i).context.bind
      (setRegister (Int32.ofNat n).toUInt32 value.toUInt32) = some c := by
    rw [hcontext]
    exact hset
  have hpush : pushContextSync i (changed i c b.debugger) =
      accepted (.setContext (b.debugger.threadAt i).threadId c) (changed i c b.debugger) := by
    rw [pushContextSync_eq (by rw [hthread]), hthread]
  unfold writeGeneralRegister
  rw [ask_bind, hfetched]
  change (known (·.threadAt i) >>= _) _ = _
  rw [known_bind, hbind]
  dsimp only
  rw [ask_bind, ask_bind]
  change (if (!(pushContextSync i (changed i c b.debugger)).1) = true then
      (sendError EBUSY : GDBBridge.Handler Console Unit) else sendOK)
    { b with debugger := (pushContextSync i (changed i c b.debugger)).2 } = _
  rw [hpush]
  cases (accepted (.setContext (b.debugger.threadAt i).threadId c) (changed i c b.debugger)).1 <;>
    rfl

/-- The packet is answered with `OK`. -/
def AnswersOK (data : Bytes) (b b' : GDBBridge Console) : Prop :=
  handlePacket (.ofData data) b = .ok ((), b') ∧ b'.replies = b.replies ++ [.ofData (ascii "OK")]

/-- What a register write has done when it was answered with `OK`. -/
structure Written (n : Nat) (v : UInt32) (b b' : GDBBridge Console) (i : ThreadRef)
    (c : ThreadContext) : Prop where
  thread : registerThread b (byte 'P') = some i
  granted : b.debugger.context.target.refuses
    (.getContext (b.debugger.threadAt i).threadId) = false
  context : setRegister (UInt32.ofNat n) v (Console.readContext
    (b.debugger.context.target.registers (b.debugger.threadAt i).threadId)) = some c
  target : b'.debugger.context.target = { b.debugger.context.target with
    registers := Function.update b.debugger.context.target.registers
      (b.debugger.threadAt i).threadId c.serialize }
  core : core b'.debugger = core b.debugger
  commands : b'.threadIdForCommand = b.threadIdForCommand

theorem error_ne_ok (error : UInt8) : byte 'E' :: hexByte error ≠ ascii "OK" := by
  intro h
  have hhead := (List.cons.inj h).1
  revert hhead
  decide

/-- A write on a known thread that was answered with `OK` had both its requests granted. -/
theorem written_of_ok {n : Nat} (hn : n < 10) {value : UInt64}
    (hthread : registerThread b (byte 'P') = some i)
    (hrun : writeGeneralRegister i (Int32.ofNat n) value b = .ok ((), b'))
    (hreply : b'.replies = b.replies ++ [.ofData (ascii "OK")]) :
    ∃ c, Written n value.toUInt32 b b' i c := by
  have hi := registerThread_lt hthread
  cases hget : b.debugger.context.target.refuses
      (.getContext (b.debugger.threadAt i).threadId) with
  | true =>
    unfold writeGeneralRegister at hrun
    rw [ask_bind, fetchContextSync_refused hget] at hrun
    cases hrun
    exact absurd (reply_unique hreply) (error_ne_ok _)
  | false =>
    obtain ⟨c, hc, -⟩ := general_setRegister hn value.toUInt32 (Console.readContext
      (b.debugger.context.target.registers (b.debugger.threadAt i).threadId))
    have htarget : (changed i c b.debugger).context.target = b.debugger.context.target :=
      (fetchContextSync_granted hi hget).2.1
    rw [writeGeneralRegister_fetched hi hget hc] at hrun
    dsimp only at hrun
    cases hpush : b.debugger.context.target.refuses
        (.setContext (b.debugger.threadAt i).threadId c) with
    | true =>
      rw [accepted_refused (htarget ▸ hpush), if_neg (by decide)] at hrun
      cases hrun
      exact absurd (reply_unique hreply) (error_ne_ok _)
    | false =>
      obtain ⟨haccepted, hgranted⟩ := accepted_granted (htarget ▸ hpush)
      rw [haccepted, if_pos rfl] at hrun
      cases hrun
      rw [htarget] at hgranted
      exact ⟨c, hthread, hget, hc, hgranted,
        (keeps_accepted _ _).trans (core_changed i c b.debugger), rfl⟩

theorem AnswersOK.written {n : Nat} (hn : n < 10) {value : Bytes} (hv : HexDigits value)
    (hlength : value.length = 8) (h : AnswersOK (registerPacket n value) b b') :
    ∃ i c, Written n (UInt64.ofNat (numeral 16 value)).toUInt32 b b' i c := by
  obtain ⟨hrun, hreply⟩ := h
  rw [handlePacket_register hn hv hlength] at hrun
  by_cases hone : b.getThreadIDForCommand (byte 'P') < 0
  · rw [if_pos hone] at hrun
    cases hrun
    exact absurd (reply_unique hreply) (by decide)
  · rw [if_neg hone] at hrun
    cases hi : selectedThread b.debugger (b.getThreadIDForCommand (byte 'P')) with
    | none =>
      rw [hi] at hrun
      cases hrun
      exact absurd (reply_unique hreply) (error_ne_ok _)
    | some i =>
      rw [hi] at hrun
      have hthread : registerThread b (byte 'P') = some i := by
        rw [registerThread, if_neg hone, hi]
      exact ⟨i, written_of_ok hn hthread hrun hreply⟩

/-- A text of eight digits shows the value another one has. -/
def Shows (value text : Bytes) : Prop :=
  HexDigits text ∧ text.length = 8 ∧ numeral 16 text = numeral 16 value

/-- A `g` behind the write shows the value in the field of the register, and the other fields as a
`g` before it does. -/
def WritesField (n : Nat) (value : Bytes) (b b' : GDBBridge Console) : Prop :=
  ∃ before after, Reads b before ∧ Reads b' after ∧ Shows value (field regSizes n after) ∧
    ∀ m, m ≠ n → field regSizes m after = field regSizes m before

theorem Written.reads {n : Nat} {v : UInt32} {c : ThreadContext} (h : Written n v b b' i c)
    (hsame : registerThread b (byte 'g') = registerThread b (byte 'P')) :
    Reads b (registersText b.debugger.context.target (b.debugger.threadAt i).threadId) ∧
      Reads b' (serializeRegisters (some c)
        (floatOf b.debugger.context.target (b.debugger.threadAt i).threadId)) := by
  have hthread : registerThread b (byte 'g') = some i := hsame.trans h.thread
  have hthread' : registerThread b' (byte 'g') = some i :=
    (registerThread_congr h.core h.commands _).trans hthread
  have hid : (b'.debugger.threadAt i).threadId = (b.debugger.threadAt i).threadId :=
    threadAt_id_congr (congrArg Core.threadIds h.core) i
  refine ⟨reads_registersText hthread h.granted, ?_⟩
  have hread := reads_registersText hthread' (by rw [hid, h.target]; exact h.granted)
  rw [hid, h.target] at hread
  unfold registersText at hread
  dsimp only at hread
  rw [Function.update_self, readContext_serialize] at hread
  exact hread

/-- The field of the register holds the bytes of the value in reverse. -/
theorem Written.fields {n : Nat} (hn : n < 10) {v : UInt32} {c : ThreadContext}
    (h : Written n v b b' i c) (m : Nat) :
    field regSizes m (serializeRegisters (some c)
        (floatOf b.debugger.context.target (b.debugger.threadAt i).threadId)) =
      if m = n then hexPadded 8 (byteSwap v.toNat)
      else field regSizes m
        (registersText b.debugger.context.target (b.debugger.threadAt i).threadId) := by
  obtain ⟨c', hc', hgeneral⟩ := general_setRegister hn v (Console.readContext
    (b.debugger.context.target.registers (b.debugger.threadAt i).threadId))
  obtain rfl := Option.some.inj (h.context.symm.trans hc')
  exact field_set hn hgeneral _ m

theorem toNat_value {value : Bytes} (hv : HexDigits value) (hlength : value.length = 8) :
    (UInt64.ofNat (numeral 16 value)).toUInt32.toNat = numeral 16 value := by
  have hlt := numeral_lt value hv
  rw [hlength] at hlt
  rw [UInt64.toNat_toUInt32, UInt64.toNat_ofNat_of_lt' (Nat.lt_trans hlt (by decide)),
    Nat.mod_eq_of_lt (show numeral 16 value < 2 ^ 32 from hlt)]

theorem shows_swapped {value : Bytes} (hv : HexDigits value) (hlength : value.length = 8) :
    Shows value (hexPadded 8 (byteSwap (numeral 16 value))) ↔
      byteSwap (numeral 16 value) = numeral 16 value := by
  have hlt := numeral_lt value hv
  rw [hlength] at hlt
  unfold Shows
  rw [numeral_hexPadded]
  exact ⟨fun h => h.2.2,
    fun h => ⟨hexDigits_hexPadded _ _, length_hexPadded (by decide) (byteSwap_lt hlt), h⟩⟩

/-- The write shows as written exactly when the value reads the same with its bytes in reverse. -/
theorem writesField_iff_palindrome {n : Nat} (hn : n < 10) {value : Bytes} (hv : HexDigits value)
    (hlength : value.length = 8)
    (hsame : registerThread b (byte 'g') = registerThread b (byte 'P'))
    (hok : AnswersOK (registerPacket n value) b b') :
    WritesField n value b b' ↔ byteSwap (numeral 16 value) = numeral 16 value := by
  obtain ⟨i, c, hwritten⟩ := hok.written hn hv hlength
  obtain ⟨hbefore, hafter⟩ := hwritten.reads hsame
  have hfields := hwritten.fields hn
  rw [toNat_value hv hlength] at hfields
  rw [← shows_swapped hv hlength]
  constructor
  · rintro ⟨before, after, -, hread, hshows, -⟩
    rw [hread.unique hafter, hfields, if_pos rfl] at hshows
    exact hshows
  · intro hshows
    refine ⟨_, _, hbefore, hafter, ?_, ?_⟩
    · rw [hfields, if_pos rfl]
      exact hshows
    · intro m hm
      rw [hfields, if_neg hm]

/-- A thread with all general registers at zero, on a target that refuses nothing. -/
def zeroed : GDBBridge Console where
  debugger := {
    context := { target := {
      registers := fun _ => ThreadContext.serialize ⟨some 0, some 0, some 0, some 0, some 0, some 0,
        some 0, some 0, some 0, some 0, none⟩
      floats := fun _ => [] } }
    threads := [{ threadId := 1 }] }

theorem zeroed_answersOK {n : Nat} (hn : n < 10) {value : Bytes} (hv : HexDigits value)
    (hlength : value.length = 8) : ∃ b', AnswersOK (registerPacket n value) zeroed b' := by
  have hthread : registerThread zeroed (byte 'P') = some 0 := by decide
  obtain ⟨hone, hselected⟩ := registerThread_some hthread
  obtain ⟨c, hc, -⟩ := general_setRegister hn (UInt64.ofNat (numeral 16 value)).toUInt32
    (Console.readContext (zeroed.debugger.context.target.registers
      (zeroed.debugger.threadAt 0).threadId))
  unfold AnswersOK
  rw [handlePacket_register hn hv hlength, if_neg hone, hselected]
  dsimp only
  rw [writeGeneralRegister_fetched (by decide) rfl hc]
  dsimp only
  rw [(accepted_granted rfl).1, if_pos rfl]
  exact ⟨_, rfl, rfl⟩

theorem writesField_zeroed : ∃ b', AnswersOK (registerPacket 0 (ascii "00000000")) zeroed b' ∧
    WritesField 0 (ascii "00000000") zeroed b' := by
  have hn : 0 < 10 := by decide
  have hv : HexDigits (ascii "00000000") := by
    unfold HexDigits
    decide +kernel
  obtain ⟨b', hok⟩ := zeroed_answersOK hn hv rfl
  exact ⟨b', hok, (writesField_iff_palindrome hn hv rfl (by decide) hok).mpr (by decide)⟩

/-- `P0=00000001` is answered `OK`, and `g` then shows "01000000". -/
theorem not_writesField_one : ∃ b', AnswersOK (registerPacket 0 (ascii "00000001")) zeroed b' ∧
    ¬WritesField 0 (ascii "00000001") zeroed b' := by
  have hn : 0 < 10 := by decide
  have hv : HexDigits (ascii "00000001") := by
    unfold HexDigits
    decide +kernel
  obtain ⟨b', hok⟩ := zeroed_answersOK hn hv rfl
  obtain ⟨i, c, hwritten⟩ := hok.written hn hv rfl
  refine ⟨b', hok, ?_⟩
  rintro ⟨before, after, -, hread, hshows, -⟩
  rw [hread.unique (hwritten.reads (by decide)).2, hwritten.fields hn, if_pos rfl,
    toNat_value hv rfl] at hshows
  have hswap := (shows_swapped hv rfl).mp hshows
  revert hswap
  decide

end Writing

end XbdmGdbBridge.Proofs
