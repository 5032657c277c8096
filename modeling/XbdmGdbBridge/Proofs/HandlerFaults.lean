import XbdmGdbBridge.Proofs.Frames
import XbdmGdbBridge.Proofs.Handlers

/-!
# Where the handlers fault

For each handler that can fail an assertion, read outside a buffer or use an absent value: on
which texts, and in which states of the debugger, it does.
-/

namespace XbdmGdbBridge.Proofs

open Lib Program CText Gdb GDBBridge

variable {σ : Type}

/-- `data` cut at the first `c`. -/
structure Cut (c : UInt8) (data left right : Bytes) : Prop where
  eq : data = left ++ c :: right
  first : c ∉ left

section Cuts

variable {c d : UInt8} {data left right : Bytes}

theorem cut_or_absent (c : UInt8) (data : Bytes) :
    (∃ left right, Cut c data left right) ∨ c ∉ data := by
  by_cases h : c ∈ data
  · obtain ⟨left, right, he, hl⟩ := Frames.split_first h
    exact .inl ⟨left, right, he, hl⟩
  · exact .inr h

theorem Cut.memchr (h : Cut c data left right) :
    GDBPacket.memchr c data = some left.length := by
  rw [h.eq]
  exact Frames.memchr_first h.first

theorem Cut.take (h : Cut c data left right) : data.take left.length = left := by
  simp [h.eq]

theorem Cut.drop (h : Cut c data left right) : data.drop (left.length + 1) = right := by
  simp [h.eq]

theorem Cut.cons (h : Cut c data left right) (hd : d ≠ c) : Cut c (d :: data) (d :: left) right := by
  refine ⟨by simp [h.eq], ?_⟩
  intro hm
  rcases List.mem_cons.mp hm with he | hm
  · exact hd he.symm
  · exact h.first hm

theorem Cut.append (h : Cut c data left right) (front : Bytes) (hf : c ∉ front) :
    Cut c (front ++ data) (front ++ left) right := by
  refine ⟨by simp [h.eq], ?_⟩
  intro hm
  rcases List.mem_append.mp hm with hm | hm
  · exact hf hm
  · exact h.first hm

end Cuts

/-- The three texts of a memory write behind its command letter. -/
structure WriteParts (rest address length payload : Bytes) : Prop where
  comma : ∃ tail, Cut (byte ',') rest address tail ∧ Cut (byte ':') tail length payload
  order : byte ':' ∉ address

section Interrupt

variable [Xbdm σ]

/-- Resuming leaves the threads and the active one as they are. -/
theorem goUnlessStarted_core (b : GDBBridge σ) :
    ∃ b', goUnlessStarted b = .ok ((), b') ∧ core b'.debugger = core b.debugger := by
  unfold goUnlessStarted
  rw [known_bind]
  split
  · exact ⟨_, rfl, aside_core.go b.debugger⟩
  · exact ⟨b, rfl, rfl⟩

omit [Xbdm σ] in
theorem faultOf_reportActiveThread (b : GDBBridge σ) :
    faultOf reportActiveThread b =
      if b.debugger.activeThread = none then some .assertion else none := by
  unfold reportActiveThread
  rw [faultOf_known_bind]
  cases hactive : b.debugger.activeThread with
  | none => rfl
  | some i => exact (answers_stopPacket_or i answers_sendOK).safe b

theorem faultOf_interrupt (b : GDBBridge σ) :
    faultOf handleInterruptRequest b =
      if b.debugger.threads = [] then some .assertion else none := by
  have hafter : ∀ d : XBDMDebugger σ, ∃ d' : XBDMDebugger σ, core d' = core d ∧
      faultOf (do goUnlessStarted; reportActiveThread) { b with debugger := d } =
        if d'.activeThread = none then some .assertion else none := by
    intro d
    obtain ⟨b', hb, hcore⟩ := goUnlessStarted_core { b with debugger := d }
    refine ⟨b'.debugger, hcore, ?_⟩
    rw [faultOf_bind, hb]
    exact faultOf_reportActiveThread b'
  unfold handleInterruptRequest
  rw [faultOf_ask_bind, faultOf_ite]
  obtain ⟨d', hcore, hfault⟩ := hafter (XBDMDebugger.haltAll
    XBDMDebugger.kDefaultHaltAllMaxWaitMilliseconds b.debugger).2
  rw [hfault]
  by_cases hempty : b.debugger.threads = []
  · -- Nothing is halted, and no thread can be active in an empty list.
    rw [haltAll_eq, if_pos hempty] at hcore ⊢
    have hids : d'.threadIds = [] := by
      rw [show d'.threadIds = _ from congrArg Core.threadIds hcore]
      simp [core, XBDMDebugger.threadIds, hempty]
    rw [if_pos hempty, activeThread_nil hids]
    rfl
  · rw [if_neg hempty]
    cases hok : (XBDMDebugger.haltAll XBDMDebugger.kDefaultHaltAllMaxWaitMilliseconds
      b.debugger).1 with
    | false => rfl
    | true =>
      have hactive := haltAll_active _ hempty hok
      rw [← hcore] at hactive
      have hsome := activeThread_isSome hactive
      rw [if_neg (by simp), if_neg (by simpa [Option.isSome_iff_ne_none] using hsome)]

end Interrupt

section Memory

variable [Xbdm σ] {rest address length : Bytes}

theorem readMemory_missing (b : GDBBridge σ) (h : byte ',' ∉ rest) :
    faultOf (handleReadMemory (byte 'm' :: rest)) b = some .range := by
  have hm : byte ',' ∉ byte 'm' :: rest := by
    intro hm
    rcases List.mem_cons.mp hm with he | hm
    · exact absurd he (by decide)
    · exact h hm
  unfold handleReadMemory
  rw [Frames.memchr_none hm]
  rfl

theorem faultOf_getMemory (d : XBDMDebugger σ) (a n : UInt32) :
    faultOf (XBDMDebugger.getMemory a n) d = if n = 0 then some .assertion else none := by
  unfold XBDMDebugger.getMemory XBDMDebugger.validateMemoryAccess
  by_cases hn : n = 0
  · simp only [hn, if_true]
    rfl
  · simp only [hn, if_false]
    change faultOf (ite _ _ _) d = none
    rw [faultOf_ite]
    split <;> rfl

theorem readMemory_cut (b : GDBBridge σ) (h : Cut (byte ',') rest address length) :
    faultOf (handleReadMemory (byte 'm' :: rest)) b =
      if (hexUInt32 address).isSome ∧ hexUInt32 length = some 0 then some .assertion else none := by
  have hc : Cut (byte ',') (byte 'm' :: rest) (byte 'm' :: address) length := h.cons (by decide)
  unfold handleReadMemory
  rw [hc.memchr]
  simp only [hc.take, hc.drop, List.drop_one, List.tail_cons]
  cases hexUInt32 address with
  | none => rfl
  | some a =>
    cases hexUInt32 length with
    | none => rfl
    | some n =>
      refine (faultOf_attempt_bind ?_ b).trans ?_
      · intro memory
        cases memory with
        | none => exact (answers_sendError _).safe
        | some bytes => exact (answers_send _).safe
      · simp [faultOf_getMemory]

/-- What can stand behind the letter of a write: no usable comma, numbers without data, or all
three parts. -/
theorem write_cases (rest : Bytes) :
    (∀ address tail, Cut (byte ',') rest address tail → byte ':' ∈ address) ∨
    (∃ address length, Cut (byte ',') rest address length ∧ byte ':' ∉ address ∧
      byte ':' ∉ length) ∨
    ∃ address length payload, WriteParts rest address length payload := by
  by_cases h : ∃ address tail, Cut (byte ',') rest address tail ∧ byte ':' ∉ address
  · obtain ⟨address, tail, hcut, horder⟩ := h
    right
    rcases cut_or_absent (byte ':') tail with ⟨length, payload, hcolon⟩ | hcolon
    · exact .inr ⟨address, length, payload, ⟨tail, hcut, hcolon⟩, horder⟩
    · exact .inl ⟨address, tail, hcut, horder, hcolon⟩
  · left
    intro address tail hcut
    by_contra horder
    exact h ⟨address, tail, hcut, horder⟩

section Parts

variable {command : UInt8} {payload : Bytes}

omit [Xbdm σ] in
theorem writeParts_bad (hc : command ≠ byte ',') (hd : command ≠ byte ':')
    (h : ∀ address tail, Cut (byte ',') rest address tail → byte ':' ∈ address) :
    writeParts (command :: rest) = none := by
  rcases cut_or_absent (byte ',') rest with ⟨address, tail, hcut⟩ | habsent
  · obtain ⟨front, behind, he, hf⟩ := Frames.split_first (h address tail hcut)
    have hcolon : Cut (byte ':') rest front (behind ++ byte ',' :: tail) :=
      ⟨by simp [hcut.eq, he], hf⟩
    have hlt : front.length ≤ address.length := by simp [he]
    unfold writeParts
    rw [(hcut.cons hc).memchr, (hcolon.cons hd).memchr]
    exact if_pos (by simpa using hlt)
  · unfold writeParts
    rw [Frames.memchr_none (by simp [Ne.symm hc, habsent])]

omit [Xbdm σ] in
theorem writeParts_unfinished (hc : command ≠ byte ',') (hd : command ≠ byte ':')
    (h : Cut (byte ',') rest address length) (ha : byte ':' ∉ address) (hl : byte ':' ∉ length) :
    writeParts (command :: rest) = some (address, length, none) := by
  have habsent : byte ':' ∉ command :: rest := by
    have : byte ':' ≠ byte ',' := by decide
    simp [h.eq, ha, hl, this, Ne.symm hd]
  unfold writeParts
  rw [(h.cons hc).memchr, Frames.memchr_none habsent]
  simp only [(h.cons hc).take, (h.cons hc).drop, List.drop_one, List.tail_cons]

omit [Xbdm σ] in
theorem writeParts_full (hc : command ≠ byte ',') (hd : command ≠ byte ':')
    (h : WriteParts rest address length payload) :
    writeParts (command :: rest) = some (address, length, some payload) := by
  obtain ⟨⟨tail, hcut, hcolon⟩, horder⟩ := h
  have hfront : byte ':' ∉ address ++ [byte ','] := by
    have : byte ':' ≠ byte ',' := by decide
    simp [horder, this]
  have hwhole : Cut (byte ':') rest (address ++ [byte ','] ++ length) payload := by
    have := hcolon.append _ hfront
    rwa [show address ++ [byte ','] ++ tail = rest by simp [hcut.eq]] at this
  unfold writeParts
  rw [(hcut.cons hc).memchr, (hwhole.cons hd).memchr]
  simp only [(hcut.cons hc).take, (hwhole.cons hd).take, (hwhole.cons hd).drop, List.drop_one,
    List.tail_cons]
  rw [if_neg (by simp)]
  simp

end Parts

section Stores

theorem faultOf_setMemory (d : XBDMDebugger σ) (a : UInt32) (data : Bytes) :
    faultOf (XBDMDebugger.setMemory a data) d =
      if UInt32.ofNat data.length = 0 ∨
          (d.accessible a (UInt32.ofNat data.length) true = true ∧
            XBDMDebugger.kMaximumDataSize < data.length) then some .assertion else none := by
  unfold XBDMDebugger.setMemory XBDMDebugger.validateMemoryAccess
  by_cases hz : UInt32.ofNat data.length = 0
  · simp only [hz, if_true, true_or]
    rfl
  · simp only [hz, if_false, false_or]
    change faultOf (ite _ _ _) d = _
    rw [faultOf_ite, faultOf_ite]
    by_cases hw : d.accessible a (UInt32.ofNat data.length) true = true
    · by_cases hl : XBDMDebugger.kMaximumDataSize < data.length
      · simp [hw, hl]
      · simp [hw, hl]
    · simp [hw]

theorem faultOf_finishWrite (b : GDBBridge σ) (a n : UInt32) (data : Bytes) :
    faultOf (finishWrite a n data) b =
      if data.length = n.toNat ∧ (n = 0 ∨ (b.debugger.accessible a n true = true ∧
          XBDMDebugger.kMaximumDataSize < data.length)) then some .assertion else none := by
  unfold finishWrite
  rw [faultOf_ite]
  by_cases hlen : data.length = n.toNat
  · have hn : UInt32.ofNat data.length = n := by rw [hlen, UInt32.ofNat_toNat]
    rw [if_neg (by simpa using hlen)]
    refine (faultOf_attempt_bind ?_ b).trans ?_
    · intro written
      exact Safe.ite (fun _ => (answers_sendError _).safe) fun _ => answers_sendOK.safe
    · rw [faultOf_setMemory, hn]
      simp [hlen]
  · rw [if_pos hlen, if_neg (fun h => hlen h.1)]
    exact (answers_sendError _).safe b

theorem faultOf_storeHex (b : GDBBridge σ) (a n : UInt32) (text : Bytes) :
    faultOf (storeHex a n text) b =
      match text with
      | [] => if n = 0 then some .assertion else none
      | [_] => some .exception
      | high :: low :: _ =>
        if isDigit 16 high && isDigit 16 low then some .emptyAccess else some .exception := by
  unfold storeHex
  match text with
  | [] =>
    change faultOf (finishWrite a n []) b = _
    rw [faultOf_finishWrite]
    have : (0 = n.toNat) ↔ n = 0 := by
      rw [← UInt32.toNat_inj]
      exact eq_comm
    simp [this]
  | [_] => rfl
  | high :: low :: _ =>
    simp only [unhexIntoEmpty]
    cases isDigit 16 high && isDigit 16 low with
    | false => rfl
    | true => rfl

variable {command : UInt8} {payload : Bytes} {store : UInt32 → UInt32 → Bytes → Handler σ Unit}

omit [Xbdm σ] in
theorem faultOf_write_bad (b : GDBBridge σ) (hc : command ≠ byte ',') (hd : command ≠ byte ':')
    (h : ∀ address tail, Cut (byte ',') rest address tail → byte ':' ∈ address) :
    faultOf (handleWrite store (command :: rest)) b = some .range := by
  unfold handleWrite
  rw [writeParts_bad hc hd h]
  rfl

omit [Xbdm σ] in
theorem faultOf_write_unfinished (b : GDBBridge σ) (hc : command ≠ byte ',')
    (hd : command ≠ byte ':') (h : Cut (byte ',') rest address length) (ha : byte ':' ∉ address)
    (hl : byte ':' ∉ length) :
    faultOf (handleWrite store (command :: rest)) b =
      if (hexUInt32 address).isSome ∧ (hexUInt32 length).isSome then some .range else none := by
  unfold handleWrite
  rw [writeParts_unfinished hc hd h ha hl]
  dsimp only
  cases hexUInt32 length with
  | none =>
    rw [if_neg (by simp)]
    exact answers_sendOK.safe b
  | some n =>
    cases hexUInt32 address with
    | none => rfl
    | some a => rfl

omit [Xbdm σ] in
theorem faultOf_write_full (b : GDBBridge σ) (hc : command ≠ byte ',') (hd : command ≠ byte ':')
    (h : WriteParts rest address length payload) :
    faultOf (handleWrite store (command :: rest)) b =
      match hexUInt32 address, hexUInt32 length with
      | some a, some n => faultOf (store a n payload) b
      | _, _ => none := by
  unfold handleWrite
  rw [writeParts_full hc hd h]
  dsimp only
  cases hexUInt32 length with
  | none => cases hexUInt32 address <;> rfl
  | some n => cases hexUInt32 address <;> rfl

end Stores

end Memory

section Registers

theorem floatIndex_iff (n : Int32) :
    (FLOAT_REGISTER_OFFSET ≤ n.toUInt32.toNat ∧ n.toUInt32.toNat < FLOAT_REGISTER_OFFSET + 8) ↔
      (19 ≤ n ∧ n ≤ 26) := by
  rw [Int32.le_iff_toInt_le, Int32.le_iff_toInt_le]
  have h := BitVec.toInt_eq_toNat_cond n.toBitVec
  have hlt := n.toBitVec.isLt
  change n.toInt = _ at h
  have h19 : (19 : Int32).toInt = 19 := by decide
  have h26 : (26 : Int32).toInt = 26 := by decide
  rw [h19, h26, show n.toUInt32.toNat = n.toBitVec.toNat from rfl, FLOAT_REGISTER_OFFSET]
  split at h <;> omega

theorem faultOf_answerRegister (b : GDBBridge σ) (n : Int32) (t : Thread) :
    faultOf (answerRegister n t) b =
      if t.context.isSome ∧ (19 ≤ n ∧ n ≤ 26) ∧ t.floatContext = none then some .absent
      else none := by
  have hiff := floatIndex_iff n
  unfold answerRegister Registers.getRegister
  cases t.context with
  | none => rfl
  | some c =>
    dsimp only
    by_cases hlow : n.toUInt32.toNat < 10
    · rw [if_pos hlow, if_neg]
      · cases (((Registers.general c)[n.toUInt32.toNat]?).join).map fun v => v.toInt64.toUInt64 with
        | none => exact answers_sendEmpty.safe b
        | some v => exact (answers_send _).safe b
      · intro h
        have hrange := (hiff.mpr h.2.1).1
        rw [FLOAT_REGISTER_OFFSET] at hrange
        omega
    · rw [if_neg hlow]
      by_cases hfloat : FLOAT_REGISTER_OFFSET ≤ n.toUInt32.toNat ∧
          n.toUInt32.toNat < FLOAT_REGISTER_OFFSET + 8
      · rw [if_pos hfloat]
        cases t.floatContext with
        | none =>
          rw [if_pos ⟨rfl, hiff.mp hfloat, rfl⟩]
          rfl
        | some f =>
          rw [if_neg (by simp)]
          dsimp only
          cases ((Registers.stack f)[n.toUInt32.toNat - FLOAT_REGISTER_OFFSET]?).map
              Int64.toUInt64 with
          | none => exact answers_sendEmpty.safe b
          | some v => exact (answers_send _).safe b
      · rw [if_neg hfloat, if_neg (fun h => hfloat (hiff.mpr h.2.1))]
        exact answers_sendEmpty.safe b

variable [Xbdm σ] {rest : Bytes}

/-- The conditions under which a register read finds no float context to read from. -/
structure FloatMissing (b : GDBBridge σ) (n : Int32) (i : ThreadRef) : Prop where
  range : 19 ≤ n ∧ n ≤ 26
  selected : 0 ≤ b.getThreadIDForCommand (byte 'p')
  thread : selectedThread b.debugger (b.getThreadIDForCommand (byte 'p')) = some i
  known : (b.debugger.threadAt i).context.isSome
  refused : (XBDMDebugger.request (.getExtContext (b.debugger.threadAt i).threadId)
    b.debugger).1 = none

omit [Xbdm σ] in
theorem selectedThread_lt {d : XBDMDebugger σ} {id : Int32} {i : ThreadRef}
    (h : selectedThread d id = some i) : i < d.threads.length := by
  unfold selectedThread at h
  split at h
  · exact getThread_lt h
  · exact getThread_lt h

/-- The float part of a register read, for the thread at position `i`. -/
theorem faultOf_readFloat (b : GDBBridge σ) (n : Int32) {i : ThreadRef}
    (hi : i < b.debugger.threads.length) :
    faultOf (do
        let _ ← ask (XBDMDebugger.fetchFloatContextSync i)
        answerRegister n (← known (·.threadAt i)) : Handler σ Unit) b =
      if (b.debugger.threadAt i).context.isSome ∧ (19 ≤ n ∧ n ≤ 26) ∧
        (XBDMDebugger.request (.getExtContext (b.debugger.threadAt i).threadId)
          b.debugger).1 = none then some .absent else none := by
  rw [faultOf_ask_bind, faultOf_known_bind, faultOf_answerRegister]
  unfold XBDMDebugger.fetchFloatContextSync
  rw [fetch_threadAt hi]
  cases (XBDMDebugger.request (.getExtContext (b.debugger.threadAt i).threadId) b.debugger).1 with
  | none => simp
  | some reply => simp

theorem faultOf_readRegister (b : GDBBridge σ) {n : Int32} (hn : hexInt32 rest = some n) :
    faultOf (handleReadRegister (byte 'p' :: rest)) b = some .absent ∧
      (∃ i, FloatMissing b n i) ∨
    faultOf (handleReadRegister (byte 'p' :: rest)) b = none ∧ ¬∃ i, FloatMissing b n i := by
  unfold handleReadRegister
  rw [show (byte 'p' :: rest).drop 1 = rest from rfl, hn]
  dsimp only
  rw [faultOf_get_bind]
  by_cases hneg : b.getThreadIDForCommand (byte 'p') < 0
  · rw [if_pos hneg]
    refine .inr ⟨answers_sendEmpty.safe b, ?_⟩
    rintro ⟨i, hmiss⟩
    exact absurd hmiss.selected (by simpa using hneg)
  rw [if_neg hneg, faultOf_known_bind]
  have hsel : 0 ≤ b.getThreadIDForCommand (byte 'p') := by simpa using hneg
  cases hthread : selectedThread b.debugger (b.getThreadIDForCommand (byte 'p')) with
  | none =>
    refine .inr ⟨(answers_sendError _).safe b, ?_⟩
    rintro ⟨i, hmiss⟩
    exact absurd (hthread.symm.trans hmiss.thread) (by simp)
  | some i =>
    dsimp only
    by_cases hlow : n < 19
    · have hout : ¬(19 ≤ n ∧ n ≤ 26) := fun h => absurd h.1 (by simpa using hlow)
      rw [if_pos hlow, faultOf_ask_bind]
      refine .inr ⟨?_, fun ⟨_, hmiss⟩ => hout hmiss.range⟩
      rw [faultOf_ite]
      split
      · exact (answers_sendError _).safe _
      · rw [faultOf_known_bind, faultOf_answerRegister, if_neg (fun h => hout h.2.1)]
    · rw [if_neg hlow, faultOf_readFloat b n (selectedThread_lt hthread)]
      split
      · rename_i h
        exact .inl ⟨rfl, i, h.2.1, hsel, hthread, h.1, h.2.2⟩
      · rename_i h
        refine .inr ⟨rfl, ?_⟩
        rintro ⟨j, hmiss⟩
        obtain rfl : j = i := Option.some.inj (hmiss.thread.symm.trans hthread)
        exact h ⟨hmiss.known, hmiss.range, hmiss.refused⟩

end Registers

section Queries

theorem featureAnswer_error (feature : Bytes) :
    (∃ answer, featureAnswer feature = .ok answer) ∧ feature ≠ [] ∨
    featureAnswer feature = .error .emptyAccess ∧ feature = [] := by
  unfold featureAnswer
  cases feature with
  | nil => exact .inr ⟨by decide, rfl⟩
  | cons c rest =>
    refine .inl ⟨?_, by simp⟩
    cases namedFeatures.lookup (c :: rest) with
    | some answer => exact ⟨answer, rfl⟩
    | none =>
      rw [List.getLast?_eq_some_getLast (List.cons_ne_nil c rest)]
      exact ⟨_, rfl⟩

theorem featureAnswers_error (features : List Bytes) :
    (∃ answers, featureAnswers features = .ok answers) ∧ [] ∉ features ∨
    featureAnswers features = .error .emptyAccess ∧ [] ∈ features := by
  induction features with
  | nil => exact .inl ⟨⟨[], rfl⟩, by simp⟩
  | cons feature rest ih =>
    rcases featureAnswer_error feature with ⟨⟨answer, hf⟩, hne⟩ | ⟨hf, rfl⟩
    · rcases ih with ⟨⟨answers, hr⟩, hm⟩ | ⟨hr, hm⟩
      · refine .inl ⟨⟨answer ++ answers, ?_⟩, by simp [hm, Ne.symm hne]⟩
        simp [featureAnswers, hf, hr, Bind.bind, Except.bind, pure, Except.pure]
      · refine .inr ⟨?_, List.mem_cons_of_mem _ hm⟩
        simp [featureAnswers, hf, hr, Bind.bind, Except.bind]
    · refine .inr ⟨?_, List.mem_cons_self⟩
      simp [featureAnswers, hf, Bind.bind, Except.bind]

variable {rest front list : Bytes}

theorem supported_cut (b : GDBBridge σ) (h : Cut (byte ':') rest front list) :
    faultOf (handleQuerySupported (ascii "qSupported" ++ rest)) b =
      if [] ∈ split (byte ';') list then some .emptyAccess else none := by
  have hc := h.append (ascii "qSupported") (by decide)
  unfold handleQuerySupported
  rw [hc.memchr]
  simp only [hc.drop]
  rcases featureAnswers_error (split (byte ';') list) with ⟨⟨answers, hf⟩, hm⟩ | ⟨hf, hm⟩
  · rw [hf, if_neg hm]
    exact (answers_send _).safe b
  · rw [hf, if_pos hm]
    rfl

theorem supported_missing (b : GDBBridge σ) (h : byte ':' ∉ rest) :
    faultOf (handleQuerySupported (ascii "qSupported" ++ rest)) b = none := by
  have hm : byte ':' ∉ ascii "qSupported" ++ rest := by
    rw [List.mem_append, not_or]
    exact ⟨by decide, h⟩
  unfold handleQuerySupported
  rw [Frames.memchr_none hm]
  exact answers_sendEmpty.safe b

theorem extraInfo_missing (b : GDBBridge σ) (h : byte ',' ∉ rest) :
    faultOf (handleQueryThreadExtraInfo (ascii "qThreadExtraInfo" ++ rest)) b = some .range := by
  have hm : byte ',' ∉ ascii "qThreadExtraInfo" ++ rest := by
    rw [List.mem_append, not_or]
    exact ⟨by decide, h⟩
  unfold handleQueryThreadExtraInfo
  rw [Frames.memchr_none hm]
  rfl

/-- A thread that is stopped for a reason that is not known. -/
structure ReasonMissing (b : GDBBridge σ) (id : Bytes) (n : Int32) (i : ThreadRef) : Prop where
  number : hexInt32 id = some n
  thread : b.debugger.getThread n.toUInt32 = some i
  stopped : (b.debugger.threadAt i).stopped = true
  reason : (b.debugger.threadAt i).lastStopReason = none

theorem extraInfo_cut (b : GDBBridge σ) (h : Cut (byte ',') rest front list) :
    faultOf (handleQueryThreadExtraInfo (ascii "qThreadExtraInfo" ++ rest)) b = some .absent ∧
      (∃ n i, ReasonMissing b list n i) ∨
    faultOf (handleQueryThreadExtraInfo (ascii "qThreadExtraInfo" ++ rest)) b = none ∧
      ¬∃ n i, ReasonMissing b list n i := by
  have hc := h.append (ascii "qThreadExtraInfo") (by decide)
  unfold handleQueryThreadExtraInfo
  rw [hc.memchr]
  simp only [hc.drop]
  cases hn : hexInt32 list with
  | none =>
    refine .inr ⟨(answers_sendError _).safe b, ?_⟩
    rintro ⟨n, i, hmiss⟩
    exact absurd (hn.symm.trans hmiss.number) (by simp)
  | some n =>
    dsimp only
    rw [faultOf_known_bind]
    cases ht : b.debugger.getThread n.toUInt32 with
    | none =>
      refine .inr ⟨(answers_sendError _).safe b, ?_⟩
      rintro ⟨m, i, hmiss⟩
      obtain rfl : m = n := Option.some.inj (hmiss.number.symm.trans hn)
      exact absurd (ht.symm.trans hmiss.thread) (by simp)
    | some i =>
      dsimp only
      rw [faultOf_known_bind]
      cases hs : (b.debugger.threadAt i).stopped with
      | false =>
        refine .inr ⟨(answers_send _).safe b, ?_⟩
        rintro ⟨m, j, hmiss⟩
        obtain rfl : m = n := Option.some.inj (hmiss.number.symm.trans hn)
        obtain rfl : j = i := Option.some.inj (hmiss.thread.symm.trans ht)
        exact absurd (hs.symm.trans hmiss.stopped) (by simp)
      | true =>
        cases hr : (b.debugger.threadAt i).lastStopReason with
        | none => exact .inl ⟨rfl, n, i, hn, ht, hs, hr⟩
        | some reason =>
          refine .inr ⟨(answers_send _).safe b, ?_⟩
          rintro ⟨m, j, hmiss⟩
          obtain rfl : m = n := Option.some.inj (hmiss.number.symm.trans hn)
          obtain rfl : j = i := Option.some.inj (hmiss.thread.symm.trans ht)
          exact absurd (hr.symm.trans hmiss.reason) (by simp)

end Queries

section VCont

variable [Xbdm σ]

theorem quiet_vContContinue (processed : List UInt32) (id : Int32) :
    Quiet (vContContinue processed id : Handler σ _) := by
  unfold vContContinue
  apply Quiet.ite ((quiet_ask _).bind fun _ => Quiet.pure _)
  apply Quiet.ite ((quiet_ask _).bind fun _ => Quiet.pure _)
  exact (quiet_known _).bind fun _ => quiet_ask _

theorem safe_vContStep (id : Int32) : Safe (vContStep id : Handler σ _) := by
  unfold vContStep
  refine Safe.ite (fun _ => ?_) fun _ => (answers_sendError _).safe
  apply (quiet_ask _).safe.bind
  intro _
  apply (quiet_ask _).safe.bind
  intro stepped
  exact Safe.ite (fun _ => (answers_sendError _).safe) fun _ => (Quiet.pure _).safe

theorem safe_vContElement (processed : List UInt32) {command : Bytes} (h : command ≠ []) :
    Safe (vContElement processed command : Handler σ _) := by
  unfold vContElement
  cases elementThreadId command with
  | none => exact (answers_sendError _).safe.bind fun _ => Safe.pure _
  | some id =>
    refine Safe.bind ?_ fun _ => Safe.pure _
    cases command with
    | nil => exact absurd rfl h
    | cons code rest =>
      refine Safe.ite (fun _ => (quiet_vContContinue _ _).safe) fun _ => ?_
      exact Safe.ite (fun _ => safe_vContStep _) fun _ => answers_sendEmpty.safe

theorem faultOf_vContElements (processed : List UInt32) (commands : List Bytes)
    (b : GDBBridge σ) :
    faultOf (vContElements processed commands) b =
      if [] ∈ commands then some .emptyAccess else none := by
  induction commands generalizing processed b with
  | nil => rfl
  | cons command rest ih =>
    unfold vContElements
    by_cases hne : command = []
    · subst hne
      rfl
    · obtain ⟨next, b', hrun⟩ := faultOf_eq_none_iff.mp (safe_vContElement processed hne b)
      rw [faultOf_bind, hrun]
      simp only [ih, List.mem_cons, Ne.symm hne, false_or]

omit [Xbdm σ] in
theorem safe_sendThreadStopPacket (thread : Option ThreadRef) :
    Safe (sendThreadStopPacket thread : Handler σ _) := by
  intro b
  cases thread with
  | none => rfl
  | some i =>
    rw [faultOf, sendThreadStopPacket_some]
    cases reportable (b.debugger.threadAt i) with
    | none => rfl
    | some reason => rfl

theorem safe_markWaiting : Safe (markWaitingForStopPacket : Handler σ _) := by
  unfold markWaitingForStopPacket
  apply (quiet_ask _).safe.bind
  intro found
  cases found with
  | none => exact fun _ => rfl
  | some i => exact (safe_sendThreadStopPacket _).bind fun _ => fun _ => rfl

theorem faultOf_vCont (args : Bytes) (b : GDBBridge σ) :
    faultOf (handleVCont args) b =
      if [] ∈ split (byte ';') args then some .emptyAccess else none := by
  have hrefuse : Safe (refuseEmpty args : Handler σ _) := by
    unfold refuseEmpty
    exact Safe.ite (fun _ => (answers_sendError _).safe) fun _ => Safe.pure _
  obtain ⟨u, b', hrun⟩ := faultOf_eq_none_iff.mp (hrefuse b)
  unfold handleVCont
  rw [faultOf_bind, hrun]
  dsimp only
  rw [faultOf_bind_safe, faultOf_vContElements]
  intro _
  apply safe_markWaiting.bind
  intro _
  exact (quiet_ask _).safe.bind fun _ => Safe.pure _

end VCont

end XbdmGdbBridge.Proofs
