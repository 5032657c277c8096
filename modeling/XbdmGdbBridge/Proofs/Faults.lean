import XbdmGdbBridge.Proofs.HandlerFaults

/-!
# Packets that fault

Which packets make `HandlePacket` fail an assertion, read outside a buffer or use an absent value,
said in terms of the packet and of the state it meets (`Hazard`).
-/

namespace XbdmGdbBridge.Proofs

open Lib Program CText Gdb GDBBridge

variable {σ : Type}

/-- The packets that fault, with the state they need to do so. -/
inductive Hazard [Xbdm σ] (b : GDBBridge σ) : Bytes → Prop where
  /-- No data at all. -/
  | empty : Hazard b []
  /-- An interrupt while no thread is known. -/
  | interrupt {rest} (none : b.debugger.threads = []) : Hazard b (0x03 :: rest)
  | read {rest} (missing : byte ',' ∉ rest) : Hazard b (byte 'm' :: rest)
  | readNothing {rest address length} (parts : Cut (byte ',') rest address length)
      (numeric : (hexUInt32 address).isSome) (zero : hexUInt32 length = some 0) :
      Hazard b (byte 'm' :: rest)
  /-- A write without a comma, or with a colon before it. -/
  | write {command rest} (letter : command = byte 'M' ∨ command = byte 'X')
      (shape : ∀ address tail, Cut (byte ',') rest address tail → byte ':' ∈ address) :
      Hazard b (command :: rest)
  /-- A write of numbers only: the data, and the colon before it, are missing. -/
  | writeUnfinished {command rest address length} (letter : command = byte 'M' ∨ command = byte 'X')
      (parts : Cut (byte ',') rest address length) (order : byte ':' ∉ address)
      (missing : byte ':' ∉ length) (numeric : (hexUInt32 address).isSome)
      (count : (hexUInt32 length).isSome) : Hazard b (command :: rest)
  | writeNothing {command rest address length} (letter : command = byte 'M' ∨ command = byte 'X')
      (parts : WriteParts rest address length []) (numeric : (hexUInt32 address).isSome)
      (zero : hexUInt32 length = some 0) : Hazard b (command :: rest)
  /-- A hexadecimal write whose data starts with a byte. -/
  | writeText {rest address length high low tail}
      (parts : WriteParts rest address length (high :: low :: tail))
      (numeric : (hexUInt32 address).isSome) (count : (hexUInt32 length).isSome)
      (digits : isDigit 16 high = true ∧ isDigit 16 low = true) : Hazard b (byte 'M' :: rest)
  /-- A binary write to writable memory of more than one request can carry. -/
  | writeLong {rest address length payload} {a n : UInt32}
      (parts : WriteParts rest address length payload) (numeric : hexUInt32 address = some a)
      (count : hexUInt32 length = some n) (full : payload.length = n.toNat)
      (long : XBDMDebugger.kMaximumDataSize < payload.length)
      (writable : b.debugger.accessible a n true = true) : Hazard b (byte 'X' :: rest)
  /-- A float register of a thread whose general registers are known and whose float context is
  refused. -/
  | register {rest n i} (number : hexInt32 rest = some n) (missing : FloatMissing b n i) :
      Hazard b (byte 'p' :: rest)
  /-- A feature list with an empty feature. -/
  | features {rest front list} (parts : Cut (byte ':') rest front list)
      (blank : [] ∈ split (byte ';') list) : Hazard b (ascii "qSupported" ++ rest)
  | extraInfo {rest} (missing : byte ',' ∉ rest) : Hazard b (ascii "qThreadExtraInfo" ++ rest)
  /-- A question about a stopped thread whose stop reason is not known. -/
  | extraInfoReason {rest front id n i} (parts : Cut (byte ',') rest front id)
      (missing : ReasonMissing b id n i) : Hazard b (ascii "qThreadExtraInfo" ++ rest)
  /-- A list of actions with an empty one. -/
  | resume {args} (blank : [] ∈ split (byte ';') args) : Hazard b (ascii "vCont;" ++ args)

/-- A hexadecimal write whose data is neither empty nor starts with two digits: decoding it throws,
which is a way to end that `Hazard` leaves out. -/
inductive Throws : Bytes → Prop where
  | odd {rest address length c} (parts : WriteParts rest address length [c])
      (numeric : (hexUInt32 address).isSome) (count : (hexUInt32 length).isSome) :
      Throws (byte 'M' :: rest)
  | text {rest address length high low tail}
      (parts : WriteParts rest address length (high :: low :: tail))
      (numeric : (hexUInt32 address).isSome) (count : (hexUInt32 length).isSome)
      (digits : ¬(isDigit 16 high = true ∧ isDigit 16 low = true)) : Throws (byte 'M' :: rest)

/-- Handling the packet fails an assertion, reads outside a buffer or uses an absent value. -/
def Faults [Xbdm σ] (packet : GDBPacket) (b : GDBBridge σ) : Prop :=
  ∃ f, f ≠ .exception ∧ faultOf (handlePacket packet) b = some f

section Dispatch

variable [Xbdm σ] {command : UInt8} {rest data : Bytes}

/-- The commands that can fault, and the two breakpoint commands, whose answer is not always
one packet. -/
def watched : List UInt8 :=
  [0x03, byte 'm', byte 'M', byte 'p', byte 'q', byte 'v', byte 'X', byte 'z', byte 'Z']

theorem answers_dispatch (h : command ∉ watched) (data : Bytes) :
    Answers (dispatch command data : Handler σ _) := by
  simp only [watched, List.mem_cons, List.not_mem_nil, or_false, not_or] at h
  obtain ⟨h03, hm, hM, hp, hq, hv, hX, hz, hZ⟩ := h
  unfold dispatch
  apply Answers.skip h03
  apply Answers.ite answers_sendEmpty
  apply Answers.ite answers_queryHaltReason
  apply Answers.ite answers_sendEmpty
  apply Answers.ite (answers_bCommandGroup data)
  apply Answers.ite answers_sendEmpty
  apply Answers.ite answers_sendEmpty
  apply Answers.ite answers_detach
  apply Answers.ite answers_sendEmpty
  apply Answers.ite answers_readGeneralRegisters
  apply Answers.ite answers_sendEmpty
  apply Answers.ite (answers_selectThread data)
  apply Answers.ite answers_sendEmpty
  apply Answers.ite answers_sendEmpty
  apply Answers.ite answers_sendEmpty
  apply Answers.skip hm
  apply Answers.skip hM
  apply Answers.skip hp
  apply Answers.ite (answers_writeRegister data)
  apply Answers.skip hq
  apply Answers.ite (answers_writeQuery data)
  apply Answers.ite answers_sendEmpty
  apply Answers.ite answers_sendEmpty
  apply Answers.ite answers_sendEmpty
  apply Answers.ite answers_sendEmpty
  apply Answers.ite answers_sendEmpty
  apply Answers.skip hv
  apply Answers.skip hX
  apply Answers.skip hz
  apply Answers.skip hZ
  exact Answers.ite answers_sendEmpty answers_sendEmpty

theorem register_command (rest : Bytes) :
    (handlePacket (.ofData (byte 'p' :: rest)) : Handler σ _) =
      handleReadRegister (byte 'p' :: rest) := by
  change dispatch (byte 'p') (byte 'p' :: rest) = _
  unfold dispatch
  -- With the body of the handler out of sight only the letters are compared.
  generalize (handleReadRegister (byte 'p' :: rest) : Handler σ Unit) = handler
  rfl

theorem writeBinary_command (rest : Bytes) :
    (handlePacket (.ofData (byte 'X' :: rest)) : Handler σ _) =
      handleWriteMemoryBinary (byte 'X' :: rest) := rfl

theorem extendedV_command (rest : Bytes) :
    (handlePacket (.ofData (byte 'v' :: rest)) : Handler σ _) =
      handleExtendedVCommand (byte 'v' :: rest) := rfl

theorem supported_query (tail : Bytes) :
    (handlePacket (.ofData (ascii "qSupported" ++ tail)) : Handler σ _) =
      handleQuerySupported (ascii "qSupported" ++ tail) := rfl

theorem extraInfo_query (tail : Bytes) :
    (handlePacket (.ofData (ascii "qThreadExtraInfo" ++ tail)) : Handler σ _) =
      handleQueryThreadExtraInfo (ascii "qThreadExtraInfo" ++ tail) := rfl

/-- A query is about features, about a thread, or one that cannot fault. -/
theorem readQuery_cases (rest : Bytes) :
    (∃ tail, byte 'q' :: rest = ascii "qSupported" ++ tail) ∨
    (∃ tail, byte 'q' :: rest = ascii "qThreadExtraInfo" ++ tail) ∨
    Answers (handleReadQuery (byte 'q' :: rest) : Handler σ _) := by
  have hdrop : (byte 'q' :: rest).drop 1 = rest := rfl
  unfold handleReadQuery
  rw [hdrop]
  dsimp only
  by_cases hsupported : (ascii "Supported").isPrefixOf rest
  · obtain ⟨tail, htail⟩ := List.isPrefixOf_iff_prefix.mp hsupported
    exact .inl ⟨tail, congrArg (byte 'q' :: ·) htail.symm⟩
  by_cases hinfo : (ascii "ThreadExtraInfo").isPrefixOf rest
  · obtain ⟨tail, htail⟩ := List.isPrefixOf_iff_prefix.mp hinfo
    exact .inr (.inl ⟨tail, congrArg (byte 'q' :: ·) htail.symm⟩)
  refine .inr (.inr ?_)
  apply Answers.ite (answers_send _)
  apply Answers.skip hsupported
  apply Answers.skip hinfo
  apply Answers.ite answers_threadInfoStart
  apply Answers.ite (answers_threadInfoBuffer _)
  apply Answers.ite answers_sendEmpty
  apply Answers.ite answers_currentThreadID
  exact Answers.ite (answers_featuresRead _) answers_sendEmpty

theorem vCont_command (args : Bytes) :
    (handlePacket (.ofData (ascii "vCont;" ++ args)) : Handler σ _) = handleVCont args := rfl

theorem extendedV_cases (data : Bytes) :
    (∃ args, data = ascii "vCont;" ++ args) ∨
    Answers (handleExtendedVCommand data : Handler σ _) := by
  by_cases hcont : (ascii "vCont;").isPrefixOf data
  · obtain ⟨args, hargs⟩ := List.isPrefixOf_iff_prefix.mp hcont
    exact .inl ⟨args, hargs.symm⟩
  · refine .inr ?_
    unfold handleExtendedVCommand
    apply Answers.ite (answers_send _)
    exact Answers.skip hcont answers_sendEmpty

omit [Xbdm σ] in
theorem safe_breakpointType (software : UInt32 → XBDMDebugger.Op σ Bool)
    (readWatch writeWatch : UInt32 → UInt32 → XBDMDebugger.Op σ Bool) (data : Bytes) :
    Safe (handleBreakpointType software readWatch writeWatch data) := by
  unfold handleBreakpointType
  split
  · exact (answers_sendError _).safe
  · refine Safe.ite (fun _ => ((quiet_ask _).answers fun _ => answers_sendOK).safe) fun _ => ?_
    refine Safe.ite (fun _ => answers_sendEmpty.safe.bind fun _ => answers_sendEmpty.safe) fun _ => ?_
    refine Safe.ite (fun _ => ((quiet_ask _).answers fun _ => answers_sendOK).safe) fun _ => ?_
    refine Safe.ite (fun _ => ((quiet_ask _).answers fun _ => answers_sendOK).safe) fun _ => ?_
    refine Safe.ite (fun _ => ?_) fun _ => answers_sendEmpty.safe
    exact ((quiet_ask _).answers fun _ => (quiet_ask _).answers fun _ => answers_sendOK).safe

end Dispatch

section Characterisation

variable [Xbdm σ] {b : GDBBridge σ} {rest data : Bytes} {f : Fault}

theorem fault_of_hazard {data : Bytes} (h : Hazard b data) : Faults (.ofData data) b := by
  have hM : byte 'M' ≠ byte ',' ∧ byte 'M' ≠ byte ':' := by decide
  have hX : byte 'X' ≠ byte ',' ∧ byte 'X' ≠ byte ':' := by decide
  cases h with
  | empty => exact ⟨.assertion, by decide, rfl⟩
  | interrupt none => exact ⟨.assertion, by decide, (faultOf_interrupt b).trans (if_pos none)⟩
  | read missing => exact ⟨.range, by decide, readMemory_missing b missing⟩
  | readNothing parts numeric zero =>
    exact ⟨.assertion, by decide, (readMemory_cut b parts).trans (if_pos ⟨numeric, zero⟩)⟩
  | write letter shape =>
    refine ⟨.range, by decide, ?_⟩
    rcases letter with rfl | rfl
    · exact faultOf_write_bad b hM.1 hM.2 shape
    · exact faultOf_write_bad b hX.1 hX.2 shape
  | writeUnfinished letter parts order missing numeric count =>
    refine ⟨.range, by decide, ?_⟩
    rcases letter with rfl | rfl
    · exact (faultOf_write_unfinished b hM.1 hM.2 parts order missing).trans
        (if_pos ⟨numeric, count⟩)
    · exact (faultOf_write_unfinished b hX.1 hX.2 parts order missing).trans
        (if_pos ⟨numeric, count⟩)
  | writeNothing letter parts numeric zero =>
    obtain ⟨a, ha⟩ := Option.isSome_iff_exists.mp numeric
    refine ⟨.assertion, by decide, ?_⟩
    rcases letter with rfl | rfl
    · refine (faultOf_write_full b hM.1 hM.2 parts).trans ?_
      rw [ha, zero]
      exact (faultOf_storeHex b a 0 []).trans (if_pos rfl)
    · refine (faultOf_write_full b hX.1 hX.2 parts).trans ?_
      rw [ha, zero]
      exact (faultOf_finishWrite b a 0 []).trans (if_pos ⟨rfl, .inl rfl⟩)
  | writeText parts numeric count digits =>
    obtain ⟨a, ha⟩ := Option.isSome_iff_exists.mp numeric
    obtain ⟨n, hn⟩ := Option.isSome_iff_exists.mp count
    refine ⟨.emptyAccess, by decide, (faultOf_write_full b hM.1 hM.2 parts).trans ?_⟩
    rw [ha, hn]
    exact (faultOf_storeHex b a n _).trans (if_pos (by simp [digits]))
  | writeLong parts numeric count full long writable =>
    refine ⟨.assertion, by decide, (faultOf_write_full b hX.1 hX.2 parts).trans ?_⟩
    rw [numeric, count]
    exact (faultOf_finishWrite b _ _ _).trans (if_pos ⟨full, .inr ⟨writable, long⟩⟩)
  | register number missing =>
    rcases faultOf_readRegister b number with ⟨hf, -⟩ | ⟨-, hno⟩
    · rw [← register_command] at hf
      exact ⟨.absent, by decide, hf⟩
    · exact absurd ⟨_, missing⟩ hno
  | features parts blank =>
    refine ⟨.emptyAccess, by decide, ?_⟩
    rw [supported_query, supported_cut b parts, if_pos blank]
  | extraInfo missing =>
    refine ⟨.range, by decide, ?_⟩
    rw [extraInfo_query, extraInfo_missing b missing]
  | extraInfoReason parts missing =>
    rcases extraInfo_cut b parts with ⟨hf, -⟩ | ⟨-, hno⟩
    · rw [← extraInfo_query] at hf
      exact ⟨.absent, by decide, hf⟩
    · exact absurd ⟨_, _, missing⟩ hno
  | resume blank => exact ⟨.emptyAccess, by decide, (faultOf_vCont _ b).trans (if_pos blank)⟩

theorem exception_of_throws {data : Bytes} (h : Throws data) :
    faultOf (handlePacket (.ofData data)) b = some .exception := by
  have hc : byte 'M' ≠ byte ',' := by decide
  have hd : byte 'M' ≠ byte ':' := by decide
  cases h with
  | odd parts numeric count =>
    obtain ⟨a, ha⟩ := Option.isSome_iff_exists.mp numeric
    obtain ⟨n, hn⟩ := Option.isSome_iff_exists.mp count
    refine (faultOf_write_full b hc hd parts).trans ?_
    rw [ha, hn]
    exact faultOf_storeHex b a n _
  | text parts numeric count digits =>
    obtain ⟨a, ha⟩ := Option.isSome_iff_exists.mp numeric
    obtain ⟨n, hn⟩ := Option.isSome_iff_exists.mp count
    refine (faultOf_write_full b hc hd parts).trans ?_
    rw [ha, hn]
    exact (faultOf_storeHex b a n _).trans (if_neg (by simpa using digits))

/-- Why handling `data` ended with `f`. -/
structure Explained (b : GDBBridge σ) (data : Bytes) (f : Fault) : Prop where
  throws : f = .exception → Throws data
  hazard : f ≠ .exception → Hazard b data

theorem Hazard.explains (h : Hazard b data) (hf : f ≠ .exception) : Explained b data f :=
  ⟨fun he => absurd he hf, fun _ => h⟩

theorem Throws.explains (h : Throws data) : Explained b data .exception :=
  ⟨fun _ => h, fun hf => absurd rfl hf⟩

theorem explained_read (h : faultOf (handleReadMemory (byte 'm' :: rest)) b = some f) :
    Explained b (byte 'm' :: rest) f := by
  rcases cut_or_absent (byte ',') rest with ⟨address, length, hcut⟩ | habsent
  · rw [readMemory_cut b hcut] at h
    split at h
    · rename_i hcond
      cases h
      exact (Hazard.readNothing hcut hcond.1 hcond.2).explains (by decide)
    · cases h
  · rw [readMemory_missing b habsent] at h
    cases h
    exact (Hazard.read habsent).explains (by decide)

/-- A write that is not already malformed before its data is reached faults in its `store`. -/
theorem explained_write {command : UInt8} {store : UInt32 → UInt32 → Bytes → Handler σ Unit}
    (letter : command = byte 'M' ∨ command = byte 'X')
    (hstore : ∀ address length payload a n, WriteParts rest address length payload →
      hexUInt32 address = some a → hexUInt32 length = some n →
      faultOf (store a n payload) b = some f → Explained b (command :: rest) f)
    (h : faultOf (handleWrite store (command :: rest)) b = some f) :
    Explained b (command :: rest) f := by
  have hc : command ≠ byte ',' := by rcases letter with rfl | rfl <;> decide
  have hd : command ≠ byte ':' := by rcases letter with rfl | rfl <;> decide
  rcases write_cases rest with hbad | ⟨address, length, hcut, ha, hl⟩ | ⟨address, length, payload, hparts⟩
  · rw [faultOf_write_bad b hc hd hbad] at h
    cases h
    exact (Hazard.write letter hbad).explains (by decide)
  · rw [faultOf_write_unfinished b hc hd hcut ha hl] at h
    split at h
    · rename_i hnum
      cases h
      exact (Hazard.writeUnfinished letter hcut ha hl hnum.1 hnum.2).explains (by decide)
    · cases h
  · rw [faultOf_write_full b hc hd hparts] at h
    cases hadr : hexUInt32 address with
    | none => simp [hadr] at h
    | some a =>
      cases hlen : hexUInt32 length with
      | none => simp [hadr, hlen] at h
      | some n =>
        simp only [hadr, hlen] at h
        exact hstore address length payload a n hparts hadr hlen h

theorem explained_writeHex (h : faultOf (handleWriteMemory (byte 'M' :: rest)) b = some f) :
    Explained b (byte 'M' :: rest) f := by
  refine explained_write (.inl rfl) ?_ h
  intro address length payload a n hparts hadr hlen hf
  have hnum : (hexUInt32 address).isSome := by simp [hadr]
  have hcount : (hexUInt32 length).isSome := by simp [hlen]
  rw [faultOf_storeHex] at hf
  match payload with
  | [] =>
    dsimp only at hf
    split at hf
    · rename_i hz
      cases hf
      exact (Hazard.writeNothing (.inl rfl) hparts hnum (hz ▸ hlen)).explains (by decide)
    · cases hf
  | [c] =>
    cases hf
    exact (Throws.odd hparts hnum hcount).explains
  | high :: low :: tail =>
    dsimp only at hf
    split at hf
    · rename_i hdigits
      cases hf
      exact (Hazard.writeText hparts hnum hcount (by simpa using hdigits)).explains (by decide)
    · rename_i hdigits
      cases hf
      exact (Throws.text hparts hnum hcount (by simpa using hdigits)).explains

theorem explained_writeBinary (h : faultOf (handleWriteMemoryBinary (byte 'X' :: rest)) b = some f) :
    Explained b (byte 'X' :: rest) f := by
  refine explained_write (.inr rfl) ?_ h
  intro address length payload a n hparts hadr hlen hf
  rw [faultOf_finishWrite] at hf
  split at hf
  · rename_i hcond
    cases hf
    obtain ⟨hfull, rfl | ⟨hwritable, hlong⟩⟩ := hcond
    · obtain rfl : payload = [] := List.length_eq_zero_iff.mp hfull
      exact (Hazard.writeNothing (.inr rfl) hparts (by simp [hadr]) hlen).explains (by decide)
    · exact (Hazard.writeLong hparts hadr hlen hfull hlong hwritable).explains (by decide)
  · cases hf

theorem explained_register (h : faultOf (handleReadRegister (byte 'p' :: rest)) b = some f) :
    Explained b (byte 'p' :: rest) f := by
  cases hn : hexInt32 rest with
  | none =>
    have hsafe : faultOf (handleReadRegister (byte 'p' :: rest)) b = none := by
      unfold handleReadRegister
      rw [show (byte 'p' :: rest).drop 1 = rest from rfl, hn]
      exact (answers_sendError _).safe b
    rw [hsafe] at h
    cases h
  | some n =>
    rcases faultOf_readRegister b hn with ⟨hf, i, hmissing⟩ | ⟨hf, -⟩
    · rw [hf] at h
      cases h
      exact (Hazard.register hn hmissing).explains (by decide)
    · rw [hf] at h
      cases h

theorem explained_supported
    (h : faultOf (handleQuerySupported (ascii "qSupported" ++ rest)) b = some f) :
    Explained b (ascii "qSupported" ++ rest) f := by
  rcases cut_or_absent (byte ':') rest with ⟨front, list, hcut⟩ | habsent
  · rw [supported_cut b hcut] at h
    split at h
    · rename_i hblank
      cases h
      exact (Hazard.features hcut hblank).explains (by decide)
    · cases h
  · rw [supported_missing b habsent] at h
    cases h

theorem explained_extraInfo
    (h : faultOf (handleQueryThreadExtraInfo (ascii "qThreadExtraInfo" ++ rest)) b = some f) :
    Explained b (ascii "qThreadExtraInfo" ++ rest) f := by
  rcases cut_or_absent (byte ',') rest with ⟨front, id, hcut⟩ | habsent
  · rcases extraInfo_cut b hcut with ⟨hf, n, i, hmissing⟩ | ⟨hf, -⟩
    · rw [hf] at h
      cases h
      exact (Hazard.extraInfoReason hcut hmissing).explains (by decide)
    · rw [hf] at h
      cases h
  · rw [extraInfo_missing b habsent] at h
    cases h
    exact (Hazard.extraInfo habsent).explains (by decide)

theorem explained_query (h : faultOf (handleReadQuery (byte 'q' :: rest)) b = some f) :
    Explained b (byte 'q' :: rest) f := by
  rcases readQuery_cases (σ := σ) rest with ⟨tail, htail⟩ | ⟨tail, htail⟩ | hsafe
  · rw [htail] at h ⊢
    exact explained_supported h
  · rw [htail] at h ⊢
    exact explained_extraInfo h
  · exact (hsafe.safe.no_fault h).elim

theorem explained_v (h : faultOf (handleExtendedVCommand (byte 'v' :: rest)) b = some f) :
    Explained b (byte 'v' :: rest) f := by
  rcases extendedV_cases (σ := σ) (byte 'v' :: rest) with ⟨args, hargs⟩ | hsafe
  · rw [hargs] at h ⊢
    rw [show (handleExtendedVCommand (ascii "vCont;" ++ args) : Handler σ _) = handleVCont args from
      rfl, faultOf_vCont] at h
    split at h
    · rename_i hblank
      cases h
      exact (Hazard.resume hblank).explains (by decide)
    · cases h
  · exact (hsafe.safe.no_fault h).elim

theorem explained_fault (h : faultOf (handlePacket (.ofData data)) b = some f) :
    Explained b data f := by
  cases data with
  | nil =>
    cases h
    exact Hazard.empty.explains (by decide)
  | cons command rest =>
    by_cases hwatched : command ∈ watched
    · simp only [watched, List.mem_cons, List.not_mem_nil, or_false] at hwatched
      rcases hwatched with rfl | rfl | rfl | rfl | rfl | rfl | rfl | rfl | rfl
      · rw [show handlePacket (.ofData (0x03 :: rest)) = handleInterruptRequest (σ := σ) from rfl,
          faultOf_interrupt] at h
        split at h
        · rename_i hnone
          cases h
          exact (Hazard.interrupt hnone).explains (by decide)
        · cases h
      · exact explained_read h
      · exact explained_writeHex h
      · rw [register_command] at h
        exact explained_register h
      · exact explained_query h
      · rw [extendedV_command] at h
        exact explained_v h
      · rw [writeBinary_command] at h
        exact explained_writeBinary h
      · exact ((safe_breakpointType _ _ _ _).no_fault h).elim
      · exact ((safe_breakpointType _ _ _ _).no_fault h).elim
    · exact ((answers_dispatch hwatched _).safe.no_fault h).elim

theorem faults_iff_hazard (packet : GDBPacket) (b : GDBBridge σ) :
    Faults packet b ↔ Hazard b packet.data := by
  constructor
  · rintro ⟨f, hf, h⟩
    exact (explained_fault h).hazard hf
  · exact fault_of_hazard

end Characterisation

/-- A read without a comma, for a bridge that has just been created. -/
theorem faults_read_without_comma :
    Faults (.ofData (ascii "m1000")) (GDBBridge.fresh : GDBBridge Script) :=
  ⟨.range, by decide, by rfl⟩

end XbdmGdbBridge.Proofs
