import XbdmGdbBridge.Notification.Accesses
import XbdmGdbBridge.Proofs.NotificationChannel

/-!
# Reads of a notification line

The lines are parsed where they are in the read buffer. Only the search for the delimiter of a custom
prefix does not know where its line ends.
-/

namespace XbdmGdbBridge.Proofs.LineReads

open Lib Rdcp Notifications

section Results

theorem observeStartsWith_result (memory : Bytes) (length : Nat) (start : Bytes) (a : Accesses) :
    (observeStartsWith memory length start a).1 = startsWith memory length start := by
  unfold observeStartsWith startsWith
  split
  next h => simp [run_pure, Nat.not_le.mpr h]
  next h =>
    rw [decide_eq_true (Nat.not_lt.mp h)]
    rfl

theorem observeBuiltIns_result {γ : Type} (memory : Bytes) (length : Nat) (entries : List (Bytes × γ))
    (a : Accesses) : (observeBuiltIns memory length entries a).1 =
      entries.find? fun entry => startsWith memory length entry.1 := by
  induction entries generalizing a with
  | nil => rfl
  | cons entry rest ih =>
    rw [observeBuiltIns, run_bind, observeStartsWith_result, List.find?_cons]
    cases startsWith memory length entry.1 with
    | true => rfl
    | false => exact ih _

theorem observeStrchr_result (c : UInt8) (memory : Bytes) (offset : Nat) (a : Accesses) :
    (observeStrchr c memory offset a).1 = (strchr c memory).map fun found => found.map (· + offset) := by
  induction memory generalizing offset a with
  | nil => rfl
  | cons b rest ih =>
    rw [observeStrchr, strchr, run_bind, run_ite, run_ite]
    by_cases hc : b = c
    · rw [if_pos hc, if_pos hc]
      simp [run_pure, Except.map]
    · rw [if_neg hc, if_neg hc]
      by_cases hzero : b = 0
      · rw [if_pos hzero, if_pos hzero]
        rfl
      · rw [if_neg hzero, if_neg hzero, ih]
        rcases strchr c rest with fault | (_ | i)
        · rfl
        · rfl
        · simp [Except.map, Nat.add_comm 1, Nat.add_assoc]

end Results

section Parsing

variable {ν : Type} (custom : Constructors ν) (memory : Bytes) (length : Nat)

theorem observeDelimited_result (found : Except Fault (Option Nat)) (a : Accesses)
    (h : strchr (byte '!') memory = found) :
    (observeDelimited custom memory length found a).1 =
      parseCustomNotification custom memory length := by
  unfold parseCustomNotification
  rw [h]
  rcases found with fault | (_ | delimiter)
  · rfl
  · rfl
  · unfold observeDelimited observeCustom
    dsimp only
    split <;> rfl

/-- The accesses are those of the parser. -/
theorem observe_result (a : Accesses) :
    (observeXBDMNotification custom memory length a).1 =
      parseXBDMNotification custom memory length := by
  have hstarts := observeBuiltIns_result memory length
    (builtIns : List (Bytes × (Bytes → Except Fault (XBDMNotification ν)))) a
  have hsearch (a : Accesses) : (observeStrchr (byte '!') memory 0 a).1 = strchr (byte '!') memory := by
    rw [observeStrchr_result]
    rcases strchr (byte '!') memory with fault | (_ | i) <;> rfl
  unfold observeXBDMNotification parseXBDMNotification
  rw [run_bind, hstarts]
  cases builtIns.find? fun entry : Bytes × (Bytes → Except Fault (XBDMNotification ν)) =>
      startsWith memory length entry.1 with
  | some entry => rfl
  | none => exact observeDelimited_result custom memory length _ _ (hsearch _).symm

end Parsing

section Reaches

variable {line behind : Bytes} {c : UInt8} {offset : Nat} {a : Accesses}

/-- Nothing was handed on in between, and the reads ended at some offset. -/
structure ReadsTo (offset : Nat) (a a' : Accesses) : Prop where
  handed : a'.handed = a.handed
  reach : a'.reach ≤ max a.reach offset

theorem ReadsTo.refl (offset : Nat) (a : Accesses) : ReadsTo offset a a :=
  ⟨rfl, Nat.le_max_left _ _⟩

theorem ReadsTo.trans {a' a'' : Accesses} (h : ReadsTo offset a a') (h' : ReadsTo offset a' a'') :
    ReadsTo offset a a'' :=
  ⟨h'.handed.trans h.handed, h'.reach.trans (Nat.max_le.mpr ⟨h.reach, Nat.le_max_right _ _⟩)⟩

theorem readsTo_readUpTo {upTo : Nat} (h : upTo ≤ offset) (a : Accesses) :
    ReadsTo offset a (readUpTo upTo a).2 :=
  ⟨rfl, Nat.max_le.mpr ⟨Nat.le_max_left _ _, h.trans (Nat.le_max_right _ _)⟩⟩

theorem readsTo_startsWith (memory : Bytes) (length : Nat) (start : Bytes) (a : Accesses) :
    ReadsTo length a (observeStartsWith memory length start a).2 := by
  unfold observeStartsWith
  split
  next => exact .refl _ _
  next h => exact readsTo_readUpTo (Nat.not_lt.mp h) a

theorem readsTo_builtIns {γ : Type} (memory : Bytes) (length : Nat) (entries : List (Bytes × γ))
    (a : Accesses) : ReadsTo length a (observeBuiltIns memory length entries a).2 := by
  induction entries generalizing a with
  | nil => exact .refl _ _
  | cons entry rest ih =>
    have hfirst := readsTo_startsWith memory length entry.1 a
    rw [observeBuiltIns, run_bind, run_ite]
    split
    next => exact hfirst
    next => exact hfirst.trans (ih _)

theorem readsTo_strchr (h : c ∈ line ∨ 0 ∈ line) :
    ReadsTo (offset + line.length) a (observeStrchr c (line ++ behind) offset a).2 := by
  induction line generalizing offset a with
  | nil => simp at h
  | cons b line ih =>
    have hfirst : ReadsTo (offset + (b :: line).length) a (readUpTo (offset + 1) a).2 :=
      readsTo_readUpTo (by simp) a
    rw [List.cons_append, observeStrchr, run_bind, run_ite, run_ite]
    split
    next => exact hfirst
    next hc =>
      split
      next => exact hfirst
      next hzero =>
        have hrest := @ih (offset + 1) (readUpTo (offset + 1) a).2
          (by simpa [Ne.symm hc, Ne.symm hzero] using h)
        rw [show offset + 1 + line.length = offset + (b :: line).length by
          rw [List.length_cons]; omega] at hrest
        exact hfirst.trans hrest

theorem reach_le_strchr (c : UInt8) (memory : Bytes) (offset : Nat) (a : Accesses) :
    max a.reach (offset + 1) ≤ (observeStrchr c memory offset a).2.reach := by
  induction memory generalizing offset a with
  | nil => exact Nat.le_refl _
  | cons b rest ih =>
    rw [observeStrchr, run_bind, run_ite, run_ite]
    split
    next => exact Nat.le_refl _
    next =>
      split
      next => exact Nat.le_refl _
      next => exact (Nat.le_max_left _ _).trans (ih (offset + 1) (readUpTo (offset + 1) a).2)

theorem strchr_reads_behind (hc : c ∉ line) (hzero : 0 ∉ line) :
    offset + line.length < (observeStrchr c (line ++ behind) offset a).2.reach := by
  induction line generalizing offset a with
  | nil => exact (Nat.le_max_right _ _).trans (reach_le_strchr c behind offset a)
  | cons b line ih =>
    rw [List.mem_cons, not_or] at hc hzero
    rw [List.cons_append, observeStrchr, run_bind, run_ite, run_ite, if_neg (Ne.symm hc.1),
      if_neg (Ne.symm hzero.1)]
    have hrest := @ih (offset + 1) (readUpTo (offset + 1) a).2 hc.2 hzero.2
    rw [List.length_cons]
    omega

end Reaches

section Lines

variable {ν : Type} (custom : Constructors ν)

/-- The accesses for a line at a place in the read buffer. -/
def accesses (buffer : Bytes) (start length : Nat) : Accesses :=
  (observeXBDMNotification custom (buffer.drop start) length {}).2

/-- Only the first bytes are read, and a registered constructor gets a range of them. -/
def Within (length : Nat) (a : Accesses) : Prop :=
  a.reach ≤ length ∧
    ∀ first last, a.handed = some (first, last) → first ≤ last ∧ last ≤ length

def StaysInLine (before line behind : Bytes) : Prop :=
  Within line.length (accesses custom (before ++ (line ++ behind)) before.length line.length)

/-- A line whose kind is told by its own bytes. -/
def SelfDelimited (line : Bytes) : Prop :=
  (∃ start ∈ builtInStarts, start <+: line) ∨ byte '!' ∈ line ∨ 0 ∈ line

variable {custom} {line behind : Bytes}

theorem observe_builtIn (h : ∃ start ∈ builtInStarts, start <+: line) :
    ReadsTo line.length {} (observeXBDMNotification custom (line ++ behind) line.length {}).2 := by
  obtain ⟨start, hstart, hp⟩ := h
  obtain ⟨entry, hentry, rfl⟩ := (mem_builtInStarts ν start).mp hstart
  have hresult := observeBuiltIns_result (line ++ behind) line.length
    (builtIns : List (Bytes × (Bytes → Except Fault (XBDMNotification ν)))) {}
  have hfirst := readsTo_builtIns (line ++ behind) line.length
    (builtIns : List (Bytes × (Bytes → Except Fault (XBDMNotification ν)))) {}
  unfold observeXBDMNotification
  rw [run_bind, hresult]
  cases hfound : builtIns.find? fun entry : Bytes × (Bytes → Except Fault (XBDMNotification ν)) =>
      startsWith (line ++ behind) line.length entry.1 with
  | some found => exact hfirst.trans (readsTo_readUpTo (Nat.le_refl _) _)
  | none =>
    have hnot := List.find?_eq_none.mp hfound entry hentry
    rw [startsWith_line] at hnot
    exact absurd (List.isPrefixOf_iff_prefix.mpr hp) hnot

/-- Without a built-in start the search is made, from the start of the line on. -/
theorem observe_custom (h : ¬∃ start ∈ builtInStarts, start <+: line) :
    ∃ a, ReadsTo line.length {} a ∧
      observeXBDMNotification custom (line ++ behind) line.length {} =
        observeDelimited custom (line ++ behind) line.length
          (observeStrchr (byte '!') (line ++ behind) 0 a).1
          (observeStrchr (byte '!') (line ++ behind) 0 a).2 := by
  have hresult := observeBuiltIns_result (line ++ behind) line.length
    (builtIns : List (Bytes × (Bytes → Except Fault (XBDMNotification ν)))) {}
  have hnone : builtIns.find? (fun entry : Bytes × (Bytes → Except Fault (XBDMNotification ν)) =>
      startsWith (line ++ behind) line.length entry.1) = none := by
    rw [List.find?_eq_none]
    intro entry hentry hstarts
    rw [startsWith_line, List.isPrefixOf_iff_prefix] at hstarts
    exact h ⟨entry.1, (mem_builtInStarts ν _).mpr ⟨entry, hentry, rfl⟩, hstarts⟩
  refine ⟨_, readsTo_builtIns (line ++ behind) line.length
    (builtIns : List (Bytes × (Bytes → Except Fault (XBDMNotification ν)))) {}, ?_⟩
  unfold observeXBDMNotification
  rw [run_bind, hresult, hnone]
  rfl

theorem reach_observeDelimited (memory : Bytes) (length : Nat) (found : Except Fault (Option Nat))
    (a : Accesses) : (observeDelimited custom memory length found a).2.reach = a.reach := by
  rcases found with fault | (_ | delimiter)
  · rfl
  · rfl
  · unfold observeDelimited observeCustom
    dsimp only
    split <;> rfl

theorem handed_observeDelimited {memory : Bytes} {length : Nat} {found : Except Fault (Option Nat)}
    {a : Accesses} {first last : Nat}
    (h : (observeDelimited custom memory length found a).2.handed = some (first, last)) :
    a.handed = some (first, last) ∨
      ∃ delimiter, found = .ok (some delimiter) ∧ first = delimiter + 1 ∧ last = length := by
  rcases found with fault | (_ | delimiter)
  · exact .inl h
  · exact .inl h
  · unfold observeDelimited observeCustom at h
    dsimp only at h
    split at h
    next =>
      cases h
      exact .inr ⟨delimiter, rfl, rfl, rfl⟩
    next => exact .inl h

theorem staysInLine_iff (custom : Constructors ν) (before line behind : Bytes) :
    StaysInLine custom before line behind ↔ SelfDelimited line := by
  unfold StaysInLine accesses SelfDelimited
  rw [List.drop_left]
  by_cases hbuiltIn : ∃ start ∈ builtInStarts, start <+: line
  · refine iff_of_true ?_ (.inl hbuiltIn)
    obtain ⟨hhanded, hreach⟩ := @observe_builtIn ν custom line behind hbuiltIn
    refine ⟨by simpa using hreach, fun first last h => ?_⟩
    rw [hhanded] at h
    cases h
  · rw [or_iff_right hbuiltIn]
    obtain ⟨a, ⟨hnothing, hstarts⟩, hrun⟩ :=
      @observe_custom ν custom line behind hbuiltIn
    rw [hrun, Within, reach_observeDelimited]
    by_cases hline : byte '!' ∈ line ∨ 0 ∈ line
    · refine iff_of_true ?_ hline
      obtain ⟨hhanded, hreach⟩ := @readsTo_strchr line behind (byte '!') 0 a hline
      refine ⟨by simp only [Nat.zero_add] at hreach hstarts; omega, fun first last h => ?_⟩
      obtain ⟨found, hfound, hbound⟩ := strchr_within hline
      rcases handed_observeDelimited h with hearlier | ⟨delimiter, hdelimiter, rfl, rfl⟩
      · rw [hhanded, hnothing] at hearlier
        cases hearlier
      · rw [observeStrchr_result, hfound] at hdelimiter
        have hsome : found = some delimiter := by
          rcases found with _ | i
          · cases hdelimiter
          · cases hdelimiter
            rfl
        exact ⟨hbound delimiter hsome, Nat.le_refl _⟩
    · obtain ⟨hmark, hzero⟩ := not_or.mp hline
      refine iff_of_false ?_ hline
      rintro ⟨hreach, -⟩
      have hpast := @strchr_reads_behind line behind (byte '!') 0 a hmark hzero
      omega

/-- A line without an exclamation mark: the search goes on into the next one, and what a constructor
would be given begins there. -/
theorem not_staysInLine_mark_behind :
    ¬StaysInLine [(ascii "rip\r\nnote", fun _ => some (some ()))] [] (ascii "rip")
      (ascii "\r\nnote!text\r\n") := by
  rintro ⟨hreach, -⟩
  exact absurd hreach (by decide)

end Lines

end XbdmGdbBridge.Proofs.LineReads
