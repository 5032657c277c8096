import XbdmGdbBridge.Notification.Transport
import XbdmGdbBridge.Proofs.Answers

/-!
# Notifications line by line

What the notification channel delivers, compared with the lines of its stream each taken alone.
-/

namespace XbdmGdbBridge.Proofs

open Lib Rdcp Notifications

variable {ν : Type}

/-- Notifications in order, and the fault behind them if there was one. -/
abbrev Delivery (ν : Type) := List (XBDMNotification ν) × Option Fault

/-- One thing after the other, up to the first fault. -/
def deliver : List (Except Fault (Option (XBDMNotification ν))) → Delivery ν
  | [] => ([], none)
  | .error fault :: _ => ([], some fault)
  | .ok none :: rest => deliver rest
  | .ok (some n) :: rest => (n :: (deliver rest).1, (deliver rest).2)

/-- A line as a text of its own. -/
def parseAlone (custom : Constructors ν) (line : Bytes) :
    Except Fault (Option (XBDMNotification ν)) :=
  parseXBDMNotification custom (line ++ [0]) line.length

/-- The complete lines of the stream without the greetings, each one parsed alone. -/
def linewise (custom : Constructors ν) (stream : Bytes) : Delivery ν :=
  deliver (((splitPair 0x0d 0x0a stream).dropLast.filter (· ≠ ascii "hello")).map
    (parseAlone custom))

/-- What the handler gets from a connection that is read in these pieces. -/
def notified (custom : Constructors ν) (reads : List Bytes) : Delivery ν :=
  let outcome := XBDMNotificationTransport.onReads custom {} reads
  (outcome.1.delivered, outcome.2)

/-- The lines in the order they are handled, each with what is in the buffer behind it by then. -/
def handled : Bytes → List Bytes → List (Bytes × Bytes)
  | _, [] => []
  | buffer, chunk :: chunks =>
    completeLines 0x0d 0x0a (buffer ++ chunk) ++ handled (openLine 0x0d 0x0a (buffer ++ chunk)) chunks

/-- The buffer from the start of the line on. -/
def memoryOf (m : Bytes × Bytes) : Bytes :=
  m.1 ++ (kTerminator ++ m.2)

def builtInStarts : List Bytes :=
  (builtIns : List (Bytes × (Bytes → Except Fault (XBDMNotification Unit)))).map Prod.fst

/-- The search for the delimiter of a custom prefix ends within the buffer, or is not made. -/
def Bounded (m : Bytes × Bytes) : Prop :=
  m.1 = ascii "hello" ∨ (∃ start ∈ builtInStarts, start <+: m.1) ∨
    byte '!' ∈ memoryOf m ∨ 0 ∈ memoryOf m

/-- A line that makes its constructor throw when it is taken alone. -/
def ThrowsAlone (custom : Constructors ν) (line : Bytes) : Prop :=
  line ≠ ascii "hello" ∧ ∃ fault, parseAlone custom line = .error fault

/-- Every line that is handled before one throws. -/
def InBounds (custom : Constructors ν) (reads : List Bytes) : Prop :=
  ∀ front m back, handled [] reads = front ++ m :: back →
    (∀ m' ∈ front, ¬ThrowsAlone custom m'.1) → Bounded m

section Searches

variable {c : UInt8} {s m : Bytes}

theorem strchr_past (hc : c ∉ s) (hzero : 0 ∉ s) :
    strchr c (s ++ m) = (strchr c m).map fun found => found.map (· + s.length) := by
  induction s with
  | nil =>
    rw [List.nil_append]
    cases strchr c m with
    | error fault => rfl
    | ok found => cases found <;> rfl
  | cons b s ih =>
    rw [List.mem_cons, not_or] at hc hzero
    rw [List.cons_append, strchr, if_neg (Ne.symm hc.1), if_neg (Ne.symm hzero.1), ih hc.2 hzero.2]
    cases strchr c m with
    | error fault => rfl
    | ok found =>
      cases found with
      | none => rfl
      | some i => simp [Except.map, Nat.add_assoc]

theorem strchr_within (h : c ∈ s ∨ 0 ∈ s) :
    ∃ found, (∀ m, strchr c (s ++ m) = .ok found) ∧ ∀ i, found = some i → i < s.length := by
  induction s with
  | nil => simp at h
  | cons b s ih =>
    by_cases hc : b = c
    · exact ⟨some 0, fun m => by simp [strchr, hc], by simp⟩
    by_cases hzero : b = 0
    · exact ⟨none, fun m => by simp [strchr, hzero, hzero ▸ hc], by simp⟩
    obtain ⟨found, hfound, hbound⟩ := ih (by simpa [Ne.symm hc, Ne.symm hzero] using h)
    refine ⟨found.map (· + 1), fun m => ?_, ?_⟩
    · rw [List.cons_append, strchr, if_neg hc, if_neg hzero, hfound]
      rfl
    · rintro i hi
      obtain ⟨j, hj, rfl⟩ := Option.map_eq_some_iff.mp hi
      have hlt := hbound j hj
      rw [List.length_cons]
      omega

theorem strchr_range (hc : c ∉ s) (hzero : 0 ∉ s) : strchr c s = .error .range := by
  have hpast := strchr_past (m := []) hc hzero
  rw [List.append_nil] at hpast
  rw [hpast]
  rfl

end Searches

section Messages

variable {custom : Constructors ν} {line behind : Bytes}

theorem startsWith_line (line m start : Bytes) :
    startsWith (line ++ m) line.length start = start.isPrefixOf line := by
  rw [Bool.eq_iff_iff, startsWith, Bool.and_eq_true, decide_eq_true_iff, List.isPrefixOf_iff_prefix,
    List.isPrefixOf_iff_prefix]
  constructor
  · rintro ⟨hlength, hstart⟩
    exact List.prefix_of_prefix_length_le hstart (List.prefix_append _ _) hlength
  · intro hstart
    exact ⟨hstart.length_le, hstart.trans (List.prefix_append _ _)⟩

theorem mem_builtInStarts (ν : Type) (start : Bytes) :
    start ∈ builtInStarts ↔
      ∃ entry ∈ (builtIns : List (Bytes × (Bytes → Except Fault (XBDMNotification ν)))),
        entry.1 = start := by
  have hstarts : builtInStarts =
      (builtIns : List (Bytes × (Bytes → Except Fault (XBDMNotification ν)))).map Prod.fst := rfl
  rw [hstarts, List.mem_map]

/-- A built-in notification is made of its line alone. -/
theorem parse_builtIn (m m' : Bytes) (h : ∃ start ∈ builtInStarts, start <+: line) :
    parseXBDMNotification custom (line ++ m) line.length =
      parseXBDMNotification custom (line ++ m') line.length := by
  unfold parseXBDMNotification
  simp only [startsWith_line]
  split
  next start construct hfind => rw [List.take_left, List.take_left]
  next hfind =>
    obtain ⟨start, hstart, hp⟩ := h
    obtain ⟨entry, hentry, rfl⟩ := (mem_builtInStarts ν start).mp hstart
    have hnot := List.find?_eq_none.mp hfind entry hentry
    exact absurd (List.isPrefixOf_iff_prefix.mpr hp) hnot

theorem parse_custom (m : Bytes) (h : ¬∃ start ∈ builtInStarts, start <+: line) :
    parseXBDMNotification custom (line ++ m) line.length =
      parseCustomNotification custom (line ++ m) line.length := by
  unfold parseXBDMNotification
  simp only [startsWith_line]
  split
  next start construct hfind =>
    have hstart := (mem_builtInStarts ν start).mpr ⟨_, List.mem_of_find?_eq_some hfind, rfl⟩
    have hp := List.find?_some hfind
    exact absurd ⟨start, hstart, List.isPrefixOf_iff_prefix.mp hp⟩ h
  next => rfl

section Custom

variable {memory : Bytes} {length delimiter : Nat}

theorem parseCustom_none (h : strchr (byte '!') memory = .ok none) :
    parseCustomNotification custom memory length = .ok none := by
  unfold parseCustomNotification
  rw [h]
  rfl

theorem parseCustom_some (h : strchr (byte '!') memory = .ok (some delimiter)) :
    parseCustomNotification custom memory length = constructCustom custom (memory.take delimiter)
      ((memory.take length).drop (delimiter + 1)) := by
  unfold parseCustomNotification
  rw [h]
  rfl

theorem constructCustom_unknown {start range : Bytes} (h : ∀ entry ∈ custom, entry.1 ≠ start) :
    constructCustom custom start range = .ok none := by
  have hlookup : custom.lookup start = none := by
    rw [List.lookup_eq_none_iff]
    intro entry hentry
    simpa using Ne.symm (h entry hentry)
  unfold constructCustom
  rw [hlookup]

end Custom

theorem custom_within (m m' : Bytes) (h : byte '!' ∈ line ∨ 0 ∈ line) :
    parseCustomNotification custom (line ++ m) line.length =
      parseCustomNotification custom (line ++ m') line.length := by
  obtain ⟨found, hfound, hbound⟩ := strchr_within h
  cases found with
  | none => rw [parseCustom_none (hfound m), parseCustom_none (hfound m')]
  | some i =>
    have hlt := (hbound i rfl).le
    rw [parseCustom_some (hfound m), parseCustom_some (hfound m'), List.take_left, List.take_left,
      List.take_append_of_le_length hlt, List.take_append_of_le_length hlt]

theorem custom_alone (hmark : byte '!' ∉ line) (hzero : 0 ∉ line) :
    parseCustomNotification custom (line ++ [0]) line.length = .ok none :=
  parseCustom_none (strchr_past hmark hzero)

/-- A delimiter behind the line gives a prefix with a line end, which nobody has registered. -/
theorem custom_behind (hprefixes : ∀ entry ∈ custom, 0x0d ∉ entry.1 ∧ 0x0a ∉ entry.1)
    (hmark : byte '!' ∉ line) (hzero : 0 ∉ line) (h : byte '!' ∈ behind ∨ 0 ∈ behind) :
    parseCustomNotification custom (memoryOf (line, behind)) line.length = .ok none := by
  have hfront : byte '!' ∉ line ++ kTerminator ∧ 0 ∉ line ++ kTerminator := by
    simp only [List.mem_append, hmark, hzero, false_or]
    decide
  obtain ⟨found, hfound, -⟩ := strchr_within h
  have hsearch := strchr_past (m := behind ++ []) hfront.1 hfront.2
  rw [hfound, List.append_nil, List.append_assoc] at hsearch
  cases found with
  | none => exact parseCustom_none hsearch
  | some i =>
    have hmemory : strchr (byte '!') (memoryOf (line, behind)) =
        .ok (some (i + (line ++ kTerminator).length)) := hsearch
    rw [parseCustom_some hmemory]
    apply constructCustom_unknown
    intro entry hentry hstart
    apply (hprefixes entry hentry).1
    rw [hstart, memoryOf, ← List.append_assoc, Nat.add_comm, List.take_length_add_append]
    simp [kTerminator]

theorem custom_unbounded (hmark : byte '!' ∉ memoryOf (line, behind))
    (hzero : 0 ∉ memoryOf (line, behind)) :
    parseCustomNotification custom (memoryOf (line, behind)) line.length = .error .range := by
  unfold parseCustomNotification
  rw [strchr_range hmark hzero]
  rfl

/-- What is made of a line in the buffer. -/
def parseWithin (custom : Constructors ν) (m : Bytes × Bytes) :
    Except Fault (Option (XBDMNotification ν)) :=
  parseXBDMNotification custom (memoryOf m) m.1.length

theorem parseWithin_bounded {m : Bytes × Bytes}
    (hprefixes : ∀ entry ∈ custom, 0x0d ∉ entry.1 ∧ 0x0a ∉ entry.1) (h : Bounded m)
    (hother : m.1 ≠ ascii "hello") : parseWithin custom m = parseAlone custom m.1 := by
  obtain ⟨line, behind⟩ := m
  by_cases hbuiltIn : ∃ start ∈ builtInStarts, start <+: line
  · exact parse_builtIn _ _ hbuiltIn
  refine (parse_custom _ hbuiltIn).trans (Eq.trans ?_ (parse_custom _ hbuiltIn).symm)
  by_cases hline : byte '!' ∈ line ∨ 0 ∈ line
  · exact custom_within _ _ hline
  obtain ⟨hmark, hzero⟩ := not_or.mp hline
  have hbehind : byte '!' ∈ behind ∨ 0 ∈ behind := by
    rcases h with hhello | hstart | hmemory
    · exact absurd hhello hother
    · exact absurd hstart hbuiltIn
    · have hend : byte '!' ∉ kTerminator ∧ 0 ∉ kTerminator := by decide
      simpa [memoryOf, hmark, hzero, hend] using hmemory
  rw [custom_alone hmark hzero]
  exact custom_behind hprefixes hmark hzero hbehind

theorem parseWithin_unbounded {m : Bytes × Bytes} (h : ¬Bounded m) :
    parseWithin custom m = .error .range ∧ parseAlone custom m.1 = .ok none := by
  obtain ⟨line, behind⟩ := m
  obtain ⟨-, hbuiltIn, hmark, hzero⟩ : line ≠ ascii "hello" ∧
      (¬∃ start ∈ builtInStarts, start <+: line) ∧ byte '!' ∉ memoryOf (line, behind) ∧
      0 ∉ memoryOf (line, behind) := by
    simpa only [Bounded, not_or] using h
  have hline : byte '!' ∉ line ∧ 0 ∉ line :=
    ⟨fun hmem => hmark (List.mem_append_left _ hmem), fun hmem => hzero (List.mem_append_left _ hmem)⟩
  constructor
  · exact (parse_custom _ hbuiltIn).trans (custom_unbounded hmark hzero)
  · exact (parse_custom _ hbuiltIn).trans (custom_alone hline.1 hline.2)

end Messages

section Exceptions

/-- The only fault is an exception. -/
def OnlyThrows {α : Type} (x : Except Fault α) : Prop :=
  ∀ fault, x = .error fault → fault = .exception

variable {α β : Type}

theorem OnlyThrows.ok (a : α) : OnlyThrows (.ok a) :=
  fun _ h => by cases h

theorem OnlyThrows.throw : OnlyThrows (.error .exception : Except Fault α) :=
  fun _ h => by cases h; rfl

theorem OnlyThrows.map {x : Except Fault α} (h : OnlyThrows x) (f : α → β) : OnlyThrows (x.map f) := by
  cases x with
  | ok a => exact .ok _
  | error fault =>
    intro _ hfault
    cases hfault
    exact h fault rfl

theorem OnlyThrows.bind {x : Except Fault α} {f : α → Except Fault β} (h : OnlyThrows x)
    (hf : ∀ a, OnlyThrows (f a)) : OnlyThrows (x >>= f) := by
  cases x with
  | ok a => exact hf a
  | error fault =>
    intro _ hfault
    cases hfault
    exact h fault rfl

theorem nextToken_onlyThrows (inQuote : Bool) (s : Bytes) : OnlyThrows (nextToken inQuote s) := by
  fun_induction nextToken inQuote s with
  | case1 => exact .ok _
  | case2 => exact .throw
  | case3 => exact .throw
  | case4 inQuote d rest e he ih => exact ih.map _
  | case5 rest h ih => exact ih.map _
  | case6 => exact .ok _
  | case7 inQuote rest h hspace ih => exact ih
  | case8 inQuote c rest h hspace hquote ih => exact ih.map _

theorem tokensFrom_onlyThrows (fuel : Nat) (s : Bytes) : OnlyThrows (tokensFrom fuel s) := by
  induction fuel generalizing s with
  | zero => exact .ok _
  | succ fuel ih =>
    rw [tokensFrom]
    refine (nextToken_onlyThrows false s).bind fun next => ?_
    obtain ⟨token, _ | ⟨_ | ⟨c, others⟩⟩⟩ := next
    · exact .ok _
    · exact .ok _
    · exact (ih (c :: others)).map _

theorem ofText_onlyThrows (text : Bytes) : OnlyThrows (RDCPMapResponse.ofText text) := by
  unfold RDCPMapResponse.ofText
  split
  · exact .ok _
  · exact (tokensFrom_onlyThrows _ _).map _

theorem builtIn_onlyThrows
    {entry : Bytes × (Bytes → Except Fault (XBDMNotification ν))} (h : entry ∈ builtIns)
    (range : Bytes) : OnlyThrows (entry.2 range) := by
  have hmap : ∀ read, OnlyThrows (ofMap read range : Except Fault (XBDMNotification ν)) :=
    fun read => (ofText_onlyThrows range).map read
  simp only [builtIns, List.mem_cons, List.not_mem_nil, or_false] at h
  rcases h with rfl | rfl | rfl | rfl | rfl | rfl | rfl | rfl | rfl | rfl | rfl | rfl
  · exact .ok _
  · dsimp only [notificationDebugStr]
    split
    · exact .ok _
    · exact .ok _
  all_goals exact hmap _

theorem constructCustom_onlyThrows (custom : Constructors ν) (start range : Bytes) :
    OnlyThrows (constructCustom custom start range) := by
  unfold constructCustom
  split
  · exact .ok _
  · split
    · exact .throw
    · exact .ok _

theorem parseAlone_onlyThrows (custom : Constructors ν) (line : Bytes) :
    OnlyThrows (parseAlone custom line) := by
  unfold parseAlone parseXBDMNotification
  split
  next start construct hfind =>
    exact (builtIn_onlyThrows (List.mem_of_find?_eq_some hfind) _).map _
  next =>
    obtain ⟨found, hfound, -⟩ := strchr_within (c := byte '!') (s := line ++ [0]) (by simp)
    have hsearch := hfound []
    rw [List.append_nil] at hsearch
    cases found with
    | none =>
      rw [parseCustom_none hsearch]
      exact .ok _
    | some i =>
      rw [parseCustom_some hsearch]
      exact constructCustom_onlyThrows _ _ _

end Exceptions

section Deliveries

variable {custom : Constructors ν} {ι : Type}

/-- One delivery after another, unless the first one ended in a fault. -/
def andThen (first second : Delivery ν) : Delivery ν :=
  match first.2 with
  | some fault => (first.1, some fault)
  | none => (first.1 ++ second.1, second.2)

theorem deliver_append (xs ys : List (Except Fault (Option (XBDMNotification ν)))) :
    deliver (xs ++ ys) = andThen (deliver xs) (deliver ys) := by
  induction xs with
  | nil => rfl
  | cons x xs ih =>
    rcases x with fault | _ | n
    · rfl
    · exact ih
    · simp only [List.cons_append, deliver, ih, andThen]
      cases (deliver xs).2 <;> rfl

theorem deliver_filter (p : ι → Bool) (f : ι → Except Fault (Option (XBDMNotification ν)))
    (xs : List ι) :
    deliver ((xs.filter p).map f) = deliver (xs.map fun x => if p x then f x else .ok none) := by
  induction xs with
  | nil => rfl
  | cons x xs ih =>
    rw [List.map_cons]
    cases hp : p x with
    | false => simpa [hp, deliver] using ih
    | true =>
      rw [List.filter_cons_of_pos hp, List.map_cons, if_pos rfl]
      rcases f x with fault | _ | n
      · rfl
      · exact ih
      · rw [deliver, deliver, ih]

theorem deliver_onlyThrows {g : ι → Except Fault (Option (XBDMNotification ν))}
    (hthrows : ∀ x, OnlyThrows (g x)) (xs : List ι) {fault : Fault}
    (h : (deliver (xs.map g)).2 = some fault) : fault = .exception := by
  induction xs with
  | nil => cases h
  | cons x xs ih =>
    rw [List.map_cons] at h
    rcases hx : g x with fault' | _ | n
    · rw [hx] at h
      cases h
      exact hthrows x _ hx
    · rw [hx] at h
      exact ih h
    · rw [hx] at h
      exact ih h

/-- Every element in front of which nothing throws. -/
def Reached (g : ι → Except Fault (Option (XBDMNotification ν))) (bounded : ι → Prop)
    (xs : List ι) : Prop :=
  ∀ front x back, xs = front ++ x :: back → (∀ y ∈ front, ∀ fault, g y ≠ .error fault) → bounded x

theorem reached_cons {g : ι → Except Fault (Option (XBDMNotification ν))} {bounded : ι → Prop}
    {x : ι} {xs : List ι} :
    Reached g bounded (x :: xs) ↔
      bounded x ∧ ((∀ fault, g x ≠ .error fault) → Reached g bounded xs) := by
  constructor
  · intro h
    refine ⟨h [] x xs rfl (by simp), ?_⟩
    rintro hx front y back rfl hfront
    exact h (x :: front) y back rfl (List.forall_mem_cons.mpr ⟨hx, hfront⟩)
  · rintro ⟨hx, hxs⟩ front y back heq hfront
    cases front with
    | nil =>
      obtain ⟨rfl, -⟩ := List.cons.inj heq
      exact hx
    | cons z front =>
      obtain ⟨rfl, rfl⟩ := List.cons.inj heq
      obtain ⟨hz, hfront⟩ := List.forall_mem_cons.mp hfront
      exact hxs hz front y back rfl hfront

/-- Two ways to read the same lines, one of which may leave the memory on lines the other one passes
over. They deliver the same exactly when no line that is reached is of that kind. -/
theorem deliver_eq_iff {bounded : ι → Prop} {f g : ι → Except Fault (Option (XBDMNotification ν))}
    (hsame : ∀ x, bounded x → f x = g x)
    (hother : ∀ x, ¬bounded x → f x = .error .range ∧ g x = .ok none)
    (hthrows : ∀ x, OnlyThrows (g x)) (xs : List ι) :
    deliver (xs.map f) = deliver (xs.map g) ↔ Reached g bounded xs := by
  induction xs with
  | nil => simp [Reached, deliver]
  | cons x xs ih =>
    rw [reached_cons, List.map_cons, List.map_cons]
    by_cases hx : bounded x
    · rw [hsame x hx]
      rcases g x with fault | _ | n
      · simp [deliver, hx]
      · simpa [deliver, hx] using ih
      · rw [← ih]
        simp [deliver, hx, Prod.ext_iff]
    · obtain ⟨hf, hg⟩ := hother x hx
      rw [hf, hg]
      refine iff_of_false (fun heq => ?_) fun h => hx h.1
      have hfault := deliver_onlyThrows hthrows xs (congrArg Prod.snd heq).symm
      cases hfault

end Deliveries

section Reads

open XBDMNotificationTransport

variable {custom : Constructors ν} {t t' : XBDMNotificationTransport ν} {line rest : Bytes}
  {fuel : Nat} {fault : Fault}

/-- What a line in the buffer comes to. -/
def handle (custom : Constructors ν) (m : Bytes × Bytes) :
    Except Fault (Option (XBDMNotification ν)) :=
  if m.1 = ascii "hello" then .ok none else parseWithin custom m

/-- The outcome of a call that adds this much to what was delivered. -/
structure Delivers (t : XBDMNotificationTransport ν) (d : Delivery ν) (outcome : Outcome ν) : Prop where
  delivered : outcome.1.delivered = t.delivered ++ d.1
  fault : outcome.2 = d.2

theorem handleNotification_delivers (custom : Constructors ν) (t : XBDMNotificationTransport ν)
    (m : Bytes × Bytes) :
    Delivers t (deliver [handle custom m]) (t.handleNotification custom (memoryOf m) m.1.length) ∧
      (t.handleNotification custom (memoryOf m) m.1.length).1.readBuffer = t.readBuffer := by
  have hline : (memoryOf m).take m.1.length = m.1 := List.take_left
  unfold handleNotification handle
  rw [hline]
  by_cases hhello : m.1 = ascii "hello"
  · rw [if_pos hhello, if_pos hhello]
    exact ⟨⟨by simp [deliver], rfl⟩, rfl⟩
  · rw [if_neg hhello, if_neg hhello, parseWithin]
    rcases parseXBDMNotification custom (memoryOf m) m.1.length with fault | _ | n
    · exact ⟨⟨by simp [deliver], rfl⟩, rfl⟩
    · exact ⟨⟨by simp [deliver], rfl⟩, rfl⟩
    · exact ⟨⟨by simp [deliver], rfl⟩, rfl⟩

theorem Delivers.andThen {d d' : Delivery ν} {first second : Outcome ν} (h : Delivers t d first)
    (hnone : first.2 = none) (h' : Delivers first.1 d' second) :
    Delivers t (andThen d d') second := by
  have hd : d.2 = none := h.fault.symm.trans hnone
  unfold Proofs.andThen
  rw [hd]
  exact ⟨by rw [h'.delivered, h.delivered, List.append_assoc], h'.fault⟩

theorem Delivers.stop {d d' : Delivery ν} {first : Outcome ν} (h : Delivers t d first)
    (hsome : first.2 = some fault) : Delivers t (Proofs.andThen d d') first := by
  have hd : d.2 = some fault := h.fault.symm.trans hsome
  unfold Proofs.andThen
  rw [hd]
  exact ⟨h.delivered, hsome⟩

theorem search_memory (hline : OneLine line) :
    search kTerminator (memoryOf (line, rest)) = some line.length :=
  search_line rest (by decide) hline

theorem drop_memory (line rest : Bytes) :
    (memoryOf (line, rest)).drop (line.length + kTerminator.length) = rest := by
  rw [memoryOf, ← List.append_assoc, ← List.length_append, List.drop_left]

theorem processMessages_stop (hline : OneLine line)
    (h : t.handleNotification custom (memoryOf (line, rest)) line.length = (t', some fault)) :
    processMessages custom (fuel + 1) (memoryOf (line, rest)) t =
      (line.length + kTerminator.length, t', some fault) := by
  simp only [processMessages, search_memory hline, h]

theorem processMessages_next (hline : OneLine line)
    (h : t.handleNotification custom (memoryOf (line, rest)) line.length = (t', none)) :
    processMessages custom (fuel + 1) (memoryOf (line, rest)) t =
      (line.length + kTerminator.length + (processMessages custom fuel rest t').1,
        (processMessages custom fuel rest t').2) := by
  simp only [processMessages, search_memory hline, h, drop_memory]

/-- The loop handles the complete lines and stops in front of the open one. -/
structure LoopSpec (custom : Constructors ν) (s : Bytes) (t : XBDMNotificationTransport ν)
    (r : Nat × Outcome ν) : Prop where
  delivers : Delivers t (deliver ((completeLines 0x0d 0x0a s).map (handle custom))) r.2
  buffer : r.2.1.readBuffer = t.readBuffer
  passed : r.2.2 = none → r.1 ≤ s.length ∧ s.drop r.1 = openLine 0x0d 0x0a s

theorem processMessages_spec (s : Bytes) (hfuel : s.length < fuel) :
    LoopSpec custom s t (processMessages custom fuel s t) := by
  induction s using lines_induction (0x0d : UInt8) 0x0a generalizing fuel t with
  | hopen s hopen =>
    obtain ⟨fuel, rfl⟩ := Nat.exists_eq_succ_of_ne_zero (Nat.ne_of_gt (Nat.zero_lt_of_lt hfuel))
    have hloop : processMessages custom (fuel + 1) s t = (0, t, none) := by
      simp only [processMessages, show search kTerminator s = none from search_free hopen]
    rw [Nat.succ_eq_add_one, hloop]
    refine ⟨?_, rfl, fun _ => ⟨Nat.zero_le _, (openLine_free hopen).symm⟩⟩
    rw [completeLines_free hopen]
    exact ⟨by simp [deliver], rfl⟩
  | hline line rest hline ih =>
    obtain ⟨fuel, rfl⟩ := Nat.exists_eq_succ_of_ne_zero (Nat.ne_of_gt (Nat.zero_lt_of_lt hfuel))
    have hrest : rest.length < fuel := by
      simp only [List.length_append, List.length_cons] at hfuel
      omega
    obtain ⟨hdelivers, hbuffer⟩ := handleNotification_delivers custom t (line, rest)
    have hlines : deliver ((completeLines 0x0d 0x0a (line ++ 0x0d :: 0x0a :: rest)).map
        (handle custom)) = andThen (deliver [handle custom (line, rest)])
          (deliver ((completeLines 0x0d 0x0a rest).map (handle custom))) := by
      rw [completeLines_line rest (by decide) hline, List.map_cons, ← deliver_append]
      rfl
    change LoopSpec custom (memoryOf (line, rest)) t
      (processMessages custom (fuel + 1) (memoryOf (line, rest)) t)
    rcases houtcome : t.handleNotification custom (memoryOf (line, rest)) line.length with
      ⟨t', _ | fault⟩
    · rw [houtcome] at hdelivers hbuffer
      have hnext := ih (t := t') hrest
      rw [processMessages_next hline houtcome]
      refine ⟨?_, hnext.buffer.trans hbuffer, fun hnone => ?_⟩
      · exact hlines ▸ hdelivers.andThen rfl hnext.delivers
      · obtain ⟨hle, hdrop⟩ := hnext.passed hnone
        constructor
        · simp only [memoryOf, List.length_append]
          omega
        · rw [← List.drop_drop, drop_memory, hdrop]
          exact (openLine_line rest (by decide) hline).symm
    · rw [houtcome] at hdelivers hbuffer
      rw [processMessages_stop hline houtcome]
      refine ⟨?_, hbuffer, fun hnone => by cases hnone⟩
      exact hlines ▸ hdelivers.stop rfl

theorem onBytesRead_delivers (custom : Constructors ν) (t : XBDMNotificationTransport ν) :
    Delivers t (deliver ((completeLines 0x0d 0x0a t.readBuffer).map (handle custom)))
        (onBytesRead custom t) ∧
      ((onBytesRead custom t).2 = none →
        (onBytesRead custom t).1.readBuffer = openLine 0x0d 0x0a t.readBuffer) := by
  have hloop : LoopSpec custom t.readBuffer t
      (processMessages custom (t.readBuffer.length + 1) t.readBuffer t) :=
    processMessages_spec t.readBuffer (Nat.lt_succ_self _)
  unfold onBytesRead
  generalize processMessages custom (t.readBuffer.length + 1) t.readBuffer t = r at hloop ⊢
  obtain ⟨passed, t', _ | fault⟩ := r
  · obtain ⟨hle, hdrop⟩ := hloop.passed rfl
    have hbuffer : t'.readBuffer = t.readBuffer := hloop.buffer
    have hshift : t'.shiftReadBuffer passed =
        { t' with readBuffer := openLine 0x0d 0x0a t.readBuffer } := by
      unfold shiftReadBuffer
      rw [hbuffer, if_neg (by omega), hdrop]
    dsimp only
    rw [hshift]
    exact ⟨⟨hloop.delivers.delivered, hloop.delivers.fault⟩, fun _ => rfl⟩
  · exact ⟨hloop.delivers, fun hnone => by cases hnone⟩

theorem onReads_delivers (custom : Constructors ν) (t : XBDMNotificationTransport ν) (reads : List Bytes) :
    Delivers t (deliver ((handled t.readBuffer reads).map (handle custom)))
      (onReads custom t reads) := by
  induction reads generalizing t with
  | nil => exact ⟨by simp [handled, deliver, onReads], rfl⟩
  | cons chunk reads ih =>
    obtain ⟨hread, hbuffer⟩ := onBytesRead_delivers custom
      { t with readBuffer := t.readBuffer ++ chunk }
    rw [handled, List.map_append, deliver_append, onReads]
    rcases houtcome : onBytesRead custom { t with readBuffer := t.readBuffer ++ chunk } with
      ⟨t', _ | fault⟩
    · rw [houtcome] at hread hbuffer
      have hopen : t'.readBuffer = openLine 0x0d 0x0a (t.readBuffer ++ chunk) := hbuffer rfl
      have hrest := ih t'
      rw [hopen] at hrest
      exact Delivers.andThen ⟨hread.delivered, hread.fault⟩ rfl hrest
    · rw [houtcome] at hread
      exact Delivers.stop ⟨hread.delivered, hread.fault⟩ rfl

end Reads

section Channel

variable {custom : Constructors ν}

/-- However the stream is cut, its complete lines are handled. -/
theorem map_fst_handled (buffer : Bytes) (reads : List Bytes) (h : OneLine buffer) :
    (handled buffer reads).map Prod.fst =
      (splitPair 0x0d 0x0a (buffer ++ reads.flatten)).dropLast := by
  induction reads generalizing buffer with
  | nil => simp [handled, splitPair_free h]
  | cons chunk reads ih =>
    rw [handled, List.map_append, map_fst_completeLines (by decide),
      ih _ (free_openLine (by decide) _), List.flatten_cons, ← List.append_assoc,
      dropLast_splitPair_append (by decide) (buffer ++ chunk)]

/-- A line alone, with nothing made of a greeting. -/
def readAlone (custom : Constructors ν) (line : Bytes) :
    Except Fault (Option (XBDMNotification ν)) :=
  if line ≠ ascii "hello" then parseAlone custom line else .ok none

theorem readAlone_throws (line : Bytes) :
    (∀ fault, readAlone custom line ≠ .error fault) ↔ ¬ThrowsAlone custom line := by
  unfold readAlone ThrowsAlone
  by_cases hhello : line = ascii "hello" <;> simp [hhello]

theorem linewise_eq (custom : Constructors ν) (reads : List Bytes) :
    linewise custom reads.flatten =
      deliver ((handled [] reads).map fun m => readAlone custom m.1) := by
  have hlines := map_fst_handled [] reads free_nil
  rw [List.nil_append] at hlines
  unfold linewise
  rw [deliver_filter, ← hlines, List.map_map]
  congr 2
  funext m
  simp [readAlone]

theorem notified_eq (custom : Constructors ν) (reads : List Bytes) :
    notified custom reads = deliver ((handled [] reads).map (handle custom)) := by
  have hreads := onReads_delivers custom {} reads
  exact Prod.ext hreads.delivered hreads.fault

/-- The channel delivers the lines of the stream, each parsed alone, exactly when no search for a
custom prefix leaves the buffer. -/
theorem notified_eq_linewise_iff (custom : Constructors ν)
    (hprefixes : ∀ entry ∈ custom, 0x0d ∉ entry.1 ∧ 0x0a ∉ entry.1) (reads : List Bytes) :
    notified custom reads = linewise custom reads.flatten ↔ InBounds custom reads := by
  have hsame : ∀ m, Bounded m → handle custom m = readAlone custom m.1 := by
    intro m hm
    unfold handle readAlone
    by_cases hhello : m.1 = ascii "hello"
    · simp [hhello]
    · rw [if_neg hhello, if_pos hhello, parseWithin_bounded hprefixes hm hhello]
  have hother : ∀ m, ¬Bounded m →
      handle custom m = .error .range ∧ readAlone custom m.1 = .ok none := by
    intro m hm
    have hhello : m.1 ≠ ascii "hello" := fun h => hm (.inl h)
    unfold handle readAlone
    rw [if_neg hhello, if_pos hhello]
    exact parseWithin_unbounded hm
  have hthrows : ∀ m : Bytes × Bytes, OnlyThrows (readAlone custom m.1) := by
    intro m
    unfold readAlone
    split
    · exact parseAlone_onlyThrows custom m.1
    · exact .ok _
  rw [notified_eq, linewise_eq, deliver_eq_iff hsame hother hthrows]
  unfold Reached InBounds
  simp only [readAlone_throws]

/-- A registered prefix, with a cut within a line end and an open line at the end. -/
theorem notified_eq_linewise_custom : ∃ (custom : Constructors Bytes) (reads : List Bytes),
    (∀ entry ∈ custom, 0x0d ∉ entry.1 ∧ 0x0a ∉ entry.1) ∧
      notified custom reads = linewise custom reads.flatten ∧
      linewise custom reads.flatten = ([.custom (ascii "x=1"), .vx (ascii "a")], none) := by
  let custom : Constructors Bytes := [(ascii "ntrc", fun range => some (some range))]
  let reads : List Bytes := [ascii "hello" ++ [0x0d], 0x0a :: ascii "ntrc!x=1" ++ kTerminator,
    ascii "vx!a" ++ kTerminator ++ ascii "br"]
  have hprefixes : ∀ entry ∈ custom, 0x0d ∉ entry.1 ∧ 0x0a ∉ entry.1 := by decide +kernel
  have hmarks : ∀ m ∈ handled [] reads, m.1 = ascii "hello" ∨ byte '!' ∈ memoryOf m := by
    decide +kernel
  have hbounds : InBounds custom reads := by
    intro front m back hm hfront
    have hmem : m ∈ handled [] reads := by simp [hm]
    rcases hmarks m hmem with hhello | hmark
    · exact .inl hhello
    · exact .inr (.inr (.inl hmark))
  exact ⟨custom, reads, hprefixes, (notified_eq_linewise_iff custom hprefixes reads).mpr hbounds,
    by decide +kernel⟩

/-- A line of no known kind at the end of the buffer: the search for an exclamation mark goes on
behind the buffer. -/
theorem notified_unknown_line :
    notified ([] : Constructors Unit) [ascii "rip thread=4" ++ kTerminator] = ([], some .range) ∧
      linewise ([] : Constructors Unit) (ascii "rip thread=4" ++ kTerminator) = ([], none) := by
  decide +kernel

end Channel

end XbdmGdbBridge.Proofs
