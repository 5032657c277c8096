import Mathlib.Data.List.Chain
import XbdmGdbBridge.Proofs.Transparency
import XbdmGdbBridge.Xbox.Backtrace

/-!
# What a guessed backtrace looks like

The frames are the calls that were found on the stack, in the order of the scan. Frames that were
guessed in a row and could not be confirmed are marked as a chain of their own.
-/

namespace XbdmGdbBridge.Proofs.Backtraces

open Lib XBDMDebugger GuessBackTrace
open Transparency (validateMemoryAccess_run)

/-- The frame is about the call. -/
structure Shows (call : CallSite) (frame : BacktraceFrame) : Prop where
  address : frame.address = call.returnAddress
  target : frame.callTarget = call.target
  indirect : frame.isIndirectCall = call.target.isNone

/-- The second call is a direct one, to a place not far below the first. -/
def Leads (previous next : CallSite) : Prop :=
  ∃ target, next.target = some target ∧ target ≤ previous.address ∧
    previous.address - target ≤ kMaxReasonableFunctionOffset

/-- Calls and frames that were put into the backtrace together, under one number. -/
structure Group where
  id : UInt32
  members : List (CallSite × BacktraceFrame)

/-- Every frame carries the number of its group, and is suspicious if that is not zero. -/
structure Group.Marked (g : Group) : Prop where
  nonempty : g.members ≠ []
  shows : ∀ m ∈ g.members, Shows m.1 m.2
  id : ∀ m ∈ g.members, m.2.chainId = g.id
  suspicious : ∀ m ∈ g.members, m.2.isSuspicious = true ↔ g.id ≠ 0
  chain : g.id ≠ 0 → (g.members.map Prod.fst).IsChain Leads

/-- The frames fall into groups one behind the other, and the numbers that are not zero are
`1, ..., k` in this order. -/
structure Chained (calls : List CallSite) (frames : List BacktraceFrame) (groups : List Group)
    (k : Nat) : Prop where
  calls : calls = groups.flatMap fun g => g.members.map Prod.fst
  frames : frames = groups.flatMap fun g => g.members.map Prod.snd
  marked : ∀ g ∈ groups, g.Marked
  numbered : (groups.map fun g => g.id.toNat).filter (· ≠ 0) = List.range' 1 k

section Groups

variable {calls : List CallSite} {frames : List BacktraceFrame} {groups : List Group} {k : Nat}

theorem chained_nil : Chained [] [] [] 0 :=
  ⟨rfl, rfl, by simp, rfl⟩

theorem Chained.add (h : Chained calls frames groups k) {g : Group} (hg : g.Marked) {k' : Nat}
    (hk : g.id = 0 ∧ k' = k ∨ g.id.toNat = k + 1 ∧ k' = k + 1) :
    Chained (calls ++ g.members.map Prod.fst) (frames ++ g.members.map Prod.snd) (groups ++ [g]) k' := by
  refine ⟨?_, ?_, ?_, ?_⟩
  · rw [List.flatMap_append, ← h.calls, List.flatMap_singleton]
  · rw [List.flatMap_append, ← h.frames, List.flatMap_singleton]
  · intro g' hg'
    rcases List.mem_append.mp hg' with hg' | hg'
    · exact h.marked g' hg'
    · rwa [List.mem_singleton.mp hg']
  · rw [List.map_append, List.filter_append, h.numbered]
    rcases hk with ⟨hid, rfl⟩ | ⟨hid, rfl⟩
    · simp [hid]
    · rw [List.range'_concat]
      simp [hid]
      omega

theorem Chained.count_le (h : Chained calls frames groups k) : k ≤ frames.length := by
  have hk : k ≤ groups.length := by
    have hfilter := congrArg List.length h.numbered
    rw [List.length_range'] at hfilter
    have := List.length_filter_le (· ≠ 0) (groups.map fun g => g.id.toNat)
    rw [List.length_map] at this
    simp only [ne_eq, decide_not] at hfilter this
    omega
  have hframes : groups.length ≤ frames.length := by
    rw [h.frames, List.length_flatMap]
    have hmarked := h.marked
    clear h hk
    induction groups with
    | nil => simp
    | cons g rest ih =>
      have hpos := List.length_pos_of_ne_nil (hmarked g List.mem_cons_self).nonempty
      have hrest := ih fun g' hg' => hmarked g' (List.mem_cons_of_mem _ hg')
      simp only [List.map_cons, List.sum_cons, List.length_cons, List.length_map] at hrest ⊢
      omega
  omega

theorem Chained.shows (h : Chained calls frames groups k) : List.Forall₂ Shows calls frames := by
  rw [h.calls, h.frames]
  have hmarked := h.marked
  clear h
  induction groups with
  | nil => exact .nil
  | cons g rest ih =>
    rw [List.flatMap_cons, List.flatMap_cons]
    refine List.rel_append ?_ (ih fun g' hg' => hmarked g' (List.mem_cons_of_mem _ hg'))
    rw [List.forall₂_map_left_iff, List.forall₂_map_right_iff, List.forall₂_same]
    exact (hmarked g List.mem_cons_self).shows

theorem Chained.suspicious (h : Chained calls frames groups k) :
    ∀ f ∈ frames, f.isSuspicious = true ↔ f.chainId ≠ 0 := by
  intro f hf
  rw [h.frames] at hf
  obtain ⟨g, hg, hf⟩ := List.mem_flatMap.mp hf
  obtain ⟨m, hm, rfl⟩ := List.mem_map.mp hf
  rw [(h.marked g hg).id m hm]
  exact (h.marked g hg).suspicious m hm

end Groups

/-- The frames that wait are about these calls. The last of them is the anchor for the next one, and
none is suspicious yet if the chain began with an indirect call. -/
structure Waiting (calls : List CallSite) (s : Scan) : Prop where
  shows : List.Forall₂ (fun c p => Shows c p.frame) calls s.pendingFrames
  chain : calls.IsChain Leads
  anchor : s.speculativeEip = calls.getLast?.map CallSite.address
  strong : s.speculativeIsStrong = true → ∀ p ∈ s.pendingFrames, p.frame.isSuspicious = false

/-- The state of the scan after these calls. -/
structure Scanned (done waiting : List CallSite) (groups : List Group) (k : Nat) (s : Scan) : Prop where
  chained : Chained done s.guessedFrames groups k
  next : s.nextChainId.toNat = k + 1
  waiting : Waiting waiting s
  bounded : s.guessedFrames.length + s.pendingFrames.length ≤ kMaxFrames

section Scans

variable {done waiting : List CallSite} {groups : List Group} {k : Nat} {s : Scan}

theorem isMatch_iff {target anchor : UInt32} : isMatch target anchor = true ↔
    target ≤ anchor ∧ anchor - target ≤ kMaxReasonableFunctionOffset := by
  rw [isMatch, Bool.and_eq_true, decide_eq_true_eq, decide_eq_true_eq]

theorem shows_mark {c : CallSite} {p : PendingFrame} (h : Shows c p.frame) (b : Bool) (id : UInt32) :
    Shows c (Scan.mark b id p) :=
  ⟨h.address, h.target, h.indirect⟩

/-- The group a flush makes of what waits. -/
def flushed (b : Bool) (waiting : List CallSite) (s : Scan) : Group where
  id := if b then s.nextChainId else 0
  members := waiting.zip (s.pendingFrames.map (Scan.mark b (if b then s.nextChainId else 0)))

theorem flushed_calls (b : Bool) (h : Waiting waiting s) :
    (flushed b waiting s).members.map Prod.fst = waiting :=
  List.map_fst_zip (by rw [List.length_map, h.shows.length_eq])

theorem flushed_frames (b : Bool) (h : Waiting waiting s) :
    (flushed b waiting s).members.map Prod.snd =
      s.pendingFrames.map (Scan.mark b (if b then s.nextChainId else 0)) :=
  List.map_snd_zip (by rw [List.length_map, h.shows.length_eq])

theorem flushed_marked {b : Bool} (h : Waiting waiting s) (hne : s.pendingFrames ≠ [])
    (hpos : s.nextChainId ≠ 0) (hb : b = false → ∀ p ∈ s.pendingFrames, p.frame.isSuspicious = false) :
    (flushed b waiting s).Marked := by
  have hframe : ∀ m ∈ (flushed b waiting s).members, ∃ p ∈ s.pendingFrames,
      m.2 = Scan.mark b (flushed b waiting s).id p := by
    intro m hm
    have hmem := List.mem_map_of_mem (f := Prod.snd) hm
    rw [flushed_frames b h] at hmem
    obtain ⟨p, hp, hmark⟩ := List.mem_map.mp hmem
    exact ⟨p, hp, hmark.symm⟩
  refine ⟨fun hnil => ?_, fun m hm => ?_, fun m hm => ?_, fun m hm => ?_, fun _ => ?_⟩
  · have hframes := flushed_frames b h
    rw [hnil] at hframes
    exact hne (List.map_eq_nil_iff.mp hframes.symm)
  · have hshows : List.Forall₂ Shows waiting
        (s.pendingFrames.map (Scan.mark b (if b then s.nextChainId else 0))) := by
      rw [List.forall₂_map_right_iff]
      exact h.shows.imp fun c p hp => shows_mark hp b _
    exact (List.forall₂_iff_zip.mp hshows).2 hm
  · obtain ⟨p, -, hmark⟩ := hframe m hm
    rw [hmark]
    rfl
  · obtain ⟨p, hp, hmark⟩ := hframe m hm
    rw [hmark]
    cases b with
    | true => exact iff_of_true rfl hpos
    | false => exact iff_of_false (by simp [Scan.mark, hb rfl p hp]) fun hid => hid rfl
  · rw [flushed_calls b h]
    exact h.chain

theorem Scanned.flush {b : Bool} (h : Scanned done waiting groups k s)
    (hb : b = false → ∀ p ∈ s.pendingFrames, p.frame.isSuspicious = false) :
    ∃ groups' k', Chained (done ++ waiting) (s.flushPending b).guessedFrames groups' k' ∧
      (s.flushPending b).nextChainId.toNat = k' + 1 := by
  by_cases hne : s.pendingFrames = []
  · have hnone : waiting = [] := by
      have hshows := h.waiting.shows
      rw [hne] at hshows
      exact List.forall₂_nil_right_iff.mp hshows
    rw [Scan.flushPending, if_pos hne, hnone, List.append_nil]
    exact ⟨groups, k, h.chained, h.next⟩
  · have hpos : s.nextChainId ≠ 0 := by
      intro hzero
      have hnext := h.next
      rw [hzero] at hnext
      cases hnext
    have hmarked := flushed_marked h.waiting hne hpos hb
    rw [Scan.flushPending, if_neg hne]
    have hsmall : k ≤ kMaxFrames := by
      have := h.chained.count_le
      have := h.bounded
      omega
    cases b with
    | true =>
      have hadd := h.chained.add hmarked (.inr ⟨h.next, rfl⟩)
      rw [flushed_calls true h.waiting, flushed_frames true h.waiting] at hadd
      refine ⟨_, _, hadd, ?_⟩
      change (s.nextChainId + 1).toNat = _
      rw [UInt32.toNat_add, h.next, UInt32.toNat_one, Nat.mod_eq_of_lt]
      unfold kMaxFrames at hsmall
      omega
    | false =>
      have hadd := h.chained.add hmarked (.inl ⟨rfl, rfl⟩)
      rw [flushed_calls false h.waiting, flushed_frames false h.waiting] at hadd
      exact ⟨_, _, hadd, h.next⟩

theorem flush_pending (b : Bool) (s : Scan) : (s.flushPending b).pendingFrames = [] := by
  unfold Scan.flushPending
  split
  next h => exact h
  next => rfl

theorem flush_length (b : Bool) (s : Scan) :
    (s.flushPending b).guessedFrames.length = s.guessedFrames.length + s.pendingFrames.length := by
  unfold Scan.flushPending
  split
  next h => rw [h, List.length_nil, Nat.add_zero]
  next => rw [List.length_append, List.length_map]

/-- The scan stands behind these calls. -/
def Behind (calls : List CallSite) (s : Scan) : Prop :=
  ∃ done waiting groups k, calls = done ++ waiting ∧ Scanned done waiting groups k s

theorem behind_start (eip sp : UInt32) : Behind [] { confirmedEip := eip, currentSp := sp } :=
  ⟨[], [], [], 0, rfl, chained_nil, rfl, ⟨.nil, .nil, rfl, fun _ _ h => absurd h List.not_mem_nil⟩,
    Nat.zero_le _⟩

variable {call : CallSite}

/-- A call of the confirmed function: what waited was spurious. -/
theorem Scanned.accept_confirmed (h : Scanned done waiting groups k s)
    (hroom : s.guessedFrames.length + s.pendingFrames.length < kMaxFrames)
    (hmatch : s.matchesConfirmed call = true) : Behind (done ++ waiting ++ [call]) (s.accept call) := by
  obtain ⟨groups', k', hchained, hnext⟩ := h.flush (b := true) (fun hb => by cases hb)
  obtain ⟨target, htarget, -⟩ := (Option.any_eq_true _ _).mp hmatch
  let frame : BacktraceFrame := ⟨call.returnAddress, false, call.target, false, 0⟩
  have hmarked : (Group.mk 0 [(call, frame)]).Marked := by
    have hshows : Shows call frame := ⟨rfl, rfl, by rw [htarget]; rfl⟩
    refine ⟨by simp, ?_, ?_, ?_, fun hid => absurd rfl hid⟩
    all_goals
      intro m hm
      rw [List.mem_singleton.mp hm]
    · exact hshows
    · exact iff_of_false Bool.false_ne_true fun hid => hid rfl
  have hadd := hchained.add hmarked (.inl ⟨rfl, rfl⟩)
  rw [Scan.accept, if_pos hmatch]
  refine ⟨done ++ waiting ++ [call], [], _, _, (List.append_nil _).symm, hadd, hnext, ?_, ?_⟩
  · refine ⟨?_, .nil, rfl, fun hstrong => by cases hstrong⟩
    dsimp only
    rw [flush_pending]
    exact .nil
  · dsimp only
    rw [flush_pending, List.length_append, flush_length]
    simp only [List.length_cons, List.length_nil]
    omega

/-- A call of the function guessed last: the chain gets longer. -/
theorem Scanned.accept_speculative (h : Scanned done waiting groups k s)
    (hroom : s.guessedFrames.length + s.pendingFrames.length < kMaxFrames)
    (hno : ¬s.matchesConfirmed call = true) (hmatch : s.matchesSpeculative call = true) :
    Behind (done ++ waiting ++ [call]) (s.accept call) := by
  obtain ⟨target, htarget, hanchor⟩ := (Option.any_eq_true _ _).mp hmatch
  obtain ⟨anchor, hspeculative, hnear⟩ := (Option.any_eq_true _ _).mp hanchor
  rw [Scan.accept, if_neg hno, if_pos hmatch]
  refine ⟨done, waiting ++ [call], groups, k, List.append_assoc _ _ _, h.chained, h.next, ?_, ?_⟩
  · refine ⟨?_, ?_, ?_, fun hstrong p hp => ?_⟩
    · exact List.rel_append h.waiting.shows (.cons ⟨rfl, rfl, by rw [htarget]; rfl⟩ .nil)
    · refine List.isChain_append.mpr ⟨h.waiting.chain, .singleton _, fun last hlast next hnext => ?_⟩
      -- the anchor is the last of the chain
      have haddress : last.address = anchor := by
        have := h.waiting.anchor
        rw [hspeculative, hlast] at this
        exact (Option.some.inj this).symm
      rw [List.head?_cons, Option.mem_some_iff] at hnext
      rw [← hnext]
      refine ⟨target, htarget, ?_⟩
      rw [haddress]
      exact isMatch_iff.mp hnear
    · rw [List.getLast?_append, List.getLast?_singleton]
      rfl
    · rcases List.mem_append.mp hp with hp | hp
      · exact h.waiting.strong hstrong p hp
      · rw [List.mem_singleton.mp hp]
  · dsimp only
    rw [List.length_append]
    simp only [List.length_cons, List.length_nil]
    omega

/-- Any other call begins a chain. -/
theorem Scanned.accept_other (h : Scanned done waiting groups k s)
    (hroom : s.guessedFrames.length + s.pendingFrames.length < kMaxFrames)
    (hno : ¬s.matchesConfirmed call = true) (hno' : ¬s.matchesSpeculative call = true) :
    Behind (done ++ waiting ++ [call]) (s.accept call) := by
  have hb : (!s.speculativeIsStrong) = false → ∀ p ∈ s.pendingFrames, p.frame.isSuspicious = false :=
    fun hb => h.waiting.strong (by simpa using hb)
  obtain ⟨groups', k', hchained, hnext⟩ := h.flush hb
  rw [Scan.accept, if_neg hno, if_neg hno']
  refine ⟨done ++ waiting, [call], groups', k', rfl, hchained, hnext, ?_, ?_⟩
  · refine ⟨?_, .singleton _, rfl, fun hstrong p hp => ?_⟩
    · dsimp only
      rw [flush_pending]
      exact .cons ⟨rfl, rfl, rfl⟩ .nil
    · dsimp only at hstrong hp
      rw [flush_pending, List.nil_append, List.mem_singleton] at hp
      rw [hp]
      cases htarget : call.target with
      | none => rfl
      | some target =>
        rw [htarget] at hstrong
        cases hstrong
  · dsimp only
    rw [flush_pending, flush_length, List.nil_append]
    exact hroom

theorem Behind.accept {calls : List CallSite} (h : Behind calls s)
    (hroom : s.guessedFrames.length + s.pendingFrames.length < kMaxFrames) (call : CallSite) :
    Behind (calls ++ [call]) (s.accept call) := by
  obtain ⟨done, waiting, groups, k, rfl, hs⟩ := h
  by_cases hconfirmed : s.matchesConfirmed call = true
  · exact hs.accept_confirmed hroom hconfirmed
  · by_cases hspeculative : s.matchesSpeculative call = true
    · exact hs.accept_speculative hroom hconfirmed hspeculative
    · exact hs.accept_other hroom hconfirmed hspeculative

theorem Behind.turn {calls : List CallSite} (h : Behind calls s)
    (hroom : s.guessedFrames.length + s.pendingFrames.length < kMaxFrames)
    (found : Option CallSite) : Behind (calls ++ found.toList) (s.note found).advance := by
  cases found with
  | none =>
    rw [Option.toList_none, List.append_nil]
    obtain ⟨done, waiting, groups, k, hcalls, hs⟩ := h
    exact ⟨done, waiting, groups, k, hcalls, hs.chained, hs.next,
      ⟨hs.waiting.shows, hs.waiting.chain, hs.waiting.anchor, hs.waiting.strong⟩, hs.bounded⟩
  | some call =>
    obtain ⟨done, waiting, groups, k, hcalls, hs⟩ := h.accept hroom call
    exact ⟨done, waiting, groups, k, hcalls, hs.chained, hs.next,
      ⟨hs.waiting.shows, hs.waiting.chain, hs.waiting.anchor, hs.waiting.strong⟩, hs.bounded⟩

end Scans

section Runs

variable {σ : Type} [Xbdm σ] {disassemble : Disassembler}
  {sections : List (UInt32 × Notifications.Section)} {stackBase : UInt32}

/-- The slots from `sp` on were probed one after the other, with these results. -/
inductive Probes (disassemble : Disassembler) (sections : List (UInt32 × Notifications.Section)) :
    UInt32 → List (Option CallSite) → XBDMDebugger σ → XBDMDebugger σ → Prop
  | nil (sp : UInt32) (d : XBDMDebugger σ) : Probes disassemble sections sp [] d d
  | cons {sp : UInt32} {found : Option CallSite} {rest : List (Option CallSite)}
      {d d₁ d₂ : XBDMDebugger σ} (h : probe disassemble sections sp d = .ok (found, d₁))
      (hrest : Probes disassemble sections (sp + 4) rest d₁ d₂) :
      Probes disassemble sections sp (found :: rest) d d₂

theorem more_iff {s : Scan} : s.more stackBase = true ↔ s.bytesScanned < kMaxScanBytes ∧
    s.guessedFrames.length + s.pendingFrames.length < kMaxFrames ∧ s.currentSp < stackBase := by
  simp only [Scan.more, Bool.and_eq_true, decide_eq_true_eq, and_assoc]

theorem flush_place (b : Bool) (s : Scan) : (s.flushPending b).currentSp = s.currentSp ∧
    (s.flushPending b).bytesScanned = s.bytesScanned := by
  unfold Scan.flushPending
  split <;> exact ⟨rfl, rfl⟩

theorem turn_place (found : Option CallSite) (s : Scan) :
    (s.note found).advance.currentSp = s.currentSp + 4 ∧
      (s.note found).advance.bytesScanned = s.bytesScanned + 4 := by
  cases found with
  | none => exact ⟨rfl, rfl⟩
  | some call =>
    have hplace : (s.accept call).currentSp = s.currentSp ∧
        (s.accept call).bytesScanned = s.bytesScanned := by
      unfold Scan.accept
      split
      · exact flush_place true s
      · split
        · exact ⟨rfl, rfl⟩
        · exact flush_place _ s
    change (s.accept call).currentSp + 4 = _ ∧ (s.accept call).bytesScanned + 4 = _
    rw [hplace.1, hplace.2]
    exact ⟨rfl, rfl⟩

/-- The loop went from `s` to `s'` and found these, and its condition no longer holds. -/
structure Ended (disassemble : Disassembler) (sections : List (UInt32 × Notifications.Section))
    (stackBase : UInt32) (calls : List CallSite) (found : List (Option CallSite)) (s s' : Scan)
    (d d' : XBDMDebugger σ) : Prop where
  probes : Probes disassemble sections s.currentSp found d d'
  behind : Behind (calls ++ found.reduceOption) s'
  finished : s'.more stackBase = false
  place : s'.currentSp = s.currentSp + UInt32.ofNat (4 * found.length)
  scanned : s'.bytesScanned.toNat = s.bytesScanned.toNat + 4 * found.length

theorem ended_here {calls : List CallSite} {s : Scan} (hs : Behind calls s)
    (hfinished : s.more stackBase = false) (d : XBDMDebugger σ) :
    Ended disassemble sections stackBase calls [] s s d d := by
  refine ⟨.nil _ _, ?_, hfinished, by simp, rfl⟩
  rwa [List.reduceOption_nil, List.append_nil]

theorem reduceOption_turn (calls : List CallSite) (found : Option CallSite)
    (rest : List (Option CallSite)) : calls ++ found.toList ++ rest.reduceOption =
      calls ++ (found :: rest).reduceOption := by
  cases found with
  | none => rw [List.reduceOption_cons_of_none, Option.toList_none, List.append_nil]
  | some call =>
    rw [List.reduceOption_cons_of_some, Option.toList_some, List.append_assoc, List.singleton_append]

/-- The loop ends at its condition and not for want of fuel. -/
theorem scanLoop_ended {fuel : Nat} {calls : List CallSite} {s s' : Scan} {d d' : XBDMDebugger σ}
    (hs : Behind calls s) (hfuel : s.bytesScanned.toNat + 4 * fuel = kMaxScanBytes.toNat)
    (h : scanLoop disassemble sections stackBase fuel s d = .ok (s', d')) :
    ∃ found, Ended disassemble sections stackBase calls found s s' d d' := by
  induction fuel generalizing calls s d with
  | zero =>
    cases h
    refine ⟨[], ended_here hs ?_ _⟩
    rw [Bool.eq_false_iff, ne_eq, more_iff]
    rintro ⟨hbytes, -⟩
    rw [UInt32.lt_iff_toNat_lt] at hbytes
    omega
  | succ fuel ih =>
    by_cases hmore : s.more stackBase = true
    · rw [scanLoop, if_pos hmore] at h
      obtain ⟨found, d₁, hprobe, hloop⟩ := Program.bind_ok h
      obtain ⟨hbytes, hroom, -⟩ := more_iff.mp hmore
      obtain ⟨hsp, hscanned⟩ := turn_place found s
      have hcount : (s.note found).advance.bytesScanned.toNat = s.bytesScanned.toNat + 4 := by
        rw [hscanned, UInt32.toNat_add, Nat.mod_eq_of_lt]
        · rfl
        · rw [UInt32.lt_iff_toNat_lt] at hbytes
          change s.bytesScanned.toNat < 1024 at hbytes
          change s.bytesScanned.toNat + 4 < _
          omega
      obtain ⟨rest, hrest⟩ := ih (hs.turn hroom found) (by omega) hloop
      refine ⟨found :: rest, .cons hprobe (hsp ▸ hrest.probes), ?_, hrest.finished, ?_, ?_⟩
      · rw [← reduceOption_turn]
        exact hrest.behind
      · rw [hrest.place, hsp, List.length_cons, Nat.mul_add, UInt32.ofNat_add,
          UInt32.add_assoc, UInt32.add_comm 4]
        rfl
      · rw [hrest.scanned, hcount, List.length_cons]
        omega
    · rw [scanLoop, if_neg hmore] at h
      cases h
      exact ⟨[], ended_here hs (Bool.eq_false_iff.mpr hmore) _⟩

/-- What is claimed of a backtrace, given the calls that were found on the stack. -/
structure Backtrace (calls : List CallSite) (frames : List BacktraceFrame) : Prop where
  bounded : frames.length ≤ kMaxFrames
  complete : List.Forall₂ Shows calls frames
  suspicious : ∀ f ∈ frames, f.isSuspicious = true ↔ f.chainId ≠ 0
  chains : ∃ groups k, Chained calls frames groups k

/-- The scan of a stack: all its slots were probed up to a limit, and the calls that were found are
the frames. -/
structure Scans (disassemble : Disassembler) (sections : List (UInt32 × Notifications.Section))
    (stackBase sp : UInt32) (frames : List BacktraceFrame) (d d' : XBDMDebugger σ) : Prop where
  scan : ∃ found, Probes disassemble sections sp found d d' ∧ Backtrace found.reduceOption frames ∧
    (kMaxScanBytes.toNat ≤ 4 * found.length ∨ frames.length = kMaxFrames ∨
      stackBase ≤ sp + UInt32.ofNat (4 * found.length))

theorem Behind.backtrace {calls : List CallSite} {s : Scan} (h : Behind calls s) :
    Backtrace calls (s.flushPending (!s.speculativeIsStrong)).guessedFrames := by
  obtain ⟨done, waiting, groups, k, rfl, hs⟩ := h
  have hb : (!s.speculativeIsStrong) = false → ∀ p ∈ s.pendingFrames, p.frame.isSuspicious = false :=
    fun hb => hs.waiting.strong (by simpa using hb)
  obtain ⟨groups', k', hchained, -⟩ := hs.flush hb
  refine ⟨?_, hchained.shows, hchained.suspicious, groups', k', hchained⟩
  rw [flush_length]
  exact hs.bounded

theorem scanStack_scans {context : ThreadContext} {frames : List BacktraceFrame}
    {d d' : XBDMDebugger σ}
    (h : scanStack disassemble sections stackBase context d = .ok (frames, d')) :
    Scans disassemble sections stackBase ((context.esp.map Int32.toUInt32).getD 0) frames d d' := by
  obtain ⟨s, d₁, hloop, hreturn⟩ := Program.bind_ok h
  cases hreturn
  obtain ⟨found, hended⟩ := scanLoop_ended (behind_start _ _) (by rfl) hloop
  refine ⟨found, hended.probes, hended.behind.backtrace, ?_⟩
  have hfinished := hended.finished
  have hbounded := hended.behind.backtrace.bounded
  rw [Bool.eq_false_iff, ne_eq, more_iff, hended.place, UInt32.lt_iff_toNat_lt, hended.scanned] at hfinished
  rw [flush_length] at hbounded ⊢
  by_cases hscanned : kMaxScanBytes.toNat ≤ 4 * found.length
  · exact .inl hscanned
  · by_cases hroom : s.guessedFrames.length + s.pendingFrames.length < kMaxFrames
    · refine .inr (.inr (UInt32.not_lt.mp fun hsp => hfinished ⟨?_, hroom, hsp⟩))
      rw [Nat.not_le] at hscanned
      exact (Nat.zero_add _).trans_lt hscanned
    · exact .inr (.inl (by omega))

end Runs

section Returns

variable {σ : Type} [Xbdm σ]

/-- A granted read is answered with as many bytes as were asked for. The size parser of
`GetMemBinary` sees to this. -/
def Measured (σ : Type) [Xbdm σ] : Prop :=
  ∀ (address length : UInt32) (s : σ),
    (Xbdm.answer (.getMemBinary address length) s).1.data.length = length.toNat

variable (hm : Measured σ)
include hm

theorem getMemory_returns (address length : UInt32) (hlen : 1 ≤ length.toNat)
    (d : XBDMDebugger σ) : ∃ r d', getMemory address length d = .ok (r, d') ∧
      ∀ raw, r = some raw → raw.length = length.toNat := by
  have hvalid : validateMemoryAccess address length false d = _ := validateMemoryAccess_run hlen false d
  have hrun := Program.bind_of_ok hvalid
    fun allowed => if allowed then Program.total (readMemory address length) else pure none
  cases hallowed : d.accessible address length false with
  | false =>
    rw [hallowed] at hrun
    exact ⟨none, d, hrun, fun raw hraw => by cases hraw⟩
  | true =>
    rw [hallowed] at hrun
    refine ⟨_, _, hrun, fun raw hraw => ?_⟩
    let suspended := (suspendBreakpoints (d.getActiveBreakpointsInRange address length) d).2
    have hdata : ((request (.getMemBinary address length) suspended).1.map Reply.data) = some raw := hraw
    obtain ⟨reply, hreply, rfl⟩ := Option.map_eq_some_iff.mp hdata
    have hanswer : (if Request.isOK (.getMemBinary address length)
        (Xbdm.answer (.getMemBinary address length) suspended.context.target).1.status then
        some (Xbdm.answer (.getMemBinary address length) suspended.context.target).1 else none) =
          some reply := hreply
    split at hanswer
    · rw [← Option.some.inj hanswer]
      exact hm address length suspended.context.target
    · cases hanswer

theorem probe_returns (disassemble : Disassembler) (sections : List (UInt32 × Notifications.Section))
    (sp : UInt32) (d : XBDMDebugger σ) : ∃ r, probe disassemble sections sp d = .ok r := by
  obtain ⟨raw, d₁, hread, hlength⟩ := getMemory_returns hm sp 4 (by decide) d
  have hword : ∃ val, getDWORD sp d = .ok (val, d₁) := by
    rw [getDWORD, Program.bind_of_ok hread]
    cases raw with
    | none => exact ⟨none, rfl⟩
    | some raw =>
      have hfour : ¬raw.length < 4 := by
        rw [hlength raw rfl]
        decide
      dsimp only
      rw [if_neg hfour]
      exact ⟨_, rfl⟩
  obtain ⟨val, hval⟩ := hword
  rw [probe, Program.bind_of_ok hval]
  cases val with
  | none => exact ⟨_, rfl⟩
  | some val =>
    dsimp only
    split
    · obtain ⟨bytes, d₂, hbytes, -⟩ := getMemory_returns hm (val - kInstructionLookbehind)
        kInstructionLookbehind (by decide) d₁
      rw [Program.bind_of_ok hbytes]
      cases bytes with
      | none => exact ⟨_, rfl⟩
      | some bytes =>
        dsimp only
        split <;> exact ⟨_, rfl⟩
    · exact ⟨_, rfl⟩

theorem scanLoop_returns (disassemble : Disassembler)
    (sections : List (UInt32 × Notifications.Section)) (stackBase : UInt32) (fuel : Nat) (s : Scan)
    (d : XBDMDebugger σ) : ∃ r, scanLoop disassemble sections stackBase fuel s d = .ok r := by
  induction fuel generalizing s d with
  | zero => exact ⟨_, rfl⟩
  | succ fuel ih =>
    rw [scanLoop]
    split
    · obtain ⟨⟨found, d₁⟩, hprobe⟩ := probe_returns hm disassemble sections s.currentSp d
      rw [Program.bind_of_ok hprobe]
      exact ih _ _
    · exact ⟨_, rfl⟩

theorem scanStack_returns (disassemble : Disassembler)
    (sections : List (UInt32 × Notifications.Section)) (stackBase : UInt32) (context : ThreadContext)
    (d : XBDMDebugger σ) : ∃ r, scanStack disassemble sections stackBase context d = .ok r := by
  obtain ⟨⟨s, d₁⟩, hloop⟩ := scanLoop_returns hm disassemble sections stackBase
    (kMaxScanBytes.toNat / 4) { confirmedEip := (context.eip.map Int32.toUInt32).getD 0
                                currentSp := (context.esp.map Int32.toUInt32).getD 0 } d
  exact ⟨_, Program.bind_of_ok hloop _⟩

end Returns

section Results

variable {σ : Type} [Xbdm σ]

/-- The debugger when the thread has been asked for its context and its bounds. -/
def asked (i : ThreadRef) (d : XBDMDebugger σ) : XBDMDebugger σ :=
  (fetchInfoSync i (fetchContextSync i d).2).2

/-- There is nothing to scan: the thread or its stack is not known, or there is no disassembler. -/
inductive Skips (disassembler : Option Disassembler) (stack : Option Stack) (threadId : UInt32)
    (d : XBDMDebugger σ) : Prop
  | unknown (h : d.getThread threadId = none)
  | context (i : ThreadRef) (hi : d.getThread threadId = some i) (h : (fetchContextSync i d).1 = false)
  | info (i : ThreadRef) (hi : d.getThread threadId = some i)
      (h : (fetchInfoSync i (fetchContextSync i d).2).1 = false)
  | bounds (h : stack = none)
  | capstone (h : disassembler = none)

/-- The frames of a thread, for the debugger as it is once the target has stopped. -/
inductive Traces (disassembler : Option Disassembler)
    (sections : List (UInt32 × Notifications.Section)) (stack : Option Stack) (threadId : UInt32)
    (d : XBDMDebugger σ) (frames : List BacktraceFrame) (d' : XBDMDebugger σ) : Prop
  | skipped (h : Skips disassembler stack threadId d) (hframes : frames = [])
  | scanned (i : ThreadRef) (disassemble : Disassembler) (bounds : Stack)
      (hi : d.getThread threadId = some i) (hdisassembler : disassembler = some disassemble)
      (hstack : stack = some bounds)
      (h : Scans disassemble sections bounds.base
        (((((asked i d).threadAt i).context.getD {}).esp.map Int32.toUInt32).getD 0) frames
        (asked i d) d')

theorem backTraceOf_run (hm : Measured σ) (disassembler : Option Disassembler)
    (sections : List (UInt32 × Notifications.Section)) (stack : Option Stack) (threadId : UInt32)
    (d : XBDMDebugger σ) :
    ∃ frames d', backTraceOf disassembler sections stack threadId d = .ok (frames, d') ∧
      Traces disassembler sections stack threadId d frames d' := by
  unfold backTraceOf
  rw [Program.get_bind_apply]
  cases hi : d.getThread threadId with
  | none => exact ⟨[], d, rfl, .skipped (.unknown hi) rfl⟩
  | some i =>
    dsimp only
    rw [Program.bind_total]
    cases hcontext : (fetchContextSync i d).1 with
    | false => exact ⟨[], _, rfl, .skipped (.context i hi hcontext) rfl⟩
    | true =>
      rw [if_neg (by decide), Program.bind_total]
      cases hinfo : (fetchInfoSync i (fetchContextSync i d).2).1 with
      | false => exact ⟨[], _, rfl, .skipped (.info i hi hinfo) rfl⟩
      | true =>
        rw [if_neg (by decide)]
        cases stack with
        | none => exact ⟨[], _, rfl, .skipped (.bounds rfl) rfl⟩
        | some bounds =>
          cases disassembler with
          | none => exact ⟨[], _, rfl, .skipped (.capstone rfl) rfl⟩
          | some disassemble =>
            dsimp only
            rw [Program.bind_total]
            obtain ⟨⟨frames, d'⟩, hscan⟩ := scanStack_returns hm disassemble sections bounds.base
              (((asked i d).threadAt i).context.getD {}) (asked i d)
            exact ⟨frames, d', hscan, .scanned i disassemble bounds hi rfl rfl (scanStack_scans hscan)⟩

/-- The target is stopped, the stack of the thread is scanned, and the target runs again. Every call
that was found is a frame, in the order of the stack; the suspicious frames form the chains. -/
theorem guessBackTrace_traces (hm : Measured σ) (disassembler : Option Disassembler)
    (sections : List (UInt32 × Notifications.Section)) (stack : Option Stack) (threadId : UInt32)
    (d : XBDMDebugger σ) :
    ∃ frames d₁ d', guessBackTrace disassembler sections stack threadId d = .ok (frames, d') ∧
      Traces disassembler sections stack threadId (scopedStop d).2 frames d₁ := by
  obtain ⟨frames, d₁, hrun, htraces⟩ := backTraceOf_run hm disassembler sections stack threadId
    (scopedStop d).2
  refine ⟨frames, d₁, (scopedResume (scopedStop d).1 d₁).2, ?_, htraces⟩
  rw [guessBackTrace, Program.bind_total, Program.bind_of_ok hrun]
  rfl

end Results

theorem measured_patched : Measured Transparency.Patched := by
  intro address length s
  change ((List.range length.toNat).map _).length = length.toNat
  rw [List.length_map, List.length_range]

/-- Whatever is disassembled is one call of the function at zero. -/
def callsEverywhere : Disassembler := fun bytes address =>
  [⟨address.toUInt64, UInt16.ofNat bytes.length, true, some [.imm 0]⟩]

def codeEverywhere : List (UInt32 × Notifications.Section) :=
  [(0x10000000, ⟨ascii ".text", 0x10000000, 0x1000000, 0, 0⟩)]

/-- A thread on whose stack every word is 0x10101010. -/
def deepStack : XBDMDebugger Transparency.Patched where
  context := { target := { memory := fun _ => 0x10, installed := ∅ } }
  threads := [{ threadId := 1 }]

theorem guessBackTrace_traces_deepStack :
    ∃ frames d₁ d', guessBackTrace (some callsEverywhere) codeEverywhere (some ⟨0x2000, 0⟩) 1
        deepStack = .ok (frames, d') ∧
      Traces (some callsEverywhere) codeEverywhere (some ⟨0x2000, 0⟩) 1
        (scopedStop deepStack).2 frames d₁ :=
  guessBackTrace_traces measured_patched _ _ _ _ _

end XbdmGdbBridge.Proofs.Backtraces
