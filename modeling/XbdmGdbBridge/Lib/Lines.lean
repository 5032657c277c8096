import Mathlib.Data.List.Infix

/-!
# Patterns and lines

Where a pattern occurs first in a text, and a text cut at a delimiter of two characters.
-/

namespace XbdmGdbBridge.Lib

variable {α : Type}

/-- The delimiter does not occur. -/
def Free (a b : α) (s : List α) : Prop :=
  ¬[a, b] <:+: s

theorem free_nil {a b : α} : Free a b [] := by
  simp [Free]

theorem free_cons {a b c : α} {s : List α} :
    Free a b (c :: s) ↔ ¬(c = a ∧ s.head? = some b) ∧ Free a b s := by
  unfold Free
  rw [List.infix_cons_iff, not_or, List.cons_prefix_cons]
  cases s with
  | nil => simp
  | cons d s => simp [eq_comm]

theorem free_of_notMem {a b : α} {s : List α} (h : a ∉ s) : Free a b s :=
  fun hpair => h (hpair.subset (by simp))

/-- Text in front that does not hold the first character of the delimiter. -/
theorem free_append_left {a b : α} {front s : List α} (h : a ∉ front) :
    Free a b (front ++ s) ↔ Free a b s := by
  induction front with
  | nil => rfl
  | cons c front ih =>
    rw [List.mem_cons, not_or] at h
    rw [List.cons_append, free_cons, ih h.2]
    exact and_iff_right fun hc => h.1 hc.1.symm

/-- Text behind that does not hold the second character of the delimiter. -/
theorem free_append_right {a b : α} {s behind : List α} (h : b ∉ behind) :
    Free a b (s ++ behind) ↔ Free a b s := by
  induction s with
  | nil =>
    refine iff_of_true (fun hpair => h ?_) free_nil
    exact hpair.subset (by simp)
  | cons c s ih =>
    rw [List.cons_append, free_cons, free_cons, ih]
    cases s with
    | nil =>
      have hhead : behind.head? ≠ some b := fun hb => h (List.mem_of_head? hb)
      simp [hhead]
    | cons d s => rfl

/-- In front of a delimiter a text that is free of it stays so. -/
theorem not_prefix_drop {a b : α} {s : List α} (rest : List α) (hab : a ≠ b) (h : Free a b s)
    {i : Nat} (hi : i < s.length) :
    ¬[a, b] <+: (s ++ a :: rest).drop i := by
  induction s generalizing i with
  | nil => cases hi
  | cons c s ih =>
    obtain ⟨hc, hs⟩ := free_cons.mp h
    cases i with
    | zero =>
      rw [List.drop_zero, List.cons_append, List.cons_prefix_cons]
      rintro ⟨rfl, hb⟩
      cases s with
      | nil =>
        rw [List.nil_append, List.cons_prefix_cons] at hb
        exact hab hb.1.symm
      | cons d s =>
        rw [List.cons_append, List.cons_prefix_cons] at hb
        exact hc ⟨rfl, by simp [hb.1]⟩
    | succ i => exact ih hs (by simpa using hi)

/-- A text starts with a line, or has none. -/
theorem free_or_line (a b : α) (s : List α) :
    Free a b s ∨ ∃ line rest, Free a b line ∧ s = line ++ a :: b :: rest := by
  induction s with
  | nil => exact .inl free_nil
  | cons c s ih =>
    by_cases hhere : c = a ∧ s.head? = some b
    · obtain ⟨rfl, hb⟩ := hhere
      obtain ⟨rest, rfl⟩ := List.head?_eq_some_iff.mp hb
      exact .inr ⟨[], rest, free_nil, rfl⟩
    · rcases ih with hfree | ⟨line, rest, hline, rfl⟩
      · exact .inl (free_cons.mpr ⟨hhere, hfree⟩)
      · refine .inr ⟨c :: line, rest, free_cons.mpr ⟨?_, hline⟩, rfl⟩
        cases line with
        | nil => simp
        | cons d line => simpa using hhere

/-- Induction over the lines of a text. -/
theorem lines_induction (a b : α) {P : List α → Prop} (hopen : ∀ s, Free a b s → P s)
    (hline : ∀ line rest, Free a b line → P rest → P (line ++ a :: b :: rest)) (s : List α) :
    P s := by
  induction hn : s.length using Nat.strong_induction_on generalizing s with
  | _ n ih =>
    rcases free_or_line a b s with hfree | ⟨line, rest, hfree, rfl⟩
    · exact hopen s hfree
    · refine hline line rest hfree (ih rest.length ?_ rest rfl)
      simp only [← hn, List.length_append, List.length_cons]
      omega

/-- A cut of two texts is a cut within the first or within the second. -/
theorem cut_append {p s t : List α} (h : p <+: s ++ t) :
    (p <+: s ∧ p ≠ s) ∨ ∃ q, p = s ++ q ∧ q <+: t := by
  rcases List.prefix_or_prefix_of_prefix h (List.prefix_append s t) with hp | ⟨q, rfl⟩
  · by_cases heq : p = s
    · exact .inr ⟨[], by simp [heq], List.nil_prefix⟩
    · exact .inl ⟨hp, heq⟩
  · exact .inr ⟨q, rfl, (List.prefix_append_right_inj s).mp h⟩

variable [DecidableEq α]

/-- The first place the pattern occurs at. -/
def search (pattern : List α) : List α → Option Nat
  | [] => if pattern = [] then some 0 else none
  | c :: rest => if pattern <+: c :: rest then some 0 else (search pattern rest).map (· + 1)

/-- The pieces between the delimiters; the last one is what follows the last delimiter. -/
def splitPair (a b : α) : List α → List (List α)
  | [] => [[]]
  | [c] => [[c]]
  | c :: d :: rest =>
    if c = a ∧ d = b then [] :: splitPair a b rest
    else (splitPair a b (d :: rest)).modifyHead (c :: ·)

/-- The complete lines, each with what follows it. -/
def completeLines (a b : α) : List α → List (List α × List α)
  | [] => []
  | [_] => []
  | c :: d :: rest =>
    if c = a ∧ d = b then ([], rest) :: completeLines a b rest
    else (completeLines a b (d :: rest)).modifyHead fun (line, behind) => (c :: line, behind)

/-- What follows the last delimiter. -/
def openLine (a b : α) (s : List α) : List α :=
  (splitPair a b s).getLastD []

section Searching

variable {pattern s rest : List α}

theorem search_here (h : pattern <+: s) : search pattern s = some 0 := by
  cases s with
  | nil =>
    rw [search, if_pos (List.prefix_nil.mp h)]
  | cons c s => rw [search, if_pos h]

theorem search_later (h : ∀ i < s.length, ¬pattern <+: (s ++ rest).drop i) :
    search pattern (s ++ rest) = (search pattern rest).map (· + s.length) := by
  induction s with
  | nil => simp
  | cons c s ih =>
    have hfirst : ¬pattern <+: c :: (s ++ rest) := h 0 (by simp)
    have hrest := ih fun i hi => h (i + 1) (by simpa using hi)
    rw [List.cons_append, search, if_neg hfirst, hrest, Option.map_map]
    congr 1

theorem search_length {i : Nat} (h : search pattern s = some i) :
    i + pattern.length ≤ s.length := by
  induction s generalizing i with
  | nil =>
    rw [search] at h
    split at h
    next hp =>
      cases h
      simp [hp]
    next => cases h
  | cons c s ih =>
    rw [search] at h
    split at h
    next hp =>
      cases h
      simpa using hp.length_le
    next =>
      obtain ⟨j, hj, rfl⟩ := Option.map_eq_some_iff.mp h
      have hbound := ih hj
      rw [List.length_cons]
      omega

/-- Text behind an occurrence does not bring an earlier one. -/
theorem search_append {i : Nat} (rest : List α) (h : search pattern s = some i) :
    search pattern (s ++ rest) = some i := by
  induction s generalizing i with
  | nil =>
    rw [search] at h
    split at h
    next hp =>
      cases h
      exact search_here (by simp [hp])
    next => cases h
  | cons c s ih =>
    rw [search] at h
    rw [List.cons_append, search]
    split at h
    next hp =>
      have hlong : pattern <+: c :: (s ++ rest) := hp.trans (List.prefix_append (c :: s) rest)
      rw [if_pos hlong, h]
    next hp =>
      obtain ⟨j, hj, rfl⟩ := Option.map_eq_some_iff.mp h
      have hbound := search_length hj
      have hfirst : ¬pattern <+: c :: (s ++ rest) := by
        intro hlong
        refine hp (List.prefix_of_prefix_length_le hlong (List.prefix_append (c :: s) rest) ?_)
        rw [List.length_cons]
        omega
      rw [if_neg hfirst, ih hj]
      rfl

end Searching

section Delimiters

variable {a b : α} {s : List α}

theorem search_line (rest : List α) (hab : a ≠ b) (h : Free a b s) :
    search [a, b] (s ++ a :: b :: rest) = some s.length := by
  have hhere : search [a, b] (a :: b :: rest) = some 0 := search_here ⟨rest, rfl⟩
  rw [search_later fun i hi => not_prefix_drop _ hab h hi, hhere]
  simp

theorem search_free (h : Free a b s) : search [a, b] s = none := by
  induction s with
  | nil => rfl
  | cons c s ih =>
    have hfirst : ¬[a, b] <+: c :: s := fun hp => h hp.isInfix
    rw [search, if_neg hfirst, ih (free_cons.mp h).2]
    rfl

theorem splitPair_ne_nil (a b : α) (s : List α) : splitPair a b s ≠ [] := by
  induction s using splitPair.induct a b with
  | case1 => simp [splitPair]
  | case2 c => simp [splitPair]
  | case3 c d rest h ih => simp [splitPair, h]
  | case4 c d rest h ih => simpa [splitPair, h] using ih

theorem splitPair_free (h : Free a b s) : splitPair a b s = [s] := by
  induction s using splitPair.induct a b with
  | case1 => rfl
  | case2 c => rfl
  | case3 c d rest hcd ih => exact absurd ⟨hcd.1, by simp [hcd.2]⟩ (free_cons.mp h).1
  | case4 c d rest hcd ih =>
    rw [splitPair, if_neg hcd, ih (free_cons.mp h).2]
    rfl

theorem splitPair_line (rest : List α) (hab : a ≠ b) (h : Free a b s) :
    splitPair a b (s ++ a :: b :: rest) = s :: splitPair a b rest := by
  induction s with
  | nil => simp [splitPair]
  | cons c s ih =>
    obtain ⟨hc, hs⟩ := free_cons.mp h
    cases s with
    | nil =>
      have hne : ¬(c = a ∧ a = b) := fun hboth => hab hboth.2
      simp only [List.cons_append, List.nil_append, splitPair, if_neg hne]
      simp
    | cons d s =>
      have hne : ¬(c = a ∧ d = b) := by simpa using hc
      have hrest := ih hs
      rw [List.cons_append] at hrest
      rw [List.cons_append, List.cons_append, splitPair, if_neg hne, hrest]
      rfl

theorem completeLines_free (h : Free a b s) : completeLines a b s = [] := by
  induction s using completeLines.induct a b with
  | case1 => rfl
  | case2 c => rfl
  | case3 c d rest hcd ih => exact absurd ⟨hcd.1, by simp [hcd.2]⟩ (free_cons.mp h).1
  | case4 c d rest hcd ih =>
    rw [completeLines, if_neg hcd, ih (free_cons.mp h).2]
    rfl

theorem completeLines_line (rest : List α) (hab : a ≠ b) (h : Free a b s) :
    completeLines a b (s ++ a :: b :: rest) = (s, rest) :: completeLines a b rest := by
  induction s with
  | nil => simp [completeLines]
  | cons c s ih =>
    obtain ⟨hc, hs⟩ := free_cons.mp h
    cases s with
    | nil =>
      have hne : ¬(c = a ∧ a = b) := fun hboth => hab hboth.2
      simp only [List.cons_append, List.nil_append, completeLines, if_neg hne]
      simp
    | cons d s =>
      have hne : ¬(c = a ∧ d = b) := by simpa using hc
      have hrest := ih hs
      rw [List.cons_append] at hrest
      rw [List.cons_append, List.cons_append, completeLines, if_neg hne, hrest]
      rfl

theorem openLine_free (h : Free a b s) : openLine a b s = s := by
  simp [openLine, splitPair_free h]

theorem openLine_line (rest : List α) (hab : a ≠ b) (h : Free a b s) :
    openLine a b (s ++ a :: b :: rest) = openLine a b rest := by
  obtain ⟨first, others, hsplit⟩ := List.exists_cons_of_ne_nil (splitPair_ne_nil a b rest)
  simp [openLine, splitPair_line rest hab h, hsplit]

theorem free_openLine (hab : a ≠ b) (s : List α) : Free a b (openLine a b s) := by
  induction s using lines_induction a b with
  | hopen s h => rwa [openLine_free h]
  | hline line rest h ih => rwa [openLine_line rest hab h]

theorem map_fst_completeLines (hab : a ≠ b) (s : List α) :
    (completeLines a b s).map Prod.fst = (splitPair a b s).dropLast := by
  induction s using lines_induction a b with
  | hopen s h => simp [completeLines_free h, splitPair_free h]
  | hline line rest h ih =>
    rw [completeLines_line rest hab h, splitPair_line rest hab h, List.map_cons, ih,
      List.dropLast_cons_of_ne_nil (splitPair_ne_nil a b rest)]

/-- The open line comes first in the text that follows. -/
theorem dropLast_splitPair_append (hab : a ≠ b) (s t : List α) :
    (splitPair a b (s ++ t)).dropLast =
      (splitPair a b s).dropLast ++ (splitPair a b (openLine a b s ++ t)).dropLast := by
  induction s using lines_induction a b with
  | hopen s h => simp [openLine_free h, splitPair_free h]
  | hline line rest h ih =>
    have hlong := splitPair_line (rest ++ t) hab h
    rw [List.append_assoc, List.cons_append, List.cons_append, hlong, splitPair_line rest hab h,
      openLine_line rest hab h, List.dropLast_cons_of_ne_nil (splitPair_ne_nil a b _),
      List.dropLast_cons_of_ne_nil (splitPair_ne_nil a b _), ih, List.cons_append]

end Delimiters

end XbdmGdbBridge.Lib
