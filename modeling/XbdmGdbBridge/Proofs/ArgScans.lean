import XbdmGdbBridge.Util.ArgParser

/-!
# Cutting a command line

What `ArgParser::Tokenize` does with a part of a line: which characters get into the current token,
and where a token ends.
-/

namespace XbdmGdbBridge.Proofs.ArgLines

open ArgParser

def isBlank (c : UInt8) : Bool :=
  c == byte ' ' || c == 0x09

def blanks (text : Bytes) : Nat :=
  text.countP isBlank

section Steps

variable {s : Scan} {c : UInt8} {text rest : Bytes}

theorem scan_cons (hquote : s.inQuote = false) : scan s (c :: rest) = scan (s.step c) rest := by
  cases rest with
  | nil => rfl
  | cons d rest => simp [scan, hquote]

/-- A cut in front of anything but a quote changes nothing. -/
theorem scan_append (hrest : rest.head? ≠ some 0x22) :
    scan s (text ++ rest) = scan (scan s text) rest := by
  fun_induction scan s text with
  | case1 s => rfl
  | case2 s c =>
    cases rest with
    | nil => rfl
    | cons d rest =>
      have hd : d ≠ 0x22 := fun h => hrest (by simp [h])
      simp [scan, hd]
  | case3 s c d text hescape ih => simpa [scan, hescape] using ih
  | case4 s c d text hescape ih =>
    rw [← ih]
    simp only [List.cons_append, scan, if_neg hescape]

theorem step_outside (hquote : s.inQuote = false) (hdepth : s.parenDepth = 0) :
    s.step c = s.stepOutside c := by
  simp [Scan.step, hquote, hdepth]

theorem step_parens (hquote : s.inQuote = false) (hdepth : 0 < s.parenDepth) :
    s.step c = s.stepParens c := by
  simp [Scan.step, hquote, hdepth]

theorem flushToken_of_dirty (h : s.tokenDirty = true) :
    s.flushToken = { s with
      args := s.args ++ [⟨s.currentToken, s.currentType⟩]
      currentToken := []
      tokenDirty := false
      currentType := .basic } := by
  simp [Scan.flushToken, h]

/-- A character of a started token gets into the token or not; or it is a blank that ends it. -/
theorem step_cases (hdirty : s.tokenDirty = true) :
    (∃ kept, kept.Sublist [c] ∧ (isBlank c = true → kept = [c]) ∧ (s.step c).args = s.args ∧
      (s.step c).tokenDirty = true ∧ (s.step c).currentToken = s.currentToken ++ kept) ∨
    (isBlank c = true ∧ s.step c = s.flushToken) := by
  have hpushed : ∀ s' : Scan, s'.args = s.args → s'.tokenDirty = true →
      s'.currentToken = s.currentToken ++ [c] → ∃ kept, kept.Sublist [c] ∧
        (isBlank c = true → kept = [c]) ∧ s'.args = s.args ∧ s'.tokenDirty = true ∧
        s'.currentToken = s.currentToken ++ kept :=
    fun s' hargs hdirty htoken => ⟨[c], List.Sublist.refl _, fun _ => rfl, hargs, hdirty, htoken⟩
  have hdropped : ∀ s' : Scan, s'.args = s.args → s'.tokenDirty = true →
      s'.currentToken = s.currentToken → isBlank c = false → ∃ kept, kept.Sublist [c] ∧
        (isBlank c = true → kept = [c]) ∧ s'.args = s.args ∧ s'.tokenDirty = true ∧
        s'.currentToken = s.currentToken ++ kept :=
    fun s' hargs hdirty htoken hblank =>
      ⟨[], List.nil_sublist _, fun h => by simp [hblank] at h, hargs, hdirty, by simp [htoken]⟩
  unfold Scan.step
  split
  · refine .inl ?_
    split
    next hc => exact hdropped _ rfl hdirty rfl (by subst hc; decide)
    next => exact hpushed _ rfl hdirty rfl
  split
  · refine .inl ?_
    unfold Scan.stepParens
    split
    · exact hpushed _ rfl hdirty rfl
    split
    next hc =>
      dsimp only
      split
      · exact hpushed _ rfl hdirty rfl
      · exact hdropped _ rfl hdirty rfl (by subst hc; decide)
    next => exact hpushed _ rfl hdirty rfl
  · unfold Scan.stepOutside
    split
    next hc => exact .inr ⟨by simpa [isBlank] using hc, rfl⟩
    split
    next hc =>
      refine .inl ?_
      split
      · exact hdropped _ rfl rfl rfl (by subst hc; decide)
      · exact hpushed _ rfl rfl rfl
    split
    next hc =>
      refine .inl ?_
      dsimp only
      split
      · exact hdropped _ rfl rfl rfl (by subst hc; decide)
      · exact hpushed _ rfl rfl rfl
    next => exact .inl (hpushed _ rfl rfl rfl)

end Steps

section Tokens

variable {s : Scan} {c : UInt8} {text rest : Bytes}

theorem args_flushToken (s : Scan) : s.args <+: s.flushToken.args := by
  unfold Scan.flushToken
  split
  · exact List.prefix_append _ _
  · exact List.prefix_rfl

theorem args_step (s : Scan) (c : UInt8) : s.args <+: (s.step c).args := by
  unfold Scan.step
  split
  · split <;> exact List.prefix_rfl
  split
  · unfold Scan.stepParens
    split
    · exact List.prefix_rfl
    split
    · dsimp only
      split <;> exact List.prefix_rfl
    · exact List.prefix_rfl
  · unfold Scan.stepOutside
    split
    · exact args_flushToken s
    split
    · split <;> exact List.prefix_rfl
    split
    · dsimp only
      split <;> exact List.prefix_rfl
    · exact List.prefix_rfl

theorem args_scan (s : Scan) (text : Bytes) : s.args <+: (scan s text).flushToken.args := by
  fun_induction scan s text with
  | case1 s => exact args_flushToken s
  | case2 s c => exact (args_step s c).trans (args_flushToken _)
  | case3 s c d text hescape ih => exact ih
  | case4 s c d text hescape ih => exact (args_step s c).trans ih

theorem scan_started (hdirty : s.tokenDirty = true) (text : Bytes) :
    ∃ x more, (scan s text).flushToken.args = s.args ++ x :: more ∧ s.currentToken <+: x.value := by
  have hstep : ∀ (s : Scan) (c : UInt8) (text : Bytes), s.tokenDirty = true →
      ((s.step c).tokenDirty = true → ∃ x more, (scan (s.step c) text).flushToken.args =
        (s.step c).args ++ x :: more ∧ (s.step c).currentToken <+: x.value) →
      ∃ x more, (scan (s.step c) text).flushToken.args = s.args ++ x :: more ∧
        s.currentToken <+: x.value := by
    intro s c text hdirty ih
    rcases step_cases (c := c) hdirty with ⟨kept, -, -, hargs, hdirty', htoken⟩ | ⟨-, hflush⟩
    · obtain ⟨x, more, hx, hprefix⟩ := ih hdirty'
      rw [hargs] at hx
      rw [htoken] at hprefix
      exact ⟨x, more, hx, (List.prefix_append _ _).trans hprefix⟩
    · obtain ⟨more, hmore⟩ := args_scan (s.step c) text
      rw [hflush, flushToken_of_dirty hdirty, List.append_assoc] at hmore
      refine ⟨⟨s.currentToken, s.currentType⟩, more, ?_, List.prefix_rfl⟩
      rw [hflush, flushToken_of_dirty hdirty, ← hmore]
      rfl
  fun_induction scan s text with
  | case1 s =>
    refine ⟨⟨s.currentToken, s.currentType⟩, [], ?_, List.prefix_rfl⟩
    rw [flushToken_of_dirty hdirty]
  | case2 s c =>
    apply hstep s c [] hdirty
    intro hdirty'
    refine ⟨⟨(s.step c).currentToken, (s.step c).currentType⟩, [], ?_, List.prefix_rfl⟩
    rw [scan, flushToken_of_dirty hdirty']
  | case3 s c d text hescape ih =>
    obtain ⟨x, more, hx, hprefix⟩ := ih hdirty
    exact ⟨x, more, hx, (List.prefix_append _ _).trans hprefix⟩
  | case4 s c d text hescape ih => exact hstep s c (d :: text) hdirty ih

/-- A text without blanks goes on with a started token; characters may get lost. -/
theorem scan_of_blankFree (hdirty : s.tokenDirty = true) (htext : ∀ b ∈ text, isBlank b = false) :
    ∃ kept, kept.Sublist text ∧ (scan s text).args = s.args ∧ (scan s text).tokenDirty = true ∧
      (scan s text).currentToken = s.currentToken ++ kept := by
  have hstep : ∀ (s : Scan) (c : UInt8), s.tokenDirty = true → isBlank c = false →
      ∃ kept, kept.Sublist [c] ∧ (s.step c).args = s.args ∧ (s.step c).tokenDirty = true ∧
        (s.step c).currentToken = s.currentToken ++ kept := by
    intro s c hdirty hc
    rcases step_cases (c := c) hdirty with ⟨kept, hkept, -, hargs, hdirty', htoken⟩ | ⟨hblank, -⟩
    · exact ⟨kept, hkept, hargs, hdirty', htoken⟩
    · rw [hc] at hblank
      cases hblank
  fun_induction scan s text with
  | case1 s => exact ⟨[], List.nil_sublist _, rfl, hdirty, by simp⟩
  | case2 s c => exact hstep s c hdirty (htext c (by simp))
  | case3 s c d text hescape ih =>
    obtain ⟨kept, hkept, hargs, hdirty', htoken⟩ := ih hdirty fun b hb => htext b (by simp [hb])
    refine ⟨0x22 :: kept, ?_, hargs, hdirty', ?_⟩
    · rw [hescape.2.2]
      exact (hkept.cons_cons _).cons _
    · rw [htoken]
      simp [Scan.push]
  | case4 s c d text hescape ih =>
    obtain ⟨first, hfirst, hargs, hdirty', htoken⟩ := hstep s c hdirty (htext c (by simp))
    obtain ⟨kept, hkept, hargs', hdirty'', htoken'⟩ :=
      ih hdirty' fun b hb => htext b (List.mem_cons_of_mem _ hb)
    refine ⟨first ++ kept, ?_, hargs'.trans hargs, hdirty'', ?_⟩
    · exact hfirst.append hkept
    · rw [htoken', htoken, List.append_assoc]

/-- What a started token becomes, up to the first blank: what was kept of the text in front of it,
and the token ends there or has the blank in it. -/
theorem scan_to_blank (hdirty : s.tokenDirty = true) (htext : ∀ b ∈ text, isBlank b = false)
    (hrest : ∀ b ∈ rest.head?, isBlank b = true) :
    ∃ kept, kept.Sublist text ∧ ∃ x more,
      (scan s (text ++ rest)).flushToken.args = s.args ++ x :: more ∧ (x.value = s.currentToken ++ kept ∨
        ∃ b, isBlank b = true ∧ s.currentToken ++ kept ++ [b] <+: x.value) := by
  have hhead : rest.head? ≠ some 0x22 := by
    intro h
    have hblank := hrest _ h
    revert hblank
    decide
  obtain ⟨kept, hkept, hargs, hdirty', htoken⟩ := scan_of_blankFree hdirty htext
  refine ⟨kept, hkept, ?_⟩
  rw [scan_append hhead, ← htoken, ← hargs]
  generalize scan s text = s' at hargs hdirty' htoken ⊢
  cases rest with
  | nil =>
    refine ⟨⟨s'.currentToken, s'.currentType⟩, [], ?_, .inl rfl⟩
    rw [scan, flushToken_of_dirty hdirty']
  | cons b rest =>
    have hb := hrest b rfl
    have hplain : scan s' (b :: rest) = scan (s'.step b) rest := by
      have hslash : b ≠ 0x5c := by
        rintro rfl
        revert hb
        decide
      cases rest with
      | nil => rfl
      | cons d rest => simp [scan, hslash]
    rw [hplain]
    rcases step_cases (c := b) hdirty' with ⟨pushed, -, hpushed, hargs', hdirty'', htoken'⟩ | ⟨-, hflush⟩
    · obtain ⟨x, more, hx, hprefix⟩ := scan_started hdirty'' rest
      rw [htoken', hpushed hb] at hprefix
      rw [hargs'] at hx
      exact ⟨x, more, hx, .inr ⟨b, hb, hprefix⟩⟩
    · obtain ⟨more, hmore⟩ := args_scan (s'.step b) rest
      rw [hflush, flushToken_of_dirty hdirty', List.append_assoc] at hmore
      refine ⟨⟨s'.currentToken, s'.currentType⟩, more, ?_, .inl rfl⟩
      rw [hflush, flushToken_of_dirty hdirty', ← hmore]
      rfl

/-- The number of characters in front of the first blank. -/
def lead (text : Bytes) : Nat :=
  (text.takeWhile fun b => !isBlank b).length

theorem lead_cons (hc : isBlank c = false) : lead (c :: text) = lead text + 1 := by
  simp [lead, hc]

theorem lead_append (hrest : ∀ b ∈ rest.head?, isBlank b = true) : lead (text ++ rest) = lead text := by
  have hnone : rest.takeWhile (fun b => !isBlank b) = [] := by
    cases rest with
    | nil => rfl
    | cons b rest => simp [hrest b rfl]
  unfold lead
  rw [List.takeWhile_append, hnone]
  split
  next hall => simp [hall]
  next => rfl

theorem lead_le_of_blank {front behind : Bytes} {b : UInt8} (hb : isBlank b = true) :
    lead (front ++ b :: behind) ≤ front.length := by
  rw [lead_append (by simpa using hb)]
  exact (List.takeWhile_prefix _).length_le

/-- What is added to a started token has no more characters in front of its first blank than the text
it is taken from. -/
theorem scan_lead (text : Bytes) (hdirty : s.tokenDirty = true) (hrest : ∀ b ∈ rest.head?, isBlank b = true) :
    ∃ x more added, (scan s (text ++ rest)).flushToken.args = s.args ++ x :: more ∧
      x.value = s.currentToken ++ added ∧ lead added ≤ lead text ∧
        ((∀ b ∈ added, isBlank b = false) → added.Sublist text) := by
  have hfront : ∀ b ∈ text.takeWhile (fun b => !isBlank b), isBlank b = false := by
    intro b hb
    simpa using List.mem_takeWhile_imp hb
  have hbehind : ∀ b ∈ (text.dropWhile (fun b => !isBlank b) ++ rest).head?, isBlank b = true := by
    intro b hb
    rw [List.head?_append] at hb
    cases hdrop : (text.dropWhile fun b => !isBlank b).head? with
    | none => exact hrest b (by simpa [hdrop] using hb)
    | some d =>
      obtain rfl : d = b := by simpa [hdrop] using hb
      have := List.head?_dropWhile_not (fun b => !isBlank b) text
      simpa [hdrop] using this
  obtain ⟨kept, hkept, x, more, hx, hvalue⟩ := scan_to_blank hdirty hfront hbehind
  rw [← List.append_assoc, List.takeWhile_append_dropWhile] at hx
  have hlength : kept.length ≤ lead text := hkept.length_le
  rcases hvalue with hvalue | ⟨b, hb, behind, hvalue⟩
  · refine ⟨x, more, kept, hx, hvalue, ?_, fun _ => hkept.trans (List.takeWhile_sublist _)⟩
    exact (List.takeWhile_prefix _).length_le.trans hlength
  · refine ⟨x, more, kept ++ b :: behind, hx, by rw [← hvalue]; simp, ?_, ?_⟩
    · exact (lead_le_of_blank hb).trans hlength
    · intro hall
      have := hall b (by simp)
      rw [hb] at this
      cases this

end Tokens

section Counts

/-- The blanks in the tokens and the ends of tokens, which are blanks as well. -/
def weight (s : Scan) : Nat :=
  (s.args.map fun a => blanks a.value).sum + blanks s.currentToken + s.args.length

theorem blanks_append (a b : Bytes) : blanks (a ++ b) = blanks a + blanks b :=
  List.countP_append

theorem blanks_of_blank {c : UInt8} (h : isBlank c = true) : blanks [c] = 1 := by
  simp [blanks, h]

theorem weight_push (s : Scan) (c : UInt8) : weight (s.push c) = weight s + blanks [c] := by
  simp only [weight, Scan.push, blanks_append]
  omega

theorem weight_flushToken (s : Scan) : weight s.flushToken ≤ weight s + 1 := by
  unfold Scan.flushToken
  split
  · simp [weight, blanks]
    omega
  · exact Nat.le_succ _

theorem weight_step (s : Scan) (c : UInt8) : weight (s.step c) ≤ weight s + blanks [c] := by
  have hpush := weight_push s c
  have hsame : weight s ≤ weight s + blanks [c] := Nat.le_add_right _ _
  unfold Scan.step
  split
  · split
    · exact hsame
    · exact hpush.le
  split
  · unfold Scan.stepParens
    split
    · exact hpush.le
    split
    · dsimp only
      split
      · exact hpush.le
      · exact hsame
    · exact hpush.le
  · unfold Scan.stepOutside
    split
    next hc =>
      rw [blanks_of_blank (by simpa [isBlank] using hc)]
      exact weight_flushToken s
    split
    · split
      · exact hsame
      · exact hpush.le
    split
    · dsimp only
      split
      · exact hsame
      · exact hpush.le
    · exact hpush.le

theorem weight_scan (s : Scan) (text : Bytes) : weight (scan s text) ≤ weight s + blanks text := by
  fun_induction scan s text with
  | case1 s => exact le_rfl
  | case2 s c => exact weight_step s c
  | case3 s c d text hescape ih =>
    have hpush : weight (s.push 0x22) = weight s := weight_push s 0x22
    have hblanks : blanks (c :: d :: text) = blanks text := by
      rw [hescape.2.1, hescape.2.2]
      rfl
    omega
  | case4 s c d text hescape ih =>
    have hstep := weight_step s c
    have hblanks := blanks_append [c] (d :: text)
    rw [List.singleton_append] at hblanks
    omega

/-- Every token but the first has a blank of its own in front of it. -/
theorem blanks_tokenize (text : Bytes) :
    ((tokenize text).map fun a => blanks a.value).sum + (tokenize text).length ≤ blanks text + 1 := by
  have hscan := weight_scan {} text
  have hflush := weight_flushToken (scan {} text)
  have hstart : weight {} = 0 := rfl
  have hweight : ((tokenize text).map fun a => blanks a.value).sum + (tokenize text).length ≤
      weight (scan {} text).flushToken := by
    unfold tokenize weight
    omega
  omega

end Counts

/-- The depth of parentheses behind a text, if none is closed that is not open. -/
def depthAfter : Nat → Bytes → Option Nat
  | depth, [] => some depth
  | depth, c :: rest =>
    if c = byte '(' then depthAfter (depth + 1) rest
    else if c = byte ')' then if depth = 0 then none else depthAfter (depth - 1) rest
    else depthAfter depth rest

def Balanced (text : Bytes) : Prop :=
  depthAfter 0 text = some 0

instance (text : Bytes) : Decidable (Balanced text) :=
  inferInstanceAs (Decidable (depthAfter 0 text = some 0))

def nextDepth (depth : Nat) (c : UInt8) : Nat :=
  if c = byte '(' then depth + 1 else if c = byte ')' then depth - 1 else depth

/-- The depth behind a text that is one token as it stands. A blank outside parentheses would end
it. -/
def literalDepth : Nat → Bytes → Option Nat
  | depth, [] => some depth
  | depth, c :: rest =>
    if depth = 0 ∧ isBlank c = true then none else literalDepth (nextDepth depth c) rest

section Pieces

variable {s : Scan} {args : List Argument} {c : UInt8} {content text token rest : Bytes}
  {depth depth' : Nat}

theorem scan_quoted (hquote : s.inQuote = true) (hc : c ≠ 0x22)
    (hescape : c = 0x5c → rest.head? ≠ some 0x22) : scan s (c :: rest) = scan (s.push c) rest := by
  have hstep : s.step c = s.push c := by simp [Scan.step, hquote, hc]
  cases rest with
  | nil => exact hstep
  | cons d rest =>
    have hpair : ¬(s.inQuote = true ∧ c = 0x5c ∧ d = 0x22) := by
      rintro ⟨-, hslash, hd⟩
      exact hescape hslash (by simp [hd])
    rw [scan, if_neg hpair, hstep]

/-- The content of a string gets into the token as it was before the quotes were escaped. -/
theorem scan_content (hquote : s.inQuote = true)
    (hlast : content.getLast? = some 0x5c → rest.head? ≠ some 0x22) :
    scan s (escapeQuotes content ++ rest) =
      scan { s with currentToken := s.currentToken ++ content } rest := by
  induction content generalizing s with
  | nil => simp [escapeQuotes]
  | cons c content ih =>
    have htail : content.getLast? = some 0x5c → rest.head? ≠ some 0x22 := by
      intro h
      apply hlast
      rw [List.getLast?_cons, h]
      rfl
    by_cases hc : c = 0x22
    · subst hc
      change scan s (0x5c :: 0x22 :: (escapeQuotes content ++ rest)) = _
      rw [scan, if_pos ⟨hquote, rfl, rfl⟩, ih (s := s.push 0x22) hquote htail]
      simp [Scan.push]
    · have htext : escapeQuotes (c :: content) = c :: escapeQuotes content := by
        simp [escapeQuotes, hc]
      have hescape : c = 0x5c → (escapeQuotes content ++ rest).head? ≠ some 0x22 := by
        intro hslash
        cases content with
        | nil => exact hlast (by simp [hslash])
        | cons d content =>
          by_cases hd : d = 0x22
          · simp [escapeQuotes, hd]
          · simp [escapeQuotes, hd]
      rw [htext, List.cons_append, scan_quoted hquote hc hescape, ih (s := s.push c) hquote htail]
      simp [Scan.push]

theorem scan_endQuote (hquote : s.inQuote = true) :
    scan s (0x22 :: rest) = scan { s with inQuote := false } rest := by
  have hstep : s.step 0x22 = { s with inQuote := false } := by simp [Scan.step, hquote]
  cases rest with
  | nil => exact hstep
  | cons d rest => simp [scan, hstep]

theorem stepParens_close (hdepth : 1 < s.parenDepth) :
    s.stepParens (byte ')') = { s.push (byte ')') with parenDepth := s.parenDepth - 1 } := by
  have hopen : byte ')' ≠ byte '(' := by decide
  have hkept : 0 < s.parenDepth - 1 ∨ s.strippingOuterParens = false := .inl (by omega)
  rw [Scan.stepParens, if_neg hopen, if_pos rfl]
  exact if_pos hkept

theorem scan_innerClose (hquote : s.inQuote = false) (hdepth : 1 < s.parenDepth) :
    scan s (byte ')' :: rest) =
      scan { s.push (byte ')') with parenDepth := s.parenDepth - 1 } rest := by
  rw [scan_cons hquote, step_parens hquote (by omega), stepParens_close hdepth]

/-- Inside parentheses all characters get into the token. -/
theorem scan_inner (depth : Nat) (hquote : s.inQuote = false) (hdepth : s.parenDepth = depth + 1)
    (h : depthAfter depth text = some depth') :
    scan s (text ++ rest) =
      scan { s with currentToken := s.currentToken ++ text, parenDepth := depth' + 1 } rest := by
  induction text generalizing s depth with
  | nil =>
    cases h
    simp [← hdepth]
  | cons c text ih =>
    rw [List.cons_append, scan_cons hquote, step_parens hquote (by omega)]
    rw [depthAfter] at h
    by_cases hopen : c = byte '('
    · rw [if_pos hopen] at h
      have hstep : s.stepParens c = { s.push c with parenDepth := s.parenDepth + 1 } := by
        rw [Scan.stepParens, if_pos hopen]
      rw [hstep]
      refine (ih (s := { s.push c with parenDepth := s.parenDepth + 1 }) (depth + 1)
        hquote (congrArg (· + 1) hdepth) h).trans ?_
      simp [Scan.push]
    rw [if_neg hopen] at h
    by_cases hclose : c = byte ')'
    · rw [if_pos hclose] at h
      obtain ⟨hzero, h⟩ := Option.ite_none_left_eq_some.mp h
      rw [hclose, stepParens_close (by omega)]
      refine (ih (s := { s.push (byte ')') with parenDepth := s.parenDepth - 1 })
        (depth - 1) hquote (by dsimp only; omega) h).trans ?_
      simp [Scan.push]
    · rw [if_neg hclose] at h
      have hstep : s.stepParens c = s.push c := by
        rw [Scan.stepParens, if_neg hopen, if_neg hclose]
      rw [hstep]
      refine (ih (s := s.push c) depth hquote hdepth h).trans ?_
      simp [Scan.push]

theorem scan_close (hquote : s.inQuote = false) (hdepth : s.parenDepth = 1) :
    scan s (byte ')' :: rest) =
      scan { s with
        parenDepth := 0
        currentToken := s.currentToken ++ if s.strippingOuterParens then [] else [byte ')'] }
        rest := by
  have hclose : byte ')' ≠ byte '(' := by decide
  rw [scan_cons hquote, step_parens hquote (by omega), Scan.stepParens, if_neg hclose, if_pos rfl]
  cases s.strippingOuterParens <;> simp [hdepth, Scan.push]

/-- Outside quotes and parentheses. -/
structure Outside (s : Scan) (args : List Argument) (token : Bytes) (type : ArgType) : Prop where
  args : s.args = args
  currentToken : s.currentToken = token
  currentType : s.currentType = type
  inQuote : s.inQuote = false
  parenDepth : s.parenDepth = 0

/-- Between two arguments. -/
structure Fresh (s : Scan) (args : List Argument) : Prop extends Outside s args [] .basic where
  tokenDirty : s.tokenDirty = false

/-- Behind the last character of an argument. -/
structure Ended (s : Scan) (args : List Argument) (a : Argument) : Prop
    extends Outside s args a.value a.type where
  tokenDirty : s.tokenDirty = true

theorem Ended.flush {a : Argument} (h : Ended s args a) : s.flushToken.args = args ++ [a] := by
  rw [flushToken_of_dirty h.tokenDirty, h.args, h.currentToken, h.currentType]

theorem stepOutside_blank (hc : isBlank c = true) : s.stepOutside c = s.flushToken := by
  have hblank : c = byte ' ' ∨ c = 0x09 := by simpa [isBlank] using hc
  rw [Scan.stepOutside, if_pos hblank]

theorem Ended.scan_blank {a : Argument} (h : Ended s args a) (hc : isBlank c = true) (rest : Bytes) :
    ∃ s', scan s (c :: rest) = scan s' rest ∧ Fresh s' (args ++ [a]) := by
  refine ⟨s.flushToken, ?_, ⟨h.flush, ?_, ?_, ?_, ?_⟩, ?_⟩
  · rw [scan_cons h.inQuote, step_outside h.inQuote h.parenDepth, stepOutside_blank hc]
  all_goals rw [flushToken_of_dirty h.tokenDirty]
  · exact h.inQuote
  · exact h.parenDepth

theorem Fresh.scan_blanks (h : Fresh s args) {space : Bytes} (hspace : ∀ b ∈ space, isBlank b = true)
    (rest : Bytes) :
    scan s (space ++ rest) = scan s rest := by
  induction space with
  | nil => rfl
  | cons b space ih =>
    have hstep : s.step b = s := by
      rw [step_outside h.inQuote h.parenDepth, stepOutside_blank (hspace b (by simp)),
        Scan.flushToken, h.tokenDirty]
      rfl
    rw [List.cons_append, scan_cons h.inQuote, hstep]
    exact ih fun b hb => hspace b (by simp [hb])

theorem Outside.scan_quote {type : ArgType} (h : Outside s args [] type) :
    scan s (0x22 :: rest) =
      scan { s with inQuote := true, tokenDirty := true, currentType := .quoted } rest := by
  have hblank : ¬((0x22 : UInt8) = byte ' ' ∨ (0x22 : UInt8) = 0x09) := by decide
  rw [scan_cons h.inQuote, step_outside h.inQuote h.parenDepth, Scan.stepOutside, if_neg hblank,
    if_pos rfl, if_pos h.currentToken]

/-- An opening parenthesis is kept unless it is the first character of its argument. -/
theorem Outside.scan_open {type : ArgType} (h : Outside s args token type) :
    scan s (byte '(' :: rest) =
      scan { s with
        currentToken := token ++ if token = [] then [] else [byte '(']
        parenDepth := 1
        tokenDirty := true
        currentType := .parenthesized
        strippingOuterParens := token = [] } rest := by
  have hblank : ¬(byte '(' = byte ' ' ∨ byte '(' = 0x09) := by decide
  have hquote : byte '(' ≠ 0x22 := by decide
  rw [scan_cons h.inQuote, step_outside h.inQuote h.parenDepth, Scan.stepOutside, if_neg hblank,
    if_neg hquote, if_pos rfl]
  by_cases htoken : token = []
  · simp [htoken, h.currentToken]
  · simp [htoken, h.currentToken, Scan.push]

/-- A string at the start of an argument; a backslash in front of its end would go with the quote. -/
theorem Outside.scan_string {type : ArgType} (h : Outside s args [] type)
    (hlast : content.getLast? ≠ some 0x5c) (rest : Bytes) :
    ∃ s', scan s (0x22 :: (escapeQuotes content ++ 0x22 :: rest)) = scan s' rest ∧
      Ended s' args ⟨content, .quoted⟩ := by
  have hscan : scan s (0x22 :: (escapeQuotes content ++ 0x22 :: rest)) =
      scan { s with
        currentToken := s.currentToken ++ content
        inQuote := false
        tokenDirty := true
        currentType := .quoted } rest := by
    rw [h.scan_quote, scan_content rfl fun h => absurd h hlast]
    exact scan_endQuote rfl
  refine ⟨_, hscan, ⟨h.args, ?_, rfl, rfl, h.parenDepth⟩, rfl⟩
  rw [h.currentToken, List.nil_append]

/-- A text in parentheses in which parentheses are balanced. -/
theorem Outside.scan_group {type : ArgType} (h : Outside s args token type) (htext : Balanced text)
    (rest : Bytes) :
    ∃ s', scan s (byte '(' :: (text ++ byte ')' :: rest)) = scan s' rest ∧
      Ended s' args ⟨if token = [] then text else token ++ byte '(' :: (text ++ [byte ')']),
        .parenthesized⟩ := by
  have hscan : scan s (byte '(' :: (text ++ byte ')' :: rest)) =
      scan { s with
        currentToken := token ++ (if token = [] then [] else [byte '(']) ++ text ++
          if decide (token = []) then [] else [byte ')']
        parenDepth := 0
        strippingOuterParens := token = []
        tokenDirty := true
        currentType := .parenthesized } rest := by
    rw [h.scan_open]
    refine (scan_inner 0 ?_ ?_ htext).trans (scan_close h.inQuote rfl)
    · exact h.inQuote
    · rfl
  refine ⟨_, hscan, ⟨h.args, ?_, rfl, h.inQuote, rfl⟩, rfl⟩
  by_cases htoken : token = [] <;> simp [htoken]

/-- A character outside quotes and parentheses that is neither a blank nor an opening parenthesis
gets into the argument. -/
theorem Outside.scan_char {type : ArgType} (h : Outside s args token type)
    (hquote : token = [] → c ≠ 0x22) (hblank : isBlank c = false) (hopen : c ≠ byte '(') (rest : Bytes) :
    ∃ s', scan s (c :: rest) = scan s' rest ∧ Ended s' args ⟨token ++ [c], type⟩ := by
  have hplain : ¬(c = byte ' ' ∨ c = 0x09) := by
    intro hc
    have : isBlank c = true := by simpa [isBlank] using hc
    rw [hblank] at this
    cases this
  have hscan : scan s (c :: rest) = scan { s.push c with tokenDirty := true } rest := by
    rw [scan_cons h.inQuote, step_outside h.inQuote h.parenDepth, Scan.stepOutside, if_neg hplain,
      if_neg hopen]
    by_cases hc : c = 0x22
    · have hstarted : s.currentToken ≠ [] := by
        rw [h.currentToken]
        exact fun h => hquote h hc
      rw [if_pos hc, if_neg hstarted]
    · rw [if_neg hc]
  refine ⟨_, hscan, ⟨h.args, ?_, h.currentType, h.inQuote, h.parenDepth⟩, rfl⟩
  exact congrArg (· ++ [c]) h.currentToken

theorem Ended.scan_chars {a : Argument} (h : Ended s args a) (hne : a.value ≠ [] ∨ text.head? ≠ some 0x22)
    (htext : ∀ b ∈ text, isBlank b = false ∧ b ≠ byte '(') (rest : Bytes) :
    ∃ s', scan s (text ++ rest) = scan s' rest ∧ Ended s' args ⟨a.value ++ text, a.type⟩ := by
  induction text generalizing s a with
  | nil => exact ⟨s, rfl, by simpa using h⟩
  | cons c text ih =>
    obtain ⟨hblank, hopen⟩ := htext c (by simp)
    have hfirst : a.value = [] → c ≠ 0x22 := by
      intro hvalue
      simpa [hvalue] using hne
    obtain ⟨s₁, hscan, h₁⟩ := h.scan_char hfirst hblank hopen (text ++ rest)
    obtain ⟨s₂, hscan', h₂⟩ := ih h₁ (.inl (by simp)) (fun b hb => htext b (by simp [hb]))
    refine ⟨s₂, hscan.trans hscan', ?_⟩
    simpa using h₂

/-- A text that is an argument without quotes or parentheses. -/
structure Plain (text : Bytes) : Prop where
  head : text.head? ≠ none ∧ text.head? ≠ some 0x22
  chars : ∀ b ∈ text, isBlank b = false ∧ b ≠ byte '('

theorem Fresh.scan_plain (h : Fresh s args) (htext : Plain text) (rest : Bytes) :
    ∃ s', scan s (text ++ rest) = scan s' rest ∧ Ended s' args ⟨text, .basic⟩ := by
  obtain ⟨⟨hne, hquote⟩, hchars⟩ := htext
  cases text with
  | nil => exact absurd rfl hne
  | cons c text =>
    obtain ⟨hblank, hopen⟩ := hchars c (by simp)
    have hfirst : ([] : Bytes) = [] → c ≠ 0x22 := fun _ => by simpa using hquote
    obtain ⟨s₁, hscan, h₁⟩ := h.scan_char hfirst hblank hopen (text ++ rest)
    have hothers : ∀ b ∈ text, isBlank b = false ∧ b ≠ byte '(' := fun b hb => hchars b (by simp [hb])
    obtain ⟨s₂, hscan', h₂⟩ := h₁.scan_chars (.inl (List.cons_ne_nil _ _)) hothers rest
    exact ⟨s₂, hscan.trans hscan', h₂⟩

/-- Inside a token that is read as it stands. -/
structure InToken (s : Scan) (args : List Argument) (token : Bytes) (depth : Nat) : Prop where
  args : s.args = args
  currentToken : s.currentToken = token
  inQuote : s.inQuote = false
  parenDepth : s.parenDepth = depth
  tokenDirty : s.tokenDirty = true
  keeps : 0 < depth → s.strippingOuterParens = false

theorem InToken.scan_char (h : InToken s args token depth) (hne : token ≠ [])
    (hliteral : ¬(depth = 0 ∧ isBlank c = true)) (rest : Bytes) :
    ∃ s', scan s (c :: rest) = scan s' rest ∧
      InToken s' args (token ++ [c]) (nextDepth depth c) := by
  rw [scan_cons h.inQuote]
  refine ⟨s.step c, rfl, ?_⟩
  unfold nextDepth
  rcases Nat.eq_zero_or_pos depth with rfl | hpositive
  · have hplain : ¬(c = byte ' ' ∨ c = 0x09) := by
      intro hc
      exact hliteral ⟨rfl, by simpa [isBlank] using hc⟩
    have hstarted : s.currentToken ≠ [] := by rwa [h.currentToken]
    rw [step_outside h.inQuote h.parenDepth, Scan.stepOutside, if_neg hplain]
    by_cases hquote : c = 0x22
    · subst hquote
      rw [if_pos rfl, if_neg hstarted]
      exact ⟨h.args, congrArg (· ++ _) h.currentToken, h.inQuote, h.parenDepth, rfl, fun h => absurd h (by decide)⟩
    rw [if_neg hquote]
    by_cases hopen : c = byte '('
    · rw [if_pos hopen, if_pos hopen]
      dsimp only
      rw [if_neg hstarted]
      exact ⟨h.args, congrArg (· ++ _) h.currentToken, h.inQuote, rfl, rfl, fun _ => rfl⟩
    · rw [if_neg hopen, if_neg hopen]
      refine ⟨h.args, congrArg (· ++ _) h.currentToken, h.inQuote, ?_, rfl, ?_⟩
      · split <;> exact h.parenDepth
      · intro hdepth
        split at hdepth <;> exact absurd hdepth (by decide)
  · have hkeeps := h.keeps hpositive
    rw [step_parens h.inQuote (by rw [h.parenDepth]; exact hpositive), Scan.stepParens]
    by_cases hopen : c = byte '('
    · rw [if_pos hopen, if_pos hopen]
      exact ⟨h.args, congrArg (· ++ _) h.currentToken, h.inQuote, congrArg (· + 1) h.parenDepth,
        h.tokenDirty, fun _ => hkeeps⟩
    rw [if_neg hopen, if_neg hopen]
    by_cases hclose : c = byte ')'
    · rw [if_pos hclose, if_pos hclose]
      dsimp only
      rw [if_pos (.inr hkeeps)]
      exact ⟨h.args, congrArg (· ++ _) h.currentToken, h.inQuote, congrArg (· - 1) h.parenDepth,
        h.tokenDirty, fun _ => hkeeps⟩
    · rw [if_neg hclose, if_neg hclose]
      exact ⟨h.args, congrArg (· ++ _) h.currentToken, h.inQuote, h.parenDepth, h.tokenDirty,
        fun _ => hkeeps⟩

theorem InToken.scan_literal (h : InToken s args token depth) (hne : token ≠ [])
    (htext : literalDepth depth text = some depth') (rest : Bytes) :
    ∃ s', scan s (text ++ rest) = scan s' rest ∧ InToken s' args (token ++ text) depth' := by
  induction text generalizing s token depth with
  | nil =>
    cases htext
    exact ⟨s, rfl, by simpa using h⟩
  | cons c text ih =>
    rw [literalDepth] at htext
    obtain ⟨hliteral, htext⟩ := Option.ite_none_left_eq_some.mp htext
    obtain ⟨s₁, hscan, h₁⟩ := h.scan_char hne hliteral (text ++ rest)
    obtain ⟨s₂, hscan', h₂⟩ := ih h₁ (by simp) htext
    refine ⟨s₂, hscan.trans hscan', ?_⟩
    simpa using h₂

/-- What is not read as it stands has a blank outside parentheses. -/
theorem exists_blank_of_literalDepth (h : literalDepth depth text = none) :
    ∃ front b behind, text = front ++ b :: behind ∧ isBlank b = true ∧
      literalDepth depth front = some 0 := by
  induction text generalizing depth with
  | nil => cases h
  | cons c text ih =>
    by_cases hblank : depth = 0 ∧ isBlank c = true
    · exact ⟨[], c, text, rfl, hblank.2, by rw [hblank.1]; rfl⟩
    · rw [literalDepth, if_neg hblank] at h
      obtain ⟨front, b, behind, rfl, hb, hfront⟩ := ih h
      refine ⟨c :: front, b, behind, rfl, hb, ?_⟩
      rwa [literalDepth, if_neg hblank]

end Pieces

end XbdmGdbBridge.Proofs.ArgLines
