import XbdmGdbBridge.Proofs.ArgScans

/-!
# Command lines put together again

`Flatten` writes arguments so that they are read back as they were, apart from those it cannot
express; the command is written without what was around it.
-/

namespace XbdmGdbBridge.Proofs.ArgLines

open CText Rdcp ArgParser

section Arguments

variable {s : Scan} {args : List Argument} {a : Argument} {rest : Bytes}

/-- What `Flatten` can write so that it is read back. -/
def Restored (a : Argument) : Prop :=
  match a.type with
  | .basic => Plain a.value
  | .quoted => a.value.getLast? ≠ some 0x5c
  | .parenthesized => ∃ inner n, Balanced inner ∧ a.value = inner ++ List.replicate n (byte ')')

theorem Fresh.scan_argument (h : Fresh s args) (ha : Restored a) (rest : Bytes) :
    ∃ s', scan s (argumentText a ++ rest) = scan s' rest ∧ Ended s' args a := by
  obtain ⟨value, type⟩ := a
  cases type with
  | basic => exact h.scan_plain ha rest
  | quoted =>
    obtain ⟨s', hscan, hended⟩ := h.scan_string ha rest
    refine ⟨s', ?_, hended⟩
    rw [← hscan]
    simp [argumentText]
  | parenthesized =>
    obtain ⟨inner, n, hinner, hvalue⟩ := ha
    -- The first parenthesis behind the balanced part ends the argument; the others are characters.
    obtain ⟨s₁, hscan, h₁⟩ := h.scan_group hinner (List.replicate n (byte ')') ++ rest)
    have hclosing : ∀ b ∈ List.replicate n (byte ')'), isBlank b = false ∧ b ≠ byte '(' := by
      intro b hb
      obtain rfl := List.eq_of_mem_replicate hb
      decide
    obtain ⟨s₂, hscan', h₂⟩ :=
      h₁.scan_chars (.inr (by cases n <;> simp [byte, List.replicate_succ])) hclosing rest
    refine ⟨s₂, ?_, ?_⟩
    · rw [← hscan', ← hscan]
      change scan s (byte '(' :: (value ++ [byte ')']) ++ rest) = _
      rw [show value = inner ++ List.replicate n (byte ')') from hvalue]
      simp [← List.replicate_succ', List.replicate_succ]
    · obtain rfl : value = inner ++ List.replicate n (byte ')') := hvalue
      simpa using h₂

/-- A backslash at the end of a quoted argument takes the quote behind it along. -/
theorem Fresh.not_quoted {front : Bytes} (h : Fresh s args) (more : List Argument) :
    (scan s (argumentText ⟨front ++ [0x5c], .quoted⟩ ++ rest)).flushToken.args ≠
      args ++ ⟨front ++ [0x5c], .quoted⟩ :: more := by
  intro heq
  have hscan : scan s (argumentText ⟨front ++ [0x5c], .quoted⟩ ++ rest) =
      scan { s with
        currentToken := front ++ [0x22]
        inQuote := true
        tokenDirty := true
        currentType := .quoted } rest := by
    have htext : argumentText ⟨front ++ [0x5c], .quoted⟩ ++ rest =
        0x22 :: (escapeQuotes front ++ 0x5c :: 0x22 :: rest) := by
      simp [argumentText, escapeQuotes]
    rw [htext, h.scan_quote, scan_content rfl (by simp), scan, if_pos ⟨rfl, rfl, rfl⟩, h.currentToken]
    rfl
  rw [hscan] at heq
  obtain ⟨x, others, hx, hprefix⟩ := scan_started (s := { s with
    currentToken := front ++ [0x22]
    inQuote := true
    tokenDirty := true
    currentType := .quoted }) rfl rest
  rw [hx, h.args, List.append_cancel_left_eq] at heq
  obtain rfl := (List.cons.inj heq).1
  have hlast := (List.prefix_append_right_inj front).mp hprefix
  simp at hlast

theorem exists_close_of_depthAfter {depth : Nat} {text : Bytes} (h : depthAfter depth text = none) :
    ∃ front behind, text = front ++ byte ')' :: behind ∧ depthAfter depth front = some 0 := by
  induction text generalizing depth with
  | nil => cases h
  | cons c text ih =>
    by_cases hopen : c = byte '('
    · rw [depthAfter, if_pos hopen] at h
      obtain ⟨front, behind, rfl, hfront⟩ := ih h
      exact ⟨c :: front, behind, rfl, by rwa [depthAfter, if_pos hopen]⟩
    by_cases hclose : c = byte ')'
    · rw [depthAfter, if_neg hopen, if_pos hclose] at h
      by_cases hdepth : depth = 0
      · exact ⟨[], text, by rw [hclose]; rfl, by rw [hdepth]; rfl⟩
      · rw [if_neg hdepth] at h
        obtain ⟨front, behind, rfl, hfront⟩ := ih h
        exact ⟨c :: front, behind, rfl, by rwa [depthAfter, if_neg hopen, if_pos hclose, if_neg hdepth]⟩
    · rw [depthAfter, if_neg hopen, if_neg hclose] at h
      obtain ⟨front, behind, rfl, hfront⟩ := ih h
      exact ⟨c :: front, behind, rfl, by rwa [depthAfter, if_neg hopen, if_neg hclose]⟩

theorem argumentText_parenthesized (value : Bytes) :
    argumentText ⟨value, .parenthesized⟩ ++ rest = byte '(' :: (value ++ byte ')' :: rest) := by
  change byte '(' :: (value ++ [byte ')']) ++ rest = _
  simp

/-- A parenthesis that stays open takes the closing one along. -/
theorem Fresh.not_open {value : Bytes} {depth : Nat} (h : Fresh s args)
    (hdepth : depthAfter 0 value = some (depth + 1)) (more : List Argument) :
    (scan s (argumentText ⟨value, .parenthesized⟩ ++ rest)).flushToken.args ≠
      args ++ ⟨value, .parenthesized⟩ :: more := by
  intro heq
  have hscan : scan s (argumentText ⟨value, .parenthesized⟩ ++ rest) =
      scan { s with
        currentToken := value ++ [byte ')']
        parenDepth := depth + 1
        tokenDirty := true
        currentType := .parenthesized
        strippingOuterParens := true } rest := by
    rw [argumentText_parenthesized, h.scan_open]
    refine (scan_inner 0 ?_ ?_ hdepth).trans ?_
    · exact h.inQuote
    · rfl
    · exact scan_innerClose h.inQuote (Nat.succ_lt_succ (Nat.succ_pos _))
  obtain ⟨x, others, hx, hprefix⟩ := scan_started (s := { s with
    currentToken := value ++ [byte ')']
    parenDepth := depth + 1
    tokenDirty := true
    currentType := .parenthesized
    strippingOuterParens := true }) rfl rest
  rw [hscan, hx, h.args, List.append_cancel_left_eq] at heq
  obtain rfl := (List.cons.inj heq).1
  have hlength := hprefix.length_le
  simp at hlength

theorem eq_replicate_of_cons_eq {c : UInt8} {text : Bytes} (h : c :: text = text ++ [c]) :
    text = List.replicate text.length c := by
  induction text with
  | nil => rfl
  | cons d text ih =>
    obtain ⟨rfl, h⟩ := List.cons.inj h
    rw [List.length_cons, List.replicate_succ, ← ih h]

/-- Behind a parenthesis that is closed too early only closing ones do no harm: the last one takes
the place of the first. -/
theorem Fresh.closed_early {front behind : Bytes} (h : Fresh s args)
    (hrest : ∀ b ∈ rest.head?, isBlank b = true) (hfront : Balanced front) {more : List Argument}
    (heq : (scan s (argumentText ⟨front ++ byte ')' :: behind, .parenthesized⟩ ++ rest)).flushToken.args =
      args ++ ⟨front ++ byte ')' :: behind, .parenthesized⟩ :: more) :
    byte ')' :: behind = behind ++ [byte ')'] := by
  have htext : argumentText ⟨front ++ byte ')' :: behind, .parenthesized⟩ ++ rest =
      byte '(' :: (front ++ byte ')' :: ((behind ++ [byte ')']) ++ rest)) := by
    rw [argumentText_parenthesized]
    simp
  obtain ⟨s', hscan, h'⟩ := h.scan_group hfront ((behind ++ [byte ')']) ++ rest)
  obtain ⟨x, others, added, hx, hvalue, hlead, hsublist⟩ :=
    scan_lead (behind ++ [byte ')']) h'.tokenDirty hrest
  rw [htext, hscan, hx, h'.args, List.append_cancel_left_eq] at heq
  obtain rfl := (List.cons.inj heq).1
  have hadded : byte ')' :: behind = added := by
    rw [h'.currentToken] at hvalue
    exact List.append_cancel_left hvalue
  subst hadded
  have hclose : isBlank (byte ')') = false := by decide
  rw [lead_cons hclose] at hlead
  -- A blank behind the first parenthesis would be one character further away than it is.
  have hblankFree : (behind.takeWhile fun b => !isBlank b).length = behind.length := by
    by_contra hne
    have hsame : lead (behind ++ [byte ')']) = lead behind := by
      unfold lead
      rw [List.takeWhile_append, if_neg hne]
    omega
  have hall : ∀ b ∈ behind, isBlank b = false := by
    intro b hb
    rw [← (List.takeWhile_prefix _).eq_of_length hblankFree] at hb
    simpa using List.mem_takeWhile_imp hb
  apply (hsublist _).eq_of_length
  · simp
  · intro b hb
    rcases List.mem_cons.mp hb with rfl | hb
    · exact hclose
    · exact hall b hb

theorem Fresh.restored (h : Fresh s args) (hrest : ∀ b ∈ rest.head?, isBlank b = true)
    (hbasic : a.type = .basic → Plain a.value) {more : List Argument}
    (heq : (scan s (argumentText a ++ rest)).flushToken.args = args ++ a :: more) : Restored a := by
  obtain ⟨value, type⟩ := a
  cases type with
  | basic => exact hbasic rfl
  | quoted =>
    intro hlast
    obtain ⟨front, rfl⟩ := List.getLast?_eq_some_iff.mp hlast
    exact h.not_quoted more heq
  | parenthesized =>
    change ∃ inner n, Balanced inner ∧ value = inner ++ List.replicate n (byte ')')
    cases hdepth : depthAfter 0 value with
    | none =>
      obtain ⟨front, behind, rfl, hfront⟩ := exists_close_of_depthAfter hdepth
      have hsame := h.closed_early hrest hfront heq
      refine ⟨front, behind.length + 1, hfront, ?_⟩
      rw [List.replicate_succ, ← eq_replicate_of_cons_eq hsame]
    | some depth =>
      cases depth with
      | zero => exact ⟨value, 0, hdepth, by simp⟩
      | succ depth => exact absurd heq (h.not_open hdepth more)

end Arguments

section Lines

variable {s : Scan} {args : List Argument} {a : Argument}

/-- The arguments as `Flatten` writes them behind something. -/
def argumentsText (args : List Argument) : Bytes :=
  args.flatMap fun a => byte ' ' :: argumentText a

theorem argumentsText_head (args : List Argument) :
    ∀ b ∈ (argumentsText args).head?, isBlank b = true := by
  cases args with
  | nil => simp [argumentsText]
  | cons a args =>
    intro b hb
    obtain rfl : byte ' ' = b := by simpa [argumentsText] using hb
    decide

theorem foldl_flattenStep {out : Bytes} (hout : out ≠ []) (args : List Argument) :
    args.foldl flattenStep out = out ++ argumentsText args := by
  induction args generalizing out with
  | nil => simp [argumentsText]
  | cons a args ih =>
    have hstep : flattenStep out a = out ++ byte ' ' :: argumentText a := by
      rw [flattenStep, if_neg hout, List.append_assoc]
      rfl
    rw [List.foldl_cons, hstep, ih (by simp)]
    simp [argumentsText]

theorem scan_arguments (h : Ended s args a) {others : List Argument}
    (hothers : ∀ b ∈ others, Restored b) :
    (scan s (argumentsText others)).flushToken.args = args ++ a :: others := by
  induction others generalizing s args a with
  | nil => exact h.flush
  | cons b others ih =>
    obtain ⟨s₁, hblank, h₁⟩ := h.scan_blank (c := byte ' ') (by decide)
      (argumentText b ++ argumentsText others)
    obtain ⟨s₂, hscan, h₂⟩ := h₁.scan_argument (hothers b (by simp)) (argumentsText others)
    have htext : argumentsText (b :: others) = byte ' ' :: (argumentText b ++ argumentsText others) := by
      simp [argumentsText]
    rw [htext, hblank, hscan, ih h₂ fun b hb => hothers b (by simp [hb])]
    simp

theorem restored_of_scan_arguments (h : Ended s args a) {x : Argument} {others : List Argument}
    (hbasic : ∀ b ∈ others, b.type = .basic → Plain b.value)
    (heq : (scan s (argumentsText others)).flushToken.args = args ++ x :: others) :
    ∀ b ∈ others, Restored b := by
  induction others generalizing s args a x with
  | nil => simp
  | cons b others ih =>
    obtain ⟨s₁, hblank, h₁⟩ := h.scan_blank (c := byte ' ') (by decide)
      (argumentText b ++ argumentsText others)
    have htext : argumentsText (b :: others) = byte ' ' :: (argumentText b ++ argumentsText others) := by
      simp [argumentsText]
    rw [htext, hblank] at heq
    obtain rfl : a = x := by
      obtain ⟨more, hmore⟩ := args_scan s₁ (argumentText b ++ argumentsText others)
      rw [heq, h₁.args, List.append_assoc, List.append_cancel_left_eq] at hmore
      exact (List.cons.inj hmore).1
    rw [← List.singleton_append, ← List.append_assoc] at heq
    have hb : Restored b := h₁.restored (argumentsText_head others) (hbasic b (by simp)) heq
    obtain ⟨s₂, hscan, h₂⟩ := h₁.scan_argument hb (argumentsText others)
    rw [hscan] at heq
    intro c hc
    rcases List.mem_cons.mp hc with rfl | hc
    · exact hb
    · exact ih h₂ (fun b hb => hbasic b (by simp [hb])) heq c hc

/-- What can stand in front of the arguments so that it is read back as the command. -/
def CommandRestored (command : Bytes) (args : List Argument) : Prop :=
  if command = [] then args = []
  else command.head? ≠ some 0x22 ∧ command.head? ≠ some (byte '(') ∧
    ∃ depth, literalDepth 0 command = some depth ∧ (args ≠ [] → depth = 0)

theorem InToken.ended {token : Bytes} (h : InToken s args token 0) :
    Ended s args ⟨token, s.currentType⟩ :=
  ⟨⟨h.args, h.currentToken, rfl, h.inQuote, h.parenDepth⟩, h.tokenDirty⟩

theorem InToken.flush {token : Bytes} {depth : Nat} (h : InToken s args token depth) :
    s.flushToken.args = args ++ [⟨token, s.currentType⟩] := by
  rw [flushToken_of_dirty h.tokenDirty, h.args, h.currentToken]

theorem fresh_start : Fresh {} [] :=
  ⟨⟨rfl, rfl, rfl, rfl, rfl⟩, rfl⟩

/-- A command that starts without quotes and parentheses is read as it stands. -/
theorem Fresh.scan_command (h : Fresh s args) {command : Bytes} {depth : Nat} (hne : command ≠ [])
    (hquote : command.head? ≠ some 0x22) (hopen : command.head? ≠ some (byte '('))
    (hliteral : literalDepth 0 command = some depth) (rest : Bytes) :
    ∃ s', scan s (command ++ rest) = scan s' rest ∧ InToken s' args command depth := by
  cases command with
  | nil => exact absurd rfl hne
  | cons c command =>
    have hc : c ≠ byte '(' := by simpa using hopen
    rw [literalDepth] at hliteral
    obtain ⟨hblank, hliteral⟩ := Option.ite_none_left_eq_some.mp hliteral
    have hdepth : nextDepth 0 c = 0 := by
      rw [nextDepth, if_neg hc]
      split <;> rfl
    rw [hdepth] at hliteral
    obtain ⟨s₁, hscan, h₁⟩ := h.scan_char (c := c)
      (fun _ => by simpa using hquote) (by simpa using hblank) hc (command ++ rest)
    have hstarted : InToken s₁ args [c] 0 :=
      ⟨h₁.args, h₁.currentToken, h₁.inQuote, h₁.parenDepth, h₁.tokenDirty, fun h => absurd h (by decide)⟩
    obtain ⟨s₂, hscan', h₂⟩ := hstarted.scan_literal (by simp) hliteral rest
    exact ⟨s₂, hscan.trans hscan', h₂⟩

theorem ofLine_of_tokenize {text : Bytes} (h : tokenize text = a :: args) :
    ofLine text = ⟨toLowerCopy a.value, args⟩ := by
  rw [ofLine, h]
  rfl

theorem ofLine_flatten {command : Bytes} (hlower : toLowerCopy command = command)
    (hcommand : CommandRestored command args) (hargs : ∀ a ∈ args, Restored a) :
    ofLine (flatten ⟨command, args⟩) = ⟨command, args⟩ := by
  rw [CommandRestored] at hcommand
  split at hcommand
  next hempty =>
    subst hempty hcommand
    rfl
  next hne =>
    obtain ⟨hquote, hopen, depth, hliteral, hdepth⟩ := hcommand
    obtain ⟨s, hscan, h⟩ := fresh_start.scan_command hne hquote hopen hliteral (argumentsText args)
    have htokens : tokenize (command ++ argumentsText args) = ⟨command, s.currentType⟩ :: args := by
      rw [tokenize, hscan]
      cases args with
      | nil => exact h.flush
      | cons a args =>
        obtain rfl := hdepth (by simp)
        exact scan_arguments h.ended hargs
    rw [flatten, foldl_flattenStep hne, ofLine_of_tokenize htokens, hlower]

section Lower

theorem toLower_eq_iff {b c : UInt8} (hc : c < 0x41) : Tokenizer.toLower b = c ↔ b = c := by
  unfold Tokenizer.toLower
  split
  next hupper =>
    have hc' := UInt8.lt_iff_toNat_lt.mp hc
    have hlow := UInt8.le_iff_toNat_le.mp hupper.1
    have hhigh := UInt8.le_iff_toNat_le.mp hupper.2
    simp only [← UInt8.toNat_inj, UInt8.toNat_add]
    simp only [UInt8.reduceToNat] at hc' hlow hhigh ⊢
    omega
  next => rfl

theorem isBlank_toLower (b : UInt8) : isBlank (Tokenizer.toLower b) = isBlank b := by
  have hspace := toLower_eq_iff (b := b) (c := byte ' ') (by decide)
  have htab := toLower_eq_iff (b := b) (c := 0x09) (by decide)
  rw [Bool.eq_iff_iff]
  simp [isBlank, hspace, htab]

theorem blanks_toLowerCopy (text : Bytes) : blanks (toLowerCopy text) = blanks text := by
  simp [blanks, toLowerCopy, List.countP_map, Function.comp_def, isBlank_toLower]

theorem lead_toLowerCopy (text : Bytes) : lead (toLowerCopy text) = lead text := by
  simp [lead, toLowerCopy, List.takeWhile_map, Function.comp_def, isBlank_toLower]

end Lower

theorem blanks_escapeQuotes (value : Bytes) : blanks (escapeQuotes value) = blanks value := by
  induction value with
  | nil => rfl
  | cons c value ih =>
    have hfirst : blanks (if c = 0x22 then [0x5c, 0x22] else [c]) = blanks [c] := by
      split
      next hc => rw [hc]; rfl
      next => rfl
    calc blanks (escapeQuotes (c :: value))
      _ = blanks (if c = 0x22 then [0x5c, 0x22] else [c]) + blanks (escapeQuotes value) := blanks_append _ _
      _ = blanks [c] + blanks value := by rw [hfirst, ih]
      _ = blanks (c :: value) := (blanks_append [c] value).symm

theorem blanks_argumentText (a : Argument) : blanks (argumentText a) = blanks a.value := by
  obtain ⟨value, type⟩ := a
  cases type with
  | basic => rfl
  | quoted =>
    have hquote : blanks [0x22] = 0 := rfl
    rw [argumentText, blanks_append, blanks_append, blanks_escapeQuotes, hquote, Nat.zero_add,
      Nat.add_zero]
  | parenthesized =>
    have hopen : blanks (ascii "(") = 0 := rfl
    have hclose : blanks (ascii ")") = 0 := rfl
    rw [argumentText, blanks_append, blanks_append, hopen, hclose, Nat.zero_add, Nat.add_zero]

theorem blanks_argumentsText (args : List Argument) :
    blanks (argumentsText args) = (args.map fun a => blanks a.value).sum + args.length := by
  induction args with
  | nil => rfl
  | cons a args ih =>
    have hspace : blanks [byte ' '] = 1 := rfl
    have htext : argumentsText (a :: args) = [byte ' '] ++ argumentText a ++ argumentsText args := by
      simp [argumentsText]
    rw [htext, blanks_append, blanks_append, ih, hspace, blanks_argumentText, List.map_cons,
      List.sum_cons, List.length_cons]
    omega

section Needed

variable {command : Bytes} {x : Argument}

theorem tokenize_ne_of_empty (hbasic : ∀ a ∈ args, a.type = .basic → Plain a.value)
    (hvalue : blanks x.value = 0) (hargs : args ≠ []) : tokenize (flatten ⟨[], args⟩) ≠ x :: args := by
  intro htokens
  cases args with
  | nil => exact hargs rfl
  | cons a args =>
    have hne : argumentText a ≠ [] := by
      obtain ⟨value, type⟩ := a
      cases type with
      | basic =>
        rintro rfl
        exact (hbasic ⟨[], .basic⟩ (by simp) rfl).head.1 rfl
      | quoted => simp [argumentText]
      | parenthesized => simp [argumentText, ascii]
    have htext : flatten ⟨[], a :: args⟩ = argumentText a ++ argumentsText args := by
      rw [← foldl_flattenStep hne]
      rfl
    have hcount := blanks_tokenize (flatten ⟨[], a :: args⟩)
    rw [htokens, htext, blanks_append, blanks_argumentText, blanks_argumentsText] at hcount
    simp only [List.map_cons, List.sum_cons, List.length_cons] at hcount
    omega

theorem tokenize_ne_of_blank {c : UInt8} (hc : isBlank c = true)
    (hvalue : blanks x.value = blanks (c :: command)) :
    tokenize (c :: command ++ argumentsText args) ≠ x :: args := by
  intro htokens
  have hskip : tokenize (c :: command ++ argumentsText args) = tokenize (command ++ argumentsText args) := by
    have hspace : ∀ b ∈ [c], isBlank b = true := by simpa using hc
    have hscan := fresh_start.scan_blanks hspace (command ++ argumentsText args)
    exact congrArg (fun s => s.flushToken.args) hscan
  have hcount := blanks_tokenize (command ++ argumentsText args)
  rw [← hskip, htokens, blanks_append, blanks_argumentsText] at hcount
  rw [← List.singleton_append, blanks_append, blanks_of_blank hc] at hvalue
  simp only [List.map_cons, List.sum_cons, List.length_cons] at hcount
  omega

theorem tokenize_ne_of_stripped {c : UInt8} (hc : c = 0x22 ∨ c = byte '(')
    (hvalue : lead x.value = lead (c :: command)) :
    tokenize (c :: command ++ argumentsText args) ≠ x :: args := by
  intro htokens
  have hdirty : ∃ s : Scan, scan {} (c :: command ++ argumentsText args) =
      scan s (command ++ argumentsText args) ∧ s.args = [] ∧ s.currentToken = [] ∧ s.tokenDirty = true := by
    rcases hc with rfl | rfl
    · exact ⟨_, fresh_start.scan_quote, rfl, rfl, rfl⟩
    · exact ⟨_, fresh_start.scan_open, rfl, rfl, rfl⟩
  obtain ⟨s, hscan, hargs, htoken, hdirty⟩ := hdirty
  obtain ⟨y, more, added, hy, hadded, hlead, -⟩ :=
    scan_lead command hdirty (argumentsText_head args)
  rw [tokenize, hscan, hy, hargs] at htokens
  obtain rfl := (List.cons.inj htokens).1
  have hblank : isBlank c = false := by rcases hc with rfl | rfl <;> decide
  rw [htoken, List.nil_append] at hadded
  rw [hadded, lead_cons hblank] at hvalue
  omega

theorem tokenize_ne_of_blank_inside (hquote : command.head? ≠ some 0x22)
    (hopen : command.head? ≠ some (byte '(')) (hblank : ∀ b ∈ command.head?, isBlank b = false)
    (hliteral : literalDepth 0 command = none) (hvalue : x.value.length = command.length) :
    tokenize (command ++ argumentsText args) ≠ x :: args := by
  intro htokens
  obtain ⟨front, b, behind, rfl, hb, hfront⟩ := exists_blank_of_literalDepth hliteral
  cases front with
  | nil =>
    have := hblank b rfl
    rw [hb] at this
    cases this
  | cons c front =>
    obtain ⟨s, hscan, h⟩ := fresh_start.scan_command (List.cons_ne_nil c front) hquote hopen hfront
      (b :: (behind ++ argumentsText args))
    obtain ⟨s', hscan', h'⟩ := h.ended.scan_blank hb (behind ++ argumentsText args)
    obtain ⟨more, hmore⟩ := args_scan s' (behind ++ argumentsText args)
    rw [tokenize, List.append_assoc, List.cons_append (a := b), hscan, hscan', ← hmore, h'.args] at htokens
    obtain rfl := (List.cons.inj htokens).1
    simp at hvalue

theorem tokenize_ne_of_open {depth : Nat} (hne : command ≠ []) (hquote : command.head? ≠ some 0x22)
    (hopen : command.head? ≠ some (byte '(')) (hliteral : literalDepth 0 command = some (depth + 1))
    (hvalue : x.value.length = command.length) (hargs : args ≠ []) :
    tokenize (command ++ argumentsText args) ≠ x :: args := by
  intro htokens
  cases args with
  | nil => exact hargs rfl
  | cons a args =>
    obtain ⟨s, hscan, h⟩ := fresh_start.scan_command hne hquote hopen hliteral (argumentsText (a :: args))
    obtain ⟨s', hscan', h'⟩ := h.scan_char (c := byte ' ') hne (by simp)
      (argumentText a ++ argumentsText args)
    obtain ⟨y, more, hy, hprefix⟩ := scan_started h'.tokenDirty (argumentText a ++ argumentsText args)
    have htext : argumentsText (a :: args) = byte ' ' :: (argumentText a ++ argumentsText args) := by
      simp [argumentsText]
    rw [tokenize, hscan, htext, hscan', hy, h'.args] at htokens
    obtain rfl := (List.cons.inj htokens).1
    rw [h'.currentToken] at hprefix
    have hlength := hprefix.length_le
    rw [hvalue, List.length_append, List.length_singleton] at hlength
    omega

theorem commandRestored_of_tokenize (hbasic : ∀ a ∈ args, a.type = .basic → Plain a.value)
    (hlower : toLowerCopy x.value = command)
    (htokens : tokenize (flatten ⟨command, args⟩) = x :: args) : CommandRestored command args := by
  have hblanks : blanks x.value = blanks command := by rw [← hlower, blanks_toLowerCopy]
  have hlead : lead x.value = lead command := by rw [← hlower, lead_toLowerCopy]
  have hlength : x.value.length = command.length := by rw [← hlower, toLowerCopy, List.length_map]
  rw [CommandRestored]
  split
  next hempty =>
    subst hempty
    by_contra hargs
    exact tokenize_ne_of_empty hbasic hblanks hargs htokens
  next hne =>
    rw [flatten, foldl_flattenStep hne] at htokens
    cases command with
    | nil => exact absurd rfl hne
    | cons c command =>
      have hquote : (c :: command).head? ≠ some 0x22 := by
        intro hc
        exact tokenize_ne_of_stripped (.inl (by simpa using hc)) hlead htokens
      have hopen : (c :: command).head? ≠ some (byte '(') := by
        intro hc
        exact tokenize_ne_of_stripped (.inr (by simpa using hc)) hlead htokens
      have hblank : ∀ b ∈ (c :: command).head?, isBlank b = false := by
        intro b hb
        obtain rfl : c = b := by simpa using hb
        by_contra hblank
        exact tokenize_ne_of_blank (by simpa using hblank) hblanks htokens
      refine ⟨hquote, hopen, ?_⟩
      cases hliteral : literalDepth 0 (c :: command) with
      | none => exact absurd htokens (tokenize_ne_of_blank_inside hquote hopen hblank hliteral hlength)
      | some depth =>
        refine ⟨depth, rfl, fun hargs => ?_⟩
        cases depth with
        | zero => rfl
        | succ depth => exact absurd htokens (tokenize_ne_of_open hne hquote hopen hliteral hlength hargs)

theorem restored_of_tokenize (hbasic : ∀ a ∈ args, a.type = .basic → Plain a.value)
    (hcommand : CommandRestored command args)
    (htokens : tokenize (flatten ⟨command, args⟩) = x :: args) : ∀ a ∈ args, Restored a := by
  rw [CommandRestored] at hcommand
  split at hcommand
  next => simp [hcommand]
  next hne =>
    obtain ⟨hquote, hopen, depth, hliteral, hdepth⟩ := hcommand
    by_cases hargs : args = []
    · simp [hargs]
    obtain rfl := hdepth hargs
    obtain ⟨s, hscan, h⟩ := fresh_start.scan_command hne hquote hopen hliteral (argumentsText args)
    rw [flatten, foldl_flattenStep hne, tokenize, hscan] at htokens
    exact restored_of_scan_arguments h.ended hbasic htokens

theorem ofLine_flatten_iff (hbasic : ∀ a ∈ args, a.type = .basic → Plain a.value)
    (hlower : toLowerCopy command = command) :
    ofLine (flatten ⟨command, args⟩) = ⟨command, args⟩ ↔
      CommandRestored command args ∧ ∀ a ∈ args, Restored a := by
  constructor
  · intro heq
    cases htokens : tokenize (flatten ⟨command, args⟩) with
    | nil =>
      rw [ofLine, htokens] at heq
      obtain ⟨rfl, rfl⟩ := ArgParser.mk.inj heq
      exact ⟨rfl, by simp⟩
    | cons x others =>
      rw [ofLine_of_tokenize htokens] at heq
      obtain ⟨hvalue, rfl⟩ := ArgParser.mk.inj heq
      have hcommand := commandRestored_of_tokenize hbasic hvalue htokens
      exact ⟨hcommand, restored_of_tokenize hbasic hcommand htokens⟩
  · rintro ⟨hcommand, hargs⟩
    exact ofLine_flatten hlower hcommand hargs

end Needed

end Lines

end XbdmGdbBridge.Proofs.ArgLines
