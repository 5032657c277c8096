import XbdmGdbBridge.Proofs.ArgWords

/-!
# Command lines by their words

A line whose strings and parentheses are closed is a list of words with blanks around them, and each
word a list of pieces. When `Flatten` gives a line that is read as the same command and arguments is
a matter of the words.
-/

namespace XbdmGdbBridge.Proofs.ArgLines

open CText Rdcp ArgParser

/-- What a word is made of. -/
inductive Piece where
  | char (c : UInt8)
  | string (content : Bytes)
  | group (inner : Bytes)

namespace Piece

def text : Piece → Bytes
  | char c => [c]
  | string content => 0x22 :: (escapeQuotes content ++ [0x22])
  | group inner => byte '(' :: (inner ++ [byte ')'])

/-- Where a piece can stand: a string only where nothing is in the argument yet. In the middle of an
argument a quote is a character. -/
def Fits (token : Bytes) : Piece → Prop
  | char c => isBlank c = false ∧ c ≠ byte '(' ∧ (token = [] → c ≠ 0x22)
  | string content => token = [] ∧ content.getLast? ≠ some 0x5c
  | group inner => Balanced inner

/-- The argument with one more piece: quotes are taken off, and parentheses where nothing is in front
of them. -/
def onto (a : Argument) : Piece → Argument
  | char c => ⟨a.value ++ [c], a.type⟩
  | string content => ⟨content, .quoted⟩
  | group inner =>
    ⟨if a.value = [] then inner else a.value ++ byte '(' :: (inner ++ [byte ')']), .parenthesized⟩

instance {token : Bytes} : ∀ piece : Piece, Decidable (piece.Fits token)
  | char c => inferInstanceAs (Decidable (isBlank c = false ∧ c ≠ byte '(' ∧ (token = [] → c ≠ 0x22)))
  | string content => inferInstanceAs (Decidable (token = [] ∧ content.getLast? ≠ some 0x5c))
  | group inner => inferInstanceAs (Decidable (Balanced inner))

end Piece

/-- Each piece stands where it can. -/
def Fitting (a : Argument) : List Piece → Prop
  | [] => True
  | piece :: pieces => piece.Fits a.value ∧ Fitting (piece.onto a) pieces

instance decidableFitting : (a : Argument) → (pieces : List Piece) → Decidable (Fitting a pieces)
  | _, [] => isTrue trivial
  | a, piece :: pieces =>
    have := decidableFitting (piece.onto a) pieces
    inferInstanceAs (Decidable (piece.Fits a.value ∧ Fitting (piece.onto a) pieces))

structure LineWord where
  pieces : List Piece
  ne : pieces ≠ []
  fits : Fitting ⟨[], .basic⟩ pieces

namespace LineWord

def text (w : LineWord) : Bytes :=
  w.pieces.flatMap Piece.text

/-- The word without the quotes and parentheses that are taken off. -/
def argument (w : LineWord) : Argument :=
  w.pieces.foldl Piece.onto ⟨[], .basic⟩

end LineWord

/-- The lines with given words. -/
inductive LineText : List LineWord → Bytes → Prop where
  | nil {space : Bytes} (hspace : ∀ b ∈ space, isBlank b = true) : LineText [] space
  | cons {word : LineWord} {words : List LineWord} {rest : Bytes} (space : Bytes)
    (hspace : ∀ b ∈ space, isBlank b = true) (hrest : ∀ b ∈ rest.head?, isBlank b = true)
    (h : LineText words rest) : LineText (word :: words) (space ++ (word.text ++ rest))

section Cutting

variable {s : Scan} {args : List Argument} {a : Argument} {piece : Piece} {pieces : List Piece}
  {rest : Bytes}

theorem Outside.scan_piece (h : Outside s args a.value a.type) (hfits : piece.Fits a.value)
    (rest : Bytes) :
    ∃ s', scan s (piece.text ++ rest) = scan s' rest ∧ Ended s' args (piece.onto a) := by
  cases piece with
  | char c =>
    obtain ⟨hblank, hopen, hquote⟩ := hfits
    exact h.scan_char hquote hblank hopen rest
  | string content =>
    obtain ⟨hempty, hlast⟩ := hfits
    rw [hempty] at h
    obtain ⟨s', hscan, hended⟩ := h.scan_string hlast rest
    refine ⟨s', ?_, hended⟩
    rw [← hscan]
    simp [Piece.text]
  | group inner =>
    obtain ⟨s', hscan, hended⟩ := h.scan_group hfits rest
    refine ⟨s', ?_, hended⟩
    rw [← hscan]
    simp [Piece.text]

theorem Ended.scan_pieces (h : Ended s args a) (hfits : Fitting a pieces) (rest : Bytes) :
    ∃ s', scan s (pieces.flatMap Piece.text ++ rest) = scan s' rest ∧
      Ended s' args (pieces.foldl Piece.onto a) := by
  induction pieces generalizing s a with
  | nil => exact ⟨s, rfl, h⟩
  | cons piece pieces ih =>
    obtain ⟨hfirst, hothers⟩ := hfits
    obtain ⟨s₁, hscan, h₁⟩ := h.scan_piece hfirst (pieces.flatMap Piece.text ++ rest)
    obtain ⟨s₂, hscan', h₂⟩ := ih h₁ hothers
    refine ⟨s₂, ?_, h₂⟩
    rw [List.flatMap_cons, List.append_assoc, hscan, hscan']

theorem Fresh.scan_word (h : Fresh s args) (word : LineWord) (rest : Bytes) :
    ∃ s', scan s (word.text ++ rest) = scan s' rest ∧ Ended s' args word.argument := by
  obtain ⟨pieces, hne, hfits⟩ := word
  cases pieces with
  | nil => exact absurd rfl hne
  | cons piece pieces =>
    obtain ⟨hfirst, hothers⟩ := hfits
    obtain ⟨s₁, hscan, h₁⟩ := h.scan_piece (a := ⟨[], .basic⟩) hfirst
      (pieces.flatMap Piece.text ++ rest)
    obtain ⟨s₂, hscan', h₂⟩ := h₁.scan_pieces hothers rest
    refine ⟨s₂, ?_, h₂⟩
    rw [LineWord.text, List.flatMap_cons, List.append_assoc, hscan, hscan']

theorem Fresh.scan_line {words : List LineWord} {line : Bytes} (h : Fresh s args)
    (hline : LineText words line) :
    (scan s line).flushToken.args = args ++ words.map LineWord.argument := by
  induction hline generalizing s args with
  | nil hspace =>
    have hscan := h.scan_blanks hspace []
    rw [List.append_nil] at hscan
    rw [hscan, scan, Scan.flushToken, h.tokenDirty]
    simpa using h.args
  | @cons word words rest space hspace hrest hline ih =>
    obtain ⟨s₁, hscan, h₁⟩ := h.scan_word word rest
    rw [h.scan_blanks hspace, hscan]
    cases rest with
    | nil =>
      -- Nothing is left for other words.
      have hnone : words = [] := by
        have htokens := ih fresh_start
        simpa [scan, Scan.flushToken] using htokens.symm
      rw [scan, h₁.flush, hnone]
      rfl
    | cons b rest =>
      obtain ⟨s₂, hblank, h₂⟩ := h₁.scan_blank (hrest b rfl) rest
      have hspace : ∀ c ∈ [b], isBlank c = true := by simpa using hrest b rfl
      have hagain := h₂.scan_blanks hspace rest
      rw [hblank, ← hagain, List.singleton_append, ih h₂]
      simp

theorem tokenize_line {words : List LineWord} {line : Bytes} (hline : LineText words line) :
    tokenize line = words.map LineWord.argument :=
  fresh_start.scan_line hline

end Cutting

section Closed

variable {s : Scan} {args : List Argument} {a : Argument} {text : Bytes}

theorem exists_content (hquote : s.inQuote = true) (hclosed : (scan s text).inQuote = false) :
    ∃ content rest, text = escapeQuotes content ++ 0x22 :: rest ∧ content.getLast? ≠ some 0x5c := by
  have hstep : ∀ (s : Scan) (c : UInt8), s.inQuote = true → c ≠ 0x22 → (s.step c).inQuote = true := by
    intro s c hquote hc
    simp [Scan.step, hquote, hc, Scan.push]
  fun_induction scan s text with
  | case1 s => simp [hquote] at hclosed
  | case2 s c =>
    by_cases hc : c = 0x22
    · exact ⟨[], [], by simp [hc, escapeQuotes], by simp⟩
    · simp [hstep s c hquote hc] at hclosed
  | case3 s c d text hescape ih =>
    obtain ⟨content, rest, rfl, hlast⟩ := ih hquote hclosed
    refine ⟨0x22 :: content, rest, ?_, ?_⟩
    · rw [hescape.2.1, hescape.2.2]
      simp [escapeQuotes]
    · cases content with
      | nil => simp
      | cons b content => simpa [List.getLast?_cons_cons] using hlast
  | case4 s c d text hescape ih =>
    by_cases hc : c = 0x22
    · exact ⟨[], d :: text, by simp [hc, escapeQuotes], by simp⟩
    · obtain ⟨content, rest, htext, hlast⟩ := ih (hstep s c hquote hc) hclosed
      refine ⟨c :: content, rest, by simp [escapeQuotes, hc, htext], ?_⟩
      cases content with
      | nil =>
        -- The quote is right behind, so a backslash would have gone with it.
        obtain ⟨rfl, -⟩ : d = 0x22 ∧ text = rest := by simpa [escapeQuotes] using htext
        intro hslash
        exact hescape ⟨hquote, by simpa using hslash, rfl⟩
      | cons b content => simpa [List.getLast?_cons_cons] using hlast

theorem exists_inner (depth : Nat) (hquote : s.inQuote = false) (hdepth : s.parenDepth = depth + 1)
    (hclosed : (scan s text).parenDepth = 0) :
    ∃ inner rest, text = inner ++ byte ')' :: rest ∧ depthAfter depth inner = some 0 := by
  induction text generalizing s depth with
  | nil => simp [scan, hdepth] at hclosed
  | cons c text ih =>
    rw [scan_cons hquote, step_parens hquote (by omega), Scan.stepParens] at hclosed
    by_cases hopen : c = byte '('
    · rw [if_pos hopen] at hclosed
      obtain ⟨inner, rest, rfl, hinner⟩ := ih (s := { s.push c with parenDepth := s.parenDepth + 1 })
        (depth + 1) hquote (congrArg (· + 1) hdepth) hclosed
      exact ⟨c :: inner, rest, rfl, by rwa [depthAfter, if_pos hopen]⟩
    rw [if_neg hopen] at hclosed
    by_cases hclose : c = byte ')'
    · cases depth with
      | zero => exact ⟨[], text, by simp [hclose], rfl⟩
      | succ depth =>
        rw [if_pos hclose] at hclosed
        dsimp only at hclosed
        rw [if_pos (.inl (by omega))] at hclosed
        obtain ⟨inner, rest, rfl, hinner⟩ := ih
          (s := Scan.push { s with parenDepth := s.parenDepth - 1 } c) depth hquote
          (by simp [Scan.push, hdepth]) hclosed
        refine ⟨c :: inner, rest, rfl, ?_⟩
        rw [depthAfter, if_neg hopen, if_pos hclose, if_neg (Nat.succ_ne_zero _)]
        exact hinner
    · rw [if_neg hclose] at hclosed
      obtain ⟨inner, rest, rfl, hinner⟩ := ih (s := s.push c) depth hquote hdepth hclosed
      refine ⟨c :: inner, rest, rfl, ?_⟩
      rwa [depthAfter, if_neg hopen, if_neg hclose]

/-- All strings and parentheses of a line are closed. -/
structure Closed (s : Scan) : Prop where
  inQuote : s.inQuote = false
  parenDepth : s.parenDepth = 0

theorem exists_piece {c : UInt8} (h : Outside s args a.value a.type) (hc : isBlank c = false)
    (hclosed : Closed (scan s (c :: text))) :
    ∃ piece : Piece, ∃ rest, c :: text = piece.text ++ rest ∧ piece.Fits a.value := by
  by_cases hopen : c = byte '('
  · rw [hopen, h.scan_open] at hclosed
    have hinner : ∃ inner rest, text = inner ++ byte ')' :: rest ∧ Balanced inner := by
      refine exists_inner 0 ?_ ?_ hclosed.parenDepth
      · exact h.inQuote
      · rfl
    obtain ⟨inner, rest, rfl, hinner⟩ := hinner
    exact ⟨.group inner, rest, by simp [Piece.text, hopen], hinner⟩
  by_cases hquote : a.value = [] ∧ c = 0x22
  · rw [hquote.1] at h
    rw [hquote.2, h.scan_quote] at hclosed
    obtain ⟨content, rest, rfl, hlast⟩ := exists_content rfl hclosed.inQuote
    exact ⟨.string content, rest, by simp [Piece.text, hquote.2], hquote.1, hlast⟩
  · exact ⟨.char c, text, rfl, hc, hopen, fun hempty hc => hquote ⟨hempty, hc⟩⟩

theorem Piece.text_length_pos (piece : Piece) : 0 < piece.text.length := by
  cases piece <;> simp [Piece.text]

theorem exists_pieces (h : Ended s args a) (hclosed : Closed (scan s text)) :
    ∃ pieces rest, text = pieces.flatMap Piece.text ++ rest ∧ Fitting a pieces ∧
      ∀ b ∈ rest.head?, isBlank b = true := by
  induction hlength : text.length using Nat.strong_induction_on generalizing s a text with
  | _ n ih =>
    subst hlength
    cases text with
    | nil => exact ⟨[], [], rfl, trivial, by simp⟩
    | cons c text =>
      by_cases hc : isBlank c = true
      · exact ⟨[], c :: text, rfl, trivial, by simpa using hc⟩
      · obtain ⟨piece, rest, htext, hfits⟩ := exists_piece h.toOutside (by simpa using hc) hclosed
        obtain ⟨s', hscan, h'⟩ := h.scan_piece hfits rest
        have hlength := congrArg List.length htext
        rw [List.length_append] at hlength
        have hpos := piece.text_length_pos
        rw [htext, hscan] at hclosed
        obtain ⟨pieces, rest', rfl, hpieces, hrest⟩ := ih rest.length (by omega) h' hclosed rfl
        refine ⟨piece :: pieces, rest', ?_, ⟨hfits, hpieces⟩, hrest⟩
        rw [htext, List.flatMap_cons, List.append_assoc]

theorem LineText.blank {words : List LineWord} {line : Bytes} {c : UInt8} (h : LineText words line)
    (hc : isBlank c = true) : LineText words (c :: line) := by
  cases h with
  | nil hspace => exact .nil (by simpa [hc] using hspace)
  | @cons word words rest space hspace hrest h =>
    exact .cons (c :: space) (by simpa [hc] using hspace) hrest h

/-- A line whose strings and parentheses are closed has words. -/
theorem exists_words {line : Bytes} (h : Fresh s args) (hclosed : Closed (scan s line)) :
    ∃ words, LineText words line := by
  induction hlength : line.length using Nat.strong_induction_on generalizing s args line with
  | _ n ih =>
    subst hlength
    cases line with
    | nil => exact ⟨[], .nil (by simp)⟩
    | cons c text =>
      by_cases hc : isBlank c = true
      · have hspace : ∀ b ∈ [c], isBlank b = true := by simpa using hc
        have hscan := h.scan_blanks hspace text
        rw [← List.singleton_append, hscan] at hclosed
        obtain ⟨words, hwords⟩ := ih text.length (by simp) h hclosed rfl
        exact ⟨words, hwords.blank hc⟩
      · obtain ⟨piece, rest, htext, hfits⟩ :=
          exists_piece (a := ⟨[], .basic⟩) h.toOutside (by simpa using hc) hclosed
        obtain ⟨s₁, hscan, h₁⟩ := h.scan_piece (a := ⟨[], .basic⟩) hfits rest
        rw [htext, hscan] at hclosed
        obtain ⟨pieces, rest, rfl, hpieces, hrest⟩ := exists_pieces h₁ hclosed
        obtain ⟨s₂, hscan', h₂⟩ := h₁.scan_pieces hpieces rest
        rw [hscan'] at hclosed
        have hwords : ∃ words, LineText words rest := by
          cases rest with
          | nil => exact ⟨[], .nil (by simp)⟩
          | cons b rest =>
            have hb := hrest b rfl
            obtain ⟨s₃, hblank, h₃⟩ := h₂.scan_blank hb rest
            rw [hblank] at hclosed
            have hlength := congrArg List.length htext
            simp only [List.length_append, List.length_cons] at hlength
            have hpos := piece.text_length_pos
            obtain ⟨words, hwords⟩ := ih rest.length (by simp only [List.length_cons]; omega) h₃ hclosed rfl
            exact ⟨words, hwords.blank hb⟩
        obtain ⟨words, hwords⟩ := hwords
        let word : LineWord := ⟨piece :: pieces, List.cons_ne_nil _ _, hfits, hpieces⟩
        refine ⟨word :: words, ?_⟩
        have hline : c :: text = [] ++ (word.text ++ rest) := by
          rw [htext]
          simp [word, LineWord.text]
        rw [hline]
        exact .cons [] (by simp) hrest hwords

end Closed

section RoundTrip

theorem Piece.plain_onto {a : Argument} {piece : Piece} (h : a.type = .basic → a.value = [] ∨ Plain a.value)
    (hfits : piece.Fits a.value) : (piece.onto a).type = .basic → Plain (piece.onto a).value := by
  cases piece with
  | char c =>
    intro htype
    obtain ⟨hblank, hopen, hquote⟩ := hfits
    rcases h htype with hempty | hplain
    · exact ⟨by simpa [Piece.onto, hempty] using hquote hempty, by
        simpa [Piece.onto, hempty] using ⟨hblank, hopen⟩⟩
    · obtain ⟨hhead, hchars⟩ := hplain
      refine ⟨?_, ?_⟩
      · cases hvalue : a.value with
        | nil => simp [hvalue] at hhead
        | cons d value => simpa [Piece.onto, hvalue] using hhead
      · intro b hb
        rcases List.mem_append.mp hb with hb | hb
        · exact hchars b hb
        · obtain rfl := List.mem_singleton.mp hb
          exact ⟨hblank, hopen⟩
  | string content => simp [Piece.onto]
  | group inner => simp [Piece.onto]

theorem plain_pieces {a : Argument} {pieces : List Piece} (h : a.type = .basic → Plain a.value)
    (hfits : Fitting a pieces) :
    (pieces.foldl Piece.onto a).type = .basic → Plain (pieces.foldl Piece.onto a).value := by
  induction pieces generalizing a with
  | nil => exact h
  | cons piece pieces ih => exact ih (Piece.plain_onto (fun htype => .inr (h htype)) hfits.1) hfits.2

theorem LineWord.plain (word : LineWord) : word.argument.type = .basic → Plain word.argument.value := by
  obtain ⟨pieces, hne, hfits⟩ := word
  cases pieces with
  | nil => exact absurd rfl hne
  | cons piece pieces =>
    have hfirst := Piece.plain_onto (fun _ => .inl rfl) hfits.1
    exact plain_pieces (a := piece.onto ⟨[], .basic⟩) hfirst hfits.2

theorem literalDepth_toLowerCopy (depth : Nat) (text : Bytes) :
    literalDepth depth (toLowerCopy text) = literalDepth depth text := by
  induction text generalizing depth with
  | nil => rfl
  | cons c text ih =>
    have hopen := toLower_eq_iff (b := c) (c := byte '(') (by decide)
    have hclose := toLower_eq_iff (b := c) (c := byte ')') (by decide)
    have hdepth : nextDepth depth (Tokenizer.toLower c) = nextDepth depth c := by
      simp only [nextDepth, hopen, hclose]
    have htext : toLowerCopy (c :: text) = Tokenizer.toLower c :: toLowerCopy text := rfl
    rw [htext, literalDepth, literalDepth, isBlank_toLower, hdepth, ih]

theorem commandRestored_toLowerCopy (command : Bytes) (args : List Argument) :
    CommandRestored (toLowerCopy command) args ↔ CommandRestored command args := by
  cases command with
  | nil => rfl
  | cons c command =>
    have hquote := toLower_eq_iff (b := c) (c := 0x22) (by decide)
    have hopen := toLower_eq_iff (b := c) (c := byte '(') (by decide)
    have hhead : (toLowerCopy (c :: command)).head? = some (Tokenizer.toLower c) := rfl
    have hne : toLowerCopy (c :: command) ≠ [] := List.cons_ne_nil _ _
    rw [CommandRestored, CommandRestored, if_neg hne, if_neg (List.cons_ne_nil _ _),
      literalDepth_toLowerCopy, hhead]
    simp only [ne_eq, Option.some.injEq, hquote, hopen, List.head?_cons]

theorem toLowerCopy_toLowerCopy (text : Bytes) : toLowerCopy (toLowerCopy text) = toLowerCopy text := by
  have hlower : ∀ b, Tokenizer.toLower (Tokenizer.toLower b) = Tokenizer.toLower b := by
    intro b
    unfold Tokenizer.toLower
    split
    next hupper =>
      apply if_neg
      intro h
      have hhigh := UInt8.le_iff_toNat_le.mp h.2
      have hlow := UInt8.le_iff_toNat_le.mp hupper.1
      have hupper := UInt8.le_iff_toNat_le.mp hupper.2
      simp only [UInt8.toNat_add, UInt8.reduceToNat] at hhigh hlow hupper
      omega
    next => rfl
  simp [toLowerCopy, hlower]

/-- The first word is a command that can stand without what is taken off, and all others are
arguments that can be written again. -/
def Restorable : List LineWord → Prop
  | [] => True
  | word :: words =>
    CommandRestored word.argument.value (words.map LineWord.argument) ∧
      ∀ w ∈ words, Restored w.argument

theorem ofLine_flatten_words {words : List LineWord} {line : Bytes} (hline : LineText words line) :
    ofLine (flatten (ofLine line)) = ofLine line ↔ Restorable words := by
  cases words with
  | nil =>
    have hempty : ofLine line = {} := by rw [ofLine, tokenize_line hline]; rfl
    rw [hempty]
    exact iff_of_true rfl trivial
  | cons word words =>
    rw [ofLine_of_tokenize (tokenize_line hline), ofLine_flatten_iff _ (toLowerCopy_toLowerCopy _),
      commandRestored_toLowerCopy, Restorable]
    · simp
    · intro a ha
      obtain ⟨w, -, rfl⟩ := List.mem_map.mp ha
      exact w.plain

/-- A line in which strings and parentheses are closed has words, and whether the flattened line is
read as the line itself is a matter of them. -/
theorem ofLine_flatten_ofLine {line : Bytes} (hclosed : Closed (scan {} line)) :
    (∃ words, LineText words line) ∧ ∀ words, LineText words line →
      (ofLine (flatten (ofLine line)) = ofLine line ↔ Restorable words) :=
  ⟨exists_words fresh_start hclosed, fun _ => ofLine_flatten_words⟩

/-- A command with a string and a text in parentheses behind it. -/
theorem ofLine_flatten_load :
    ofLine (flatten (ofLine (ascii "Load \"a b\" (1 (2))"))) = ofLine (ascii "Load \"a b\" (1 (2))") := by
  let load : LineWord := ⟨(ascii "Load").map .char, by decide, by decide⟩
  let name : LineWord := ⟨[.string (ascii "a b")], by decide, by decide⟩
  let numbers : LineWord := ⟨[.group (ascii "1 (2)")], by decide, by decide⟩
  have hspace : ∀ b ∈ ascii " ", isBlank b = true := List.all_eq_true.mp (by decide)
  have hline : LineText [load, name, numbers] (ascii "Load \"a b\" (1 (2))") :=
    .cons [] (by simp) (by rintro b ⟨⟩; rfl) <| .cons _ hspace (by rintro b ⟨⟩; rfl) <|
      .cons _ hspace (by rintro b ⟨⟩) <| .nil (by simp)
  have hclosed : Closed (scan {} (ascii "Load \"a b\" (1 (2))")) := ⟨by decide, by decide⟩
  refine ((ofLine_flatten_ofLine hclosed).2 _ hline).mpr ⟨?_, ?_⟩
  · exact ⟨by decide, by decide, 0, by decide, fun _ => rfl⟩
  · intro w hw
    rcases List.mem_pair.mp hw with rfl | rfl
    · change (ascii "a b").getLast? ≠ some 0x5c
      decide
    · exact ⟨ascii "1 (2)", 0, by decide, by decide⟩

/-- The parentheses around the command are not written again. -/
theorem ofLine_flatten_parenthesized :
    Closed (scan {} (ascii "(a b) c")) ∧
      ofLine (ascii "(a b) c") = ⟨ascii "a b", [⟨ascii "c", .basic⟩]⟩ ∧
      ofLine (flatten (ofLine (ascii "(a b) c"))) =
        ⟨ascii "a", [⟨ascii "b", .basic⟩, ⟨ascii "c", .basic⟩]⟩ :=
  ⟨⟨by decide, by decide⟩, by decide, by decide⟩

end RoundTrip

end XbdmGdbBridge.Proofs.ArgLines
