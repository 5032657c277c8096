import XbdmGdbBridge.Proofs.ExpressionTrees
import XbdmGdbBridge.Util.Numerals

/-!
# Written expressions are read back

The tokenizer finds the tokens of a written tree again, whatever white space is between them, since
no two tokens that follow one another in a tree can be taken for one. Then the evaluator comes to the
value of the tree.
-/

namespace XbdmGdbBridge.Proofs

open CText DebuggerExpressionParser

/-- Operands and operators take turns; whether an operand is expected behind a token. -/
def Lexeme.after : Bool → Lexeme → Option Bool
  | true, int _ | true, register _ | true, tid => some false
  | true, .at | true, lparen => some true
  | false, operator _ | false, comma | false, lbracket => some true
  | false, rparen | false, rbracket => some false
  | _, _ => none

def walk (operand : Bool) (ls : List Lexeme) : Option Bool :=
  ls.foldlM Lexeme.after operand

theorem walk_append {q q' : Bool} {ls ls' : List Lexeme} (h : walk q ls = some q') :
    walk q (ls ++ ls') = walk q' ls' := by
  unfold walk at h ⊢
  rw [List.foldlM_append, h]
  rfl

theorem Tree.walk_written (t : Tree) (level : Nat) : walk true (t.written level) = some false := by
  induction t generalizing level with
  | int l => rfl
  | register r => rfl
  | tid => rfl
  | paren t ih =>
    change walk true (t.written 1 ++ [.rparen]) = _
    rw [walk_append (ih 1)]
    rfl
  | read address ih =>
    change walk true (address.written 7) = _
    exact ih 7
  | readOffset address offset ihaddress ihoffset =>
    change walk true (address.written 7 ++ .lbracket :: (offset.written 1 ++ [.rbracket])) = _
    rw [walk_append (ihaddress 7)]
    change walk true (offset.written 1 ++ [.rbracket]) = _
    rw [walk_append (ihoffset 1)]
    rfl
  | readAt address ih =>
    change walk true (address.written 1 ++ [.rparen]) = _
    rw [walk_append (ih 1)]
    rfl
  | readSized address size ihaddress ihsize =>
    change walk true (address.written 1 ++ .comma :: (size.written 1 ++ [.rparen])) = _
    rw [walk_append (ihaddress 1)]
    change walk true (size.written 1 ++ [.rparen]) = _
    rw [walk_append (ihsize 1)]
    rfl
  | binary op left right ihleft ihright =>
    have htext : walk true (left.written op.level ++ .operator op :: right.written (op.level + 1)) =
        some false := by
      rw [walk_append (ihleft op.level)]
      change walk true (right.written (op.level + 1)) = _
      exact ihright (op.level + 1)
    unfold written
    split
    · change walk true (_ ++ [Lexeme.rparen]) = _
      rw [walk_append htext]
      rfl
    · exact htext

/-- A text of the tokens with white space between them. -/
inductive Rendered : List Lexeme → Bytes → Prop where
  | nil (space : Bytes) (hspace : ∀ b ∈ space, isSpace b = true) : Rendered [] space
  | cons {l : Lexeme} {ls : List Lexeme} {text : Bytes} (space : Bytes)
      (hspace : ∀ b ∈ space, isSpace b = true) (hrest : Rendered ls text) :
      Rendered (l :: ls) (space ++ (l.text ++ text))

section Boundaries

variable {q q' : Bool} {l : Lexeme} {ls : List Lexeme} {c : UInt8} {text rest : Bytes}

/-- No character that would go on with the token in front. -/
def ends (operand : Bool) (c : UInt8) : Bool :=
  if operand then c != 0x3d else !Tokenizer.isAlpha c && !isDigit 10 c

theorem ends_of_space : ∀ c, isSpace c = true → ∀ q, ends q c = true := by
  decide +kernel

theorem not_hexDigit_of_ends : ∀ c, ends false c = true → isDigit 16 c = false := by
  decide +kernel

theorem digit_ne_eq : ∀ c, isDigit 16 c = true → ends true c = true := by
  decide +kernel

theorem Literal.digit_hex (n : Literal) (h : c ∈ n.digits) : isDigit 16 c = true := by
  have hdigit := n.digits_valid c h
  cases hradix : n.radix with
  | decimal =>
    rw [hradix] at hdigit
    exact isDigit_mono c hdigit
  | hex | upperHex =>
    rw [hradix] at hdigit
    exact hdigit

theorem ends_text (h : l.after q = some q') : ∃ c rest, l.text = c :: rest ∧ ends q c = true := by
  cases l with
  | int n =>
    obtain rfl : q = true := by cases q <;> simp_all [Lexeme.after]
    cases hradix : n.radix with
    | hex => exact ⟨0x30, _, by rw [Lexeme.text, hradix]; rfl, by decide⟩
    | upperHex => exact ⟨0x30, _, by rw [Lexeme.text, hradix]; rfl, by decide⟩
    | decimal =>
      obtain ⟨c, rest, hdigits⟩ := List.exists_cons_of_ne_nil n.digits_ne_nil
      refine ⟨c, rest, by rw [Lexeme.text, hradix, hdigits]; rfl, ?_⟩
      exact digit_ne_eq c (n.digit_hex (by simp [hdigits]))
  | register r =>
    obtain rfl : q = true := by cases q <;> simp_all [Lexeme.after]
    exact ⟨0x24, r.name, rfl, by decide⟩
  | operator op =>
    obtain rfl : q = false := by cases q <;> simp_all [Lexeme.after]
    cases op <;> exact ⟨_, _, rfl, by decide⟩
  | tid | «at» | lparen | rparen | comma | lbracket | rbracket =>
    cases q
    all_goals cases h
    all_goals exact ⟨_, _, rfl, by decide⟩

/-- What is written behind a token does not go on with it. -/
theorem Rendered.ends_head (h : Rendered ls text) (hwalk : walk q ls = some q') :
    ∀ c ∈ text.head?, ends q c = true := by
  have hspaced : ∀ (space rest : Bytes), (∀ b ∈ space, isSpace b = true) →
      (∀ c ∈ rest.head?, ends q c = true) → ∀ c ∈ (space ++ rest).head?, ends q c = true := by
    intro space rest hspace hrest c hc
    cases space with
    | nil => exact hrest c hc
    | cons b space =>
      obtain rfl : b = c := by simpa using hc
      exact ends_of_space b (hspace b (by simp)) q
  cases h with
  | nil space hspace => exact fun c hc => ends_of_space c (hspace c (List.mem_of_mem_head? hc)) q
  | cons space hspace hrest =>
    obtain ⟨q₁, hafter, -⟩ := Option.bind_eq_some_iff.mp hwalk
    obtain ⟨c, others, htext, hends⟩ := ends_text hafter
    apply hspaced _ _ hspace
    rw [htext]
    intro b hb
    obtain rfl : c = b := by simpa using hb
    exact hends

end Boundaries

section Tokens

variable {q q' : Bool} {l : Lexeme} {ls : List Lexeme} {c : UInt8} {text rest : Bytes}
  {start position fuel : Nat}

theorem takeWhile_append_of_ends {f : UInt8 → Bool} (htext : ∀ b ∈ text, f b = true)
    (hrest : ∀ b ∈ rest.head?, f b = false) : (text ++ rest).takeWhile f = text := by
  induction text with
  | nil =>
    cases rest with
    | nil => rfl
    | cons b rest => simp [hrest b rfl]
  | cons b text ih =>
    rw [List.cons_append, List.takeWhile_cons, if_pos (htext b (by simp))]
    rw [ih fun b hb => htext b (by simp [hb])]

theorem token_hex {x : UInt8} {digits : Bytes} (hx : x = 0x78 ∨ x = 0x58) (hne : digits ≠ [])
    (hdigits : ∀ b ∈ digits, isDigit 16 b = true) (hvalue : numeral 16 digits < 2 ^ 64)
    (hrest : ∀ b ∈ rest.head?, isDigit 16 b = false) :
    Tokenizer.token 0x30 (x :: (digits ++ rest)) start =
      .ok (some ⟨.int, ascii "0x" ++ digits, UInt32.ofNat (numeral 16 digits), start⟩,
        2 + digits.length) := by
  have hspace : isSpace 0x30 = false := by decide
  have hmark : (0x30 : UInt8) = 0x30 ∧ ((x :: (digits ++ rest)).head? = some 0x78 ∨
      (x :: (digits ++ rest)).head? = some 0x58) := by
    simpa using hx
  have htake := takeWhile_append_of_ends hdigits hrest
  unfold Tokenizer.token
  rw [if_neg (by simp [hspace]), if_pos hmark]
  simp only [List.tail_cons, htake, hne, if_false]
  exact if_neg (not_le.mpr hvalue)

theorem token_decimal {digits : Bytes} (hc : isDigit 10 c = true)
    (hdigits : ∀ b ∈ digits, isDigit 10 b = true) (hvalue : numeral 10 (c :: digits) < 2 ^ 64)
    (hrest : ∀ b ∈ rest.head?, ends false b = true) :
    Tokenizer.token c (digits ++ rest) start =
      .ok (some ⟨.int, c :: digits, UInt32.ofNat (numeral 10 (c :: digits)), start⟩,
        (c :: digits).length) := by
  have hspace : isSpace c = false := (digit_plain c (isDigit_mono c hc)).1
  have hmark : ∀ b ∈ (digits ++ rest).head?, b ≠ 0x78 ∧ b ≠ 0x58 := by
    intro b hb
    cases digits with
    | nil =>
      have hends := hrest b hb
      exact ⟨by rintro rfl; revert hends; decide, by rintro rfl; revert hends; decide⟩
    | cons d digits =>
      obtain rfl : d = b := by simpa using hb
      have hd := hdigits d (by simp)
      exact ⟨by rintro rfl; revert hd; decide, by rintro rfl; revert hd; decide⟩
  have hnohex : ¬(c = 0x30 ∧ ((digits ++ rest).head? = some 0x78 ∨
      (digits ++ rest).head? = some 0x58)) := by
    rintro ⟨-, h | h⟩
    · exact (hmark _ h).1 rfl
    · exact (hmark _ h).2 rfl
  have hstop : ∀ b ∈ rest.head?, isDigit 10 b = false := by
    intro b hb
    have hends := hrest b hb
    simp only [ends, Bool.false_eq_true, if_false, Bool.and_eq_true, Bool.not_eq_true'] at hends
    exact hends.2
  have hall : ∀ b ∈ c :: digits, isDigit 10 b = true := by simpa [hc] using hdigits
  have htake : (c :: (digits ++ rest)).takeWhile (isDigit 10) = c :: digits :=
    takeWhile_append_of_ends hall hstop
  unfold Tokenizer.token
  rw [if_neg (by simp [hspace]), if_neg hnohex, if_pos hc]
  simp only [htake]
  exact if_neg (not_le.mpr hvalue)

theorem token_register {name : Bytes} (hne : name ≠ [])
    (hname : ∀ b ∈ name, Tokenizer.isAlpha b = true)
    (hrest : ∀ b ∈ rest.head?, Tokenizer.isAlpha b = false) :
    Tokenizer.token 0x24 (name ++ rest) start =
      .ok (some ⟨.register, name, 0, start⟩, 1 + name.length) := by
  have htake := takeWhile_append_of_ends hname hrest
  have hplain : isSpace 0x24 = false ∧ isDigit 10 0x24 = false := by decide
  unfold Tokenizer.token
  rw [if_neg (by simp [hplain.1]), if_neg (by simp), if_neg (by simp [hplain.2]), if_pos rfl]
  simp only [htake, hne, if_false]

theorem token_tid (hrest : ∀ b ∈ rest.head?, Tokenizer.isAlpha b = false) :
    Tokenizer.token 0x74 (0x69 :: 0x64 :: rest) start =
      .ok (some ⟨.identifier, ascii "tid", 0, start⟩, 3) := by
  have hword : ∀ b ∈ ascii "tid", Tokenizer.isAlpha b = true := List.all_eq_true.mp (by decide)
  have htake : ((0x74 : UInt8) :: 0x69 :: 0x64 :: rest).takeWhile Tokenizer.isAlpha = ascii "tid" :=
    takeWhile_append_of_ends hword hrest
  have hlower : (ascii "tid").map Tokenizer.toLower = ascii "tid" := by decide
  have hplain : isSpace 0x74 = false ∧ isDigit 10 0x74 = false ∧ Tokenizer.isAlpha 0x74 = true := by
    decide
  unfold Tokenizer.token
  rw [if_neg (by simp [hplain.1]), if_neg (by simp), if_neg (by simp [hplain.2.1]),
    if_neg (by decide), if_pos hplain.2.2]
  simp only [htake, hlower, if_true]
  rfl

theorem token_symbol {type : TokenType} {literal : String} (hspace : isSpace c = false)
    (hdigit : isDigit 10 c = false) (hregister : c ≠ 0x24) (halpha : Tokenizer.isAlpha c = false)
    (hoperator : Tokenizer.operator c rest.head? = some (type, literal)) :
    Tokenizer.token c rest start =
      .ok (some ⟨type, ascii literal, 0, start⟩, (ascii literal).length) := by
  have hzero : c ≠ 0x30 := by
    rintro rfl
    revert hdigit
    decide
  unfold Tokenizer.token
  rw [if_neg (by simp [hspace]), if_neg (by simp [hzero]), if_neg (by simp [hdigit]),
    if_neg hregister, if_neg (by simp [halpha]), hoperator]

theorem token_int (n : Literal) (hrest : ∀ b ∈ rest.head?, ends false b = true) :
    ∃ c tail, (Lexeme.int n).text ++ rest = c :: tail ∧
      Tokenizer.token c tail start =
        .ok (some ((Lexeme.int n).token start), (Lexeme.int n).text.length) := by
  have hhex : ∀ b ∈ rest.head?, isDigit 16 b = false :=
    fun b hb => not_hexDigit_of_ends b (hrest b hb)
  obtain ⟨radix, digits, hne, hdigits, hrange⟩ := n
  have hvalue : numeral radix.base digits < 2 ^ 64 := by omega
  cases radix with
  | decimal =>
    obtain ⟨c, others, rfl⟩ := List.exists_cons_of_ne_nil hne
    refine ⟨c, others ++ rest, rfl, ?_⟩
    exact token_decimal (hdigits c (by simp)) (fun b hb => hdigits b (by simp [hb])) hvalue hrest
  | hex =>
    refine ⟨0x30, 0x78 :: (digits ++ rest), rfl, ?_⟩
    rw [token_hex (.inl rfl) hne hdigits hvalue hhex]
    simp [Lexeme.text, Lexeme.token, Literal.value, Radix.mark, Radix.base, Nat.add_comm,
      show (ascii "0x").length = 2 from rfl]
  | upperHex =>
    refine ⟨0x30, 0x58 :: (digits ++ rest), rfl, ?_⟩
    rw [token_hex (.inr rfl) hne hdigits hvalue hhex]
    simp [Lexeme.text, Lexeme.token, Literal.value, Radix.mark, Radix.base, Nat.add_comm,
      show (ascii "0X").length = 2 from rfl]

theorem token_operator (op : BinaryOperator) (hrest : ∀ b ∈ rest.head?, ends true b = true) :
    ∃ c tail, (Lexeme.operator op).text ++ rest = c :: tail ∧
      Tokenizer.token c tail start =
        .ok (some ((Lexeme.operator op).token start), (Lexeme.operator op).text.length) := by
  have hnext : rest.head? ≠ some 0x3d := by
    intro h
    have hends := hrest _ h
    revert hends
    decide
  cases op
  all_goals refine ⟨_, _, rfl, ?_⟩
  all_goals refine token_symbol (by decide) (by decide) (by decide) (by decide) ?_
  -- Only `<` and `>` look at what follows.
  case lt | gt => exact if_neg hnext
  all_goals rfl

/-- The text of a token is read as that token. -/
theorem token_text (hafter : l.after q = some q') (hrest : ∀ b ∈ rest.head?, ends q' b = true)
    (start : Nat) :
    ∃ c tail, l.text ++ rest = c :: tail ∧
      Tokenizer.token c tail start = .ok (some (l.token start), l.text.length) := by
  have halpha : q' = false → ∀ b ∈ rest.head?, Tokenizer.isAlpha b = false := by
    rintro rfl b hb
    have hends := hrest b hb
    simp only [ends, Bool.false_eq_true, if_false, Bool.and_eq_true, Bool.not_eq_true'] at hends
    exact hends.1
  cases l with
  | int n =>
    obtain rfl : q' = false := by cases q <;> simp_all [Lexeme.after]
    exact token_int n hrest
  | register r =>
    obtain rfl : q' = false := by cases q <;> simp_all [Lexeme.after]
    refine ⟨0x24, r.name ++ rest, rfl, ?_⟩
    rw [token_register r.name_ne_nil r.name_valid (halpha rfl)]
    simp [Lexeme.text, Lexeme.token, Nat.add_comm, show (ascii "$").length = 1 from rfl]
  | tid =>
    obtain rfl : q' = false := by cases q <;> simp_all [Lexeme.after]
    exact ⟨0x74, 0x69 :: 0x64 :: rest, rfl, token_tid (halpha rfl)⟩
  | operator op =>
    obtain rfl : q' = true := by cases q <;> simp_all [Lexeme.after]
    exact token_operator op hrest
  | «at» | lparen | rparen | comma | lbracket | rbracket =>
    exact ⟨_, _, rfl, token_symbol (by decide) (by decide) (by decide) (by decide) rfl⟩

theorem loop_space (hc : isSpace c = true) :
    Tokenizer.loop (fuel + 1) (c :: text) position = Tokenizer.loop fuel text (position + 1) := by
  have htoken : Tokenizer.token c text position = .ok (none, 1) := by simp [Tokenizer.token, hc]
  rw [Tokenizer.loop, htoken]
  change (Tokenizer.loop fuel text (position + 1) >>= fun others => pure ([] ++ others)) = _
  cases Tokenizer.loop fuel text (position + 1) <;> rfl

theorem loop_spaces {space : Bytes} (hspace : ∀ b ∈ space, isSpace b = true) (text : Bytes)
    (fuel position : Nat) :
    Tokenizer.loop (space.length + fuel) (space ++ text) position =
      Tokenizer.loop fuel text (position + space.length) := by
  induction space generalizing position with
  | nil => simp
  | cons b space ih =>
    have hlength : (b :: space).length + fuel = space.length + fuel + 1 := by
      rw [List.length_cons]
      omega
    rw [hlength, List.cons_append, loop_space (hspace b (by simp)),
      ih fun b hb => hspace b (by simp [hb]), List.length_cons]
    congr 1
    omega

end Tokens

section Written

variable {τ : Type} {I : τ → Prop} {p : DebuggerExpressionParser τ} {memory : Tree.Memory}
  {q q' : Bool} {ls : List Lexeme} {text : Bytes} {position fuel : Nat}

theorem unplaced_token (l : Lexeme) (start : Nat) : unplaced (l.token start) = l.token 0 := by
  cases l <;> rfl

theorem loop_rendered (h : Rendered ls text) (hwalk : walk q ls = some q')
    (hfuel : text.length ≤ fuel) (position : Nat) :
    ∃ ts last, Lexed ls ts ∧ last.type = .endOfFile ∧
      Tokenizer.loop fuel text position = .ok (ts ++ [last]) := by
  induction h generalizing q position fuel with
  | nil space hspace =>
    obtain ⟨n, rfl⟩ := Nat.exists_eq_add_of_le hfuel
    have hloop := loop_spaces hspace [] n position
    rw [List.append_nil] at hloop
    refine ⟨[], ⟨.endOfFile, [], 0, position + space.length⟩, rfl, rfl, hloop.trans ?_⟩
    rw [Tokenizer.loop]
    rfl
  | @cons l ls text space hspace hrest ih =>
    obtain ⟨q₁, hafter, hwalk⟩ := Option.bind_eq_some_iff.mp hwalk
    obtain ⟨n, rfl⟩ : ∃ n, fuel = space.length + n := by
      refine Nat.exists_eq_add_of_le (le_trans ?_ hfuel)
      simp
    rw [List.length_append] at hfuel
    rw [loop_spaces hspace]
    obtain ⟨c, tail, htext, htoken⟩ := token_text hafter (hrest.ends_head hwalk)
      (position + space.length)
    -- A token is not empty, so there is fuel for it.
    obtain ⟨b, others, hb, -⟩ := ends_text hafter
    have hlength : l.text.length = others.length + 1 := by simp [hb]
    rw [List.length_append] at hfuel
    obtain ⟨n, rfl⟩ : ∃ m, n = m + 1 := ⟨n - 1, by omega⟩
    have hfuel : text.length ≤ n := by omega
    obtain ⟨ts, last, hts, hlast, hloop⟩ := ih hwalk hfuel (position + space.length + l.text.length)
    refine ⟨l.token (position + space.length) :: ts, last, ?_, hlast, ?_⟩
    · exact lexed_cons.mpr ⟨_, ts, rfl, unplaced_token l _, hts⟩
    · rw [htext, Tokenizer.loop, htoken]
      change (Tokenizer.loop n ((c :: tail).drop l.text.length) _ >>= _) = _
      rw [← htext, List.drop_left, hloop]
      rfl

/-- A written tree is evaluated to the value of the tree, whatever white space is between the tokens,
as long as the reader answers for the memory the value needs. -/
theorem parse_written {t : Tree} {s : τ} {v : UInt32} (hserves : Serves I p memory) (hs : I s)
    (hbrackets : t.wellBracketed = true) (hvalue : t.value p.context p.threadId memory = some v)
    (htext : Rendered (t.written 1) text) : ∃ s', I s' ∧ (p.parse text).run s = .ok (.ok v, s') := by
  obtain ⟨ts, last, hts, hlast, hloop⟩ := loop_rendered htext (t.walk_written 1) le_rfl 0
  have hrank : rankOf last = 1 := by rw [rankOf, hlast]; rfl
  have hlevel := (Tree.readable hserves hbrackets).level 1 ts v hts hvalue
  obtain ⟨s', hs', hparses⟩ := hlevel.whole (r := .lowest) [last] hs le_rfl hrank.le
    (by simp [peek, hlast])
  exact ⟨s', hs', gives_parse.mpr ⟨ts ++ [last], [last], hloop, hparses, hlast⟩⟩

end Written

section TwoWords

/-- A memory with two words. -/
def twoWords : Tree.Memory := fun address size =>
  if address = 0x1000 ∧ size = 4 then some [1, 0, 0, 0]
  else if address = 0x1004 ∧ size = 4 then some [5, 0, 0, 0]
  else none

def twoWordsParser : DebuggerExpressionParser Unit where
  context := { eax := some 0x1000 }
  memoryReader := some fun address size => pure (.ok ((twoWords address size).getD []))

theorem serves_twoWords : Serves (fun _ => True) twoWordsParser twoWords := by
  intro address size data hdata
  refine ⟨_, rfl, fun s _ => ⟨s, trivial, ?_⟩⟩
  rw [hdata]
  rfl

def literal1000 : Literal :=
  ⟨.hex, ascii "1000", by decide, List.all_eq_true.mp (by decide), by decide⟩

def literal4 : Literal :=
  ⟨.decimal, ascii "4", by decide, List.all_eq_true.mp (by decide), by decide⟩

def registerEax : RegisterName :=
  ⟨ascii "eax", by decide, List.all_eq_true.mp (by decide)⟩

theorem parse_written_product :
    (twoWordsParser.parse (ascii "(0x1000 + 4)* @$eax[4]")).run () = .ok (.ok 0x5014, ()) := by
  have htext : Rendered ((Tree.binary .asterisk
      (.binary .plus (.int literal1000) (.int literal4))
      (.readOffset (.register registerEax) (.int literal4))).written 1)
      (ascii "(0x1000 + 4)* @$eax[4]") :=
    .cons [] (by simp) <| .cons [] (by simp) <|
    .cons (ascii " ") (List.all_eq_true.mp (by decide)) <| .cons (ascii " ") (List.all_eq_true.mp (by decide)) <|
    .cons [] (by simp) <| .cons [] (by simp) <|
    .cons (ascii " ") (List.all_eq_true.mp (by decide)) <| .cons [] (by simp) <|
    .cons [] (by simp) <| .cons [] (by simp) <|
    .cons [] (by simp) <| .nil [] (by simp)
  obtain ⟨s', -, h⟩ := parse_written (s := ()) serves_twoWords trivial rfl (v := 0x5014) (by decide) htext
  exact h

/-- Behind a parenthesised address there is no offset: the tree has a value and the text is
rejected. -/
theorem parse_offset_of_paren :
    ∃ t : Tree, t = .readOffset (.paren (.int literal1000)) (.int literal4) ∧
      Serves (fun _ => True) twoWordsParser twoWords ∧
      t.value twoWordsParser.context twoWordsParser.threadId twoWords = some 5 ∧
      Rendered (t.written 1) (ascii "@(0x1000)[4]") ∧
      (twoWordsParser.parse (ascii "@(0x1000)[4]")).run () =
        .ok (.error (ascii "Unexpected character at position 9"), ()) := by
  refine ⟨_, rfl, serves_twoWords, by decide, ?_, by decide⟩
  exact .cons [] (by simp) <| .cons [] (by simp) <|
    .cons [] (by simp) <| .cons [] (by simp) <|
    .cons [] (by simp) <| .cons [] (by simp) <|
    .cons [] (by simp) <| .nil [] (by simp)

end TwoWords

end XbdmGdbBridge.Proofs
