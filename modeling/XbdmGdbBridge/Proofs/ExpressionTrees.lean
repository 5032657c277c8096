import XbdmGdbBridge.Proofs.ExpressionRuns

/-!
# What an expression means

Syntax trees of breakpoint conditions, their values, and the texts they are written as: parentheses
stand where an operator binds less tightly than its place asks for, and white space anywhere between
the tokens.
-/

namespace XbdmGdbBridge.Proofs

open CText DebuggerExpressionParser

inductive BinaryOperator where
  | or | and | eq | notEq | lt | gt | lte | gte | plus | minus | asterisk
deriving DecidableEq, Repr

namespace BinaryOperator

/-- How tightly an operator binds. -/
def level : BinaryOperator → Nat
  | or => 1
  | and => 2
  | eq | notEq => 3
  | lt | gt | lte | gte => 4
  | plus | minus => 5
  | asterisk => 6

def symbol : BinaryOperator → String
  | or => "||"
  | and => "&&"
  | eq => "=="
  | notEq => "!="
  | lt => "<"
  | gt => ">"
  | lte => "<="
  | gte => ">="
  | plus => "+"
  | minus => "-"
  | asterisk => "*"

def type : BinaryOperator → TokenType
  | or => .or
  | and => .and
  | eq => .eq
  | notEq => .notEq
  | lt => .lt
  | gt => .gt
  | lte => .lte
  | gte => .gte
  | plus => .plus
  | minus => .minus
  | asterisk => .asterisk

/-- The value of an operator; numbers are counted modulo `2 ^ 32`. -/
def value (a b : UInt32) : BinaryOperator → UInt32
  | or => if a = 0 ∧ b = 0 then 0 else 1
  | and => if a = 0 ∨ b = 0 then 0 else 1
  | eq => if a = b then 1 else 0
  | notEq => if a = b then 0 else 1
  | lt => if a < b then 1 else 0
  | gt => if b < a then 1 else 0
  | lte => if a ≤ b then 1 else 0
  | gte => if b ≤ a then 1 else 0
  | plus => a + b
  | minus => a - b
  | asterisk => a * b

end BinaryOperator

/-- The ways to write a number. -/
inductive Radix where
  | decimal | hex | upperHex
deriving DecidableEq, Repr

namespace Radix

def base : Radix → Nat
  | decimal => 10
  | hex | upperHex => 16

def mark : Radix → Bytes
  | decimal => []
  | hex => ascii "0x"
  | upperHex => ascii "0X"

end Radix

/-- A 32-bit integer literal. -/
structure Literal where
  radix : Radix
  digits : Bytes
  digits_ne_nil : digits ≠ []
  digits_valid : ∀ b ∈ digits, isDigit radix.base b = true
  in_range : numeral radix.base digits < 2 ^ 32

def Literal.value (l : Literal) : UInt32 :=
  UInt32.ofNat (numeral l.radix.base l.digits)

structure RegisterName where
  name : Bytes
  name_ne_nil : name ≠ []
  name_valid : ∀ b ∈ name, Tokenizer.isAlpha b = true

/-- One token of a written expression. -/
inductive Lexeme where
  | int (l : Literal)
  | register (r : RegisterName)
  | tid
  | operator (op : BinaryOperator)
  | at | lparen | rparen | comma | lbracket | rbracket

namespace Lexeme

def text : Lexeme → Bytes
  | int l => l.radix.mark ++ l.digits
  | register r => ascii "$" ++ r.name
  | tid => ascii "tid"
  | operator op => ascii op.symbol
  | .at => ascii "@"
  | lparen => ascii "("
  | rparen => ascii ")"
  | comma => ascii ","
  | lbracket => ascii "["
  | rbracket => ascii "]"

/-- The token at a place of the text. -/
def token (start : Nat) : Lexeme → Token
  | int l => ⟨.int, (if l.radix = .decimal then [] else ascii "0x") ++ l.digits, l.value, start⟩
  | register r => ⟨.register, r.name, 0, start⟩
  | tid => ⟨.identifier, ascii "tid", 0, start⟩
  | operator op => ⟨op.type, ascii op.symbol, 0, start⟩
  | .at => ⟨.at, ascii "@", 0, start⟩
  | lparen => ⟨.lparen, ascii "(", 0, start⟩
  | rparen => ⟨.rparen, ascii ")", 0, start⟩
  | comma => ⟨.comma, ascii ",", 0, start⟩
  | lbracket => ⟨.lbracket, ascii "[", 0, start⟩
  | rbracket => ⟨.rbracket, ascii "]", 0, start⟩

end Lexeme

inductive Tree where
  | int (l : Literal)
  | register (r : RegisterName)
  | tid
  | paren (t : Tree)
  | read (address : Tree)
  | readOffset (address offset : Tree)
  | readAt (address : Tree)
  | readSized (address size : Tree)
  | binary (op : BinaryOperator) (left right : Tree)

namespace Tree

/-- Written at a place that asks for operators of some level; what binds less tightly is put into
parentheses. No operator binds as tightly as `@` does. -/
def written (level : Nat) : Tree → List Lexeme
  | int l => [.int l]
  | register r => [.register r]
  | tid => [.tid]
  | paren t => .lparen :: (t.written 1 ++ [.rparen])
  | read address => .at :: address.written 7
  | readOffset address offset =>
    .at :: (address.written 7 ++ .lbracket :: (offset.written 1 ++ [.rbracket]))
  | readAt address => .at :: .lparen :: (address.written 1 ++ [.rparen])
  | readSized address size =>
    .at :: .lparen :: (address.written 1 ++ .comma :: (size.written 1 ++ [.rparen]))
  | binary op left right =>
    let text := left.written op.level ++ .operator op :: right.written (op.level + 1)
    if op.level < level then .lparen :: (text ++ [.rparen]) else text

/-- The bytes of memory that can be read, by address and size. -/
abbrev Memory := UInt32 → UInt32 → Option Bytes

/-- A number of at most four bytes, the least significant one first. -/
def fetch (memory : Memory) (address size : UInt32) : Option UInt32 := do
  let data ← memory address size
  if size ≤ 4 ∧ data.length = size.toNat then
    some (UInt32.ofNat (Nat.ofDigits 256 (data.map UInt8.toNat)))
  else none

/-- The value of a tree, if all registers and memory it needs are there. -/
def value (context : ThreadContext) (threadId : Option UInt32) (memory : Memory) :
    Tree → Option UInt32
  | int l => some l.value
  | register r => (DebuggerExpressionParser.resolveRegisterValue context r.name).toOption
  | tid => threadId
  | paren t => t.value context threadId memory
  | read address | readAt address => do
    let a ← address.value context threadId memory
    fetch memory a 4
  | readOffset address offset => do
    let a ← address.value context threadId memory
    let b ← offset.value context threadId memory
    fetch memory (a + b) 4
  | readSized address size => do
    let a ← address.value context threadId memory
    let n ← size.value context threadId memory
    fetch memory a n
  | binary op left right => do
    let a ← left.value context threadId memory
    let b ← right.value context threadId memory
    return op.value a b

/-- Whether a bracket behind the text belongs to the `@` in front of it. In `@@x[e]` it belongs to
the inner read, and behind `@(x)` it belongs to none. -/
def takesBracket : Tree → Bool
  | int _ | register _ | tid | readOffset _ _ | readAt _ | readSized _ _ => true
  | paren _ | read _ | binary _ _ _ => false

/-- Every address with an offset leaves the bracket to its own read. -/
def wellBracketed : Tree → Bool
  | int _ | register _ | tid => true
  | paren t => t.wellBracketed
  | read address | readAt address => address.wellBracketed
  | readOffset address offset =>
    address.takesBracket && address.wellBracketed && offset.wellBracketed
  | readSized address size => address.wellBracketed && size.wellBracketed
  | binary _ left right => left.wellBracketed && right.wellBracketed

end Tree

section Levels

variable {τ : Type} {I : τ → Prop} {p : DebuggerExpressionParser τ} {bracket : Bool} {level : Nat}
  {t : Token} {ts ts' : List Token} {a b v : UInt32}

/-- The tokens are read as one operand in front of what follows; a bracket may be there only if
allowed. -/
def OperandText (I : τ → Prop) (p : DebuggerExpressionParser τ) (bracket : Bool) (ts : List Token)
    (v : UInt32) : Prop :=
  ∀ rest s, I s → (bracket = false → (peek rest).type ≠ .lbracket) →
    ∃ s', I s' ∧ Parses p .operand (ts ++ rest) s v rest s'

/-- The tokens are read as one value where operators of the level are, and reading goes on behind
them. -/
def LevelText (I : τ → Prop) (p : DebuggerExpressionParser τ) (level : Nat) (ts : List Token)
    (v : UInt32) : Prop :=
  ∀ (r : Precedence) rest s, I s → r.rank ≤ level → rankOf (peek rest) ≤ level + 1 →
    (peek rest).type ≠ .lbracket → ∃ s₁, I s₁ ∧ ∀ w rest' s',
      Parses p (.infixes r v) rest s₁ w rest' s' → Parses p (.expression r) (ts ++ rest) s w rest' s'

theorem OperandText.atLevel (h : OperandText I p bracket ts v) : LevelText I p level ts v := by
  intro r rest s hs _ _ hbracket
  obtain ⟨s₁, hs₁, hoperand⟩ := h rest s hs fun _ => hbracket
  exact ⟨s₁, hs₁, fun w rest' s' hmore => .expression hoperand hmore⟩

theorem LevelText.mono {low : Nat} (h : LevelText I p level ts v) (hle : low ≤ level) :
    LevelText I p low ts v := by
  intro r rest s hs hr hrest
  exact h r rest s hs (hr.trans hle) (by omega)

/-- The tokens are all that is read in front of a token that ends an expression. -/
theorem LevelText.whole {r : Precedence} {s : τ} (h : LevelText I p level ts v) (rest : List Token)
    (hs : I s) (hlevel : r.rank ≤ level) (hrest : rankOf (peek rest) ≤ r.rank)
    (hbracket : (peek rest).type ≠ .lbracket) :
    ∃ s', I s' ∧ Parses p (.expression r) (ts ++ rest) s v rest s' := by
  obtain ⟨s', hs', hparses⟩ := h r rest s hs hlevel (by omega) hbracket
  exact ⟨s', hs', hparses v rest s' (.stop hrest)⟩

theorem LevelText.binary {op : BinaryOperator} (hleft : LevelText I p op.level ts a)
    (hright : LevelText I p (op.level + 1) ts' b) (htype : t.type = op.type) :
    LevelText I p op.level (ts ++ t :: ts') (op.value a b) := by
  intro r rest s hs hr hrest hbracket
  have hrank : rankOf t = op.level + 1 := by
    rw [rankOf, htype]
    cases op <;> rfl
  have hother : t.type ≠ .lbracket := by
    rw [htype]
    cases op <;> decide
  have hvalue : applyOperator t.type a b = some (op.value a b) := by
    rw [htype]
    cases op <;> simp [applyOperator, BinaryOperator.type, BinaryOperator.value, truth] <;> grind
  obtain ⟨s₁, hs₁, hparses⟩ := hleft r (t :: (ts' ++ rest)) s hs hr hrank.le hother
  obtain ⟨s₂, hs₂, hoperand⟩ := hright.whole (r := Precedence.of t.type) _ hs₁ hrank.le
    (hrest.trans hrank.ge) hbracket
  refine ⟨s₂, hs₂, fun w rest' s' hmore => ?_⟩
  rw [List.append_assoc, List.cons_append]
  apply hparses
  exact .operator (by change r.rank < rankOf t; omega) hoperand hvalue hmore

theorem OperandText.group {t' : Token} (h : LevelText I p level ts v) (hlevel : 1 ≤ level)
    (hopen : t.type = .lparen) (hclose : t'.type = .rparen) :
    OperandText I p bracket (t :: (ts ++ [t'])) v := by
  intro rest s hs _
  have hrank : rankOf t' = 1 := by rw [rankOf, hclose]; rfl
  obtain ⟨s', hs', hinner⟩ := h.whole (r := .lowest) (t' :: rest) hs hlevel hrank.le
    (by simp [peek, hclose])
  have hgroup := Parses.group hopen hinner hclose
  rw [List.cons_append, List.append_assoc]
  exact ⟨s', hs', hgroup⟩

theorem rankOf_le_highest (t : Token) : rankOf t ≤ Precedence.highest.rank := by
  unfold rankOf
  cases t.type <;> decide

/-- A read of what follows is one operand; in front of a parenthesis it is the other form of a
read. -/
theorem Parses.read {rest : List Token} {s s₁ s₂ : τ} (h : Parses p .operand ts s a rest s₁)
    (htype : t.type = .at) (hplain : (peek rest).type ≠ .lbracket)
    (hread : Gives (p.performRead a 4) s₁ v s₂) : Parses p .operand (t :: ts) s v rest s₂ := by
  by_cases hopen : (peek ts).type = .lparen
  · cases h with
    | group hlparen hinner hclose => exact .readAt htype hopen hinner hclose hread
    | int hother | tid hother | register hother | readAt hother | readSized hother
    | readBare hother | readOffset hother => simp [peek, hother] at hopen
  · exact .readBare htype hopen (.expression h (.stop (rankOf_le_highest _))) hplain hread

end Levels

section Reads

variable {τ : Type} {I : τ → Prop} {p : DebuggerExpressionParser τ} {memory : Tree.Memory}
  {address size v : UInt32} {s : τ}

/-- The reader of the parser answers with the bytes of the memory, and goes on doing so. -/
def Serves (I : τ → Prop) (p : DebuggerExpressionParser τ) (memory : Tree.Memory) : Prop :=
  ∀ address size data, memory address size = some data → ∃ read, p.memoryReader = some read ∧
    ∀ s, I s → ∃ s', I s' ∧ read address size s = .ok (.ok data, s')

theorem gives_performRead (hserves : Serves I p memory) (hs : I s)
    (hfetch : Tree.fetch memory address size = some v) :
    ∃ s', I s' ∧ Gives (p.performRead address size) s v s' := by
  obtain ⟨data, hdata, hvalue⟩ := Option.bind_eq_some_iff.mp hfetch
  obtain ⟨⟨hsize, hlength⟩, hvalue⟩ := (Option.ite_none_right_eq_some).mp hvalue
  obtain ⟨read, hreader, hread⟩ := hserves _ _ _ hdata
  obtain ⟨s', hs', hread⟩ := hread s hs
  refine ⟨s', hs', ?_⟩
  have hsmall : ¬4 < size := UInt32.not_lt.mpr hsize
  simp only [performRead, hreader, hsmall, if_false]
  refine gives_bind.mpr ⟨data, s', hread, ?_⟩
  have hfour : data.length ≤ 4 := by
    rw [hlength]
    exact UInt32.le_iff_toNat_le.mp hsize
  have hno : ¬0xFFFFFFFF < readValue data := UInt64.not_lt.mpr (readValue_le hfour)
  refine gives_ite.mpr (.inr ⟨not_not.mpr hlength, gives_ite.mpr (.inr ⟨hno, ?_⟩)⟩)
  refine gives_return.mpr ⟨?_, rfl⟩
  rw [readValue_toUInt32 (by omega)]
  exact Option.some.inj hvalue

end Reads

section Lexed

variable {l : Lexeme} {ls ls' : List Lexeme} {ts : List Token}

def unplaced (t : Token) : Token :=
  { t with startPos := 0 }

/-- The tokens of a written expression, wherever they stand. -/
def Lexed (ls : List Lexeme) (ts : List Token) : Prop :=
  ts.map unplaced = ls.map (Lexeme.token 0)

theorem lexed_append :
    Lexed (ls ++ ls') ts ↔ ∃ ts₁ ts₂, ts = ts₁ ++ ts₂ ∧ Lexed ls ts₁ ∧ Lexed ls' ts₂ := by
  rw [Lexed, List.map_append, List.map_eq_append_iff]
  rfl

theorem lexed_cons :
    Lexed (l :: ls) ts ↔ ∃ t ts₁, ts = t :: ts₁ ∧ unplaced t = l.token 0 ∧ Lexed ls ts₁ := by
  rw [Lexed, List.map_cons, List.map_eq_cons_iff]
  rfl

theorem lexed_nil : Lexed [] ts ↔ ts = [] :=
  List.map_eq_nil_iff

theorem lexed_singleton : Lexed [l] ts ↔ ∃ t, ts = [t] ∧ unplaced t = l.token 0 := by
  simp [lexed_cons, lexed_nil]

end Lexed

namespace Tree

variable {τ : Type} {I : τ → Prop} {p : DebuggerExpressionParser τ} {memory : Memory}

/-- Whether a tree is written with an operator outside all parentheses. -/
def bare (level : Nat) : Tree → Bool
  | binary op _ _ => level ≤ op.level
  | _ => false

/-- The first token of an address with an offset is no parenthesis. -/
theorem written_head {t : Tree} (h : t.takesBracket = true) (level : Nat) :
    ∃ l ls, t.written level = l :: ls ∧ (l.token 0).type ≠ .lparen := by
  cases t with
  | int l => exact ⟨.int l, [], rfl, by simp [Lexeme.token]⟩
  | register r => exact ⟨.register r, [], rfl, by simp [Lexeme.token]⟩
  | tid => exact ⟨.tid, [], rfl, by decide⟩
  | readOffset address offset => exact ⟨.at, _, rfl, by decide⟩
  | readAt address => exact ⟨.at, _, rfl, by decide⟩
  | readSized address size => exact ⟨.at, _, rfl, by decide⟩
  | paren t | read address | binary op left right => cases h

/-- What is written for a tree is read as its value. -/
structure Readable (I : τ → Prop) (p : DebuggerExpressionParser τ) (memory : Memory) (t : Tree) :
    Prop where
  operand : ∀ level ts v, Lexed (t.written level) ts →
    t.value p.context p.threadId memory = some v → t.bare level = false →
    OperandText I p t.takesBracket ts v
  level : ∀ level ts v, Lexed (t.written level) ts →
    t.value p.context p.threadId memory = some v → LevelText I p level ts v

/-- What is always one operand is read as any level asks for. -/
theorem readable_of_operand {t : Tree}
    (h : ∀ level ts v, Lexed (t.written level) ts →
      t.value p.context p.threadId memory = some v → OperandText I p t.takesBracket ts v) :
    Readable I p memory t where
  operand level ts v hts hv _ := h level ts v hts hv
  level level ts v hts hv := (h level ts v hts hv).atLevel

theorem readable_int (l : Literal) : Readable I p memory (.int l) := by
  apply readable_of_operand
  intro level ts v hts hv
  obtain ⟨t, rfl, ht⟩ := lexed_singleton.mp hts
  obtain rfl : l.value = v := Option.some.inj hv
  have hvalue : t.intValue = l.value := congrArg Token.intValue ht
  rw [← hvalue]
  intro rest s hs _
  exact ⟨s, hs, .int (congrArg Token.type ht)⟩

theorem readable_register (r : RegisterName) : Readable I p memory (.register r) := by
  apply readable_of_operand
  intro level ts v hts hv
  obtain ⟨t, rfl, ht⟩ := lexed_singleton.mp hts
  have hname : t.literal = r.name := congrArg Token.literal ht
  intro rest s hs _
  refine ⟨s, hs, .register (congrArg Token.type ht) ?_⟩
  rw [hname]
  change (resolveRegisterValue p.context r.name).toOption = some v at hv
  cases hresolved : resolveRegisterValue p.context r.name with
  | error message =>
    rw [hresolved] at hv
    cases hv
  | ok u =>
    rw [hresolved] at hv
    cases hv
    rfl

theorem readable_tid : Readable I p memory .tid := by
  apply readable_of_operand
  intro level ts v hts hv
  obtain ⟨t, rfl, ht⟩ := lexed_singleton.mp hts
  intro rest s hs _
  exact ⟨s, hs, .tid (congrArg Token.type ht) (congrArg Token.literal ht) hv⟩

theorem readable_paren {t : Tree} (ih : Readable I p memory t) :
    Readable I p memory (.paren t) := by
  apply readable_of_operand
  intro level ts v hts hv
  obtain ⟨topen, _, rfl, hopen, hts⟩ := lexed_cons.mp hts
  obtain ⟨inner, _, rfl, hinner, hts⟩ := lexed_append.mp hts
  obtain ⟨tclose, rfl, hclose⟩ := lexed_singleton.mp hts
  exact OperandText.group (ih.level 1 inner v hinner hv) le_rfl (congrArg Token.type hopen)
    (congrArg Token.type hclose)

theorem readable_read (hserves : Serves I p memory) {address : Tree}
    (ih : Readable I p memory address) : Readable I p memory (.read address) := by
  apply readable_of_operand
  intro level ts v hts hv
  obtain ⟨t, inner, rfl, ht, hinner⟩ := lexed_cons.mp hts
  obtain ⟨a, ha, hfetch⟩ := Option.bind_eq_some_iff.mp hv
  have hbare : address.bare 7 = false := by
    cases address with
    | binary op left right => cases op <;> rfl
    | _ => rfl
  intro rest s hs hrest
  have hplain := hrest rfl
  obtain ⟨s₁, hs₁, hoperand⟩ := ih.operand 7 inner a hinner ha hbare rest s hs fun _ => hplain
  obtain ⟨s₂, hs₂, hread⟩ := gives_performRead hserves hs₁ hfetch
  exact ⟨s₂, hs₂, hoperand.read (congrArg Token.type ht) hplain hread⟩

theorem readable_readAt (hserves : Serves I p memory) {address : Tree}
    (ih : Readable I p memory address) : Readable I p memory (.readAt address) := by
  apply readable_of_operand
  intro level ts v hts hv
  obtain ⟨t, _, rfl, ht, hts⟩ := lexed_cons.mp hts
  obtain ⟨topen, _, rfl, hopen, hts⟩ := lexed_cons.mp hts
  obtain ⟨inner, _, rfl, hinner, hts⟩ := lexed_append.mp hts
  obtain ⟨tclose, rfl, hclose⟩ := lexed_singleton.mp hts
  obtain ⟨a, ha, hfetch⟩ := Option.bind_eq_some_iff.mp hv
  have hclose : tclose.type = .rparen := congrArg Token.type hclose
  have hrank : rankOf tclose = 1 := by rw [rankOf, hclose]; rfl
  intro rest s hs _
  obtain ⟨s₁, hs₁, haddr⟩ := (ih.level 1 inner a hinner ha).whole (r := .lowest)
    (tclose :: rest) hs le_rfl hrank.le (by simp [peek, hclose])
  obtain ⟨s₂, hs₂, hread⟩ := gives_performRead hserves hs₁ hfetch
  have hfirst : (peek (topen :: (inner ++ tclose :: rest))).type = .lparen := congrArg Token.type hopen
  have hparses := Parses.readAt (t := t) (congrArg Token.type ht) hfirst haddr hclose hread
  exact ⟨s₂, hs₂, by simpa using hparses⟩

theorem readable_readSized (hserves : Serves I p memory) {address size : Tree}
    (ihaddress : Readable I p memory address) (ihsize : Readable I p memory size) :
    Readable I p memory (.readSized address size) := by
  apply readable_of_operand
  intro level ts v hts hv
  obtain ⟨t, _, rfl, ht, hts⟩ := lexed_cons.mp hts
  obtain ⟨topen, _, rfl, hopen, hts⟩ := lexed_cons.mp hts
  obtain ⟨inner, _, rfl, hinner, hts⟩ := lexed_append.mp hts
  obtain ⟨tcomma, _, rfl, hcomma, hts⟩ := lexed_cons.mp hts
  obtain ⟨number, _, rfl, hnumber, hts⟩ := lexed_append.mp hts
  obtain ⟨tclose, rfl, hclose⟩ := lexed_singleton.mp hts
  obtain ⟨a, ha, hv⟩ := Option.bind_eq_some_iff.mp hv
  obtain ⟨n, hn, hfetch⟩ := Option.bind_eq_some_iff.mp hv
  have hclose : tclose.type = .rparen := congrArg Token.type hclose
  have hcomma : tcomma.type = .comma := congrArg Token.type hcomma
  have hrank : rankOf tclose = 1 := by rw [rankOf, hclose]; rfl
  have hrank' : rankOf tcomma = 1 := by rw [rankOf, hcomma]; rfl
  intro rest s hs _
  obtain ⟨s₁, hs₁, haddr⟩ := (ihaddress.level 1 inner a hinner ha).whole (r := .lowest)
    (tcomma :: (number ++ tclose :: rest)) hs le_rfl hrank'.le (by simp [peek, hcomma])
  obtain ⟨s₂, hs₂, hsize⟩ := (ihsize.level 1 number n hnumber hn).whole (r := .lowest)
    (tclose :: rest) hs₁ le_rfl hrank.le (by simp [peek, hclose])
  obtain ⟨s₃, hs₃, hread⟩ := gives_performRead hserves hs₂ hfetch
  have hfirst : (peek (topen :: (inner ++ tcomma :: (number ++ tclose :: rest)))).type = .lparen :=
    congrArg Token.type hopen
  have hparses :=
    Parses.readSized (t := t) (congrArg Token.type ht) hfirst haddr hcomma hsize hclose hread
  exact ⟨s₃, hs₃, by simpa using hparses⟩

theorem readable_readOffset (hserves : Serves I p memory) {address offset : Tree}
    (htakes : address.takesBracket = true) (ihaddress : Readable I p memory address)
    (ihoffset : Readable I p memory offset) : Readable I p memory (.readOffset address offset) := by
  apply readable_of_operand
  intro level ts v hts hv
  obtain ⟨t, _, rfl, ht, hts⟩ := lexed_cons.mp hts
  obtain ⟨inner, _, rfl, hinner, hts⟩ := lexed_append.mp hts
  obtain ⟨topen, _, rfl, hopen, hts⟩ := lexed_cons.mp hts
  obtain ⟨number, _, rfl, hnumber, hts⟩ := lexed_append.mp hts
  obtain ⟨tclose, rfl, hclose⟩ := lexed_singleton.mp hts
  obtain ⟨a, ha, hv⟩ := Option.bind_eq_some_iff.mp hv
  obtain ⟨b, hb, hfetch⟩ := Option.bind_eq_some_iff.mp hv
  have hclose : tclose.type = .rbracket := congrArg Token.type hclose
  have hrank : rankOf tclose = 1 := by rw [rankOf, hclose]; rfl
  have hbare : address.bare 7 = false := by
    cases address with
    | binary op left right => cases htakes
    | _ => rfl
  have hfirst : ∀ rest, (peek (inner ++ rest)).type ≠ .lparen := by
    obtain ⟨l, ls, hwritten, hl⟩ := written_head htakes 7
    rw [hwritten] at hinner
    obtain ⟨first, others, rfl, heq, -⟩ := lexed_cons.mp hinner
    intro rest hparen
    exact hl ((congrArg Token.type heq).symm.trans hparen)
  intro rest s hs _
  obtain ⟨s₁, hs₁, hoperand⟩ := ihaddress.operand 7 inner a hinner ha hbare
    (topen :: (number ++ tclose :: rest)) s hs (by simp [htakes])
  have haddr := Parses.expression hoperand (.stop (rankOf_le_highest _))
  obtain ⟨s₂, hs₂, hoffset⟩ := (ihoffset.level 1 number b hnumber hb).whole (r := .lowest)
    (tclose :: rest) hs₁ le_rfl hrank.le (by simp [peek, hclose])
  obtain ⟨s₃, hs₃, hread⟩ := gives_performRead hserves hs₂ hfetch
  have hparses := Parses.readOffset (t := t) (congrArg Token.type ht) (hfirst _) haddr
    (congrArg Token.type hopen) hoffset hclose hread
  exact ⟨s₃, hs₃, by simpa using hparses⟩

theorem readable_binary {op : BinaryOperator} {left right : Tree}
    (ihleft : Readable I p memory left) (ihright : Readable I p memory right) :
    Readable I p memory (.binary op left right) := by
  have htext : ∀ ts v, Lexed (left.written op.level ++ .operator op :: right.written (op.level + 1))
      ts → (binary op left right).value p.context p.threadId memory = some v →
      LevelText I p op.level ts v := by
    intro ts v hts hv
    obtain ⟨ts₁, _, rfl, hleft, hts⟩ := lexed_append.mp hts
    obtain ⟨t, ts₂, rfl, ht, hright⟩ := lexed_cons.mp hts
    obtain ⟨a, ha, hv⟩ := Option.bind_eq_some_iff.mp hv
    obtain ⟨b, hb, hv⟩ := Option.bind_eq_some_iff.mp hv
    obtain rfl : op.value a b = v := Option.some.inj hv
    exact (ihleft.level _ ts₁ a hleft ha).binary (ihright.level _ ts₂ b hright hb)
      (congrArg Token.type ht)
  have hgroup : ∀ level ts v, op.level < level → Lexed ((binary op left right).written level) ts →
      (binary op left right).value p.context p.threadId memory = some v →
      OperandText I p false ts v := by
    intro level ts v hlevel hts hv
    simp only [written, hlevel, if_true] at hts
    obtain ⟨topen, _, rfl, hopen, hts⟩ := lexed_cons.mp hts
    obtain ⟨inner, _, rfl, hinner, hts⟩ := lexed_append.mp hts
    obtain ⟨tclose, rfl, hclose⟩ := lexed_singleton.mp hts
    have hpositive : 1 ≤ op.level := by cases op <;> decide
    exact OperandText.group (htext inner v hinner hv) hpositive (congrArg Token.type hopen)
      (congrArg Token.type hclose)
  constructor
  · intro level ts v hts hv hbare
    exact hgroup level ts v (by simpa [bare] using hbare) hts hv
  · intro level ts v hts hv
    by_cases hlevel : op.level < level
    · exact (hgroup level ts v hlevel hts hv).atLevel
    · simp only [written, hlevel, if_false] at hts
      exact (htext ts v hts hv).mono (not_lt.mp hlevel)

theorem readable (hserves : Serves I p memory) {t : Tree} (ht : t.wellBracketed = true) :
    Readable I p memory t := by
  induction t with
  | int l => exact readable_int l
  | register r => exact readable_register r
  | tid => exact readable_tid
  | paren t ih => exact readable_paren (ih ht)
  | read address ih => exact readable_read hserves (ih ht)
  | readOffset address offset ihaddress ihoffset =>
    simp only [wellBracketed, Bool.and_eq_true] at ht
    exact readable_readOffset hserves ht.1.1 (ihaddress ht.1.2) (ihoffset ht.2)
  | readAt address ih => exact readable_readAt hserves (ih ht)
  | readSized address size ihaddress ihsize =>
    simp only [wellBracketed, Bool.and_eq_true] at ht
    exact readable_readSized hserves (ihaddress ht.1) (ihsize ht.2)
  | binary op left right ihleft ihright =>
    simp only [wellBracketed, Bool.and_eq_true] at ht
    exact readable_binary (ihleft ht.1) (ihright ht.2)

end Tree

end XbdmGdbBridge.Proofs
