import XbdmGdbBridge.Lib.Program
import XbdmGdbBridge.Xbox.Target

/-!
# Breakpoint conditions

`DebuggerExpressionParser`: the tokenizer and the precedence-climbing evaluator. A memory read of
the expression runs on the state `τ` of whoever supplied the reader.
-/

namespace XbdmGdbBridge

open Lib CText

inductive TokenType where
  | illegal | endOfFile | identifier | int | register
  | plus | minus | asterisk | «at»
  | eq | notEq | lt | gt | lte | gte
  | and | or
  | lparen | rparen | comma | lbracket | rbracket
deriving DecidableEq, Repr

structure Token where
  type : TokenType
  literal : Bytes
  intValue : UInt32 := 0
  startPos : Nat := 0
deriving DecidableEq, Repr

/-- The enumerators of `Precedence`, in the order `<` compares them. -/
inductive Precedence where
  | lowest | logicalOr | logicalAnd | equality | relational | sum | product | prefixed | call
  | highest
deriving DecidableEq, Repr

namespace Precedence

def rank : Precedence → Nat
  | lowest => 1
  | logicalOr => 2
  | logicalAnd => 3
  | equality => 4
  | relational => 5
  | sum => 6
  | product => 7
  | prefixed => 8
  | call => 9
  | highest => 10

def of : TokenType → Precedence
  | .or => logicalOr
  | .and => logicalAnd
  | .eq | .notEq => equality
  | .lt | .gt | .lte | .gte => relational
  | .plus | .minus => sum
  | .asterisk => product
  | .lparen => call
  | _ => lowest

end Precedence

namespace Tokenizer

def isAlpha (b : UInt8) : Bool :=
  (0x41 ≤ b && b ≤ 0x5a) || (0x61 ≤ b && b ≤ 0x7a)

def toLower (b : UInt8) : UInt8 :=
  if 0x41 ≤ b ∧ b ≤ 0x5a then b + 0x20 else b

def unexpectedCharacter (position : Nat) : Bytes :=
  ascii "Unexpected character at position " ++ ascii (toString position)

-- `std::stoul` throws from 2 ^ 64 on; what it returns is then cut to 32 bits.
def number (literal : Bytes) (value start consumed : Nat) (overflow : Bytes) :
    Except Bytes (Option Token × Nat) :=
  if 2 ^ 64 ≤ value then .error overflow
  else .ok (some ⟨.int, literal, UInt32.ofNat value, start⟩, consumed)

def operator (c : UInt8) (next : Option UInt8) : Option (TokenType × String) :=
  if c = 0x2b then some (.plus, "+")
  else if c = 0x2d then some (.minus, "-")
  else if c = 0x2a then some (.asterisk, "*")
  else if c = 0x28 then some (.lparen, "(")
  else if c = 0x29 then some (.rparen, ")")
  else if c = 0x5b then some (.lbracket, "[")
  else if c = 0x5d then some (.rbracket, "]")
  else if c = 0x2c then some (.comma, ",")
  else if c = 0x40 then some (.at, "@")
  else if c = 0x3d then if next = some 0x3d then some (.eq, "==") else none
  else if c = 0x21 then if next = some 0x3d then some (.notEq, "!=") else none
  else if c = 0x3c then if next = some 0x3d then some (.lte, "<=") else some (.lt, "<")
  else if c = 0x3e then if next = some 0x3d then some (.gte, ">=") else some (.gt, ">")
  else if c = 0x26 then if next = some 0x26 then some (.and, "&&") else none
  else if c = 0x7c then if next = some 0x7c then some (.or, "||") else none
  else none

/-- One turn of the loop in `Tokenize`: the token at `start`, if any, and the characters used. -/
def token (c : UInt8) (rest : Bytes) (start : Nat) : Except Bytes (Option Token × Nat) :=
  if isSpace c then .ok (none, 1)
  else if c = 0x30 ∧ (rest.head? = some 0x78 ∨ rest.head? = some 0x58) then
    let digits := rest.tail.takeWhile (isDigit 16)
    if digits = [] then .error (ascii "Invalid hexadecimal number")
    else number (ascii "0x" ++ digits) (numeral 16 digits) start (2 + digits.length)
      (ascii "Hexadecimal number is out of range")
  else if isDigit 10 c then
    let digits := (c :: rest).takeWhile (isDigit 10)
    number digits (numeral 10 digits) start digits.length (ascii "Number is out of range")
  else if c = 0x24 then
    let literal := rest.takeWhile isAlpha
    if literal = [] then .error (ascii "Empty register name")
    else .ok (some ⟨.register, literal, 0, start⟩, 1 + literal.length)
  else if isAlpha c then
    let word := (c :: rest).takeWhile isAlpha
    let literal := word.map toLower
    if literal = ascii "tid" then .ok (some ⟨.identifier, literal, 0, start⟩, word.length)
    else if literal = ascii "and" then .ok (some ⟨.and, literal, 0, start⟩, word.length)
    else if literal = ascii "or" then .ok (some ⟨.or, literal, 0, start⟩, word.length)
    else .error (unexpectedCharacter start)
  else
    match operator c rest.head? with
    | some (type, literal) => .ok (some ⟨type, ascii literal, 0, start⟩, (ascii literal).length)
    | none => .error (unexpectedCharacter start)

def loop : Nat → Bytes → Nat → Except Bytes (List Token)
  | _, [], position => .ok [⟨.endOfFile, [], 0, position⟩]
  | 0, _ :: _, _ => .ok []
  | fuel + 1, c :: rest, position => do
    let (found, used) ← token c rest position
    let others ← loop fuel ((c :: rest).drop used) (position + used)
    return found.toList ++ others

-- Every turn uses at least one character, so the length is fuel enough.
def tokenize (expr : Bytes) : Except Bytes (List Token) :=
  loop expr.length expr 0

end Tokenizer

/-- A memory reader of a caller with state `τ`. -/
abbrev MemoryReader (τ : Type) := UInt32 → UInt32 → Program Fault τ (Except Bytes Bytes)

structure DebuggerExpressionParser (τ : Type) where
  context : ThreadContext
  threadId : Option UInt32 := none
  memoryReader : Option (MemoryReader τ) := none

namespace DebuggerExpressionParser

variable {τ : Type}

/-- `std::expected` inside a program; the tokens that are left travel with the value. -/
abbrev Evaluation (τ α : Type) := ExceptT Bytes (Program Fault τ) α

def unexpected (message : Bytes) : Evaluation τ α :=
  throw message

def peek (tokens : List Token) : Token :=
  tokens.headD ⟨.endOfFile, [], 0, 0⟩

def available (name : String) : Option Int32 → Except Bytes UInt32
  | none => .error (ascii "Register " ++ ascii name ++ ascii " not available in context")
  | some v => .ok v.toUInt32

def low16 (r : Except Bytes UInt32) : Except Bytes UInt32 :=
  r.map (· &&& 0xffff)

def byteAt (shift : UInt32) (r : Except Bytes UInt32) : Except Bytes UInt32 :=
  r.map (fun v => (v >>> shift) &&& 0xff)

def resolveRegisterValue (c : ThreadContext) (reg : Bytes) : Except Bytes UInt32 :=
  let lower := reg.map Tokenizer.toLower
  if lower = ascii "eax" then available "eax" c.eax
  else if lower = ascii "ebx" then available "ebx" c.ebx
  else if lower = ascii "ecx" then available "ecx" c.ecx
  else if lower = ascii "edx" then available "edx" c.edx
  else if lower = ascii "esi" then available "esi" c.esi
  else if lower = ascii "edi" then available "edi" c.edi
  else if lower = ascii "ebp" then available "ebp" c.ebp
  else if lower = ascii "esp" then available "esp" c.esp
  else if lower = ascii "eip" then available "eip" c.eip
  else if lower = ascii "eflags" then available "eflags" c.eflags
  else if lower = ascii "ax" then low16 (available "ax" c.eax)
  else if lower = ascii "bx" then low16 (available "bx" c.ebx)
  else if lower = ascii "cx" then low16 (available "cx" c.ecx)
  else if lower = ascii "dx" then low16 (available "dx" c.edx)
  else if lower = ascii "si" then low16 (available "si" c.esi)
  else if lower = ascii "di" then low16 (available "di" c.edi)
  else if lower = ascii "ah" then byteAt 8 (available "eax" c.eax)
  else if lower = ascii "bh" then byteAt 8 (available "ebx" c.ebx)
  else if lower = ascii "ch" then byteAt 8 (available "ecx" c.ecx)
  else if lower = ascii "dh" then byteAt 8 (available "edx" c.edx)
  else if lower = ascii "al" then byteAt 0 (available "eax" c.eax)
  else if lower = ascii "bl" then byteAt 0 (available "ebx" c.ebx)
  else if lower = ascii "cl" then byteAt 0 (available "ecx" c.ecx)
  else if lower = ascii "dl" then byteAt 0 (available "edx" c.edx)
  else .error (ascii "Unknown register: " ++ reg)

/-- The bytes of a read as a 64-bit number, least significant byte first. -/
def readValue (data : Bytes) : UInt64 :=
  data.zipIdx.foldl (fun val (b, i) => val ||| b.toUInt64 <<< UInt64.ofNat (i * 8)) 0

def performRead (p : DebuggerExpressionParser τ) (addr size : UInt32) : Evaluation τ UInt32 := do
  match p.memoryReader with
  | none => unexpected (ascii "Memory reader not available")
  | some read =>
    if 4 < size then unexpected (ascii "Memory read size too large (max 4 bytes)")
    else
      let data ← ExceptT.mk (read addr size)
      if data.length ≠ size.toNat then unexpected (ascii "Failed to read requested memory size")
      else if 0xFFFFFFFF < readValue data then ExceptT.lift (Program.fault .assertion)
      else return (readValue data).toUInt32

section Handlers

variable (p : DebuggerExpressionParser τ)
  (expression : Precedence → List Token → Evaluation τ (UInt32 × List Token))

/-- `@(addr)` and `@(addr, size)`; the opening parenthesis has been consumed. -/
def parseSizedRead (tokens : List Token) : Evaluation τ (UInt32 × List Token) := do
  let (addr, rest) ← expression .lowest tokens
  let (size, rest) ←
    if (peek rest).type = .comma then expression .lowest rest.tail else pure (4, rest)
  if (peek rest).type ≠ .rparen then unexpected (ascii "Expected ')'")
  else
    let value ← p.performRead addr size
    return (value, rest.tail)

/-- `@addr` and `@addr[offset]`. -/
def parseBareRead (tokens : List Token) : Evaluation τ (UInt32 × List Token) := do
  let (addr, rest) ← expression .highest tokens
  if (peek rest).type = .lbracket then
    let (offset, rest) ← expression .lowest rest.tail
    if (peek rest).type ≠ .rbracket then unexpected (ascii "Expected ']'")
    else
      let value ← p.performRead (addr + offset) 4
      return (value, rest.tail)
  else
    let value ← p.performRead addr 4
    return (value, rest)

def parsePrefix (token : Token) (tokens : List Token) : Evaluation τ (UInt32 × List Token) := do
  match token.type with
  | .int => return (token.intValue, tokens)
  | .identifier =>
    if token.literal = ascii "tid" then
      match p.threadId with
      | none => unexpected (ascii "Thread ID not available in this context")
      | some id => return (id, tokens)
    else unexpected (ascii "Unknown identifier: " ++ token.literal)
  | .register =>
    let value ← ExceptT.mk (pure (resolveRegisterValue p.context token.literal))
    return (value, tokens)
  | .lparen =>
    let (value, rest) ← expression .lowest tokens
    if (peek rest).type ≠ .rparen then unexpected (ascii "Expected ')'")
    else return (value, rest.tail)
  | .at =>
    if (peek tokens).type = .lparen then parseSizedRead p expression tokens.tail
    else parseBareRead p expression tokens
  | _ => unexpected (ascii "Unexpected token: " ++ token.literal)

def truth (b : Bool) : UInt32 :=
  if b then 1 else 0

def parseInfix (token : Token) (left : UInt32) (tokens : List Token) :
    Evaluation τ (UInt32 × List Token) := do
  let (right, rest) ← expression (Precedence.of token.type) tokens
  match token.type with
  | .plus => return (left + right, rest)
  | .minus => return (left - right, rest)
  | .asterisk => return (left * right, rest)
  | .eq => return (truth (left == right), rest)
  | .notEq => return (truth (left != right), rest)
  | .lt => return (truth (left < right), rest)
  | .gt => return (truth (left > right), rest)
  | .lte => return (truth (left ≤ right), rest)
  | .gte => return (truth (left ≥ right), rest)
  | .and => return (truth (left != 0 && right != 0), rest)
  | .or => return (truth (left != 0 || right != 0), rest)
  -- A parenthesis behind a value has a precedence but no handler: the `assert` fires.
  | _ => ExceptT.lift (Program.fault .assertion)

/-- The loop of `ParseExpression`. -/
def infixLoop (precedence : Precedence) :
    Nat → UInt32 → List Token → Evaluation τ (UInt32 × List Token)
  | 0, left, tokens => pure (left, tokens)
  | fuel + 1, left, tokens =>
    if precedence.rank < (Precedence.of (peek tokens).type).rank then do
      let (value, rest) ← parseInfix expression (peek tokens) left tokens.tail
      infixLoop precedence fuel value rest
    else pure (left, tokens)

end Handlers

-- Every call consumes a token first, so the number of tokens is fuel enough.
def parseExpression (p : DebuggerExpressionParser τ) :
    Nat → Precedence → List Token → Evaluation τ (UInt32 × List Token)
  | 0, _, _ => unexpected (ascii "Unexpected end of expression")
  | fuel + 1, precedence, tokens =>
    if (peek tokens).type = .endOfFile then unexpected (ascii "Unexpected end of expression")
    else do
      let (left, rest) ← parsePrefix p (parseExpression p fuel) (peek tokens) tokens.tail
      infixLoop (parseExpression p fuel) precedence fuel left rest

def parse (p : DebuggerExpressionParser τ) (expr : Bytes) : Evaluation τ UInt32 := do
  match Tokenizer.tokenize expr with
  | .error message => unexpected message
  | .ok tokens =>
    if (peek tokens).type = .endOfFile then unexpected (ascii "Empty expression")
    else
      let (value, rest) ← parseExpression p tokens.length .lowest tokens
      if (peek rest).type ≠ .endOfFile then
        unexpected (Tokenizer.unexpectedCharacter (peek rest).startPos)
      else return value

end DebuggerExpressionParser

end XbdmGdbBridge
