import XbdmGdbBridge.Rdcp.Response

/-!
# Shell command lines

`ArgParser`: a line is cut at its blanks outside quotes and parentheses. What was around an argument
is kept as its type, and put back by `Flatten`.
-/

namespace XbdmGdbBridge

open CText Rdcp

/-- The types an argument of a line can have. -/
inductive ArgType where
  | basic | parenthesized | quoted
deriving DecidableEq, Repr

structure Argument where
  value : Bytes
  type : ArgType
deriving DecidableEq, Repr

structure ArgParser where
  command : Bytes := []
  arguments : List Argument := []
deriving DecidableEq, Repr

namespace ArgParser

/-- The variables of the loop in `Tokenize`. -/
structure Scan where
  args : List Argument := []
  currentToken : Bytes := []
  inQuote : Bool := false
  parenDepth : Nat := 0
  strippingOuterParens : Bool := false
  tokenDirty : Bool := false
  currentType : ArgType := .basic
deriving DecidableEq, Repr

namespace Scan

def flushToken (s : Scan) : Scan :=
  if s.tokenDirty then { s with
    args := s.args ++ [⟨s.currentToken, s.currentType⟩]
    currentToken := []
    tokenDirty := false
    currentType := .basic }
  else s

def push (s : Scan) (c : UInt8) : Scan :=
  { s with currentToken := s.currentToken ++ [c] }

def stepParens (s : Scan) (c : UInt8) : Scan :=
  if c = byte '(' then { s.push c with parenDepth := s.parenDepth + 1 }
  else if c = byte ')' then
    let depth := s.parenDepth - 1
    let s := { s with parenDepth := depth }
    if 0 < depth ∨ s.strippingOuterParens = false then s.push c else s
  else s.push c

def stepOutside (s : Scan) (c : UInt8) : Scan :=
  if c = byte ' ' ∨ c = 0x09 then s.flushToken
  else if c = 0x22 then
    if s.currentToken = [] then
      { s with inQuote := true, tokenDirty := true, currentType := .quoted }
    else { s.push c with tokenDirty := true }
  else if c = byte '(' then
    let s := { s with parenDepth := 1, tokenDirty := true, currentType := .parenthesized }
    if s.currentToken = [] then { s with strippingOuterParens := true }
    else { s.push c with strippingOuterParens := false }
  else { s.push c with tokenDirty := true }

def step (s : Scan) (c : UInt8) : Scan :=
  if s.inQuote then
    if c = 0x22 then { s with inQuote := false } else s.push c
  else if 0 < s.parenDepth then s.stepParens c
  else s.stepOutside c

end Scan

/-- The loop over the input; a quote behind a backslash is taken together with it. -/
def scan (s : Scan) : Bytes → Scan
  | [] => s
  | [c] => s.step c
  | c :: d :: rest =>
    if s.inQuote = true ∧ c = 0x5c ∧ d = 0x22 then scan (s.push 0x22) rest
    else scan (s.step c) (d :: rest)

def tokenize (input : Bytes) : List Argument :=
  (scan {} input).flushToken.args

/-- The constructors: the command is in lower case. -/
def ofParts (command : Bytes) (arguments : List Argument) : ArgParser :=
  ⟨toLowerCopy command, arguments⟩

def ofLine (rawLine : Bytes) : ArgParser :=
  match tokenize rawLine with
  | [] => {}
  | first :: others => ofParts first.value others

def escapeQuotes (value : Bytes) : Bytes :=
  value.flatMap fun c => if c = 0x22 then [0x5c, 0x22] else [c]

/-- An argument as `Flatten` writes it. -/
def argumentText (arg : Argument) : Bytes :=
  match arg.type with
  | .quoted => [0x22] ++ escapeQuotes arg.value ++ [0x22]
  | .parenthesized => ascii "(" ++ arg.value ++ ascii ")"
  | .basic => arg.value

def flattenStep (out : Bytes) (arg : Argument) : Bytes :=
  (if out = [] then [] else out ++ ascii " ") ++ argumentText arg

def flatten (p : ArgParser) : Bytes :=
  p.arguments.foldl flattenStep p.command

/-- `MaybeParseUint32`: all of the text is a number. -/
def maybeParseUint32 (value : Bytes) : Option UInt32 :=
  let (number, used) := strtoull (RDCPMapResponse.integerBase value) value
  if used = 0 ∨ ((value.drop used).headD 0) ≠ 0 then none else some (UInt32.ofNat number)

/-- `MaybeParseInt32`. -/
def maybeParseInt32 (value : Bytes) : Option Int32 :=
  let (number, used) := strtol (RDCPMapResponse.integerBase value) value
  if used = 0 ∨ ((value.drop used).headD 0) ≠ 0 then none else some (Int32.ofInt number)

def parseInt32 (p : ArgParser) (index : Nat) : Option Int32 :=
  p.arguments[index]?.bind fun arg => maybeParseInt32 arg.value

/-- What `Parse` returns; only an argument that was read sets the number. -/
inductive Parsed where
  | notFound
  | syntaxError (message : Bytes)
  | read (type : ArgType) (number : UInt32)
deriving DecidableEq, Repr

/-- `ParseHelper` of an unsigned number. -/
def parseHelper (s : Bytes) : Except Bytes UInt32 :=
  match maybeParseUint32 s with
  | none => .error (ascii "Value " ++ s ++ ascii " is not numeric")
  | some number => .ok number

def argument? (p : ArgParser) (argIndex : Int) : Option Argument :=
  if argIndex < 0 then none else p.arguments[argIndex.toNat]?

/-- `Parse` into a `uint32_t`. -/
def parse (p : ArgParser) (argIndex : Int) : Parsed :=
  match p.argument? argIndex with
  | none => .notFound
  | some arg =>
    match parseHelper arg.value with
    | .error message => .syntaxError message
    | .ok number => .read arg.type number

/-- An `ExpressionParser` of a caller with state `τ`. -/
abbrev ExpressionParser (τ : Type) := Bytes → Lib.Program Fault τ (Except Bytes UInt32)

/-- The number itself, once the expression parser was not asked or failed. -/
def parseNumeric (arg : Argument) (causedBy : Bytes) : Parsed :=
  match parseHelper arg.value with
  | .ok number => .read arg.type number
  | .error message =>
    if causedBy = [] then .syntaxError message
    else .syntaxError (message ++ ascii " caused by " ++ causedBy)

/-- `Parse` into a `uint32_t` with an expression parser. -/
def parseWith (p : ArgParser) (argIndex : Int) (exprParser : ExpressionParser τ) :
    Lib.Program Fault τ Parsed := do
  match p.argument? argIndex with
  | none => return .notFound
  | some arg =>
    match arg.type with
    | .quoted => return parseNumeric arg []
    | .parenthesized =>
      match ← exprParser arg.value with
      | .ok number => return .read arg.type number
      | .error message => return .syntaxError message
    | .basic =>
      match ← exprParser arg.value with
      | .ok number => return .read arg.type number
      | .error message => return parseNumeric arg message

end ArgParser

end XbdmGdbBridge
