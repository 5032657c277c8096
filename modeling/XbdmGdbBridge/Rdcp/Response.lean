import XbdmGdbBridge.Xbox.Expression

/-!
# Answers as maps

`RDCPMapResponse`: the text of an answer cut at its spaces by `boost::escaped_list_separator`, with
the NUL as escape character and quotes around what may hold spaces, and read as keys and values.
-/

namespace XbdmGdbBridge.Rdcp

open CText

/-- `boost::replace_all` of a two-character text by one character. -/
def replacePair (a b replacement : UInt8) : Bytes → Bytes
  | [] => []
  | [c] => [c]
  | c :: d :: rest =>
    if c = a ∧ d = b then replacement :: replacePair a b replacement rest
    else c :: replacePair a b replacement (d :: rest)

def toLowerCopy (s : Bytes) : Bytes :=
  s.map Tokenizer.toLower

section Tokens

/-- What a character stands for behind the escape character; `do_escape` throws for all others. -/
def escaped (c : UInt8) : Option UInt8 :=
  if c = byte 'n' then some 0x0a else if c = 0x22 ∨ c = 0x20 ∨ c = 0 then some c else none

def extend (c : UInt8) (r : Except Fault (Bytes × Option Bytes)) :
    Except Fault (Bytes × Option Bytes) :=
  r.map fun next => (c :: next.1, next.2)

/-- The next token, and what follows the separator behind it if there is one. -/
def nextToken (inQuote : Bool) : Bytes → Except Fault (Bytes × Option Bytes)
  | [] => .ok ([], none)
  | c :: rest =>
    if c = 0 then
      match rest with
      | [] => .error .exception
      | d :: rest =>
        match escaped d with
        | none => .error .exception
        | some e => extend e (nextToken inQuote rest)
    else if c = 0x20 then
      if inQuote then extend c (nextToken inQuote rest) else .ok ([], some rest)
    else if c = 0x22 then nextToken (!inQuote) rest
    else extend c (nextToken inQuote rest)

/-- The tokens of a text that is not empty; a separator at its end is followed by an empty one. -/
def tokensFrom : Nat → Bytes → Except Fault (List Bytes)
  | 0, _ => .ok []
  | fuel + 1, s => do
    let (token, rest) ← nextToken false s
    match rest with
    | none => return [token]
    | some [] => return [token, []]
    | some (c :: others) =>
      let tokens ← tokensFrom fuel (c :: others)
      return token :: tokens

end Tokens

structure RDCPMapResponse where
  map : List (Bytes × Bytes) := []
  valuelessKeys : List Bytes := []
deriving DecidableEq, Repr

namespace RDCPMapResponse

/-- `map[key] = value`. -/
def assign (key value : Bytes) (m : List (Bytes × Bytes)) : List (Bytes × Bytes) :=
  m.filter (fun entry => entry.1 ≠ key) ++ [(key, value)]

/-- The text behind the delimiter. The tokenizer has removed the quotes, so that one is left only
where it was escaped. -/
def valueText (text : Bytes) : Bytes :=
  match text with
  | [] => []
  | c :: rest => if c = 0x22 then replacePair 0x5c 0x22 0x22 rest else text

def add (r : RDCPMapResponse) (token : Bytes) : RDCPMapResponse :=
  match token.idxOf? (byte '=') with
  | none =>
    { map := assign (toLowerCopy token) [] r.map
      valuelessKeys := toLowerCopy token :: r.valuelessKeys }
  | some delimiter =>
    let key := toLowerCopy (token.take delimiter)
    { r with map := assign key (valueText (token.drop (delimiter + 1))) r.map }

-- Every token is followed by a separator or ends the text, so the length is fuel enough.
def ofText (text : Bytes) : Except Fault RDCPMapResponse :=
  if text = [] then .ok {}
  else do
    let sanitized := replacePair 0x0d 0x0a 0x20 text
    let tokens ← tokensFrom (sanitized.length + 1) sanitized
    return tokens.foldl add {}

def hasKey (r : RDCPMapResponse) (key : Bytes) : Bool :=
  (r.map.lookup (toLowerCopy key)).isSome

def getString (r : RDCPMapResponse) (key defaultValue : Bytes) : Bytes :=
  (r.map.lookup (toLowerCopy key)).getD defaultValue

/-- `GetIntegerBase`. -/
def integerBase : Bytes → Nat
  | z :: x :: _ :: _ => if z = 0x30 ∧ (x = 0x78 ∨ x = 0x58) then 16 else 10
  | _ => 10

/-- `ParseUint32`; `unsigned long` has 64 bits. -/
def parseUint32 (value : Bytes) : UInt32 :=
  UInt32.ofNat (strtoull (integerBase value) value).1

def getOptionalDWORD (r : RDCPMapResponse) (key : Bytes) : Option Int32 :=
  (r.map.lookup (toLowerCopy key)).map fun value => (parseUint32 value).toInt32

def getUInt32 (r : RDCPMapResponse) (key : Bytes) (defaultValue : UInt32) : UInt32 :=
  ((r.map.lookup (toLowerCopy key)).map parseUint32).getD defaultValue

end RDCPMapResponse

end XbdmGdbBridge.Rdcp
