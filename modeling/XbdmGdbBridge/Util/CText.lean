import Mathlib

namespace XbdmGdbBridge

abbrev Bytes := List UInt8

/-- The bytes of a string literal of the source; every one of them is ASCII. -/
def ascii (s : String) : Bytes := s.toList.map (fun c => UInt8.ofNat c.toNat)

/-- The byte of a character literal of the source. -/
def byte (c : Char) : UInt8 := UInt8.ofNat c.toNat

namespace CText

/-- `isspace` in the C locale. -/
def isSpace (b : UInt8) : Bool := b == 0x20 || (0x09 ≤ b && b ≤ 0x0d)

/-- The value of a letter or digit as the number conversions of C read it. -/
def digitValue (b : UInt8) : Option Nat :=
  if 0x30 ≤ b ∧ b ≤ 0x39 then some (b.toNat - 0x30)
  else if 0x61 ≤ b ∧ b ≤ 0x7a then some (b.toNat - 0x61 + 10)
  else if 0x41 ≤ b ∧ b ≤ 0x5a then some (b.toNat - 0x41 + 10)
  else none

def isDigit (base : Nat) (b : UInt8) : Bool :=
  match digitValue b with
  | some d => d < base
  | none => false

def numeral (base : Nat) (digits : Bytes) : Nat :=
  digits.foldl (fun n b => n * base + (digitValue b).getD 0) 0

/-- A converted number: sign, magnitude and how many characters were used. -/
structure Scanned where
  negative : Bool
  magnitude : Nat
  length : Nat
deriving DecidableEq, Repr

/-- Length of an optional sign. -/
def signLength : Bytes → Nat
  | b :: _ => if b = 0x2b ∨ b = 0x2d then 1 else 0
  | [] => 0

/-- Length of a `0x` prefix; it only counts when a hexadecimal digit follows. -/
def hexPrefixLength : Bytes → Nat
  | z :: x :: d :: _ => if z = 0x30 ∧ (x = 0x78 ∨ x = 0x58) ∧ isDigit 16 d then 2 else 0
  | _ => 0

/-- The subject sequence shared by `strtol`, `strtoul` and `strtoull`: white
space, a sign, for base 16 a prefix, then digits. Without a digit there is no
conversion. A NUL ends the sequence since it is none of these. -/
def scanNumber (base : Nat) (s : Bytes) : Option Scanned :=
  let space := (s.takeWhile isSpace).length
  let signed := s.drop space
  let sign := signLength signed
  let body := signed.drop sign
  let skip := if base = 16 then hexPrefixLength body else 0
  let digits := (body.drop skip).takeWhile (isDigit base)
  if digits = [] then none
  else some ⟨signed.head? = some 0x2d, numeral base digits, space + sign + skip + digits.length⟩

/-- `strtol` on a host with 64-bit `long`: the value and `end - str`. -/
def strtol (base : Nat) (s : Bytes) : Int × Nat :=
  match scanNumber base s with
  | none => (0, 0)
  | some n =>
    let value : Int := if n.negative then -(n.magnitude : Int) else n.magnitude
    (max (-2 ^ 63) (min (2 ^ 63 - 1) value), n.length)

/-- `strtoull`: out-of-range input saturates, a minus sign negates modulo
`2 ^ 64`. Returns the value and `end - str`. -/
def strtoull (base : Nat) (s : Bytes) : Nat × Nat :=
  match scanNumber base s with
  | none => (0, 0)
  | some n =>
    if 2 ^ 64 ≤ n.magnitude then (2 ^ 64 - 1, n.length)
    else if n.negative then ((2 ^ 64 - n.magnitude) % 2 ^ 64, n.length)
    else (n.magnitude, n.length)

/-- Lower-case digit of `%x`. -/
def hexDigit (n : Nat) : UInt8 := if n < 10 then UInt8.ofNat (0x30 + n) else UInt8.ofNat (0x57 + n)

/-- Upper-case digit, as `boost::algorithm::hex` writes it. -/
def upperHexDigit (n : Nat) : UInt8 :=
  if n < 10 then UInt8.ofNat (0x30 + n) else UInt8.ofNat (0x37 + n)

/-- `%x` of an unsigned number. -/
def hexText (n : Nat) : Bytes :=
  if n = 0 then [0x30] else (Nat.digits 16 n).reverse.map hexDigit

/-- `%0<width>x`. -/
def hexPadded (width n : Nat) : Bytes :=
  List.replicate (width - (hexText n).length) 0x30 ++ hexText n

/-- `%02x` of a byte. -/
def hexByte (b : UInt8) : Bytes := [hexDigit (b.toNat / 16), hexDigit (b.toNat % 16)]

/-- `boost::algorithm::hex`. -/
def hexEncode (data : Bytes) : Bytes :=
  data.flatMap (fun b => [upperHexDigit (b.toNat / 16), upperHexDigit (b.toNat % 16)])

/-- `boost::split` with a one-character delimiter: empty elements are kept, so
the result is never empty. -/
def split (delim : UInt8) : Bytes → List Bytes
  | [] => [[]]
  | b :: rest =>
    if b = delim then [] :: split delim rest
    else
      match split delim rest with
      | [] => [[b]]
      | first :: others => (b :: first) :: others

theorem split_ne_nil (delim : UInt8) (text : Bytes) : split delim text ≠ [] := by
  cases text with
  | nil => exact List.cons_ne_nil _ _
  | cons c rest =>
    rw [split]
    split
    · exact List.cons_ne_nil _ _
    · split <;> exact List.cons_ne_nil _ _

theorem split_append (delim : UInt8) (text text' : Bytes) :
    split delim (text ++ delim :: text') = split delim text ++ split delim text' := by
  induction text with
  | nil => exact if_pos rfl
  | cons c text ih =>
    rw [List.cons_append, split, split, ih]
    by_cases hc : c = delim
    · rw [if_pos hc, if_pos hc]
      rfl
    · rw [if_neg hc, if_neg hc]
      obtain ⟨first, others, hfirst⟩ := List.exists_cons_of_ne_nil (split_ne_nil delim text)
      rw [hfirst]
      rfl

theorem split_last {delim : UInt8} {word : Bytes} (h : delim ∉ word) : split delim word = [word] := by
  induction word with
  | nil => rfl
  | cons c word ih =>
    rw [List.mem_cons, not_or] at h
    rw [split, if_neg (Ne.symm h.1), ih h.2]

theorem split_word {delim : UInt8} {word : Bytes} (h : delim ∉ word) (rest : Bytes) :
    split delim (word ++ delim :: rest) = word :: split delim rest := by
  rw [split_append, split_last h]
  rfl

theorem exists_mem_split {delim c : UInt8} {text : Bytes} (hc : c ≠ delim) (h : c ∈ text) :
    ∃ piece ∈ split delim text, c ∈ piece := by
  induction text with
  | nil => cases h
  | cons b rest ih =>
    obtain ⟨first, others, hsplit⟩ := List.exists_cons_of_ne_nil (split_ne_nil delim rest)
    rw [split, hsplit]
    rcases List.mem_cons.mp h with rfl | hrest
    · rw [if_neg hc]
      exact ⟨_, List.mem_cons_self, List.mem_cons_self⟩
    · obtain ⟨piece, hpiece, hmem⟩ := ih hrest
      rw [hsplit] at hpiece
      split
      · exact ⟨piece, List.mem_cons_of_mem _ hpiece, hmem⟩
      · rcases List.mem_cons.mp hpiece with rfl | hothers
        · exact ⟨_, List.mem_cons_self, List.mem_cons_of_mem _ hmem⟩
        · exact ⟨piece, List.mem_cons_of_mem _ hothers, hmem⟩

/-- `MaybeParseHexInt` before the cast to the caller's type. -/
def maybeParseHexInt (s : Bytes) : Option Nat :=
  let (value, used) := strtoull 16 s
  if used = 0 then none else some value

def hexInt32 (s : Bytes) : Option Int32 := (maybeParseHexInt s).map (fun n => (UInt32.ofNat n).toInt32)

def hexUInt32 (s : Bytes) : Option UInt32 := (maybeParseHexInt s).map UInt32.ofNat

def hexUInt64 (s : Bytes) : Option UInt64 := (maybeParseHexInt s).map UInt64.ofNat

/-- `std::string::find` of a text. -/
def findText (needle : Bytes) : Bytes → Option Nat
  | [] => if needle = [] then some 0 else none
  | b :: rest =>
    if needle.isPrefixOf (b :: rest) then some 0 else (findText needle rest).map (· + 1)

theorem hexDigit_spec : ∀ n < 16, digitValue (hexDigit n) = some n ∧ isSpace (hexDigit n) = false ∧
    hexDigit n ≠ 0x2b ∧ hexDigit n ≠ 0x2d ∧ hexDigit n ≠ 0x78 ∧ hexDigit n ≠ 0x58 := by
  decide

theorem isDigit_hexDigit (h : n < 16) : isDigit 16 (hexDigit n) = true := by
  simp [isDigit, (hexDigit_spec n h).1, h]

theorem digit_plain : ∀ c : UInt8, isDigit 16 c = true →
    isSpace c = false ∧ c ≠ 0x2b ∧ c ≠ 0x2d := by
  decide +kernel

theorem scanNumber_digits (h₁ : isDigit 16 c₁ = true) (h₂ : isDigit 16 c₂ = true) :
    scanNumber 16 [c₁, c₂] = some ⟨false, numeral 16 [c₁, c₂], 2⟩ := by
  obtain ⟨hs, hp, hm⟩ := digit_plain c₁ h₁
  simp [scanNumber, hs, signLength, hp, hm, hexPrefixLength, h₁, h₂]

theorem numeral_hexDigits (hn : n < 16) (hm : m < 16) :
    numeral 16 [hexDigit n, hexDigit m] = n * 16 + m := by
  simp [numeral, (hexDigit_spec n hn).1, (hexDigit_spec m hm).1]

theorem numeral_append (base : Nat) (a b : Bytes) :
    numeral base (a ++ b) = b.foldl (fun n c => n * base + (digitValue c).getD 0) (numeral base a) := by
  simp [numeral, List.foldl_append]

end CText

end XbdmGdbBridge
