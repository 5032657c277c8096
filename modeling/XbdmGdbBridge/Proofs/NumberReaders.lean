import XbdmGdbBridge.Proofs.ExpressionGrammar
import XbdmGdbBridge.Proofs.ExpressionTexts
import XbdmGdbBridge.Util.ArgParser

/-!
# Numbers that are typed

A number can be read by the expression parser, by `MaybeParseUint32` and by `ArgParser::Parse` with or
without an expression parser. All of them convert to 64 bits and narrow the result, so they are exact
only where nothing is narrowed away.
-/

namespace XbdmGdbBridge.Proofs.Numbers

open Lib CText DebuggerExpressionParser Rdcp

/-- A number as it is typed: digits, or `0x` and hexadecimal digits. -/
structure Typed where
  radix : Radix
  digits : Bytes
  digits_ne_nil : digits ≠ []
  digits_valid : ∀ b ∈ digits, isDigit radix.base b = true

namespace Typed

def text (n : Typed) : Bytes :=
  n.radix.mark ++ n.digits

def value (n : Typed) : Nat :=
  numeral n.radix.base n.digits

/-- A number in range is a literal of the expressions. -/
def literal (n : Typed) (h : n.value < 2 ^ 32) : Literal :=
  ⟨n.radix, n.digits, n.digits_ne_nil, n.digits_valid, h⟩

end Typed

/-- Right results for the number `v`: the number itself, or an error for a number that has more than
32 bits. -/
def Exact (v : Nat) : Except Bytes UInt32 → Prop
  | .ok number => number.toNat = v
  | .error _ => 2 ^ 32 ≤ v

def ExactArgument (v : Nat) (type : ArgType) : ArgParser.Parsed → Prop
  | .read found number => found = type ∧ number.toNat = v
  | .syntaxError _ => 2 ^ 32 ≤ v
  | .notFound => False

/-- Every reader is right about a text, an argument of whatever type included. -/
structure ReadsExactly (text : Bytes) (v : Nat) : Prop where
  parse {τ : Type} (p : DebuggerExpressionParser τ) (s : τ) :
    ∃ r, p.parse text s = .ok (r, s) ∧ Exact v r
  maybeParseUint32 :
    (ArgParser.maybeParseUint32 text).elim (2 ^ 32 ≤ v) fun number => number.toNat = v
  argument (args : ArgParser) (index : Int) (type : ArgType)
    (h : args.argument? index = some ⟨text, type⟩) : ExactArgument v type (args.parse index)
  argumentWith {τ : Type} (p : DebuggerExpressionParser τ) (s : τ) (args : ArgParser) (index : Int)
    (type : ArgType) (h : args.argument? index = some ⟨text, type⟩) :
    ∃ r, args.parseWith index p.parse s = .ok (r, s) ∧ ExactArgument v type r

section Conversions

theorem integerBase_text (n : Typed) : RDCPMapResponse.integerBase n.text = n.radix.base := by
  obtain ⟨radix, digits, hne, hdigits⟩ := n
  obtain ⟨c, others, rfl⟩ := List.exists_cons_of_ne_nil hne
  cases radix with
  | hex | upperHex => rfl
  | decimal =>
    match others with
    | [] => rfl
    | [_] => rfl
    | x :: _ :: _ =>
      have hx := isDigit_not_prefix x (isDigit_mono x (hdigits x (by simp)))
      exact if_neg fun h => h.2.elim hx.1 hx.2

theorem scanNumber_text (n : Typed) :
    scanNumber n.radix.base n.text = some ⟨false, n.value, n.text.length⟩ := by
  obtain ⟨radix, digits, hne, hdigits⟩ := n
  have hnil : ∀ c, ([] : Bytes).head? = some c → isDigit 16 c = false := by simp
  cases radix with
  | decimal => exact scanNumber_decimal hdigits hne
  | hex =>
    have h := scanNumber_marked (.inl rfl) hdigits hne hnil
    rw [List.append_nil] at h
    rw [Nat.add_comm] at h
    exact h
  | upperHex =>
    have h := scanNumber_marked (.inr rfl) hdigits hne hnil
    rw [List.append_nil] at h
    rw [Nat.add_comm] at h
    exact h

/-- What `strtoul` found is cut to 32 bits; it is all ones from `2 ^ 64` on. -/
theorem maybeParseUint32_text (n : Typed) :
    ArgParser.maybeParseUint32 n.text = some (UInt32.ofNat (min n.value (2 ^ 64 - 1))) := by
  have hlength : n.text.length ≠ 0 := by simp [Typed.text, n.digits_ne_nil]
  have hstrtoull : strtoull n.radix.base n.text = (min n.value (2 ^ 64 - 1), n.text.length) := by
    unfold strtoull
    rw [scanNumber_text]
    by_cases hbig : 2 ^ 64 ≤ n.value
    · simp only [hbig, if_true]
      rw [Nat.min_eq_right (by omega)]
    · simp only [hbig, if_false, Bool.false_eq_true]
      rw [Nat.min_eq_left (by omega)]
  unfold ArgParser.maybeParseUint32
  rw [integerBase_text, hstrtoull]
  simp [hlength]

theorem parseHelper_text {n : Typed} (h : n.value < 2 ^ 32) :
    ArgParser.parseHelper n.text = .ok (UInt32.ofNat n.value) := by
  unfold ArgParser.parseHelper
  rw [maybeParseUint32_text, Nat.min_eq_left (by omega)]

end Conversions

section Readers

variable {τ : Type} {n : Typed}

theorem tokenize_literal (l : Literal) : Tokenizer.tokenize (Lexeme.int l).text =
    .ok [(Lexeme.int l).token 0, ⟨.endOfFile, [], 0, (Lexeme.int l).text.length⟩] := by
  have hnil : ∀ b ∈ ([] : Bytes).head?, ends false b = true := by simp
  obtain ⟨c, tail, htext, htoken⟩ := @token_int [] 0 l hnil
  rw [List.append_nil] at htext
  rw [htext] at htoken ⊢
  rw [Tokenizer.tokenize, List.length_cons, Tokenizer.loop, htoken]
  simp [bind, Except.bind, pure, Except.pure, Tokenizer.loop]

theorem parse_text (h : n.value < 2 ^ 32) (p : DebuggerExpressionParser τ) (s : τ) :
    p.parse n.text s = .ok (.ok (UInt32.ofNat n.value), s) := by
  refine gives_parse.mpr ⟨_, _, tokenize_literal (n.literal h), .expression (.int rfl) (.stop ?_), ?_⟩
  · exact le_rfl
  · rfl

theorem parseNumeric_text (h : n.value < 2 ^ 32) (type : ArgType) (causedBy : Bytes) :
    ArgParser.parseNumeric ⟨n.text, type⟩ causedBy = .read type (UInt32.ofNat n.value) := by
  rw [ArgParser.parseNumeric, parseHelper_text h]

theorem parse_argument {args : ArgParser} {index : Int} {type : ArgType} (h : n.value < 2 ^ 32)
    (hfound : args.argument? index = some ⟨n.text, type⟩) :
    args.parse index = .read type (UInt32.ofNat n.value) := by
  rw [ArgParser.parse, hfound]
  simp only [parseHelper_text h]

theorem parseWith_argument {args : ArgParser} {index : Int} {type : ArgType} (h : n.value < 2 ^ 32)
    (hfound : args.argument? index = some ⟨n.text, type⟩) (p : DebuggerExpressionParser τ) (s : τ) :
    args.parseWith index p.parse s = .ok (.read type (UInt32.ofNat n.value), s) := by
  have hparse := parse_text h p s
  unfold ArgParser.parseWith
  simp only [hfound]
  cases type with
  | quoted =>
    simp only [parseNumeric_text h]
    rfl
  | parenthesized | basic =>
    simp only [bind, StateT.bind, hparse]
    rfl

/-- The readers agree on a number and are exact where it has at most 32 bits. -/
theorem readsExactly_iff (n : Typed) : ReadsExactly n.text n.value ↔ n.value < 2 ^ 32 := by
  constructor
  · intro h
    have hmaybe := h.maybeParseUint32
    rw [maybeParseUint32_text] at hmaybe
    rw [← show _ = n.value from hmaybe]
    exact UInt32.toNat_lt _
  · intro h
    have hvalue : (UInt32.ofNat n.value).toNat = n.value := UInt32.toNat_ofNat_of_lt' h
    constructor
    case parse => exact fun p s => ⟨_, parse_text h p s, hvalue⟩
    case maybeParseUint32 =>
      rw [maybeParseUint32_text, Nat.min_eq_left (by omega)]
      exact hvalue
    case argument =>
      intro args index type hfound
      rw [parse_argument h hfound]
      exact ⟨rfl, hvalue⟩
    case argumentWith =>
      exact fun p s args index type hfound => ⟨_, parseWith_argument h hfound p s, rfl, hvalue⟩

/-- `2 ^ 32` is read as 0, and `2 ^ 64` as the highest address though the expression parser rejects
it. -/
theorem not_readsExactly_overflow :
    ArgParser.maybeParseUint32 (ascii "4294967296") = some 0 ∧
    bareParser.parse (ascii "4294967296") () = .ok (.ok 0, ()) ∧
    ArgParser.maybeParseUint32 (ascii "18446744073709551616") = some 0xFFFFFFFF ∧
    bareParser.parse (ascii "18446744073709551616") () =
      .ok (.error (ascii "Number is out of range"), ()) ∧
    (ArgParser.ofLine (ascii "break 18446744073709551616")).parseWith 0 bareParser.parse () =
      .ok (.read .basic 0xFFFFFFFF, ()) ∧
    ¬ReadsExactly (ascii "4294967296") (2 ^ 32) := by
  have hmaybe : ArgParser.maybeParseUint32 (ascii "4294967296") = some 0 := by decide
  refine ⟨hmaybe, rfl, by decide, rfl, rfl, fun h => ?_⟩
  have hwrong := h.maybeParseUint32
  rw [hmaybe] at hwrong
  exact absurd hwrong (by decide : ¬(0 : UInt32).toNat = 2 ^ 32)

end Readers

end XbdmGdbBridge.Proofs.Numbers
