import XbdmGdbBridge.Proofs.ExpressionRuns

/-!
# Evaluations that fail an assertion

An opening parenthesis has the precedence of a call, but nothing handles it behind a value. `Called`
says where the evaluator comes to one, as a relation without fuel beside `Parses`.
-/

namespace XbdmGdbBridge.Proofs

open Lib DebuggerExpressionParser

variable {τ α β : Type}

section Rules

variable {s s' : τ} {fault : Fault}

end Rules

/-- An opening parenthesis is met behind a value, and an operand can be read behind it. Everything
in front of it is read first. -/
inductive Called (p : DebuggerExpressionParser τ) : Phase → List Token → τ → Prop where
  | first {precedence : Precedence} {ts : List Token} {s : τ} (h : Called p .operand ts s) :
      Called p (.expression precedence) ts s
  | behind {precedence : Precedence} {ts ts₁ : List Token} {s s₁ : τ} {left : UInt32}
      (hleft : Parses p .operand ts s left ts₁ s₁)
      (h : Called p (.infixes precedence left) ts₁ s₁) : Called p (.expression precedence) ts s
  | group {t : Token} {ts : List Token} {s : τ} (htype : t.type = .lparen)
      (h : Called p (.expression .lowest) ts s) : Called p .operand (t :: ts) s
  | address {t : Token} {ts : List Token} {s : τ} (htype : t.type = .at)
      (hopen : (peek ts).type = .lparen) (h : Called p (.expression .lowest) ts.tail s) :
      Called p .operand (t :: ts) s
  | size {t : Token} {ts rest : List Token} {s s₁ : τ} {addr : UInt32} (htype : t.type = .at)
      (hopen : (peek ts).type = .lparen)
      (haddr : Parses p (.expression .lowest) ts.tail s addr rest s₁)
      (hcomma : (peek rest).type = .comma) (h : Called p (.expression .lowest) rest.tail s₁) :
      Called p .operand (t :: ts) s
  | bare {t : Token} {ts : List Token} {s : τ} (htype : t.type = .at)
      (hopen : (peek ts).type ≠ .lparen) (h : Called p (.expression .highest) ts s) :
      Called p .operand (t :: ts) s
  | offset {t : Token} {ts rest : List Token} {s s₁ : τ} {addr : UInt32} (htype : t.type = .at)
      (hopen : (peek ts).type ≠ .lparen)
      (haddr : Parses p (.expression .highest) ts s addr rest s₁)
      (hbracket : (peek rest).type = .lbracket) (h : Called p (.expression .lowest) rest.tail s₁) :
      Called p .operand (t :: ts) s
  | call {precedence : Precedence} {ts ts₁ : List Token} {s s₁ : τ} {left right : UInt32}
      (hrank : precedence.rank < rankOf (peek ts)) (hopen : (peek ts).type = .lparen)
      (hright : Parses p (.expression .call) ts.tail s right ts₁ s₁) :
      Called p (.infixes precedence left) ts s
  | right {precedence : Precedence} {ts : List Token} {s : τ} {left : UInt32}
      (hrank : precedence.rank < rankOf (peek ts))
      (h : Called p (.expression (Precedence.of (peek ts).type)) ts.tail s) :
      Called p (.infixes precedence left) ts s
  | more {precedence : Precedence} {ts ts₁ : List Token} {s s₁ : τ} {left right value : UInt32}
      (hrank : precedence.rank < rankOf (peek ts))
      (hright : Parses p (.expression (Precedence.of (peek ts).type)) ts.tail s right ts₁ s₁)
      (hvalue : applyOperator (peek ts).type left right = some value)
      (h : Called p (.infixes precedence value) ts₁ s₁) : Called p (.infixes precedence left) ts s

section Sound

variable {p : DebuggerExpressionParser τ} {n : Nat} {t : Token} {ts : List Token} {s : τ}
  {left : UInt32} {precedence : Precedence} {fault : Fault}
  {expression : Precedence → List Token → Evaluation τ (UInt32 × List Token)}

end Sound

section Complete

variable {p : DebuggerExpressionParser τ} {phase : Phase} {ts : List Token} {s : τ}

theorem Called.peek_ne_end (h : Called p .operand ts s) : (peek ts).type ≠ .endOfFile := by
  cases h <;> simp_all [peek]

end Complete

end XbdmGdbBridge.Proofs
