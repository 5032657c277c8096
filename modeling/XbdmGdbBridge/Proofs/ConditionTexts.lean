import XbdmGdbBridge.Proofs.ArgWords
import XbdmGdbBridge.Proofs.ShellConditions

/-!
# Conditions as they are typed

What stands behind `if` is cut into the words of a command line and put together again before it is
evaluated as an expression.
-/

namespace XbdmGdbBridge.Proofs.ConditionTexts

open CText Rdcp Lib XBDMDebugger Shell ArgParser ArgLines

variable {σ : Type} [Xbdm σ]

section Lines

variable {address first : Bytes} {others : List XbdmGdbBridge.Argument}

end Lines

end XbdmGdbBridge.Proofs.ConditionTexts
