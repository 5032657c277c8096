import XbdmGdbBridge.Util.Numerals
import XbdmGdbBridge.Xbox.Target

/-!
# Requests on the wire

The text of a request as `RDCPRequest` puts it together.
-/

namespace XbdmGdbBridge.Rdcp

open CText

def MAXIMUM_SEND_LENGTH : Nat := 512

def kTerminator : Bytes := [0x0d, 0x0a]

/-- The conversion of `RDCPRequest` to bytes. -/
def wireText (command data : Bytes) : Bytes :=
  command ++ data ++ kTerminator

/-- `AppendHexString` of a 32-bit value. -/
def hexString (value : UInt32) : Bytes :=
  ascii "0x" ++ hexPadded 8 value.toNat

def setMemText (address : UInt32) (data : Bytes) : Bytes :=
  wireText (ascii "setmem")
    (ascii " addr=" ++ hexString address ++ ascii " data=" ++ hexEncode data)

theorem length_hexString (value : UInt32) : (hexString value).length = 10 := by
  have hle : (hexText value.toNat).length ≤ 8 := by
    apply length_hexText_le (by decide)
    exact value.toNat_lt
  simp only [hexString, hexPadded, List.length_append, List.length_replicate]
  have htext : (ascii "0x").length = 2 := rfl
  omega

theorem length_hexEncode (data : Bytes) : (hexEncode data).length = 2 * data.length := by
  unfold hexEncode
  induction data with
  | nil => rfl
  | cons b rest ih => simp [List.flatMap_cons, ih]; omega

theorem length_setMemText (address : UInt32) (data : Bytes) :
    (setMemText address data).length = 30 + 2 * data.length := by
  have hcommand : (ascii "setmem").length = 6 := rfl
  have haddress : (ascii " addr=").length = 6 := rfl
  have hdata : (ascii " data=").length = 6 := rfl
  have hend : kTerminator.length = 2 := rfl
  simp only [setMemText, wireText, List.length_append, length_hexString, length_hexEncode, hcommand,
    haddress, hdata, hend]
  omega

end XbdmGdbBridge.Rdcp
