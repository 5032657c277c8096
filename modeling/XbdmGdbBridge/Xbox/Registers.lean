import XbdmGdbBridge.Xbox.Target

/-!
# Register numbering

The mapping between GDB register numbers and the contexts of a thread, and the text of a full
register read.
-/

namespace XbdmGdbBridge

open CText

/-- GDB number of the first register of the float context. -/
def FLOAT_REGISTER_OFFSET : Nat := 19

def kTargetXML : Bytes :=
  ascii (
    "<?xml version=\"1.0\"?><!DOCTYPE target SYSTEM \"gdb-target.dtd\"><target>" ++
    "<architecture>i386:intel</architecture><feature name=\"i386.xbdm\"/>" ++
    "<flags id=\"i386_eflags\" size=\"4\"><field name=\"CF\" start=\"0\" end=\"0\"/>" ++
    "<field name=\"PF\" start=\"2\" end=\"2\"/><field name=\"AF\" start=\"4\" end=\"4\"/>" ++
    "<field name=\"ZF\" start=\"6\" end=\"6\"/><field name=\"SF\" start=\"7\" end=\"7\"/>" ++
    "<field name=\"TF\" start=\"8\" end=\"8\"/><field name=\"IF\" start=\"9\" end=\"9\"/>" ++
    "<field name=\"DF\" start=\"10\" end=\"10\"/><field name=\"OF\" start=\"11\" end=\"11\"/>" ++
    "<field name=\"IOPL\" start=\"12\" end=\"13\"/>" ++
    "<field name=\"NT\" start=\"14\" end=\"14\"/><field name=\"RF\" start=\"16\" end=\"16\"/>" ++
    "<field name=\"VM\" start=\"17\" end=\"17\"/><field name=\"AC\" start=\"18\" end=\"18\"/>" ++
    "<field name=\"VIF\" start=\"19\" end=\"19\"/>" ++
    "<field name=\"VIP\" start=\"20\" end=\"20\"/>" ++
    "<field name=\"ID\" start=\"21\" end=\"21\"/></flags><flags id=\"i386_cr0\" size=\"4\">" ++
    "<field name=\"PG\" start=\"31\" end=\"31\"/><field name=\"CD\" start=\"30\" end=\"30\"/>" ++
    "<field name=\"NW\" start=\"29\" end=\"29\"/><field name=\"AM\" start=\"18\" end=\"18\"/>" ++
    "<field name=\"WP\" start=\"16\" end=\"16\"/><field name=\"NE\" start=\"5\" end=\"5\"/>" ++
    "<field name=\"ET\" start=\"4\" end=\"4\"/><field name=\"TS\" start=\"3\" end=\"3\"/>" ++
    "<field name=\"EM\" start=\"2\" end=\"2\"/><field name=\"MP\" start=\"1\" end=\"1\"/>" ++
    "<field name=\"PE\" start=\"0\" end=\"0\"/></flags>" ++
    "<reg name=\"Eax\" bitsize=\"4\" type=\"int32\" regnum=\"0\"/>" ++
    "<reg name=\"Ecx\" bitsize=\"4\" type=\"int32\"/>" ++
    "<reg name=\"Edx\" bitsize=\"4\" type=\"int32\"/>" ++
    "<reg name=\"Ebx\" bitsize=\"4\" type=\"int32\"/>" ++
    "<reg name=\"Esp\" bitsize=\"4\" type=\"data_ptr\"/>" ++
    "<reg name=\"Ebp\" bitsize=\"4\" type=\"data_ptr\"/>" ++
    "<reg name=\"Esi\" bitsize=\"4\" type=\"int32\"/>" ++
    "<reg name=\"Edi\" bitsize=\"4\" type=\"int32\"/>" ++
    "<reg name=\"Eip\" bitsize=\"4\" type=\"code_ptr\"/>" ++
    "<reg name=\"EFlags\" bitsize=\"4\" type=\"int32\"/>" ++
    "<reg name=\"cs\" bitsize=\"4\" type=\"int32\"/>" ++
    "<reg name=\"ss\" bitsize=\"4\" type=\"int32\"/>" ++
    "<reg name=\"ds\" bitsize=\"4\" type=\"int32\"/>" ++
    "<reg name=\"es\" bitsize=\"4\" type=\"int32\"/>" ++
    "<reg name=\"fs\" bitsize=\"4\" type=\"int32\"/>" ++
    "<reg name=\"gs\" bitsize=\"4\" type=\"int32\"/>" ++
    "<reg name=\"ss_base\" bitsize=\"4\" type=\"int32\"/>" ++
    "<reg name=\"ds_base\" bitsize=\"4\" type=\"int32\"/>" ++
    "<reg name=\"es_base\" bitsize=\"4\" type=\"int32\"/>" ++
    "<reg name=\"fs_base\" bitsize=\"4\" type=\"int32\"/>" ++
    "<reg name=\"gs_base\" bitsize=\"4\" type=\"int32\"/>" ++
    "<reg name=\"k_gs_base\" bitsize=\"4\" type=\"int32\"/>" ++
    "<reg name=\"cr0\" bitsize=\"4\" type=\"int32\"/>" ++
    "<reg name=\"cr2\" bitsize=\"4\" type=\"int32\"/>" ++
    "<reg name=\"cr3\" bitsize=\"4\" type=\"int32\"/>" ++
    "<reg name=\"cr4\" bitsize=\"4\" type=\"int32\"/>" ++
    "<reg name=\"cr8\" bitsize=\"4\" type=\"int32\"/>" ++
    "<reg name=\"efer\" bitsize=\"4\" type=\"int32\"/>" ++
    "<reg name=\"ST0\" bitsize=\"10\" type=\"i387_ext\"/>" ++
    "<reg name=\"ST1\" bitsize=\"10\" type=\"i387_ext\"/>" ++
    "<reg name=\"ST2\" bitsize=\"10\" type=\"i387_ext\"/>" ++
    "<reg name=\"ST3\" bitsize=\"10\" type=\"i387_ext\"/>" ++
    "<reg name=\"ST4\" bitsize=\"10\" type=\"i387_ext\"/>" ++
    "<reg name=\"ST5\" bitsize=\"10\" type=\"i387_ext\"/>" ++
    "<reg name=\"ST6\" bitsize=\"10\" type=\"i387_ext\"/>" ++
    "<reg name=\"ST7\" bitsize=\"10\" type=\"i387_ext\"/>" ++
    "<reg name=\"fctrl\" bitsize=\"4\" type=\"int\" group=\"float\"/>" ++
    "<reg name=\"fstat\" bitsize=\"4\" type=\"int\" group=\"float\"/>" ++
    "<reg name=\"ftag\" bitsize=\"4\" type=\"int\" group=\"float\"/>" ++
    "<reg name=\"fiseg\" bitsize=\"4\" type=\"int\" group=\"float\"/>" ++
    "<reg name=\"fioff\" bitsize=\"4\" type=\"int\" group=\"float\"/>" ++
    "<reg name=\"foseg\" bitsize=\"4\" type=\"int\" group=\"float\"/>" ++
    "<reg name=\"fooff\" bitsize=\"4\" type=\"int\" group=\"float\"/>" ++
    "<reg name=\"fop\" bitsize=\"4\" type=\"int\" group=\"float\"/></target>")

namespace Registers

-- `%08x` of `htonl`: the bytes of the register from low to high.
def appendRegister : Option Int32 → Bytes
  | none => ascii "xxxxxxxx"
  | some v =>
    let n := v.toUInt32.toNat
    hexPadded 8 ((n % 256) * 2 ^ 24 + (n / 2 ^ 8 % 256) * 2 ^ 16 + (n / 2 ^ 16 % 256) * 2 ^ 8 +
      n / 2 ^ 24)

-- On a little-endian host `htole64` is the identity; the text is cut after twenty digits.
def append10ByteRegister : Option UInt64 → Bytes
  | none => ascii "xxxxxxxxxxxxxxxxxxxx"
  | some v => (hexPadded 20 v.toNat).take 20

/-- The general registers in the order GDB numbers them. -/
def general (c : ThreadContext) : List (Option Int32) :=
  [c.eax, c.ecx, c.edx, c.ebx, c.esp, c.ebp, c.esi, c.edi, c.eip, c.eflags]

def stack (f : ThreadFloatContext) : List Int64 :=
  [f.st0, f.st1, f.st2, f.st3, f.st4, f.st5, f.st6, f.st7]

def serializeRegisters (context : Option ThreadContext) (float : Option ThreadFloatContext) :
    Bytes :=
  let registers := match context with
    | some c => general c
    | none => List.replicate 10 none
  let floats : List (Option UInt64) := match float with
    | some f => (stack f).map (fun v => some v.toUInt64)
    | none => List.replicate 8 none
  (registers ++ List.replicate 18 none).flatMap appendRegister ++
    floats.flatMap append10ByteRegister ++ (List.replicate 8 none).flatMap appendRegister

/-- A 32-bit value is widened with its sign. The float context is not checked before it is
read. -/
def getRegister (gdbIndex : UInt32) (context : Option ThreadContext)
    (float : Option ThreadFloatContext) : Except Fault (Option UInt64) :=
  match context with
  | none => .ok none
  | some c =>
    let n := gdbIndex.toNat
    if n < 10 then .ok ((((general c)[n]?).join).map (fun v => v.toInt64.toUInt64))
    else if FLOAT_REGISTER_OFFSET ≤ n ∧ n < FLOAT_REGISTER_OFFSET + 8 then
      match float with
      | none => .error .absent
      | some f => .ok (((stack f)[n - FLOAT_REGISTER_OFFSET]?).map Int64.toUInt64)
    else .ok none

def setRegister (gdbIndex : UInt32) (value : UInt32) (c : ThreadContext) :
    Option ThreadContext :=
  let v := some value.toInt32
  match gdbIndex.toNat with
  | 0 => some { c with eax := v }
  | 1 => some { c with ecx := v }
  | 2 => some { c with edx := v }
  | 3 => some { c with ebx := v }
  | 4 => some { c with esp := v }
  | 5 => some { c with ebp := v }
  | 6 => some { c with esi := v }
  | 7 => some { c with edi := v }
  | 8 => some { c with eip := v }
  | 9 => some { c with eflags := v }
  | _ => none

def setFloatRegister (gdbIndex : UInt32) (value : UInt64) (f : ThreadFloatContext) :
    Option ThreadFloatContext :=
  let v := value.toInt64
  match gdbIndex.toNat with
  | 19 => some { f with st0 := v }
  | 20 => some { f with st1 := v }
  | 21 => some { f with st2 := v }
  | 22 => some { f with st3 := v }
  | 23 => some { f with st4 := v }
  | 24 => some { f with st5 := v }
  | 25 => some { f with st6 := v }
  | 26 => some { f with st7 := v }
  | _ => none

end Registers

end XbdmGdbBridge
