import XbdmGdbBridge.Proofs.HandlerFaults
import XbdmGdbBridge.Proofs.ThreadContexts

/-!
# Registers as text

The `g` reply holds the registers one after the other in the order of the target description; `p`
and `P` are about one of them. The fields of `g` are cut out by the sizes the description gives.
-/

namespace XbdmGdbBridge.Proofs

open Lib CText Registers

section Fields

/-- The sizes of the registers in the order of the `reg` elements of `kTargetXML`: `Eax` to `efer`,
`ST0` to `ST7` and `fctrl` to `fop`. -/
def regSizes : List Nat :=
  List.replicate 28 4 ++ (List.replicate 8 10 ++ List.replicate 8 4)

/-- The text of register `n`, two digits for each byte. -/
def field (sizes : List Nat) (n : Nat) (text : Bytes) : Bytes :=
  (text.drop (2 * (sizes.take n).sum)).take (2 * sizes.getD n 0)

theorem field_flatten (texts : List Bytes) (sizes : List Nat) (n : Nat)
    (h : texts.map List.length = sizes.map (2 * ·)) :
    field sizes n texts.flatten = texts.getD n [] := by
  induction texts generalizing sizes n with
  | nil => simp [field]
  | cons text texts ih =>
    cases sizes with
    | nil => cases h
    | cons size sizes =>
      obtain ⟨hsize, hrest⟩ : text.length = 2 * size ∧ _ := List.cons.inj h
      cases n with
      | zero => simp [field, ← hsize]
      | succ n =>
        have hnext := ih sizes n hrest
        have hstart : 2 * ((size :: sizes).take (n + 1)).sum =
            text.length + 2 * (sizes.take n).sum := by
          rw [List.take_succ_cons, List.sum_cons, hsize]
          omega
        unfold field at hnext ⊢
        rw [hstart, List.flatten_cons, List.drop_append, List.drop_eq_nil_of_le (by omega),
          List.nil_append, Nat.add_sub_cancel_left]
        simpa using hnext

/-- The bytes of a 32-bit number in reverse. -/
def byteSwap (n : Nat) : Nat :=
  (n % 256) * 2 ^ 24 + (n / 2 ^ 8 % 256) * 2 ^ 16 + (n / 2 ^ 16 % 256) * 2 ^ 8 + n / 2 ^ 24

theorem byteSwap_lt {n : Nat} (h : n < 2 ^ 32) : byteSwap n < 16 ^ 8 := by
  unfold byteSwap
  omega

theorem appendRegister_some (v : Int32) :
    appendRegister (some v) = hexPadded 8 (byteSwap v.toUInt32.toNat) := rfl

theorem length_appendRegister (v : Option Int32) : (appendRegister v).length = 8 := by
  cases v with
  | none => rfl
  | some v => exact length_hexPadded (by decide) (byteSwap_lt v.toUInt32.toNat_lt)

theorem length_append10ByteRegister (v : Option UInt64) : (append10ByteRegister v).length = 20 := by
  cases v with
  | none => rfl
  | some v =>
    have hlength : (hexPadded 20 v.toNat).length = 20 := by
      apply length_hexPadded (by decide)
      exact Nat.lt_of_lt_of_le v.toNat_lt (by decide)
    rw [append10ByteRegister, List.length_take, hlength]
    rfl

def generals : Option ThreadContext → List (Option Int32)
  | some c => general c
  | none => List.replicate 10 none

def floats : Option ThreadFloatContext → List (Option UInt64)
  | some f => (stack f).map fun v => some v.toUInt64
  | none => List.replicate 8 none

/-- The texts of the `g` reply. -/
def registerTexts (context : Option ThreadContext) (float : Option ThreadFloatContext) :
    List Bytes :=
  (generals context ++ List.replicate 18 none).map appendRegister ++
    ((floats float).map append10ByteRegister ++ (List.replicate 8 none).map appendRegister)

theorem serializeRegisters_eq (context : Option ThreadContext)
    (float : Option ThreadFloatContext) :
    serializeRegisters context float = (registerTexts context float).flatten := by
  change (generals context ++ List.replicate 18 none).flatMap appendRegister ++
    (floats float).flatMap append10ByteRegister ++ (List.replicate 8 none).flatMap appendRegister = _
  unfold registerTexts
  rw [List.flatten_append, List.flatten_append, List.flatMap_def, List.flatMap_def,
    List.flatMap_def, List.append_assoc]

theorem field_serializeRegisters (context : Option ThreadContext)
    (float : Option ThreadFloatContext) (n : Nat) :
    field regSizes n (serializeRegisters context float) =
      (registerTexts context float).getD n [] := by
  have hwords : ∀ l : List (Option Int32),
      (l.map appendRegister).map List.length = List.replicate l.length 8 := by
    intro l
    simp [Function.comp_def, length_appendRegister, List.map_const']
  have hfloats : ∀ l : List (Option UInt64),
      (l.map append10ByteRegister).map List.length = List.replicate l.length 20 := by
    intro l
    simp [Function.comp_def, length_append10ByteRegister, List.map_const']
  rw [serializeRegisters_eq]
  apply field_flatten
  unfold registerTexts
  rw [List.map_append, hwords, List.map_append, hfloats, hwords]
  cases context <;> cases float <;> rfl

end Fields

section Reading

open GDBBridge

/-- What `p` answers for register `n` once both contexts are there. -/
def registerReply (n : Nat) (c : ThreadContext) (f : ThreadFloatContext) : Bytes :=
  match getRegister (UInt32.ofNat n) (some c) (some f) with
  | .ok (some value) => hexText value.toNat
  | _ => []

theorem answerRegister_eq {σ : Type} {t : Thread} {c : ThreadContext} {f : ThreadFloatContext}
    (hc : t.context = some c) (hf : t.floatContext = some f) (n : Nat) :
    (answerRegister (Int32.ofNat n) t : Handler σ Unit) = send (registerReply n c f) := by
  have hindex : (Int32.ofNat n).toUInt32 = UInt32.ofNat n := rfl
  have hsafe : ∃ value, getRegister (UInt32.ofNat n) (some c) (some f) = .ok value := by
    unfold getRegister
    dsimp only
    split
    · exact ⟨_, rfl⟩
    · split <;> exact ⟨_, rfl⟩
  obtain ⟨value, hvalue⟩ := hsafe
  unfold answerRegister registerReply
  rw [hc, hf, hindex, hvalue]
  cases value <;> rfl

/-- The reply to `p`, if there is one, is the register's field of the reply to `g`. -/
def Agrees (n : Nat) (c : ThreadContext) (f : ThreadFloatContext) : Prop :=
  registerReply n c f ≠ [] →
    registerReply n c f = field regSizes n (serializeRegisters (some c) (some f))

/-- A value with eight digits and the top bit clear that reads the same with its bytes in reverse. -/
def ReadsAlike (v : Int32) : Prop :=
  2 ^ 28 ≤ v.toUInt32.toNat ∧ v.toUInt32.toNat < 2 ^ 31 ∧
    byteSwap v.toUInt32.toNat = v.toUInt32.toNat

theorem toNat_signExtended (v : Int32) :
    v.toInt64.toUInt64.toNat =
      if v.toUInt32.toNat < 2 ^ 31 then v.toUInt32.toNat else 2 ^ 64 - 2 ^ 32 + v.toUInt32.toNat := by
  have hextend : v.toInt64.toUInt64.toNat = (v.toBitVec.signExtend 64).toNat := rfl
  have hvalue : v.toUInt32.toNat = v.toBitVec.toNat := rfl
  have hlt := v.toBitVec.isLt
  rw [hextend, hvalue, BitVec.toNat_signExtend, BitVec.msb_eq_decide, BitVec.toNat_setWidth]
  by_cases hneg : v.toBitVec.toNat < 2 ^ 31
  · have hmsb : ¬2 ^ (32 - 1) ≤ v.toBitVec.toNat := by omega
    simp only [hneg, if_true, hmsb, decide_false, Bool.false_eq_true, if_false]
    omega
  · have hmsb : 2 ^ (32 - 1) ≤ v.toBitVec.toNat := by omega
    simp only [hneg, if_false, hmsb, decide_true, if_true]
    omega

theorem hexText_eq_hexPadded {m w : Nat} (hw : w < 16 ^ 8) :
    hexText m = hexPadded 8 w ↔ m = w ∧ 16 ^ 7 ≤ m := by
  constructor
  · intro h
    have hvalue := congrArg (numeral 16) h
    rw [numeral_hexText, numeral_hexPadded] at hvalue
    have hlength := congrArg List.length h
    rw [length_hexPadded (by decide) hw] at hlength
    exact ⟨hvalue, (lt_length_hexText_iff (by decide)).mp (by omega)⟩
  · rintro ⟨rfl, hm⟩
    have hlength := (lt_length_hexText_iff (by decide)).mpr hm
    rw [hexPadded, Nat.sub_eq_zero_of_le (by omega), List.replicate_zero, List.nil_append]

/-- `%llx` of the widened value against the bytes of the register. -/
theorem reading_alike (v : Int32) :
    hexText v.toInt64.toUInt64.toNat = appendRegister (some v) ↔ ReadsAlike v := by
  have hlt := v.toUInt32.toNat_lt
  have hswap := byteSwap_lt hlt
  rw [appendRegister_some, hexText_eq_hexPadded hswap, toNat_signExtended]
  unfold ReadsAlike
  split
  · constructor
    · rintro ⟨heq, hlarge⟩
      exact ⟨hlarge, by assumption, heq.symm⟩
    · rintro ⟨hlarge, -, heq⟩
      exact ⟨heq.symm, hlarge⟩
  · constructor
    · rintro ⟨heq, -⟩
      omega
    · rintro ⟨-, hsmall, -⟩
      omega

/-- Register `n` is a general register that is absent or reads alike, or one `p` does not know. -/
def Alike (n : Nat) (c : ThreadContext) : Prop :=
  (∀ v, (general c)[n]? = some (some v) → ReadsAlike v) ∧ ¬(19 ≤ n ∧ n < 27)

theorem toNat_index {n : Nat} (h : n < 44) : (UInt32.ofNat n).toNat = n :=
  UInt32.toNat_ofNat_of_lt' (Nat.lt_trans h (by decide))

theorem registerReply_general (c : ThreadContext) (f : ThreadFloatContext) {n : Nat} (h : n < 10) :
    registerReply n c f =
      match (general c)[n]? with
      | some (some v) => hexText v.toInt64.toUInt64.toNat
      | _ => [] := by
  have hindex := toNat_index (show n < 44 by omega)
  unfold registerReply getRegister
  dsimp only
  rw [hindex, if_pos h]
  cases (general c)[n]? with
  | none => rfl
  | some v => cases v <;> rfl

theorem registerReply_stack (c : ThreadContext) (f : ThreadFloatContext) {n : Nat} (hlow : 19 ≤ n)
    (hhigh : n < 27) : ∃ v : Int64, registerReply n c f = hexText v.toUInt64.toNat := by
  have hindex := toNat_index (show n < 44 by omega)
  have hstack : n - 19 < (stack f).length := by
    change n - 19 < 8
    omega
  refine ⟨(stack f).get ⟨n - 19, hstack⟩, ?_⟩
  unfold registerReply getRegister
  dsimp only
  rw [hindex, if_neg (by omega), FLOAT_REGISTER_OFFSET, if_pos (by omega),
    List.getElem?_eq_getElem hstack]
  rfl

theorem registerReply_other (c : ThreadContext) (f : ThreadFloatContext) {n : Nat} (hn : n < 44)
    (hgeneral : 10 ≤ n) (hstack : ¬(19 ≤ n ∧ n < 27)) : registerReply n c f = [] := by
  have hindex := toNat_index (show n < 44 by omega)
  unfold registerReply getRegister
  dsimp only
  rw [hindex, if_neg (by omega), FLOAT_REGISTER_OFFSET, if_neg (by omega)]

theorem length_words (c : ThreadContext) :
    ((general c ++ List.replicate 18 none).map appendRegister).length = 28 := rfl

theorem registerTexts_general (c : ThreadContext) (float : Option ThreadFloatContext) {n : Nat}
    (h : n < 10) {v : Option Int32} (hv : (general c)[n]? = some v) :
    (registerTexts (some c) float).getD n [] = appendRegister v := by
  have hlength : n < (general c).length := h
  unfold registerTexts generals
  rw [List.getD_eq_getElem?_getD, List.getElem?_append_left (by rw [length_words]; omega),
    List.getElem?_map, List.getElem?_append_left hlength, hv]
  rfl

theorem registerTexts_unknown (c : ThreadContext) (float : Option ThreadFloatContext) {n : Nat}
    (hlow : 10 ≤ n) (hhigh : n < 28) :
    (registerTexts (some c) float).getD n [] = ascii "xxxxxxxx" := by
  have hlength : (general c).length = 10 := rfl
  unfold registerTexts generals
  rw [List.getD_eq_getElem?_getD, List.getElem?_append_left (by rw [length_words]; omega),
    List.getElem?_map, List.getElem?_append_right (show (general c).length ≤ n by omega), hlength,
    List.getElem?_replicate_of_lt (by omega)]
  rfl

theorem hexText_ne_unknown (n : Nat) : hexText n ≠ ascii "xxxxxxxx" := by
  intro h
  have hdigit := hexDigits_hexText n (byte 'x') (by rw [h]; decide)
  revert hdigit
  decide

theorem agrees_iff_alike (n : Fin regSizes.length) (c : ThreadContext) (f : ThreadFloatContext) :
    Agrees n c f ↔ Alike n c := by
  obtain ⟨n, hn⟩ := n
  replace hn : n < 44 := hn
  unfold Agrees Alike
  rw [field_serializeRegisters]
  dsimp only
  by_cases hgeneral : n < 10
  · obtain ⟨v, hv⟩ : ∃ v, (general c)[n]? = some v :=
      ⟨_, List.getElem?_eq_getElem (show n < (general c).length from hgeneral)⟩
    rw [registerReply_general c f hgeneral, registerTexts_general c _ hgeneral hv, hv]
    cases v with
    | none =>
      refine iff_of_true (fun h => absurd rfl h) ⟨?_, by omega⟩
      intro v hnone
      cases hnone
    | some v =>
      dsimp only
      rw [reading_alike]
      constructor
      · intro h
        refine ⟨?_, by omega⟩
        intro w hw
        cases hw
        exact h (hexText_ne_nil _)
      · exact fun h _ => h.1 v rfl
  · have habsent : (general c)[n]? = none := List.getElem?_eq_none (show 10 ≤ n by omega)
    by_cases hstack : 19 ≤ n ∧ n < 27
    · obtain ⟨v, hv⟩ := registerReply_stack c f hstack.1 hstack.2
      rw [hv, registerTexts_unknown c _ (by omega) (by omega)]
      refine iff_of_false ?_ (fun h => h.2 hstack)
      exact fun h => hexText_ne_unknown _ (h (hexText_ne_nil _))
    · rw [registerReply_other c f hn (by omega) hstack, habsent]
      refine iff_of_true (fun h => absurd rfl h) ⟨?_, hstack⟩
      intro v hv
      cases hv

/-- `Eax` is 1: `p 0` answers "1", and the first field of `g` is "01000000". -/
theorem not_agrees_one :
    ¬Agrees 0 { eax := some 1 } {} := by
  unfold Agrees
  rw [field_serializeRegisters, registerReply_general _ _ (by decide),
    registerTexts_general _ _ (by decide) rfl]
  intro h
  obtain ⟨hlarge, -⟩ := (reading_alike 1).mp (h (hexText_ne_nil _))
  revert hlarge
  decide

end Reading

end XbdmGdbBridge.Proofs
