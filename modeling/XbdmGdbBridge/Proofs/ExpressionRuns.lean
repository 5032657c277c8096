import XbdmGdbBridge.Xbox.Expression

/-!
# Successful evaluations of expressions

What `DebuggerExpressionParser` does on tokens where it comes to a value, as a relation without fuel:
`Parses` says what is read of the tokens, its value and what is left.
-/

namespace XbdmGdbBridge.Proofs

open Lib DebuggerExpressionParser

variable {τ α β : Type}

/-- The evaluation comes to a value. -/
def Gives (x : Evaluation τ α) (s : τ) (a : α) (s' : τ) : Prop :=
  x.run s = .ok (.ok a, s')

section Rules

variable {s s' s'' : τ} {a : α} {b : β}

theorem gives_return {a' : α} : Gives (pure a : Evaluation τ α) s a' s' ↔ a = a' ∧ s = s' := by
  constructor
  · intro h
    cases h
    exact ⟨rfl, rfl⟩
  · rintro ⟨rfl, rfl⟩
    rfl

theorem gives_bind {x : Evaluation τ α} {f : α → Evaluation τ β} :
    Gives (x >>= f) s b s'' ↔ ∃ a s', Gives x s a s' ∧ Gives (f a) s' b s'' := by
  unfold Gives
  change (x.run >>= fun r => (ExceptT.bindCont f r : Program Fault τ (Except Bytes β))) s = _ ↔ _
  rw [Program.bind_apply]
  rcases hx : x.run s with fault | ⟨message | a, s'⟩
  · simp
  · simp only [Except.ok.injEq, Prod.mk.injEq, reduceCtorEq, false_and, exists_false, iff_false]
    intro h
    cases h
  · constructor
    · intro h
      exact ⟨a, s', rfl, h⟩
    · rintro ⟨a', m, heq, h⟩
      cases heq
      exact h

theorem not_gives_unexpected (message : Bytes) :
    ¬Gives (unexpected message : Evaluation τ α) s a s' := by
  intro h
  cases h

theorem not_gives_fault (fault : Fault) :
    ¬Gives (ExceptT.lift (Program.fault fault) : Evaluation τ α) s a s' := by
  intro h
  cases h

theorem gives_resolved {r : Except Bytes α} :
    Gives (ExceptT.mk (pure r) : Evaluation τ α) s a s' ↔ r = .ok a ∧ s = s' := by
  constructor
  · intro h
    cases h
    exact ⟨rfl, rfl⟩
  · rintro ⟨rfl, rfl⟩
    rfl

theorem gives_ite {c : Prop} [Decidable c] {x y : Evaluation τ α} :
    Gives (if c then x else y) s a s' ↔ (c ∧ Gives x s a s') ∨ (¬c ∧ Gives y s a s') := by
  by_cases hc : c <;> simp [hc]

end Rules

section Reads

theorem readValue_append (data : Bytes) (b : UInt8) :
    readValue (data ++ [b]) =
      readValue data ||| b.toUInt64 <<< UInt64.ofNat (data.length * 8) := by
  simp [readValue, List.zipIdx_append]

theorem ofDigits_bytes_lt (data : Bytes) :
    Nat.ofDigits 256 (data.map UInt8.toNat) < 2 ^ (data.length * 8) := by
  have hlt := Nat.ofDigits_lt_base_pow_length (b := 256) (l := data.map UInt8.toNat) (by decide)
    (by simp only [List.mem_map]; rintro _ ⟨b, -, rfl⟩; exact b.toNat_lt)
  rw [List.length_map] at hlt
  calc Nat.ofDigits 256 (data.map UInt8.toNat) < 256 ^ data.length := hlt
    _ = 2 ^ (data.length * 8) := by rw [Nat.mul_comm, Nat.pow_mul]

/-- The bytes do not overlap in the 64-bit number. -/
theorem toNat_readValue {data : Bytes} (h : data.length ≤ 8) :
    (readValue data).toNat = Nat.ofDigits 256 (data.map UInt8.toNat) := by
  induction data using List.reverseRecOn with
  | nil => rfl
  | append_singleton data b ih =>
    rw [List.length_append, List.length_singleton] at h
    have hdata := ih (by omega)
    have hlt := ofDigits_bytes_lt data
    have hshift : (UInt64.ofNat (data.length * 8)).toNat % 64 = data.length * 8 := by
      rw [UInt64.toNat_ofNat']
      omega
    have hbyte : b.toNat <<< (data.length * 8) < 2 ^ 64 := by
      rw [Nat.shiftLeft_eq]
      calc b.toNat * 2 ^ (data.length * 8) < 2 ^ 8 * 2 ^ (data.length * 8) :=
            Nat.mul_lt_mul_of_pos_right b.toNat_lt (Nat.two_pow_pos _)
        _ = 2 ^ (8 + data.length * 8) := (Nat.pow_add ..).symm
        _ ≤ 2 ^ 64 := Nat.pow_le_pow_right (by decide) (by omega)
    rw [readValue_append, UInt64.toNat_or, UInt64.toNat_shiftLeft, hshift, hdata,
      UInt8.toNat_toUInt64, Nat.mod_eq_of_lt hbyte, Nat.or_comm,
      ← Nat.shiftLeft_add_eq_or_of_lt hlt, List.map_append, Nat.ofDigits_append, List.length_map,
      Nat.shiftLeft_eq, List.map_singleton, Nat.ofDigits_singleton]
    have hpow : 2 ^ (data.length * 8) = 256 ^ data.length := by
      rw [Nat.mul_comm, Nat.pow_mul]
    rw [hpow]
    ring

theorem readValue_le {data : Bytes} (h : data.length ≤ 4) : readValue data ≤ 0xFFFFFFFF := by
  rw [UInt64.le_iff_toNat_le, toNat_readValue (by omega)]
  have hlt := ofDigits_bytes_lt data
  have hpow : 2 ^ (data.length * 8) ≤ 2 ^ 32 := Nat.pow_le_pow_right (by decide) (by omega)
  have hmax : (0xFFFFFFFF : UInt64).toNat = 2 ^ 32 - 1 := rfl
  omega

theorem readValue_toUInt32 {data : Bytes} (h : data.length ≤ 8) :
    (readValue data).toUInt32 = UInt32.ofNat (Nat.ofDigits 256 (data.map UInt8.toNat)) := by
  rw [← toNat_readValue h]
  exact (UInt32.ofNat_uInt64ToNat _).symm

end Reads

/-- The value of a binary operator; an opening parenthesis has none. -/
def applyOperator (type : TokenType) (left right : UInt32) : Option UInt32 :=
  match type with
  | .plus => some (left + right)
  | .minus => some (left - right)
  | .asterisk => some (left * right)
  | .eq => some (truth (left == right))
  | .notEq => some (truth (left != right))
  | .lt => some (truth (left < right))
  | .gt => some (truth (left > right))
  | .lte => some (truth (left ≤ right))
  | .gte => some (truth (left ≥ right))
  | .and => some (truth (left != 0 && right != 0))
  | .or => some (truth (left != 0 || right != 0))
  | _ => none

def rankOf (t : Token) : Nat :=
  (Precedence.of t.type).rank

/-- What is being read: an expression of some precedence, one operand, or the operators behind a
value. -/
inductive Phase where
  | expression (precedence : Precedence)
  | operand
  | infixes (precedence : Precedence) (left : UInt32)

inductive Parses (p : DebuggerExpressionParser τ) :
    Phase → List Token → τ → UInt32 → List Token → τ → Prop where
  | expression {precedence : Precedence} {ts ts₁ ts₂ : List Token} {s s₁ s₂ : τ} {left v : UInt32}
      (hleft : Parses p .operand ts s left ts₁ s₁)
      (hmore : Parses p (.infixes precedence left) ts₁ s₁ v ts₂ s₂) :
      Parses p (.expression precedence) ts s v ts₂ s₂
  | int {t : Token} {ts : List Token} {s : τ} (htype : t.type = .int) :
      Parses p .operand (t :: ts) s t.intValue ts s
  | tid {t : Token} {ts : List Token} {s : τ} {id : UInt32} (htype : t.type = .identifier)
      (hword : t.literal = ascii "tid") (hid : p.threadId = some id) :
      Parses p .operand (t :: ts) s id ts s
  | register {t : Token} {ts : List Token} {s : τ} {v : UInt32} (htype : t.type = .register)
      (hvalue : resolveRegisterValue p.context t.literal = .ok v) :
      Parses p .operand (t :: ts) s v ts s
  | group {t : Token} {ts rest : List Token} {s s' : τ} {v : UInt32} (htype : t.type = .lparen)
      (hinner : Parses p (.expression .lowest) ts s v rest s')
      (hclose : (peek rest).type = .rparen) : Parses p .operand (t :: ts) s v rest.tail s'
  | readAt {t : Token} {ts rest : List Token} {s s₁ s₂ : τ} {addr v : UInt32}
      (htype : t.type = .at) (hopen : (peek ts).type = .lparen)
      (haddr : Parses p (.expression .lowest) ts.tail s addr rest s₁)
      (hclose : (peek rest).type = .rparen) (hread : Gives (p.performRead addr 4) s₁ v s₂) :
      Parses p .operand (t :: ts) s v rest.tail s₂
  | readSized {t : Token} {ts rest rest₂ : List Token} {s s₁ s₂ s₃ : τ} {addr size v : UInt32}
      (htype : t.type = .at) (hopen : (peek ts).type = .lparen)
      (haddr : Parses p (.expression .lowest) ts.tail s addr rest s₁)
      (hcomma : (peek rest).type = .comma)
      (hsize : Parses p (.expression .lowest) rest.tail s₁ size rest₂ s₂)
      (hclose : (peek rest₂).type = .rparen) (hread : Gives (p.performRead addr size) s₂ v s₃) :
      Parses p .operand (t :: ts) s v rest₂.tail s₃
  | readBare {t : Token} {ts rest : List Token} {s s₁ s₂ : τ} {addr v : UInt32}
      (htype : t.type = .at) (hopen : (peek ts).type ≠ .lparen)
      (haddr : Parses p (.expression .highest) ts s addr rest s₁)
      (hplain : (peek rest).type ≠ .lbracket) (hread : Gives (p.performRead addr 4) s₁ v s₂) :
      Parses p .operand (t :: ts) s v rest s₂
  | readOffset {t : Token} {ts rest rest₂ : List Token} {s s₁ s₂ s₃ : τ} {addr offset v : UInt32}
      (htype : t.type = .at) (hopen : (peek ts).type ≠ .lparen)
      (haddr : Parses p (.expression .highest) ts s addr rest s₁)
      (hbracket : (peek rest).type = .lbracket)
      (hoffset : Parses p (.expression .lowest) rest.tail s₁ offset rest₂ s₂)
      (hclose : (peek rest₂).type = .rbracket)
      (hread : Gives (p.performRead (addr + offset) 4) s₂ v s₃) :
      Parses p .operand (t :: ts) s v rest₂.tail s₃
  | stop {precedence : Precedence} {ts : List Token} {s : τ} {left : UInt32}
      (hrank : rankOf (peek ts) ≤ precedence.rank) :
      Parses p (.infixes precedence left) ts s left ts s
  | operator {precedence : Precedence} {ts ts₁ ts₂ : List Token} {s s₁ s₂ : τ}
      {left right value v : UInt32} (hrank : precedence.rank < rankOf (peek ts))
      (hright : Parses p (.expression (Precedence.of (peek ts).type)) ts.tail s right ts₁ s₁)
      (hvalue : applyOperator (peek ts).type left right = some value)
      (hmore : Parses p (.infixes precedence value) ts₁ s₁ v ts₂ s₂) :
      Parses p (.infixes precedence left) ts s v ts₂ s₂

section Lengths

variable {p : DebuggerExpressionParser τ} {phase : Phase} {ts rest : List Token} {s s' : τ}
  {v : UInt32}

theorem length_tail_lt (h : (peek ts).type ≠ .endOfFile) : ts.tail.length < ts.length := by
  cases ts with
  | nil => exact absurd rfl h
  | cons t ts => simp

theorem peek_cons_tail (h : (peek ts).type ≠ .endOfFile) : peek ts :: ts.tail = ts := by
  cases ts with
  | nil => exact absurd rfl h
  | cons t ts => rfl

/-- How many tokens are taken at least. -/
def Phase.taken : Phase → Nat
  | expression _ | operand => 1
  | infixes _ _ => 0

theorem Parses.length (h : Parses p phase ts s v rest s') : rest.length + phase.taken ≤ ts.length := by
  induction h with
  | expression hleft hmore ihleft ihmore =>
    simp only [Phase.taken] at ihleft ihmore ⊢
    omega
  | int htype => simp [Phase.taken]
  | tid htype hword hid => simp [Phase.taken]
  | register htype hvalue => simp [Phase.taken]
  | group htype hinner hclose ih =>
    simp only [Phase.taken, List.length_cons, List.length_tail] at ih ⊢
    omega
  | readAt htype hopen haddr hclose hread ih =>
    simp only [Phase.taken, List.length_cons, List.length_tail] at ih ⊢
    omega
  | readSized htype hopen haddr hcomma hsize hclose hread ihaddr ihsize =>
    simp only [Phase.taken, List.length_cons, List.length_tail] at ihaddr ihsize ⊢
    omega
  | readBare htype hopen haddr hplain hread ih =>
    simp only [Phase.taken, List.length_cons] at ih ⊢
    omega
  | readOffset htype hopen haddr hbracket hoffset hclose hread ihaddr ihoffset =>
    simp only [Phase.taken, List.length_cons, List.length_tail] at ihaddr ihoffset ⊢
    omega
  | stop hrank => simp [Phase.taken]
  | operator hrank hright hvalue hmore ihright ihmore =>
    simp only [Phase.taken, List.length_tail] at ihright ihmore ⊢
    omega

end Lengths

section Sound

variable {p : DebuggerExpressionParser τ} {n : Nat} {t : Token} {ts rest : List Token} {s s' : τ}
  {v left : UInt32} {precedence : Precedence}
  {expression : Precedence → List Token → Evaluation τ (UInt32 × List Token)}

/-- The recursive calls are right on as many tokens. -/
def SoundUpTo (p : DebuggerExpressionParser τ) (n : Nat)
    (expression : Precedence → List Token → Evaluation τ (UInt32 × List Token)) : Prop :=
  ∀ precedence ts s v rest s', ts.length ≤ n → Gives (expression precedence ts) s (v, rest) s' →
    Parses p (.expression precedence) ts s v rest s'

theorem gives_close {k : Evaluation τ (UInt32 × List Token)} {ts : List Token} {type : TokenType}
    {message : Bytes} :
    Gives (if (peek ts).type ≠ type then unexpected message else k) s (v, rest) s' ↔
      (peek ts).type = type ∧ Gives k s (v, rest) s' := by
  rw [gives_ite]
  constructor
  · rintro (⟨-, h⟩ | ⟨hclose, h⟩)
    · exact absurd h (not_gives_unexpected _)
    · exact ⟨not_not.mp hclose, h⟩
  · rintro ⟨hclose, h⟩
    exact .inr ⟨not_not.mpr hclose, h⟩

theorem gives_value {x : Evaluation τ UInt32} {ts : List Token} :
    Gives (x >>= fun value => pure (value, ts)) s (v, rest) s' ↔ ts = rest ∧ Gives x s v s' := by
  rw [gives_bind]
  constructor
  · rintro ⟨value, m, hx, hpure⟩
    obtain ⟨heq, rfl⟩ := gives_return.mp hpure
    obtain ⟨rfl, rfl⟩ := Prod.mk.inj heq
    exact ⟨rfl, hx⟩
  · rintro ⟨rfl, hx⟩
    exact ⟨v, s', hx, gives_return.mpr ⟨rfl, rfl⟩⟩

theorem gives_parseSizedRead :
    Gives (parseSizedRead p expression ts) s (v, rest) s' ↔
      ∃ addr rest₁ s₁, Gives (expression .lowest ts) s (addr, rest₁) s₁ ∧
        (((peek rest₁).type = .comma ∧ ∃ size rest₂ s₂,
            Gives (expression .lowest rest₁.tail) s₁ (size, rest₂) s₂ ∧
            (peek rest₂).type = .rparen ∧ rest₂.tail = rest ∧
            Gives (p.performRead addr size) s₂ v s') ∨
          ((peek rest₁).type = .rparen ∧ rest₁.tail = rest ∧
            Gives (p.performRead addr 4) s₁ v s')) := by
  unfold parseSizedRead
  rw [gives_bind]
  constructor
  · rintro ⟨⟨addr, rest₁⟩, s₁, haddr, h⟩
    refine ⟨addr, rest₁, s₁, haddr, ?_⟩
    rcases gives_ite.mp h with ⟨hcomma, h⟩ | ⟨-, h⟩
    · obtain ⟨⟨size, rest₂⟩, s₂, hsize, h⟩ := gives_bind.mp h
      obtain ⟨hclose, h⟩ := gives_close.mp h
      obtain ⟨htail, hread⟩ := gives_value.mp h
      exact .inl ⟨hcomma, size, rest₂, s₂, hsize, hclose, htail, hread⟩
    · obtain ⟨size, s₂, hpure, h⟩ := gives_bind.mp h
      obtain ⟨rfl, rfl⟩ := gives_return.mp hpure
      obtain ⟨hclose, h⟩ := gives_close.mp h
      obtain ⟨htail, hread⟩ := gives_value.mp h
      exact .inr ⟨hclose, htail, hread⟩
  · rintro ⟨addr, rest₁, s₁, haddr, hcases⟩
    refine ⟨(addr, rest₁), s₁, haddr, ?_⟩
    rcases hcases with ⟨hcomma, size, rest₂, s₂, hsize, hclose, htail, hread⟩ | ⟨hclose, htail, hread⟩
    · refine gives_ite.mpr (.inl ⟨hcomma, gives_bind.mpr ⟨(size, rest₂), s₂, hsize, ?_⟩⟩)
      exact gives_close.mpr ⟨hclose, gives_value.mpr ⟨htail, hread⟩⟩
    · have hcomma : (peek rest₁).type ≠ .comma := by simp [hclose]
      refine gives_ite.mpr (.inr ⟨hcomma, gives_bind.mpr ⟨(4, rest₁), s₁, ?_, ?_⟩⟩)
      · exact gives_return.mpr ⟨rfl, rfl⟩
      · exact gives_close.mpr ⟨hclose, gives_value.mpr ⟨htail, hread⟩⟩

theorem gives_parseBareRead :
    Gives (parseBareRead p expression ts) s (v, rest) s' ↔
      ∃ addr rest₁ s₁, Gives (expression .highest ts) s (addr, rest₁) s₁ ∧
        (((peek rest₁).type = .lbracket ∧ ∃ offset rest₂ s₂,
            Gives (expression .lowest rest₁.tail) s₁ (offset, rest₂) s₂ ∧
            (peek rest₂).type = .rbracket ∧ rest₂.tail = rest ∧
            Gives (p.performRead (addr + offset) 4) s₂ v s') ∨
          ((peek rest₁).type ≠ .lbracket ∧ rest₁ = rest ∧
            Gives (p.performRead addr 4) s₁ v s')) := by
  unfold parseBareRead
  rw [gives_bind]
  constructor
  · rintro ⟨⟨addr, rest₁⟩, s₁, haddr, h⟩
    refine ⟨addr, rest₁, s₁, haddr, ?_⟩
    rcases gives_ite.mp h with ⟨hbracket, h⟩ | ⟨hplain, h⟩
    · obtain ⟨⟨offset, rest₂⟩, s₂, hoffset, h⟩ := gives_bind.mp h
      obtain ⟨hclose, h⟩ := gives_close.mp h
      obtain ⟨htail, hread⟩ := gives_value.mp h
      exact .inl ⟨hbracket, offset, rest₂, s₂, hoffset, hclose, htail, hread⟩
    · obtain ⟨htail, hread⟩ := gives_value.mp h
      exact .inr ⟨hplain, htail, hread⟩
  · rintro ⟨addr, rest₁, s₁, haddr, hcases⟩
    refine ⟨(addr, rest₁), s₁, haddr, ?_⟩
    rcases hcases with ⟨hbracket, offset, rest₂, s₂, hoffset, hclose, htail, hread⟩ |
      ⟨hplain, htail, hread⟩
    · refine gives_ite.mpr (.inl ⟨hbracket, gives_bind.mpr ⟨(offset, rest₂), s₂, hoffset, ?_⟩⟩)
      exact gives_close.mpr ⟨hclose, gives_value.mpr ⟨htail, hread⟩⟩
    · exact gives_ite.mpr (.inr ⟨hplain, gives_value.mpr ⟨htail, hread⟩⟩)

theorem gives_parseInfix :
    Gives (parseInfix expression t left ts) s (v, rest) s' ↔
      ∃ right, Gives (expression (Precedence.of t.type) ts) s (right, rest) s' ∧
        applyOperator t.type left right = some v := by
  unfold parseInfix applyOperator
  rw [gives_bind]
  constructor
  · rintro ⟨⟨right, rest₁⟩, s₁, hright, h⟩
    cases htype : t.type <;> rw [htype] at h hright <;> dsimp only at h
    all_goals first
      | exact absurd h (not_gives_fault _)
      | (obtain ⟨heq, rfl⟩ := gives_return.mp h
         obtain ⟨rfl, rfl⟩ := Prod.mk.inj heq
         exact ⟨right, hright, rfl⟩)
  · rintro ⟨right, hright, hvalue⟩
    refine ⟨(right, rest), s', hright, ?_⟩
    cases htype : t.type <;> rw [htype] at hvalue <;> dsimp only at hvalue ⊢
    all_goals cases hvalue
    all_goals exact gives_return.mpr ⟨rfl, rfl⟩

theorem parses_of_parseSizedRead (hexpr : SoundUpTo p n expression) (hlength : ts.length ≤ n)
    (htype : t.type = .at) (hopen : (peek ts).type = .lparen)
    (h : Gives (parseSizedRead p expression ts.tail) s (v, rest) s') :
    Parses p .operand (t :: ts) s v rest s' := by
  have htail : ts.tail.length ≤ n := by
    rw [List.length_tail]
    omega
  obtain ⟨addr, rest₁, s₁, haddr, hcases⟩ := gives_parseSizedRead.mp h
  have haddr := hexpr _ _ _ _ _ _ htail haddr
  rcases hcases with ⟨hcomma, size, rest₂, s₂, hsize, hclose, rfl, hread⟩ | ⟨hclose, rfl, hread⟩
  · have hlength₁ := haddr.length
    have hsize := hexpr _ _ _ _ _ _ (by rw [List.length_tail]; omega) hsize
    exact .readSized htype hopen haddr hcomma hsize hclose hread
  · exact .readAt htype hopen haddr hclose hread

theorem parses_of_parseBareRead (hexpr : SoundUpTo p n expression) (hlength : ts.length ≤ n)
    (htype : t.type = .at) (hopen : (peek ts).type ≠ .lparen)
    (h : Gives (parseBareRead p expression ts) s (v, rest) s') :
    Parses p .operand (t :: ts) s v rest s' := by
  obtain ⟨addr, rest₁, s₁, haddr, hcases⟩ := gives_parseBareRead.mp h
  have haddr := hexpr _ _ _ _ _ _ hlength haddr
  rcases hcases with ⟨hbracket, offset, rest₂, s₂, hoffset, hclose, rfl, hread⟩ |
    ⟨hplain, rfl, hread⟩
  · have hlength₁ := haddr.length
    have hoffset := hexpr _ _ _ _ _ _ (by rw [List.length_tail]; omega) hoffset
    exact .readOffset htype hopen haddr hbracket hoffset hclose hread
  · exact .readBare htype hopen haddr hplain hread

theorem parses_of_parsePrefix (hexpr : SoundUpTo p n expression) (hlength : ts.length ≤ n)
    (h : Gives (parsePrefix p expression t ts) s (v, rest) s') :
    Parses p .operand (t :: ts) s v rest s' := by
  unfold parsePrefix at h
  split at h
  next htype =>
    obtain ⟨heq, rfl⟩ := gives_return.mp h
    obtain ⟨rfl, rfl⟩ := Prod.mk.inj heq
    exact .int htype
  next htype =>
    rcases gives_ite.mp h with ⟨hword, h⟩ | ⟨-, h⟩
    · cases hid : p.threadId with
      | none =>
        rw [hid] at h
        exact absurd h (not_gives_unexpected _)
      | some id =>
        rw [hid] at h
        obtain ⟨heq, rfl⟩ := gives_return.mp h
        obtain ⟨rfl, rfl⟩ := Prod.mk.inj heq
        exact .tid htype hword hid
    · exact absurd h (not_gives_unexpected _)
  next htype =>
    obtain ⟨rfl, hresolved⟩ := gives_value.mp h
    obtain ⟨hvalue, rfl⟩ := gives_resolved.mp hresolved
    exact .register htype hvalue
  next htype =>
    obtain ⟨⟨value, rest₁⟩, s₁, hinner, h⟩ := gives_bind.mp h
    obtain ⟨hclose, h⟩ := gives_close.mp h
    obtain ⟨heq, rfl⟩ := gives_return.mp h
    obtain ⟨rfl, rfl⟩ := Prod.mk.inj heq
    exact .group htype (hexpr _ _ _ _ _ _ hlength hinner) hclose
  next htype =>
    rcases gives_ite.mp h with ⟨hopen, h⟩ | ⟨hopen, h⟩
    · exact parses_of_parseSizedRead hexpr hlength htype hopen h
    · exact parses_of_parseBareRead hexpr hlength htype hopen h
  next => exact absurd h (not_gives_unexpected _)

theorem one_le_rank (precedence : Precedence) : 1 ≤ precedence.rank := by
  cases precedence <;> decide

theorem parses_of_infixLoop {fuel : Nat} (hexpr : SoundUpTo p n expression)
    (hlength : ts.length ≤ n) (hfuel : ts.length ≤ fuel)
    (h : Gives (infixLoop expression precedence fuel left ts) s (v, rest) s') :
    Parses p (.infixes precedence left) ts s v rest s' := by
  induction fuel generalizing left ts s with
  | zero =>
    obtain rfl : ts = [] := List.eq_nil_of_length_eq_zero (Nat.le_zero.mp hfuel)
    obtain ⟨heq, rfl⟩ := gives_return.mp h
    obtain ⟨rfl, rfl⟩ := Prod.mk.inj heq
    exact .stop (one_le_rank precedence)
  | succ fuel ih =>
    rw [infixLoop] at h
    rcases gives_ite.mp h with ⟨hrank, h⟩ | ⟨hrank, h⟩
    · obtain ⟨⟨value, rest₁⟩, s₁, hinfix, hloop⟩ := gives_bind.mp h
      obtain ⟨right, hright, hvalue⟩ := gives_parseInfix.mp hinfix
      have hright := hexpr _ _ _ _ _ _ (by rw [List.length_tail]; omega) hright
      have hshorter := hright.length
      rw [Phase.taken, List.length_tail] at hshorter
      exact .operator hrank hright hvalue (ih (by omega) (by omega) hloop)
    · obtain ⟨heq, rfl⟩ := gives_return.mp h
      obtain ⟨rfl, rfl⟩ := Prod.mk.inj heq
      exact .stop (not_lt.mp hrank)

theorem parses_of_parseExpression (fuel : Nat) : SoundUpTo p fuel (parseExpression p fuel) := by
  induction fuel with
  | zero =>
    intro precedence ts s v rest s' _ h
    exact absurd h (not_gives_unexpected _)
  | succ fuel ih =>
    intro precedence ts s v rest s' hlength h
    rw [parseExpression] at h
    rcases gives_ite.mp h with ⟨-, h⟩ | ⟨hmore, h⟩
    · exact absurd h (not_gives_unexpected _)
    obtain ⟨⟨left, rest₁⟩, s₁, hleft, hloop⟩ := gives_bind.mp h
    have htail := length_tail_lt hmore
    have hoperand := parses_of_parsePrefix ih (by omega) hleft
    have hshorter := hoperand.length
    rw [Phase.taken, List.length_cons] at hshorter
    rw [peek_cons_tail hmore] at hoperand
    exact .expression hoperand (parses_of_infixLoop ih (by omega) (by omega) hloop)

end Sound

section Complete

variable {p : DebuggerExpressionParser τ} {phase : Phase} {ts rest : List Token} {s s' : τ}
  {v left : UInt32} {precedence : Precedence}

/-- What the evaluator does in a phase, with fuel enough for the tokens. -/
def Phase.Runs (p : DebuggerExpressionParser τ) (ts : List Token) (s : τ) (v : UInt32)
    (rest : List Token) (s' : τ) : Phase → Prop
  | expression precedence => ∀ fuel, ts.length ≤ fuel →
      Gives (parseExpression p fuel precedence ts) s (v, rest) s'
  | operand => ∀ fuel, ts.length ≤ fuel + 1 →
      Gives (parsePrefix p (parseExpression p fuel) (peek ts) ts.tail) s (v, rest) s'
  | infixes precedence left => ∀ fuel turns, ts.length ≤ fuel → ts.length ≤ turns →
      Gives (infixLoop (parseExpression p fuel) precedence turns left ts) s (v, rest) s'

theorem Parses.peek_ne_end (h : Parses p .operand ts s v rest s') :
    (peek ts).type ≠ .endOfFile := by
  cases h <;> simp_all [peek]

theorem runs_expression {ts₁ : List Token} {s₁ : τ} (hleft : Parses p .operand ts s left ts₁ s₁)
    (ihleft : Phase.operand.Runs p ts s left ts₁ s₁)
    (ihmore : (Phase.infixes precedence left).Runs p ts₁ s₁ v rest s') :
    (Phase.expression precedence).Runs p ts s v rest s' := by
  intro fuel hfuel
  have hlength := hleft.length
  simp only [Phase.taken] at hlength
  obtain ⟨fuel, rfl⟩ : ∃ n, fuel = n + 1 := ⟨fuel - 1, by omega⟩
  rw [parseExpression]
  refine gives_ite.mpr (.inr ⟨hleft.peek_ne_end, gives_bind.mpr ⟨(left, ts₁), s₁, ihleft fuel hfuel, ?_⟩⟩)
  exact ihmore fuel fuel (by omega) (by omega)

theorem runs_operator {ts₁ : List Token} {s₁ : τ} {right value : UInt32}
    (hrank : precedence.rank < rankOf (peek ts))
    (hright : Parses p (.expression (Precedence.of (peek ts).type)) ts.tail s right ts₁ s₁)
    (ihright : (Phase.expression (Precedence.of (peek ts).type)).Runs p ts.tail s right ts₁ s₁)
    (hvalue : applyOperator (peek ts).type left right = some value)
    (ihmore : (Phase.infixes precedence value).Runs p ts₁ s₁ v rest s') :
    (Phase.infixes precedence left).Runs p ts s v rest s' := by
  intro fuel turns hfuel hturns
  have hlength := hright.length
  simp only [Phase.taken, List.length_tail] at hlength
  obtain ⟨turns, rfl⟩ : ∃ n, turns = n + 1 := ⟨turns - 1, by omega⟩
  rw [infixLoop]
  refine gives_ite.mpr (.inl ⟨hrank, gives_bind.mpr ⟨(value, ts₁), s₁, ?_, ?_⟩⟩)
  · exact gives_parseInfix.mpr
      ⟨right, ihright fuel (by rw [List.length_tail]; omega), hvalue⟩
  · exact ihmore fuel turns (by omega) (by omega)

theorem runs_stop (hrank : rankOf (peek ts) ≤ precedence.rank) :
    (Phase.infixes precedence left).Runs p ts s left ts s := by
  intro fuel turns _ _
  cases turns with
  | zero => exact gives_return.mpr ⟨rfl, rfl⟩
  | succ turns =>
    rw [infixLoop]
    exact gives_ite.mpr (.inr ⟨not_lt.mpr hrank, gives_return.mpr ⟨rfl, rfl⟩⟩)

theorem Parses.runs (h : Parses p phase ts s v rest s') : phase.Runs p ts s v rest s' := by
  induction h with
  | expression hleft hmore ihleft ihmore => exact runs_expression hleft ihleft ihmore
  | stop hrank => exact runs_stop hrank
  | operator hrank hright hvalue hmore ihright ihmore =>
    exact runs_operator hrank hright ihright hvalue ihmore
  | int htype =>
    intro fuel _
    simp only [parsePrefix, peek, List.headD_cons, htype]
    exact gives_return.mpr ⟨rfl, rfl⟩
  | tid htype hword hid =>
    intro fuel _
    simp only [parsePrefix, peek, List.headD_cons, htype, hword, if_true, hid]
    exact gives_return.mpr ⟨rfl, rfl⟩
  | register htype hvalue =>
    intro fuel _
    simp only [parsePrefix, peek, List.headD_cons, htype]
    exact gives_value.mpr ⟨rfl, gives_resolved.mpr ⟨hvalue, rfl⟩⟩
  | group htype hinner hclose ih =>
    intro fuel hfuel
    simp only [parsePrefix, peek, List.headD_cons, htype]
    refine gives_bind.mpr ⟨(_, _), _, ih fuel (by simpa using hfuel), ?_⟩
    exact gives_close.mpr ⟨hclose, gives_return.mpr ⟨rfl, rfl⟩⟩
  | readAt htype hopen haddr hclose hread ih =>
    intro fuel hfuel
    simp only [List.length_cons] at hfuel
    simp only [parsePrefix, peek, List.headD_cons, htype]
    refine gives_ite.mpr (.inl ⟨hopen, gives_parseSizedRead.mpr ⟨_, _, _, ih fuel ?_, ?_⟩⟩)
    · exact (List.length_tail ..).trans_le (by omega)
    · exact .inr ⟨hclose, rfl, hread⟩
  | readSized htype hopen haddr hcomma hsize hclose hread ihaddr ihsize =>
    intro fuel hfuel
    have hlength := haddr.length
    simp only [List.length_cons, Phase.taken, List.length_tail] at hfuel hlength
    simp only [parsePrefix, peek, List.headD_cons, htype]
    refine gives_ite.mpr (.inl ⟨hopen, gives_parseSizedRead.mpr ⟨_, _, _, ihaddr fuel ?_, ?_⟩⟩)
    · exact (List.length_tail ..).trans_le (by omega)
    · refine .inl ⟨hcomma, _, _, _, ihsize fuel ?_, hclose, rfl, hread⟩
      exact (List.length_tail ..).trans_le (by omega)
  | readBare htype hopen haddr hplain hread ih =>
    intro fuel hfuel
    simp only [parsePrefix, peek, List.headD_cons, htype]
    refine gives_ite.mpr (.inr ⟨hopen, gives_parseBareRead.mpr ⟨_, _, _, ih fuel ?_, ?_⟩⟩)
    · simpa using hfuel
    · exact .inr ⟨hplain, rfl, hread⟩
  | readOffset htype hopen haddr hbracket hoffset hclose hread ihaddr ihoffset =>
    intro fuel hfuel
    have hlength := haddr.length
    simp only [List.length_cons, Phase.taken] at hfuel hlength
    simp only [parsePrefix, peek, List.headD_cons, htype]
    refine gives_ite.mpr (.inr ⟨hopen, gives_parseBareRead.mpr ⟨_, _, _, ihaddr fuel ?_, ?_⟩⟩)
    · simpa using hfuel
    · refine .inl ⟨hbracket, _, _, _, ihoffset fuel ?_, hclose, rfl, hread⟩
      exact (List.length_tail ..).trans_le (by omega)

theorem gives_parse {expr : Bytes} :
    Gives (p.parse expr) s v s' ↔ ∃ tokens rest, Tokenizer.tokenize expr = .ok tokens ∧
      Parses p (.expression .lowest) tokens s v rest s' ∧ (peek rest).type = .endOfFile := by
  unfold parse
  cases htokens : Tokenizer.tokenize expr with
  | error message =>
    simp only [reduceCtorEq, false_and, exists_false, iff_false]
    exact not_gives_unexpected _
  | ok tokens =>
    constructor
    · intro h
      obtain ⟨-, h⟩ | ⟨-, h⟩ := gives_ite.mp h
      · exact absurd h (not_gives_unexpected _)
      obtain ⟨⟨value, rest⟩, s₁, hparse, h⟩ := gives_bind.mp h
      obtain ⟨-, h⟩ | ⟨hend, h⟩ := gives_ite.mp h
      · exact absurd h (not_gives_unexpected _)
      obtain ⟨rfl, rfl⟩ := gives_return.mp h
      exact ⟨tokens, rest, rfl, parses_of_parseExpression _ _ _ _ _ _ _ le_rfl hparse,
        not_not.mp hend⟩
    · rintro ⟨_, rest, heq, hparses, hend⟩
      obtain rfl := Except.ok.inj heq
      have hmore : (peek tokens).type ≠ .endOfFile := by
        cases hparses with
        | expression hleft hmore => exact hleft.peek_ne_end
      refine gives_ite.mpr (.inr ⟨hmore, gives_bind.mpr ⟨(v, rest), s', ?_, ?_⟩⟩)
      · exact hparses.runs _ le_rfl
      · exact gives_ite.mpr (.inr ⟨not_not.mpr hend, gives_return.mpr ⟨rfl, rfl⟩⟩)

end Complete

end XbdmGdbBridge.Proofs
