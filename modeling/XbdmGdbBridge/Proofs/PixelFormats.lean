import Mathlib.Data.Finset.Lattice.Fold
import XbdmGdbBridge.Tracer.ImageUtil

/-!
# The channels of converted pixels

The encoder takes red, green, blue and alpha. Both converters for formats with alpha write alpha
first, so that every channel lands in the place of the next one. A buffer is converted as it should
be only where that cannot be seen.
-/

namespace XbdmGdbBridge.Proofs.PixelFormats

open NTRCTracer

/-- A way to spread a channel of some bits over a byte. -/
structure Expansion (bits : Nat) where
  value : UInt8 → UInt8
  strict : ∀ v w, v < w → w.toNat < 2 ^ bits → value v < value w
  zero : value 0 = 0
  top : ∀ v, v.toNat + 1 = 2 ^ bits → value v = 255

/-- Where a format has its channels. -/
structure Layout where
  red : UInt16 → UInt8
  green : UInt16 → UInt8
  blue : UInt16 → UInt8
  alpha : UInt16 → UInt8

def a1r5g5b5 : Layout where
  red p := channel p 10 0x1F
  green p := channel p 5 0x1F
  blue p := channel p 0 0x1F
  alpha p := channel p 15 0x01

def a4r4g4b4 : Layout where
  red p := channel p 8 0xF
  green p := channel p 4 0xF
  blue p := channel p 0 0xF
  alpha p := channel p 12 0xF

/-- An expansion for each channel. -/
structure Law (bits alphaBits : Nat) where
  red : Expansion bits
  green : Expansion bits
  blue : Expansion bits
  alpha : Expansion alphaBits

/-- A pixel as the encoder takes it. -/
def Law.rgba {bits alphaBits : Nat} (law : Law bits alphaBits) (l : Layout) (p : UInt16) : Bytes :=
  [law.red.value (l.red p), law.green.value (l.green p), law.blue.value (l.blue p),
    law.alpha.value (l.alpha p)]

/-- The pixels in order, each as some law says. -/
def Converts (f : Bytes → Except Fault Bytes) (l : Layout) (bits alphaBits : Nat) (src : Bytes) :
    Prop :=
  ∃ law : Law bits alphaBits, f src = .ok ((pixels16 src).flatMap (law.rgba l))

/-- A source, whose size has 32 bits. -/
structure Source where
  bytes : Bytes
  size_lt : bytes.length < 2 ^ 32

section Sizes

theorem flatMap_eq_iff {α : Type} {f g : α → Bytes} {n : Nat} (hf : ∀ a, (f a).length = n)
    (hg : ∀ a, (g a).length = n) (l : List α) : l.flatMap f = l.flatMap g ↔ ∀ a ∈ l, f a = g a := by
  induction l with
  | nil => simp
  | cons a l ih =>
    rw [List.flatMap_cons, List.flatMap_cons, List.forall_mem_cons, ← ih]
    constructor
    · intro h
      exact List.append_inj h ((hf a).trans (hg a).symm)
    · rintro ⟨hfirst, hrest⟩
      rw [hfirst, hrest]

theorem length_pixels16 : (src : Bytes) → (pixels16 src).length = src.length / 2
  | [] => rfl
  | [_] => by simp [pixels16]
  | low :: high :: rest => by
    rw [pixels16, List.length_cons, length_pixels16 rest, List.length_cons, List.length_cons]
    omega

theorem length_flatMap_four {α : Type} {f : α → Bytes} (hf : ∀ a, (f a).length = 4) (l : List α) :
    (l.flatMap f).length = 4 * l.length := by
  induction l with
  | nil => rfl
  | cons a l ih =>
    rw [List.flatMap_cons, List.length_append, hf, ih, List.length_cons]
    omega

/-- There is room for four bytes a pixel as long as twice the size fits 32 bits. -/
theorem convert16_eq_iff {emit spec : UInt16 → Bytes} (hemit : ∀ p, (emit p).length = 4)
    (hspec : ∀ p, (spec p).length = 4) (s : Source) :
    convert16 emit s.bytes = .ok ((pixels16 s.bytes).flatMap spec) ↔
      s.bytes.length < 2 ^ 31 ∧ ∀ p ∈ pixels16 s.bytes, emit p = spec p := by
  have hsize := s.size_lt
  have hallocated : (UInt32.ofNat s.bytes.length <<< 1).toNat = s.bytes.length * 2 % 2 ^ 32 := by
    rw [UInt32.toNat_shiftLeft, UInt32.toNat_ofNat_of_lt' hsize]
    exact congrArg (· % 2 ^ 32) (Nat.shiftLeft_eq _ _)
  have hwritten := length_flatMap_four hemit (pixels16 s.bytes)
  rw [length_pixels16] at hwritten
  rw [convert16, fitting, hallocated, hwritten, ← flatMap_eq_iff hemit hspec]
  by_cases hfits : s.bytes.length < 2 ^ 31
  · rw [if_neg (by omega), and_iff_right hfits]
    exact ⟨Except.ok.inj, congrArg _⟩
  · rw [if_pos (by omega)]
    exact iff_of_false nofun fun h => hfits h.1

end Sizes

section Channels

variable {bits : Nat} {v w : UInt8}

theorem Expansion.lt_iff (e : Expansion bits) (hv : v.toNat < 2 ^ bits) (hw : w.toNat < 2 ^ bits) :
    e.value v < e.value w ↔ v < w := by
  refine ⟨fun h => ?_, fun h => e.strict v w h hw⟩
  by_contra hle
  rcases UInt8.lt_or_eq_of_le (UInt8.not_lt.mp hle) with hlt | rfl
  · exact absurd (e.strict w v hlt hv) (UInt8.not_lt.mpr (UInt8.le_of_lt h))
  · exact absurd h (UInt8.lt_irrefl _)

theorem Expansion.eq_zero (e : Expansion bits) (hv : v.toNat < 2 ^ bits) (h : e.value v = 0) :
    v = 0 := by
  by_contra hne
  have hlt := e.strict 0 v (UInt8.pos_iff_ne_zero.mpr hne) hv
  rw [h] at hlt
  exact absurd hlt (UInt8.not_lt.mpr (UInt8.zero_le))

theorem Expansion.eq_top (e : Expansion bits) (hv : v.toNat < 2 ^ bits) (h : e.value v = 255)
    (hw : w.toNat + 1 = 2 ^ bits) : v = w := by
  by_contra hne
  have hlt : v < w := by
    have hne' : v.toNat ≠ w.toNat := mt UInt8.toNat_inj.mp hne
    exact UInt8.lt_iff_toNat_lt.mpr (by omega)
  have := e.strict v w hlt (by omega)
  rw [h, e.top w hw] at this
  exact absurd this (UInt8.lt_irrefl _)

theorem toNat_channel (p : UInt16) (shift : UInt16) (n : Nat) (mask : UInt16)
    (hshift : shift.toNat < 16) (hmask : mask.toNat = 2 ^ n - 1) (hn : n ≤ 8) :
    (channel p shift mask).toNat = p.toNat / 2 ^ shift.toNat % 2 ^ n := by
  have hpow : 2 ^ n ≤ 2 ^ 8 := Nat.pow_le_pow_right (by decide) hn
  have hlt : p.toNat / 2 ^ shift.toNat % 2 ^ n < 2 ^ n := Nat.mod_lt _ (Nat.two_pow_pos n)
  rw [channel, UInt16.toNat_toUInt8, UInt16.toNat_and, UInt16.toNat_shiftRight, hmask,
    Nat.and_two_pow_sub_one_eq_mod, Nat.shiftRight_eq_div_pow, Nat.mod_eq_of_lt hshift]
  exact Nat.mod_eq_of_lt (hlt.trans_le hpow)

end Channels

section OneBitAlpha

variable {p : UInt16}

theorem toNat_a1r5g5b5 (p : UInt16) :
    (a1r5g5b5.red p).toNat = p.toNat / 2 ^ 10 % 2 ^ 5 ∧
    (a1r5g5b5.green p).toNat = p.toNat / 2 ^ 5 % 2 ^ 5 ∧
    (a1r5g5b5.blue p).toNat = p.toNat % 2 ^ 5 ∧
    (a1r5g5b5.alpha p).toNat = p.toNat / 2 ^ 15 % 2 ^ 1 := by
  refine ⟨toNat_channel p 10 5 _ (by decide) rfl (by decide),
    toNat_channel p 5 5 _ (by decide) rfl (by decide), ?_,
    toNat_channel p 15 1 _ (by decide) rfl (by decide)⟩
  have h := toNat_channel p 0 5 0x1F (by decide) rfl (by decide)
  rw [show (0 : UInt16).toNat = 0 from rfl, pow_zero, Nat.div_one] at h
  exact h

theorem toNat_expand5 : ∀ v : UInt8, v.toNat < 2 ^ 5 →
    (expand5 v).toNat = v.toNat * 8 + v.toNat / 4 := by
  decide +kernel

theorem toNat_alpha : ∀ v : UInt8, v.toNat < 2 ^ 1 → (v * 0xFF).toNat = v.toNat * 255 := by
  decide +kernel

/-- An expansion, given what it is on the values of the channel. -/
def expansionOf (bits : Nat) (value : UInt8 → UInt8) (spread : Nat → Nat)
    (hvalue : ∀ v : UInt8, v.toNat < 2 ^ bits → (value v).toNat = spread v.toNat)
    (hstrict : ∀ v w, v < w → w < 2 ^ bits → spread v < spread w) (hzero : value 0 = 0)
    (htop : spread (2 ^ bits - 1) = 255) : Expansion bits where
  value := value
  strict v w hlt hw := by
    have hlt' : v.toNat < w.toNat := UInt8.lt_iff_toNat_lt.mp hlt
    rw [UInt8.lt_iff_toNat_lt, hvalue v (hlt'.trans hw), hvalue w hw]
    exact hstrict _ _ hlt' hw
  zero := hzero
  top v hv := by
    apply UInt8.toNat_inj.mp
    rw [hvalue v (by omega), show v.toNat = 2 ^ bits - 1 by omega, htop]
    rfl

/-- The expansions that the converter uses. -/
def spread5 : Expansion 5 :=
  expansionOf 5 expand5 (fun n => n * 8 + n / 4) toNat_expand5
    (fun v w _ _ => by omega) rfl rfl

def spread1 : Expansion 1 :=
  expansionOf 1 (· * 0xFF) (· * 255) toNat_alpha (fun v w _ _ => by omega) rfl rfl

theorem a1r5g5b5_ext {q : UInt16} (hred : a1r5g5b5.red p = a1r5g5b5.red q)
    (hgreen : a1r5g5b5.green p = a1r5g5b5.green q) (hblue : a1r5g5b5.blue p = a1r5g5b5.blue q)
    (halpha : a1r5g5b5.alpha p = a1r5g5b5.alpha q) : p = q := by
  have hp := toNat_a1r5g5b5 p
  rw [hred, hgreen, hblue, halpha] at hp
  have hq := toNat_a1r5g5b5 q
  have hp' := p.toNat_lt
  have hq' := q.toNat_lt
  apply UInt16.toNat_inj.mp
  omega

/-- What is written for a pixel is what some law says of it, only for black without alpha and white
with it. -/
theorem a1r5g5b5_pixel (law : Law 5 1)
    (h : [a1r5g5b5.alpha p * 0xFF, expand5 (a1r5g5b5.red p), expand5 (a1r5g5b5.green p),
      expand5 (a1r5g5b5.blue p)] = law.rgba a1r5g5b5 p) : p = 0 ∨ p = 0xFFFF := by
  obtain ⟨hred, hgreen, hblue, halpha⟩ := toNat_a1r5g5b5 p
  simp only [Law.rgba, List.cons.injEq, and_true] at h
  obtain ⟨h₁, h₂, h₃, -⟩ := h
  have hcases : a1r5g5b5.alpha p = 0 ∨ a1r5g5b5.alpha p = 1 := by
    rw [← UInt8.toNat_inj, ← UInt8.toNat_inj]
    exact show _ = 0 ∨ _ = 1 by omega
  rcases hcases with hclear | hset
  · -- No alpha is no red, no red is no green, no green is no blue.
    rw [hclear] at h₁
    have h₁' : a1r5g5b5.red p = 0 := law.red.eq_zero (by omega) h₁.symm
    rw [h₁'] at h₂
    have h₂' : a1r5g5b5.green p = 0 := law.green.eq_zero (by omega) h₂.symm
    rw [h₂'] at h₃
    have h₃' : a1r5g5b5.blue p = 0 := law.blue.eq_zero (by omega) h₃.symm
    exact .inl (a1r5g5b5_ext h₁' h₂' h₃' hclear)
  · rw [hset] at h₁
    have h₁' : a1r5g5b5.red p = 31 := law.red.eq_top (by omega) h₁.symm rfl
    rw [h₁'] at h₂
    have h₂' : a1r5g5b5.green p = 31 := law.green.eq_top (by omega) h₂.symm rfl
    rw [h₂'] at h₃
    have h₃' : a1r5g5b5.blue p = 31 := law.blue.eq_top (by omega) h₃.symm rfl
    exact .inr (a1r5g5b5_ext h₁' h₂' h₃' hset)

theorem a1r5g5b5_converts_iff (s : Source) :
    Converts a1r5g5b5ToRGBA888 a1r5g5b5 5 1 s.bytes ↔
      s.bytes.length < 2 ^ 31 ∧ ∀ p ∈ pixels16 s.bytes, p = 0 ∨ p = 0xFFFF := by
  have hlaw (law : Law 5 1) := @convert16_eq_iff
    (fun p => [a1r5g5b5.alpha p * 0xFF, expand5 (a1r5g5b5.red p), expand5 (a1r5g5b5.green p),
      expand5 (a1r5g5b5.blue p)]) (law.rgba a1r5g5b5) (fun _ => rfl) (fun _ => rfl) s
  constructor
  · rintro ⟨law, h⟩
    obtain ⟨hsize, hpixels⟩ := (hlaw law).mp h
    exact ⟨hsize, fun p hp => a1r5g5b5_pixel law (hpixels p hp)⟩
  · rintro ⟨hsize, hpixels⟩
    refine ⟨⟨spread5, spread5, spread5, spread1⟩, (hlaw _).mpr ⟨hsize, fun p hp => ?_⟩⟩
    rcases hpixels p hp with rfl | rfl
    · rfl
    · rfl

end OneBitAlpha

section FourBits

variable {p q : UInt16}

theorem a4r4g4b4_lt (p : UInt16) :
    (a4r4g4b4.red p).toNat < 2 ^ 4 ∧ (a4r4g4b4.green p).toNat < 2 ^ 4 ∧
    (a4r4g4b4.blue p).toNat < 2 ^ 4 ∧ (a4r4g4b4.alpha p).toNat < 2 ^ 4 := by
  have hlt (shift : UInt16) (h : shift.toNat < 16) : (channel p shift 0xF).toNat < 2 ^ 4 := by
    rw [toNat_channel p shift 4 0xF h rfl (by decide)]
    exact Nat.mod_lt _ (by decide)
  exact ⟨hlt 8 (by decide), hlt 4 (by decide), hlt 0 (by decide), hlt 12 (by decide)⟩

theorem toNat_expand4 : ∀ v : UInt8, v.toNat < 2 ^ 4 →
    (expand4 v).toNat = v.toNat * 16 + v.toNat / 2 := by
  decide +kernel

theorem expand4_lt_iff {v w : UInt8} (hv : v.toNat < 2 ^ 4) (hw : w.toNat < 2 ^ 4) :
    expand4 v < expand4 w ↔ v < w := by
  rw [UInt8.lt_iff_toNat_lt, UInt8.lt_iff_toNat_lt, toNat_expand4 v hv, toNat_expand4 w hw]
  omega

section Tables

variable (ps : Finset UInt16) (key val : UInt16 → UInt8)

-- From one value to the next that occurs, count on by one; the top goes to the top.
/-- A spread that has the expanded `val` of every pixel at its `key`. -/
def spreadAt (v : Nat) : Nat :=
  if v = 15 then 255
  else (ps.filter fun p => (key p).toNat ≤ v).sup fun p =>
    (val p).toNat * 16 + (val p).toNat / 2 + (v - (key p).toNat)

/-- The pixels are in the same order by the one channel and by the other, with nothing at the top. -/
structure InOrder : Prop where
  zero : 0 ∈ ps
  key_zero : key 0 = 0
  val_zero : val 0 = 0
  key_lt : ∀ p ∈ ps, (key p).toNat < 15
  val_lt : ∀ p ∈ ps, (val p).toNat < 15
  order : ∀ p ∈ ps, ∀ q ∈ ps, key p < key q ↔ val p < val q

variable {ps}

theorem le_spreadAt {v : Nat} (hp : p ∈ ps) (hkey : (key p).toNat ≤ v) (hv : v < 15) :
    (val p).toNat * 16 + (val p).toNat / 2 + (v - (key p).toNat) ≤ spreadAt ps key val v := by
  rw [spreadAt, if_neg (by omega)]
  exact Finset.le_sup (f := fun p : UInt16 => (val p).toNat * 16 + (val p).toNat / 2 +
    (v - (key p).toNat)) (Finset.mem_filter.mpr ⟨hp, hkey⟩)

variable {key val}

theorem spreadAt_le_iff {v n : Nat} (hv : v < 15) :
    spreadAt ps key val v ≤ n ↔ ∀ p ∈ ps, (key p).toNat ≤ v →
      (val p).toNat * 16 + (val p).toNat / 2 + (v - (key p).toNat) ≤ n := by
  rw [spreadAt, if_neg (by omega), Finset.sup_le_iff]
  simp only [Finset.mem_filter, and_imp]

theorem InOrder.spreadAt_key (h : InOrder ps key val) (hp : p ∈ ps) :
    spreadAt ps key val (key p).toNat = (val p).toNat * 16 + (val p).toNat / 2 := by
  apply Nat.le_antisymm
  · rw [spreadAt_le_iff (h.key_lt p hp)]
    intro q hq hle
    have hpq := h.order p hp q hq
    have hqp := h.order q hq p hp
    rw [UInt8.lt_iff_toNat_lt, UInt8.lt_iff_toNat_lt] at hpq hqp
    have := h.key_lt p hp
    omega
  · have hle := le_spreadAt key val hp le_rfl (h.key_lt p hp)
    omega

theorem InOrder.spreadAt_le (h : InOrder ps key val) {v : Nat} (hv : v < 15) :
    spreadAt ps key val v ≤ 245 := by
  rw [spreadAt_le_iff hv]
  intro p hp hkey
  have := h.val_lt p hp
  omega

theorem InOrder.spreadAt_lt (h : InOrder ps key val) (v w : Nat) (hlt : v < w) (hw : w < 2 ^ 4) :
    spreadAt ps key val v < spreadAt ps key val w := by
  by_cases htop : w = 15
  · have hlow := h.spreadAt_le (v := v) (by omega)
    have htop' : spreadAt ps key val w = 255 := if_pos htop
    omega
  · have hw' : w < 15 := by omega
    have hpos := le_spreadAt key val h.zero (v := w) (by rw [h.key_zero]; exact Nat.zero_le _) hw'
    rw [h.key_zero, UInt8.toNat_zero] at hpos
    have hle : spreadAt ps key val v ≤ spreadAt ps key val w - 1 := by
      rw [spreadAt_le_iff (by omega)]
      intro p hp hkey
      have hnext := le_spreadAt key val hp (hkey.trans hlt.le) hw'
      omega
    omega

/-- Pixels in order are what some expansion makes of the one channel. -/
theorem InOrder.exists_expansion (h : InOrder ps key val) :
    ∃ e : Expansion 4, ∀ p ∈ ps, e.value (key p) = expand4 (val p) := by
  have hbyte (v : Nat) (hv : v < 2 ^ 4) : spreadAt ps key val v < 2 ^ 8 := by
    by_cases htop : v = 15
    · rw [show spreadAt ps key val v = 255 from if_pos htop]
      decide
    · have := h.spreadAt_le (v := v) (by omega)
      omega
  refine ⟨expansionOf 4 (fun v => UInt8.ofNat (spreadAt ps key val v.toNat)) (spreadAt ps key val)
    (fun v hv => UInt8.toNat_ofNat_of_lt' (hbyte _ hv)) h.spreadAt_lt ?_ (if_pos rfl), ?_⟩
  · have hzero := h.spreadAt_key h.zero
    rw [h.key_zero, h.val_zero] at hzero
    exact congrArg UInt8.ofNat hzero
  · intro p hp
    have hval := h.val_lt p hp
    apply UInt8.toNat_inj.mp
    rw [toNat_expand4 _ (by omega), ← h.spreadAt_key hp]
    exact UInt8.toNat_ofNat_of_lt' (hbyte _ ((h.key_lt p hp).trans (by decide)))

end Tables

/-- No channel is at its maximum, and any two pixels, one without any channel among them, compare the
same way in all channels. -/
structure SameOrder (ps : List UInt16) : Prop where
  below : ∀ p ∈ ps, a4r4g4b4.red p ≠ 15 ∧ a4r4g4b4.green p ≠ 15 ∧ a4r4g4b4.blue p ≠ 15 ∧
    a4r4g4b4.alpha p ≠ 15
  order : ∀ p ∈ 0 :: ps, ∀ q ∈ 0 :: ps,
    (a4r4g4b4.red p < a4r4g4b4.red q ↔ a4r4g4b4.alpha p < a4r4g4b4.alpha q) ∧
    (a4r4g4b4.green p < a4r4g4b4.green q ↔ a4r4g4b4.red p < a4r4g4b4.red q) ∧
    (a4r4g4b4.blue p < a4r4g4b4.blue q ↔ a4r4g4b4.green p < a4r4g4b4.green q) ∧
    (a4r4g4b4.alpha p < a4r4g4b4.alpha q ↔ a4r4g4b4.blue p < a4r4g4b4.blue q)

/-- An expansion that gives the expanded values of another channel keeps their order. -/
theorem Expansion.order_of_eq (e : Expansion 4) {v w v' w' : UInt8} (hv : v.toNat < 2 ^ 4)
    (hw : w.toNat < 2 ^ 4) (hv' : v'.toNat < 2 ^ 4) (hw' : w'.toNat < 2 ^ 4)
    (h : expand4 v' = e.value v) (h' : expand4 w' = e.value w) : v < w ↔ v' < w' := by
  rw [← e.lt_iff hv hw, ← h, ← h', expand4_lt_iff hv' hw']

theorem Expansion.ne_top (e : Expansion 4) {v v' : UInt8} (hv' : v'.toNat < 2 ^ 4)
    (h : expand4 v' = e.value v) : v ≠ 15 := by
  rintro rfl
  rw [e.top 15 rfl, ← UInt8.toNat_inj, toNat_expand4 v' hv'] at h
  have : v'.toNat * 16 + v'.toNat / 2 = 255 := h
  omega

theorem sameOrder_of_law {ps : List UInt16} (law : Law 4 4)
    (h : ∀ p ∈ ps, [expand4 (a4r4g4b4.alpha p), expand4 (a4r4g4b4.red p),
      expand4 (a4r4g4b4.green p), expand4 (a4r4g4b4.blue p)] = law.rgba a4r4g4b4 p) :
    SameOrder ps := by
  have hlaw : ∀ p ∈ 0 :: ps, expand4 (a4r4g4b4.alpha p) = law.red.value (a4r4g4b4.red p) ∧
      expand4 (a4r4g4b4.red p) = law.green.value (a4r4g4b4.green p) ∧
      expand4 (a4r4g4b4.green p) = law.blue.value (a4r4g4b4.blue p) ∧
      expand4 (a4r4g4b4.blue p) = law.alpha.value (a4r4g4b4.alpha p) := by
    intro p hp
    rcases List.mem_cons.mp hp with rfl | hp
    · exact ⟨law.red.zero.symm, law.green.zero.symm, law.blue.zero.symm, law.alpha.zero.symm⟩
    · simpa only [Law.rgba, List.cons.injEq, and_true] using h p hp
  constructor
  · intro p hp
    obtain ⟨hr, hg, hb, ha⟩ := a4r4g4b4_lt p
    obtain ⟨h₁, h₂, h₃, h₄⟩ := hlaw p (List.mem_cons_of_mem _ hp)
    exact ⟨law.red.ne_top ha h₁, law.green.ne_top hr h₂, law.blue.ne_top hg h₃,
      law.alpha.ne_top hb h₄⟩
  · intro p hp q hq
    obtain ⟨hr, hg, hb, ha⟩ := a4r4g4b4_lt p
    obtain ⟨hr', hg', hb', ha'⟩ := a4r4g4b4_lt q
    obtain ⟨h₁, h₂, h₃, h₄⟩ := hlaw p hp
    obtain ⟨h₁', h₂', h₃', h₄'⟩ := hlaw q hq
    exact ⟨law.red.order_of_eq hr hr' ha ha' h₁ h₁', law.green.order_of_eq hg hg' hr hr' h₂ h₂',
      law.blue.order_of_eq hb hb' hg hg' h₃ h₃', law.alpha.order_of_eq ha ha' hb hb' h₄ h₄'⟩

theorem inOrder_of_list {ps : List UInt16} {key val : UInt16 → UInt8} (hkey : key 0 = 0)
    (hval : val 0 = 0) (hkeys : ∀ p ∈ 0 :: ps, (key p).toNat < 15)
    (hvals : ∀ p ∈ 0 :: ps, (val p).toNat < 15)
    (horder : ∀ p ∈ 0 :: ps, ∀ q ∈ 0 :: ps, key p < key q ↔ val p < val q) :
    InOrder (0 :: ps).toFinset key val where
  zero := List.mem_toFinset.mpr List.mem_cons_self
  key_zero := hkey
  val_zero := hval
  key_lt p hp := hkeys p (List.mem_toFinset.mp hp)
  val_lt p hp := hvals p (List.mem_toFinset.mp hp)
  order p hp q hq := horder p (List.mem_toFinset.mp hp) q (List.mem_toFinset.mp hq)

theorem SameOrder.lt_top {ps : List UInt16} (h : SameOrder ps) : ∀ p ∈ 0 :: ps,
    (a4r4g4b4.red p).toNat < 15 ∧ (a4r4g4b4.green p).toNat < 15 ∧
    (a4r4g4b4.blue p).toNat < 15 ∧ (a4r4g4b4.alpha p).toNat < 15 := by
  intro p hp
  rcases List.mem_cons.mp hp with rfl | hp
  · decide
  · have hlt (v : UInt8) (hv : v.toNat < 2 ^ 4) (hne : v ≠ 15) : v.toNat < 15 := by
      have : v.toNat ≠ (15 : UInt8).toNat := mt UInt8.toNat_inj.mp hne
      have : (15 : UInt8).toNat = 15 := rfl
      omega
    obtain ⟨hr, hg, hb, ha⟩ := a4r4g4b4_lt p
    obtain ⟨hr', hg', hb', ha'⟩ := h.below p hp
    exact ⟨hlt _ hr hr', hlt _ hg hg', hlt _ hb hb', hlt _ ha ha'⟩

theorem SameOrder.exists_law {ps : List UInt16} (h : SameOrder ps) :
    ∃ law : Law 4 4, ∀ p ∈ ps, [expand4 (a4r4g4b4.alpha p), expand4 (a4r4g4b4.red p),
      expand4 (a4r4g4b4.green p), expand4 (a4r4g4b4.blue p)] = law.rgba a4r4g4b4 p := by
  have hred p hp := (h.lt_top p hp).1
  have hgreen p hp := (h.lt_top p hp).2.1
  have hblue p hp := (h.lt_top p hp).2.2.1
  have halpha p hp := (h.lt_top p hp).2.2.2
  obtain ⟨er, her⟩ := (inOrder_of_list rfl rfl hred halpha
    fun p hp q hq => (h.order p hp q hq).1).exists_expansion
  obtain ⟨eg, heg⟩ := (inOrder_of_list rfl rfl hgreen hred
    fun p hp q hq => (h.order p hp q hq).2.1).exists_expansion
  obtain ⟨eb, heb⟩ := (inOrder_of_list rfl rfl hblue hgreen
    fun p hp q hq => (h.order p hp q hq).2.2.1).exists_expansion
  obtain ⟨ea, hea⟩ := (inOrder_of_list rfl rfl halpha hblue
    fun p hp q hq => (h.order p hp q hq).2.2.2).exists_expansion
  refine ⟨⟨er, eg, eb, ea⟩, fun p hp => ?_⟩
  have hmem : p ∈ (0 :: ps).toFinset := List.mem_toFinset.mpr (List.mem_cons_of_mem _ hp)
  rw [Law.rgba, her p hmem, heg p hmem, heb p hmem, hea p hmem]

theorem a4r4g4b4_converts_iff (s : Source) :
    Converts a4r4g4b4ToRGBA888 a4r4g4b4 4 4 s.bytes ↔
      s.bytes.length < 2 ^ 31 ∧ SameOrder (pixels16 s.bytes) := by
  have hlaw (law : Law 4 4) := @convert16_eq_iff
    (fun p => [expand4 (a4r4g4b4.alpha p), expand4 (a4r4g4b4.red p), expand4 (a4r4g4b4.green p),
      expand4 (a4r4g4b4.blue p)]) (law.rgba a4r4g4b4) (fun _ => rfl) (fun _ => rfl) s
  constructor
  · rintro ⟨law, h⟩
    obtain ⟨hsize, hpixels⟩ := (hlaw law).mp h
    exact ⟨hsize, sameOrder_of_law law hpixels⟩
  · rintro ⟨hsize, hpixels⟩
    obtain ⟨law, h⟩ := hpixels.exists_law
    exact ⟨law, (hlaw law).mpr ⟨hsize, h⟩⟩

end FourBits

/-- A source with one bit of alpha is converted as some law says exactly if it is black without alpha
and white with it; one with four bits exactly if the channels cannot be told apart. Both have to be
smaller than `2 ^ 31` bytes. -/
theorem converts_iff (s : Source) :
    (Converts a1r5g5b5ToRGBA888 a1r5g5b5 5 1 s.bytes ↔
      s.bytes.length < 2 ^ 31 ∧ ∀ p ∈ pixels16 s.bytes, p = 0 ∨ p = 0xFFFF) ∧
    (Converts a4r4g4b4ToRGBA888 a4r4g4b4 4 4 s.bytes ↔
      s.bytes.length < 2 ^ 31 ∧ SameOrder (pixels16 s.bytes)) :=
  ⟨a1r5g5b5_converts_iff s, a4r4g4b4_converts_iff s⟩

/-- A red pixel becomes a green one. -/
theorem not_converts_red :
    (a1r5g5b5ToRGBA888 [0x00, 0x7C] = .ok [0, 255, 0, 0] ∧
      ¬Converts a1r5g5b5ToRGBA888 a1r5g5b5 5 1 [0x00, 0x7C]) ∧
    (a4r4g4b4ToRGBA888 [0x00, 0x0F] = .ok [0, 247, 0, 0] ∧
      ¬Converts a4r4g4b4ToRGBA888 a4r4g4b4 4 4 [0x00, 0x0F]) := by
  refine ⟨⟨by decide, fun h => ?_⟩, by decide, fun h => ?_⟩
  · have hpixels := ((a1r5g5b5_converts_iff ⟨[0x00, 0x7C], by decide⟩).mp h).2
    exact absurd (hpixels 0x7C00 (by decide)) (by decide)
  · have hpixels := ((a4r4g4b4_converts_iff ⟨[0x00, 0x0F], by decide⟩).mp h).2
    exact absurd rfl (hpixels.below 0x0F00 (by decide)).1

end XbdmGdbBridge.Proofs.PixelFormats
