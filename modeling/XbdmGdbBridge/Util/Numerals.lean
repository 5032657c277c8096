import XbdmGdbBridge.Util.CText

/-!
# Numbers as text

What the number conversions of C make of a text of hexadecimal digits, and of the texts `%x` writes.
-/

namespace XbdmGdbBridge.CText

/-- A text of hexadecimal digits. -/
def HexDigits (s : Bytes) : Prop :=
  ∀ c ∈ s, isDigit 16 c = true

theorem isDigit_not_prefix : ∀ c : UInt8, isDigit 16 c = true → c ≠ 0x78 ∧ c ≠ 0x58 := by
  decide +kernel

section Scanning

variable {s rest : Bytes}

theorem takeWhile_digits (hs : HexDigits s) (hr : ∀ c, rest.head? = some c → isDigit 16 c = false) :
    (s ++ rest).takeWhile (isDigit 16) = s := by
  rw [List.takeWhile_append_of_pos hs]
  cases rest with
  | nil => simp
  | cons c others => rw [List.takeWhile_cons_of_neg (by simp [hr c rfl]), List.append_nil]

theorem hexPrefixLength_digits (hs : HexDigits s) (hne : s ≠ [])
    (hr : ∀ c, rest.head? = some c → c ≠ 0x78 ∧ c ≠ 0x58) : hexPrefixLength (s ++ rest) = 0 := by
  have hsecond : ∀ x, (s ++ rest)[1]? = some x → x ≠ 0x78 ∧ x ≠ 0x58 := by
    intro x hx
    cases s with
    | nil => exact absurd rfl hne
    | cons z others =>
      cases others with
      | nil =>
        apply hr
        simpa [List.head?_eq_getElem?] using hx
      | cons c more =>
        obtain rfl : c = x := by simpa using hx
        exact isDigit_not_prefix c (hs c (by simp))
  match h : s ++ rest with
  | [] => rfl
  | [_] => rfl
  | [_, _] => rfl
  | z :: x :: d :: _ =>
    rw [h] at hsecond
    have hx := hsecond x rfl
    simp [hexPrefixLength, hx.1, hx.2]

/-- Digits are read to the first character that is none. -/
theorem scanNumber_hexDigits (hs : HexDigits s) (hne : s ≠ [])
    (hr : ∀ c, rest.head? = some c → isDigit 16 c = false ∧ c ≠ 0x78 ∧ c ≠ 0x58) :
    scanNumber 16 (s ++ rest) = some ⟨false, numeral 16 s, s.length⟩ := by
  have hprefix := hexPrefixLength_digits hs hne fun c hc => (hr c hc).2
  have htake := takeWhile_digits hs fun c hc => (hr c hc).1
  obtain ⟨c, others, rfl⟩ := List.exists_cons_of_ne_nil hne
  obtain ⟨hspace, hplus, hminus⟩ := digit_plain c (hs c (by simp))
  have hskip : ((c :: others ++ rest).takeWhile isSpace).length = 0 := by simp [hspace]
  have hsign : signLength (c :: others ++ rest) = 0 := by simp [signLength, hplus, hminus]
  unfold scanNumber
  simp only [hskip, List.drop_zero, hsign, if_true, hprefix, htake]
  simp [hminus]

/-- Digits behind `0x` or `0X` are read from there. -/
theorem scanNumber_marked {x : UInt8} (hx : x = 0x78 ∨ x = 0x58) (hs : HexDigits s) (hne : s ≠ [])
    (hr : ∀ c, rest.head? = some c → isDigit 16 c = false) :
    scanNumber 16 (0x30 :: x :: (s ++ rest)) = some ⟨false, numeral 16 s, 2 + s.length⟩ := by
  have htake := takeWhile_digits hs hr
  obtain ⟨c, others, rfl⟩ := List.exists_cons_of_ne_nil hne
  have hprefix : hexPrefixLength (0x30 :: x :: (c :: others ++ rest)) = 2 := by
    simp [hexPrefixLength, hs c (by simp), hx]
  have hspace : isSpace 0x30 = false := by decide
  have hsign : signLength (0x30 :: x :: (c :: others ++ rest)) = 0 := by simp [signLength]
  have hskip : ((0x30 :: x :: (c :: others ++ rest)).takeWhile isSpace).length = 0 := by
    simp [hspace]
  unfold scanNumber
  simp only [hskip, List.drop_zero, hsign, if_true, hprefix, List.drop_succ_cons, htake]
  simp

theorem scanNumber_prefixed_digits (hs : HexDigits s) (hne : s ≠ [])
    (hr : ∀ c, rest.head? = some c → isDigit 16 c = false) :
    scanNumber 16 (0x30 :: 0x78 :: (s ++ rest)) = some ⟨false, numeral 16 s, 2 + s.length⟩ :=
  scanNumber_marked (.inl rfl) hs hne hr

/-- A text behind `0x` counts from there. -/
theorem scanNumber_prefixed (hs : HexDigits s) (hne : s ≠ []) :
    scanNumber 16 (0x30 :: 0x78 :: s) = some ⟨false, numeral 16 s, 2 + s.length⟩ := by
  have h := scanNumber_prefixed_digits hs hne fun c (hc : ([] : Bytes).head? = some c) => by cases hc
  rwa [List.append_nil] at h

theorem isDigit_mono : ∀ c, isDigit 10 c = true → isDigit 16 c = true := by
  decide +kernel

/-- A text of decimal digits is a number as a whole. -/
theorem scanNumber_decimal (hs : ∀ c ∈ s, isDigit 10 c = true) (hne : s ≠ []) :
    scanNumber 10 s = some ⟨false, numeral 10 s, s.length⟩ := by
  have htake : s.takeWhile (isDigit 10) = s := List.takeWhile_eq_self_iff.mpr hs
  obtain ⟨c, others, rfl⟩ := List.exists_cons_of_ne_nil hne
  obtain ⟨hspace, hplus, hminus⟩ := digit_plain c (isDigit_mono c (hs c (by simp)))
  have hskip : ((c :: others).takeWhile isSpace).length = 0 := by simp [hspace]
  have hsign : signLength (c :: others) = 0 := by simp [signLength, hplus, hminus]
  unfold scanNumber
  simp only [hskip, List.drop_zero, hsign, Nat.reduceEqDiff, if_false, htake]
  simp [hminus]

end Scanning

section Values

theorem numeral_lt (s : Bytes) (hs : HexDigits s) : numeral 16 s < 16 ^ s.length := by
  induction s using List.reverseRecOn with
  | nil => simp [numeral]
  | append_singleton front c ih =>
    have hfront : numeral 16 front < 16 ^ front.length := ih fun d hd => hs d (by simp [hd])
    have hc : isDigit 16 c = true := hs c (by simp)
    have hvalue : (digitValue c).getD 0 < 16 := by
      unfold isDigit at hc
      split at hc
      · simpa [‹digitValue c = _›] using hc
      · cases hc
    rw [numeral_append, List.length_append, List.length_singleton, Nat.pow_succ]
    simp only [List.foldl_cons, List.foldl_nil]
    omega

theorem numeral_ofDigits (ds : List Nat) (hds : ∀ d ∈ ds, d < 16) :
    numeral 16 (ds.reverse.map hexDigit) = Nat.ofDigits 16 ds := by
  induction ds with
  | nil => rfl
  | cons d ds ih =>
    have hd : digitValue (hexDigit d) = some d := (hexDigit_spec d (hds d (by simp))).1
    have hrest := ih fun e he => hds e (by simp [he])
    rw [List.reverse_cons, List.map_append, numeral_append, hrest, Nat.ofDigits_cons]
    simp only [List.map_cons, List.map_nil, List.foldl_cons, List.foldl_nil, hd, Option.getD_some]
    omega

theorem hexDigits_digits (ds : List Nat) (hds : ∀ d ∈ ds, d < 16) :
    HexDigits (ds.reverse.map hexDigit) := by
  intro c hc
  obtain ⟨d, hd, rfl⟩ := List.mem_map.mp hc
  exact isDigit_hexDigit (hds d (List.mem_reverse.mp hd))

theorem digits_lt (n : Nat) : ∀ d ∈ Nat.digits 16 n, d < 16 :=
  fun _ hd => Nat.digits_lt_base (by decide) hd

theorem hexText_ne_nil (n : Nat) : hexText n ≠ [] := by
  unfold hexText
  split
  · simp
  · simpa [Nat.digits_ne_nil_iff_ne_zero] using ‹¬n = 0›

theorem hexDigits_hexText (n : Nat) : HexDigits (hexText n) := by
  unfold hexText
  split
  · intro c hc
    obtain rfl := List.mem_singleton.mp hc
    decide
  · exact hexDigits_digits _ (digits_lt n)

/-- The text of a number has the value of the number. -/
theorem numeral_hexText (n : Nat) : numeral 16 (hexText n) = n := by
  unfold hexText
  split
  next h => rw [h]; rfl
  next h => rw [numeral_ofDigits _ (digits_lt n), Nat.ofDigits_digits]

theorem length_hexText_le {n k : Nat} (hk : 0 < k) (h : n < 16 ^ k) : (hexText n).length ≤ k := by
  unfold hexText
  split
  · exact hk
  · rw [List.length_map, List.length_reverse]
    exact (Nat.digits_length_le_iff (by decide) n).mpr h

theorem lt_length_hexText_iff {n k : Nat} (hk : 0 < k) : k < (hexText n).length ↔ 16 ^ k ≤ n := by
  unfold hexText
  split
  next h =>
    have hpos : 0 < 16 ^ k := Nat.pow_pos (by decide)
    simp only [List.length_singleton, h]
    omega
  next =>
    rw [List.length_map, List.length_reverse]
    exact Nat.lt_digits_length_iff (by decide) n

theorem hexDigits_hexPadded (width n : Nat) : HexDigits (hexPadded width n) := by
  intro c hc
  rcases List.mem_append.mp hc with hc | hc
  · rw [(List.mem_replicate.mp hc).2]
    decide
  · exact hexDigits_hexText n c hc

theorem numeral_hexPadded (width n : Nat) : numeral 16 (hexPadded width n) = n := by
  have hzeros : ∀ k, numeral 16 (List.replicate k 0x30) = 0 := by
    intro k
    induction k with
    | zero => rfl
    | succ k ih =>
      rw [List.replicate_succ', numeral_append, ih]
      rfl
  rw [hexPadded, numeral_append, hzeros]
  exact numeral_hexText n

theorem length_hexPadded {width n : Nat} (hw : 0 < width) (h : n < 16 ^ width) :
    (hexPadded width n).length = width := by
  have hle := length_hexText_le hw h
  rw [hexPadded, List.length_append, List.length_replicate]
  omega

end Values

section Conversions

variable {s rest : Bytes}

/-- `MaybeParseHexInt` of a text that starts with digits; it saturates. -/
theorem maybeParseHexInt_digits (hs : HexDigits s) (hne : s ≠ [])
    (hr : ∀ c, rest.head? = some c → isDigit 16 c = false ∧ c ≠ 0x78 ∧ c ≠ 0x58) :
    maybeParseHexInt (s ++ rest) = some (min (numeral 16 s) (2 ^ 64 - 1)) := by
  have hlength : s.length ≠ 0 := by simpa using hne
  unfold maybeParseHexInt strtoull
  rw [scanNumber_hexDigits hs hne hr]
  by_cases hbig : 2 ^ 64 ≤ numeral 16 s
  · simp only [hbig, if_true, hlength, if_false]
    rw [Nat.min_eq_right (by omega)]
  · simp only [hbig, if_false, Bool.false_eq_true, hlength]
    rw [Nat.min_eq_left (by omega)]

theorem maybeParseHexInt_hexText (n : Nat) :
    maybeParseHexInt (hexText n) = some (min n (2 ^ 64 - 1)) := by
  have h := maybeParseHexInt_digits (hexDigits_hexText n) (hexText_ne_nil n)
    fun c (hc : ([] : Bytes).head? = some c) => by cases hc
  rwa [List.append_nil, numeral_hexText] at h

theorem hexUInt32_hexText (a : UInt32) : hexUInt32 (hexText a.toNat) = some a := by
  have hlt := a.toNat_lt
  rw [hexUInt32, maybeParseHexInt_hexText, Nat.min_eq_left (by omega)]
  simp

end Conversions

end XbdmGdbBridge.CText
