import XbdmGdbBridge.Lib.Memory
import XbdmGdbBridge.Shell.GetMem
import XbdmGdbBridge.Util.Numerals

/-!
# Printed memory

The text `getmem` prints, read again row by row. The elements come back in their order; where a row
ends is decided by the number of the element before it is counted.
-/

namespace XbdmGdbBridge.Proofs.MemoryDumps

open Lib CText Shell GetMem

section Elements

/-- The number of an element, lowest byte first. -/
def number (e : Bytes) : Nat :=
  Memory.value e.length fun a => e.getD a 0

theorem number_cons (b : UInt8) (e : Bytes) : number (b :: e) = b.toNat + 256 * number e := rfl

theorem number_lt (e : Bytes) : number e < 16 ^ (2 * e.length) := by
  have h := Memory.value_lt e.length fun a => e.getD a 0
  rwa [show (256 : Nat) = 16 ^ 2 from rfl, ← Nat.pow_mul] at h

theorem assemble_eq {i val : Nat} (e : Bytes) (h : val < 256 ^ i) :
    assemble i e val = val + 256 ^ i * number e := by
  have hpow : ∀ i, 256 ^ i = 2 ^ (i * 8) := by
    intro i
    rw [show (256 : Nat) = 2 ^ 8 from rfl, ← Nat.pow_mul, Nat.mul_comm]
  induction e generalizing i val with
  | nil => rfl
  | cons b e ih =>
    have hb := b.toNat_lt
    have hor : val ||| (b.toNat <<< (i * 8)) = val + 256 ^ i * b.toNat := by
      rw [hpow] at h
      rw [Nat.or_comm, ← Nat.shiftLeft_add_eq_or_of_lt h, Nat.shiftLeft_eq, hpow]
      ring
    have hlt : val + 256 ^ i * b.toNat < 256 ^ (i + 1) := by
      have hmul : 256 ^ i * b.toNat ≤ 256 ^ i * 255 := Nat.mul_le_mul_left _ (by omega)
      rw [Nat.pow_succ]
      omega
    rw [assemble, hor, ih hlt, number_cons, Nat.pow_succ]
    ring

theorem assemble_number (e : Bytes) : assemble 0 e 0 = number e := by
  rw [assemble_eq e (by simp)]
  simp

/-- An element as it is printed. -/
def wordOf (e : Bytes) : Bytes :=
  hexPadded (e.length * 2) (number e)

/-- A printed element, read as its bytes. -/
def readElement (word : Bytes) : Bytes :=
  (List.range (word.length / 2)).map (Memory.byteOf (numeral 16 word))

theorem length_wordOf {e : Bytes} (h : e ≠ []) : (wordOf e).length = e.length * 2 := by
  have hpos := List.length_pos_iff.mpr h
  have hlt := number_lt e
  rw [Nat.mul_comm] at hlt
  exact length_hexPadded (by omega) hlt

theorem readElement_wordOf {e : Bytes} (h : e ≠ []) : readElement (wordOf e) = e := by
  rw [readElement, length_wordOf h, Nat.mul_div_cancel _ (by decide), wordOf, numeral_hexPadded]
  refine List.ext_getElem (by simp) fun i hi hi' => ?_
  rw [List.getElem_map, List.getElem_range, number, Memory.byteOf_value _ hi',
    List.getD_eq_getElem?_getD, List.getElem?_eq_getElem hi']
  rfl

theorem not_mem_wordOf {c : UInt8} (hc : isDigit 16 c = false) (e : Bytes) : c ∉ wordOf e := by
  intro hmem
  rw [hexDigits_hexPadded _ _ c hmem] at hc
  cases hc

/-- The elements of so many bytes each that the data is made of; the last one may be shorter. -/
def elements (n : Nat) (data : Bytes) : List Bytes :=
  if data = [] ∨ n = 0 then [] else data.take n :: elements n (data.drop n)
termination_by data.length
decreasing_by
  rename_i h
  obtain ⟨hdata, hn⟩ := not_or.mp h
  have hpos := List.length_pos_iff.mpr hdata
  rw [List.length_drop]
  omega

theorem elements_nil (n : Nat) : elements n [] = [] := by
  rw [elements, if_pos (.inl rfl)]

theorem elements_of_ne {n : Nat} {data : Bytes} (hdata : data ≠ []) (hn : n ≠ 0) :
    elements n data = data.take n :: elements n (data.drop n) := by
  rw [elements, if_neg (by simp [hdata, hn])]

end Elements

section Rows

/-- The elements of a row. -/
def readRow (row : Bytes) : List Bytes :=
  ((split (byte ' ') row).filter (· ≠ [])).map readElement

/-- The rows of a text in which each one is ended. -/
def readRows (text : Bytes) : List (List Bytes) :=
  (split (byte '\n') text).dropLast.map readRow

/-- A row of elements as it is printed. -/
def rowText (es : List Bytes) : Bytes :=
  es.flatMap fun e => wordOf e ++ [byte ' ']

theorem readRow_rowText {es : List Bytes} (h : ∀ e ∈ es, e ≠ []) : readRow (rowText es) = es := by
  have hspace : isDigit 16 (byte ' ') = false := by decide
  induction es with
  | nil => rfl
  | cons e es ih =>
    obtain ⟨he, hes⟩ := List.forall_mem_cons.mp h
    have hne : wordOf e ≠ [] := by
      intro hnil
      have hlength := length_wordOf he
      have hpos := List.length_pos_iff.mpr he
      rw [hnil, List.length_nil] at hlength
      omega
    have hsplit : split (byte ' ') (rowText (e :: es)) =
        wordOf e :: split (byte ' ') (rowText es) := by
      rw [rowText, List.flatMap_cons, List.append_assoc]
      exact split_word (not_mem_wordOf hspace e) _
    rw [readRow, hsplit, List.filter_cons_of_pos (by simpa using hne), List.map_cons,
      readElement_wordOf he]
    exact congrArg (e :: ·) (ih hes)

theorem newline_not_mem_rowText (es : List Bytes) : byte '\n' ∉ rowText es := by
  have hnewline : isDigit 16 (byte '\n') = false := by decide
  intro hmem
  obtain ⟨e, -, he⟩ := List.mem_flatMap.mp hmem
  rcases List.mem_append.mp he with hword | hspace
  · exact not_mem_wordOf hnewline e hword
  · exact absurd (List.mem_singleton.mp hspace) (by decide)

theorem readRows_last {es : List Bytes} (h : ∀ e ∈ es, e ≠ []) :
    readRows (rowText es ++ [byte '\n']) = [es] := by
  rw [readRows, split_append, split_last (newline_not_mem_rowText es)]
  exact congrArg ([·]) (readRow_rowText h)

theorem readRows_first {es : List Bytes} (h : ∀ e ∈ es, e ≠ []) (rest : Bytes) :
    ∃ row rows, readRows (rowText es ++ byte '\n' :: (rest ++ [byte '\n'])) = es :: row :: rows := by
  have hrest : (split (byte '\n') (rest ++ [byte '\n'])).dropLast = split (byte '\n') rest := by
    rw [split_append]
    exact List.dropLast_concat
  obtain ⟨row, rows, hrows⟩ := List.exists_cons_of_ne_nil (split_ne_nil (byte '\n') rest)
  refine ⟨readRow row, rows.map readRow, ?_⟩
  rw [readRows, split_word (newline_not_mem_rowText es),
    List.dropLast_cons_of_ne_nil (split_ne_nil _ _), hrest, hrows, List.map_cons, List.map_cons,
    readRow_rowText h]

end Rows

section Loop

variable (mode : RenderMode)

theorem bytesPerElement_ne_zero : mode.bytesPerElement ≠ 0 := by
  cases mode <;> decide

/-- The elements from the one with this number on, and the ends of their rows. -/
def printed : List Bytes → Nat → Bytes
  | [], _ => []
  | e :: es, count =>
    wordOf e ++ [byte ' '] ++ (if breaksAfter mode count then [byte '\n'] else []) ++
      printed es (count + 1)

theorem toInt_length (n : Nat) :
    (Int32.ofNat n).toInt = if n % 2 ^ 32 < 2 ^ 31 then (n % 2 ^ 32 : Int) else (n % 2 ^ 32 : Int) - 2 ^ 32 := by
  rw [Int32.toInt_ofNat']
  unfold Int.bmod
  simp only [Int32.size]
  split <;> split <;> omega

theorem currentElementSize_of_lt {data : Bytes} (h : data.length < 2 ^ 31) :
    (currentElementSize mode data).toNat = min mode.bytesPerElement data.length := by
  rw [currentElementSize, toInt_length]
  split <;> omega

/-- As many bytes as an `int` can count are printed. -/
theorem elementsLoop_eq {fuel : Nat} {data : Bytes} (hfuel : data.length ≤ fuel)
    (h : data.length < 2 ^ 31) (count : Nat) (out : Bytes) :
    elementsLoop mode fuel data count out =
      some (out ++ printed mode (elements mode.bytesPerElement data) count) := by
  have hpos := bytesPerElement_ne_zero mode
  induction fuel generalizing data count out with
  | zero =>
    obtain rfl : data = [] := List.length_eq_zero_iff.mp (by omega)
    rw [elements_nil, elementsLoop, printed, List.append_nil]
  | succ fuel ih =>
    cases data with
    | nil => rw [elements_nil, elementsLoop, printed, List.append_nil]
    | cons b rest =>
      have hsize := currentElementSize_of_lt mode h
      have htake : (b :: rest).take (min mode.bytesPerElement (b :: rest).length) =
          (b :: rest).take mode.bytesPerElement := by
        rw [List.take_eq_take_iff]
        omega
      have hdrop : (b :: rest).drop (min mode.bytesPerElement (b :: rest).length) =
          (b :: rest).drop mode.bytesPerElement := by
        by_cases hle : mode.bytesPerElement ≤ (b :: rest).length
        · rw [Nat.min_eq_left hle]
        · rw [List.drop_eq_nil_of_le (by omega), List.drop_eq_nil_of_le (by omega)]
      have hlength : min mode.bytesPerElement (b :: rest).length =
          ((b :: rest).take mode.bytesPerElement).length := List.length_take.symm
      have hshorter : ((b :: rest).drop mode.bytesPerElement).length < (b :: rest).length := by
        rw [List.length_drop, List.length_cons]
        omega
      rw [elementsLoop, hsize, htake, hdrop, hlength, assemble_number, ih (by omega) (by omega),
        elements_of_ne (List.cons_ne_nil _ _) hpos, printed]
      split <;> simp [wordOf]

/-- More bytes are never printed to their end: what is left is negative as an `int`, or comes to
nothing, and the element has no bytes. -/
theorem elementsLoop_endless (fuel : Nat) {data : Bytes} (h : 2 ^ 31 ≤ data.length) (count : Nat)
    (out : Bytes) : elementsLoop mode fuel data count out = none := by
  induction fuel generalizing data count out with
  | zero =>
    cases data with
    | nil => simp at h
    | cons b rest => rfl
  | succ fuel ih =>
    cases data with
    | nil => simp at h
    | cons b rest =>
      have hsize : 2 ^ 31 ≤ ((b :: rest).drop (currentElementSize mode (b :: rest)).toNat).length := by
        rw [List.length_drop, currentElementSize, toInt_length]
        split <;> omega
      rw [elementsLoop]
      exact ih hsize _ _

theorem printed_append (es es' : List Bytes) (count : Nat) :
    printed mode (es ++ es') count =
      printed mode es count ++ printed mode es' (count + es.length) := by
  induction es generalizing count with
  | nil => rfl
  | cons e es ih =>
    have hcount : count + 1 + es.length = count + (es.length + 1) := by omega
    rw [List.cons_append, printed, printed, ih, List.length_cons, hcount]
    simp only [List.append_assoc]

theorem printed_within {es : List Bytes} {count : Nat}
    (h : ∀ c, count ≤ c → c < count + es.length → breaksAfter mode c = false) :
    printed mode es count = rowText es := by
  induction es generalizing count with
  | nil => rfl
  | cons e es ih =>
    have hfirst := h count (Nat.le_refl _) (by simp)
    have hrest := @ih (count + 1) fun c hle hlt => h c (by omega) (by rw [List.length_cons]; omega)
    rw [printed, hfirst, hrest]
    simp [rowText]

theorem not_breaksAfter {count : Nat} (h : count < 32 / mode.bytesPerElement) :
    breaksAfter mode count = false := by
  unfold breaksAfter
  rw [Nat.mod_eq_of_lt h]
  simp

/-- The first row ends behind the element whose number is the width of a row. -/
theorem breaksAfter_width : breaksAfter mode (32 / mode.bytesPerElement) = true := by
  cases mode <;> decide

theorem printed_first {es es' : List Bytes} {e : Bytes}
    (h : es.length = 32 / mode.bytesPerElement) :
    printed mode (es ++ e :: es') 0 =
      rowText (es ++ [e]) ++ byte '\n' :: printed mode es' (es.length + 1) := by
  have hes : printed mode es 0 = rowText es :=
    printed_within mode fun c _ hc => not_breaksAfter mode (by omega)
  rw [printed_append, hes, printed, Nat.zero_add, h, breaksAfter_width]
  simp [rowText]

end Loop

section Lengths

/-- There is an element with this number if the elements before it do not use up the data. -/
theorem lt_length_elements {n : Nat} (hn : n ≠ 0) (k : Nat) (data : Bytes) :
    k < (elements n data).length ↔ k * n < data.length := by
  induction k generalizing data with
  | zero =>
    rcases eq_or_ne data [] with rfl | hne
    · rw [elements_nil]
      simp
    · have hpos := List.length_pos_iff.mpr hne
      rw [elements_of_ne hne hn]
      simp [hpos]
  | succ k ih =>
    rcases eq_or_ne data [] with rfl | hne
    · rw [elements_nil]
      simp
    · rw [elements_of_ne hne hn, List.length_cons, Nat.succ_lt_succ_iff, ih, List.length_drop,
        Nat.succ_mul]
      omega

theorem ne_nil_of_mem_elements {n : Nat} {data e : Bytes} (h : e ∈ elements n data) : e ≠ [] := by
  fun_induction elements n data with
  | case1 => simp at h
  | case2 data hne ih =>
    obtain ⟨hdata, hn⟩ := not_or.mp hne
    rcases List.mem_cons.mp h with rfl | hrest
    · simp [hdata, hn]
    · exact ih hrest

theorem width_mul (mode : RenderMode) : 32 / mode.bytesPerElement * mode.bytesPerElement = 32 := by
  cases mode <;> decide

end Lengths

/-- Read row by row, the text has the elements of the data in their order, and every row but the last
one has 32 bytes. -/
def Lists (mode : RenderMode) (data text : Bytes) : Prop :=
  (readRows text).flatten = elements mode.bytesPerElement data ∧
    ∀ row ∈ (readRows text).dropLast,
      row.flatten.length = 32 ∧ row.length = 32 / mode.bytesPerElement

/-- The loop ends, with such a text. -/
def Shows (mode : RenderMode) (data : Bytes) : Prop :=
  ∃ turns text, (∀ fuel, turns ≤ fuel → render mode fuel data = some text) ∧ Lists mode data text

theorem render_of_lt (mode : RenderMode) {data : Bytes} (h : data.length < 2 ^ 31) {fuel : Nat}
    (hfuel : data.length ≤ fuel) :
    render mode fuel data =
      some (printed mode (elements mode.bytesPerElement data) 0 ++ [byte '\n']) := by
  rw [render, elementsLoop_eq mode hfuel h]
  rfl

theorem shows_of_short (mode : RenderMode) {data : Bytes} (h : data.length ≤ 32) :
    Shows mode data := by
  have hcount : (elements mode.bytesPerElement data).length ≤ 32 / mode.bytesPerElement := by
    rw [← Nat.not_lt, lt_length_elements (bytesPerElement_ne_zero mode), width_mul]
    omega
  have hone : printed mode (elements mode.bytesPerElement data) 0 =
      rowText (elements mode.bytesPerElement data) :=
    printed_within mode fun c _ hc => not_breaksAfter mode (by omega)
  refine ⟨data.length, _, fun fuel => render_of_lt mode (by omega), ?_⟩
  rw [hone, Lists, readRows_last fun e => ne_nil_of_mem_elements]
  exact ⟨List.flatten_singleton, by simp⟩

/-- The first row of a longer text has one element too many. -/
theorem not_lists_of_long (mode : RenderMode) {data : Bytes} (h : 32 < data.length) :
    ¬Lists mode data
      (printed mode (elements mode.bytesPerElement data) 0 ++ [byte '\n']) := by
  rintro ⟨-, hrows⟩
  have hcount : 32 / mode.bytesPerElement < (elements mode.bytesPerElement data).length := by
    rw [lt_length_elements (bytesPerElement_ne_zero mode), width_mul]
    exact h
  obtain ⟨es, e, es', hes, hlength⟩ : ∃ es e es', elements mode.bytesPerElement data = es ++ e :: es' ∧
      es.length = 32 / mode.bytesPerElement := by
    have hcut := List.take_append_drop (32 / mode.bytesPerElement) (elements mode.bytesPerElement data)
    rw [List.drop_eq_getElem_cons hcount] at hcut
    exact ⟨_, _, _, hcut.symm, List.length_take_of_le hcount.le⟩
  have hne : ∀ x ∈ es ++ [e], x ≠ [] := by
    intro x hx
    refine @ne_nil_of_mem_elements mode.bytesPerElement data x ?_
    rw [hes]
    rcases List.mem_append.mp hx with hx | hx
    · exact List.mem_append_left _ hx
    · rw [List.mem_singleton.mp hx]
      exact List.mem_append_right _ List.mem_cons_self
  obtain ⟨row, rows, hfirst⟩ := readRows_first hne (printed mode es' (es.length + 1))
  rw [hes, printed_first mode hlength, List.append_assoc, List.cons_append, hfirst] at hrows
  have hrow := (hrows (es ++ [e]) (by simp)).2
  rw [List.length_append, List.length_singleton] at hrow
  omega

theorem short_of_shows {mode : RenderMode} {data : Bytes} (h : Shows mode data) :
    data.length ≤ 32 := by
  obtain ⟨turns, text, hrun, hlists⟩ := h
  have hend := hrun (max turns data.length) (Nat.le_max_left _ _)
  by_contra hlong
  by_cases hbig : 2 ^ 31 ≤ data.length
  · rw [render, elementsLoop_endless mode _ hbig] at hend
    cases hend
  · rw [render_of_lt mode (Nat.not_le.mp hbig) (Nat.le_max_right _ _)] at hend
    cases hend
    exact not_lists_of_long mode (Nat.not_le.mp hlong) hlists

theorem shows_iff (mode : RenderMode) (data : Bytes) : Shows mode data ↔ data.length ≤ 32 :=
  ⟨short_of_shows, shows_of_short mode⟩

/-- Of 64 bytes the first row has 33 and the second one has 31. -/
theorem not_shows_64 : ¬Shows .byte (List.replicate 64 0) :=
  fun h => absurd (short_of_shows h) (by decide)

end XbdmGdbBridge.Proofs.MemoryDumps
