import XbdmGdbBridge.Proofs.Answers
import XbdmGdbBridge.Rdcp.SizeParsers

/-!
# Answers in a stream

An answer that was parsed is parsed from every longer buffer, as far as its bytes are counted right.
-/

namespace XbdmGdbBridge.Proofs

open Lib CText Rdcp RDCPResponse

section Sizes

/-- A size parser that looks at no more than it was given, and that more bytes do not change. -/
structure Steady (f : Bytes → Option BinarySize) : Prop where
  consumed : ∀ {buffer found}, f buffer = some found → found.consumed ≤ buffer.length
  append : ∀ {buffer found}, f buffer = some found → ∀ s, f (buffer ++ s) = some found

theorem steady_knownSize (size : UInt32) : Steady (knownSize size) where
  consumed := by
    rintro buffer found ⟨⟩
    exact Nat.zero_le _
  append := by
    rintro buffer found ⟨⟩ s
    rfl

theorem steady_binarySizeInt32Prefix : Steady binarySizeInt32Prefix where
  consumed := by
    intro buffer found h
    simp only [binarySizeInt32Prefix, Option.ite_none_left_eq_some, Option.some.injEq] at h
    obtain ⟨hlength, rfl⟩ := h
    exact Nat.not_lt.mp hlength
  append := by
    intro buffer found h s
    simp only [binarySizeInt32Prefix, Option.ite_none_left_eq_some, Option.some.injEq] at h ⊢
    obtain ⟨hlength, rfl⟩ := h
    have hfour : 4 ≤ buffer.length := Nat.not_lt.mp hlength
    refine ⟨by rw [List.length_append]; omega, ?_⟩
    congr 1
    apply Memory.value_congr
    intro a ha
    rw [List.getD_append _ _ _ _ (by omega)]

/-- The parser of a screenshot where its line is read; it does not return where it throws. -/
def screenshotSize (buffer : Bytes) : Option BinarySize :=
  match Screenshot.parseSize buffer with
  | .ok description => description.map Screenshot.Description.binary
  | .error _ => none

theorem screenshotSize_eq_some {buffer : Bytes} {found : BinarySize} :
    screenshotSize buffer = some found ↔ 4 ≤ buffer.length ∧ ∃ n parsed,
      search kTerminator buffer = some n ∧
      RDCPMapResponse.ofText (buffer.take n) = .ok parsed ∧
      found = ⟨(parsed.getUInt32 (ascii "framebuffersize") 0).toNat, n + kTerminator.length⟩ := by
  unfold screenshotSize Screenshot.parseSize
  by_cases hlength : buffer.length < 4
  · have hnot : ¬4 ≤ buffer.length := by omega
    simp [hlength, hnot]
  · have hle : 4 ≤ buffer.length := by omega
    cases hsearch : search kTerminator buffer with
    | none => simp [hlength]
    | some n =>
      cases hparsed : RDCPMapResponse.ofText (buffer.take n) with
      | error e => simp [hlength, hle, hparsed, bind, Except.bind]
      | ok parsed =>
        simp [hlength, hle, hparsed, bind, Except.bind, pure, Except.pure, eq_comm]

theorem steady_screenshotSize : Steady screenshotSize where
  consumed := by
    intro buffer found h
    obtain ⟨-, n, parsed, hsearch, -, rfl⟩ := screenshotSize_eq_some.mp h
    exact search_length hsearch
  append := by
    intro buffer found h s
    obtain ⟨hle, n, parsed, hsearch, hparsed, rfl⟩ := screenshotSize_eq_some.mp h
    have hbound := search_length hsearch
    refine screenshotSize_eq_some.mpr ⟨?_, n, parsed, search_append s hsearch, ?_, rfl⟩
    · rw [List.length_append]
      omega
    · rwa [List.take_append_of_le_length (by omega)]

/-- All size parsers of the requests. -/
theorem sizeParsers_steady : (∀ size, Steady (knownSize size)) ∧
    Steady binarySizeInt32Prefix ∧ Steady screenshotSize :=
  ⟨steady_knownSize, steady_binarySizeInt32Prefix, steady_screenshotSize⟩

end Sizes

section Lines

variable {statusLine rest : Bytes} {sizeParser : ReadBinarySizeFunc}

/-- A line without the dash is thrown away, as soon as there are four bytes. -/
theorem parse_malformed (hline : OneLine statusLine) (hdash : statusLine[3]? ≠ some (byte '-'))
    (hlength : 4 ≤ (statusLine ++ (kTerminator ++ rest)).length) :
    parse sizeParser (statusLine ++ (kTerminator ++ rest)) =
      .ok (-((statusLine.length + kTerminator.length : Nat) : Int), none) := by
  have hsearch : search kTerminator (statusLine ++ (kTerminator ++ rest)) = some statusLine.length :=
    search_line rest (by decide) hline
  have hsize : kTerminator.length = 2 := rfl
  unfold parse
  rw [if_neg (by omega), hsearch]
  dsimp only
  by_cases hshort : statusLine.length + kTerminator.length < 4
  · rw [if_pos hshort]
  · rw [if_neg hshort, if_pos]
    rcases Nat.lt_or_ge 3 statusLine.length with hlt | hge
    · rwa [List.getElem?_append_left hlt]
    · -- The fourth byte is one of the line end.
      obtain hthree | htwo : statusLine.length = 3 ∨ statusLine.length = 2 := by omega
      · rw [List.getElem?_append_right hge, hthree]
        change some (0x0d : UInt8) ≠ some (byte '-')
        decide
      · rw [List.getElem?_append_right hge, htwo]
        change some (0x0a : UInt8) ≠ some (byte '-')
        decide

theorem parse_short {buffer : Bytes} (h : buffer.length < 4) :
    parse sizeParser buffer = .ok (0, none) := by
  unfold parse
  rw [if_pos h]

end Lines

section Bodies

variable {rest data others : Bytes}

theorem multilineBody_append (s : Bytes) (h : multilineBody rest = some (data, others)) :
    multilineBody (rest ++ s) = some (data, others ++ s) := by
  unfold multilineBody at h ⊢
  by_cases hempty : kMultilineTerminator <+: kTerminator ++ rest
  · rw [if_pos hempty] at h
    simp only [Option.some.injEq, Prod.mk.injEq] at h
    obtain ⟨rfl, rfl⟩ := h
    have hlength : 5 ≤ 2 + rest.length := by
      have hthree := hempty.length_le
      rwa [List.length_append] at hthree
    rw [if_pos, List.drop_append_of_le_length (by omega)]
    rw [← List.append_assoc]
    exact hempty.trans (List.prefix_append _ _)
  · rw [if_neg hempty] at h
    unfold parseMultilineResponse at h ⊢
    obtain ⟨n, hsearch, hcut⟩ := Option.map_eq_some_iff.mp h
    simp only [Prod.mk.injEq] at hcut
    obtain ⟨rfl, rfl⟩ := hcut
    have hbound := search_length hsearch
    have hsize : kMultilineTerminator.length = 5 := rfl
    rw [if_neg, search_append s hsearch, Option.map_some, List.take_append_of_le_length (by omega),
      List.drop_append_of_le_length hbound]
    -- The bytes that could make the end of the status line a terminator are there already.
    intro hlong
    apply hempty
    rw [← List.append_assoc] at hlong
    refine List.prefix_of_prefix_length_le hlong (List.prefix_append _ _) ?_
    rw [List.length_append]
    omega

theorem multilineBody_length (h : multilineBody rest = some (data, others)) :
    others.length ≤ rest.length := by
  unfold multilineBody parseMultilineResponse at h
  split at h
  · simp only [Option.some.injEq, Prod.mk.injEq] at h
    rw [← h.2, List.length_drop]
    omega
  · obtain ⟨n, -, hcut⟩ := Option.map_eq_some_iff.mp h
    simp only [Prod.mk.injEq] at hcut
    rw [← hcut.2, List.length_drop]
    omega

/-- A binary body is all there in the bytes that are counted. -/
structure Counted (f : Bytes → Option BinarySize) (body : Bytes) (found : BinarySize) : Prop where
  accepted : f (body.take (body.length % 2 ^ 32)) = some found
  enough : found.consumed + found.size ≤ body.length % 2 ^ 32

theorem parseBinaryResponse_eq_some {f : Bytes → Option BinarySize} (hf : Steady f) :
    parseBinaryResponse (some f) rest = some (data, others) ↔ ∃ found, Counted f rest found ∧
      data = (rest.drop found.consumed).take found.size ∧
      others = rest.drop (found.consumed + found.size) := by
  unfold parseBinaryResponse
  dsimp only [Option.bind_eq_bind, Option.bind_some]
  cases hfound : f (rest.take (rest.length % 2 ^ 32)) with
  | none =>
    simp only [Option.bind_none, reduceCtorEq, false_iff, not_exists, not_and]
    intro found hwhole
    rw [hwhole.accepted] at hfound
    cases hfound
  | some found =>
    have hconsumed := hf.consumed hfound
    rw [List.length_take] at hconsumed
    simp only [Option.bind_some, Option.ite_none_left_eq_some, List.drop_drop]
    constructor
    · rintro ⟨hsize, hcut⟩
      obtain ⟨rfl, rfl⟩ := Prod.mk.inj (Option.some.inj hcut)
      exact ⟨found, ⟨hfound, by omega⟩, rfl, rfl⟩
    · rintro ⟨found', ⟨haccepted, henough⟩, rfl, rfl⟩
      obtain rfl := Option.some.inj (hfound.symm.trans haccepted)
      exact ⟨by omega, rfl⟩

theorem counted_unique {f : Bytes → Option BinarySize} (hf : Steady f) {body : Bytes} (s : Bytes)
    {found found' : BinarySize} (h : Counted f body found) (h' : Counted f (body ++ s) found') :
    found' = found := by
  have hle : body.length % 2 ^ 32 ≤ body.length := Nat.mod_le _ _
  have hsame : ∀ {p q : Bytes} {a b : BinarySize}, p <+: q → f p = some a → f q = some b → a = b := by
    rintro p q a b ⟨t, rfl⟩ ha hb
    exact Option.some.inj ((hf.append ha t).symm.trans hb)
  have hfront : body.take (body.length % 2 ^ 32) = (body ++ s).take (body.length % 2 ^ 32) :=
    (List.take_append_of_le_length hle).symm
  have haccepted := h.accepted
  rw [hfront] at haccepted
  rcases Nat.le_total (body.length % 2 ^ 32) ((body ++ s).length % 2 ^ 32) with hcount | hcount
  · exact (hsame (List.take_prefix_take_left hcount) haccepted h'.accepted).symm
  · exact hsame (List.take_prefix_take_left hcount) h'.accepted haccepted

variable {sizeParser : ReadBinarySizeFunc} {status : UInt32} {statusLine message : Bytes}

theorem parseBody_some
    (h : parseBody sizeParser status statusLine rest = .ok (some (message, data, others))) :
    (status = OK_MULTILINE_RESPONSE ∧ messageText statusLine = .ok message ∧
      multilineBody rest = some (data, others)) ∨
    (status = OK_BINARY_RESPONSE ∧ message = [] ∧
      parseBinaryResponse sizeParser rest = some (data, others)) ∨
    (status ≠ OK_MULTILINE_RESPONSE ∧ status ≠ OK_BINARY_RESPONSE ∧
      messageText statusLine = .ok message ∧ data = message ∧ others = rest) := by
  unfold parseBody at h
  split at h
  case isTrue hmultiline =>
    cases hmessage : messageText statusLine with
    | error e =>
      rw [hmessage] at h
      cases h
    | ok text =>
      rw [hmessage] at h
      obtain ⟨body, hbody, hparts⟩ := Option.map_eq_some_iff.mp (Except.ok.inj h)
      cases hparts
      exact .inl ⟨hmultiline, rfl, hbody⟩
  case isFalse hmultiline =>
    split at h
    case isTrue hbinary =>
      obtain ⟨body, hbody, hparts⟩ := Option.map_eq_some_iff.mp (Except.ok.inj h)
      cases hparts
      exact .inr (.inl ⟨hbinary, rfl, hbody⟩)
    case isFalse hbinary =>
      cases hmessage : messageText statusLine with
      | error e =>
        rw [hmessage] at h
        cases h
      | ok text =>
        rw [hmessage] at h
        cases h
        exact .inr (.inr ⟨hmultiline, hbinary, rfl, rfl, rfl⟩)

theorem parseBody_length (hparser : ∀ f, sizeParser = some f → Steady f)
    (h : parseBody sizeParser status statusLine rest = .ok (some (message, data, others))) :
    others.length ≤ rest.length := by
  obtain ⟨-, -, hbody⟩ | ⟨-, -, hbody⟩ | ⟨-, -, -, -, rfl⟩ := parseBody_some h
  · exact multilineBody_length hbody
  · cases sizeParser with
    | none => cases hbody
    | some f =>
      obtain ⟨found, -, -, rfl⟩ := (parseBinaryResponse_eq_some (hparser f rfl)).mp hbody
      rw [List.length_drop]
      omega
  · exact Nat.le_refl _

/-- A complete body is found with more bytes behind it, a binary one if it is still counted. -/
theorem parseBody_append (hparser : ∀ f, sizeParser = some f → Steady f) (s : Bytes)
    (hcounted : ∀ f found, status = OK_BINARY_RESPONSE → sizeParser = some f →
      Counted f rest found → Counted f (rest ++ s) found)
    (h : parseBody sizeParser status statusLine rest = .ok (some (message, data, others))) :
    parseBody sizeParser status statusLine (rest ++ s) = .ok (some (message, data, others ++ s)) := by
  obtain ⟨hstatus, hmessage, hbody⟩ | ⟨hstatus, rfl, hbody⟩ |
    ⟨hmultiline, hbinary, hmessage, rfl, rfl⟩ := parseBody_some h
  · rw [parseBody_of_multiline hstatus hmessage, multilineBody_append s hbody]
    rfl
  · cases sizeParser with
    | none => cases hbody
    | some f =>
      have hf := hparser f rfl
      obtain ⟨found, hwhole, rfl, rfl⟩ := (parseBinaryResponse_eq_some hf).mp hbody
      have hlong := hcounted f found hstatus rfl hwhole
      have henough : found.consumed + found.size ≤ rest.length :=
        Nat.le_trans hwhole.enough (Nat.mod_le _ _)
      have hbody' : parseBinaryResponse (some f) (rest ++ s) =
          some ((rest.drop found.consumed).take found.size,
            rest.drop (found.consumed + found.size) ++ s) := by
        refine (parseBinaryResponse_eq_some hf).mpr ⟨found, hlong, ?_, ?_⟩
        · rw [List.drop_append_of_le_length (by omega), List.take_append_of_le_length]
          rw [List.length_drop]
          omega
        · rw [List.drop_append_of_le_length henough]
      rw [parseBody_of_binary hstatus, hbody']
      rfl
  · exact parseBody_of_line hmultiline hbinary hmessage

end Bodies

section Extensions

variable {sizeParser : ReadBinarySizeFunc} {buffer s : Bytes}

/-- What was made of a buffer is made of it with more bytes behind it, and there is an answer exactly
if the count is positive. -/
def Extends (sizeParser : ReadBinarySizeFunc) (buffer s : Bytes) : Prop :=
  ∀ n response, parse sizeParser buffer = .ok (n, response) →
    (0 < n → parse sizeParser (buffer ++ s) = .ok (n, response)) ∧
    (n < 0 → parse sizeParser (buffer ++ s) = .ok (n, response)) ∧
    (response = none ↔ n ≤ 0)

/-- The bytes behind the status line of a binary answer. -/
def BinaryBody (buffer body : Bytes) : Prop :=
  ∃ statusLine, OneLine statusLine ∧ statusLine[3]? = some (byte '-') ∧
    statusOf statusLine = OK_BINARY_RESPONSE ∧ buffer = statusLine ++ (kTerminator ++ body)

/-- A binary body that is all there is still counted as such with more bytes behind it. -/
def StaysCounted (sizeParser : ReadBinarySizeFunc) (buffer s : Bytes) : Prop :=
  ∀ f body found, sizeParser = some f → BinaryBody buffer body → Counted f body found →
    Counted f (body ++ s) found

/-- The line at the front of a buffer, if it is complete. -/
theorem oneLine_or_line (buffer : Bytes) : OneLine buffer ∨
    ∃ statusLine rest, OneLine statusLine ∧ buffer = statusLine ++ (kTerminator ++ rest) :=
  free_or_line 0x0d 0x0a buffer

theorem parse_line_append {statusLine rest : Bytes}
    (hparser : ∀ f, sizeParser = some f → Steady f)
    (hline : OneLine statusLine) (hdash : statusLine[3]? = some (byte '-'))
    (hcounted : ∀ f found, statusOf statusLine = OK_BINARY_RESPONSE → sizeParser = some f →
      Counted f rest found → Counted f (rest ++ s) found) :
    Extends sizeParser (statusLine ++ (kTerminator ++ rest)) s := by
  intro n response h
  rw [parse_line sizeParser rest hline hdash] at h
  cases hbody : parseBody sizeParser (statusOf statusLine) statusLine rest with
  | error e =>
    rw [hbody] at h
    cases h
  | ok body =>
    rw [hbody] at h
    cases body with
    | none =>
      cases h
      simp
    | some body =>
      obtain ⟨message, data, others⟩ := body
      have hlength := parseBody_length hparser hbody
      have hsize : (statusLine ++ (kTerminator ++ rest)).length =
          statusLine.length + (2 + rest.length) := by
        simp only [List.length_append]
        rfl
      cases h
      refine ⟨fun _ => ?_, fun hn => ?_, ?_⟩
      · rw [List.append_assoc, List.append_assoc, parse_line sizeParser (rest ++ s) hline hdash,
          parseBody_append hparser s hcounted hbody]
        simp only [Except.map, outcome, List.length_append, Except.ok.injEq, Prod.mk.injEq, and_true]
        omega
      · omega
      · simp only [reduceCtorEq, false_iff]
        omega

theorem staysCounted_of_lt (hparser : ∀ f, sizeParser = some f → Steady f)
    (h : (buffer ++ s).length < 2 ^ 32) : StaysCounted sizeParser buffer s := by
  rintro f body found hf ⟨statusLine, -, -, -, rfl⟩ ⟨haccepted, henough⟩
  simp only [List.length_append] at h
  have hbody : body.length % 2 ^ 32 = body.length := Nat.mod_eq_of_lt (by omega)
  have hlong : (body ++ s).length % 2 ^ 32 = (body ++ s).length := by
    apply Nat.mod_eq_of_lt
    rw [List.length_append]
    omega
  rw [hbody, List.take_length] at haccepted
  rw [hbody] at henough
  refine ⟨?_, ?_⟩
  · rw [hlong, List.take_length]
    exact (hparser f hf).append haccepted s
  · rw [hlong, List.length_append]
    omega

/-- More bytes change nothing exactly if they leave a complete binary body complete, as it is
counted. -/
theorem parse_extends_iff (sizeParser : ReadBinarySizeFunc)
    (hparser : ∀ f, sizeParser = some f → Steady f) (buffer s : Bytes) :
    Extends sizeParser buffer s ↔ StaysCounted sizeParser buffer s := by
  constructor
  · rintro h f body found rfl ⟨statusLine, hline, hdash, hstatus, rfl⟩ hwhole
    have hf := hparser f rfl
    have hbody := (parseBinaryResponse_eq_some hf).mpr ⟨found, hwhole, rfl, rfl⟩
    have hparse := parse_line (some f) body hline hdash
    rw [parseBody_of_binary hstatus, hbody] at hparse
    have hpositive : (0 : Int) < (statusLine ++ (kTerminator ++ body)).length -
        (body.drop (found.consumed + found.size)).length := by
      have hsize : kTerminator.length = 2 := rfl
      simp only [List.length_append, List.length_drop, hsize]
      omega
    have hlong := (h _ _ hparse).1 hpositive
    rw [List.append_assoc, List.append_assoc, parse_line (some f) (body ++ s) hline hdash,
      parseBody_of_binary hstatus] at hlong
    cases hparts : parseBinaryResponse (some f) (body ++ s) with
    | none =>
      rw [hparts] at hlong
      have hsome := congrArg Prod.snd (Except.ok.inj hlong)
      cases hsome
    | some parts =>
      obtain ⟨found', hwhole', -⟩ := (parseBinaryResponse_eq_some hf).mp hparts
      rwa [counted_unique hf s hwhole hwhole'] at hwhole'
  · intro h
    obtain hopen | ⟨statusLine, rest, hline, rfl⟩ := oneLine_or_line buffer
    · intro n response hparse
      rw [parse_unterminated hopen] at hparse
      cases hparse
      simp
    · by_cases hdash : statusLine[3]? = some (byte '-')
      · exact parse_line_append hparser hline hdash fun f found hstatus hf hwhole =>
          h f rest found hf ⟨statusLine, hline, hdash, hstatus, rfl⟩ hwhole
      · intro n response hparse
        by_cases hlength : 4 ≤ (statusLine ++ (kTerminator ++ rest)).length
        · have hlong : 4 ≤ (statusLine ++ (kTerminator ++ (rest ++ s))).length := by
            simp only [List.length_append] at hlength ⊢
            omega
          rw [parse_malformed hline hdash hlength] at hparse
          cases hparse
          have hsize : kTerminator.length = 2 := rfl
          refine ⟨fun hn => by omega, fun _ => ?_, by simp only [true_iff]; omega⟩
          rw [List.append_assoc, List.append_assoc, parse_malformed hline hdash hlong]
        · rw [parse_short (Nat.not_le.mp hlength)] at hparse
          cases hparse
          simp

/-- One byte behind its size. -/
def oneByteAnswer : Bytes :=
  ascii "203- " ++ (kTerminator ++ [1, 0, 0, 0, 0x41])

theorem parse_extends_oneByteAnswer :
    Extends (some binarySizeInt32Prefix) oneByteAnswer (ascii "200- OK") := by
  have hparser : ∀ f, some binarySizeInt32Prefix = some f → Steady f := by
    rintro f ⟨⟩
    exact steady_binarySizeInt32Prefix
  exact (parse_extends_iff _ hparser _ _).mpr (staysCounted_of_lt hparser (by decide))

/-- With 2^32 bytes behind the status line none is counted. -/
theorem not_extends_wrapped :
    parse (some binarySizeInt32Prefix) oneByteAnswer =
        .ok (12, some ⟨OK_BINARY_RESPONSE, [], [0x41]⟩) ∧
      parse (some binarySizeInt32Prefix) (oneByteAnswer ++ List.replicate (2 ^ 32 - 5) 0) =
        .ok (0, none) ∧
      ¬Extends (some binarySizeInt32Prefix) oneByteAnswer (List.replicate (2 ^ 32 - 5) 0) := by
  have hwhole : parse (some binarySizeInt32Prefix) oneByteAnswer =
      .ok (12, some ⟨OK_BINARY_RESPONSE, [], [0x41]⟩) := by decide +kernel
  have hnone : ∀ s : Bytes, s.length = 2 ^ 32 - 5 →
      parse (some binarySizeInt32Prefix) (oneByteAnswer ++ s) = .ok (0, none) := by
    intro s hlength
    have hcount : (([1, 0, 0, 0, 0x41] : Bytes) ++ s).length % 2 ^ 32 = 0 := by
      rw [List.length_append, hlength]
      rfl
    have hbody : parseBinaryResponse (some binarySizeInt32Prefix) ([1, 0, 0, 0, 0x41] ++ s) = none := by
      unfold parseBinaryResponse
      rw [hcount]
      rfl
    have hline : OneLine (ascii "203- ") := free_of_notMem (by decide)
    rw [oneByteAnswer, List.append_assoc, List.append_assoc, parse_line _ _ hline (by decide),
      parseBody_of_binary (by decide), hbody]
    rfl
  have hreplicate := hnone (List.replicate (2 ^ 32 - 5) 0) List.length_replicate
  refine ⟨hwhole, hreplicate, fun h => ?_⟩
  have hsame := (h _ _ hwhole).1 (by decide)
  rw [hreplicate] at hsame
  cases hsame

end Extensions

end XbdmGdbBridge.Proofs
