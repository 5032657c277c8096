import XbdmGdbBridge.Rdcp.Answer

/-!
# Answers of several lines

What `RDCPResponse::Parse` and `RDCPMultilineResponse` make of an answer with a body of lines.
-/

namespace XbdmGdbBridge.Proofs

open Lib Rdcp

/-- A message or a line of a body: no CRLF in it. -/
def OneLine (s : Bytes) : Prop :=
  Free 0x0d 0x0a s

/-- A line that a body may hold without ending there. -/
structure BodyLine (s : Bytes) : Prop where
  oneLine : OneLine s
  nonempty : s ≠ []
  notDot : s ≠ ascii "."

def multilineText (message : Bytes) (lines : List Bytes) : Bytes :=
  ascii "202- " ++ message ++ kTerminator ++ lines.flatMap (· ++ kTerminator) ++ ascii "." ++
    kTerminator

section Terminators

variable {s rest : Bytes} {lines : List Bytes}

theorem crlf_prefix_of_terminator (h : kMultilineTerminator <+: s) : [0x0d, 0x0a] <+: s :=
  List.IsPrefix.trans ⟨[0x2e, 0x0d, 0x0a], rfl⟩ h

/-- The terminator does not start within a line. -/
theorem no_terminator_within (h : OneLine s) {i : Nat} (hi : i < s.length) :
    ¬kMultilineTerminator <+: (s ++ 0x0d :: rest).drop i :=
  fun ht => not_prefix_drop rest (by decide) h hi (crlf_prefix_of_terminator ht)

/-- The terminator does not start at the end of the line in front of a line. -/
theorem no_terminator_before (h : BodyLine s) :
    ¬kMultilineTerminator <+: kTerminator ++ (s ++ kTerminator ++ rest) := by
  intro ht
  rw [List.append_assoc s] at ht
  have htail : [0x2e, 0x0d, 0x0a] <+: s ++ (kTerminator ++ rest) := by
    simpa [kMultilineTerminator, kTerminator] using ht
  match s, h with
  | [], h => exact h.nonempty rfl
  | [c], h =>
    have hc : c = 0x2e := (List.cons_prefix_cons.mp htail).1.symm
    exact h.notDot (by rw [hc]; rfl)
  | c :: d :: s, h =>
    have hd := (List.cons_prefix_cons.mp htail).2
    obtain ⟨hcr, hlf⟩ := List.cons_prefix_cons.mp hd
    cases s with
    | nil =>
      have hne : (0x0a : UInt8) = 0x0d := (List.cons_prefix_cons.mp hlf).1
      cases hne
    | cons e s =>
      have he := (List.cons_prefix_cons.mp hlf).1
      have hfree := (free_cons.mp h.oneLine).2
      exact (free_cons.mp hfree).1 ⟨hcr.symm, by simp [he]⟩

theorem no_terminator_at_lf : ¬kMultilineTerminator <+: 0x0a :: s := by
  intro ht
  have hne : (0x0d : UInt8) = 0x0a := (List.cons_prefix_cons.mp ht).1
  cases hne

end Terminators

section Bodies

variable {first : Bytes} {lines : List Bytes} {rest : Bytes}

/-- The lines in front of their terminator. -/
def bodyText (lines : List Bytes) : Bytes :=
  List.intercalate kTerminator lines

theorem bodyText_cons (first second : Bytes) (lines : List Bytes) :
    bodyText (first :: second :: lines) = first ++ (kTerminator ++ bodyText (second :: lines)) := by
  rw [bodyText, List.intercalate_cons_cons, List.append_assoc]
  rfl

theorem lines_text (first : Bytes) (lines : List Bytes) :
    (first :: lines).flatMap (· ++ kTerminator) ++ ascii "." ++ kTerminator =
      bodyText (first :: lines) ++ kMultilineTerminator := by
  induction lines generalizing first with
  | nil =>
    have hterminator : kTerminator ++ ascii "." ++ kTerminator = kMultilineTerminator := by decide
    simp only [List.flatMap_cons, List.flatMap_nil, List.append_nil, bodyText,
      List.intercalate_singleton, List.append_assoc, ← hterminator]
  | cons second lines ih =>
    have hrest := ih second
    rw [List.append_assoc] at hrest
    rw [bodyText_cons, List.flatMap_cons, List.append_assoc, List.append_assoc, hrest]
    simp only [List.append_assoc]

/-- A body with its terminator starts with its first line. -/
theorem body_first (first : Bytes) (lines : List Bytes) (rest : Bytes) :
    ∃ others, bodyText (first :: lines) ++ (kMultilineTerminator ++ rest) =
      first ++ kTerminator ++ others := by
  cases lines with
  | nil =>
    refine ⟨0x2e :: 0x0d :: 0x0a :: rest, ?_⟩
    simp [bodyText, kMultilineTerminator, kTerminator]
  | cons second lines =>
    refine ⟨bodyText (second :: lines) ++ (kMultilineTerminator ++ rest), ?_⟩
    rw [bodyText_cons]
    simp only [List.append_assoc]

theorem search_past_line (h : OneLine first) :
    search kMultilineTerminator (first ++ (0x0d :: rest)) =
      (search kMultilineTerminator (0x0d :: rest)).map (· + first.length) :=
  search_later fun _ hi => no_terminator_within h hi

/-- In front of a line the end of the line before it is passed over. -/
theorem search_past_end (rest : Bytes) (h : BodyLine first) :
    search kMultilineTerminator (kTerminator ++ (first ++ kTerminator ++ rest)) =
      (search kMultilineTerminator (first ++ kTerminator ++ rest)).map (· + kTerminator.length) := by
  apply search_later
  intro i hi
  match i, hi with
  | 0, _ => exact no_terminator_before h
  | 1, _ => exact no_terminator_at_lf

theorem search_body (h : ∀ l ∈ first :: lines, BodyLine l) :
    search kMultilineTerminator (bodyText (first :: lines) ++ (kMultilineTerminator ++ rest)) =
      some (bodyText (first :: lines)).length := by
  induction lines generalizing first with
  | nil =>
    have hhere : search kMultilineTerminator (kMultilineTerminator ++ rest) = some 0 :=
      search_here (List.prefix_append _ _)
    rw [bodyText, List.intercalate_singleton]
    refine (search_past_line (h first (by simp)).oneLine).trans ?_
    refine (congrArg _ hhere).trans ?_
    simp
  | cons second lines ih =>
    have hothers : ∀ l ∈ second :: lines, BodyLine l := fun l hl => h l (List.mem_cons_of_mem _ hl)
    have hnext := ih hothers
    obtain ⟨others, htext⟩ := body_first second lines rest
    have hend := search_past_end others (hothers second (by simp))
    rw [← htext, hnext] at hend
    rw [bodyText_cons, List.append_assoc, List.append_assoc]
    refine (search_past_line (h first (by simp)).oneLine).trans ?_
    refine (congrArg _ hend).trans ?_
    simp only [Option.map_some, List.length_append]
    congr 1
    omega

theorem splitPair_body (h : ∀ l ∈ first :: lines, OneLine l) :
    splitPair 0x0d 0x0a (bodyText (first :: lines)) = first :: lines := by
  induction lines generalizing first with
  | nil =>
    rw [bodyText, List.intercalate_singleton]
    exact splitPair_free (h first (by simp))
  | cons second lines ih =>
    rw [bodyText_cons]
    have hcut := splitPair_line (bodyText (second :: lines)) (by decide) (h first (by simp))
    rw [ih fun l hl => h l (List.mem_cons_of_mem _ hl)] at hcut
    exact hcut

end Bodies

section Parsing

open RDCPResponse

variable {message statusLine rest : Bytes} {lines : List Bytes}

theorem oneLine_status (h : OneLine message) : OneLine (ascii "202- " ++ message) := by
  have hcons : ∀ (c : UInt8) (s : Bytes), c ≠ 0x0d → OneLine s → OneLine (c :: s) :=
    fun c s hc hs => free_cons.mpr ⟨fun hcr => hc hcr.1, hs⟩
  apply_rules [hcons] <;> decide

/-- What is made of the body of an answer of this many bytes, body included. -/
def outcome (status : UInt32) (length : Nat) :
    Option (Bytes × Bytes × Bytes) → Int × Option RDCPResponse
  | none => (0, none)
  | some (message, data, others) => (length - others.length, some ⟨status, message, data⟩)

/-- A status line is looked at alone; the rest is its body. -/
theorem parse_line (sizeParser : ReadBinarySizeFunc) (rest : Bytes) (hline : OneLine statusLine)
    (hdash : statusLine[3]? = some (byte '-')) :
    parse sizeParser (statusLine ++ (kTerminator ++ rest)) =
      (parseBody sizeParser (statusOf statusLine) statusLine rest).map
        (outcome (statusOf statusLine) (statusLine ++ (kTerminator ++ rest)).length) := by
  obtain ⟨hthree, -⟩ := List.getElem?_eq_some_iff.mp hdash
  have hlength : (statusLine ++ (kTerminator ++ rest)).length = statusLine.length + (2 + rest.length) := by
    simp only [List.length_append]
    rfl
  have hsearch : search kTerminator (statusLine ++ (kTerminator ++ rest)) = some statusLine.length :=
    search_line rest (by decide) hline
  have hdrop : (statusLine ++ (kTerminator ++ rest)).drop (statusLine.length + kTerminator.length) = rest := by
    rw [← List.append_assoc, ← List.length_append, List.drop_left]
  have hat : (statusLine ++ (kTerminator ++ rest))[3]? = some (byte '-') := by
    rw [List.getElem?_append_left hthree, hdash]
  have hsize : kTerminator.length = 2 := rfl
  unfold parse
  rw [if_neg (by omega), hsearch]
  dsimp only
  rw [if_neg (by omega), if_neg (by simp [hat]), List.take_left, hdrop]
  cases parseBody sizeParser (statusOf statusLine) statusLine rest with
  | error e => rfl
  | ok body =>
    cases body with
    | none => rfl
    | some body => rfl

theorem multilineBody_lines (h : ∀ l ∈ lines, BodyLine l) :
    multilineBody (lines.flatMap (· ++ kTerminator) ++ ascii "." ++ kTerminator ++ rest) =
      some (bodyText lines, rest) := by
  unfold multilineBody
  cases lines with
  | nil => rw [if_pos ⟨rest, rfl⟩]; rfl
  | cons first lines =>
    rw [lines_text, List.append_assoc]
    obtain ⟨others, htext⟩ := body_first first lines rest
    have hsome : ¬kMultilineTerminator <+:
        kTerminator ++ (bodyText (first :: lines) ++ (kMultilineTerminator ++ rest)) := by
      rw [htext]
      exact no_terminator_before (h first (by simp))
    unfold parseMultilineResponse
    rw [if_neg hsome, search_body h, Option.map_some, List.take_left, ← List.append_assoc,
      ← List.length_append, List.drop_left]

section Bodies

variable {sizeParser : ReadBinarySizeFunc} {status : UInt32}

theorem parseBody_of_multiline (hstatus : status = OK_MULTILINE_RESPONSE)
    (hmessage : messageText statusLine = .ok message) :
    parseBody sizeParser status statusLine rest =
      .ok ((multilineBody rest).map fun (data, others) => (message, data, others)) := by
  unfold parseBody
  rw [if_pos hstatus, hmessage]
  rfl

theorem parseBody_of_binary (hstatus : status = OK_BINARY_RESPONSE) :
    parseBody sizeParser status statusLine rest =
      .ok ((parseBinaryResponse sizeParser rest).map fun (data, others) => ([], data, others)) := by
  have hother : status ≠ OK_MULTILINE_RESPONSE := by
    rw [hstatus]
    decide
  unfold parseBody
  rw [if_neg hother, if_pos hstatus]
  rfl

theorem parseBody_of_line (hmultiline : status ≠ OK_MULTILINE_RESPONSE)
    (hbinary : status ≠ OK_BINARY_RESPONSE) (hmessage : messageText statusLine = .ok message) :
    parseBody sizeParser status statusLine rest = .ok (some (message, message, rest)) := by
  unfold parseBody
  rw [if_neg hmultiline, if_neg hbinary, hmessage]
  rfl

end Bodies

theorem parseBody_multiline (sizeParser : ReadBinarySizeFunc) (h : ∀ l ∈ lines, BodyLine l) :
    parseBody sizeParser OK_MULTILINE_RESPONSE (ascii "202- " ++ message)
        (lines.flatMap (· ++ kTerminator) ++ ascii "." ++ kTerminator ++ rest) =
      .ok (some (message, bodyText lines, rest)) := by
  have hmessage : messageText (ascii "202- " ++ message) = .ok message := by
    have hlength : ¬(ascii "202- " ++ message).length < 5 := by
      have hfive : (ascii "202- ").length = 5 := rfl
      rw [List.length_append]
      omega
    unfold messageText
    rw [if_neg hlength]
    rfl
  rw [parseBody_of_multiline rfl hmessage, multilineBody_lines h]
  rfl

theorem bodyText_ne_nil {first : Bytes} (h : first ≠ []) : bodyText (first :: lines) ≠ [] := by
  cases lines with
  | nil => simpa [bodyText] using h
  | cons second lines =>
    rw [bodyText_cons]
    simp [h]

theorem parse_multiline (sizeParser : ReadBinarySizeFunc) (message : Bytes) (lines : List Bytes)
    (rest : Bytes) (hmessage : OneLine message) (hlines : ∀ l ∈ lines, BodyLine l) :
    ∃ response, parse sizeParser (multilineText message lines ++ rest) =
        .ok ((multilineText message lines).length, some response) ∧
      response.status = OK_MULTILINE_RESPONSE ∧ response.message = message ∧
      (RDCPMultilineResponse.ofData response.data).lines = lines := by
  refine ⟨⟨OK_MULTILINE_RESPONSE, message, bodyText lines⟩, ?_, rfl, rfl, ?_⟩
  · have htext : multilineText message lines ++ rest = (ascii "202- " ++ message) ++
        (kTerminator ++ (lines.flatMap (· ++ kTerminator) ++ ascii "." ++ kTerminator ++ rest)) := by
      simp only [multilineText, List.append_assoc]
    have hstatus : statusOf (ascii "202- " ++ message) = OK_MULTILINE_RESPONSE := by
      change UInt32.ofInt (CText.strtol 10 (ascii "202")).1 = _
      decide +kernel
    have hparsed := parse_line sizeParser
      (lines.flatMap (· ++ kTerminator) ++ ascii "." ++ kTerminator ++ rest)
      (oneLine_status hmessage) rfl
    rw [hstatus, parseBody_multiline sizeParser hlines, ← htext] at hparsed
    rw [hparsed]
    simp [Except.map, outcome]
  · cases lines with
    | nil => rfl
    | cons first lines =>
      have hsome : bodyText (first :: lines) ≠ [] :=
        bodyText_ne_nil (hlines first (by simp)).nonempty
      change splitMultiline (bodyText (first :: lines)) = _
      unfold splitMultiline
      rw [if_neg hsome]
      exact splitPair_body fun l hl => (hlines l hl).oneLine

/-- Lines that start with a dot, that end in a CR and that are an LF alone. -/
theorem parse_multiline_stray_ends :
    ∃ response, parse none (multilineText (ascii "ok") [ascii "..", [0x2e, 0x0d], [0x0a]] ++
          kMultilineTerminator) =
        .ok ((multilineText (ascii "ok") [ascii "..", [0x2e, 0x0d], [0x0a]]).length,
          some response) ∧
      response.status = OK_MULTILINE_RESPONSE ∧ response.message = ascii "ok" ∧
      (RDCPMultilineResponse.ofData response.data).lines =
        [ascii "..", [0x2e, 0x0d], [0x0a]] := by
  have hlines : ∀ l ∈ [ascii "..", [0x2e, 0x0d], [0x0a]],
      ¬[0x0d, 0x0a] <:+: l ∧ l ≠ [] ∧ l ≠ ascii "." := by decide +kernel
  apply parse_multiline none (ascii "ok") _ kMultilineTerminator
  · unfold OneLine Free
    decide +kernel
  · intro l hl
    obtain ⟨hfree, hne, hdot⟩ := hlines l hl
    exact ⟨hfree, hne, hdot⟩

end Parsing

/-- A well-formed answer: three digits and a message, and for two statuses a body behind them. -/
inductive Answer where
  | line (code message : Bytes)
  | multiline (message : Bytes) (lines : List Bytes)
  | binary (message header data : Bytes)
deriving DecidableEq, Repr

/-- The header alone says how many bytes follow it, and no part of it does. -/
def Announces (sizeParser : ReadBinarySizeFunc) (header : Bytes) (size : Nat) : Prop :=
  ∃ f, sizeParser = some f ∧ (∀ rest, f (header ++ rest) = some ⟨size, header.length⟩) ∧
    ∀ p, p <+: header → p ≠ header → f p = none

namespace Answer

def code : Answer → Bytes
  | line code _ => code
  | multiline _ _ => ascii "202"
  | binary _ _ _ => ascii "203"

def message : Answer → Bytes
  | line _ message | multiline message _ | binary message _ _ => message

def body : Answer → Bytes
  | line _ _ => []
  | multiline _ lines => lines.flatMap (· ++ kTerminator) ++ ascii "." ++ kTerminator
  | binary _ header data => header ++ data

def statusLine (a : Answer) : Bytes :=
  a.code ++ ascii "- " ++ a.message

def text (a : Answer) : Bytes :=
  a.statusLine ++ (kTerminator ++ a.body)

/-- What the answer says. -/
def response (a : Answer) : RDCPResponse where
  status := RDCPResponse.statusOf a.code
  message := match a with
    | line _ message | multiline message _ => message
    | binary _ _ _ => []
  data := match a with
    | line _ message => message
    | multiline _ lines => bodyText lines
    | binary _ _ data => data

/-- Well formed as an answer to a request with this size parser. -/
def WellFormed (sizeParser : ReadBinarySizeFunc) (a : Answer) : Prop :=
  OneLine a.message ∧ match a with
    | line code _ => code.length = 3 ∧ (∀ c ∈ code, CText.isDigit 10 c = true) ∧
        RDCPResponse.statusOf code ≠ OK_MULTILINE_RESPONSE ∧
        RDCPResponse.statusOf code ≠ OK_BINARY_RESPONSE
    | multiline _ lines => ∀ l ∈ lines, BodyLine l
    | binary _ header data => Announces sizeParser header data.length

/-- The bytes behind the status line can be counted in 32 bits. -/
def Countable : Answer → Prop
  | line _ _ | multiline _ _ => True
  | binary _ header data => header.length + data.length < 2 ^ 32

end Answer

section Cuts

open RDCPResponse

variable {sizeParser : ReadBinarySizeFunc} {a : Answer} {p : Bytes}

theorem parse_unterminated (h : OneLine p) : parse sizeParser p = .ok (0, none) := by
  unfold parse
  split
  · rfl
  · rw [show search kTerminator p = none from search_free h]

theorem length_code (h : a.WellFormed sizeParser) : a.code.length = 3 := by
  cases a with
  | line code message => exact h.2.1
  | multiline message lines => rfl
  | binary message header data => rfl

theorem digits_code (h : a.WellFormed sizeParser) : ∀ c ∈ a.code, CText.isDigit 10 c = true := by
  cases a with
  | line code message => exact h.2.2.1
  | multiline message lines =>
    change ∀ c ∈ ascii "202", CText.isDigit 10 c = true
    decide +kernel
  | binary message header data =>
    change ∀ c ∈ ascii "203", CText.isDigit 10 c = true
    decide +kernel

theorem oneLine_statusLine (h : a.WellFormed sizeParser) : OneLine a.statusLine := by
  have hcode : 0x0d ∉ a.code ++ ascii "- " := by
    rw [List.mem_append, not_or]
    refine ⟨fun hmem => ?_, by decide⟩
    have hdigit := digits_code h _ hmem
    revert hdigit
    decide
  exact (free_append_left hcode).mpr h.1

theorem dash_statusLine (h : a.WellFormed sizeParser) :
    a.statusLine[3]? = some (byte '-') := by
  have hlength := length_code h
  rw [Answer.statusLine, List.append_assoc, List.getElem?_append_right (by omega), hlength]
  rfl

theorem statusOf_statusLine (h : a.WellFormed sizeParser) :
    statusOf a.statusLine = statusOf a.code := by
  have hlength := length_code h
  unfold statusOf Answer.statusLine
  rw [List.append_assoc, List.take_append_of_le_length (by omega)]

theorem statusOf_multiline : statusOf (ascii "202") = OK_MULTILINE_RESPONSE := by
  decide +kernel

theorem statusOf_binary : statusOf (ascii "203") = OK_BINARY_RESPONSE := by
  decide +kernel

theorem messageText_statusLine (h : a.WellFormed sizeParser) :
    messageText a.statusLine = .ok a.message := by
  have hfive : (a.code ++ ascii "- ").length = 5 := by
    rw [List.length_append, length_code h]
    rfl
  unfold messageText Answer.statusLine
  rw [if_neg (by rw [List.length_append]; omega), ← hfive, List.drop_left]

theorem parseBinaryResponse_small (f : Bytes → Option BinarySize) {body : Bytes}
    (h : body.length < 2 ^ 32) :
    parseBinaryResponse (some f) body = (f body).bind fun found =>
      if body.length - found.consumed < found.size then none
      else some ((body.drop found.consumed).take found.size,
        (body.drop found.consumed).drop found.size) := by
  unfold parseBinaryResponse
  rw [Nat.mod_eq_of_lt h]
  dsimp only
  rw [List.take_length]
  rfl

theorem parseBinaryResponse_announced {header data : Bytes}
    (h : Announces sizeParser header data.length) (hcount : header.length + data.length < 2 ^ 32) :
    parseBinaryResponse sizeParser (header ++ data) = some (data, []) := by
  obtain ⟨f, rfl, hwhole, -⟩ := h
  rw [parseBinaryResponse_small f (by rwa [List.length_append]), hwhole]
  simp

/-- Without its last bytes the body is not complete. -/
theorem parseBinaryResponse_cut {header data : Bytes}
    (h : Announces sizeParser header data.length) (hcount : header.length + data.length < 2 ^ 32)
    (hp : p <+: header ++ data) (hne : p ≠ header ++ data) :
    parseBinaryResponse sizeParser p = none := by
  obtain ⟨f, rfl, hwhole, hpart⟩ := h
  have hle := hp.length_le
  rw [List.length_append] at hle
  rw [parseBinaryResponse_small f (by omega)]
  rcases cut_append hp with ⟨hheader, hshort⟩ | ⟨q, rfl, hq⟩
  · rw [hpart p hheader hshort]
    rfl
  · have hlt : q.length < data.length :=
      lt_of_le_of_ne hq.length_le fun hlength => hne (by rw [hq.eq_of_length hlength])
    rw [hwhole]
    simp [hlt]

/-- Without its last bytes a body of lines has no terminator. -/
theorem multilineBody_cut {lines : List Bytes} (h : ∀ l ∈ lines, BodyLine l)
    (hp : p <+: lines.flatMap (· ++ kTerminator) ++ ascii "." ++ kTerminator)
    (hne : p ≠ lines.flatMap (· ++ kTerminator) ++ ascii "." ++ kTerminator) :
    multilineBody p = none := by
  have hlt : p.length < (lines.flatMap (· ++ kTerminator) ++ ascii "." ++ kTerminator).length :=
    lt_of_le_of_ne hp.length_le fun hlength => hne (hp.eq_of_length hlength)
  unfold multilineBody parseMultilineResponse
  cases lines with
  | nil =>
    have hlength : p.length < 3 := hlt
    have hterminator : kMultilineTerminator.length = 5 := rfl
    have hend : kTerminator.length = 2 := rfl
    rw [if_neg fun ht => ?_]
    · cases hsearch : search kMultilineTerminator p with
      | none => rfl
      | some i =>
        have hbound := search_length hsearch
        omega
    · have hbound := ht.length_le
      rw [List.length_append] at hbound
      omega
  | cons first lines =>
    rw [lines_text] at hp hlt
    obtain ⟨others, htext⟩ := body_first first lines []
    have hwhole : ¬kMultilineTerminator <+: kTerminator ++ (first ++ kTerminator ++ others) :=
      no_terminator_before (h first (by simp))
    rw [← htext, List.append_nil] at hwhole
    have hsome : ¬kMultilineTerminator <+: kTerminator ++ p :=
      fun ht => hwhole (ht.trans ((List.prefix_append_right_inj _).mpr hp))
    rw [if_neg hsome]
    cases hsearch : search kMultilineTerminator p with
    | none => rfl
    | some i =>
      obtain ⟨rest, hrest⟩ := hp
      have hbound := search_length hsearch
      have hlong := search_append rest hsearch
      have hbody : search kMultilineTerminator
          (bodyText (first :: lines) ++ (kMultilineTerminator ++ [])) =
          some (bodyText (first :: lines)).length := search_body h
      rw [List.append_nil, ← hrest, hlong] at hbody
      rw [List.length_append, ← Option.some.inj hbody] at hlt
      omega

theorem parseBody_answer (h : a.WellFormed sizeParser) (hcount : a.Countable) :
    parseBody sizeParser (statusOf a.code) a.statusLine a.body =
      .ok (some (a.response.message, a.response.data, [])) := by
  have hmessage := messageText_statusLine h
  cases a with
  | line code message =>
    obtain ⟨-, -, -, hmultiline, hbinary⟩ := h
    exact parseBody_of_line hmultiline hbinary hmessage
  | multiline message lines =>
    have hbody : multilineBody ((Answer.multiline message lines).body ++ []) =
        some (bodyText lines, []) := multilineBody_lines h.2
    rw [List.append_nil] at hbody
    refine (parseBody_of_multiline statusOf_multiline hmessage).trans ?_
    rw [hbody]
    rfl
  | binary message header data =>
    have hbody : parseBinaryResponse sizeParser (Answer.binary message header data).body =
        some (data, []) := parseBinaryResponse_announced h.2 hcount
    refine (parseBody_of_binary statusOf_binary).trans ?_
    rw [hbody]
    rfl

theorem parseBody_cut (h : a.WellFormed sizeParser) (hcount : a.Countable) (hp : p <+: a.body)
    (hne : p ≠ a.body) : parseBody sizeParser (statusOf a.code) a.statusLine p = .ok none := by
  have hmessage := messageText_statusLine h
  cases a with
  | line code message => exact absurd (List.prefix_nil.mp hp) hne
  | multiline message lines =>
    refine (parseBody_of_multiline statusOf_multiline hmessage).trans ?_
    rw [multilineBody_cut h.2 hp hne]
    rfl
  | binary message header data =>
    refine (parseBody_of_binary statusOf_binary).trans ?_
    rw [parseBinaryResponse_cut h.2 hcount hp hne]
    rfl

theorem parse_answer (h : a.WellFormed sizeParser) (hcount : a.Countable) :
    parse sizeParser a.text = .ok (a.text.length, some a.response) := by
  unfold Answer.text
  rw [parse_line sizeParser a.body (oneLine_statusLine h) (dash_statusLine h),
    statusOf_statusLine h, parseBody_answer h hcount]
  simp [Except.map, outcome, Answer.response]

/-- A part of an answer is left in the buffer. -/
theorem parse_cut (h : a.WellFormed sizeParser) (hcount : a.Countable) (hp : p <+: a.text)
    (hne : p ≠ a.text) : parse sizeParser p = .ok (0, none) := by
  have hline := oneLine_statusLine h
  rcases cut_append hp with ⟨hstatus, -⟩ | ⟨q, rfl, hq⟩
  · exact parse_unterminated fun hpair => hline (hpair.trans hstatus.isInfix)
  rcases cut_append hq with ⟨hend, hshort⟩ | ⟨body, rfl, hbody⟩
  · apply parse_unterminated
    have hshorter : q <+: [0x0d] := by
      obtain rfl | ⟨t, rfl, rfl | rfl⟩ : q = [] ∨ ∃ t, q = 0x0d :: t ∧ (t = [] ∨ t = [0x0a]) := by
        simpa [kTerminator, List.prefix_cons_iff] using hend
      · exact List.nil_prefix
      · exact List.prefix_rfl
      · exact absurd rfl hshort
    refine (free_append_right fun hmem => ?_).mpr hline
    have hcr := List.mem_singleton.mp (hshorter.subset hmem)
    cases hcr
  · have hpart : body ≠ a.body := fun heq => hne (by rw [heq]; rfl)
    rw [parse_line sizeParser body hline (dash_statusLine h), statusOf_statusLine h,
      parseBody_cut h hcount hbody hpart]
    rfl

end Cuts

end XbdmGdbBridge.Proofs
