import XbdmGdbBridge.Lib.Assoc
import XbdmGdbBridge.Lib.Lines
import XbdmGdbBridge.Proofs.Frames
import XbdmGdbBridge.Rdcp.Response

/-!
# Texts of keys and values

How `RDCPMapResponse` reads a text that is written entry by entry.
-/

namespace XbdmGdbBridge.Proofs

open Lib CText Rdcp

/-- A character the tokenizer takes as it is. -/
def Taken (inQuote : Bool) (c : UInt8) : Prop :=
  c ≠ 0 ∧ c ≠ 0x22 ∧ (c = 0x20 → inQuote = true)

/-- A text that is a token or a part of one without quotes. -/
def Word (s : Bytes) : Prop :=
  ∀ c ∈ s, Taken false c

/-- The tokenizer takes the text for the token or for the part of one, whatever follows. -/
def ReadsAs (w token : Bytes) : Prop :=
  ∀ s, nextToken false (w ++ s) = (nextToken false s).map fun next => (token ++ next.1, next.2)

section Tokens

variable {v w s token : Bytes}

theorem nextToken_taken {inQuote : Bool} {c : UInt8} (h : Taken inQuote c) (s : Bytes) :
    nextToken inQuote (c :: s) = extend c (nextToken inQuote s) := by
  obtain ⟨hzero, hquote, hspace⟩ := h
  rw [nextToken.eq_def]
  dsimp only
  rw [if_neg hzero]
  by_cases hc : c = 0x20
  · rw [if_pos hc, if_pos (hspace hc)]
  · rw [if_neg hc, if_neg hquote]

theorem nextToken_run {inQuote : Bool} (h : ∀ c ∈ w, Taken inQuote c) (s : Bytes) :
    nextToken inQuote (w ++ s) = (nextToken inQuote s).map fun next => (w ++ next.1, next.2) := by
  induction w with
  | nil =>
    rw [List.nil_append]
    cases nextToken inQuote s <;> rfl
  | cons c w ih =>
    obtain ⟨hc, hw⟩ := List.forall_mem_cons.mp h
    rw [List.cons_append, nextToken_taken hc, ih hw]
    cases nextToken inQuote s <;> rfl

theorem nextToken_space (s : Bytes) : nextToken false (0x20 :: s) = .ok ([], some s) := by
  rw [nextToken.eq_def]
  dsimp only
  rw [if_neg (by decide), if_pos rfl, if_neg (by decide)]

theorem nextToken_quote (inQuote : Bool) (s : Bytes) :
    nextToken inQuote (0x22 :: s) = nextToken (!inQuote) s := by
  rw [nextToken.eq_def]
  dsimp only
  rw [if_neg (by decide), if_neg (by decide), if_pos rfl]

theorem Word.readsAs (h : Word w) : ReadsAs w w :=
  fun s => nextToken_run h s

theorem readsAs_quoted (hzero : 0 ∉ v) (hquote : 0x22 ∉ v) : ReadsAs (0x22 :: v ++ [0x22]) v := by
  intro s
  have htaken : ∀ c ∈ v, Taken true c := fun c hc =>
    ⟨fun h => hzero (h ▸ hc), fun h => hquote (h ▸ hc), fun _ => rfl⟩
  rw [List.cons_append, List.cons_append, nextToken_quote, List.append_assoc]
  exact (nextToken_run htaken _).trans (by rw [List.singleton_append, nextToken_quote]; rfl)

theorem ReadsAs.append {token' : Bytes} (hv : ReadsAs v token) (hw : ReadsAs w token') :
    ReadsAs (v ++ w) (token ++ token') := by
  intro s
  rw [List.append_assoc, hv, hw]
  cases nextToken false s with
  | error e => rfl
  | ok next => simp [Except.map]

theorem ReadsAs.eq_nil (h : ReadsAs [] token) : token = [] := by
  have hnil := h []
  simpa [nextToken, Except.map] using hnil.symm

theorem ReadsAs.ends (h : ReadsAs w token) : nextToken false w = .ok (token, none) := by
  have hends := h []
  simpa [nextToken, Except.map] using hends

theorem ReadsAs.separated (h : ReadsAs w token) (s : Bytes) :
    nextToken false (w ++ 0x20 :: s) = .ok (token, some s) := by
  rw [h, nextToken_space]
  simp [Except.map]

/-- Words behind each other with a space between them are cut into their tokens. -/
theorem tokensFrom_written (fuel : Nat) (w token : Bytes) (words : List (Bytes × Bytes))
    (hw : ReadsAs w token) (hwords : ∀ v ∈ words, ReadsAs v.1 v.2) (hfuel : words.length < fuel) :
    tokensFrom fuel (w ++ words.flatMap (0x20 :: ·.1)) = .ok (token :: words.map Prod.snd) := by
  induction words generalizing fuel w token with
  | nil =>
    obtain ⟨fuel, rfl⟩ := Nat.exists_eq_succ_of_ne_zero (Nat.ne_of_gt hfuel)
    rw [List.flatMap_nil, List.append_nil, tokensFrom, hw.ends]
    rfl
  | cons v words ih =>
    obtain ⟨fuel, rfl⟩ := Nat.exists_eq_succ_of_ne_zero (Nat.ne_of_gt (Nat.lt_trans (by simp) hfuel))
    obtain ⟨hv, hrest⟩ := List.forall_mem_cons.mp hwords
    have hnext := ih fuel v.1 v.2 hv hrest (by simpa using hfuel)
    have htoken : nextToken false (w ++ (v :: words).flatMap (0x20 :: ·.1)) =
        .ok (token, some (v.1 ++ words.flatMap (0x20 :: ·.1))) := by
      rw [List.flatMap_cons, List.cons_append]
      exact hw.separated _
    rw [tokensFrom, htoken]
    cases hbehind : v.1 ++ words.flatMap (0x20 :: ·.1) with
    | nil =>
      -- Only an empty last word leaves nothing behind the separator.
      obtain ⟨hempty, hnone⟩ := List.append_eq_nil_iff.mp hbehind
      rw [hempty] at hv
      cases words with
      | nil => simp [hv.eq_nil, pure, Except.pure, bind, Except.bind]
      | cons u words => simp at hnone
    | cons c others =>
      rw [hbehind] at hnext
      change (tokensFrom fuel (c :: others) >>= fun tokens => pure (token :: tokens)) = _
      rw [hnext]
      rfl

theorem replacePair_free {a b c : UInt8} (h : Free a b s) : replacePair a b c s = s := by
  induction s using replacePair.induct a b with
  | case1 => rfl
  | case2 d => rfl
  | case3 d e rest hde ih => exact absurd ⟨hde.1, by simp [hde.2]⟩ (free_cons.mp h).1
  | case4 d e rest hde ih => rw [replacePair, if_neg hde, ih (free_cons.mp h).2]

theorem length_words_le {β : Type} (words : List β) (text : β → Bytes) :
    words.length ≤ (words.flatMap (0x20 :: text ·)).length := by
  induction words with
  | nil => exact Nat.le_refl 0
  | cons w words ih =>
    simp only [List.flatMap_cons, List.length_cons, List.length_append]
    omega

/-- A text that is not empty and free of line ends is read word by word. -/
theorem ofText_written (w token : Bytes) (words : List (Bytes × Bytes)) (hw : ReadsAs w token)
    (hwords : ∀ v ∈ words, ReadsAs v.1 v.2)
    (hsome : w ++ words.flatMap (0x20 :: ·.1) ≠ [])
    (hline : Free 0x0d 0x0a (w ++ words.flatMap (0x20 :: ·.1))) :
    RDCPMapResponse.ofText (w ++ words.flatMap (0x20 :: ·.1)) =
      .ok ((token :: words.map Prod.snd).foldl RDCPMapResponse.add {}) := by
  have hfuel : words.length < (w ++ words.flatMap (0x20 :: ·.1)).length + 1 := by
    have hwords := length_words_le words Prod.fst
    rw [List.length_append]
    omega
  unfold RDCPMapResponse.ofText
  rw [if_neg hsome, replacePair_free hline]
  dsimp only
  rw [tokensFrom_written _ w token words hw hwords hfuel]
  rfl

/-- A leading separator has an empty token in front of it. -/
theorem ofText_arguments (words : List (Bytes × Bytes)) (hwords : ∀ v ∈ words, ReadsAs v.1 v.2)
    (hsome : words ≠ []) (hline : Free 0x0d 0x0a (words.flatMap (0x20 :: ·.1))) :
    RDCPMapResponse.ofText (words.flatMap (0x20 :: ·.1)) =
      .ok (([] :: words.map Prod.snd).foldl RDCPMapResponse.add {}) := by
  have hnil : Word [] := fun c hc => absurd hc (by simp)
  have hne : words.flatMap (0x20 :: ·.1) ≠ [] := by
    cases words with
    | nil => exact absurd rfl hsome
    | cons w words => simp
  exact ofText_written [] [] words hnil.readsAs hwords hne hline

end Tokens

section Maps

open RDCPMapResponse

theorem lookup_assign (key value k : Bytes) (m : List (Bytes × Bytes)) :
    (assign key value m).lookup k = if k = key then some value else m.lookup k := by
  unfold assign
  rw [List.lookup_append, lookup_filter_ne]
  by_cases hk : k = key
  · simp [hk]
  · have hne : (k == key) = false := by simpa using hk
    simp [hk, List.lookup_cons, hne]

theorem add_pair {name text : Bytes} (hname : byte '=' ∉ name) (htext : text.head? ≠ some 0x22)
    (r : RDCPMapResponse) :
    r.add (name ++ byte '=' :: text) =
      { r with map := assign (toLowerCopy name) text r.map } := by
  have hvalue : valueText text = text := by
    cases text with
    | nil => rfl
    | cons c rest => exact if_neg (by simpa using htext)
  have hfound : (name ++ byte '=' :: text).idxOf? (byte '=') = some name.length :=
    Frames.memchr_first hname
  unfold add
  rw [hfound]
  simp [hvalue]

theorem add_word {word : Bytes} (hword : byte '=' ∉ word) (r : RDCPMapResponse) :
    r.add word = { map := assign (toLowerCopy word) [] r.map
                   valuelessKeys := toLowerCopy word :: r.valuelessKeys } := by
  unfold add
  rw [List.idxOf?_eq_none_iff.mpr hword]

/-- An entry of a text of keys and values. -/
inductive Entry where
  | valueless (key : Bytes)
  | unquoted (key value : Bytes)
  | quoted (key value : Bytes)
deriving DecidableEq, Repr

namespace Entry

def key : Entry → Bytes
  | valueless key => key
  | unquoted key _ => key
  | quoted key _ => key

def value : Entry → Bytes
  | valueless _ => []
  | unquoted _ value => value
  | quoted _ value => value

def isValueless : Entry → Bool
  | valueless _ => true
  | _ => false

def text : Entry → Bytes
  | valueless key => key
  | unquoted key value => key ++ byte '=' :: value
  | quoted key value => key ++ byte '=' :: 0x22 :: value ++ [0x22]

/-- The entry as the tokenizer hands it on: without quotes. -/
def token : Entry → Bytes
  | valueless key => key
  | unquoted key value => key ++ byte '=' :: value
  | quoted key value => key ++ byte '=' :: value

/-- The entry is one token, and its key ends at the first delimiter. -/
structure Legible (e : Entry) : Prop where
  key : Word e.key
  delimiter : byte '=' ∉ e.key
  zero : 0 ∉ e.value
  quote : 0x22 ∉ e.value
  space : ∀ k v, e = .unquoted k v → 0x20 ∉ v

end Entry

theorem Entry.Legible.readsAs {e : Entry} (h : e.Legible) : ReadsAs e.text e.token := by
  have hdelimiter : Word [byte '='] := by
    unfold Word Taken
    decide +kernel
  cases e with
  | valueless key => exact h.key.readsAs
  | unquoted key value =>
    have hvalue : Word value := fun c hc =>
      ⟨fun hz => h.zero (hz ▸ hc), fun hq => h.quote (hq ▸ hc),
        fun hs => absurd (hs ▸ hc) (h.space key value rfl)⟩
    exact h.key.readsAs.append (hdelimiter.readsAs.append hvalue.readsAs)
  | quoted key value =>
    have hquoted := h.key.readsAs.append
      (hdelimiter.readsAs.append (readsAs_quoted h.zero h.quote))
    simpa [Entry.text, Entry.token, Entry.key, Entry.value] using hquoted

/-- A character that neither the key nor the value has. -/
theorem Entry.notMem_text {e : Entry} {c : UInt8} (hkey : c ∉ e.key) (hvalue : c ∉ e.value)
    (hdelimiter : c ≠ byte '=') (hquote : c ≠ 0x22) : c ∉ e.text := by
  cases e with
  | valueless key => exact hkey
  | unquoted key value =>
    have hboth : c ∉ key ∧ c ∉ value := ⟨hkey, hvalue⟩
    simp [Entry.text, hboth, hdelimiter]
  | quoted key value =>
    have hboth : c ∉ key ∧ c ∉ value := ⟨hkey, hvalue⟩
    simp [Entry.text, hboth, hdelimiter, hquote]

/-- What an entry stores. -/
def Entry.stored (e : Entry) : Bytes × Bytes :=
  (toLowerCopy e.key, e.value)

theorem stored_keys (entries : List Entry) :
    (entries.map Entry.stored).map Prod.fst = entries.map fun e => toLowerCopy e.key := by
  rw [List.map_map]
  rfl

theorem assign_new {key value : Bytes} {m : List (Bytes × Bytes)} (h : key ∉ m.map Prod.fst) :
    assign key value m = m ++ [(key, value)] := by
  unfold assign
  rw [List.filter_eq_self.mpr]
  intro entry hentry
  have hne : entry.1 ≠ key := fun heq => h (heq ▸ List.mem_map_of_mem hentry)
  simpa using hne

theorem add_legible {e : Entry} (h : e.Legible) (r : RDCPMapResponse)
    (hnew : toLowerCopy e.key ∉ r.map.map Prod.fst) :
    r.add e.token = { map := r.map ++ [e.stored]
                      valuelessKeys := if e.isValueless then toLowerCopy e.key :: r.valuelessKeys
                        else r.valuelessKeys } := by
  have hhead : e.value.head? ≠ some 0x22 := fun hhead => h.quote (List.mem_of_head? hhead)
  cases e with
  | valueless key =>
    refine (add_word h.delimiter r).trans ?_
    rw [assign_new hnew]
    rfl
  | unquoted key value => exact (add_pair h.delimiter hhead r).trans (by rw [assign_new hnew]; rfl)
  | quoted key value => exact (add_pair h.delimiter hhead r).trans (by rw [assign_new hnew]; rfl)

/-- Entries under keys that are all new are stored in turn. -/
theorem foldl_add_legible (entries : List Entry) (r : RDCPMapResponse)
    (hlegible : ∀ e ∈ entries, e.Legible)
    (hdistinct : (r.map.map Prod.fst ++ entries.map fun e => toLowerCopy e.key).Nodup) :
    (entries.map Entry.token).foldl add r =
      { map := r.map ++ entries.map Entry.stored
        valuelessKeys := ((entries.filter Entry.isValueless).map fun e => toLowerCopy e.key).reverse ++
          r.valuelessKeys } := by
  induction entries generalizing r with
  | nil => simp
  | cons e entries ih =>
    obtain ⟨he, hrest⟩ := List.forall_mem_cons.mp hlegible
    have hnew : toLowerCopy e.key ∉ r.map.map Prod.fst := by
      intro hmem
      exact (List.nodup_append.mp hdistinct).2.2 _ hmem _ (by simp) rfl
    rw [List.map_cons, List.foldl_cons, add_legible he r hnew, ih _ hrest]
    · cases hv : e.isValueless with
      | false => simp [hv]
      | true => simp [hv]
    · simpa [Entry.stored] using hdistinct

theorem lookup_stored {entries : List Entry} {e : Entry}
    (hdistinct : (entries.map fun e => toLowerCopy e.key).Nodup) (he : e ∈ entries) :
    (entries.map Entry.stored).lookup (toLowerCopy e.key) = some e.value := by
  obtain ⟨before, behind, rfl⟩ := List.append_of_mem he
  rw [List.lookup_eq_some_iff]
  refine ⟨before.map Entry.stored, behind.map Entry.stored, by simp [Entry.stored], ?_⟩
  intro p hp
  obtain ⟨other, hother, rfl⟩ := List.mem_map.mp hp
  rw [List.map_append, List.map_cons] at hdistinct
  have hne : toLowerCopy other.key ≠ toLowerCopy e.key :=
    (List.nodup_append.mp hdistinct).2.2 _ (List.mem_map_of_mem hother) _ (by simp)
  simpa [Entry.stored] using hne.symm

theorem joined_text (e : Entry) (entries : List Entry) :
    List.intercalate [0x20] ((e :: entries).map Entry.text) =
      e.text ++ (entries.map fun e => (e.text, e.token)).flatMap (0x20 :: ·.1) := by
  induction entries generalizing e with
  | nil => simp
  | cons e' entries ih =>
    have hrest := ih e'
    rw [List.map_cons] at hrest
    rw [List.map_cons, List.map_cons, List.intercalate_cons_cons, hrest]
    simp

theorem ofText_legible (entries : List Entry) (hlegible : ∀ e ∈ entries, e.Legible)
    (hsome : ∀ e ∈ entries, e.text ≠ [])
    (hline : Free 0x0d 0x0a (List.intercalate [0x20] (entries.map Entry.text)))
    (hdistinct : (entries.map fun e => toLowerCopy e.key).Nodup) :
    ofText (List.intercalate [0x20] (entries.map Entry.text)) =
      .ok { map := entries.map Entry.stored
            valuelessKeys :=
              ((entries.filter Entry.isValueless).map fun e => toLowerCopy e.key).reverse } := by
  cases entries with
  | nil => rfl
  | cons e entries =>
    obtain ⟨he, hentries⟩ := List.forall_mem_cons.mp hlegible
    have hwords : ∀ v ∈ entries.map fun e => (e.text, e.token), ReadsAs v.1 v.2 := by
      intro v hv
      obtain ⟨e', he', rfl⟩ := List.mem_map.mp hv
      exact (hentries e' he').readsAs
    rw [joined_text] at hline ⊢
    rw [ofText_written e.text e.token _ he.readsAs hwords (by simp [hsome e (by simp)]) hline]
    have htokens : e.token :: (entries.map fun e => (e.text, e.token)).map Prod.snd =
        (e :: entries).map Entry.token := by
      rw [List.map_map]
      rfl
    rw [htokens, foldl_add_legible (e :: entries) {} hlegible (by simpa using hdistinct)]
    simp

theorem ofText_arguments_legible (entries : List Entry) (hlegible : ∀ e ∈ entries, e.Legible)
    (hsome : entries ≠ []) (hline : Free 0x0d 0x0a (entries.flatMap (0x20 :: ·.text)))
    (hdistinct : ([] :: entries.map fun e => toLowerCopy e.key).Nodup) :
    ∃ keys, ofText (entries.flatMap (0x20 :: ·.text)) =
      .ok { map := (Entry.valueless [] :: entries).map Entry.stored, valuelessKeys := keys } := by
  have hwords : ∀ v ∈ entries.map fun e => (e.text, e.token), ReadsAs v.1 v.2 := by
    intro v hv
    obtain ⟨e, he, rfl⟩ := List.mem_map.mp hv
    exact (hlegible e he).readsAs
  have hread := ofText_arguments (entries.map fun e => (e.text, e.token)) hwords (by simpa using hsome)
    (by rwa [List.flatMap_map])
  rw [List.flatMap_map, List.map_map] at hread
  have hfold := foldl_add_legible entries (add {} []) hlegible hdistinct
  exact ⟨_, hread.trans (congrArg Except.ok hfold)⟩

/-- The keys and values an answer may carry. -/
structure Entry.WellFormed (e : Entry) : Prop where
  nonempty : e.key ≠ []
  key : ∀ c ∈ e.key, c ≠ 0x20 ∧ c ≠ byte '=' ∧ c ≠ 0x22 ∧ c ≠ 0 ∧ c ≠ 0x0d ∧ c ≠ 0x0a
  value : ∀ c ∈ e.value, c ≠ 0x22 ∧ c ≠ 0 ∧ c ≠ 0x0d ∧ c ≠ 0x0a
  space : ∀ k v, e = .unquoted k v → 0x20 ∉ v

theorem Entry.WellFormed.legible {e : Entry} (h : e.WellFormed) : e.Legible where
  key c hc := ⟨(h.key c hc).2.2.2.1, (h.key c hc).2.2.1, fun hs => absurd hs (h.key c hc).1⟩
  delimiter hc := (h.key _ hc).2.1 rfl
  zero hc := (h.value _ hc).2.1 rfl
  quote hc := (h.value _ hc).1 rfl
  space := h.space

theorem Entry.WellFormed.text_ne_nil {e : Entry} (h : e.WellFormed) : e.text ≠ [] := by
  have hkey := h.nonempty
  cases e with
  | valueless key => exact hkey
  | unquoted key value => simp [Entry.text]
  | quoted key value => simp [Entry.text]

theorem Entry.WellFormed.notMem_text {e : Entry} (h : e.WellFormed) : 0x0d ∉ e.text :=
  Entry.notMem_text (fun hc => (h.key _ hc).2.2.2.2.1 rfl) (fun hc => (h.value _ hc).2.2.1 rfl)
    (by decide) (by decide)

theorem ofText_entries_joined (entries : List Entry) (hentries : ∀ e ∈ entries, e.WellFormed)
    (hdistinct : (entries.map fun e => toLowerCopy e.key).Nodup) :
    ∃ r, ofText (List.intercalate [0x20] (entries.map Entry.text)) = .ok r ∧
      (∀ key, key ∈ r.map.map Prod.fst ↔ ∃ e ∈ entries, toLowerCopy e.key = key) ∧
      (∀ key, r.hasKey key = true ↔ ∃ e ∈ entries, toLowerCopy e.key = toLowerCopy key) ∧
      (∀ e ∈ entries, ∀ key, toLowerCopy key = toLowerCopy e.key →
        ∀ defaultValue, r.getString key defaultValue = e.value) ∧
      ∀ key, key ∈ r.valuelessKeys ↔
        ∃ e ∈ entries, e.isValueless = true ∧ toLowerCopy e.key = key := by
  have hline : Free 0x0d 0x0a (List.intercalate [0x20] (entries.map Entry.text)) := by
    apply free_of_notMem
    cases entries with
    | nil => simp
    | cons e entries =>
      have hothers : ∀ e' ∈ entries, 0x0d ∉ e'.text :=
        fun e' he' => (hentries e' (by simp [he'])).notMem_text
      rw [joined_text]
      simpa [(hentries e (by simp)).notMem_text] using hothers
  have hread := ofText_legible entries (fun e he => (hentries e he).legible)
    (fun e he => (hentries e he).text_ne_nil) hline hdistinct
  refine ⟨_, hread, ?_, ?_, ?_, ?_⟩
  · intro key
    simp [Entry.stored]
  · intro key
    rw [hasKey, List.lookup_isSome_iff]
    constructor
    · rintro ⟨p, hp, hkey⟩
      obtain ⟨e, he, rfl⟩ := List.mem_map.mp hp
      exact ⟨e, he, (beq_iff_eq.mp hkey).symm⟩
    · rintro ⟨e, he, hkey⟩
      exact ⟨e.stored, List.mem_map_of_mem he, beq_iff_eq.mpr hkey.symm⟩
  · intro e he key hkey defaultValue
    unfold getString
    rw [hkey, lookup_stored hdistinct he]
    rfl
  · intro key
    simp [and_assoc]

/-- A value with spaces, a delimiter and a backslash, and a key without one. -/
theorem ofText_entries_joined_quoted :
    ∃ r, ofText (ascii "Name=\"E:\\my dir=1\" THREAD") = .ok r ∧
      r.getString (ascii "nAME") [] = ascii "E:\\my dir=1" ∧
      ascii "thread" ∈ r.valuelessKeys := by
  have hname : (Entry.quoted (ascii "Name") (ascii "E:\\my dir=1")).WellFormed :=
    ⟨by decide +kernel, by decide +kernel, by decide +kernel, fun _ _ h => by cases h⟩
  have hthread : (Entry.valueless (ascii "THREAD")).WellFormed :=
    ⟨by decide +kernel, by decide +kernel, by decide +kernel, fun _ _ h => by cases h⟩
  obtain ⟨r, hread, -, -, hvalue, hvalueless⟩ := ofText_entries_joined
    [.quoted (ascii "Name") (ascii "E:\\my dir=1"), .valueless (ascii "THREAD")]
    (by simp [hname, hthread]) (by decide +kernel)
  refine ⟨r, hread, ?_, ?_⟩
  · exact hvalue (.quoted (ascii "Name") (ascii "E:\\my dir=1")) (by simp) _ (by decide +kernel) _
  · exact (hvalueless _).mpr ⟨.valueless (ascii "THREAD"), by simp, rfl, by decide +kernel⟩

end Maps

section Quotes

open RDCPMapResponse

/-- A quote gets into a token behind the escape character only. -/
theorem notMem_nextToken {s token : Bytes} {inQuote : Bool} {rest : Option Bytes} (hzero : 0 ∉ s)
    (h : nextToken inQuote s = .ok (token, rest)) :
    0x22 ∉ token ∧ ∀ others, rest = some others → 0 ∉ others := by
  induction s generalizing inQuote token with
  | nil =>
    obtain ⟨rfl, rfl⟩ : [] = token ∧ none = rest := by simpa [nextToken] using h
    simp
  | cons c s ih =>
    rw [List.mem_cons, not_or] at hzero
    rw [nextToken.eq_def] at h
    dsimp only at h
    rw [if_neg (Ne.symm hzero.1)] at h
    have hextend : c ≠ 0x22 → extend c (nextToken inQuote s) = .ok (token, rest) →
        0x22 ∉ token ∧ ∀ others, rest = some others → 0 ∉ others := by
      intro hc hx
      cases hnext : nextToken inQuote s with
      | error e => simp [hnext, extend, Except.map] at hx
      | ok next =>
        obtain ⟨t, r⟩ := next
        obtain ⟨rfl, rfl⟩ : c :: t = token ∧ r = rest := by simpa [hnext, extend, Except.map] using hx
        obtain ⟨ht, hr⟩ := ih hzero.2 hnext
        exact ⟨by simp [ht, Ne.symm hc], hr⟩
    by_cases hspace : c = 0x20
    · rw [if_pos hspace] at h
      split at h
      · exact hextend (by rw [hspace]; decide) h
      · obtain ⟨rfl, rfl⟩ : [] = token ∧ some s = rest := by simpa using h
        refine ⟨by simp, ?_⟩
        rintro others ⟨⟩
        exact hzero.2
    · rw [if_neg hspace] at h
      split at h
      next => exact ih hzero.2 h
      next hquote => exact hextend hquote h

theorem notMem_tokensFrom {s : Bytes} {fuel : Nat} {tokens : List Bytes} (hzero : 0 ∉ s)
    (h : tokensFrom fuel s = .ok tokens) : ∀ token ∈ tokens, 0x22 ∉ token := by
  induction fuel generalizing s tokens with
  | zero =>
    obtain rfl : [] = tokens := by simpa [tokensFrom] using h
    simp
  | succ fuel ih =>
    rw [tokensFrom] at h
    cases hnext : nextToken false s with
    | error e => simp [hnext, bind, Except.bind] at h
    | ok next =>
      obtain ⟨token, rest⟩ := next
      obtain ⟨htoken, hrest⟩ := notMem_nextToken hzero hnext
      match rest with
      | none =>
        obtain rfl : [token] = tokens := by simpa [hnext, bind, Except.bind, pure, Except.pure] using h
        simpa using htoken
      | some [] =>
        obtain rfl : [token, []] = tokens := by
          simpa [hnext, bind, Except.bind, pure, Except.pure] using h
        simpa using htoken
      | some (c :: others) =>
        have hothers := hrest (c :: others) rfl
        cases hmore : tokensFrom fuel (c :: others) with
        | error e => simp [hnext, hmore, bind, Except.bind] at h
        | ok more =>
          obtain rfl : token :: more = tokens := by
            simpa [hnext, hmore, bind, Except.bind, pure, Except.pure] using h
          exact List.forall_mem_cons.mpr ⟨htoken, ih hothers hmore⟩

/-- No value holds a quote. -/
def Unquoted (r : RDCPMapResponse) : Prop :=
  ∀ entry ∈ r.map, 0x22 ∉ entry.2

theorem Unquoted.assign {r : RDCPMapResponse} (hr : Unquoted r) (key : Bytes) {value : Bytes}
    (hvalue : 0x22 ∉ value) : ∀ entry ∈ RDCPMapResponse.assign key value r.map, 0x22 ∉ entry.2 := by
  intro entry hentry
  rcases List.mem_append.mp hentry with hold | hnew
  · exact hr entry (List.mem_of_mem_filter hold)
  · rw [List.mem_singleton.mp hnew]
    exact hvalue

theorem notMem_valueText {text : Bytes} (h : 0x22 ∉ text) : 0x22 ∉ valueText text := by
  cases text with
  | nil => exact h
  | cons c text =>
    have hc : c ≠ 0x22 := fun hc => h (by simp [hc])
    rw [valueText, if_neg hc]
    exact h

theorem Unquoted.add {r : RDCPMapResponse} (hr : Unquoted r) {token : Bytes} (h : 0x22 ∉ token) :
    Unquoted (r.add token) := by
  unfold RDCPMapResponse.add
  split
  · exact hr.assign _ (by simp)
  · exact hr.assign _ (notMem_valueText fun hm => h (List.mem_of_mem_drop hm))

theorem unquoted_foldl {r : RDCPMapResponse} (hr : Unquoted r) (tokens : List Bytes)
    (h : ∀ token ∈ tokens, 0x22 ∉ token) : Unquoted (tokens.foldl RDCPMapResponse.add r) := by
  induction tokens generalizing r with
  | nil => exact hr
  | cons token tokens ih =>
    obtain ⟨htoken, htokens⟩ := List.forall_mem_cons.mp h
    exact ih (hr.add htoken) htokens

theorem mem_replacePair {a b replacement c : UInt8} {s : Bytes}
    (h : c ∈ replacePair a b replacement s) : c = replacement ∨ c ∈ s := by
  induction s using replacePair.induct a b with
  | case1 => simp [replacePair] at h
  | case2 d => exact .inr (by simpa [replacePair] using h)
  | case3 d e rest hde ih =>
    rw [replacePair, if_pos hde, List.mem_cons] at h
    rcases h with h | h
    · exact .inl h
    · exact (ih h).imp_right fun hm => by simp [hm]
  | case4 d e rest hde ih =>
    rw [replacePair, if_neg hde, List.mem_cons] at h
    rcases h with h | h
    · exact .inr (by simp [h])
    · exact (ih h).imp_right fun hm => List.mem_cons_of_mem d hm

theorem unquoted_ofText {text : Bytes} {r : RDCPMapResponse} (hzero : 0 ∉ text)
    (h : ofText text = .ok r) : Unquoted r := by
  have hsanitized : 0 ∉ replacePair 0x0d 0x0a 0x20 text := by
    intro hm
    rcases mem_replacePair hm with hc | hc
    · cases hc
    · exact hzero hc
  have hempty : Unquoted {} := fun entry hentry => by cases hentry
  unfold ofText at h
  split at h
  · obtain rfl : {} = r := by simpa using h
    exact hempty
  · dsimp only at h
    cases htokens : tokensFrom ((replacePair 0x0d 0x0a 0x20 text).length + 1)
        (replacePair 0x0d 0x0a 0x20 text) with
    | error e => simp [htokens, bind, Except.bind] at h
    | ok tokens =>
      obtain rfl : tokens.foldl RDCPMapResponse.add {} = r := by
        simpa [htokens, bind, Except.bind, pure, Except.pure] using h
      exact unquoted_foldl hempty tokens (notMem_tokensFrom hsanitized htokens)

theorem Unquoted.getString {r : RDCPMapResponse} (hr : Unquoted r) (key : Bytes) {value : Bytes}
    (hvalue : 0x22 ∉ value) : 0x22 ∉ r.getString key value := by
  unfold RDCPMapResponse.getString
  cases hfound : r.map.lookup (toLowerCopy key) with
  | none => exact hvalue
  | some v =>
    obtain ⟨before, behind, hmap, -⟩ := List.lookup_eq_some_iff.mp hfound
    exact hr (toLowerCopy key, v) (by rw [hmap]; simp)

end Quotes

end XbdmGdbBridge.Proofs
