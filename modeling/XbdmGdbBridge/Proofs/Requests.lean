import XbdmGdbBridge.Dyndxt.Requests
import XbdmGdbBridge.Proofs.Answers
import XbdmGdbBridge.Proofs.Maps

/-!
# Requests as command lines

Whether a request is one command, and whether its arguments and the size it announces are read
from its text as they were meant.
-/

namespace XbdmGdbBridge.Proofs

open Lib CText Rdcp

/-- The only line end is the one behind the text. -/
def OneCommand (r : RDCPRequest) : Prop :=
  ∀ i, kTerminator <+: r.toBytes.drop i ↔ i + kTerminator.length = r.toBytes.length

section Lines

variable {s : Bytes}

theorem toBytes_eq (r : RDCPRequest) : r.toBytes = (r.command ++ r.data) ++ [0x0d, 0x0a] := rfl

theorem oneCommand_iff (r : RDCPRequest) : OneCommand r ↔ OneLine (r.command ++ r.data) := by
  unfold OneCommand
  rw [toBytes_eq]
  generalize r.command ++ r.data = text
  have hsize : kTerminator.length = 2 := rfl
  constructor
  · rintro h ⟨before, behind, rfl⟩
    have hat := (h before.length).mp (by simp [kTerminator])
    simp only [List.length_append, List.length_cons, List.length_nil, hsize] at hat
    omega
  · intro h i
    simp only [List.length_append, List.length_cons, List.length_nil, hsize]
    constructor
    · intro hp
      have hbound := hp.length_le
      simp only [List.length_drop, List.length_append, List.length_cons, List.length_nil,
        hsize] at hbound
      by_contra hne
      exact not_prefix_drop [0x0a] (by decide) h (by omega) hp
    · intro hi
      obtain rfl : i = text.length := by omega
      simp [kTerminator]

end Lines

section Sizes

/-- What `AppendHexString` wrote is read as hexadecimal, up to the end of its digits. -/
theorem scanNumber_hexString (n : UInt32) {rest : Bytes}
    (hr : ∀ c, rest.head? = some c → isDigit 16 c = false) :
    ∃ length, scanNumber (RDCPMapResponse.integerBase (hexString n ++ rest)) (hexString n ++ rest) =
      some ⟨false, n.toNat, length⟩ := by
  have hne : hexPadded 8 n.toNat ≠ [] := by simp [hexPadded, hexText_ne_nil]
  have htext : hexString n ++ rest = 0x30 :: 0x78 :: (hexPadded 8 n.toNat ++ rest) := rfl
  have hbase : RDCPMapResponse.integerBase (0x30 :: 0x78 :: (hexPadded 8 n.toNat ++ rest)) = 16 := by
    obtain ⟨c, others, h⟩ := List.exists_cons_of_ne_nil hne
    rw [h]
    rfl
  rw [htext, hbase, scanNumber_prefixed_digits (hexDigits_hexPadded 8 _) hne hr, numeral_hexPadded]
  exact ⟨_, rfl⟩

theorem parseUint32_hexString (n : UInt32) {rest : Bytes}
    (hr : ∀ c, rest.head? = some c → isDigit 16 c = false) :
    RDCPMapResponse.parseUint32 (hexString n ++ rest) = n := by
  have hlt := n.toNat_lt
  obtain ⟨length, hscan⟩ := scanNumber_hexString n hr
  unfold RDCPMapResponse.parseUint32 strtoull
  rw [hscan]
  simp only [Bool.false_eq_true, if_false]
  rw [if_neg (by omega)]
  simp

theorem toNat_size_iff (payload : Bytes) :
    (UInt32.ofNat payload.length).toNat = payload.length ↔ payload.length < 2 ^ 32 := by
  rw [UInt32.toNat_ofNat']
  exact Nat.mod_eq_iff_lt (by decide)

/-- The letters and digits of a label: the quote, the separators and the line end are smaller. -/
theorem taken_of_le {c : UInt8} (h : 0x30 ≤ c) : Taken false c ∧ c ≠ 0x0a := by
  have hne : ∀ d : UInt8, d < 0x30 → c ≠ d := by
    rintro d hd rfl
    exact UInt8.not_le.mpr hd h
  exact ⟨⟨hne 0 (by decide), hne 0x22 (by decide), fun hs => absurd hs (hne 0x20 (by decide))⟩,
    hne 0x0a (by decide)⟩

theorem label_taken {key : Bytes} (h : key.all (fun c => 0x30 ≤ c && c ≠ byte '=') = true) :
    ∀ c ∈ key, Taken false c ∧ c ≠ byte '=' ∧ c ≠ 0x0a := by
  intro c hc
  have hlabel := List.all_eq_true.mp h c hc
  simp only [ne_eq, decide_not, Bool.and_eq_true, decide_eq_true_eq, Bool.not_eq_true',
    decide_eq_false_iff_not] at hlabel
  have htaken := taken_of_le hlabel.1
  exact ⟨htaken.1, hlabel.2, htaken.2⟩

theorem mem_hexString {n : UInt32} {c : UInt8} (h : c ∈ hexString n) :
    Taken false c ∧ c ≠ 0x0a := by
  have hdigit : ∀ c : UInt8, isDigit 16 c = true → 0x30 ≤ c := by decide +kernel
  rcases List.mem_append.mp h with h | h
  · have hlabel := label_taken (by decide) c h
    exact ⟨hlabel.1, hlabel.2.2⟩
  · exact taken_of_le (hdigit c (hexDigits_hexPadded 8 _ c h))

end Sizes

section Names

variable {name : Bytes} {others : List Entry}

/-- An argument behind the name. -/
structure Argument (e : Entry) : Prop where
  legible : e.Legible
  line : 0x0a ∉ e.text

/-- A request with a quoted name and further arguments behind it. -/
structure Named (r : RDCPRequest) (name : Bytes) (others : List Entry) : Prop where
  command : 0x0d ∉ r.command
  data : r.data = ascii " name=\"" ++ name ++ ascii "\"" ++ others.flatMap (0x20 :: ·.text)
  arguments : ∀ e ∈ others, Argument e
  distinct : ([] :: ascii "name" :: others.map fun e => toLowerCopy e.key).Nodup

theorem Named.data_eq {r : RDCPRequest} (h : Named r name others) :
    r.data = (Entry.quoted (ascii "name") name :: others).flatMap (0x20 :: ·.text) := by
  rw [h.data, List.flatMap_cons]
  have htext : ascii " name=\"" ++ name ++ ascii "\"" =
      0x20 :: (Entry.quoted (ascii "name") name).text := by
    have hfront : ascii " name=\"" = 0x20 :: ascii "name" ++ byte '=' :: [0x22] := by decide
    rw [hfront]
    simp [Entry.text]
    rfl
  rw [htext]

theorem Named.oneLine_iff {r : RDCPRequest} (h : Named r name others) :
    OneLine (r.command ++ r.data) ↔ OneLine name := by
  have hfront : 0x0d ∉ r.command ++ ascii " name=\"" := by
    have hlabel : 0x0d ∉ ascii " name=\"" := by decide
    simp [h.command, hlabel]
  have hbehind : 0x0a ∉ ascii "\"" ++ others.flatMap (0x20 :: ·.text) := by
    have hquote : 0x0a ∉ ascii "\"" := by decide
    have hothers : ∀ e ∈ others, 0x0a ∉ e.text := fun e he => (h.arguments e he).line
    simpa [hquote] using hothers
  have htext : r.command ++ r.data = (r.command ++ ascii " name=\"") ++
      (name ++ (ascii "\"" ++ others.flatMap (0x20 :: ·.text))) := by
    rw [h.data]
    simp only [List.append_assoc]
  rw [htext]
  unfold OneLine
  rw [free_append_left hfront, free_append_right hbehind]

theorem name_legible (hzero : 0 ∉ name) (hquote : 0x22 ∉ name) :
    (Entry.quoted (ascii "name") name).Legible where
  key := by
    change Word (ascii "name")
    exact fun c hc => (label_taken (by decide) c hc).1
  delimiter := by
    change byte '=' ∉ ascii "name"
    decide
  zero := hzero
  quote := hquote
  space k v h := by cases h

/-- A name without quotes on one line, and the arguments behind it, are read as they are. -/
theorem Named.read {r : RDCPRequest} (h : Named r name others) (hzero : 0 ∉ name)
    (hquote : 0x22 ∉ name) (hline : OneLine name) :
    ∃ keys, RDCPMapResponse.ofText r.data = .ok
      { map := (Entry.valueless [] :: Entry.quoted (ascii "name") name :: others).map Entry.stored
        valuelessKeys := keys } := by
  have hlegible : ∀ e ∈ Entry.quoted (ascii "name") name :: others, e.Legible :=
    List.forall_mem_cons.mpr ⟨name_legible hzero hquote, fun e he => (h.arguments e he).legible⟩
  have hdata : OneLine r.data := by
    rw [← h.oneLine_iff] at hline
    exact (free_append_left h.command).mp hline
  rw [h.data_eq] at hdata ⊢
  apply ofText_arguments_legible _ hlegible (by simp) hdata
  have hlower : toLowerCopy (ascii "name") = ascii "name" := by decide
  have hdistinct := h.distinct
  rw [← hlower] at hdistinct
  exact hdistinct

theorem Named.unquoted {r : RDCPRequest} (h : Named r name others) (hzero : 0 ∉ name)
    {m : RDCPMapResponse} (hread : RDCPMapResponse.ofText r.data = .ok m)
    (hname : m.getString (ascii "name") [] = name) : 0x22 ∉ name := by
  have hothers : ∀ e ∈ others, 0 ∉ e.text := by
    intro e he
    have hlegible := (h.arguments e he).legible
    exact Entry.notMem_text (fun hc => (hlegible.key 0 hc).1 rfl) hlegible.zero (by decide) (by decide)
  have hdata : 0 ∉ r.data := by
    have hfront : 0 ∉ ascii " name=\"" := by decide
    have hbehind : 0 ∉ ascii "\"" := by decide
    rw [h.data]
    simpa [hfront, hbehind, hzero] using hothers
  rw [← hname]
  exact (unquoted_ofText hdata hread).getString _ (by simp)

theorem argument_value {key value : Bytes} (hkey : ∀ c ∈ key, Taken false c ∧ c ≠ byte '=' ∧ c ≠ 0x0a)
    (hvalue : ∀ c ∈ value, Taken false c ∧ c ≠ 0x0a) : Argument (.unquoted key value) where
  legible :=
    { key := fun c hc => (hkey c hc).1
      delimiter := fun hc => (hkey _ hc).2.1 rfl
      zero := fun hc => (hvalue _ hc).1.1 rfl
      quote := fun hc => (hvalue _ hc).1.2.1 rfl
      space := by
        rintro k v ⟨⟩ hc
        have hquoted := (hvalue _ hc).1.2.2 rfl
        cases hquoted }
  line := Entry.notMem_text (fun hc => (hkey _ hc).2.2 rfl) (fun hc => (hvalue _ hc).2 rfl)
    (by decide) (by decide)

theorem sendFile_named (name payload : Bytes) :
    Named (sendFile name payload) name [.unquoted (ascii "length") (sizeText payload)] where
  command := by
    change 0x0d ∉ ascii "sendfile"
    decide
  data := by
    have hlabel : ascii "\" length=" = ascii "\"" ++ 0x20 :: (ascii "length" ++ [byte '=']) := by
      decide
    simp [sendFile, hlabel, Entry.text]
  arguments := by
    simp only [List.mem_singleton, forall_eq]
    exact argument_value (label_taken (by decide)) fun c hc => mem_hexString hc
  distinct := by
    simp only [List.map_cons, List.map_nil, Entry.key]
    decide

def flagEntries (key : Bytes) : Option Bool → List Entry
  | none => []
  | some true => [.unquoted key (ascii "1")]
  | some false => [.unquoted key (ascii "0")]

def timestampEntries (high low : Bytes) : Option UInt64 → List Entry
  | none => []
  | some t => [.unquoted high (hexString (t >>> 32).toUInt32),
      .unquoted low (hexString (t &&& 0xFFFFFFFF).toUInt32)]

/-- The arguments of `SetFileAttributes` behind the name. -/
def attributeEntries (a : FileAttributes) : List Entry :=
  flagEntries (ascii "readonly") a.readonly ++ flagEntries (ascii "hidden") a.hidden ++
    timestampEntries (ascii "createhi") (ascii "createlo") a.createTimestamp ++
    timestampEntries (ascii "changehi") (ascii "changelo") a.changeTimestamp

/-- The keys that may stand behind the name. -/
def attributeKeys : List Bytes :=
  [ascii "readonly", ascii "hidden", ascii "createhi", ascii "createlo", ascii "changehi",
    ascii "changelo"]

theorem flagText_eq (key : Bytes) (flag : Option Bool) :
    flagText (0x20 :: (key ++ [byte '='])) flag = (flagEntries key flag).flatMap (0x20 :: ·.text) := by
  match flag with
  | none => rfl
  | some true => simp [flagText, flagEntries, Entry.text]
  | some false => simp [flagText, flagEntries, Entry.text]

theorem timestampText_eq (high low : Bytes) (t : Option UInt64) :
    timestampText (0x20 :: (high ++ [byte '='])) (0x20 :: (low ++ [byte '='])) t =
      (timestampEntries high low t).flatMap (0x20 :: ·.text) := by
  cases t with
  | none => rfl
  | some t => simp [timestampText, timestampEntries, Entry.text]

theorem attributeEntries_keys (a : FileAttributes) :
    List.Sublist ((attributeEntries a).map Entry.key) attributeKeys := by
  have hflag : ∀ key flag, List.Sublist ((flagEntries key flag).map Entry.key) [key] := by
    intro key flag
    match flag with
    | none => exact List.nil_sublist _
    | some true => exact List.Sublist.refl _
    | some false => exact List.Sublist.refl _
  have htimestamp : ∀ high low t,
      List.Sublist ((timestampEntries high low t).map Entry.key) [high, low] := by
    intro high low t
    cases t with
    | none => exact List.nil_sublist _
    | some t => exact List.Sublist.refl _
  simp only [attributeEntries, List.map_append]
  exact (((hflag _ _).append (hflag _ _)).append (htimestamp _ _ _)).append (htimestamp _ _ _)

theorem attributeEntries_values (a : FileAttributes) :
    ∀ e ∈ attributeEntries a, ∃ key value, e = .unquoted key value ∧
      ∀ c ∈ value, Taken false c ∧ c ≠ 0x0a := by
  have hdigit : ∀ {text : Bytes}, text.all (fun c => 0x30 ≤ c && c ≠ byte '=') = true →
      ∀ c ∈ text, Taken false c ∧ c ≠ 0x0a := fun h c hc =>
    ⟨(label_taken h c hc).1, (label_taken h c hc).2.2⟩
  have hflag : ∀ key flag, ∀ e ∈ flagEntries key flag, ∃ key value, e = .unquoted key value ∧
      ∀ c ∈ value, Taken false c ∧ c ≠ 0x0a := by
    intro key flag e he
    match flag with
    | none => cases he
    | some true =>
      exact ⟨key, ascii "1", List.mem_singleton.mp he, hdigit (by decide)⟩
    | some false =>
      exact ⟨key, ascii "0", List.mem_singleton.mp he, hdigit (by decide)⟩
  have htimestamp : ∀ high low t, ∀ e ∈ timestampEntries high low t,
      ∃ key value, e = .unquoted key value ∧ ∀ c ∈ value, Taken false c ∧ c ≠ 0x0a := by
    intro high low t e he
    cases t with
    | none => cases he
    | some t =>
      rcases List.mem_cons.mp he with he | he
      · exact ⟨high, _, he, fun c hc => mem_hexString hc⟩
      · exact ⟨low, _, List.mem_singleton.mp he, fun c hc => mem_hexString hc⟩
  intro e he
  simp only [attributeEntries, List.mem_append] at he
  rcases he with ((he | he) | he) | he
  · exact hflag _ _ e he
  · exact hflag _ _ e he
  · exact htimestamp _ _ _ e he
  · exact htimestamp _ _ _ e he

theorem setFileAttributes_named (name : Bytes) (a : FileAttributes) :
    Named (setFileAttributes name a) name (attributeEntries a) where
  command := by
    change 0x0d ∉ ascii "setfileattributes"
    decide
  data := by
    have hlabels : (attributeKeys.map fun key => 0x20 :: (key ++ [byte '='])) =
        [ascii " readonly=", ascii " hidden=", ascii " createhi=", ascii " createlo=",
          ascii " changehi=", ascii " changelo="] := by decide
    simp only [attributeKeys, List.map_cons, List.map_nil, List.cons.injEq, and_true] at hlabels
    obtain ⟨hreadonly, hhidden, hcreatehi, hcreatelo, hchangehi, hchangelo⟩ := hlabels
    simp only [setFileAttributes, ← hreadonly, ← hhidden, ← hcreatehi, ← hcreatelo, ← hchangehi,
      ← hchangelo, flagText_eq, timestampText_eq, attributeEntries, List.flatMap_append,
      List.append_assoc]
  arguments := by
    have hletters : attributeKeys.all (fun key => key.all fun c => 0x30 ≤ c && c ≠ byte '=') = true := by
      decide
    have hkeys : ∀ key ∈ attributeKeys, ∀ c ∈ key, Taken false c ∧ c ≠ byte '=' ∧ c ≠ 0x0a :=
      fun key hkey => label_taken (List.all_eq_true.mp hletters key hkey)
    intro e he
    have hkey := (attributeEntries_keys a).subset (List.mem_map_of_mem he)
    obtain ⟨key, value, rfl, hvalue⟩ := attributeEntries_values a e he
    exact argument_value (hkeys key hkey) hvalue
  distinct := by
    have hall : ([] :: ascii "name" :: attributeKeys.map toLowerCopy).Nodup := by decide
    have hsublist := (attributeEntries_keys a).map toLowerCopy
    rw [List.map_map] at hsublist
    exact hall.sublist ((hsublist.cons_cons _).cons_cons _)

/-- `SendFile` as it is meant: one command whose arguments are the name and the size. -/
def SendFileReadsBack (name payload : Bytes) : Prop :=
  OneCommand (sendFile name payload) ∧
    ∃ m, RDCPMapResponse.ofText (sendFile name payload).data = .ok m ∧
      m.map.map Prod.fst = [[], ascii "name", ascii "length"] ∧
      m.getString (ascii "name") [] = name ∧
      (m.getUInt32 (ascii "length") 0).toNat = payload.length

/-- `SetFileAttributes` as it is meant: one command whose arguments are the name and those that
were given. -/
def SetFileAttributesReadsBack (name : Bytes) (a : FileAttributes) : Prop :=
  OneCommand (setFileAttributes name a) ∧
    ∃ m, RDCPMapResponse.ofText (setFileAttributes name a).data = .ok m ∧
      m.map.map Prod.fst = [] :: ascii "name" :: (attributeEntries a).map Entry.key ∧
      m.getString (ascii "name") [] = name

theorem getString_name (keys : List Bytes) :
    RDCPMapResponse.getString
      { map := (Entry.valueless [] :: Entry.quoted (ascii "name") name :: others).map Entry.stored
        valuelessKeys := keys } (ascii "name") [] = name := by
  have hlower : toLowerCopy (ascii "name") = ascii "name" := by decide
  have hempty : (ascii "name" == toLowerCopy []) = false := by decide
  unfold RDCPMapResponse.getString
  simp only [List.map_cons, Entry.stored, Entry.key, Entry.value, hlower, List.lookup_cons, hempty]
  simp

theorem getUInt32_length (keys : List Bytes) (payload : Bytes) :
    RDCPMapResponse.getUInt32
      { map := [Entry.valueless [], .quoted (ascii "name") name,
          .unquoted (ascii "length") (sizeText payload)].map Entry.stored
        valuelessKeys := keys } (ascii "length") 0 = UInt32.ofNat payload.length := by
  have hlower : toLowerCopy (ascii "length") = ascii "length" := by decide
  have hempty : (ascii "length" == toLowerCopy []) = false := by decide
  have hname : (ascii "length" == toLowerCopy (ascii "name")) = false := by decide
  have hvalue := parseUint32_hexString (UInt32.ofNat payload.length)
    fun c (hc : ([] : Bytes).head? = some c) => by cases hc
  rw [List.append_nil] at hvalue
  unfold RDCPMapResponse.getUInt32
  simp only [List.map_cons, List.map_nil, Entry.stored, Entry.key, Entry.value, hlower,
    List.lookup_cons, hempty, hname, beq_self_eq_true, Option.map_some, Option.getD_some]
  exact hvalue

theorem sendFile_readsBack_iff (payload : Bytes) (hname : 0 ∉ name) :
    SendFileReadsBack name payload ↔
      0x22 ∉ name ∧ OneLine name ∧ payload.length < 2 ^ 32 := by
  have hnamed := sendFile_named name payload
  unfold SendFileReadsBack
  rw [oneCommand_iff, hnamed.oneLine_iff, ← toNat_size_iff]
  constructor
  · rintro ⟨hline, m, hread, -, hstring, hnumber⟩
    have hquote := hnamed.unquoted hname hread hstring
    obtain ⟨keys, hm⟩ := hnamed.read hname hquote hline
    obtain rfl := Except.ok.inj (hread.symm.trans hm)
    rw [getUInt32_length] at hnumber
    exact ⟨hquote, hline, hnumber⟩
  · rintro ⟨hquote, hline, hsize⟩
    obtain ⟨keys, hm⟩ := hnamed.read hname hquote hline
    refine ⟨hline, _, hm, ?_, getString_name keys, ?_⟩
    · rw [stored_keys]
      simp only [List.map_cons, List.map_nil, Entry.key]
      decide
    · rw [getUInt32_length]
      exact hsize

theorem setFileAttributes_readsBack_iff (a : FileAttributes) (hname : 0 ∉ name) :
    SetFileAttributesReadsBack name a ↔ 0x22 ∉ name ∧ OneLine name := by
  have hnamed := setFileAttributes_named name a
  unfold SetFileAttributesReadsBack
  rw [oneCommand_iff, hnamed.oneLine_iff]
  constructor
  · rintro ⟨hline, m, hread, -, hstring⟩
    exact ⟨hnamed.unquoted hname hread hstring, hline⟩
  · rintro ⟨hquote, hline⟩
    obtain ⟨keys, hm⟩ := hnamed.read hname hquote hline
    refine ⟨hline, _, hm, ?_, getString_name keys⟩
    have hlower : ∀ key ∈ attributeKeys, toLowerCopy key = key := by decide
    have hattributes : (attributeEntries a).map (fun e => toLowerCopy e.key) =
        (attributeEntries a).map Entry.key := by
      apply List.map_congr_left
      intro e he
      exact hlower _ ((attributeEntries_keys a).subset (List.mem_map_of_mem he))
    have hfirst : toLowerCopy (ascii "name") = ascii "name" := by decide
    rw [stored_keys, List.map_cons, List.map_cons, hattributes]
    change [] :: toLowerCopy (ascii "name") :: _ = _
    rw [hfirst]

/-- A file name travels as it is exactly when it has no quote and no line end in it; the size of a
file as long as it fits in 32 bits. -/
theorem file_requests_read_back_iff (name payload : Bytes) (a : FileAttributes) (hname : 0 ∉ name) :
    (SendFileReadsBack name payload ↔
      0x22 ∉ name ∧ OneLine name ∧ payload.length < 2 ^ 32) ∧
    (SetFileAttributesReadsBack name a ↔ 0x22 ∉ name ∧ OneLine name) :=
  ⟨sendFile_readsBack_iff payload hname, setFileAttributes_readsBack_iff a hname⟩

theorem file_requests_read_back_spaces :
    SendFileReadsBack (ascii "E:\\a b=c") [1, 2] ∧
      SetFileAttributesReadsBack (ascii "E:\\a b=c") { hidden := some true } := by
  have hquote : 0x22 ∉ ascii "E:\\a b=c" := by decide
  have hline : OneLine (ascii "E:\\a b=c") := by
    unfold OneLine Free
    decide
  obtain ⟨hsend, hset⟩ := file_requests_read_back_iff (ascii "E:\\a b=c") [1, 2]
    { hidden := some true } (by decide)
  exact ⟨hsend.mpr ⟨hquote, hline, by decide⟩, hset.mpr ⟨hquote, hline⟩⟩

/-- A quote in the name adds an argument, a line end a second command. -/
theorem file_name_injects :
    (∃ m, RDCPMapResponse.ofText (sendFile (ascii "a\" hidden=\"1") []).data = .ok m ∧
      m.getString (ascii "name") [] = ascii "a" ∧
      m.getString (ascii "hidden") [] = ascii "1") ∧
    ¬SendFileReadsBack (ascii "a\" hidden=\"1") [] ∧
    (sendFile (ascii "a\r\nreboot ") []).toBytes =
      wireText (ascii "sendfile") (ascii " name=\"a") ++
        wireText (ascii "reboot") (ascii " \" length=0x00000000") ∧
    ¬SendFileReadsBack (ascii "a\r\nreboot ") [] := by
  refine ⟨⟨⟨[([], []), (ascii "name", ascii "a"), (ascii "hidden", ascii "1"),
    (ascii "length", ascii "0x00000000")], [[]]⟩, by decide +kernel, by decide,
    by decide⟩, ?_, by decide, ?_⟩
  · intro h
    have hread := (sendFile_readsBack_iff [] (by decide)).mp h
    exact hread.1 (by decide)
  · rintro ⟨hone, -⟩
    have hend := (hone 16).mp (by decide)
    revert hend
    decide

end Names

section Commands

/-- The requests that are built from a command and its arguments. -/
inductive Invocation where
  | simple
  | multiline
  | sendBinary (binary : Bytes)
  | sendKnownSizeBinary (binary : Bytes)
  | receiveSizePrefixedBinary
  | receiveKnownSizedBinary (size : UInt32)

def Invocation.request (command args : Bytes) : Invocation → RDCPRequest
  | simple => Loader.invokeSimple command args
  | multiline => Loader.invokeMultiline command args
  | sendBinary binary => Loader.invokeSendBinary command binary args
  | sendKnownSizeBinary binary => Loader.invokeSendKnownSizeBinary command binary args
  | receiveSizePrefixedBinary => Loader.invokeReceiveSizePrefixedBinary command args
  | receiveKnownSizedBinary size => Loader.invokeReceiveKnownSizedBinary command size args

/-- The command is the first word, and the arguments are what stands behind a space at the end. -/
def Separated (r : RDCPRequest) (command args : Bytes) : Prop :=
  r.toBytes.takeWhile (· ≠ 0x20) = command ∧ 0x20 :: (args ++ kTerminator) <:+ r.toBytes

variable {command args : Bytes}

theorem takeWhile_word (hcommand : 0x20 ∉ command) (rest : Bytes) :
    (command ++ rest).takeWhile (· ≠ 0x20) = command ++ rest.takeWhile (· ≠ 0x20) := by
  apply List.takeWhile_append_of_pos
  intro c hc
  have hne : c ≠ 0x20 := fun h => hcommand (h ▸ hc)
  simpa using hne

theorem separated_spaced {r : RDCPRequest} (hcommand : 0x20 ∉ command) (hargs : args ≠ [])
    (hr : r.command = command) (hdata : r.data = Loader.spacedArguments args) :
    Separated r command args := by
  have htext : r.toBytes = command ++ 0x20 :: (args ++ kTerminator) := by
    unfold RDCPRequest.toBytes wireText
    rw [hr, hdata, Loader.spacedArguments, if_neg hargs, List.append_assoc]
    rfl
  refine ⟨?_, by rw [htext]; exact List.suffix_append _ _⟩
  rw [htext, takeWhile_word hcommand]
  simp

/-- Text that follows the command at once belongs to the first word. -/
theorem not_separated {r : RDCPRequest} {c : UInt8} {others : Bytes} (hcommand : 0x20 ∉ command)
    (hc : c ≠ 0x20) (hr : r.command = command) (hdata : r.data = c :: others) :
    ¬Separated r command args := by
  rintro ⟨hword, -⟩
  have htext : r.toBytes = command ++ c :: (others ++ kTerminator) := by
    unfold RDCPRequest.toBytes wireText
    rw [hr, hdata, List.append_assoc]
    rfl
  rw [htext, takeWhile_word hcommand, List.takeWhile_cons_of_pos (by simpa using hc)] at hword
  have hlength := congrArg List.length hword
  simp at hlength

theorem invocation_separated_iff (i : Invocation) (hcommand : 0x20 ∉ command) (hargs : args ≠ [])
    (hspace : args.head? ≠ some 0x20) :
    Separated (i.request command args) command args ↔ i = .simple ∨ i = .multiline := by
  obtain ⟨c, others, rfl⟩ := List.exists_cons_of_ne_nil hargs
  have hc : c ≠ 0x20 := fun h => hspace (by rw [h]; rfl)
  have hbare : ∀ r : RDCPRequest, r.command = command → r.data = c :: others →
      ¬Separated r command (c :: others) := fun r => not_separated hcommand hc
  cases i with
  | simple => simpa using separated_spaced hcommand hargs rfl rfl
  | multiline => simpa using separated_spaced hcommand hargs rfl rfl
  | sendBinary binary =>
    have hlabel : byte 'l' ≠ 0x20 := by decide
    simpa using not_separated hcommand hlabel rfl rfl
  | sendKnownSizeBinary binary => simpa using hbare _ rfl rfl
  | receiveSizePrefixedBinary => simpa using hbare _ rfl rfl
  | receiveKnownSizedBinary size => simpa using hbare _ rfl rfl

end Commands

section Announcements

/-- The requests that announce the size of their payload. -/
inductive Announcing where
  | invokeSendBinary (command binary args : Bytes)
  | loadDynDXT (dllImage : Bytes)
  | installImage (imageBase : UInt32) (buffer : Bytes) (tlsCallbacks : List UInt32)
      (entrypoint : UInt32)
  | sendFile (name buffer : Bytes)
  | writeFile (name buffer : Bytes)
  | setContext (threadId : Int32) (context : Option ThreadContext) (ext : ThreadFloatContext)

namespace Announcing

def request : Announcing → Except Fault RDCPRequest
  | invokeSendBinary command binary args => .ok (Loader.invokeSendBinary command binary args)
  | loadDynDXT dllImage => Loader.loadDynDXT dllImage
  | installImage imageBase buffer tlsCallbacks entrypoint =>
    Loader.installImage imageBase buffer tlsCallbacks entrypoint
  | sendFile name buffer => .ok (Rdcp.sendFile name buffer)
  | writeFile name buffer => .ok (Rdcp.writeFile name buffer)
  | setContext threadId context ext => .ok (Rdcp.setContext threadId context ext)

/-- The text in front of the number. -/
def label : Announcing → Bytes
  | invokeSendBinary _ _ _ => ascii "length="
  | loadDynDXT _ => ascii " size="
  | installImage imageBase _ _ _ => ascii " base=" ++ hexString imageBase ++ ascii " length="
  | sendFile name _ => ascii " name=\"" ++ name ++ ascii "\" length="
  | writeFile name _ => ascii " name=\"" ++ name ++ ascii "\"" ++ ascii " length="
  | setContext threadId context _ => ascii " thread=" ++ hexString threadId.toUInt32 ++
      context.elim [] (fun c => ascii " " ++ c.serialize) ++ ascii " ext="

/-- The number behind the label is the size of the payload, if there is a request at all. -/
def AnnouncesSize (k : Announcing) : Prop :=
  ∀ r, k.request = .ok r → ∃ payload, r.binaryPayload = some payload ∧ k.label <+: r.data ∧
    (RDCPMapResponse.parseUint32 (r.data.drop k.label.length)).toNat = payload.length

/-- No payload where its size is taken too late, and else one whose size has 32 bits; the two
assertions leave no request of `LoadDynDXT` and with callbacks none of `InstallImage`. -/
def Fits : Announcing → Prop
  | invokeSendBinary _ binary _ => binary = []
  | loadDynDXT _ => True
  | installImage _ buffer tlsCallbacks _ => tlsCallbacks = [] → buffer.length < 2 ^ 32
  | sendFile _ buffer => buffer.length < 2 ^ 32
  | writeFile _ buffer => buffer.length < 2 ^ 32
  | setContext _ _ _ => True

end Announcing

/-- A request that writes a number between its label and the rest of its text. -/
theorem announcesSize_iff {k : Announcing} {r : RDCPRequest} {payload rest : Bytes} {n : UInt32}
    (hr : k.request = .ok r) (hpayload : r.binaryPayload = some payload)
    (hdata : r.data = k.label ++ (hexString n ++ rest)) (hrest : rest = [] ∨ rest.head? = some 0x20) :
    k.AnnouncesSize ↔ n.toNat = payload.length := by
  have hstop : ∀ c, rest.head? = some c → isDigit 16 c = false := by
    intro c hc
    rcases hrest with rfl | hspace
    · cases hc
    · obtain rfl : c = 0x20 := Option.some.inj (hc.symm.trans hspace)
      decide
  have hnumber : RDCPMapResponse.parseUint32 (r.data.drop k.label.length) = n := by
    rw [hdata, List.drop_left, parseUint32_hexString n hstop]
  constructor
  · intro h
    obtain ⟨p, hp, -, hsize⟩ := h r hr
    rw [hnumber] at hsize
    rw [hpayload] at hp
    rw [hsize, Option.some.inj hp]
  · intro h r' hr'
    obtain rfl := Except.ok.inj (hr.symm.trans hr')
    exact ⟨payload, hpayload, ⟨_, hdata.symm⟩, by rw [hnumber, h]⟩

/-- A request whose text ends in the size of its payload. -/
theorem announcesSize_last {k : Announcing} {r : RDCPRequest} {payload : Bytes}
    (hr : k.request = .ok r) (hpayload : r.binaryPayload = some payload)
    (hdata : r.data = k.label ++ sizeText payload) :
    k.AnnouncesSize ↔ payload.length < 2 ^ 32 := by
  rw [← List.append_nil (sizeText payload)] at hdata
  exact (announcesSize_iff hr hpayload hdata (.inl rfl)).trans (toNat_size_iff payload)

theorem announcesSize_of_error {k : Announcing} {e : Fault} (h : k.request = .error e) :
    k.AnnouncesSize := by
  intro r hr
  rw [h] at hr
  cases hr

theorem length_float (ext : ThreadFloatContext) : ext.serialize.length < 2 ^ 32 := by
  unfold ThreadFloatContext.serialize
  rw [List.length_map, List.length_range]
  decide

theorem spacedArguments_head (args : Bytes) : Loader.spacedArguments args = [] ∨
    (Loader.spacedArguments args).head? = some 0x20 := by
  unfold Loader.spacedArguments
  split
  · exact .inl rfl
  · exact .inr rfl

theorem announces_fits_iff (k : Announcing) : k.AnnouncesSize ↔ k.Fits := by
  cases k with
  | invokeSendBinary command binary args =>
    have hdata : (Loader.invokeSendBinary command binary args).data =
        ascii "length=" ++ (hexString 0 ++ Loader.spacedArguments args) := by
      rw [← List.append_assoc]
      rfl
    rw [announcesSize_iff rfl rfl hdata (spacedArguments_head args)]
    change 0 = binary.length ↔ binary = []
    rw [eq_comm, List.length_eq_zero_iff]
  | loadDynDXT dllImage =>
    refine iff_of_true ?_ trivial
    by_cases hsize : dllImage.length < 0xFFFFFFFF
    · have hr : (Announcing.loadDynDXT dllImage).request = .ok
          { command := ascii "ddxt!load", data := ascii " size=" ++ sizeText dllImage
            binaryPayload := some dllImage } := if_pos hsize
      exact (announcesSize_last hr rfl rfl).mpr (by omega)
    · exact announcesSize_of_error (if_neg hsize)
  | installImage imageBase buffer tlsCallbacks entrypoint =>
    by_cases hnone : tlsCallbacks = []
    · have hr : (Announcing.installImage imageBase buffer tlsCallbacks entrypoint).request = .ok
          { command := ascii "ddxt!install"
            data := ascii " base=" ++ hexString imageBase ++ ascii " length=" ++
              (sizeText buffer ++ (ascii " entrypoint=" ++ hexString entrypoint))
            binaryPayload := some buffer } := by
        refine (if_pos hnone).trans ?_
        simp only [List.append_assoc]
      rw [announcesSize_iff hr rfl rfl (.inr rfl), toNat_size_iff]
      exact ⟨fun h _ => h, fun h => h hnone⟩
    · exact iff_of_true (announcesSize_of_error (if_neg hnone)) fun h => absurd h hnone
  | sendFile name buffer => exact announcesSize_last rfl rfl rfl
  | writeFile name buffer => exact announcesSize_last rfl rfl rfl
  | setContext threadId context ext =>
    exact iff_of_true ((announcesSize_last rfl rfl rfl).mpr (length_float ext)) trivial

/-- A command and its arguments stay apart in two of six requests, and the announced size is the
one of the payload unless it was taken too late or does not fit. -/
theorem requests_grammar_iff (i : Invocation) (command args : Bytes) (k : Announcing)
    (hcommand : 0x20 ∉ command) (hargs : args ≠ []) (hspace : args.head? ≠ some 0x20) :
    (Separated (i.request command args) command args ↔ i = .simple ∨ i = .multiline) ∧
      (k.AnnouncesSize ↔ k.Fits) :=
  ⟨invocation_separated_iff i hcommand hargs hspace, announces_fits_iff k⟩

theorem requests_grammar_simple :
    Separated (Loader.invokeSimple (ascii "ldxt!a") (ascii "s=0x10")) (ascii "ldxt!a")
        (ascii "s=0x10") ∧
      (Announcing.loadDynDXT [0x4d, 0x5a]).AnnouncesSize := by
  obtain ⟨hword, hsize⟩ := requests_grammar_iff .simple (ascii "ldxt!a") (ascii "s=0x10")
    (.loadDynDXT [0x4d, 0x5a]) (by decide) (by decide) (by decide)
  exact ⟨hword.mpr (.inl rfl), hsize.mpr trivial⟩

/-- The arguments run into the command, and a payload of one byte is announced as empty. -/
theorem invocation_text_joined :
    (Loader.invokeReceiveSizePrefixedBinary (ascii "ntrc!read") (ascii "maxsize=4")).toBytes =
        ascii "ntrc!readmaxsize=4\r\n" ∧
      ¬Separated (Loader.invokeReceiveSizePrefixedBinary (ascii "ntrc!read") (ascii "maxsize=4"))
        (ascii "ntrc!read") (ascii "maxsize=4") ∧
      (Loader.invokeSendBinary (ascii "a!b") [1] (ascii "c")).toBytes =
        ascii "a!blength=0x00000000 c\r\n" ∧
      ¬(Announcing.invokeSendBinary (ascii "a!b") [1] (ascii "c")).AnnouncesSize := by
  refine ⟨by decide, ?_, by decide, ?_⟩
  · rintro ⟨hword, -⟩
    revert hword
    decide
  · intro h
    obtain ⟨payload, hpayload, -, hsize⟩ := h _ rfl
    obtain rfl : [1] = payload := Option.some.inj hpayload
    revert hsize
    decide

end Announcements

end XbdmGdbBridge.Proofs
