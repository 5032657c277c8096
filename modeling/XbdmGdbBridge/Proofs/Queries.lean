import XbdmGdbBridge.Lib.Runs
import XbdmGdbBridge.Proofs.MemoryWrites
import XbdmGdbBridge.Proofs.Session

/-!
# Queries that take several packets

The list of threads is handed out page by page from a buffer, and the target description in pieces
that the client asks for by offset and length.
-/

namespace XbdmGdbBridge.Proofs.Queries

open Lib CText Gdb GDBBridge

variable {σ : Type} [Xbdm σ]

section Threads

/-- The text of a page of thread ids. -/
def page (first : UInt32) (rest : List UInt32) : Bytes :=
  byte 'm' :: hexText first.toNat ++ rest.flatMap fun id => byte ',' :: hexText id.toNat

/-- What a client makes of a page. -/
def readPage : Bytes → Option (List UInt32)
  | marker :: text => if marker = byte 'm' then (split (byte ',') text).mapM hexUInt32 else none
  | [] => none

/-- The pages a list of ids is handed out in: the first id alone, then all others. -/
def pages : List UInt32 → List Bytes
  | [] => []
  | [first] => [page first []]
  | first :: second :: rest => [page first [], page second rest]

theorem comma_notMem (id : UInt32) : byte ',' ∉ hexText id.toNat :=
  not_mem_hexText (by decide) _

theorem split_ids (first : UInt32) (rest : List UInt32) :
    split (byte ',') (hexText first.toNat ++ rest.flatMap fun id => byte ',' :: hexText id.toNat) =
      (first :: rest).map fun id => hexText id.toNat := by
  induction rest generalizing first with
  | nil => rw [List.flatMap_nil, List.append_nil, split_last (comma_notMem first)]; rfl
  | cons second rest ih =>
    rw [List.flatMap_cons, List.cons_append, split_word (comma_notMem first), ih]
    rfl

theorem mapM_hexText (ids : List UInt32) :
    (ids.map fun id => hexText id.toNat).mapM hexUInt32 = some ids := by
  induction ids with
  | nil => rfl
  | cons id rest ih => rw [List.map_cons, List.mapM_cons, hexUInt32_hexText, ih]; rfl

theorem readPage_page (first : UInt32) (rest : List UInt32) :
    readPage (page first rest) = some (first :: rest) := by
  rw [page, List.cons_append, readPage, if_pos rfl, split_ids, mapM_hexText]

theorem pages_length (ids : List UInt32) : (pages ids).length ≤ 2 := by
  match ids with
  | [] => exact Nat.zero_le _
  | [_] => exact Nat.le_succ _
  | _ :: _ :: _ => exact le_rfl

theorem readPage_pages (ids : List UInt32) :
    ((pages ids).mapM readPage).map List.flatten = some ids := by
  match ids with
  | [] => rfl
  | [first] =>
    rw [pages, List.mapM_cons, readPage_page]
    rfl
  | first :: second :: rest =>
    rw [pages, List.mapM_cons, List.mapM_cons, readPage_page, readPage_page]
    simp

/-- Notifications that were dispatched between two packets. -/
def Notified (b b' : GDBBridge σ) : Prop :=
  ∃ events, Run (fun (e : First × Notification) b b' => dispatchNotification e.1 e.2 b = .ok ((), b'))
    b events b'

/-- The replies to a request and to the `qsThreadInfo` packets behind it, whatever notifications
arrive in between. -/
def HandsOut : Bytes → List Bytes → GDBBridge σ → Prop
  | _, [], _ => True
  | request, reply :: rest, b => ∃ b', handlePacket (.ofData request) b = .ok ((), b') ∧
      b'.replies = b.replies ++ [.ofData reply] ∧
      ∀ b'', Notified b' b'' → HandsOut (ascii "qsThreadInfo") rest b''

theorem handlePacket_start : (handlePacket (.ofData (ascii "qfThreadInfo")) : Handler σ Unit) =
    handleThreadInfoStart := rfl

theorem handlePacket_next : (handlePacket (.ofData (ascii "qsThreadInfo")) : Handler σ Unit) =
    handleThreadInfoContinue := rfl

section Buffer

variable {b : GDBBridge σ}

/-- A handler answers once and leaves this buffer behind. -/
def Hands (x : Handler σ Unit) (b : GDBBridge σ) (reply : Bytes) (buffer : List Int32) : Prop :=
  ∃ b', x b = .ok ((), b') ∧ b'.replies = b.replies ++ [.ofData reply] ∧ b'.threadInfoBuffer = buffer

omit [Xbdm σ] in
theorem sendThreadInfoBuffer_nil (sendAll : Bool) (h : b.threadInfoBuffer = []) :
    Hands (sendThreadInfoBuffer sendAll) b (ascii "l") [] := by
  unfold Hands sendThreadInfoBuffer
  rw [Program.get_bind_apply, h]
  exact ⟨_, rfl, rfl, h⟩

omit [Xbdm σ] in
theorem sendThreadInfoBuffer_cons (sendAll : Bool) {first : UInt32} {rest : List UInt32}
    (h : b.threadInfoBuffer = (first :: rest).map UInt32.toInt32) :
    Hands (sendThreadInfoBuffer sendAll) b (page first (if sendAll then rest else []))
      (if sendAll then [] else rest.map UInt32.toInt32) := by
  unfold Hands sendThreadInfoBuffer
  rw [Program.get_bind_apply, h]
  refine ⟨_, rfl, ?_, by cases sendAll <;> rfl⟩
  have hids (l : List UInt32) : (l.map UInt32.toInt32).flatMap
      (fun id => byte ',' :: hexText id.toUInt32.toNat) =
        l.flatMap fun id => byte ',' :: hexText id.toNat := by
    simp only [List.flatMap_map, UInt32.toUInt32_toInt32]
  have hlisted : (if sendAll then rest.map UInt32.toInt32 else []) =
      (if sendAll then rest else []).map UInt32.toInt32 := by cases sendAll <;> rfl
  change b.replies ++ [GDBPacket.ofData (byte 'm' :: hexText first.toInt32.toUInt32.toNat ++
    (if sendAll then rest.map UInt32.toInt32 else []).flatMap
      (fun id => byte ',' :: hexText id.toUInt32.toNat))] = _
  rw [hlisted, hids, UInt32.toUInt32_toInt32]
  rfl

theorem leaves_buffer_dispatch (first : First) (n : Notification) :
    Leaves (fun b : GDBBridge σ => b.threadInfoBuffer) (dispatchNotification first n) := by
  have hdebugger : Leaves (fun b : GDBBridge σ => b.threadInfoBuffer)
      (GDBBridge.attempt (XBDMDebugger.onNotification n)) := by
    intro b a b' h
    obtain ⟨d, -, rfl⟩ := Program.on_ok h
    rfl
  have hbridge : Leaves (fun b : GDBBridge σ => b.threadInfoBuffer) (onNotification n) := by
    intro b a b' h
    rw [onNotification_eq] at h
    split at h
    · rw [reportStop_eq] at h
      split at h
      · cases hsend : sendThreadStopPacket b.debugger.activeThread b with
        | error e =>
          rw [hsend] at h
          cases h
        | ok r =>
          rw [hsend] at h
          cases h
          rcases sendThreadStopPacket_cases hsend with ⟨hsame, -⟩ | ⟨i, reason, -, hsent⟩
          · rw [hsame]
          · rw [hsent]
            rfl
      · cases h
        rfl
    · cases h
      rfl
  cases first with
  | debugger => exact hdebugger.bind fun _ => hbridge
  | bridge => exact hbridge.bind fun _ => hdebugger

theorem Notified.buffer {b' : GDBBridge σ} (h : Notified b b') :
    b'.threadInfoBuffer = b.threadInfoBuffer := by
  obtain ⟨events, hrun⟩ := h
  induction hrun with
  | nil => rfl
  | cons first others ih => exact ih.trans (leaves_buffer_dispatch _ _ _ _ _ first)

end Buffer

theorem handsOut_of_hands {x : Handler σ Unit} {request reply : Bytes} {buffer : List Int32}
    {replies : List Bytes} {b : GDBBridge σ} (hrequest : handlePacket (.ofData request) = x)
    (h : Hands x b reply buffer)
    (hnext : ∀ b' : GDBBridge σ, b'.threadInfoBuffer = buffer →
      HandsOut (ascii "qsThreadInfo") replies b') :
    HandsOut request (reply :: replies) b := by
  obtain ⟨b', hrun, hreply, hbuffer⟩ := h
  refine ⟨b', by rw [hrequest, hrun], hreply, fun b'' hnotified => hnext b'' ?_⟩
  rw [hnotified.buffer, hbuffer]

theorem handsOut_nil {b : GDBBridge σ} (h : b.threadInfoBuffer = []) :
    HandsOut (ascii "qsThreadInfo") [ascii "l"] b :=
  handsOut_of_hands handlePacket_next (sendThreadInfoBuffer_nil true h) fun _ _ => trivial

theorem handsOut_cons {b : GDBBridge σ} {first : UInt32} {rest : List UInt32}
    (h : b.threadInfoBuffer = (first :: rest).map UInt32.toInt32) :
    HandsOut (ascii "qsThreadInfo") [page first rest, ascii "l"] b :=
  handsOut_of_hands handlePacket_next (sendThreadInfoBuffer_cons true h) fun _ => handsOut_nil

/-- The answer to `qfThreadInfo`, whatever the buffer held before. -/
theorem handleThreadInfoStart_run {b : GDBBridge σ}
    (h : (XBDMDebugger.fetchThreads b.debugger).1 = true) :
    handleThreadInfoStart b = sendThreadInfoBuffer false { b with
      debugger := (XBDMDebugger.fetchThreads b.debugger).2
      threadInfoBuffer :=
        (XBDMDebugger.fetchThreads b.debugger).2.getThreadIDs.map UInt32.toInt32 } := by
  have hask : ask XBDMDebugger.fetchThreads b = .ok ((XBDMDebugger.fetchThreads b.debugger).1,
      { b with debugger := (XBDMDebugger.fetchThreads b.debugger).2 }) := rfl
  rw [handleThreadInfoStart, Program.bind_of_ok hask, h]
  rfl

theorem hands_start {b : GDBBridge σ} (h : (XBDMDebugger.fetchThreads b.debugger).1 = true)
    {ids : List UInt32} (hids : (XBDMDebugger.fetchThreads b.debugger).2.getThreadIDs = ids)
    {reply : Bytes} {buffer : List Int32}
    (hsend : ∀ b' : GDBBridge σ, b'.threadInfoBuffer = ids.map UInt32.toInt32 →
      Hands (sendThreadInfoBuffer false) b' reply buffer) :
    Hands handleThreadInfoStart b reply buffer := by
  subst hids
  obtain ⟨b', hrun, hreply⟩ := hsend { b with
    debugger := (XBDMDebugger.fetchThreads b.debugger).2
    threadInfoBuffer := _ } rfl
  exact ⟨b', (handleThreadInfoStart_run h).trans hrun, hreply⟩

theorem handsOut_pages {b : GDBBridge σ} (h : (XBDMDebugger.fetchThreads b.debugger).1 = true)
    {ids : List UInt32} (hids : (XBDMDebugger.fetchThreads b.debugger).2.getThreadIDs = ids) :
    HandsOut (ascii "qfThreadInfo") (pages ids ++ [ascii "l"]) b := by
  match ids with
  | [] =>
    exact handsOut_of_hands handlePacket_start
      (hands_start h hids fun _ => sendThreadInfoBuffer_nil false) fun _ _ => trivial
  | [first] =>
    exact handsOut_of_hands handlePacket_start
      (hands_start h hids fun _ => sendThreadInfoBuffer_cons false) fun _ => handsOut_nil
  | first :: second :: rest =>
    exact handsOut_of_hands handlePacket_start
      (hands_start h hids fun _ => sendThreadInfoBuffer_cons false) fun _ => handsOut_cons

/-- From any state, in the middle of an enumeration or not: after a `qfThreadInfo` that could fetch the
threads, the replies are pages that read as the ids the debugger then lists, and an `l`. -/
theorem threadInfo_handsOut (b : GDBBridge σ) (h : (XBDMDebugger.fetchThreads b.debugger).1 = true) :
    ∃ replies : List Bytes, replies.length ≤ 2 ∧
      (replies.mapM readPage).map List.flatten =
        some (XBDMDebugger.fetchThreads b.debugger).2.getThreadIDs ∧
      HandsOut (ascii "qfThreadInfo") (replies ++ [ascii "l"]) b :=
  ⟨pages _, pages_length _, readPage_pages _, handsOut_pages h rfl⟩

/-- A target that lists three threads. -/
def listing : GDBBridge Script :=
  fresh [{ status := .okMultilineResponse, threads := [7, 1, 0xFFFFFFFF] }]

theorem threadInfo_handsOut_listing :
    ∃ replies : List Bytes, replies.length ≤ 2 ∧
      (replies.mapM readPage).map List.flatten =
        some (XBDMDebugger.fetchThreads listing.debugger).2.getThreadIDs ∧
      HandsOut (ascii "qfThreadInfo") (replies ++ [ascii "l"]) listing :=
  threadInfo_handsOut listing rfl

end Threads

section Features

/-- A client's request for a piece of the target description. -/
def featuresRequest (offset length : UInt32) : Bytes :=
  ascii "qXfer:features:read:target.xml:" ++
    (hexText offset.toNat ++ byte ',' :: hexText length.toNat)

theorem handlePacket_features (offset length : UInt32) :
    (handlePacket (.ofData (featuresRequest offset length)) : Handler σ Unit) =
      send (featuresReply offset length) := by
  let region := hexText offset.toNat ++ byte ',' :: hexText length.toNat
  have hquery : (handlePacket (.ofData (featuresRequest offset length)) : Handler σ Unit) =
      handleFeaturesRead (featuresRequest offset length) := rfl
  have hfound : findText (ascii "read:") (featuresRequest offset length) = some 15 := rfl
  have hbody : (featuresRequest offset length).drop 20 = ascii "target.xml" ++ byte ':' :: region := rfl
  have hcolon : GDBPacket.memchr (byte ':') (ascii "target.xml" ++ byte ':' :: region) = some 10 :=
    Frames.memchr_first (by decide)
  have hcomma : GDBPacket.memchr (byte ',') region = some (hexText offset.toNat).length :=
    Frames.memchr_first (comma_notMem offset)
  have hname : (ascii "target.xml" ++ byte ':' :: region).take 10 = ascii "target.xml" := rfl
  have hregion : (ascii "target.xml" ++ byte ':' :: region).drop (10 + 1) = region := rfl
  have hoffset : region.take (hexText offset.toNat).length = hexText offset.toNat :=
    List.take_left
  have hlength : region.drop ((hexText offset.toNat).length + 1) = hexText length.toNat := by
    rw [List.drop_append, List.drop_eq_nil_of_le (Nat.le_succ _)]
    simp
  rw [hquery]
  unfold handleFeaturesRead
  simp only [hfound, hbody, hcolon, hname, hregion, hcomma, hoffset, hlength, hexUInt32_hexText]
  rfl

/-- The text has at most so many characters. -/
structure Fits (s : String) (n : Nat) : Prop where
  le : s.length ≤ n

theorem Fits.append {s t : String} {m n : Nat} (hs : Fits s m) (ht : Fits t n) :
    Fits (s ++ t) (m + n) :=
  ⟨by rw [String.length_append]; exact Nat.add_le_add hs.le ht.le⟩

theorem Fits.literal {l : List Char} : Fits (String.ofList l) l.length :=
  ⟨String.length_ofList.le⟩

theorem Fits.ascii_lt {s : String} {n : Nat} (hs : Fits s n) (hn : n < 2 ^ 32) :
    (ascii s).length < 2 ^ 32 := by
  rw [ascii, List.length_map, String.length_toList]
  exact hs.le.trans_lt hn

/-- The description is short enough for its size to fit the 32-bit variable. -/
theorem length_kTargetXML_lt : kTargetXML.length < 2 ^ 32 := by
  apply Fits.ascii_lt
  -- piece by piece: the whole text is too long to be evaluated
  · repeat' apply Fits.append
    all_goals exact Fits.literal
  · decide +kernel

section Pieces

variable {text : Bytes} {offset : UInt32}

/-- The replies of `featuresReply` for any text. -/
def pieceReply (text : Bytes) (start length : UInt32) : Bytes :=
  if UInt32.ofNat text.length ≤ start then ascii "l"
  else if UInt32.ofNat text.length ≤ start + length then byte 'l' :: text.drop start.toNat
  else byte 'm' :: (text.drop start.toNat).take length.toNat

/-- The bytes behind an `m`. -/
def piece (text : Bytes) (offset length : UInt32) : Bytes :=
  (text.drop offset.toNat).take length.toNat

/-- The offset a client asks for next. -/
def behind (text : Bytes) (offset length : UInt32) : UInt32 :=
  offset + UInt32.ofNat (piece text offset length).length

/-- What a reply holds: all the rest behind an `l`, or as much as was asked for behind an `m`. When
the end of the request wraps around the marker is `m` though nothing is left. -/
theorem pieceReply_cases (hsize : text.length < 2 ^ 32) (length : UInt32)
    (h : offset.toNat ≤ text.length) :
    (pieceReply text offset length = byte 'l' :: text.drop offset.toNat ∧
      (text.drop offset.toNat).length ≤ length.toNat) ∨
    (offset.toNat < text.length ∧
      pieceReply text offset length = byte 'm' :: piece text offset length) := by
  have havailable : (UInt32.ofNat text.length).toNat = text.length := Nat.mod_eq_of_lt hsize
  unfold pieceReply
  simp only [UInt32.le_iff_toNat_le, havailable, UInt32.toNat_add, List.length_drop]
  split
  next hall =>
    refine .inl ⟨?_, by omega⟩
    rw [List.drop_eq_nil_of_le hall]
    rfl
  next hsome =>
    split
    next hend => exact .inl ⟨rfl, by omega⟩
    next => exact .inr ⟨by omega, rfl⟩

theorem length_piece (text : Bytes) (offset length : UInt32) :
    (piece text offset length).length = min length.toNat (text.length - offset.toNat) := by
  rw [piece, List.length_take, List.length_drop]

theorem toNat_behind (hsize : text.length < 2 ^ 32) (length : UInt32)
    (h : offset.toNat ≤ text.length) :
    (behind text offset length).toNat = offset.toNat + (piece text offset length).length := by
  have hlength := length_piece text offset length
  rw [behind, UInt32.toNat_add, UInt32.toNat_ofNat', Nat.add_mod_mod, Nat.mod_eq_of_lt (by omega)]

theorem behind_le (hsize : text.length < 2 ^ 32) (length : UInt32) (h : offset.toNat ≤ text.length) :
    (behind text offset length).toNat ≤ text.length := by
  rw [toNat_behind hsize length h, length_piece]
  omega

theorem piece_append (hsize : text.length < 2 ^ 32) (length : UInt32)
    (h : offset.toNat ≤ text.length) :
    piece text offset length ++ text.drop (behind text offset length).toNat =
      text.drop offset.toNat := by
  rw [toNat_behind hsize length h, ← List.drop_drop]
  exact List.prefix_iff_eq_append.mp (List.take_prefix _ _)

end Pieces

/-- A client reads from `offset` on, with the `n`-th of these lengths, up to the first reply that is
marked as the last. -/
inductive Reads (lengths : Nat → UInt32) : Nat → UInt32 → GDBBridge σ → Bytes → GDBBridge σ → Prop
  | last {n : Nat} {offset : UInt32} {b b' : GDBBridge σ} {body : Bytes}
      (h : handlePacket (.ofData (featuresRequest offset (lengths n))) b = .ok ((), b'))
      (hreply : b'.replies = b.replies ++ [.ofData (byte 'l' :: body)])
      (hshort : body.length ≤ (lengths n).toNat) : Reads lengths n offset b body b'
  | more {n : Nat} {offset : UInt32} {b b' b'' : GDBBridge σ} {body rest : Bytes}
      (h : handlePacket (.ofData (featuresRequest offset (lengths n))) b = .ok ((), b'))
      (hreply : b'.replies = b.replies ++ [.ofData (byte 'm' :: body)])
      (hshort : body.length ≤ (lengths n).toNat)
      (hrest : Reads lengths (n + 1) (offset + UInt32.ofNat body.length) b' rest b'') :
      Reads lengths n offset b (body ++ rest) b''

theorem features_run (offset length : UInt32) (b : GDBBridge σ) :
    ∃ b', handlePacket (.ofData (featuresRequest offset length)) b = .ok ((), b') ∧
      b'.replies = b.replies ++ [.ofData (featuresReply offset length)] := by
  rw [handlePacket_features]
  exact ⟨_, rfl, rfl⟩

theorem ofData_injective {data data' : Bytes}
    (h : GDBPacket.ofData data = GDBPacket.ofData data') : data = data' :=
  congrArg GDBPacket.data h

theorem reply_eq {offset length : UInt32} {b b' : GDBBridge σ} {reply : Bytes}
    (h : handlePacket (.ofData (featuresRequest offset length)) b = .ok ((), b'))
    (hreply : b'.replies = b.replies ++ [.ofData reply]) : reply = featuresReply offset length := by
  obtain ⟨b'', hrun, hreply'⟩ := features_run offset length b
  obtain rfl : b' = b'' := congrArg Prod.snd (Except.ok.inj (h.symm.trans hrun))
  rw [hreply', List.append_cancel_left_eq, List.cons.injEq] at hreply
  exact (ofData_injective hreply.1).symm

section Reading

variable {lengths : Nat → UInt32} {text : Bytes} (hsize : text.length < 2 ^ 32)
  (htext : ∀ offset length, featuresReply offset length = pieceReply text offset length)
include hsize htext

theorem reads_rest (hpos : ∀ n, 1 ≤ (lengths n).toNat) (n : Nat) (offset : UInt32)
    (h : offset.toNat ≤ text.length) (b : GDBBridge σ) :
    ∃ b', Reads lengths n offset b (text.drop offset.toNat) b' := by
  -- every piece but the last is at least one byte
  induction hleft : text.length - offset.toNat using Nat.strong_induction_on
    generalizing n offset b with
  | _ left ih =>
    obtain ⟨b', hrun, hreply⟩ := features_run offset (lengths n) b
    rw [htext] at hreply
    rcases pieceReply_cases hsize (lengths n) h with ⟨hlast, hshort⟩ | ⟨hlt, hmore⟩
    · rw [hlast] at hreply
      exact ⟨b', .last hrun hreply hshort⟩
    · rw [hmore] at hreply
      have hfewer : text.length - (behind text offset (lengths n)).toNat < left := by
        have := hpos n
        rw [toNat_behind hsize _ h, length_piece]
        omega
      obtain ⟨b'', hrest⟩ := ih _ hfewer (n + 1) _ (behind_le hsize _ h) b' rfl
      refine ⟨b'', ?_⟩
      rw [← piece_append hsize (lengths n) h]
      exact .more hrun hreply (List.length_take_le _ _) hrest

theorem reads_eq {n : Nat} {offset : UInt32} {b b' : GDBBridge σ} {received : Bytes}
    (hr : Reads lengths n offset b received b') (h : offset.toNat ≤ text.length) :
    received = text.drop offset.toNat := by
  induction hr with
  | @last n offset b b' body hrun hreply hshort =>
    have heq := (reply_eq hrun hreply).trans (htext _ _)
    rcases pieceReply_cases hsize (lengths n) h with ⟨hlast, -⟩ | ⟨-, hmore⟩
    · rw [hlast] at heq
      exact (List.cons.inj heq).2
    · rw [hmore] at heq
      exact absurd (List.cons.inj heq).1 (by decide)
  | @more n offset b b' b'' body rest hrun hreply hshort hrest ih =>
    have heq := (reply_eq hrun hreply).trans (htext _ _)
    rcases pieceReply_cases hsize (lengths n) h with ⟨hlast, -⟩ | ⟨-, hmore⟩
    · rw [hlast] at heq
      exact absurd (List.cons.inj heq).1 (by decide)
    · rw [hmore] at heq
      obtain rfl := (List.cons.inj heq).2
      rw [ih (behind_le hsize _ h)]
      exact piece_append hsize _ h

end Reading

theorem featuresReply_eq (offset length : UInt32) :
    featuresReply offset length = pieceReply kTargetXML offset length := rfl

/-- Whatever lengths a client asks for, it gets the whole description in pieces no longer than that,
also where the end of a request wraps around. -/
theorem reads_kTargetXML {lengths : Nat → UInt32} (hpos : ∀ n, 1 ≤ (lengths n).toNat)
    (b : GDBBridge σ) :
    (∃ b', Reads lengths 0 0 b kTargetXML b') ∧
      ∀ text b', Reads lengths 0 0 b text b' → text = kTargetXML := by
  have hall : kTargetXML.drop (0 : UInt32).toNat = kTargetXML := by
    rw [UInt32.toNat_zero, List.drop_zero]
  refine ⟨?_, fun text b' hr => ?_⟩
  · have hreads := reads_rest length_kTargetXML_lt featuresReply_eq hpos 0 0 (Nat.zero_le _) b
    rwa [hall] at hreads
  · rw [reads_eq length_kTargetXML_lt featuresReply_eq hr (Nat.zero_le _), hall]

/-- The second request reaches beyond the address space. -/
theorem reads_kTargetXML_wrapping :
    (∃ b', Reads (fun n => if n = 0 then 0x10 else 0xFFFFFFFF) 0 0 fresh kTargetXML b') ∧
      ∀ text b', Reads (fun n => if n = 0 then 0x10 else 0xFFFFFFFF) 0 0 fresh text b' →
        text = kTargetXML :=
  reads_kTargetXML (fun n => by split <;> decide) _

end Features

end XbdmGdbBridge.Proofs.Queries
