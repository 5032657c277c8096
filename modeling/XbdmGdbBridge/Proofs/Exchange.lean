import XbdmGdbBridge.Lib.Runs
import XbdmGdbBridge.Rdcp.Transport
import XbdmGdbBridge.Proofs.Requests

/-!
# Requests and their answers

A connected transport and a peer that answers every line it gets, in order. Requests are sent at
any time, answers come in pieces of any size, and the thread that reads may be overtaken within
`OnBytesRead`.
-/

namespace XbdmGdbBridge.Proofs

open Lib Rdcp

/-- The requests a peer sees: one for each line that was written. -/
def received (output : List Output) : List SharedRequest :=
  output.flatMap fun
    | .request r => List.replicate ((splitPair 0x0d 0x0a r.request.toBytes).length - 1) r
    | .payload _ => []

structure Exchange where
  transport : XBDMTransport := { state := .CONNECTED }
  reading : Reading := .idle
  /-- The requests given to `Send` so far. -/
  sent : List SharedRequest := []
  /-- The answers of the peer so far, with the request whose line they answer. -/
  answered : List (SharedRequest × Answer) := []
  /-- Bytes of answers that were not read yet. -/
  inFlight : Bytes := []

namespace Exchange

/-- The answers as the requests should see them. -/
def exchanged (s : Exchange) : List (SharedRequest × RDCPResponse) :=
  s.answered.map fun (r, a) => (r, a.response)

/-- Nothing is under way. -/
def Settled (s : Exchange) : Prop :=
  s.reading = .idle ∧ s.inFlight = [] ∧
    s.answered.length = (received s.transport.output).length

end Exchange

inductive Event where
  | send (request : RDCPRequest)
  | answer (a : Answer)
  | read (chunk : Bytes)
  | handle | write | complete

/-- A line may be answered at any time after it was written, which covers the time it spends in the
write buffer and on the wire. -/
inductive ExchangeStep : Event → Exchange → Exchange → Prop where
  | send (s : Exchange) (request : RDCPRequest) :
      ExchangeStep (.send request) s { s with
        transport := s.transport.send ⟨s.sent.length, request⟩
        sent := s.sent ++ [⟨s.sent.length, request⟩] }
  | answer (s : Exchange) (a : Answer) (r : SharedRequest)
      (hline : (received s.transport.output)[s.answered.length]? = some r)
      (hform : a.WellFormed r.request.binaryResponseSizeParser)
      (hstatus : a.response.status ≠ OK_SEND_BINARY_DATA) :
      ExchangeStep (.answer a) s { s with
        answered := s.answered ++ [(r, a)]
        inFlight := s.inFlight ++ a.text }
  | read (s : Exchange) (chunk rest : Bytes) (hreading : s.reading = .idle) (hsome : chunk ≠ [])
      (hchunk : s.inFlight = chunk ++ rest) :
      ExchangeStep (.read chunk) s { s with
        transport := (s.transport.doReceive chunk).parseFront.1
        reading := (s.transport.doReceive chunk).parseFront.2
        inFlight := rest }
  | handle (s : Exchange) (request : Option SharedRequest) (response : Option RDCPResponse)
      (hreading : s.reading = .parsed request response) :
      ExchangeStep .handle s { s with
        transport := (s.transport.handleResponse request response).1
        reading := (s.transport.handleResponse request response).2 }
  | write (s : Exchange) (request : Option SharedRequest) (response : RDCPResponse)
      (hreading : s.reading = .popped request response) :
      ExchangeStep .write s { s with
        transport := s.transport.writeNextRequest
        reading := .wrote request response }
  | complete (s : Exchange) (request : Option SharedRequest) (response : RDCPResponse)
      (hreading : s.reading = .wrote request response) :
      ExchangeStep .complete s { s with
        transport := (s.transport.complete response request).1
        reading := (s.transport.complete response request).2 }

/-- Every request is written once and in order, every call of `Complete` gives a request the
peer's answer to it, once and in order, and nothing is left out in the end. -/
structure Faithful (s : Exchange) : Prop where
  running : ∀ fault, s.reading ≠ .faulted fault
  written : s.transport.output <+: s.sent.map .request
  ordered : s.transport.completed.map Prod.fst <+: s.sent
  answers : s.transport.completed <+: s.exchanged
  settled : s.Settled → s.transport.output = s.sent.map .request ∧
    s.transport.completed.map Prod.fst = s.sent

/-- Nothing is in the queue, also not for a thread that has popped a request and is about to write
the next one, and the request is a single line. -/
def Alone : Event → Exchange → Prop
  | .send request, s => s.transport.requestQueue = [] ∧
      (∀ r response, s.reading ≠ .popped r response) ∧ OneCommand request
  | .answer a, _ => a.Countable
  | _, _ => True

/-- The completion the thread that reads has before it. -/
def pending : Reading → List (SharedRequest × RDCPResponse)
  | .popped (some r) response | .wrote (some r) response => [(r, response)]
  | _ => []

/-- Outside `OnBytesRead`, or with nothing but the call of `Complete` to do. -/
def Clear (reading : Reading) : Prop :=
  reading = .idle ∨ ∃ r response, reading = .wrote (some r) response

/-- How far the only request in the queue has come. -/
inductive Progress (s : Exchange) : Prop where
  | none (hqueue : s.transport.requestQueue = []) (hsent : s.sent = s.answered.map Prod.fst)
      (hdone : s.transport.completed ++ pending s.reading = s.exchanged)
      (hbuffer : s.transport.readBuffer = []) (hflight : s.inFlight = [])
      (hreading : Clear s.reading ∨ ∃ r response, s.reading = .popped (some r) response)
  | written (r : SharedRequest) (hqueue : s.transport.requestQueue = [r])
      (hsent : s.sent = s.answered.map Prod.fst ++ [r])
      (hdone : s.transport.completed ++ pending s.reading = s.exchanged)
      (hbuffer : s.transport.readBuffer = []) (hflight : s.inFlight = [])
      (hreading : Clear s.reading)
  | arriving (r : SharedRequest) (a : Answer) (hqueue : s.transport.requestQueue = [r])
      (hsent : s.sent = s.answered.map Prod.fst)
      (hdone : s.transport.completed ++ pending s.reading ++ [(r, a.response)] = s.exchanged)
      (hform : a.WellFormed r.request.binaryResponseSizeParser) (hcount : a.Countable)
      (hstatus : a.response.status ≠ OK_SEND_BINARY_DATA)
      (htext : s.transport.readBuffer ++ s.inFlight = a.text) (hflight : s.inFlight ≠ [])
      (hreading : Clear s.reading)
  | parsed (r : SharedRequest) (a : Answer) (hqueue : s.transport.requestQueue = [r])
      (hsent : s.sent = s.answered.map Prod.fst)
      (hdone : s.transport.completed ++ [(r, a.response)] = s.exchanged)
      (hstatus : a.response.status ≠ OK_SEND_BINARY_DATA)
      (hbuffer : s.transport.readBuffer = []) (hflight : s.inFlight = [])
      (hreading : s.reading = .parsed (some r) (some a.response))

structure OneAtATime (s : Exchange) : Prop where
  connected : s.transport.state = .CONNECTED
  written : s.transport.output = s.sent.map .request
  single : ∀ r ∈ s.sent, OneCommand r.request
  progress : Progress s

section Lines

theorem lineCount_oneCommand {r : RDCPRequest} (h : OneCommand r) :
    (splitPair 0x0d 0x0a r.toBytes).length - 1 = 1 := by
  have hline := (oneCommand_iff r).mp h
  have hcut := splitPair_line [] (by decide) hline
  rw [toBytes_eq, hcut]
  rfl

theorem received_single {sent : List SharedRequest} (h : ∀ r ∈ sent, OneCommand r.request) :
    received (sent.map .request) = sent := by
  induction sent with
  | nil => rfl
  | cons r sent ih =>
    obtain ⟨hr, hsent⟩ := List.forall_mem_cons.mp h
    have hrest := ih hsent
    unfold received at hrest ⊢
    rw [List.map_cons, List.flatMap_cons, hrest]
    simp only [lineCount_oneCommand hr, List.replicate_one, List.singleton_append]

theorem Answer.text_ne_nil (a : Answer) : a.text ≠ [] := by
  simp [Answer.text, kTerminator]

end Lines

section Steps

variable {s s' : Exchange} {request : RDCPRequest} {a : Answer}

theorem writeNextRequest_front {t : XBDMTransport} {r : SharedRequest}
    {rest : List SharedRequest} (hstate : t.state = .CONNECTED) (hqueue : t.requestQueue = r :: rest) :
    t.writeNextRequest = { t with output := t.output ++ [.request r] } := by
  unfold XBDMTransport.writeNextRequest
  rw [if_neg (by simp [hstate]), hqueue]

theorem writeNextRequest_empty {t : XBDMTransport} (hqueue : t.requestQueue = []) :
    t.writeNextRequest = t := by
  unfold XBDMTransport.writeNextRequest
  rw [hqueue]
  split <;> rfl

theorem parseFront_whole {t : XBDMTransport} {r : SharedRequest} {rest : List SharedRequest}
    (hqueue : t.requestQueue = r :: rest) (hform : a.WellFormed r.request.binaryResponseSizeParser)
    (hcount : a.Countable) (hbuffer : t.readBuffer = a.text) :
    t.parseFront = ({ t with readBuffer := [] }, .parsed (some r) (some a.response)) := by
  have hsome : (a.text.length : Int) ≠ 0 := by simp [Answer.text_ne_nil]
  unfold XBDMTransport.parseFront XBDMTransport.shiftReadBuffer
  simp only [hqueue, List.head?_cons, Option.bind_some, hbuffer, parse_answer hform hcount,
    if_neg hsome, Int.natAbs_natCast, gt_iff_lt, lt_irrefl, if_false, List.drop_length]

theorem parseFront_cut {t : XBDMTransport} {r : SharedRequest} {rest : List SharedRequest}
    (hqueue : t.requestQueue = r :: rest) (hform : a.WellFormed r.request.binaryResponseSizeParser)
    (hcount : a.Countable) (hbuffer : t.readBuffer <+: a.text) (hne : t.readBuffer ≠ a.text) :
    t.parseFront = (t, .idle) := by
  unfold XBDMTransport.parseFront
  simp only [hqueue, List.head?_cons, Option.bind_some, parse_cut hform hcount hbuffer hne,
    if_true]

theorem oneAtATime_send (hs : OneAtATime s) (h : Alone (.send request) s) :
    OneAtATime { s with
      transport := s.transport.send ⟨s.sent.length, request⟩
      sent := s.sent ++ [⟨s.sent.length, request⟩] } := by
  obtain ⟨hempty, hnotPopped, hsingle⟩ := h
  have hsend : s.transport.send ⟨s.sent.length, request⟩ = { s.transport with
      requestQueue := [⟨s.sent.length, request⟩]
      output := s.transport.output ++ [.request ⟨s.sent.length, request⟩] } := by
    unfold XBDMTransport.send
    rw [hempty]
    exact writeNextRequest_front hs.connected rfl
  rw [hsend]
  refine ⟨hs.connected, ?_, ?_, ?_⟩
  · simp [hs.written]
  · simpa [or_imp, forall_and] using ⟨hs.single, hsingle⟩
  · cases hs.progress with
    | none hqueue hsent hdone hbuffer hflight hreading =>
      refine .written _ rfl (by rw [← hsent]) hdone hbuffer hflight ?_
      rcases hreading with hclear | ⟨r, response, hpopped⟩
      · exact hclear
      · exact absurd hpopped (hnotPopped _ _)
    | written r hqueue => simp [hqueue] at hempty
    | arriving r a hqueue => simp [hqueue] at hempty
    | parsed r a hqueue => simp [hqueue] at hempty

theorem oneAtATime_answer {r : SharedRequest} (hs : OneAtATime s) (hcount : a.Countable)
    (hline : (received s.transport.output)[s.answered.length]? = some r)
    (hform : a.WellFormed r.request.binaryResponseSizeParser)
    (hstatus : a.response.status ≠ OK_SEND_BINARY_DATA) :
    OneAtATime { s with
      answered := s.answered ++ [(r, a)]
      inFlight := s.inFlight ++ a.text } := by
  rw [hs.written, received_single hs.single] at hline
  refine ⟨hs.connected, hs.written, hs.single, ?_⟩
  cases hs.progress with
  | none hqueue hsent => simp [hsent] at hline
  | written r' hqueue hsent hdone hbuffer hflight hreading =>
    obtain rfl : r' = r := by simpa [hsent] using hline
    refine .arriving r' a hqueue (by simp [hsent]) ?_ hform hcount hstatus ?_ ?_ hreading
    · rw [hdone]
      simp [Exchange.exchanged]
    · simp [hbuffer, hflight]
    · simp [hflight, Answer.text_ne_nil]
  | arriving r' a' hqueue hsent => simp [hsent] at hline
  | parsed r' a' hqueue hsent => simp [hsent] at hline

theorem oneAtATime_read {chunk rest : Bytes} (hs : OneAtATime s) (hidle : s.reading = .idle)
    (hsome : chunk ≠ []) (hchunk : s.inFlight = chunk ++ rest) :
    OneAtATime { s with
      transport := (s.transport.doReceive chunk).parseFront.1
      reading := (s.transport.doReceive chunk).parseFront.2
      inFlight := rest } := by
  have hbytes : s.inFlight ≠ [] := by simp [hchunk, hsome]
  cases hs.progress with
  | none hqueue hsent hdone hbuffer hflight => exact absurd hflight hbytes
  | written r hqueue hsent hdone hbuffer hflight => exact absurd hflight hbytes
  | parsed r a hqueue hsent hdone hstatus hbuffer hflight => exact absurd hflight hbytes
  | arriving r a hqueue hsent hdone hform hcount hstatus htext hflight hreading =>
    rw [hchunk, ← List.append_assoc] at htext
    cases rest with
    | nil =>
      have hlast : s.transport.completed ++ [(r, a.response)] = s.exchanged := by
        simpa [hidle, pending] using hdone
      rw [List.append_nil] at htext
      rw [parseFront_whole (t := s.transport.doReceive chunk) hqueue hform hcount htext]
      exact ⟨hs.connected, hs.written, hs.single,
        .parsed r a hqueue hsent hlast hstatus rfl rfl rfl⟩
    | cons b rest =>
      rw [hidle] at hdone
      have hshort : s.transport.readBuffer ++ chunk ≠ a.text := by simp [← htext]
      rw [parseFront_cut (t := s.transport.doReceive chunk) hqueue hform hcount
        ⟨_, htext⟩ hshort]
      exact ⟨hs.connected, hs.written, hs.single,
        .arriving r a hqueue hsent hdone hform hcount hstatus htext (by simp) (.inl rfl)⟩

theorem oneAtATime_handle {request : Option SharedRequest} {response : Option RDCPResponse}
    (hs : OneAtATime s) (hparsed : s.reading = .parsed request response) :
    OneAtATime { s with
      transport := (s.transport.handleResponse request response).1
      reading := (s.transport.handleResponse request response).2 } := by
  cases hs.progress with
  | none hqueue hsent hdone hbuffer hflight hreading => simp [Clear, hparsed] at hreading
  | written r hqueue hsent hdone hbuffer hflight hreading => simp [Clear, hparsed] at hreading
  | arriving r a hqueue hsent hdone hform hcount hstatus htext hflight hreading =>
    simp [Clear, hparsed] at hreading
  | parsed r a hqueue hsent hdone hstatus hbuffer hflight hreading =>
    obtain ⟨rfl, rfl⟩ : request = some r ∧ response = some a.response := by
      simpa [hparsed] using hreading
    have hpop : s.transport.handleResponse (some r) (some a.response) =
        ({ s.transport with requestQueue := [] }, .popped (some r) a.response) := by
      simp only [XBDMTransport.handleResponse, hqueue, if_neg hstatus]
    rw [hpop]
    exact ⟨hs.connected, hs.written, hs.single,
      .none rfl hsent hdone hbuffer hflight (.inr ⟨r, a.response, rfl⟩)⟩

theorem oneAtATime_write {request : Option SharedRequest} {response : RDCPResponse}
    (hs : OneAtATime s) (hpopped : s.reading = .popped request response) :
    OneAtATime { s with
      transport := s.transport.writeNextRequest
      reading := .wrote request response } := by
  cases hs.progress with
  | none hqueue hsent hdone hbuffer hflight hreading =>
    obtain ⟨r, rfl⟩ : ∃ r, request = some r := by simpa [Clear, hpopped] using hreading
    rw [hpopped] at hdone
    rw [writeNextRequest_empty hqueue]
    exact ⟨hs.connected, hs.written, hs.single,
      .none hqueue hsent hdone hbuffer hflight (.inl (.inr ⟨r, response, rfl⟩))⟩
  | written r hqueue hsent hdone hbuffer hflight hreading => simp [Clear, hpopped] at hreading
  | arriving r a hqueue hsent hdone hform hcount hstatus htext hflight hreading =>
    simp [Clear, hpopped] at hreading
  | parsed r a hqueue hsent hdone hstatus hbuffer hflight hreading => simp [hpopped] at hreading

theorem oneAtATime_complete {request : Option SharedRequest} {response : RDCPResponse}
    (hs : OneAtATime s) (hwrote : s.reading = .wrote request response) :
    OneAtATime { s with
      transport := (s.transport.complete response request).1
      reading := (s.transport.complete response request).2 } := by
  have hrequest : ∃ r, request = some r := by
    cases hs.progress with
    | none hqueue hsent hdone hbuffer hflight hreading => simpa [Clear, hwrote] using hreading
    | written r hqueue hsent hdone hbuffer hflight hreading => simpa [Clear, hwrote] using hreading
    | arriving r a hqueue hsent hdone hform hcount hstatus htext hflight hreading =>
      simpa [Clear, hwrote] using hreading
    | parsed r a hqueue hsent hdone hstatus hbuffer hflight hreading => simp [hwrote] at hreading
  obtain ⟨r, rfl⟩ := hrequest
  refine ⟨hs.connected, hs.written, hs.single, ?_⟩
  have hmoved : s.transport.completed ++ [(r, response)] ++ pending .idle =
      s.transport.completed ++ pending s.reading := by simp [pending, hwrote]
  cases hs.progress with
  | none hqueue hsent hdone hbuffer hflight hreading =>
    exact .none hqueue hsent (hmoved.trans hdone) hbuffer hflight (.inl (.inl rfl))
  | written r' hqueue hsent hdone hbuffer hflight hreading =>
    exact .written r' hqueue hsent (hmoved.trans hdone) hbuffer hflight (.inl rfl)
  | arriving r' a hqueue hsent hdone hform hcount hstatus htext hflight hreading =>
    rw [← hmoved] at hdone
    exact .arriving r' a hqueue hsent hdone hform hcount hstatus htext hflight (.inl rfl)
  | parsed r' a hqueue hsent hdone hstatus hbuffer hflight hreading => simp [hwrote] at hreading

theorem oneAtATime_step (e : Event) (s s' : Exchange) (hs : OneAtATime s) (halone : Alone e s)
    (h : ExchangeStep e s s') : OneAtATime s' := by
  cases h with
  | send _ request => exact oneAtATime_send hs halone
  | answer _ a r hline hform hstatus => exact oneAtATime_answer hs halone hline hform hstatus
  | read _ chunk rest hreading hsome hchunk => exact oneAtATime_read hs hreading hsome hchunk
  | handle _ request response hreading => exact oneAtATime_handle hs hreading
  | write _ request response hreading => exact oneAtATime_write hs hreading
  | complete _ request response hreading => exact oneAtATime_complete hs hreading

end Steps

section Properties

variable {s : Exchange}

theorem Progress.running (h : Progress s) (fault : Fault) : s.reading ≠ .faulted fault := by
  intro hfault
  cases h with
  | none hqueue hsent hdone hbuffer hflight hreading => simp [Clear, hfault] at hreading
  | written r hqueue hsent hdone hbuffer hflight hreading => simp [Clear, hfault] at hreading
  | arriving r a hqueue hsent hdone hform hcount hstatus htext hflight hreading =>
    simp [Clear, hfault] at hreading
  | parsed r a hqueue hsent hdone hstatus hbuffer hflight hreading => simp [hfault] at hreading

theorem Progress.answers (h : Progress s) : s.transport.completed <+: s.exchanged := by
  cases h with
  | none hqueue hsent hdone => exact ⟨_, hdone⟩
  | written r hqueue hsent hdone => exact ⟨_, hdone⟩
  | arriving r a hqueue hsent hdone => exact ⟨_, by rw [← hdone, List.append_assoc]⟩
  | parsed r a hqueue hsent hdone => exact ⟨_, hdone⟩

theorem Progress.answered (h : Progress s) : s.answered.map Prod.fst <+: s.sent := by
  cases h with
  | none hqueue hsent => exact hsent ▸ List.prefix_rfl
  | written r hqueue hsent => exact ⟨[r], hsent.symm⟩
  | arriving r a hqueue hsent => exact hsent ▸ List.prefix_rfl
  | parsed r a hqueue hsent => exact hsent ▸ List.prefix_rfl

theorem exchanged_requests (s : Exchange) : s.exchanged.map Prod.fst = s.answered.map Prod.fst := by
  simp [Exchange.exchanged]

theorem Progress.settled (h : Progress s) (hidle : s.reading = .idle) (hread : s.inFlight = [])
    (hall : s.answered.length = s.sent.length) : s.transport.completed.map Prod.fst = s.sent := by
  cases h with
  | none hqueue hsent hdone hbuffer hflight hreading =>
    rw [hidle] at hdone
    have hcompleted : s.transport.completed = s.exchanged := by simpa [pending] using hdone
    rw [hcompleted, exchanged_requests, ← hsent]
  | written r hqueue hsent =>
    have hlength := congrArg List.length hsent
    simp [← hall] at hlength
  | arriving r a hqueue hsent hdone hform hcount hstatus htext hflight => exact absurd hread hflight
  | parsed r a hqueue hsent hdone hstatus hbuffer hflight hreading => simp [hidle] at hreading

theorem OneAtATime.faithful (hs : OneAtATime s) : Faithful s where
  running := hs.progress.running
  written := hs.written ▸ List.prefix_rfl
  ordered := by
    have hrequests := hs.progress.answers.map Prod.fst
    rw [exchanged_requests] at hrequests
    exact hrequests.trans hs.progress.answered
  answers := hs.progress.answers
  settled := by
    rintro ⟨hidle, hread, hall⟩
    rw [hs.written, received_single hs.single] at hall
    exact ⟨hs.written, hs.progress.settled hidle hread hall⟩

end Properties

/-- In a run in which every request is sent alone, every request is written once and completed with
the answer to it. -/
theorem run_faithful {events : List (Event × Exchange)} {s : Exchange}
    (h : Run ExchangeStep {} events s) (halone : ∀ e ∈ events, Alone e.1 e.2) :
    Run.Always Faithful events s := by
  have hstart : OneAtATime {} :=
    ⟨rfl, rfl, by simp, .none rfl rfl rfl rfl rfl (.inl (.inl rfl))⟩
  have hkept := h.always_of oneAtATime_step hstart halone
  exact ⟨fun e he => (hkept.1 e he).faithful, hkept.2.faithful⟩

/-- A request is sent, its answer comes in one piece and the request is completed with it. -/
theorem run_faithful_single : ∃ events s, Run ExchangeStep {} events s ∧
    (∀ e ∈ events, Alone e.1 e.2) ∧ Run.Always Faithful events s ∧
    s.transport.completed = s.exchanged ∧ s.sent.length = 1 ∧ s.answered.length = 1 := by
  let request : RDCPRequest := { command := ascii "getpid", data := [] }
  let r : SharedRequest := ⟨0, request⟩
  let a : Answer := .line (ascii "200") (ascii "pid=0x00000002")
  have hsingle : OneCommand request := by
    rw [oneCommand_iff]
    exact free_of_notMem (by decide)
  have hform : a.WellFormed none := by
    refine ⟨free_of_notMem (by decide), rfl, ?_, ?_, ?_⟩ <;> decide +kernel
  have hstatus : a.response.status ≠ OK_SEND_BINARY_DATA := by decide +kernel
  let sent : Exchange := {
    transport := { state := .CONNECTED, requestQueue := [r], output := [.request r] }
    sent := [r] }
  let answered : Exchange := { sent with answered := [(r, a)], inFlight := a.text }
  let parsed : Exchange := { answered with
    reading := .parsed (some r) (some a.response), inFlight := [] }
  let popped : Exchange := { parsed with
    transport := { state := .CONNECTED, output := [.request r] }
    reading := .popped (some r) a.response }
  have hanswer : ExchangeStep (.answer a) sent answered := by
    refine .answer sent a r ?_ hform hstatus
    change (received ([r].map .request))[0]? = some r
    rw [received_single (by simpa using hsingle)]
    rfl
  have hread : ExchangeStep (.read a.text) answered parsed := by
    have hstep := ExchangeStep.read answered a.text [] rfl a.text_ne_nil (by simp [answered])
    rw [parseFront_whole (t := answered.transport.doReceive a.text) (a := a) rfl hform trivial rfl]
      at hstep
    exact hstep
  have hhandle : ExchangeStep .handle parsed popped := by
    have hstep := ExchangeStep.handle parsed (some r) (some a.response) rfl
    have hpop : parsed.transport.handleResponse (some r) (some a.response) =
        (popped.transport, .popped (some r) a.response) := by
      simp only [XBDMTransport.handleResponse, parsed, answered, sent, if_neg hstatus, popped]
    rw [hpop] at hstep
    exact hstep
  have hrun : Run ExchangeStep {} _ _ := .cons (.send {} request) (.cons hanswer (.cons hread
    (.cons hhandle (.cons (.write popped (some r) a.response rfl)
      (.cons (.complete _ (some r) a.response rfl) (.nil _))))))
  obtain ⟨events, s, hrun, halone, hs⟩ : ∃ events s, Run ExchangeStep {} events s ∧
      (∀ e ∈ events, Alone e.1 e.2) ∧
      s.transport.completed = s.exchanged ∧ s.sent.length = 1 ∧ s.answered.length = 1 :=
    ⟨_, _, hrun, by simp [Alone, hsingle, a, Answer.Countable], rfl, rfl, rfl⟩
  exact ⟨events, s, hrun, halone, run_faithful hrun halone, hs⟩

/-- A second request is sent before the first one is answered: the first one is written again. -/
theorem run_sent_twice : ∃ events s, Run ExchangeStep {} events s ∧
    s.transport.output.length = 2 ∧ s.sent.length = 2 ∧ ¬Faithful s := by
  let first : RDCPRequest := { command := ascii "getpid", data := [] }
  let second : RDCPRequest := { command := ascii "threads", data := [] }
  refine ⟨_, _, .cons (.send {} first) (.cons (.send _ second) (.nil _)), rfl, rfl, ?_⟩
  intro h
  have hwritten : [Output.request ⟨0, first⟩, .request ⟨0, first⟩] <+:
      [.request ⟨0, first⟩, .request ⟨1, second⟩] := h.written
  simp at hwritten

end XbdmGdbBridge.Proofs
