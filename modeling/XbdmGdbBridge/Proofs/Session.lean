import XbdmGdbBridge.Proofs.HandlerFaults
import XbdmGdbBridge.Xbox.Session

/-!
# Stop replies over whole sessions

Each `vCont` is to be followed by at most one stop reply, and one that has been answered by nothing
is to leave the bridge waiting for a stop. Both hold in every state of a session whose steps keep to
`Guarded`.
-/

namespace XbdmGdbBridge.Proofs

open Lib Program CText Gdb GDBBridge

variable {σ α β : Type}

section Agreement

theorem ask_seq (x : XBDMDebugger.Op σ α) (f : α → XBDMDebugger.Op σ β) :
    ask (x >>= f) = ask x >>= fun a => ask (f a) := rfl

theorem onNotification_eq (n : Notification) :
    (GDBBridge.onNotification n : Handler σ Unit) = if reports n then reportStop else pure () := by
  cases n with
  | executionStateChanged state =>
    unfold GDBBridge.onNotification reports
    by_cases h : state = .stopped <;> simp [h]
  | _ => rfl

theorem reportStop_eq (b : GDBBridge σ) :
    reportStop b =
      if b.waitingOnStopPacket = true then
        match sendThreadStopPacket b.debugger.activeThread b with
        | .ok (_, b') => .ok ((), b')
        | .error e => .error e
      else .ok ((), b) := by
  change (if b.waitingOnStopPacket = true then
    known (·.activeThread) >>= fun thread => sendThreadStopPacket thread >>= fun _ => pure ()
    else pure () : Handler σ Unit) b = _
  split
  · rw [known_bind, bind_apply]
    cases sendThreadStopPacket b.debugger.activeThread b with
    | error e => rfl
    | ok r => rfl
  · rfl

/-- Left alone, the notification thread does what the bridge's handler of a stop does. -/
theorem notifier_alone {b b' : GDBBridge σ} (h : reportStop b = .ok ((), b')) :
    Lib.Alone Notifier.Step (.check .done) b .idle b' := by
  rw [reportStop_eq] at h
  cases hw : b.waitingOnStopPacket with
  | false =>
    rw [hw, if_neg (by decide)] at h
    cases h
    exact .head (.skip hw) (.head .finish (.refl _ _))
  | true =>
    rw [hw, if_pos rfl] at h
    cases hsend : sendThreadStopPacket b.debugger.activeThread b with
    | error e =>
      rw [hsend] at h
      cases h
    | ok r =>
      obtain ⟨sent, b₁⟩ := r
      rw [hsend] at h
      cases h
      exact .head (.pass hw) (.head .lookup (.head (.send hsend) (.head .finish (.refl _ _))))

variable [Xbdm σ]

theorem unprocessedCalls_run (processed : List UInt32) (threadId : Int32) (ids : List UInt32) :
    (unprocessedCalls processed threadId ids : Calls σ).run =
      ask (continueUnprocessed processed threadId ids) := by
  induction ids with
  | nil => rfl
  | cons id rest ih =>
    unfold unprocessedCalls continueUnprocessed
    split
    · exact ih
    · rw [Task.run, ask_seq]
      simp only [ih]

theorem continueCalls_run (processed : List UInt32) (threadId : Int32) :
    (continueCalls processed threadId : Calls σ).run = vContContinue processed threadId := by
  unfold continueCalls vContContinue
  split
  · rfl
  · split
    · rfl
    · rw [Task.run]
      simp only [unprocessedCalls_run]

theorem stepCalls_run (threadId : Int32) :
    (stepCalls threadId : Calls σ).run = vContStep threadId := by
  unfold stepCalls vContStep
  split
  · simp only [Task.run]
    congr 1
    funext _
    congr 1
    funext stepped
    cases stepped with
    | true => rfl
    | false => rfl
  · rfl

theorem actionCalls_run (processed : List UInt32) (threadId : Int32) (command : Bytes) :
    (actionCalls processed threadId command : Calls σ).run =
      vContAction processed threadId command := by
  cases command with
  | nil => rfl
  | cons code rest =>
    unfold actionCalls vContAction
    dsimp only
    split
    · exact continueCalls_run processed threadId
    · split
      · exact stepCalls_run threadId
      · rfl

theorem elementsCalls_run (processed : List UInt32) (commands : List Bytes) :
    (elementsCalls processed commands : Calls σ).run = vContElements processed commands := by
  induction commands generalizing processed with
  | nil => rfl
  | cons command rest ih =>
    unfold elementsCalls vContElements vContElement
    cases elementThreadId command with
    | none =>
      rw [Task.run_andThen, ih]
      rfl
    | some threadId =>
      rw [Task.run_andThen, ih, actionCalls_run]
      simp only [bind_assoc, pure_bind]

theorem vContCalls_run (args : Bytes) :
    (vContCalls args : Calls σ).run =
      (refuseEmpty args >>= fun _ => vContElements [] (split (byte ';') args)) := by
  unfold vContCalls refuseEmpty
  rw [Task.run_andThen, elementsCalls_run]
  split
  · rfl
  · rfl

theorem elements_alone {t t' : Calls σ} {b b' : GDBBridge σ} (h : Lib.Alone Task.Step t b t' b') :
    Lib.Alone Client.Step (.elements t) b (.elements t') b' := by
  induction h with
  | refl => exact .refl _ _
  | head first rest ih => exact .head (.elements first) ih

/-- Left alone, the packet thread does what `HandleVCont` does. -/
theorem client_alone {args : Bytes} {b b' : GDBBridge σ}
    (h : handleVCont args b = .ok ((), b')) :
    Lib.Alone Client.Step (.elements (vContCalls args)) b .idle b' := by
  unfold handleVCont at h
  obtain ⟨u, b₁, hrefuse, h⟩ := bind_ok h
  obtain ⟨v, b₂, helements, h⟩ := bind_ok h
  obtain ⟨w, b₃, hmark, h⟩ := bind_ok h
  have hcalls : (vContCalls args).run b = .ok ((), b₂) := by
    rw [vContCalls_run, bind_apply, hrefuse]
    exact helements
  refine (elements_alone (Task.alone_of_run hcalls)).trans (.head .turn ?_)
  have hgo : b' = { b₃ with debugger := (XBDMDebugger.go b₃.debugger).2 } := by
    cases h
    rfl
  subst hgo
  unfold markWaitingForStopPacket at hmark
  rw [ask_bind] at hmark
  cases hfound : (XBDMDebugger.getFirstStoppedThread b₂.debugger).1 with
  | none =>
    rw [hfound] at hmark
    cases hmark
    exact .head (.missed hfound) (.head .settle (.head .go (.refl _ _)))
  | some i =>
    rw [hfound] at hmark
    obtain ⟨sent, b₄, hsend, hclear⟩ := bind_ok hmark
    cases hclear
    exact .head (.found hfound) (.head (.report hsend) (.head .settle (.head .go (.refl _ _))))

end Agreement

section Invariant

def isStopReply (packet : GDBPacket) : Bool :=
  packet.data.head? == some (byte 'T')

/-- The replies between two states are no stop replies, and the flag has stayed. -/
def Mutters (b b' : GDBBridge σ) : Prop :=
  b'.waitingOnStopPacket = b.waitingOnStopPacket ∧
    ∃ replies, b'.replies = b.replies ++ replies ∧ ∀ p ∈ replies, isStopReply p = false

/-- The notification thread has read the flag as set and has not sent its stop packet yet. -/
def Reporting : Notifier σ → Prop
  | .lookup _ => True
  | .send _ _ => True
  | _ => False

/-- The steps that keep stop replies in order: a `vCont` is taken up while no stop is awaited or
being reported, and the thread found stopped still is, for a known reason, when it is reported,
unless the `vCont` already has an answer. -/
def Guarded (s : Session σ) : Session.Event → Prop
  | .resume _ => s.bridge.waitingOnStopPacket = false ∧ ¬Reporting s.notifier
  | .client => ∀ i, s.client = .report i →
      (reportable (s.bridge.debugger.threadAt i)).isSome ∨ s.answers ≠ []
  | _ => True

def Waits (s : Session σ) : Prop :=
  s.since.isSome → s.client = .idle → s.answers = [] → s.bridge.waitingOnStopPacket = true

/-- No stop is awaited or being reported. -/
structure Calm (s : Session σ) : Prop where
  flag : s.bridge.waitingOnStopPacket = false
  quiet : ¬Reporting s.notifier

/-- The packet thread has not decided yet how the `vCont` is answered. -/
def Busy : Client σ → Prop
  | .elements calls => calls.All Mutters
  | .mark => True
  | .report _ => True
  | .settle waiting => waiting = true
  | _ => False

def Leaving (c : Client σ) : Prop :=
  c = .go ∨ c = .idle

inductive Stage (s : Session σ) : Prop where
  | fresh (since : s.since = none) (client : s.client = .idle) (calm : Calm s)
  | busy (since : s.since.isSome) (client : Busy s.client) (calm : Calm s)
      (none : s.answers.countP isStopReply = 0)
  | answered (since : s.since.isSome) (client : s.client = .settle false ∨ Leaving s.client)
      (calm : Calm s) (one : s.answers.countP isStopReply ≤ 1) (some : s.answers ≠ [])
  | waiting (since : s.since.isSome) (client : Leaving s.client)
      (flag : s.bridge.waitingOnStopPacket = true) (none : s.answers.countP isStopReply = 0)

/-- What the notification thread has left to do for the debugger stays with the debugger. -/
def NotifierOnly : Notifier σ → Prop
  | .idle => True
  | .debugger calls _ => calls.All DebuggerOnly
  | .check rest => rest.All DebuggerOnly
  | .lookup rest => rest.All DebuggerOnly
  | .send _ rest => rest.All DebuggerOnly

structure Well (s : Session σ) : Prop where
  bound : ∀ n, s.since = some n → n ≤ s.bridge.replies.length
  notifier : NotifierOnly s.notifier
  stage : Stage s

theorem Well.waits {s : Session σ} (h : Well s) : Waits s := by
  intro hsince hidle hnone
  cases h.stage with
  | fresh since client calm => simp [since] at hsince
  | busy since client calm none =>
    rw [hidle] at client
    exact client.elim
  | answered since client calm one some => exact absurd hnone some
  | waiting since client flag none => exact flag

section Answers

variable {s : Session σ} {b : GDBBridge σ} {replies : List GDBPacket}

theorem answers_same (h : b.replies = s.bridge.replies) (c : Client σ) (n : Notifier σ) :
    Session.answers { s with bridge := b, client := c, notifier := n } = s.answers := by
  unfold Session.answers
  rw [h]

theorem answers_append (hw : Well s) (hsome : s.since.isSome)
    (h : b.replies = s.bridge.replies ++ replies) (c : Client σ) (n : Notifier σ) :
    Session.answers { s with bridge := b, client := c, notifier := n } = s.answers ++ replies := by
  obtain ⟨m, hm⟩ := Option.isSome_iff_exists.mp hsome
  unfold Session.answers
  rw [hm]
  dsimp only
  rw [h, List.drop_append_of_le_length (hw.bound m hm)]

theorem bound_of_append (hw : Well s) (h : b.replies = s.bridge.replies ++ replies) :
    ∀ m, s.since = some m → m ≤ b.replies.length := by
  intro m hm
  have hle := hw.bound m hm
  rw [h, List.length_append]
  omega

end Answers

theorem stopPacket_isStopReply (threadId : UInt32) (reason : StopReason) :
    isStopReply (.ofData (stopPacket threadId reason)) = true := rfl

/-- A stop packet is sent, or there is nothing to report and nothing changes. -/
theorem sendThreadStopPacket_cases {thread : Option ThreadRef} {sent : Bool} {b b' : GDBBridge σ}
    (h : sendThreadStopPacket thread b = .ok (sent, b')) :
    (b' = b ∧ ∀ i, thread = some i → reportable (b.debugger.threadAt i) = none) ∨
      ∃ i reason, thread = some i ∧ b' = reported b (b.debugger.threadAt i).threadId reason := by
  cases thread with
  | none =>
    cases h
    exact .inl ⟨rfl, fun i hi => by cases hi⟩
  | some i =>
    rw [sendThreadStopPacket_some] at h
    cases hr : reportable (b.debugger.threadAt i) with
    | none =>
      rw [hr] at h
      cases h
      refine .inl ⟨rfl, ?_⟩
      intro j hj
      cases hj
      exact hr
    | some reason =>
      rw [hr] at h
      cases h
      exact .inr ⟨i, reason, rfl, rfl⟩

/-- What a turn of the notification thread can do: nothing to the flag and the replies, or the one
stop reply of a handler that had found the flag set. -/
theorem notifier_cases {n n' : Notifier σ} {b b' : GDBBridge σ} (ho : NotifierOnly n)
    (h : n.Step b n' b') :
    NotifierOnly n' ∧
      ((b'.waitingOnStopPacket = b.waitingOnStopPacket ∧ b'.replies = b.replies ∧
          (Reporting n' → Reporting n ∨ b.waitingOnStopPacket = true)) ∨
        (Reporting n ∧ ¬Reporting n' ∧ b'.waitingOnStopPacket = false ∧
          ∃ p, isStopReply p = true ∧ b'.replies = b.replies ++ [p])) := by
  cases h with
  | debugger hcall =>
    obtain ⟨⟨d, rfl⟩, hrest⟩ := Task.All.step ho hcall
    exact ⟨hrest, .inl ⟨rfl, rfl, fun hr => hr.elim⟩⟩
  | turn => exact ⟨.done, .inl ⟨rfl, rfl, fun hr => hr.elim⟩⟩
  | finish => exact ⟨trivial, .inl ⟨rfl, rfl, fun hr => hr.elim⟩⟩
  | skip hflag => exact ⟨ho, .inl ⟨rfl, rfl, fun hr => hr.elim⟩⟩
  | pass hflag => exact ⟨ho, .inl ⟨rfl, rfl, fun _ => .inr hflag⟩⟩
  | lookup => exact ⟨ho, .inl ⟨rfl, rfl, fun _ => .inl trivial⟩⟩
  | send hsend =>
    refine ⟨ho, ?_⟩
    rcases sendThreadStopPacket_cases hsend with ⟨rfl, -⟩ | ⟨i, reason, -, rfl⟩
    · exact .inl ⟨rfl, rfl, fun hr => hr.elim⟩
    · exact .inr ⟨trivial, fun hr => hr, rfl, _, stopPacket_isStopReply _ reason, rfl⟩

theorem Well.notifier_step {s : Session σ} (hw : Well s) {n : Notifier σ} {b : GDBBridge σ}
    (h : s.notifier.Step s.bridge n b) : Well { s with notifier := n, bridge := b } := by
  obtain ⟨honly, ⟨hflag, hreplies, hrep⟩ | ⟨hrep, hquiet, hflag, p, hp, hreplies⟩⟩ :=
    notifier_cases hw.notifier h
  · have hsame := answers_same hreplies s.client n
    have hcalm : Calm s → Calm { s with notifier := n, bridge := b } := by
      intro hc
      refine ⟨hflag.trans hc.flag, ?_⟩
      intro hr
      rcases hrep hr with hr | hset
      · exact hc.quiet hr
      · rw [hc.flag] at hset
        cases hset
    refine ⟨fun m hm => hreplies ▸ hw.bound m hm, honly, ?_⟩
    cases hw.stage with
    | fresh since client calm => exact .fresh since client (hcalm calm)
    | busy since client calm none => exact .busy since client (hcalm calm) (hsame ▸ none)
    | answered since client calm one some =>
      exact .answered since client (hcalm calm) (hsame ▸ one) (hsame ▸ some)
    | waiting since client flag none =>
      exact .waiting since client (hflag.trans flag) (hsame ▸ none)
  · have hbound := bound_of_append hw hreplies
    refine ⟨hbound, honly, ?_⟩
    cases hw.stage with
    | fresh since client calm => exact absurd hrep calm.quiet
    | busy since client calm none => exact absurd hrep calm.quiet
    | answered since client calm one some => exact absurd hrep calm.quiet
    | waiting since client flag none =>
      have hmore := answers_append hw since hreplies s.client n
      refine .answered since (.inr client) ⟨hflag, hquiet⟩ ?_ ?_
      · rw [hmore, List.countP_append, none]
        simp [hp]
      · simp [hmore]

theorem Well.notify {s : Session σ} (hw : Well s) {n : Notifier σ} (honly : NotifierOnly n)
    (hquiet : ¬Reporting n) : Well { s with notifier := n } := by
  refine ⟨hw.bound, honly, ?_⟩
  cases hw.stage with
  | fresh since client calm => exact .fresh since client ⟨calm.flag, hquiet⟩
  | busy since client calm none => exact .busy since client ⟨calm.flag, hquiet⟩ none
  | answered since client calm one some =>
    exact .answered since client ⟨calm.flag, hquiet⟩ one some
  | waiting since client flag none => exact .waiting since client flag none

section Calls

theorem mutters_ask (x : XBDMDebugger.Op σ α) : Within Mutters (ask x) := by
  intro b a b' h
  cases h
  exact ⟨rfl, [], (List.append_nil _).symm, by simp⟩

theorem mutters_known (f : XBDMDebugger σ → α) : Within Mutters (known f) := by
  intro b a b' h
  cases h
  exact ⟨rfl, [], (List.append_nil _).symm, by simp⟩

theorem mutters_send {data : Bytes} (h : isStopReply (.ofData data) = false) :
    Within Mutters (send data : Handler σ _) := by
  intro b a b' hrun
  cases hrun
  refine ⟨rfl, [.ofData data], rfl, ?_⟩
  intro p hp
  rw [List.mem_singleton.mp hp]
  exact h

theorem mutters_sendError (error : UInt8) : Within Mutters (sendError error : Handler σ _) :=
  mutters_send rfl

variable [Xbdm σ]

theorem mutters_unprocessed (processed : List UInt32) (threadId : Int32) (ids : List UInt32) :
    (unprocessedCalls processed threadId ids : Calls σ).All Mutters := by
  induction ids with
  | nil => exact .done
  | cons id rest ih =>
    unfold unprocessedCalls
    split
    · exact ih
    · exact .call (mutters_ask _) fun _ => ih

theorem mutters_action (processed : List UInt32) (threadId : Int32) (command : Bytes) :
    (actionCalls processed threadId command : Calls σ).All Mutters := by
  cases command with
  | nil => exact .once (Within.fault _)
  | cons code rest =>
    unfold actionCalls
    dsimp only
    split
    · unfold continueCalls
      split
      · exact .once (mutters_ask _)
      · split
        · exact .once (mutters_ask _)
        · exact .call (mutters_known _) fun ids => mutters_unprocessed _ _ ids
    · split
      · unfold stepCalls
        split
        · refine .call (mutters_ask _) fun _ => .call (mutters_ask _) fun stepped => ?_
          split
          · exact .once (mutters_sendError _)
          · exact .done
        · exact .once (mutters_sendError _)
      · exact .once (mutters_send rfl)

theorem mutters_elements (processed : List UInt32) (commands : List Bytes) :
    (elementsCalls processed commands : Calls σ).All Mutters := by
  induction commands generalizing processed with
  | nil => exact .done
  | cons command rest ih =>
    unfold elementsCalls
    split
    · exact (Task.All.once (mutters_sendError _)).andThen (ih _)
    · exact (mutters_action _ _ _).andThen (ih _)

theorem mutters_vCont (args : Bytes) : (vContCalls args : Calls σ).All Mutters := by
  unfold vContCalls
  refine Task.All.andThen ?_ (mutters_elements _ _)
  split
  · exact .once (mutters_sendError _)
  · exact .done

end Calls

section Runs

variable [Xbdm σ] {s s' : Session σ}

theorem Well.client_busy (hw : Well s) (hguard : Guarded s .client) (since : s.since.isSome)
    (client : Busy s.client) (calm : Calm s) (none : s.answers.countP isStopReply = 0)
    {c : Client σ} {b : GDBBridge σ} (h : s.client.Step s.bridge c b) :
    Well { s with client := c, bridge := b } := by
  generalize hc : s.client = before at h client
  cases h with
  | elements hcall =>
    obtain ⟨⟨hflag, replies, hreplies, hmute⟩, hrest⟩ := Task.All.step client hcall
    have hbound := bound_of_append hw hreplies
    refine ⟨hbound, hw.notifier,
      .busy since hrest ⟨hflag.trans calm.flag, calm.quiet⟩ ?_⟩
    rw [answers_append hw since hreplies, List.countP_append, none, List.countP_eq_zero.mpr]
    intro p hp
    simp [hmute p hp]
  | turn => exact ⟨hw.bound, hw.notifier, .busy since trivial ⟨calm.flag, calm.quiet⟩ none⟩
  | found hfound => exact ⟨hw.bound, hw.notifier, .busy since trivial ⟨calm.flag, calm.quiet⟩ none⟩
  | missed hmissed => exact ⟨hw.bound, hw.notifier, .busy since rfl ⟨calm.flag, calm.quiet⟩ none⟩
  | @report _ _ i _ hsend =>
    rcases sendThreadStopPacket_cases hsend with ⟨rfl, hnothing⟩ | ⟨j, reason, -, rfl⟩
    · refine ⟨hw.bound, hw.notifier,
        .answered since (.inl rfl) ⟨calm.flag, calm.quiet⟩ (none.trans_le (Nat.zero_le 1)) ?_⟩
      rcases hguard i hc with hsome | hsome
      · rw [hnothing i rfl] at hsome
        cases hsome
      · exact hsome
    · have hreplies : (reported s.bridge (s.bridge.debugger.threadAt j).threadId reason).replies =
          s.bridge.replies ++ [.ofData (stopPacket (s.bridge.debugger.threadAt j).threadId reason)] :=
        rfl
      have hbound := bound_of_append hw hreplies
      refine ⟨hbound, hw.notifier,
        .answered since (.inl rfl) ⟨rfl, calm.quiet⟩ ?_ ?_⟩
      · rw [answers_append hw since hreplies, List.countP_append, none]
        simp [stopPacket_isStopReply]
      · simp [answers_append hw since hreplies]
  | settle =>
    obtain rfl : _ = true := client
    exact ⟨hw.bound, hw.notifier, .waiting since (.inl rfl) rfl none⟩
  | go => exact client.elim

theorem Well.client_step (hw : Well s) (hguard : Guarded s .client) {c : Client σ}
    {b : GDBBridge σ} (h : s.client.Step s.bridge c b) :
    Well { s with client := c, bridge := b } := by
  cases hw.stage with
  | fresh since client calm =>
    rw [client] at h
    cases h
  | busy since client calm none => exact hw.client_busy hguard since client calm none h
  | answered since client calm one some =>
    rcases client with client | client | client
    · rw [client] at h
      cases h
      exact ⟨hw.bound, hw.notifier, .answered since (.inr (.inl rfl)) ⟨rfl, calm.quiet⟩ one some⟩
    · rw [client] at h
      cases h
      exact ⟨hw.bound, hw.notifier, .answered since (.inr (.inr rfl)) ⟨calm.flag, calm.quiet⟩ one some⟩
    · rw [client] at h
      cases h
  | waiting since client flag none =>
    rcases client with client | client
    · rw [client] at h
      cases h
      exact ⟨hw.bound, hw.notifier, .waiting since (.inr rfl) flag none⟩
    · rw [client] at h
      cases h

theorem Well.resume (hw : Well s) (args : Bytes)
    (hguard : s.bridge.waitingOnStopPacket = false ∧ ¬Reporting s.notifier) :
    Well { s with
      client := .elements (vContCalls args), since := some s.bridge.replies.length } := by
  refine ⟨?_, hw.notifier, .busy rfl (mutters_vCont args) ⟨hguard.1, hguard.2⟩ ?_⟩
  · intro n hn
    cases hn
    exact Nat.le_refl _
  · simp [Session.answers]

theorem Well.step (hw : Well s) {e : Session.Event} (hguard : Guarded s e) (h : Session.Step s e s') :
    Well s' := by
  cases h with
  | resume args free => exact hw.resume args hguard
  | client h => exact hw.client_step hguard h
  | debuggerFirst handles free => exact hw.notify handles.only fun hr => hr
  | bridgeFirst handles free =>
    split
    · exact hw.notify handles.only fun hr => hr
    · exact hw.notify handles.only fun hr => hr
  | notifier h => exact hw.notifier_step h

end Runs

end Invariant

section OneThread

end OneThread

end XbdmGdbBridge.Proofs
