import XbdmGdbBridge.Lib.Runs
import XbdmGdbBridge.Rdcp.Completion

/-!
# Notifications nobody waits for

The notification of a request wakes the thread that is in the wait. A thread that comes to the wait
later has no way to find out that it is too late.
-/

namespace XbdmGdbBridge.Proofs

open Lib Rdcp

def TurnStep (t : Turn) (s s' : Rendezvous) : Prop :=
  t.take s = some s'

/-- The request is finished and notified, and the executor thread will not return unless its wait
ends without a notification. -/
def Lost (s : Rendezvous) : Prop :=
  s.selectThread = .left ∧ ∀ events s', Run TurnStep s events s' →
    (∀ e ∈ events, e.1 ≠ .wake) → s'.executor ≠ .returned

/-- The executor thread has not come out of the wait. -/
def Behind (p : ExecutorPlace) : Prop :=
  p = .send ∨ p = .lock ∨ p = .wait ∨ p = .blocked

/-- The request is only finished once it is sent, and the mutex is only held in front of the
wait. -/
structure Sound (s : Rendezvous) : Prop where
  sent : s.selectThread ≠ .outside → s.executor ≠ .send
  mutex : s.locked = true → s.executor = .wait

/-- A notification that comes when the executor thread is in the wait, or out of it already. -/
def Heard (t : Turn) (s : Rendezvous) : Prop :=
  t = .notify → s.executor ≠ .lock ∧ s.executor ≠ .wait

section Turns

variable {t : Turn} {s s' : Rendezvous}

/-- What each turn needs and does. -/
inductive Effect (s : Rendezvous) : Turn → Rendezvous → Prop where
  | send (h : s.executor = .send) : Effect s .send { s with executor := .lock }
  | lock (h : s.executor = .lock) (hfree : s.locked = false) :
      Effect s .lock { s with executor := .wait, locked := true }
  | wait (h : s.executor = .wait) : Effect s .wait { s with executor := .blocked, locked := false }
  | wake (h : s.executor = .blocked) : Effect s .wake { s with executor := .relock }
  | relock (h : s.executor = .relock) (hfree : s.locked = false) :
      Effect s .relock { s with executor := .returned }
  | enter (ending : Ending) (h : s.selectThread = .outside) (hsent : s.executor ≠ .send) :
      Effect s (.enter ending) { s with selectThread := .settle ending }
  | settle (ending : Ending) (h : s.selectThread = .settle ending) :
      Effect s .settle { s with
        selectThread := .notify, status := ending.status, message := ending.message s.message }
  | notify (h : s.selectThread = .notify) :
      Effect s .notify { s with
        selectThread := .left
        executor := if s.executor = .blocked then .relock else s.executor }

theorem TurnStep.effect (h : TurnStep t s s') : Effect s t s' := by
  unfold TurnStep at h
  cases t with
  | send =>
    obtain ⟨hplace, rfl⟩ : s.executor = .send ∧ _ = s' := by simpa [Turn.take] using h
    exact .send hplace
  | lock =>
    obtain ⟨⟨hplace, hfree⟩, rfl⟩ : (s.executor = .lock ∧ s.locked = false) ∧ _ = s' := by
      simpa [Turn.take] using h
    exact .lock hplace hfree
  | wait =>
    obtain ⟨hplace, rfl⟩ : s.executor = .wait ∧ _ = s' := by simpa [Turn.take] using h
    exact .wait hplace
  | wake =>
    obtain ⟨hplace, rfl⟩ : s.executor = .blocked ∧ _ = s' := by simpa [Turn.take] using h
    exact .wake hplace
  | relock =>
    obtain ⟨⟨hplace, hfree⟩, rfl⟩ : (s.executor = .relock ∧ s.locked = false) ∧ _ = s' := by
      simpa [Turn.take] using h
    exact .relock hplace hfree
  | enter ending =>
    obtain ⟨⟨hplace, hsent⟩, rfl⟩ : (s.selectThread = .outside ∧ s.executor ≠ .send) ∧ _ = s' := by
      simpa [Turn.take] using h
    exact .enter ending hplace hsent
  | settle =>
    cases hplace : s.selectThread with
    | settle ending =>
      obtain rfl : _ = s' := by simpa [Turn.take, hplace] using h
      exact .settle ending hplace
    | outside => simp [Turn.take, hplace] at h
    | notify => simp [Turn.take, hplace] at h
    | left => simp [Turn.take, hplace] at h
  | notify =>
    obtain ⟨hplace, rfl⟩ : s.selectThread = .notify ∧ _ = s' := by simpa [Turn.take] using h
    exact .notify hplace

theorem sound_step (t : Turn) (s s' : Rendezvous) (hs : Sound s) (h : TurnStep t s s') :
    Sound s' := by
  obtain ⟨hsent, hmutex⟩ := hs
  cases h.effect with
  | send hplace => exact ⟨by simp, fun hlocked => by simp [hplace] at hmutex; simp [hmutex] at hlocked⟩
  | lock hplace hfree => exact ⟨by simp, fun _ => rfl⟩
  | wait hplace => exact ⟨by simp, by simp⟩
  | wake hplace => exact ⟨by simp, fun hlocked => by simp [hplace] at hmutex; simp [hmutex] at hlocked⟩
  | relock hplace hfree => exact ⟨by simp, fun hlocked => by simp [hfree] at hlocked⟩
  | enter ending hplace hnotSend => exact ⟨fun _ => hnotSend, hmutex⟩
  | settle ending hplace => exact ⟨fun _ => hsent (by simp [hplace]), hmutex⟩
  | notify hplace =>
    have hnotSend := hsent (by simp [hplace])
    refine ⟨fun _ => ?_, fun hlocked => ?_⟩
    · dsimp only
      split
      · simp
      · exact hnotSend
    · dsimp only
      rw [hmutex hlocked, if_neg (by simp)]

/-- Behind the notification, only a wakeup of its own brings the executor thread further. -/
theorem behind_step (t : Turn) (s s' : Rendezvous)
    (hs : s.selectThread = .left ∧ Behind s.executor) (ht : t ≠ .wake) (h : TurnStep t s s') :
    s'.selectThread = .left ∧ Behind s'.executor := by
  obtain ⟨hleft, hbehind⟩ := hs
  cases h.effect with
  | send hplace => exact ⟨hleft, .inr (.inl rfl)⟩
  | lock hplace hfree => exact ⟨hleft, .inr (.inr (.inl rfl))⟩
  | wait hplace => exact ⟨hleft, .inr (.inr (.inr rfl))⟩
  | wake hplace => exact absurd rfl ht
  | relock hplace hfree => simp [Behind, hplace] at hbehind
  | enter ending hplace hnotSend => simp [hleft] at hplace
  | settle ending hplace => simp [hleft] at hplace
  | notify hplace => simp [hleft] at hplace

theorem lost_iff (hs : Sound s) : Lost s ↔ s.selectThread = .left ∧ Behind s.executor := by
  constructor
  · rintro ⟨hleft, hnever⟩
    refine ⟨hleft, ?_⟩
    cases hplace : s.executor with
    | send => exact .inl rfl
    | lock => exact .inr (.inl rfl)
    | wait => exact .inr (.inr (.inl rfl))
    | blocked => exact .inr (.inr (.inr rfl))
    | relock =>
      have hfree : s.locked = false := by
        cases hlocked : s.locked with
        | false => rfl
        | true => simp [hs.mutex hlocked] at hplace
      have hstep : TurnStep .relock s { s with executor := .returned } := by
        simp [TurnStep, Turn.take, hplace, hfree]
      exact absurd rfl (hnever _ _ (.cons hstep (.nil _)) (by simp))
    | returned => exact absurd hplace (hnever [] s (.nil s) (by simp))
  · intro hbehind
    refine ⟨hbehind.1, ?_⟩
    intro events s' hrun hnoWake hreturned
    have hkept := (hrun.always_of behind_step hbehind hnoWake).2
    simp [Behind, hreturned] at hkept

/-- A notification loses the executor thread exactly when it comes before the wait. -/
theorem lost_step (t : Turn) (s s' : Rendezvous) (hs : Sound s) (hlost : ¬Lost s)
    (h : TurnStep t s s') : ¬Lost s' ↔ Heard t s := by
  have hs' : Sound s' := sound_step t s s' hs h
  rw [lost_iff hs] at hlost
  rw [lost_iff hs']
  cases h.effect with
  | send hplace => simp_all [Heard, Behind]
  | lock hplace hfree => simp_all [Heard, Behind]
  | wait hplace => simp_all [Heard, Behind]
  | wake hplace => simp_all [Heard, Behind]
  | relock hplace hfree => simp_all [Heard, Behind]
  | enter ending hplace hnotSend => simp [Heard]
  | settle ending hplace => simp [Heard]
  | notify hplace =>
    have hsent := hs.sent (by simp [hplace])
    cases hexecutor : s.executor <;> simp_all [Heard, Behind]

end Turns

/-- In a run of the two threads, the executor thread is never lost exactly when it is in the wait,
or behind it, at the notification. -/
theorem run_never_lost_iff {events : List (Turn × Rendezvous)} {s : Rendezvous}
    (h : Run TurnStep {} events s) :
    Run.Always (fun s => ¬Lost s) events s ↔ ∀ e ∈ events, Heard e.1 e.2 := by
  have hstart : Sound {} := ⟨by simp, by simp⟩
  refine h.always_iff_of_invariant sound_step lost_step hstart ?_
  simp [lost_iff hstart]

/-- The console's answer comes when the executor thread is in the wait. -/
theorem run_never_lost_answered : ∃ events s, Run TurnStep {} events s ∧
    Run.Always (fun s => ¬Lost s) events s ∧ s.executor = .returned ∧ s.status = 200 := by
  let answer : Ending := .complete { status := 200, message := [], data := [] }
  have hrun : Run TurnStep {} _ _ :=
    .cons (e := Turn.send) rfl (.cons (e := Turn.lock) rfl (.cons (e := Turn.wait) rfl
      (.cons (e := Turn.enter answer) rfl (.cons (e := Turn.settle) rfl (.cons (e := Turn.notify) rfl
        (.cons (e := Turn.relock) rfl (.nil _)))))))
  exact ⟨_, _, hrun, (run_never_lost_iff hrun).mpr (by simp [Heard]), rfl, rfl⟩

/-- It comes between the `Send` and the wait: the executor thread then waits for nothing. -/
theorem run_answered_before_wait : ∃ events s, Run TurnStep {} events s ∧ Lost s ∧
    s.executor = .blocked ∧ s.status = 200 := by
  let answer : Ending := .complete { status := 200, message := [], data := [] }
  have hrun : Run TurnStep {} _ _ :=
    .cons (e := Turn.send) rfl (.cons (e := Turn.enter answer) rfl (.cons (e := Turn.settle) rfl
      (.cons (e := Turn.notify) rfl (.cons (e := Turn.lock) rfl (.cons (e := Turn.wait) rfl (.nil _))))))
  refine ⟨_, _, hrun, ?_, rfl, rfl⟩
  rw [lost_iff ⟨by simp, by simp⟩]
  exact ⟨rfl, .inr (.inr (.inr rfl))⟩

end XbdmGdbBridge.Proofs
