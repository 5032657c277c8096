import XbdmGdbBridge.Tracer.TraceFrame

/-!
# Whether the end of a trace is reached

A reply without data ends the first loop. The second one ends with a fetch that begins with such a
reply. An error ends neither.
-/

namespace XbdmGdbBridge.Proofs.DrainLoops

open NTRCTracer FrameCapture Tracer

/-- There is nothing to fetch. -/
def NoData (a : FrameCapture.Answer) : Prop :=
  a = .dataNotAvailable ∨ a = .ok []

def HasData (a : FrameCapture.Answer) : Prop :=
  ∃ data, a = .ok data ∧ data ≠ []

theorem answer_cases (a : FrameCapture.Answer) : NoData a ∨ HasData a ∨ a = .failed := by
  cases a with
  | dataNotAvailable => exact .inl (.inl rfl)
  | failed => exact .inr (.inr rfl)
  | ok data =>
    by_cases h : data = []
    · exact .inl (.inr (congrArg _ h))
    · exact .inr (.inl ⟨data, rfl, h⟩)

theorem NoData.not_hasData {a : FrameCapture.Answer} (h : NoData a) : ¬HasData a := by
  rintro ⟨data, rfl, hne⟩
  rcases h with h | h
  · cases h
  · exact hne (FrameCapture.Answer.ok.inj h)

section Fetches

variable {r : Remainder} {n n' fuel : Nat} {fetched : Bool} {result : FetchResult}

theorem fetchPGRAPH_noData (h : NoData (r.reply n)) : r.fetchPGRAPH n = .noDataAvailable := by
  rcases h with h | h
  · rw [Remainder.fetchPGRAPH, h]
  · rw [Remainder.fetchPGRAPH, h]
    rfl

theorem fetchPGRAPH_ne (h : ¬NoData (r.reply n)) : r.fetchPGRAPH n ≠ .noDataAvailable := by
  unfold Remainder.fetchPGRAPH
  rcases answer_cases (r.reply n) with hno | ⟨data, hdata, hne⟩ | hfailed
  · exact absurd hno h
  · rw [hdata]
    dsimp only
    rw [if_neg hne]
    nofun
  · rw [hfailed]
    nofun

/-- The loops look at the results of the fetches. -/
theorem fetchPGRAPHTraceData_result {c c' : FrameCapture}
    (h : fetchPGRAPHTraceData (r.reply n) c = .ok (result, c')) : result = r.fetchPGRAPH n := by
  unfold Remainder.fetchPGRAPH
  cases hreply : r.reply n with
  | dataNotAvailable =>
    rw [hreply] at h
    cases h
    rfl
  | failed =>
    rw [hreply] at h
    cases h
    rfl
  | ok data =>
    rw [hreply, fetchPGRAPHTraceData] at h
    dsimp only
    split at h
    case isTrue hnil =>
      rw [if_pos hnil]
      cases h
      rfl
    case isFalse hne =>
      rw [if_neg hne]
      obtain ⟨_, c₁, -, h⟩ := Lib.Program.bind_ok h
      cases h
      rfl

theorem fetchAux_noData (h : NoData (r.reply n)) : r.fetchAux fetched (fuel + 1) n =
    some (if fetched then .dataFetched else .noDataAvailable, n + 1) := by
  rcases h with h | h
  · rw [Remainder.fetchAux, h]
  · rw [Remainder.fetchAux, h]
    rfl

theorem fetchAux_failed (h : r.reply n = .failed) :
    r.fetchAux fetched (fuel + 1) n = some (.error, n + 1) := by
  rw [Remainder.fetchAux, h]

theorem fetchAux_data (h : HasData (r.reply n)) :
    r.fetchAux fetched (fuel + 1) n = r.fetchAux true fuel (n + 1) := by
  obtain ⟨data, hdata, hne⟩ := h
  rw [Remainder.fetchAux, hdata]
  exact if_neg hne

/-- A fetch ends behind the first reply that is not data. It is without data if it began so. -/
theorem fetchAux_spec (h : r.fetchAux fetched fuel n = some (result, n')) :
    n < n' ∧ (∀ m, n ≤ m → m + 1 < n' → HasData (r.reply m)) ∧ ¬HasData (r.reply (n' - 1)) ∧
      (result = .noDataAvailable ↔ fetched = false ∧ NoData (r.reply n)) := by
  induction fuel generalizing n fetched with
  | zero => cases h
  | succ fuel ih =>
    rcases answer_cases (r.reply n) with hno | hdata | hfailed
    · rw [fetchAux_noData hno] at h
      obtain ⟨rfl, rfl⟩ := Prod.mk.inj (Option.some.inj h)
      refine ⟨Nat.lt_succ_self n, fun m _ _ => by omega, hno.not_hasData, ?_⟩
      cases fetched <;> simp [hno]
    · rw [fetchAux_data hdata] at h
      obtain ⟨hlt, hbetween, hlast, hresult⟩ := ih h
      refine ⟨by omega, fun m hle hm => ?_, hlast, ?_⟩
      · rcases Nat.eq_or_lt_of_le hle with rfl | hlt'
        · exact hdata
        · exact hbetween m hlt' hm
      · rw [hresult]
        exact iff_of_false (fun h => by cases h.1) fun h => h.2.not_hasData hdata
    · rw [fetchAux_failed hfailed] at h
      obtain ⟨rfl, rfl⟩ := Prod.mk.inj (Option.some.inj h)
      have hnot : ¬HasData (r.reply n) ∧ ¬NoData (r.reply n) := by
        rw [hfailed]
        exact ⟨nofun, nofun⟩
      exact ⟨Nat.lt_succ_self n, fun m _ _ => by omega, hnot.1,
        iff_of_false nofun fun h => hnot.2 h.2⟩

theorem fetchAux_ends (hle : n ≤ n') (hlast : ¬HasData (r.reply n')) (hfuel : n' < n + fuel) :
    ∃ result m, r.fetchAux fetched fuel n = some (result, m) ∧ m ≤ n' + 1 := by
  induction fuel generalizing n fetched with
  | zero => omega
  | succ fuel ih =>
    rcases answer_cases (r.reply n) with hno | hdata | hfailed
    · exact ⟨_, _, fetchAux_noData hno, by omega⟩
    · rw [fetchAux_data hdata]
      have hne : n ≠ n' := by
        rintro rfl
        exact hlast hdata
      exact ih (by omega) (by omega)
    · exact ⟨_, _, fetchAux_failed hfailed, by omega⟩

/-- The replies a fetch has seen give the frame capture the same result. -/
theorem fetchAuxTraceData_result (h : r.fetchAux fetched fuel n = some (result, n'))
    (c : FrameCapture) :
    (fetchAuxTraceData fetched ((List.range' n (n' - n)).map r.reply) c).1.1 = result := by
  induction fuel generalizing n fetched c with
  | zero => cases h
  | succ fuel ih =>
    obtain ⟨hlt, -, -, -⟩ := fetchAux_spec h
    have hreplies : (List.range' n (n' - n)).map r.reply =
        r.reply n :: (List.range' (n + 1) (n' - (n + 1))).map r.reply := by
      rw [show n' - n = n' - (n + 1) + 1 by omega, List.range'_succ, List.map_cons]
    rw [hreplies]
    rcases answer_cases (r.reply n) with hno | hdata | hfailed
    · rw [fetchAux_noData hno] at h
      obtain ⟨rfl, rfl⟩ := Prod.mk.inj (Option.some.inj h)
      rcases hno with hno | hno <;> rw [hno] <;> rfl
    · rw [fetchAux_data hdata] at h
      obtain ⟨data, hdata, hne⟩ := hdata
      rw [hdata, fetchAuxTraceData, if_neg hne, Lib.run_bind, Lib.run_bind]
      exact ih h _
    · rw [fetchAux_failed hfailed] at h
      obtain ⟨rfl, rfl⟩ := Prod.mk.inj (Option.some.inj h)
      rw [hfailed]
      rfl

end Fetches

section Loops

variable {r : Remainder} {n m j fuel : Nat}

/-- Where a loop ends: the flag is set, or the next reply is without data. -/
def Stops (r : Remainder) (j : Nat) : Prop :=
  r.requestFailed j = true ∨ NoData (r.reply j)

theorem drainPGRAPH_ends (hle : n ≤ j) (hstop : Stops r j) (hfuel : j < n + fuel) :
    ∃ m, r.drainPGRAPH fuel n = some m ∧ m ≤ j + 1 := by
  induction fuel generalizing n with
  | zero => omega
  | succ fuel ih =>
    rw [Remainder.drainPGRAPH]
    by_cases hflag : r.requestFailed n = true
    · exact ⟨n, if_pos hflag, by omega⟩
    rw [if_neg hflag]
    by_cases hno : NoData (r.reply n)
    · rw [fetchPGRAPH_noData hno]
      exact ⟨n + 1, rfl, by omega⟩
    have hne : n ≠ j := by
      rintro rfl
      exact hstop.elim hflag hno
    have hresult := fetchPGRAPH_ne hno
    have hrest : ∃ m, r.drainPGRAPH fuel (n + 1) = some m ∧ m ≤ j + 1 := ih (by omega) (by omega)
    split
    · exact absurd ‹_› hresult
    · exact hrest
    · exact hrest

/-- It ends nowhere else. -/
theorem drainPGRAPH_spec (h : r.drainPGRAPH fuel n = some m) :
    n ≤ m ∧ (r.requestFailed m = true ∨ n < m ∧ NoData (r.reply (m - 1))) := by
  induction fuel generalizing n with
  | zero => cases h
  | succ fuel ih =>
    rw [Remainder.drainPGRAPH] at h
    by_cases hflag : r.requestFailed n = true
    · rw [if_pos hflag] at h
      cases h
      exact ⟨Nat.le_refl _, .inl hflag⟩
    rw [if_neg hflag] at h
    have hrest (h : r.drainPGRAPH fuel (n + 1) = some m) :
        n ≤ m ∧ (r.requestFailed m = true ∨ n < m ∧ NoData (r.reply (m - 1))) := by
      obtain ⟨hle, hend⟩ := ih h
      exact ⟨by omega, hend.imp_right fun hend => ⟨by omega, hend.2⟩⟩
    by_cases hno : NoData (r.reply n)
    · rw [fetchPGRAPH_noData hno] at h
      cases h
      exact ⟨by omega, .inr ⟨by omega, hno⟩⟩
    have hresult := fetchPGRAPH_ne hno
    split at h
    · exact absurd ‹_› hresult
    · exact hrest h
    · exact hrest h

theorem drainAux_ends (hle : n ≤ j) (hlast : n = j ∨ ¬HasData (r.reply (j - 1))) (hstop : Stops r j)
    (hfuel : j + 1 < n + fuel) : ∃ m, r.drainAux fuel n = some m := by
  induction fuel generalizing n with
  | zero => omega
  | succ fuel ih =>
    rw [Remainder.drainAux]
    by_cases hflag : r.requestFailed n = true
    · exact ⟨n, if_pos hflag⟩
    rw [if_neg hflag]
    by_cases hno : NoData (r.reply n)
    · obtain ⟨spent, rfl⟩ : ∃ spent, fuel = spent + 1 := ⟨fuel - 1, by omega⟩
      rw [fetchAux_noData hno]
      exact ⟨n + 1, rfl⟩
    have hne : n ≠ j := by
      rintro rfl
      exact hstop.elim hflag hno
    have hlast := hlast.resolve_left hne
    -- The fetch ends at the latest where the stop is, so the next one begins there or earlier.
    obtain ⟨result, m, hfetch, hm⟩ :=
      @fetchAux_ends r n (j - 1) fuel false (by omega) hlast (by omega)
    obtain ⟨hlt, -, -, -⟩ := fetchAux_spec hfetch
    have hrest : ∃ m', r.drainAux fuel m = some m' := ih (by omega) (.inr hlast) (by omega)
    rw [hfetch]
    cases result with
    | noDataAvailable => exact ⟨m, rfl⟩
    | error => exact hrest
    | dataFetched => exact hrest

/-- It ends nowhere else. -/
theorem drainAux_spec (hlast : ¬HasData (r.reply (n - 1))) (h : r.drainAux fuel n = some m) :
    r.requestFailed m = true ∨ ∃ j, n ≤ j ∧ NoData (r.reply j) ∧ ¬HasData (r.reply (j - 1)) := by
  induction fuel generalizing n with
  | zero => cases h
  | succ fuel ih =>
    rw [Remainder.drainAux] at h
    by_cases hflag : r.requestFailed n = true
    · rw [if_pos hflag] at h
      cases h
      exact .inl hflag
    rw [if_neg hflag] at h
    by_cases hno : NoData (r.reply n)
    · exact .inr ⟨n, Nat.le_refl n, hno, hlast⟩
    cases hfetch : r.fetchAux false fuel n with
    | none =>
      rw [hfetch] at h
      cases h
    | some fetch =>
      obtain ⟨result, m'⟩ := fetch
      obtain ⟨hlt, -, hlast', hresult⟩ := fetchAux_spec hfetch
      have hrest (h : r.drainAux fuel m' = some m) : r.requestFailed m = true ∨
          ∃ j, n ≤ j ∧ NoData (r.reply j) ∧ ¬HasData (r.reply (j - 1)) :=
        (ih hlast' h).imp_right fun h => h.imp fun j hj => ⟨by omega, hj.2⟩
      rw [hfetch] at h
      cases result with
      | noDataAvailable => exact absurd (hresult.1 rfl).2 hno
      | error => exact hrest h
      | dataFetched => exact hrest h

/-- Both loops end. -/
def Terminates (r : Remainder) : Prop :=
  ∃ fuel, (r.drain fuel).isSome

theorem terminates_of_stops {i : Nat} (hi : Stops r i) (hij : i < j) (hj : Stops r j)
    (hlast : ¬HasData (r.reply (j - 1))) : Terminates r := by
  obtain ⟨m, hpgraph, hm⟩ := drainPGRAPH_ends (Nat.zero_le i) hi (show i < 0 + (j + 2) by omega)
  obtain ⟨m', haux⟩ :=
    drainAux_ends (show m ≤ j by omega) (.inr hlast) hj (show j + 1 < m + (j + 2) by omega)
  refine ⟨j + 2, ?_⟩
  rw [Remainder.drain, hpgraph]
  exact Option.isSome_of_mem haux

theorem Terminates.stops (h : Terminates r) : r.failsAfter ≠ none ∨
    ∃ i j, i < j ∧ NoData (r.reply i) ∧ NoData (r.reply j) ∧ ¬HasData (r.reply (j - 1)) := by
  have hflag {n : Nat} (h : r.requestFailed n = true) : r.failsAfter ≠ none := by
    rintro hnone
    rw [Remainder.requestFailed, hnone] at h
    cases h
  obtain ⟨fuel, h⟩ := h
  obtain ⟨m', h⟩ := Option.isSome_iff_exists.1 h
  obtain ⟨m, hpgraph, haux⟩ := Option.bind_eq_some_iff.1 h
  obtain ⟨-, hfailed | ⟨hlt, hno⟩⟩ := drainPGRAPH_spec hpgraph
  · exact .inl (hflag hfailed)
  obtain hfailed | ⟨j, hle, hj, hlast⟩ := drainAux_spec hno.not_hasData haux
  · exact .inl (hflag hfailed)
  · exact .inr ⟨m - 1, j, by omega, hno, hj, hlast⟩

/-- Of replies that return data finitely often, the loops get to an end if the request is seen to
have failed, or if two replies are without data and the later one does not follow upon data.
Errors alone keep them going. -/
theorem terminates_iff (hdata : ∃ N, ∀ n, N ≤ n → ¬HasData (r.reply n)) :
    Terminates r ↔ r.failsAfter ≠ none ∨
      ∃ i j, i < j ∧ NoData (r.reply i) ∧ NoData (r.reply j) ∧ ¬HasData (r.reply (j - 1)) := by
  constructor
  · exact Terminates.stops
  rintro (hfails | ⟨i, j, hij, hi, hj, hlast⟩)
  · obtain ⟨k, hk⟩ := Option.ne_none_iff_exists'.1 hfails
    obtain ⟨N, hN⟩ := hdata
    have hflag {n : Nat} (h : k ≤ n) : Stops r n := by
      refine .inl ?_
      rw [Remainder.requestFailed, hk]
      exact decide_eq_true h
    refine terminates_of_stops (hflag (Nat.le_refl k)) (show k < max k N + 1 by omega)
      (hflag (by omega)) (hN _ ?_)
    rw [Nat.add_sub_cancel]
    exact Nat.le_max_right k N
  · exact terminates_of_stops (.inr hi) hij (.inr hj) hlast

/-- Replies without data end both loops at once. -/
theorem terminates_dataNotAvailable : Terminates ⟨fun _ => .dataNotAvailable, none⟩ :=
  (terminates_iff ⟨0, fun _ _ => NoData.not_hasData (.inl rfl)⟩).2
    (.inr ⟨0, 1, by decide, .inl rfl, .inl rfl, NoData.not_hasData (.inl rfl)⟩)

/-- A connection that is lost keeps the first loop going for ever. -/
theorem not_terminates_failed : ¬Terminates ⟨fun _ => .failed, none⟩ := by
  intro h
  rcases h.stops with h | ⟨i, -, -, hi, -⟩
  · exact h rfl
  · exact hi.elim nofun nofun

end Loops

end XbdmGdbBridge.Proofs.DrainLoops
