import XbdmGdbBridge.Dyndxt.Inject
import XbdmGdbBridge.Proofs.MemoryWrites

/-!
# The patched function

Whether the function that `InjectLoader` patches has its own bytes when it returns, over a target with a
memory: requests write or read it exactly when they are granted.
-/

namespace XbdmGdbBridge.Proofs.Injections

open Lib Program Loader XBDMDebugger

variable {σ : Type} [Xbdm σ]

/-- The requests that change the memory: a resumed thread runs the bootstrap. -/
def altersMemory : Request → Bool
  | .setMem _ _ | .resume _ => true
  | _ => false

/-- The target has a memory that granted requests write and read, and refused ones do not write. -/
structure Recalls (bytes : σ → Space) : Prop where
  granted : ∀ s address data,
    Request.isOK (.setMem address data) (Xbdm.answer (.setMem address data) s).1.status = true →
      bytes (Xbdm.answer (.setMem address data) s).2 = (bytes s).store address data
  refused : ∀ s address data,
    Request.isOK (.setMem address data) (Xbdm.answer (.setMem address data) s).1.status = false →
      bytes (Xbdm.answer (.setMem address data) s).2 = bytes s
  read : ∀ s address n,
    Request.isOK (.getMemBinary address n) (Xbdm.answer (.getMemBinary address n) s).1.status = true →
      (Xbdm.answer (.getMemBinary address n) s).1.data = (bytes s).load address n.toNat
  others : ∀ s r, altersMemory r = false → bytes (Xbdm.answer r s).2 = bytes s

/-- The memory behind a debugger. -/
def memory (bytes : σ → Space) (d : XBDMDebugger σ) : Space :=
  bytes d.context.target

section Requests

variable {bytes : σ → Space} (h : Recalls bytes)
include h

theorem keeps_request (r : Request) (hr : altersMemory r = false) :
    Keeps (memory bytes) (request r : Op σ _) :=
  fun d => h.others d.context.target r hr

theorem keeps_suspendBreakpoints (bps : List UInt32) :
    Keeps (memory bytes) (suspendBreakpoints bps : Op σ _) := by
  induction bps with
  | nil => exact Keeps.pure _
  | cons bp rest ih => exact (keeps_request h _ rfl).bind fun _ => ih

theorem keeps_restoreBreakpoints (bps : List UInt32) :
    Keeps (memory bytes) (restoreBreakpoints bps : Op σ _) := by
  induction bps with
  | nil => exact Keeps.pure _
  | cons bp rest ih => exact (keeps_request h _ rfl).bind fun _ => ih

theorem request_read {address length : UInt32} {d : XBDMDebugger σ} {reply : Reply}
    (hreply : (request (.getMemBinary address length) d).1 = some reply) :
    reply.data = (memory bytes d).load address length.toNat := by
  obtain ⟨hok, hsome⟩ := Option.ite_none_right_eq_some.mp hreply
  cases hsome
  exact h.read _ _ _ hok

theorem readMemory_spec (address length : UInt32) (d : XBDMDebugger σ) :
    memory bytes (readMemory address length d).2 = memory bytes d ∧
      ∀ data, (readMemory address length d).1 = some data →
        data = (memory bytes d).load address length.toNat := by
  let overlaps := d.getActiveBreakpointsInRange address length
  let suspended := (suspendBreakpoints overlaps d).2
  have hsuspended : memory bytes suspended = memory bytes d := keeps_suspendBreakpoints h overlaps d
  have hrun : readMemory address length d =
      ((request (.getMemBinary address length) suspended).1.map Reply.data,
        (restoreBreakpoints overlaps (request (.getMemBinary address length) suspended).2).2) := rfl
  rw [hrun]
  refine ⟨?_, fun data hdata => ?_⟩
  · exact (keeps_restoreBreakpoints h overlaps _).trans
      ((keeps_request h (.getMemBinary address length) rfl suspended).trans hsuspended)
  · obtain ⟨reply, hreply, hdata⟩ := Option.map_eq_some_iff.mp hdata
    rw [← hdata, ← hsuspended]
    exact request_read h hreply

theorem getMemory_spec {address length : UInt32} {d d' : XBDMDebugger σ} {found : Option Bytes}
    (hrun : getMemory address length d = .ok (found, d')) :
    memory bytes d' = memory bytes d ∧
      ∀ data, found = some data → data = (memory bytes d).load address length.toNat := by
  obtain ⟨allowed, d₁, hvalid, hread⟩ := bind_ok hrun
  have hsame : d₁ = d := by
    unfold validateMemoryAccess at hvalid
    split at hvalid
    · cases hvalid
    · cases hvalid
      rfl
  subst hsame
  split at hread
  · cases hread
    exact readMemory_spec h address length d₁
  · cases hread
    exact ⟨rfl, fun _ hnone => nomatch hnone⟩

end Requests

section Slices

variable {bytes : σ → Space} (h : Recalls bytes)
include h

theorem bytes_of_accepted {c : XBDMContext σ} {s : UInt32 × Bytes} (hs : accepts c s = true) :
    bytes (c.sendCommandSync (.setMem s.1 s.2)).2.target = (bytes c.target).store s.1 s.2 :=
  h.granted _ _ _ hs

theorem bytes_of_refused {c : XBDMContext σ} {s : UInt32 × Bytes} (hs : accepts c s = false) :
    bytes (c.sendCommandSync (.setMem s.1 s.2)).2.target = bytes c.target :=
  h.refused _ _ _ hs

/-- Slices that follow one another and are all accepted write their bytes as one stretch. -/
theorem bytes_sentAll {slices : List (UInt32 × Bytes)} {address : UInt32} {c : XBDMContext σ}
    (hslices : Consecutive address slices) (hsize : (slices.flatMap Prod.snd).length ≤ 2 ^ 32)
    (haccepted : AcceptsFirst c slices slices.length) :
    bytes (sentAll c slices).target = (bytes c.target).store address (slices.flatMap Prod.snd) := by
  induction slices generalizing address c with
  | nil => rfl
  | cons s rest ih =>
    obtain ⟨start, data⟩ := s
    obtain ⟨rfl, hrest⟩ := hslices
    rw [List.flatMap_cons, List.length_append] at hsize
    rw [List.flatMap_cons, ← Space.store_append hsize, ← bytes_of_accepted h haccepted.tail.1]
    exact ih hrest (by omega) haccepted.tail.2

end Slices

/-- The requests for the slices before some slice are accepted, and the one for that slice is not. -/
def RefusedAfter (c : XBDMContext σ) (slices before : List (UInt32 × Bytes)) : Prop :=
  ∃ s after, slices = before ++ s :: after ∧ AcceptsFirst c before before.length ∧
    accepts (sentAll c before) s = false

theorem accepted_or_refused (c : XBDMContext σ) (slices : List (UInt32 × Bytes)) :
    AcceptsFirst c slices slices.length ∨ ∃ before, RefusedAfter c slices before := by
  induction slices generalizing c with
  | nil => exact .inl fun i hi => absurd hi (Nat.not_lt_zero i)
  | cons s rest ih =>
    cases hs : accepts c s with
    | false => exact .inr ⟨[], s, rest, rfl, fun i hi => absurd hi (Nat.not_lt_zero i), hs⟩
    | true =>
      rcases ih (c.sendCommandSync (.setMem s.1 s.2)).2 with hall | ⟨before, r, after, rfl, hall, hr⟩
      · exact .inl (hall.cons hs)
      · exact .inr ⟨s :: before, r, after, rfl, hall.cons hs, hr⟩

theorem sendSlices_refused {before after : List (UInt32 × Bytes)} {s : UInt32 × Bytes}
    {c : XBDMContext σ} (hall : AcceptsFirst c before before.length)
    (hs : accepts (sentAll c before) s = false) :
    sendSlices (before ++ s :: after) c =
      (false, ((sentAll c before).sendCommandSync (.setMem s.1 s.2)).2) := by
  induction before generalizing c with
  | nil =>
    have hfirst : accepts c s = false := hs
    rw [List.nil_append, sendSlices, if_neg (ne_true_of_eq_false hfirst)]
    rfl
  | cons r rest ih =>
    rw [List.cons_append, sendSlices, if_pos hall.tail.1]
    exact ih hall.tail.2 hs

theorem consecutive_of_append {before after : List (UInt32 × Bytes)} {address : UInt32}
    (h : Consecutive address (before ++ after)) : Consecutive address before := by
  induction before generalizing address with
  | nil => trivial
  | cons s rest ih =>
    obtain ⟨start, data⟩ := s
    exact ⟨h.1, ih h.2⟩

section Writes

variable {bytes : σ → Space} (h : Recalls bytes) {address : UInt32} {data : Bytes}
include h

theorem setMemoryUnsafe_accepted {d : XBDMDebugger σ} (hsize : data.length ≤ 2 ^ 32)
    (hall : AcceptsFirst d.context (slicesOf address data) (slicesOf address data).length) :
    ∃ d', Injection.setMemoryUnsafe address data d = .ok (true, d') ∧
      memory bytes d' = (memory bytes d).store address data := by
  have hslices := slices_slicesOf address data
  refine ⟨_, on_of_ok (p := contextPart) ((setMemoryUnsafe_eq address data d.context).trans
    (congrArg Except.ok (sendSlices_of_accepted hall))), ?_⟩
  have hwritten := bytes_sentAll h hslices.consecutive (by rw [hslices.whole]; exact hsize) hall
  rw [hslices.whole] at hwritten
  exact hwritten

theorem setMemoryUnsafe_refused {d : XBDMDebugger σ} (hsize : data.length ≤ 2 ^ 32)
    {before : List (UInt32 × Bytes)} (hr : RefusedAfter d.context (slicesOf address data) before) :
    (before.flatMap Prod.snd).length ≤ data.length ∧
      ∃ d', Injection.setMemoryUnsafe address data d = .ok (false, d') ∧
        memory bytes d' = (memory bytes d).store address (before.flatMap Prod.snd) := by
  obtain ⟨s, after, hcut, hall, hs⟩ := hr
  have hslices := slices_slicesOf address data
  rw [hcut] at hslices
  have hlength : (before.flatMap Prod.snd).length ≤ data.length := by
    rw [← hslices.whole, List.flatMap_append, List.length_append]
    exact Nat.le_add_right _ _
  have hrun : Loader.setMemoryUnsafe address data d.context =
      .ok (false, ((sentAll d.context before).sendCommandSync (.setMem s.1 s.2)).2) := by
    rw [setMemoryUnsafe_eq, hcut, sendSlices_refused hall hs]
  refine ⟨hlength, _, on_of_ok (p := contextPart) hrun, ?_⟩
  exact (bytes_of_refused h hs).trans
    (bytes_sentAll h (consecutive_of_append hslices.consecutive) (by omega) hall)

theorem setMemoryUnsafe_true {d d' : XBDMDebugger σ} (hsize : data.length ≤ 2 ^ 32)
    (hrun : Injection.setMemoryUnsafe address data d = .ok (true, d')) :
    memory bytes d' = (memory bytes d).store address data := by
  rcases accepted_or_refused d.context (slicesOf address data) with hall | ⟨before, hr⟩
  · obtain ⟨d₁, hrun₁, hmemory⟩ := setMemoryUnsafe_accepted h hsize hall
    rw [hrun] at hrun₁
    cases hrun₁
    exact hmemory
  · obtain ⟨-, d₁, hrun₁, -⟩ := setMemoryUnsafe_refused h hsize hr
    rw [hrun] at hrun₁
    cases hrun₁

theorem setMemoryUnsafe_false {d d' : XBDMDebugger σ} (hsize : data.length ≤ 2 ^ 32)
    (hrun : Injection.setMemoryUnsafe address data d = .ok (false, d')) :
    ∃ before, RefusedAfter d.context (slicesOf address data) before ∧
      (before.flatMap Prod.snd).length ≤ data.length ∧
      memory bytes d' = (memory bytes d).store address (before.flatMap Prod.snd) := by
  rcases accepted_or_refused d.context (slicesOf address data) with hall | ⟨before, hr⟩
  · obtain ⟨d₁, hrun₁, -⟩ := setMemoryUnsafe_accepted h hsize hall
    rw [hrun] at hrun₁
    cases hrun₁
  · obtain ⟨hlength, d₁, hrun₁, hmemory⟩ := setMemoryUnsafe_refused h hsize hr
    rw [hrun] at hrun₁
    cases hrun₁
    exact ⟨before, hr, hlength, hmemory⟩

end Writes

/-- What is asked of the steps around the patch: the look-up finds the function and changes no memory,
and the use of the second bootstrap leaves the function alone. -/
structure Surroundings (bytes : σ → Space) (inj : Injection σ) (function : UInt32) : Prop where
  size : inj.kBootstrapL1.length < 2 ^ 32
  found : ∀ d d₁ shouldResume exports,
    inj.prepare d = .ok ((shouldResume, some exports), d₁) → exports.dmResumeThread = function
  prepare : Leaves (memory bytes) inj.prepare
  install : Leaves (fun d => (memory bytes d).load function inj.kBootstrapL1.length)
    inj.installDynamicDXTLoader

section Runs

variable (bytes : σ → Space) (inj : Injection σ) (function : UInt32)

/-- The bytes of the function, as far as it is patched. -/
def code (d : XBDMDebugger σ) : Bytes :=
  (memory bytes d).load function inj.kBootstrapL1.length

/-- The exports have been looked up and the function has been read. -/
def Fetched (d : XBDMDebugger σ) (exports : Exports) (original : Bytes) (d₂ : XBDMDebugger σ) : Prop :=
  ∃ shouldResume d₁, inj.prepare d = .ok ((shouldResume, some exports), d₁) ∧
    getMemory exports.dmResumeThread (UInt32.ofNat inj.kBootstrapL1.length) d₁ =
      .ok (some original, d₂)

/-- A request that restores the function is refused. -/
def RestoreRefused (d : XBDMDebugger σ) : Prop :=
  ∃ exports original d₂ d₃ installed d₄ d₅, Fetched inj d exports original d₂ ∧
    Injection.setMemoryUnsafe exports.dmResumeThread inj.kBootstrapL1 d₂ = .ok (true, d₃) ∧
    inj.installL2Loader exports d₃ = .ok (installed, d₄) ∧
    Injection.setMemoryUnsafe exports.dmResumeThread original d₄ = .ok (false, d₅)

/-- When `InjectLoader` returns, the function has its bytes, unless it could not be restored. -/
def Restores (d : XBDMDebugger σ) : Prop :=
  ∀ ret d', inj.injectLoader d = .ok (ret, d') →
    code bytes inj function d' = code bytes inj function d ∨ RestoreRefused inj d

/-- When a request of the patch is refused, the ones before it have written what was there. -/
def HarmlessRefusals (d : XBDMDebugger σ) : Prop :=
  ∀ exports original d₂ before, Fetched inj d exports original d₂ →
    RefusedAfter d₂.context (slicesOf function inj.kBootstrapL1) before →
      before.flatMap Prod.snd <+: code bytes inj function d

variable {bytes inj function}

omit [Xbdm σ] in
theorem code_congr {d d' : XBDMDebugger σ} (hsame : memory bytes d' = memory bytes d) :
    code bytes inj function d' = code bytes inj function d :=
  congrArg (Space.load · function inj.kBootstrapL1.length) hsame

variable (h : Recalls bytes) (hs : Surroundings bytes inj function)
include h

theorem leaves_resumeIf (shouldResume : Bool) :
    Leaves (memory bytes) (Injection.resumeIf shouldResume : Program Fault (XBDMDebugger σ) Unit) := by
  cases shouldResume with
  | false => exact Leaves.pure _
  | true =>
    have hgo : Keeps (memory bytes) (go : Op σ _) :=
      (keeps_request h _ rfl).bind fun _ => Keeps.pure _
    exact hgo.leaves.bind fun _ => Leaves.pure _

include hs

theorem fetched_spec {d d₂ : XBDMDebugger σ} {exports : Exports} {original : Bytes}
    (hf : Fetched inj d exports original d₂) :
    exports.dmResumeThread = function ∧ memory bytes d₂ = memory bytes d ∧
      original = code bytes inj function d := by
  obtain ⟨shouldResume, d₁, hprepare, hread⟩ := hf
  have hfunction := hs.found _ _ _ _ hprepare
  obtain ⟨hsame, hdata⟩ := getMemory_spec h hread
  have hprepared := hs.prepare _ _ _ hprepare
  refine ⟨hfunction, hsame.trans hprepared, ?_⟩
  rw [hdata original rfl, hprepared, hfunction, UInt32.toNat_ofNat_of_lt' hs.size]
  rfl

/-- Behind a restoring write that succeeds the function has its bytes, whatever was done to it. -/
theorem installAndRestore_code {exports : Exports} {original : Bytes} {d₃ d' : XBDMDebugger σ}
    {ret : Bool} (hfunction : exports.dmResumeThread = function)
    (hlength : original.length = inj.kBootstrapL1.length)
    (hrun : inj.installAndRestore exports original d₃ = .ok (ret, d')) :
    code bytes inj function d' = original ∨ ∃ installed d₄ d₅,
      inj.installL2Loader exports d₃ = .ok (installed, d₄) ∧
        Injection.setMemoryUnsafe exports.dmResumeThread original d₄ = .ok (false, d₅) := by
  have hsize := hs.size
  obtain ⟨installed, d₄, hinstalled, hrest⟩ := bind_ok hrun
  obtain ⟨restored, d₅, hrestored, hlast⟩ := bind_ok hrest
  cases restored with
  | false => exact .inr ⟨installed, d₄, d₅, hinstalled, hrestored⟩
  | true =>
    have hcode : code bytes inj function d₅ = original := by
      have hwritten := setMemoryUnsafe_true h (by omega) hrestored
      rw [code, hwritten, ← hfunction, ← hlength, Space.load_store (by omega)]
    cases installed with
    | false =>
      cases hlast
      exact .inl hcode
    | true => exact .inl ((hs.install _ _ _ hlast).trans hcode)

theorem patchAndInstall_code {d d₁ d' : XBDMDebugger σ} {shouldResume ret : Bool}
    {exports : Exports} (hprepare : inj.prepare d = .ok ((shouldResume, some exports), d₁))
    (hclean : HarmlessRefusals bytes inj function d)
    (hrun : inj.patchAndInstall exports d₁ = .ok (ret, d')) :
    code bytes inj function d' = code bytes inj function d ∨ RestoreRefused inj d := by
  have hsize := hs.size
  obtain ⟨found, d₂, hread, hrest⟩ := bind_ok hrun
  cases found with
  | none =>
    cases hrest
    exact .inl (code_congr ((getMemory_spec h hread).1.trans (hs.prepare _ _ _ hprepare)))
  | some original =>
    have hfetched : Fetched inj d exports original d₂ := ⟨shouldResume, d₁, hprepare, hread⟩
    obtain ⟨hfunction, hsame, horiginal⟩ := fetched_spec h hs hfetched
    obtain ⟨patched, d₃, hpatched, hlast⟩ := bind_ok hrest
    cases patched with
    | true =>
      have hlength : original.length = inj.kBootstrapL1.length := by
        rw [horiginal, code, Space.length_load]
      rcases installAndRestore_code h hs hfunction hlength hlast with hcode | ⟨i, d₄, d₅, hi, hr⟩
      · exact .inl (hcode.trans horiginal)
      · exact .inr ⟨exports, original, d₂, d₃, i, d₄, d₅, hfetched, hpatched, hi, hr⟩
    | false =>
      cases hlast
      obtain ⟨before, hrefused, hlength, hmemory⟩ := setMemoryUnsafe_false h (by omega) hpatched
      rw [hfunction] at hrefused hmemory
      refine .inl ?_
      rw [code, hmemory, hsame]
      exact (Space.load_store_eq_iff hlength (by omega)).mpr
        (hclean exports original d₂ before hfetched hrefused)

/-- What the accepted requests of a refused patch have written is there when `InjectLoader` returns. -/
theorem injectLoader_refused {d d₂ : XBDMDebugger σ} {exports : Exports} {original : Bytes}
    {before : List (UInt32 × Bytes)} (hfetched : Fetched inj d exports original d₂)
    (hrefused : RefusedAfter d₂.context (slicesOf function inj.kBootstrapL1) before) :
    (before.flatMap Prod.snd).length ≤ inj.kBootstrapL1.length ∧
      ∃ d', inj.injectLoader d = .ok (false, d') ∧
        memory bytes d' = (memory bytes d).store function (before.flatMap Prod.snd) := by
  have hsize := hs.size
  obtain ⟨hfunction, hsame, -⟩ := fetched_spec h hs hfetched
  obtain ⟨shouldResume, d₁, hprepare, hread⟩ := hfetched
  obtain ⟨hlength, d₃, hpatched, hmemory⟩ := setMemoryUnsafe_refused h (by omega) hrefused
  have hinstall : inj.patchAndInstall exports d₁ = .ok (false, d₃) := by
    rw [Injection.patchAndInstall, bind_of_ok hread]
    dsimp only
    rw [hfunction, bind_of_ok hpatched]
    rfl
  obtain ⟨d', hresume⟩ : ∃ d', Injection.resumeIf shouldResume d₃ = .ok ((), d') := by
    cases shouldResume <;> exact ⟨_, rfl⟩
  refine ⟨hlength, d', ?_, ?_⟩
  · rw [Injection.injectLoader, bind_of_ok hprepare, Injection.patchResolved, bind_of_ok hinstall,
      bind_of_ok hresume]
    rfl
  · rw [leaves_resumeIf h shouldResume _ _ _ hresume, hmemory, hsame]

/-- A patch that is refused is not the one that the function is restored behind. -/
theorem not_restoreRefused {d d₂ : XBDMDebugger σ} {exports : Exports} {original : Bytes}
    {before : List (UInt32 × Bytes)} (hfetched : Fetched inj d exports original d₂)
    (hrefused : RefusedAfter d₂.context (slicesOf function inj.kBootstrapL1) before) :
    ¬RestoreRefused inj d := by
  have hsize := hs.size
  rintro ⟨exports', original', d₂', d₃, -, -, -, hfetched', hpatched, -⟩
  obtain ⟨hfunction, -⟩ := fetched_spec h hs hfetched
  obtain ⟨shouldResume, d₁, hprepare, hread⟩ := hfetched
  obtain ⟨shouldResume', d₁', hprepare', hread'⟩ := hfetched'
  rw [hprepare] at hprepare'
  cases hprepare'
  rw [hread] at hread'
  cases hread'
  obtain ⟨-, d₄, hrun, -⟩ := setMemoryUnsafe_refused h (by omega) hrefused
  rw [hfunction, hrun] at hpatched
  cases hpatched

theorem restores_of_harmless {d : XBDMDebugger σ} (hclean : HarmlessRefusals bytes inj function d) :
    Restores bytes inj function d := by
  intro ret d' hrun
  obtain ⟨⟨shouldResume, found⟩, d₁, hprepare, hrest⟩ := bind_ok hrun
  obtain ⟨patched, d₂, hpatched, hlast⟩ := bind_ok hrest
  obtain ⟨_, d₃, hresume, hend⟩ := bind_ok hlast
  obtain ⟨-, rfl⟩ := Prod.mk.inj (Except.ok.inj hend)
  have hresumed : code bytes inj function d₃ = code bytes inj function d₂ :=
    code_congr (leaves_resumeIf h shouldResume _ _ _ hresume)
  cases found with
  | none =>
    cases hpatched
    exact .inl (hresumed.trans (code_congr (hs.prepare _ _ _ hprepare)))
  | some exports =>
    exact (patchAndInstall_code h hs hprepare hclean hpatched).imp_left hresumed.trans

theorem harmless_of_restores {d : XBDMDebugger σ} (hrestores : Restores bytes inj function d) :
    HarmlessRefusals bytes inj function d := by
  intro exports original d₂ before hfetched hrefused
  have hsize := hs.size
  obtain ⟨hlength, d', hrun, hmemory⟩ := injectLoader_refused h hs hfetched hrefused
  have hcode := (hrestores _ _ hrun).resolve_right (not_restoreRefused h hs hfetched hrefused)
  rw [code, hmemory] at hcode
  exact (Space.load_store_eq_iff hlength (by omega)).mp hcode

theorem restores_iff (d : XBDMDebugger σ) :
    Restores bytes inj function d ↔ HarmlessRefusals bytes inj function d :=
  ⟨harmless_of_restores h hs, restores_of_harmless h hs⟩

end Runs

/-- A target with a memory that answers the writes as listed and grants the ones after them. -/
structure Recording where
  memory : Space
  outcomes : List Bool := []

instance : Xbdm Recording where
  answer r s := match r with
    | .setMem address data =>
      if s.outcomes.headD true then
        ({ status := .ok }, ⟨s.memory.store address data, s.outcomes.tail⟩)
      else ({ status := .errAccessDenied }, ⟨s.memory, s.outcomes.tail⟩)
    | .getMemBinary address n =>
      ({ status := .okBinaryResponse, data := s.memory.load address n.toNat }, s)
    | r => ({ status := r.success }, s)
  announces _ s := (true, s)

theorem recalls_recording : Recalls Recording.memory where
  granted s address data hok := by
    simp only [Xbdm.answer] at hok ⊢
    split
    next => rfl
    next hrefused => rw [if_neg hrefused] at hok; cases hok
  refused s address data hrefused := by
    simp only [Xbdm.answer] at hrefused ⊢
    split
    next hok => rw [if_pos hok] at hrefused; cases hrefused
    next => rfl
  read _ _ _ _ := rfl
  others s r hr := by
    cases r <;> first | rfl | cases hr

/-- A bootstrap of 121 bytes, for a function at `0x1000`. -/
def sampleInjection : Injection Recording where
  kBootstrapL1 := List.replicate 121 1
  kBootstrapL2 := List.replicate 12 0
  prepare := pure (true, some ⟨0x1000, 0x2000, 0x3000, 0x4000⟩)
  installDynamicDXTLoader := pure true

theorem surroundings_sample : Surroundings Recording.memory sampleInjection 0x1000 where
  size := by decide
  found _ _ _ _ hrun := by
    cases hrun
    rfl
  prepare := Leaves.pure _
  install := Leaves.pure _

/-- A debugger in front of a memory of zeros. -/
def recording (outcomes : List Bool) : XBDMDebugger Recording where
  context := { target := ⟨fun _ => 0, outcomes⟩ }

theorem restores_iff_granted :
    Restores Recording.memory sampleInjection 0x1000 (recording []) ↔
      HarmlessRefusals Recording.memory sampleInjection 0x1000 (recording []) :=
  restores_iff recalls_recording surroundings_sample _

theorem getMemory_recording {length : UInt32} (hlen : length ≠ 0) (address : UInt32)
    (outcomes : List Bool) :
    getMemory address length (recording outcomes) =
      .ok (some (List.replicate length.toNat 0), { recording outcomes with
        context := ((recording outcomes).context.sendCommandSync (.getMemBinary address length)).2 }) := by
  have hzeros : Space.load (fun _ => 0) address length.toNat = List.replicate length.toNat 0 := by
    rw [Space.load, List.map_const', List.length_range]
  unfold getMemory validateMemoryAccess
  rw [if_neg hlen, ← hzeros]
  rfl

/-- The second of the two requests is refused: the first 120 bytes stay patched. -/
theorem not_restores_refused :
    ¬Restores Recording.memory sampleInjection 0x1000 (recording [true, false]) := by
  intro hrestores
  have hclean := harmless_of_restores recalls_recording surroundings_sample hrestores
  have hfetched : Fetched sampleInjection (recording [true, false])
      ⟨0x1000, 0x2000, 0x3000, 0x4000⟩ _ _ :=
    ⟨true, _, rfl, getMemory_recording (by decide +kernel) 0x1000 [true, false]⟩
  have hrefused : RefusedAfter ((recording [true, false]).context.sendCommandSync
      (.getMemBinary 0x1000 (UInt32.ofNat sampleInjection.kBootstrapL1.length))).2
      (slicesOf 0x1000 sampleInjection.kBootstrapL1) [(0x1000, List.replicate 120 1)] := by
    refine ⟨(0x1078, [1]), [], by decide +kernel, fun i hi s hs => ?_, by decide +kernel⟩
    obtain rfl : i = 0 := Nat.lt_one_iff.mp hi
    cases hs
    decide +kernel
  obtain ⟨rest, hcode⟩ := hclean _ _ _ _ hfetched hrefused
  have hfirst : (code Recording.memory sampleInjection 0x1000 (recording [true, false])).head? =
      some 1 := by
    rw [← hcode]
    rfl
  exact absurd hfirst (by decide +kernel)

end XbdmGdbBridge.Proofs.Injections
