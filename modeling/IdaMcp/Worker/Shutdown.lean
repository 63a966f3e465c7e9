import IdaMcp.Worker.Coherence

namespace IdaMcp.Worker

open Foundation

structure Loop.Ended (s : Loop) : Prop where
  running : s.running = false
  idb : s.idb = none
  openIdbs : s.openIdbs = []
  heldLocks : s.heldLocks = []

/-- A Shutdown is dequeued once the library is there, or the deferred initialization succeeds. -/
def honours (s : Loop) : Loop.Action → Prop
  | .receive .shutdown answers => s.libInitialized = true ∨ answers.initLibrary.isOk = true
  | _ => True

namespace Loop

variable {s t : Loop} {v : Option Holding} {answers : Answers}

theorem Holds.ended (h : s.Holds v) : s.finish.Ended := by
  rw [finish_eq h]
  exact ⟨rfl, rfl, rfl, rfl⟩

theorem serve_shutdown (s : Loop) :
    s.serve .shutdown answers = (none, (s.shutdownCleanup answers).finish) := by
  unfold serve
  split
  · rfl
  · rfl

theorem ensureLibrary_shutdown (s : Loop) (answers : Answers) :
    (∃ w, s.ensureLibrary .shutdown answers = (.ok (), w) ∧
      (s.libInitialized = true ∨ answers.initLibrary.isOk = true)) ∨
    ∃ error, s.ensureLibrary .shutdown answers = (.error error, s) ∧
      ¬(s.libInitialized = true ∨ answers.initLibrary.isOk = true) := by
  unfold ensureLibrary
  cases hlib : s.libInitialized with
  | true => exact .inl ⟨s, rfl, .inl rfl⟩
  | false =>
    cases hinit : answers.initLibrary with
    | ok m => exact .inl ⟨_, rfl, .inr rfl⟩
    | error error => exact .inr ⟨_, rfl, by simp [Except.isOk, Except.toBool]⟩

theorem dequeue_libInitialized (h : s.Holds v) (request : Request) (answers : Answers) :
    (s.dequeue request answers).libInitialized = s.libInitialized := by
  obtain ⟨hu, -⟩ | ⟨d, -, hu⟩ := dequeue_cases h request answers <;> rw [hu]
  · rfl
  · rfl

theorem turn_shutdown_ended_iff (h : s.Coherent) (hrun : s.running = true) :
    (s.turn .shutdown answers).2.Ended ↔ honours s (.receive .shutdown answers) := by
  obtain ⟨v, hv⟩ := h.1
  obtain ⟨v', hv'⟩ := (coherent_kept.taken .shutdown answers h).1
  have hlib := dequeue_libInitialized hv .shutdown answers
  have hrunning := dequeue_running hv .shutdown answers
  obtain ⟨l, m, hw⟩ := ensureLibrary_snd (s.dequeue .shutdown answers) .shutdown answers
  unfold turn
  obtain ⟨w, hready, hinit⟩ | ⟨error, hready, hinit⟩ :=
    ensureLibrary_shutdown (s.dequeue .shutdown answers) answers
  · rw [hready] at hw ⊢
    obtain rfl : w = _ := hw
    dsimp only
    rw [serve_shutdown]
    have hv'' : Holds _ v' := hv'.congr (t := { s.dequeue .shutdown answers with
      libInitialized := l, versionMismatch := m }) rfl rfl rfl rfl rfl rfl rfl
    rw [hlib] at hinit
    refine ⟨fun _ => hinit, fun _ => ?_⟩
    rw [shutdownCleanup_finish hv'']
    exact hv''.ended
  · rw [hready]
    rw [hlib] at hinit
    refine ⟨fun hended => ?_, fun hhonours => absurd hhonours hinit⟩
    have hstopped : (s.dequeue .shutdown answers).running = false := hended.running
    rw [hrunning, hrun] at hstopped
    cases hstopped

theorem step_of_not_running (h : s.running = false) (action : Action) : step s action = none := by
  simp [step, h]

theorem run_coherent {libraryInitialized : Bool} {versionMismatch : Option String}
    {actions : List Action}
    (h : run step (initial libraryInitialized versionMismatch) actions = some s) : s.Coherent :=
  invariant_of_reachable (fun _ _ _ => Coherent.step)
    (initial_coherent libraryInitialized versionMismatch) ⟨actions, h⟩

end Loop

/-- Every Shutdown of a run is its last action and ends the loop, exactly if none of them meets a
deferred initialization that fails. -/
theorem shutdown_honoured_iff {libraryInitialized : Bool} {versionMismatch : Option String}
    {actions : List Loop.Action} {s : Loop}
    (h : run Loop.step (Loop.initial libraryInitialized versionMismatch) actions = some s) :
    (∀ before answers after, actions = before ++ .receive .shutdown answers :: after →
      after = [] ∧ s.Ended) ↔
    Meets Loop.step honours (Loop.initial libraryInitialized versionMismatch) actions := by
  rw [meets_iff]
  constructor
  · intro hended before action after u hsplit hu
    cases action with
    | disconnect => trivial
    | receive request answers =>
      cases request with
      | «shutdown» =>
        obtain ⟨rfl, hs⟩ := hended before answers after hsplit
        rw [hsplit] at h
        obtain ⟨u', t, hu', ht, hs'⟩ := run_append_cons.mp h
        obtain rfl : u' = u := Option.some.inj (hu'.symm.trans hu)
        obtain rfl : t = s := Option.some.inj hs'
        unfold Loop.step at ht
        split at ht
        next hrun =>
          obtain rfl := Option.some.inj ht
          exact (Loop.turn_shutdown_ended_iff (Loop.run_coherent hu) hrun).mp hs
        · cases ht
      | _ => trivial
  · rintro hmeets before answers after rfl
    obtain ⟨u, t, hu, ht, hs⟩ := run_append_cons.mp h
    have hhonours := hmeets before _ after u rfl hu
    unfold Loop.step at ht
    split at ht
    next hrun =>
      obtain rfl := Option.some.inj ht
      have hended := (Loop.turn_shutdown_ended_iff (Loop.run_coherent hu) hrun).mpr hhonours
      cases after with
      | nil =>
        obtain rfl := Option.some.inj hs
        exact ⟨rfl, hended⟩
      | cons action after =>
        rw [run, Loop.step_of_not_running hended.running] at hs
        cases hs
    · cases ht

def Answers.unlicensed : Answers :=
  { Answers.succeeding with initLibrary := .error "license has expired" }

/-- The Shutdown is dropped, and the loop goes on to the next request. -/
theorem shutdown_dropped : ∃ s,
    run Loop.step (Loop.initial false none) [.receive .shutdown .unlicensed, .receive .close .unlicensed] =
      some s ∧ s.running = true ∧ ¬s.Ended := by
  refine ⟨_, rfl, rfl, ?_⟩
  intro hended
  exact Bool.noConfusion hended.running

def openThenShutdown : List Loop.Action :=
  [.receive (.open (.ofPath "sample.i64")) .succeeding, .receive .shutdown .succeeding]

theorem shutdown_honoured_iff_opened :
    ∃ s, run Loop.step (Loop.initial false none) openThenShutdown = some s ∧
      ∀ before answers after, openThenShutdown = before ++ .receive .shutdown answers :: after →
        after = [] ∧ s.Ended := by
  refine ⟨_, rfl, ?_⟩
  have hrun : run Loop.step (Loop.initial false none) openThenShutdown = some _ := rfl
  refine (shutdown_honoured_iff hrun).mpr ⟨trivial, ?_⟩
  intro t _
  exact ⟨.inr rfl, fun _ _ => trivial⟩

end IdaMcp.Worker
