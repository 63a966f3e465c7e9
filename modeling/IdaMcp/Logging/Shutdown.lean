import IdaMcp.Logging.Faithful

/-! The end of the log: `shutdown` waits for no output, and what its answer says of the output. -/

namespace IdaMcp.Logging

open Foundation

def WorkerState.ended : WorkerState → Bool
  | .leaving _ | .exited _ => true
  | _ => false

/-- How many steps `shutdown` still takes at most. -/
def GuardState.left : GuardState → ℕ
  | .looking => 4
  | .waiting => 3
  | .lookingAgain => 2
  | .joining => 1
  | .idle | .returned _ => 0

variable {s s' : State} {a : Action} {as : List Action}

structure Staged (s : State) : Prop where
  handle : s.guard.left ≠ 0 → s.handle = true
  joining : s.guard = .joining → s.worker.ended = true
  finished : s.finished = true → s.worker.ended = true

theorem worker_ended {w : WorkerState} (hw : s.worker = w) (h : stepWorker s a w = some s') :
    (w.ended = true → s'.worker.ended = true) ∧
      (s'.finished = true → s.finished = true ∨ s'.worker.ended = true) := by
  unfold stepWorker at h
  split at h <;> grind [WorkerState.ended]

theorem Staged.guard {g : GuardState} (h : Staged s) (hg : s.guard = g) (hstep : stepGuard s a g = some s') :
    Staged s' := by
  obtain ⟨hhandle, hjoining, hfinished⟩ := h
  have hended : s.threadFinished = true → s.worker.ended = true := by
    unfold State.threadFinished WorkerState.ended
    cases s.worker <;> simp
  unfold stepGuard at hstep
  constructor <;> split at hstep <;> grind [GuardState.left]

theorem Staged.frame (h : Staged s) (hhandle : s'.handle = s.handle) (hguard : s'.guard = s.guard)
    (hended : s.worker.ended = true → s'.worker.ended = true)
    (hfinished : s'.finished = true → s.finished = true ∨ s'.worker.ended = true) : Staged s' where
  handle hleft := by
    rw [hhandle]
    exact h.handle (hguard ▸ hleft)
  joining hjoining := hended (h.joining (hguard ▸ hjoining))
  finished hsignal := (hfinished hsignal).elim (fun hold => hended (h.finished hold)) id

theorem Staged.preserved (h : Staged s) (hstep : step s a = some s') : Staged s' := by
  cases party_of_step hstep with
  | aside hframe =>
    apply h.frame hframe.handle hframe.guard
    · rw [hframe.worker]
      exact id
    · rw [hframe.finished]
      exact .inl
  | worker hworker =>
    obtain ⟨-, -, -, hhandle, hguard, -⟩ := stepWorker_cases hworker
    obtain ⟨hended, hfinished⟩ := worker_ended rfl hworker
    exact h.frame hhandle hguard hended hfinished
  | guard hguard => exact h.guard rfl hguard

theorem staged_run (h : run step start as = some s) : Staged s := by
  apply run_induction (P := fun _ s => Staged s) _ _ h
  · constructor <;> simp [start, GuardState.left]
  · exact fun _ _ _ _ _ hstaged hstep => hstaged.preserved hstep

theorem guard_left {g : GuardState} (hg : s.guard = g) (hin : g.left ≠ 0) (hstep : stepGuard s a g = some s') :
    a.ofGuard = true ∧ s'.guard.left < g.left ∧ s'.guard ≠ .idle := by
  unfold stepGuard at hstep
  split at hstep <;> grind [GuardState.left, Action.ofGuard]

theorem left_step (hin : s.guard.left ≠ 0) (hstep : step s a = some s') :
    if a.ofGuard then s'.guard.left < s.guard.left ∧ s'.guard ≠ .idle else s'.guard = s.guard := by
  cases party_of_step hstep with
  | aside hframe _ hguard =>
    rw [hguard]
    exact hframe.guard
  | worker hworker _ hguard =>
    rw [hguard]
    obtain ⟨-, -, -, -, hsame, -⟩ := stepWorker_cases hworker
    exact hsame
  | guard hguard =>
    obtain ⟨hof, hleft⟩ := guard_left rfl hin hguard
    rw [if_pos hof]
    exact hleft

theorem Staged.advance (h : Staged s) (hin : s.guard.left ≠ 0) :
    ∃ bs t, (∀ b ∈ bs, b.ofGuard = true ∨ b = .exit) ∧ run step s bs = some t ∧
      (t.guard.left < s.guard.left) ∧ (t.guard.left = 0 → ∃ result, t.guard = .returned result) := by
  cases hguard : s.guard with
  | idle | returned => simp [hguard, GuardState.left] at hin
  | looking =>
    refine ⟨[.look], _, by simp [Action.ofGuard], by rw [run, step, hguard]; rfl, ?_⟩
    cases s.threadFinished <;> simp [GuardState.left]
  | waiting =>
    cases hfinished : s.finished with
    | true =>
      refine ⟨[.finishedRecv], { s with finished := false, guard := .joining }, by simp [Action.ofGuard], ?_, ?_⟩
      · simp [run, step, hguard, stepGuard, hfinished]
      · simp [GuardState.left]
    | false =>
      refine ⟨[.finishedTimeout], { s with guard := .lookingAgain }, by simp [Action.ofGuard], ?_, ?_⟩
      · simp [run, step, hguard, stepGuard, hfinished]
      · simp [GuardState.left]
  | lookingAgain =>
    refine ⟨[.lookAgain], _, by simp [Action.ofGuard], by rw [run, step, hguard]; rfl, ?_⟩
    cases s.threadFinished <;> simp [GuardState.left]
  | joining =>
    have hended := h.joining hguard
    cases hworker : s.worker with
    | leaving outcome =>
      refine ⟨[.exit, .join],
        { s with worker := .exited outcome, handle := false, guard := .returned (joined outcome) },
        by simp [Action.ofGuard], ?_, ?_⟩
      · simp [run, step, stepWorker, hworker, hguard, stepGuard]
      · simp [GuardState.left]
    | exited outcome =>
      refine ⟨[.join], { s with handle := false, guard := .returned (joined outcome) },
        by simp [Action.ofGuard], ?_, ?_⟩
      · simp [run, step, hworker, hguard, stepGuard]
      · simp [GuardState.left]
    | receiving | timedOut | writing | flushing => simp [hworker, WorkerState.ended] at hended

theorem returns_soon (n : ℕ) : ∀ {s : State} {as : List Action}, run step start as = some s → s.guard.left = n →
    n ≠ 0 → ∃ bs t result, (∀ b ∈ bs, b.ofGuard = true ∨ b = .exit) ∧ run step s bs = some t ∧
      t.guard = .returned result := by
  induction n using Nat.strongRecOn with
  | ind n ih =>
    intro s as hrun hleft hn
    obtain ⟨bs, t, hbs, hfirst, hless, hend⟩ := (staged_run hrun).advance (hleft ▸ hn)
    by_cases hzero : t.guard.left = 0
    · obtain ⟨result, hresult⟩ := hend hzero
      exact ⟨bs, t, result, hbs, hfirst, hresult⟩
    · have hboth : run step start (as ++ bs) = some t := by
        rw [run_append, hrun]
        exact hfirst
      obtain ⟨cs, u, result, hcs, hsecond, hresult⟩ := ih _ (hleft ▸ hless) hboth rfl hzero
      refine ⟨bs ++ cs, u, result, ?_, ?_, hresult⟩
      · intro b hb
        exact (List.mem_append.mp hb).elim (hbs b) (hcs b)
      · rw [run_append, hfirst]
        exact hsecond

theorem returned_of_left {s : State} (hzero : s.guard.left = 0) (hidle : s.guard ≠ .idle) :
    ∃ result, s.guard = .returned result := by
  cases hguard : s.guard with
  | returned result => exact ⟨result, rfl⟩
  | idle => exact absurd hguard hidle
  | looking | waiting | lookingAgain | joining => simp [hguard, GuardState.left] at hzero

theorem returns_by (bs : List Action) : ∀ {s t : State}, s.guard.left ≠ 0 → run step s bs = some t →
    s.guard.left ≤ bs.countP Action.ofGuard →
    ∃ before after u result, bs = before ++ after ∧ run step s before = some u ∧ u.guard = .returned result := by
  induction bs with
  | nil =>
    intro s t hin _ hcount
    exact absurd (Nat.le_zero.mp hcount) hin
  | cons b bs ih =>
    intro s t hin hrun hcount
    obtain ⟨u, hstep, hrest⟩ := run_cons_eq_some.mp hrun
    have hleft := left_step hin hstep
    rw [List.countP_cons] at hcount
    by_cases hzero : u.guard.left = 0
    · have hidle : u.guard ≠ .idle := by
        intro hidle
        split_ifs at hleft
        · exact hleft.2 hidle
        · rw [← hleft, hidle] at hin
          exact hin rfl
      obtain ⟨result, hresult⟩ := returned_of_left hzero hidle
      exact ⟨[b], bs, u, result, rfl, run_cons_eq_some.mpr ⟨u, hstep, rfl⟩, hresult⟩
    · have hcount' : u.guard.left ≤ bs.countP Action.ofGuard := by
        split_ifs at hleft hcount with hguard
        · omega
        · rw [hleft]
          exact hcount
      obtain ⟨before, after, v, result, rfl, hbefore, hresult⟩ := ih hzero hrest hcount'
      exact ⟨b :: before, after, v, result, rfl, run_cons_eq_some.mpr ⟨u, hstep, hbefore⟩, hresult⟩

structure Returns (s : State) : Prop where
  /-- Without a byte written or flushed. -/
  soon : ∃ bs t result, (∀ b ∈ bs, b.ofGuard = true ∨ b = .exit) ∧ run step s bs = some t ∧
    t.guard = .returned result
  /-- Whatever the others do in between. -/
  bounded : ∀ bs t, run step s bs = some t → 4 ≤ bs.countP Action.ofGuard →
    ∃ before after u result, bs = before ++ after ∧ run step s before = some u ∧ u.guard = .returned result
  joins : s.guard = .joining → s.worker.ended = true

theorem left_le (g : GuardState) : g.left ≤ 4 := by
  cases g <;> simp [GuardState.left]

theorem shutdown_returns (h : run step start as = some s) (hin : s.guard.left ≠ 0) : Returns s where
  soon := returns_soon _ h rfl hin
  bounded bs _ hbs hcount := returns_by bs hin hbs (Nat.le_trans (left_le _) hcount)
  joins := (staged_run h).joining

def stuck : List Action := [.makeWriter, .write 0 [104, 105], .dropLine 0, .trySend 0, .recv, .put 1, .shutdown]

theorem shutdown_returns_stuck :
    ∃ s, run step start stuck = some s ∧ s.worker = .writing [105] ∧ Returns s := by
  have hrun : (run step start stuck).map (fun s => (s.worker, s.guard)) = some (.writing [105], .looking) := by
    decide
  obtain ⟨s, hs, hstate⟩ := Option.map_eq_some_iff.mp hrun
  obtain ⟨hworker, hguard⟩ := Prod.mk.inj hstate
  exact ⟨s, hs, hworker, shutdown_returns hs (by rw [hguard]; decide)⟩

/-- The thread's last look at the channel found it empty: `output` is what was sent before. -/
def Looked (as : List Action) (output : List UInt8) : Prop :=
  ∃ before a after t, as = before ++ a :: after ∧ (a = .timeout ∨ a = .disconnected) ∧
    run step start before = some t ∧ t.queue = [] ∧ output = ((sent before).map Prod.snd).flatten

def FailedBefore (as : List Action) : Prop :=
  ∃ before after t outcome, as = before ++ after ∧ run step start before = some t ∧
    t.guard = .returned (.failed outcome)

theorem Looked.more {output : List UInt8} (h : Looked as output) (bs : List Action) : Looked (as ++ bs) output := by
  obtain ⟨before, a, after, t, rfl, hrest⟩ := h
  exact ⟨before, a, after ++ bs, t, by simp, hrest⟩

theorem FailedBefore.more (h : FailedBefore as) (bs : List Action) : FailedBefore (as ++ bs) := by
  obtain ⟨before, after, t, outcome, rfl, hrest⟩ := h
  exact ⟨before, after ++ bs, t, outcome, by simp, hrest⟩

/-- The output is flushed, and no write or flush has failed. -/
def Flushed (as : List Action) : Prop := .flush ∈ as ∧ ∀ outcome, .fail outcome ∉ as

def WorkerState.done : WorkerState → Bool
  | .timedOut | .flushing | .leaving .ok | .exited .ok => true
  | _ => false

def WorkerState.flushed : WorkerState → Bool
  | .leaving .ok | .exited .ok => true
  | _ => false

def WorkerState.failed : WorkerState → Bool
  | .leaving .ok | .exited .ok => false
  | .leaving _ | .exited _ => true
  | _ => false

structure Seen (s : State) (as : List Action) : Prop where
  looked : s.worker.done = true → Looked as s.output
  flushed : s.worker.flushed = true → .flush ∈ as
  unfailed : s.worker.failed = false → ∀ outcome, .fail outcome ∉ as
  joined : s.handle = false → ∃ outcome, s.worker = .exited outcome ∧ (outcome = .ok ∨ FailedBefore as)
  answered : s.guard = .returned (.done true) → s.handle = false

theorem done_writeAll (bytes : List UInt8) : (writeAll bytes).done = false := by
  cases bytes <;> rfl

theorem done_step {w : WorkerState} (hw : s.worker = w) (h : stepWorker s a w = some s')
    (hdone : s'.worker.done = true) :
    s'.output = s.output ∧
      (w.done = true ∨ (a = .timeout ∨ a = .disconnected) ∧ w = .receiving ∧ s.queue = []) := by
  unfold stepWorker at h
  split at h
  · split at h <;> grind [done_writeAll]
  · grind
  · grind
  · grind [WorkerState.done]
  · grind [done_writeAll]
  · grind [WorkerState.done]
  · split_ifs at h
    obtain rfl := Option.some.inj h
    grind [WorkerState.done]
  · split_ifs at h
    obtain rfl := Option.some.inj h
    grind [WorkerState.done]
  · obtain rfl := Option.some.inj h
    grind [WorkerState.done]
  · cases h

theorem outcome_step {w : WorkerState} (hw : s.worker = w) (h : stepWorker s a w = some s') :
    (s'.worker.flushed = true → w.flushed = true ∨ a = .flush) ∧
      (s'.worker.failed = false → w.failed = false ∧ ∀ outcome, a ≠ .fail outcome) := by
  have hwriting (bytes : List UInt8) : (writeAll bytes).flushed = false := by cases bytes <;> rfl
  unfold stepWorker at h
  split at h
  · split at h <;> grind [WorkerState.flushed, WorkerState.failed]
  · grind [WorkerState.flushed, WorkerState.failed]
  · grind [WorkerState.flushed, WorkerState.failed]
  · grind [WorkerState.flushed, WorkerState.failed]
  · grind [WorkerState.flushed, WorkerState.failed]
  · grind [WorkerState.flushed, WorkerState.failed]
  · split_ifs at h
    obtain rfl := Option.some.inj h
    grind [WorkerState.flushed, WorkerState.failed]
  · split_ifs at h
    obtain rfl := Option.some.inj h
    grind [WorkerState.flushed, WorkerState.failed]
  · obtain rfl := Option.some.inj h
    grind [WorkerState.flushed, WorkerState.failed]
  · cases h

theorem exited_final {outcome : Outcome} (h : stepWorker s a (.exited outcome) = some s') : False := by
  cases a <;> cases h

theorem guard_answers {g : GuardState} (hg : s.guard = g) (h : stepGuard s a g = some s')
    (hanswered : g = .returned (.done true) → s.handle = false) :
    (s'.guard = .returned (.done true) → s'.handle = false) ∧
      (s'.handle = false → s.handle = false ∨ ∃ outcome, s.worker = .exited outcome ∧
        s'.guard = .returned (joined outcome)) := by
  unfold stepGuard at h
  split at h <;> grind

theorem not_failed_snoc (h : ∀ outcome, .fail outcome ∉ as) (ha : ∀ outcome, a ≠ .fail outcome) :
    ∀ outcome, .fail outcome ∉ as ++ [a] := by
  intro outcome hmem
  rcases List.mem_append.mp hmem with hmem | hmem
  · exact h outcome hmem
  · exact ha outcome (List.mem_singleton.mp hmem).symm

theorem Seen.frame (h : Seen s as) (hframe : Aside s s') (ha : ∀ outcome, a ≠ .fail outcome) :
    Seen s' (as ++ [a]) where
  looked hdone := by
    rw [hframe.output]
    exact (h.looked (hframe.worker ▸ hdone)).more [a]
  flushed hflushed := List.mem_append_left _ (h.flushed (hframe.worker ▸ hflushed))
  unfailed hfailed := not_failed_snoc (h.unfailed (hframe.worker ▸ hfailed)) ha
  joined hfalse := by
    obtain ⟨outcome, hexited, hfailed⟩ := h.joined (hframe.handle ▸ hfalse)
    exact ⟨outcome, hframe.worker ▸ hexited, hfailed.imp_right fun h => h.more [a]⟩
  answered hdone := by
    rw [hframe.handle]
    exact h.answered (hframe.guard ▸ hdone)

theorem Seen.worker (h : Seen s as) (hrun : run step start as = some s)
    (hstep : stepWorker s a s.worker = some s') : Seen s' (as ++ [a]) := by
  obtain ⟨-, -, -, hhandle, hguard, -⟩ := stepWorker_cases hstep
  obtain ⟨hflushed, hunfailed⟩ := outcome_step rfl hstep
  constructor
  · intro hdone
    obtain ⟨houtput, hdone | ⟨ha, hworker, hqueue⟩⟩ := done_step rfl hstep hdone
    · rw [houtput]
      exact (h.looked hdone).more [a]
    · refine ⟨as, a, [], s, rfl, ha, hrun, hqueue, ?_⟩
      have hall := (flow_run hrun).intact [] (by rw [hworker]; rfl)
      rw [hall, hqueue, houtput]
      simp
  · intro hnow
    rcases hflushed hnow with hold | rfl
    · exact List.mem_append_left _ (h.flushed hold)
    · exact List.mem_append_right _ (List.mem_singleton_self _)
  · intro hnow
    obtain ⟨hold, ha⟩ := hunfailed hnow
    exact not_failed_snoc (h.unfailed hold) ha
  · intro hfalse
    obtain ⟨outcome, hexited, -⟩ := h.joined (hhandle ▸ hfalse)
    rw [hexited] at hstep
    exact (exited_final hstep).elim
  · intro hdone
    rw [hhandle]
    exact h.answered (hguard ▸ hdone)

theorem Seen.guard (h : Seen s as) (hrun : run step start (as ++ [a]) = some s')
    (hstep : stepGuard s a s.guard = some s') (ha : ∀ outcome, a ≠ .fail outcome) :
    Seen s' (as ++ [a]) := by
  obtain ⟨-, -, -, houtput, hworker⟩ := stepGuard_frame hstep
  obtain ⟨hanswered, hjoined⟩ := guard_answers rfl hstep h.answered
  constructor
  · intro hdone
    rw [houtput]
    exact (h.looked (hworker ▸ hdone)).more [a]
  · exact fun hflushed => List.mem_append_left _ (h.flushed (hworker ▸ hflushed))
  · exact fun hfailed => not_failed_snoc (h.unfailed (hworker ▸ hfailed)) ha
  · intro hfalse
    rw [hworker]
    obtain hold | ⟨outcome, hexited, hguard⟩ := hjoined hfalse
    · obtain ⟨outcome, hexited, hfailed⟩ := h.joined hold
      exact ⟨outcome, hexited, hfailed.imp_right fun h => h.more [a]⟩
    · refine ⟨outcome, hexited, ?_⟩
      cases outcome with
      | ok => exact .inl rfl
      | error kind => exact .inr ⟨as ++ [a], [], s', .error kind, by simp, hrun, hguard⟩
      | panicked => exact .inr ⟨as ++ [a], [], s', .panicked, by simp, hrun, hguard⟩
  · exact hanswered

theorem Seen.preserved (h : Seen s as) (hrun : run step start as = some s) (hstep : step s a = some s') :
    Seen s' (as ++ [a]) := by
  by_cases hfail : ∃ outcome, a = .fail outcome
  · obtain ⟨outcome, rfl⟩ := hfail
    exact h.worker hrun hstep
  · have ha : ∀ outcome, a ≠ .fail outcome := fun outcome heq => hfail ⟨outcome, heq⟩
    cases party_of_step hstep with
    | aside hframe => exact h.frame hframe ha
    | worker hworker => exact h.worker hrun hworker
    | guard hguard => exact h.guard (run_snoc_eq_some.mpr ⟨s, hrun, hstep⟩) hguard ha

theorem seen_run (h : run step start as = some s) : Seen s as := by
  apply run_induction (P := fun as s => Seen s as) _ _ h
  · constructor <;> simp [start, WorkerState.done, WorkerState.flushed]
  · exact fun _ _ _ _ hrun hseen hstep => hseen.preserved hrun hstep

/-- What an answer that the log is out says: the thread has exited, with all out that was sent before
its last look, or with a failure that an earlier `shutdown` has told. -/
structure Tells (s : State) (as : List Action) (outcome : Outcome) : Prop where
  exited : s.worker = .exited outcome
  flushed : outcome = .ok → Looked as s.output ∧ Flushed as
  failed : outcome ≠ .ok → FailedBefore as

theorem shutdown_tells (h : run step start as = some s) (htrue : s.guard = .returned (.done true)) :
    ∃ outcome, Tells s as outcome := by
  have hseen := seen_run h
  obtain ⟨outcome, hexited, hfailed⟩ := hseen.joined (hseen.answered htrue)
  refine ⟨outcome, hexited, ?_, hfailed.resolve_left⟩
  rintro rfl
  have hflushed := hseen.flushed (by rw [hexited]; rfl)
  exact ⟨hseen.looked (by rw [hexited]; rfl), hflushed, hseen.unfailed (by rw [hexited]; rfl)⟩

def drained : List Action :=
  [.makeWriter, .write 0 [104, 105], .dropLine 0, .trySend 0, .recv, .put 1, .shutdown, .look, .put 1, .timeout,
    .loadClosed, .flush, .finishedRecv, .exit, .join]

theorem shutdown_tells_drained :
    ∃ s, run step start drained = some s ∧ s.output = [104, 105] ∧ Tells s drained .ok := by
  have hrun : (run step start drained).map (fun s => (s.output, s.guard, s.worker)) =
      some ([104, 105], .returned (.done true), .exited .ok) := by
    decide
  obtain ⟨s, hs, hstate⟩ := Option.map_eq_some_iff.mp hrun
  simp only [Prod.mk.injEq] at hstate
  obtain ⟨houtput, hguard, hworker⟩ := hstate
  obtain ⟨outcome, htells⟩ := shutdown_tells hs hguard
  have hok : outcome = .ok := WorkerState.exited.inj (htells.exited.symm.trans hworker)
  exact ⟨s, hs, houtput, hok ▸ htells⟩

end IdaMcp.Logging
