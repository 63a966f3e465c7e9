import IdaMcp.Pool.Placed

namespace IdaMcp.Pool

open Foundation State Position

variable {cfg : WorkerPoolConfig} {s s₀ s' : State} {a : Action} {t : TaskId} {d : Bool}
  {p p' : Position} {w : WorkerId}

namespace Position

def scansLease : Position → Option Unit
  | leaseScan _ _ _ _ _ => some ()
  | _ => none

/-- A shutdown that has set the flag: whether it has also seen every startup end. -/
def shuts : Position → Option Bool
  | awaitStartups => some false
  | killSlots | awaitKills _ => some true
  | _ => none

def awaits : Position → Option (List TaskId)
  | awaitKills tasks => some tasks
  | _ => none

end Position

def killTask (w : WorkerId) : Task := ⟨.takeDead w none false (.stop .finished), true⟩

/-- What holds while a shutdown is under way. -/
structure Draining (s : State) : Prop where
  scanning : ∀ t, s.role scansLease t = some () → s.shuttingDown = false
  flagged : ∀ t b, s.role shuts t = some b → s.shuttingDown = true
  drained : ∀ t, s.role shuts t = some true → s.spawning = []
  killed : ∀ t tasks, s.role awaits t = some tasks → ∀ w ∈ s.children, s.stateOf w ≠ .dead →
    ∃ t' ∈ tasks, s.task t' = some (killTask w)

theorem task_killSlots_of_mem {slots : List WorkerId} (hfresh : s.Fresh) (hw : w ∈ slots) :
    ∃ t ∈ List.range' s.nextTask slots.length, (killSlots s slots).task t = some (killTask w) := by
  induction slots generalizing s with
  | nil => cases hw
  | cons w' slots ih =>
    let s₁ := s.spawn (.takeDead w' none false (.stop .finished)) true
    have hfresh₁ : s₁.Fresh := hfresh.spawn _ _
    rw [List.length_cons, List.range'_succ]
    rcases List.mem_cons.mp hw with rfl | hw
    · have hself : s₁.task s.nextTask = some (killTask w) := by
        simp [s₁, State.spawn, setTask, killTask]
      exact ⟨s.nextTask, List.mem_cons_self .., task_killSlots slots hfresh₁ hself⟩
    · obtain ⟨t, ht, hkill⟩ := ih hfresh₁ hw
      exact ⟨t, List.mem_cons_of_mem _ ht, hkill⟩

theorem kill_step (hfresh : s.Fresh) (hstep : step cfg s a = some s')
    (ht : s.task t = some (killTask w)) :
    s'.task t = some (killTask w) ∨ s'.stateOf w = .dead := by
  by_cases hactor : a.actor = some t
  · cases a with
    | run t' choice =>
      obtain rfl : t' = t := Option.some.inj hactor
      have hnext := next_of_step hstep ht
      cases choice with
      | proceed =>
        cases hnext
        right
        exact (stateOf_setState s w w .dead).trans (if_pos rfl)
      | _ => cases hnext
    | drop t' =>
      obtain rfl : t' = t := Option.some.inj hactor
      simp [step, ht, killTask] at hstep
    | _ => cases hactor
  · rcases task_kept hfresh (transition_of_step hstep) ht hactor with hkept | ⟨h, answer, hp, -⟩ |
      ⟨h, tool, tracksOpen, answer, hp, -⟩
    · exact .inl hkept
    · cases hp
    · cases hp

theorem poolLock_of_scansLease (hsound : Accounted cfg s) (ht : s.role scansLease t = some ()) :
    s.poolLock = some t := by
  obtain ⟨⟨p, d⟩, htask, hp⟩ := role_eq_some ht
  cases p with
  | leaseScan session lease rest active deadIds =>
    exact hsound.sound.scan_lock t (rest, active) (role_eq scanning htask)
  | _ => cases hp

theorem scansLease_taskStep (htasks : TaskStep cfg s a s') (ht : s'.role scansLease t = some ()) :
    s.role scansLease t = some () ∨ ∃ session lease d, s.task t = some ⟨.leaseLoop session lease, d⟩ := by
  rcases htasks.role ht with ⟨_, -, -, hold⟩ | ⟨p, p', d, hp, -, hadvance, hp'⟩ | ⟨p, -, hbegun, hp⟩
  · exact .inl hold
  · cases hadvance with
    | leaseScanBegun => exact .inr ⟨_, _, d, hp⟩
    | moved _ hmove =>
      cases hmove with
      | skipDead | countActive => exact .inl (role_eq scansLease hp)
      | closeNotSent | closeSendTimedOut | closeAnswered | closeTimedOut | closeLost =>
        rcases afterClosePosition_cases _ _ with ⟨e, -, -, hafter⟩ | ⟨-, hafter⟩ <;>
          rw [hafter] at hp' <;> cases hp'
      | _ => cases hp'
    | @leaseGone _ _ _ k | @forgot _ k | @replenished k => cases k <;> cases hp'
    | _ => cases hp'
  · have hbegins := hbegun.begins
    cases p with
    | leaseScan => cases hbegins
    | _ => cases hp

theorem shuts_taskStep {b : Bool} (htasks : TaskStep cfg s a s') (ht : s'.role shuts t = some b) :
    s.role shuts t = some b ∨ b = false ∧ (∃ d, s.task t = some ⟨.beginShutdown, d⟩) ∨
      b = true ∧ s.role shuts t = some false ∧ startups s = [] := by
  rcases htasks.role ht with ⟨_, -, -, hold⟩ | ⟨p, p', d, hp, -, hadvance, hp'⟩ | ⟨p, -, hbegun, hp⟩
  · exact .inl hold
  · cases hadvance with
    | shutdownBegun =>
      cases hp'
      exact .inr (.inl ⟨rfl, d, hp⟩)
    | slotsKilled =>
      cases hp'
      exact .inl (role_eq shuts hp)
    | moved _ hmove =>
      cases hmove with
      | startupsDone hidle =>
        cases hp'
        exact .inr (.inr ⟨rfl, role_eq shuts hp, hidle⟩)
      | closeNotSent | closeSendTimedOut | closeAnswered | closeTimedOut | closeLost =>
        rcases afterClosePosition_cases _ _ with ⟨e, -, -, hafter⟩ | ⟨-, hafter⟩ <;>
          rw [hafter] at hp' <;> cases hp'
      | _ => cases hp'
    | @leaseGone _ _ _ k | @forgot _ k | @replenished k => cases k <;> cases hp'
    | _ => cases hp'
  · have hbegins := hbegun.begins
    cases p with
    | awaitStartups | killSlots | awaitKills => cases hbegins
    | _ => cases hp

theorem next_of_role {α : Type*} {f : Position → Option α} {x : α} (hfresh : s.Fresh)
    (hstep : step cfg s a = some s') (ht : s.task t = some ⟨p, d⟩) (hp : f p = none)
    (hclose : ∀ h, p ≠ .releaseAwait h none) (hcall : ∀ h tool b, p ≠ .callAwait h tool b none)
    (ht' : s'.role f t = some x) : ∃ choice, next cfg s t p choice = some s' := by
  by_cases hactor : a.actor = some t
  · cases a with
    | run t' choice =>
      obtain rfl : t' = t := Option.some.inj hactor
      exact ⟨choice, next_of_step hstep ht⟩
    | drop t' =>
      obtain rfl : t' = t := Option.some.inj hactor
      have hgone := task_of_drop hfresh ht hstep
      simp [role, hgone] at ht'
    | _ => cases hactor
  · rcases task_kept hfresh (transition_of_step hstep) ht hactor with hkept | ⟨h, answer, rfl, -⟩ |
      ⟨h, tool, tracksOpen, answer, rfl, -⟩
    · rw [role_eq f hkept, hp] at ht'
      cases ht'
    · exact (hclose h rfl).elim
    · exact (hcall h tool tracksOpen rfl).elim

theorem leaseLoop_step (hfresh : s.Fresh) (hstep : step cfg s a = some s') {session : SessionId}
    {lease : LeaseId} (ht : s.task t = some ⟨.leaseLoop session lease, d⟩)
    (ht' : s'.role scansLease t = some ()) : s'.shuttingDown = false := by
  obtain ⟨choice, hnext⟩ := next_of_role hfresh hstep ht rfl nofun nofun ht'
  cases choice with
  | proceed =>
    simp only [next] at hnext
    split_ifs at hnext with hlock hshut
    · cases hnext
      rw [role_goto scansLease ht, Function.update_self] at ht'
      cases ht'
    · cases hnext
      exact Bool.eq_false_iff.mpr hshut
  | _ => cases hnext

theorem begin_step (hfresh : s.Fresh) (hstep : step cfg s a = some s')
    (ht : s.task t = some ⟨.beginShutdown, d⟩) {b : Bool} (ht' : s'.role shuts t = some b) :
    s'.shuttingDown = true := by
  obtain ⟨choice, hnext⟩ := next_of_role hfresh hstep ht rfl nofun nofun ht'
  cases choice with
  | proceed =>
    simp only [next] at hnext
    split_ifs at hnext
    cases hnext
    rfl
  | _ => cases hnext

theorem killSlots_step (hfresh : s.Fresh) (hstep : step cfg s a = some s')
    (ht : s.task t = some ⟨.killSlots, d⟩) {tasks : List TaskId} (ht' : s'.role awaits t = some tasks)
    (hw : w ∈ s.children) : ∃ t' ∈ tasks, s'.task t' = some (killTask w) := by
  obtain ⟨choice, hnext⟩ := next_of_role hfresh hstep ht rfl nofun nofun ht'
  cases choice with
  | proceed =>
    simp only [next] at hnext
    split_ifs at hnext
    cases hnext
    rw [role_goto awaits (task_killSlots s.children hfresh ht), Function.update_self] at ht'
    cases ht'
    obtain ⟨t', hmem, hkill⟩ := task_killSlots_of_mem hfresh hw
    refine ⟨t', hmem, ?_⟩
    rw [task_goto_of_ne, hkill]
    rintro rfl
    have hrange := List.mem_range'_1.mp hmem
    exact Nat.not_lt.mpr hrange.1 (hfresh.lt ht)
  | _ => cases hnext

theorem Draining.killed_step (h : Draining s) (hsound : Accounted cfg s) (href : Referred s)
    (hstep : step cfg s a = some s') {tasks : List TaskId} (ht : s'.role awaits t = some tasks)
    (hw : w ∈ s'.children) (hlive : s'.stateOf w ≠ .dead) :
    ∃ t' ∈ tasks, s'.task t' = some (killTask w) := by
  have htransition := transition_of_step hstep
  have installed {b : Bool} (hold : s.role shuts t = some b) : w ∈ s.children ∧ s.stateOf w ≠ .dead := by
    have hmem := ((children_transition href htransition).2 (h.flagged t b hold)).1 hw
    refine ⟨hmem, fun hdead => hlive ?_⟩
    exact dead_kept (slotStep_transition hsound.fresh htransition w) hdead
      (not_unbuilt_of_published (published_of_mem hsound hmem))
  rcases (taskStep_transition hsound.fresh htransition).role ht with ⟨⟨p, d⟩, hp, -, hold⟩ |
    ⟨p, p', d, hp, -, hadvance, hp'⟩ | ⟨p, -, hbegun, hp⟩
  · have hshuts : s.role shuts t = some true := by
      rw [role_eq awaits hp] at hold
      rw [role_eq shuts hp]
      cases p <;> cases hold
      rfl
    obtain ⟨hmem, hlive₀⟩ := installed hshuts
    obtain ⟨t', ht', hkill⟩ := h.killed t tasks hold w hmem hlive₀
    refine ⟨t', ht', ?_⟩
    rcases kill_step hsound.fresh hstep hkill with hkept | hdead
    · exact hkept
    · exact (hlive hdead).elim
  · cases hadvance with
    | slotsKilled =>
      exact killSlots_step hsound.fresh hstep hp ht (installed (role_eq shuts hp)).1
    | moved _ hmove =>
      cases hmove with
      | closeNotSent | closeSendTimedOut | closeAnswered | closeTimedOut | closeLost =>
        rcases afterClosePosition_cases _ _ with ⟨e, -, -, hafter⟩ | ⟨-, hafter⟩ <;>
          rw [hafter] at hp' <;> cases hp'
      | _ => cases hp'
    | @leaseGone _ _ _ k | @forgot _ k | @replenished k => cases k <;> cases hp'
    | _ => cases hp'
  · have hbegins := hbegun.begins
    cases p with
    | awaitKills => cases hbegins
    | _ => cases hp

theorem Draining.step (h : Draining s) (hsound : Accounted cfg s) (href : Referred s)
    (hstep : step cfg s a = some s') : Draining s' := by
  have htransition := transition_of_step hstep
  have htasks := taskStep_transition hsound.fresh htransition
  have hflag : s.shuttingDown = true → s'.shuttingDown = true := by
    intro hshut
    rcases shuttingDown_transition htransition with hsame | ⟨-, hset, -⟩
    · rw [hsame, hshut]
    · exact hset
  constructor
  · intro t ht
    rcases scansLease_taskStep htasks ht with hold | ⟨session, lease, d, hloop⟩
    · -- A scan holds the pool mutex, so the flag is not set under it.
      rcases shuttingDown_transition htransition with hsame | ⟨hfree, -⟩
      · rw [hsame, h.scanning t hold]
      · rw [poolLock_of_scansLease hsound hold] at hfree
        cases hfree
    · exact leaseLoop_step hsound.fresh hstep hloop ht
  · intro t b ht
    rcases shuts_taskStep htasks ht with hold | ⟨-, d, hbegin⟩ | ⟨-, hold, -⟩
    · exact hflag (h.flagged t b hold)
    · exact begin_step hsound.fresh hstep hbegin ht
    · exact hflag (h.flagged t false hold)
  · intro t ht
    have drained {b : Bool} (hold : s.role shuts t = some b) (hspawning : s.spawning = []) :
        s'.spawning = [] := by
      have hsub := ((children_transition href htransition).2 (h.flagged t b hold)).2
      rw [hspawning] at hsub
      exact List.subset_nil.mp hsub
    rcases shuts_taskStep htasks ht with hold | ⟨hb, -⟩ | ⟨-, hold, hidle⟩
    · exact drained hold (h.drained t hold)
    · cases hb
    · exact drained hold (hsound.startups_eq_nil_iff.mp hidle)
  · intro t tasks ht w hw hlive
    exact h.killed_step hsound href hstep ht hw hlive

theorem draining_warmed : Draining (warmed cfg) where
  scanning t ht := by cases ht
  flagged t b ht := by cases ht
  drained t ht := by cases ht
  killed t tasks ht := by cases ht

theorem Draining.leased_step (h : Draining s) (hfresh : s.Fresh) (hstep : Pool.step cfg s a = some s')
    (hshut : s.shuttingDown = true) {session : SessionId} {lease : LeaseId}
    (hleased : s'.stateOf w = .leased session lease) :
    s.stateOf w = .leased session lease ∨
      ∃ t d, s.task t = some ⟨.spawnSlot (.lease session lease) w, d⟩ := by
  have htransition := transition_of_step hstep
  cases (slotStep_transition hfresh htransition w).stateStep with
  | same hstate =>
    rw [hstate] at hleased
    exact .inl hleased
  | leased ha ht =>
    have hflag := h.scanning _ (role_eq scansLease ht)
    rw [hshut] at hflag
    cases hflag
  | @built t purpose d ht ht' hstate =>
    rw [hstate] at hleased
    cases purpose with
    | lease =>
      cases hleased
      exact .inr ⟨t, d, ht⟩
    | minimum => cases hleased
  | killed _ _ _ hstate | closing _ _ _ _ hstate | reset _ _ _ hstate =>
    rw [hstate] at hleased
    cases hleased

theorem Draining.starting_step (h : Draining s) (hfresh : s.Fresh)
    (hstep : Pool.step cfg s a = some s') (hshut : s.shuttingDown = true) {session : SessionId}
    {lease : LeaseId} (ht' : s'.task t = some ⟨.spawnSlot (.lease session lease) w, d⟩) :
    s.task t = some ⟨.spawnSlot (.lease session lease) w, d⟩ := by
  have hstarts : (Position.spawnSlot (.lease session lease) w).starts = some w := rfl
  rcases taskStep_transition hfresh (transition_of_step hstep) t _ d ht' with ht | ⟨p, ht, hadvance⟩ |
    ⟨-, hbegun⟩
  · exact ht
  · generalize hp' : Position.spawnSlot (.lease session lease) w = p' at hadvance hstarts
    cases hadvance with
    | leaseReserved =>
      have hflag := h.scanning t (role_eq scansLease ht)
      rw [hshut] at hflag
      cases hflag
    | moved _ hmove =>
      cases hmove with
      | closeNotSent | closeSendTimedOut | closeAnswered | closeTimedOut | closeLost =>
        rw [(afterClose_starts _ _).1] at hstarts
        cases hstarts
      | _ => cases hp'
    | @leaseGone _ _ _ k | @forgot _ k | @replenished k => cases k <;> cases hp'
    | _ => cases hp'
  · cases hbegun.begins

theorem Draining.issued_step (h : Draining s) (hstep : Pool.step cfg s a = some s')
    (hshut : s.shuttingDown = true) : s'.issued = s.issued := by
  rcases issued_cases (transition_of_step hstep) with hsame | ⟨t, w, session, lease, rfl, hnew,
    ⟨rest, active, deadIds, d, ht⟩ | ⟨d, ht, hdone⟩⟩
  · exact hsame
  · have hflag := h.scanning t (role_eq scansLease ht)
    rw [hshut] at hflag
    cases hflag
  · -- The worker has come up, but it is discarded.
    have hnext := next_of_step hstep ht
    simp only [next, finishSpawn, hshut] at hnext
    split_ifs at hnext
    cases hnext
    rfl

structure Serving (cfg : WorkerPoolConfig) (s : State) : Prop where
  accounted : Accounted cfg s
  kept : Kept s
  referred : Referred s
  draining : Draining s
  placed : Placed s

theorem Serving.step (h : Serving cfg s) (hstep : step cfg s a = some s') : Serving cfg s' where
  accounted := h.accounted.step hstep
  kept := h.kept.step h.accounted (transition_of_step hstep)
  referred := h.referred.step h.accounted (transition_of_step hstep)
  draining := h.draining.step h.accounted h.referred hstep
  placed := h.placed.step h.accounted h.kept h.referred hstep

theorem serving_of_reachable (h : Reachable (step cfg) (warmed cfg) s) : Serving cfg s :=
  invariant_of_reachable (fun _ _ _ hi ht => hi.step ht)
    ⟨⟨fresh_warmed, sound_warmed⟩, kept_warmed, referred_warmed, draining_warmed, placed_warmed⟩ h

/-- What the flag leaves possible, from the state `s₀` in which it is set. -/
structure Closed (s₀ s : State) : Prop where
  children : s.children ⊆ s₀.children
  issued : s.issued = s₀.issued
  starting : ∀ t d w session lease, s.task t = some ⟨.spawnSlot (.lease session lease) w, d⟩ →
    s₀.task t = some ⟨.spawnSlot (.lease session lease) w, d⟩
  leased : ∀ w session lease, s.stateOf w = .leased session lease →
    s₀.stateOf w = .leased session lease ∨
      ∃ t d, s₀.task t = some ⟨.spawnSlot (.lease session lease) w, d⟩

theorem Closed.step (h : Closed s₀ s) (hserving : Serving cfg s) (hshut : s.shuttingDown = true)
    (hstep : Pool.step cfg s a = some s') : Closed s₀ s' := by
  have hfresh := hserving.accounted.fresh
  have hdraining := hserving.draining
  constructor
  · have hsub := ((children_transition hserving.referred (transition_of_step hstep)).2 hshut).1
    exact List.Subset.trans hsub h.children
  · rw [hdraining.issued_step hstep hshut, h.issued]
  · intro t d w session lease ht
    exact h.starting t d w session lease (hdraining.starting_step hfresh hstep hshut ht)
  · intro w session lease hleased
    rcases hdraining.leased_step hfresh hstep hshut hleased with hleased₀ | ⟨t, d, ht⟩
    · exact h.leased w session lease hleased₀
    · exact .inr ⟨t, d, h.starting t d w session lease ht⟩

theorem closed_after_flag (hserving : Serving cfg s₀) (h : Reachable (step cfg) s₀ s)
    (hshut : s₀.shuttingDown = true) : Closed s₀ s := by
  let I (s : State) : Prop := (Serving cfg s ∧ s.shuttingDown = true) ∧ Closed s₀ s
  have hstep (s : State) (a : Action) (s' : State) (hi : I s) (hs : step cfg s a = some s') : I s' := by
    obtain ⟨⟨hserving, hshut⟩, hclosed⟩ := hi
    refine ⟨⟨hserving.step hs, ?_⟩, hclosed.step hserving hshut hs⟩
    rcases shuttingDown_transition (transition_of_step hs) with hsame | ⟨-, hset, -⟩
    · rw [hsame, hshut]
    · exact hset
  have hclosed₀ : Closed s₀ s₀ :=
    ⟨List.Subset.refl _, rfl, fun _ _ _ _ _ ht => ht, fun _ _ _ hw => .inl hw⟩
  exact (invariant_of_reachable hstep ⟨⟨hserving, hshut⟩, hclosed₀⟩ h).2

/-- Once the flag is set no slot is installed, no lease is given out, and the only slot that comes to
be leased is one that was being started for that lease; when a shutdown returns no startup is reserved
and every slot is dead. -/
theorem shutdown_final (h₀ : Reachable (step cfg) (warmed cfg) s₀) (h : Reachable (step cfg) s₀ s) :
    (s₀.shuttingDown = true → s.children ⊆ s₀.children ∧ s.issued = s₀.issued ∧
      ∀ w session lease, s.stateOf w = .leased session lease →
        s₀.stateOf w = .leased session lease ∨
          ∃ t d, s₀.task t = some ⟨.spawnSlot (.lease session lease) w, d⟩) ∧
    ∀ t tasks d, s.task t = some ⟨.awaitKills tasks, d⟩ →
      ∀ s', step cfg s (.run t .proceed) = some s' →
        s'.spawning = [] ∧ ∀ w, s'.stateOf w = .dead := by
  have hserving₀ := serving_of_reachable h₀
  have hserving := invariant_of_reachable (fun _ _ _ hi ht => Serving.step hi ht) hserving₀ h
  constructor
  · intro hshut
    have hclosed := closed_after_flag hserving₀ h hshut
    exact ⟨hclosed.children, hclosed.issued, hclosed.leased⟩
  · intro t tasks d ht s' hs'
    have hnext := next_of_step hs' ht
    simp only [next] at hnext
    split_ifs at hnext with hall
    cases hnext
    have hspawning : s.spawning = [] := hserving.draining.drained t (role_eq shuts ht)
    refine ⟨hspawning, ?_⟩
    intro w
    by_contra hlive
    rcases hserving.placed.placed w hlive with hmem | hmem
    · obtain ⟨t', ht', hkill⟩ := hserving.draining.killed t tasks (role_eq awaits ht) w hmem hlive
      have hdone := List.all_eq_true.mp hall t' ht'
      simp [isDone, hkill, killTask] at hdone
    · rw [hspawning] at hmem
      cases hmem

theorem shutdown_final_startup : ∃ s₀ s s' : State, Reachable (step ⟨2, 1, 5⟩) (warmed ⟨2, 1, 5⟩) s₀ ∧
    Reachable (step ⟨2, 1, 5⟩) s₀ s ∧ step ⟨2, 1, 5⟩ s (.run 2 .proceed) = some s' ∧
    s₀.shuttingDown = true ∧ s₀.stateOf 0 = .leased 0 1 ∧ s₀.spawning = [1] ∧
    s.children ⊆ s₀.children ∧ s.issued = s₀.issued ∧ s'.spawning = [] ∧
    ∀ w, s'.stateOf w = .dead := by
  -- A shutdown begins while the first worker is leased and a second one is being started.
  let begins : List Action := [.start (.lease 0), .run 0 .proceed, .run 0 .proceed, .run 0 .proceed,
    .start (.lease 1), .run 1 .proceed, .run 1 .proceed, .run 1 .proceed, .run 1 .proceed,
    .start .shutdownAll, .run 2 .proceed]
  let drains : List Action := [.run 1 .proceed, .run 1 .proceed, .run 1 .proceed, .run 1 .proceed,
    .run 1 .proceed, .run 2 .proceed, .run 2 .proceed, .run 3 .proceed, .run 3 .proceed]
  have hbegins : (run (step ⟨2, 1, 5⟩) (warmed ⟨2, 1, 5⟩) begins).map
      (fun s => (s.shuttingDown, s.spawning, s.stateOf 0)) = some (true, [1], .leased 0 1) := by
    decide +kernel
  have hdrains : ((run (step ⟨2, 1, 5⟩) (warmed ⟨2, 1, 5⟩) begins).bind
      fun s => run (step ⟨2, 1, 5⟩) s drains).map
      (fun s => (s.role awaits 2, (step ⟨2, 1, 5⟩ s (.run 2 .proceed)).isSome)) =
        some (some [3], true) := by
    decide +kernel
  obtain ⟨s₀, hs₀, hview₀⟩ := Option.map_eq_some_iff.mp hbegins
  rw [hs₀, Option.bind_some] at hdrains
  obtain ⟨s, hs, hview⟩ := Option.map_eq_some_iff.mp hdrains
  simp only [Prod.mk.injEq] at hview₀ hview
  obtain ⟨hshut, hspawning, hleased⟩ := hview₀
  obtain ⟨hawaits, hruns⟩ := hview
  obtain ⟨s', hs'⟩ := Option.isSome_iff_exists.mp hruns
  obtain ⟨⟨p, d⟩, ht, hp⟩ := role_eq_some hawaits
  cases p with
  | awaitKills tasks =>
    have hreach₀ : Reachable (step ⟨2, 1, 5⟩) (warmed ⟨2, 1, 5⟩) s₀ := ⟨begins, hs₀⟩
    have hreach : Reachable (step ⟨2, 1, 5⟩) s₀ s := ⟨drains, hs⟩
    obtain ⟨hclosed, hreturns⟩ := shutdown_final hreach₀ hreach
    obtain ⟨hchildren, hissued, -⟩ := hclosed hshut
    obtain ⟨hreserved, hdead⟩ := hreturns 2 tasks d ht s' hs'
    exact ⟨s₀, s, s', hreach₀, hreach, hs', hshut, hleased, hspawning, hchildren, hissued, hreserved,
      hdead⟩
  | _ => cases hp

/-- A worker whose handshake ends between the flag and the cancellation of the token comes up leased. -/
theorem leased_after_flag : ∃ s₀ s : State, Reachable (step ⟨2, 1, 5⟩) (warmed ⟨2, 1, 5⟩) s₀ ∧
    s₀.shuttingDown = true ∧ s₀.stateOf 1 = .dead ∧ Reachable (step ⟨2, 1, 5⟩) s₀ s ∧
    s.stateOf 1 = .leased 1 2 := by
  let begins : List Action := [.start (.lease 0), .run 0 .proceed, .run 0 .proceed, .run 0 .proceed,
    .start (.lease 1), .run 1 .proceed, .run 1 .proceed, .run 1 .proceed, .run 1 .proceed,
    .start .shutdownAll, .run 2 .proceed]
  have hbegins : (run (step ⟨2, 1, 5⟩) (warmed ⟨2, 1, 5⟩) begins).map
      (fun s => (s.shuttingDown, s.stateOf 1)) = some (true, .dead) := by
    decide +kernel
  have hcomes : ((run (step ⟨2, 1, 5⟩) (warmed ⟨2, 1, 5⟩) begins).bind
      fun s => run (step ⟨2, 1, 5⟩) s [.run 1 .proceed]).map
      (fun s => s.stateOf 1) = some (.leased 1 2) := by
    decide +kernel
  obtain ⟨s₀, hs₀, hview⟩ := Option.map_eq_some_iff.mp hbegins
  rw [hs₀, Option.bind_some] at hcomes
  obtain ⟨s, hs, hleased⟩ := Option.map_eq_some_iff.mp hcomes
  obtain ⟨hshut, hdead⟩ := Prod.mk.inj hview
  exact ⟨s₀, s, ⟨begins, hs₀⟩, hshut, hdead, ⟨_, hs⟩, hleased⟩

end IdaMcp.Pool
