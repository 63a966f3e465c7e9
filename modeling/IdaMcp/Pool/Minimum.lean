import IdaMcp.Pool.Published

namespace IdaMcp.Pool

open Foundation State Position

variable {cfg : WorkerPoolConfig} {s s' : State} {a : Action} {t : TaskId} {d : Bool}
  {p p' : Position} {w : WorkerId}

namespace Position

/-- A retirement that has taken its slot and has still to replenish. -/
def owes : Position → Option Unit
  | forgetSlot _ true _ | scheduleReplenishment _ => some ()
  | _ => none

def reaps : Position → Option (List WorkerId × ℕ)
  | reapScan _ _ rest liveCount => some (rest, liveCount)
  | _ => none

def steady : Position → Bool
  | unreserve _ _ | takeDead _ _ false _ | takeDead _ _ _ (.unreserve _ _)
  | forgetSlot _ _ (.unreserve _ _) | scheduleReplenishment (.unreserve _ _) | beginShutdown
  | awaitStartups | killSlots | awaitKills _ => false
  | _ => true

def inFlight : Position → Bool
  | spawnSlot _ _ | finishSpawn _ _ | unreserve _ _ | takeDead _ _ _ _ | forgetSlot _ _ _
  | scheduleReplenishment _ | reapScan _ _ _ _ => true
  | _ => false

end Position

namespace State

def workers (s : State) : ℕ := s.spawning.length + s.liveCount

def Owed (s : State) : Prop := ∃ t, s.role owes t = some ()

def othersOwe (s : State) (t : TaskId) : Bool :=
  (List.range s.nextTask).any fun t' => t' ≠ t && (s.role owes t').isSome

def reaping (s : State) : Bool := (List.range s.nextTask).any fun t => (s.role reaps t).isSome

def quiet (s : State) : Bool :=
  (List.range s.nextTask).all fun t => (s.task t).all fun task => !task.position.inFlight

end State

def spawnsSucceed (s : State) : Action → Bool
  | .start .shutdownAll | .run _ (.spawnFails _) => false
  | .drop t =>
    match s.task t with
    | some ⟨.spawnSlot _ _, _⟩ | some ⟨.finishSpawn _ _, _⟩ => false
    | _ => true
  | _ => true

/-- A retirement that replenishes finds no dead slot installed, or there are workers enough, or
another one is still to come; and none is dropped when the workers it owes are missed. -/
def replenishes (cfg : WorkerPoolConfig) (s : State) : Action → Bool
  | .run t _ =>
    match s.task t with
    | some ⟨.scheduleReplenishment _, _⟩ =>
      cfg.minWorkers ≤ s.workers || s.children.all s.isLive || s.othersOwe t
    | _ => true
  | .drop t =>
    (s.role owes t).isNone || s.othersOwe t || cfg.minWorkers ≤ s.workers && !s.reaping
  | _ => true

theorem countP_forget {ids : List WorkerId} (hdead : ∀ w ∈ ids, s.stateOf w = .dead) :
    (s.forget ids).children.countP s.isLive = s.liveCount := by
  change (s.children.filter (· ∉ ids)).countP s.isLive = s.children.countP s.isLive
  rw [List.countP_filter]
  apply List.countP_congr
  intro w hw
  simp only [Bool.and_eq_true, decide_eq_true_eq, and_iff_left_iff_imp]
  intro hlive hmem
  simp [isLive, hdead w hmem] at hlive

theorem length_unreserve (hsound : Accounted cfg s) (hw : w ∈ s.spawning) :
    (s.unreserve w).spawning.length + 1 = s.spawning.length := by
  change (s.spawning.filter (· ≠ w)).length + 1 = s.spawning.length
  have hnodup : s.spawning.Nodup := hsound.sound.reserved_nodup
  have herase : s.spawning.erase w = s.spawning.filter (· ≠ w) := by
    rw [hnodup.erase_eq_filter w]
    apply List.filter_congr
    intro w' _
    by_cases hw' : w' = w <;> simp [hw']
  have hpos := List.length_pos_of_mem hw
  rw [← herase, List.length_erase_of_mem hw]
  omega

theorem length_replenishTimes (n : ℕ) (s : State) :
    (replenishTimes n s).spawning.length = s.spawning.length + n := by
  induction n generalizing s with
  | zero => rfl
  | succ n ih =>
    rw [replenishTimes, ih]
    change (s.spawning ++ [s.nextId]).length + n = s.spawning.length + (n + 1)
    simp
    omega

theorem length_replenish (cfg : WorkerPoolConfig) (hrunning : s.shuttingDown = false) :
    (replenish cfg s).spawning.length =
      s.spawning.length + (minReplenished cfg - (s.spawning.length + s.children.length)) := by
  simp [replenish, hrunning, length_replenishTimes]

theorem population_transition (hsound : Accounted cfg s) (href : Referred s)
    (hsteady : ∀ t p d, s.task t = some ⟨p, d⟩ → p.steady = true)
    (hstep : Transition cfg s a s') :
    s.workers ≤ s'.spawning.length + s'.children.countP s.isLive ∧
      ∀ w ∈ s'.children, ¬ s.Unbuilt w := by
  have installed (w : WorkerId) (hw : w ∈ s.children) : ¬ s.Unbuilt w :=
    not_unbuilt_of_published (published_of_mem hsound hw)
  have kept {s₁ : State} (hchildren : s₁.children = s.children) (hspawning : s₁.spawning = s.spawning) :
      s.workers ≤ s₁.spawning.length + s₁.children.countP s.isLive ∧
        ∀ w ∈ s₁.children, ¬ s.Unbuilt w := by
    rw [hchildren, hspawning]
    exact ⟨Nat.le_refl _, installed⟩
  have forgets {s₁ : State} {ids : List WorkerId} (hdead : ∀ w ∈ ids, s.stateOf w = .dead)
      (hchildren : s₁.children = (s.forget ids).children)
      (hspawning : s.spawning.length ≤ s₁.spawning.length) :
      s.workers ≤ s₁.spawning.length + s₁.children.countP s.isLive ∧
        ∀ w ∈ s₁.children, ¬ s.Unbuilt w := by
    rw [hchildren, countP_forget hdead]
    exact ⟨Nat.add_le_add_right hspawning _, fun w hw => installed w (List.mem_filter.mp hw).1⟩
  have installs {s₁ : State} {t : TaskId} {purpose : Purpose} {w : WorkerId} {d : Bool}
      (ht : s.task t = some ⟨.finishSpawn purpose w, d⟩) (hchildren : s₁.children = s.children ++ [w])
      (hspawning : s₁.spawning = (s.unreserve w).spawning) :
      s.workers ≤ s₁.spawning.length + s₁.children.countP s.isLive ∧
        ∀ w ∈ s₁.children, ¬ s.Unbuilt w := by
    have howner : (ledger s).owner t = some w := role_eq reserves ht
    have halive : s.isLive w = true := by simpa [isLive] using href.finishing t w (role_eq finishes ht)
    have hlength := length_unreserve hsound (hsound.sound.mem t w howner).1
    rw [hchildren, hspawning, List.countP_append, List.countP_singleton, if_pos halive]
    constructor
    · change s.spawning.length + s.children.countP s.isLive ≤ _
      omega
    · intro w' hw'
      rcases List.mem_append.mp hw' with hw' | hw'
      · exact installed w' hw'
      · obtain rfl := List.mem_singleton.mp hw'
        rintro (hge | ⟨t', ht'⟩)
        · exact Nat.not_lt.mpr hge (hsound.sound.reserved_lt w' (hsound.sound.mem t w' howner).1)
        · obtain rfl := hsound.sound.unique t' t w' (reserves_of_starts ht') howner
          rw [role_eq starts ht] at ht'
          cases ht'
  cases hstep with
  | leaseRefused ht | leaseWaits ht =>
    exact forgets (fun w hw => (href.buried _ _ _ ht w hw).1) rfl (Nat.le_refl _)
  | leaseReserved ht =>
    refine forgets (fun w hw => (href.buried _ _ _ ht w hw).1) rfl ?_
    change s.spawning.length ≤ (s.spawning ++ [s.nextId]).length
    simp
  | installedLease ht => exact installs ht rfl rfl
  | installedMinimum ht => exact installs ht rfl rfl
  | unreserved ht => cases hsteady _ _ _ ht
  | slotsKilled ht => cases hsteady _ _ _ ht
  | @leaseGone t _ _ _ k =>
    obtain ⟨slot, task, h⟩ := resume_frame s t k
    exact kept (by rw [h]) (by rw [h])
  | @forgot t w k d ht =>
    obtain ⟨slot, task, h⟩ := resume_frame (s.forget [w]) t k
    rw [h]
    exact forgets (fun w' hw' => (href.buried _ _ _ ht w' hw').1) rfl (Nat.le_refl _)
  | forgotLost ht =>
    exact forgets (fun w hw => (href.buried _ _ _ ht w hw).1) rfl (Nat.le_refl _)
  | @replenished t k =>
    obtain ⟨slot, task', h'⟩ := resume_frame (replenish cfg s) t k
    have hlength : s.spawning.length ≤ (replenish cfg s).spawning.length := by
      unfold replenish
      split_ifs
      · exact Nat.le_refl _
      · rw [length_replenishTimes]
        exact Nat.le_add_right _ _
    obtain ⟨spawning, nextId, task, nextTask, -, -, h⟩ := replenish_frame cfg s
    rw [h] at hlength
    rw [h', h]
    exact ⟨Nat.add_le_add_right hlength _, installed⟩
  | @dropped t p =>
    obtain ⟨poolLock, slot, task, nextTask, -, h⟩ := dropTask_frame s t p
    exact kept (by rw [h]) (by rw [h])
  | @answered w request answer effect =>
    obtain ⟨task, h⟩ := deliver_frame (s.setSlot w { s.slot w with
      requests := (s.slot w).requests.erase request
      database := databaseAfter (s.slot w).database request effect }) request.task answer
    rw [h]
    exact kept rfl rfl
  | _ => exact kept rfl rfl

def Harmless (s s' : State) : Prop := ∀ w, ¬ s.Unbuilt w → s'.stateOf w = .dead → s.stateOf w = .dead

theorem isLive_kept (hharmless : Harmless s s') (hslot : SlotStep s a s' w) (hbuilt : ¬ s.Unbuilt w) :
    s'.isLive w = s.isLive w := by
  have hdead : s.stateOf w = .dead → s'.stateOf w = .dead := fun h => dead_kept hslot h hbuilt
  have hiff : s'.stateOf w = .dead ↔ s.stateOf w = .dead := ⟨hharmless w hbuilt, hdead⟩
  simp only [isLive, ne_eq, hiff]

theorem countP_kept (hharmless : Harmless s s') (hslots : ∀ w, SlotStep s a s' w) {ids : List WorkerId}
    (hbuilt : ∀ w ∈ ids, ¬ s.Unbuilt w) : ids.countP s'.isLive = ids.countP s.isLive := by
  apply List.countP_congr
  intro w hw
  rw [isLive_kept hharmless (hslots w) (hbuilt w hw)]

theorem harmless_of_stateOf (h : ∀ w, s'.stateOf w = s.stateOf w) : Harmless s s' := by
  intro w _ hdead
  rw [← h w, hdead]

theorem harmless_of_slotStep (hslot : ∀ w, SlotStep s a s' w)
    (hkills : ∀ t choice p d, a = .run t choice → s.task t = some ⟨p, d⟩ → p.kills = none) :
    Harmless s s' := by
  intro w hbuilt hdead
  cases (hslot w).stateStep with
  | same hstate => rwa [← hstate]
  | built ht _ _ => exact (hbuilt (.inr ⟨_, role_eq starts ht⟩)).elim
  | killed ha ht hp _ =>
    rw [hkills _ _ _ _ ha ht] at hp
    cases hp
  | leased _ _ _ _ hstate | closing _ _ _ _ hstate | reset _ _ _ hstate =>
    rw [hstate] at hdead
    cases hdead

theorem harmless_or (hslot : ∀ w, SlotStep s a s' w) (hstep : step cfg s a = some s') :
    Harmless s s' ∨
      (∃ t w lease replenish k d, s.task t = some ⟨.takeDead w lease replenish k, d⟩ ∧
        s' = (s.setState w .dead).goto t (.forgetSlot w replenish k)) ∨
      ∃ t w sleepStarted liveCount d, a = .run t .proceed ∧
        s.task t = some ⟨.reapScan w sleepStarted [] liveCount, d⟩ ∧ cfg.minWorkers < liveCount ∧
          s' = ((s.setState w .dead).setPoolLock none).goto t (.forgetSlot w false (.stop .finished)) := by
  by_cases hkills : ∀ t choice p d, a = .run t choice → s.task t = some ⟨p, d⟩ → p.kills = none
  · exact .inl (harmless_of_slotStep hslot hkills)
  · push Not at hkills
    obtain ⟨t, choice, p, d, rfl, ht, hp⟩ := hkills
    have hnext := next_of_step hstep ht
    cases p with
    | takeDead w lease replenish k =>
      cases choice with
      | proceed =>
        simp only [next, Option.some.injEq, takeDead] at hnext
        split_ifs at hnext
        · exact .inr (.inl ⟨t, w, lease, replenish, k, d, ht, hnext.symm⟩)
        · subst hnext
          exact .inl (harmless_of_stateOf fun w' => stateOf_resume s t k w')
      | _ => cases hnext
    | reapScan w sleepStarted rest liveCount =>
      cases choice with
      | proceed =>
        simp only [next, Option.some.injEq] at hnext
        subst hnext
        cases rest with
        | cons x rest => exact .inl (harmless_of_stateOf fun _ => rfl)
        | nil =>
          unfold reapScan
          split_ifs with htake
          · exact .inr (.inr ⟨t, w, sleepStarted, liveCount, d, rfl, ht, htake.1, rfl⟩)
          · exact .inl (harmless_of_stateOf fun _ => rfl)
      | _ => cases hnext
    | _ => exact (hp rfl).elim

theorem owes_kept (hfresh : s.Fresh) (hstep : step cfg s a = some s') (ht : s.role owes t = some ())
    (hdrop : a ≠ .drop t)
    (hrun : ∀ choice k d, a = .run t choice → s.task t ≠ some ⟨.scheduleReplenishment k, d⟩) :
    s'.role owes t = some () := by
  obtain ⟨⟨p, d⟩, htask, hp⟩ := role_eq_some ht
  by_cases hactor : a.actor = some t
  · cases a with
    | run t' choice =>
      obtain rfl := Option.some.inj hactor
      cases p with
      | forgetSlot w replenish k =>
        cases replenish with
        | false => cases hp
        | true =>
          have hnext := next_of_step hstep htask
          cases choice with
          | proceed =>
            simp only [next, if_true] at hnext
            split_ifs at hnext
            cases hnext
            exact role_eq owes (task_goto_self (s := s.forget [w]) htask _)
          | _ => cases hnext
      | scheduleReplenishment k => exact (hrun choice k d rfl htask).elim
      | _ => cases hp
    | drop t' =>
      obtain rfl := Option.some.inj hactor
      exact (hdrop rfl).elim
    | _ => cases hactor
  · rcases task_kept hfresh (transition_of_step hstep) htask hactor with hsame | ⟨h, answer, rfl, -⟩ |
      ⟨h, tool, tracksOpen, answer, rfl, -⟩
    · rw [role_eq owes hsame]
      exact hp
    · cases hp
    · cases hp

structure Restored (cfg : WorkerPoolConfig) (s : State) : Prop where
  steady : ∀ t p d, s.task t = some ⟨p, d⟩ → p.steady = true
  running : s.shuttingDown = false
  minimum : s.Owed ∨ cfg.minWorkers ≤ s.workers
  counted : ∀ t rest n, s.role reaps t = some (rest, n) →
    s.Owed ∨ n + rest.countP s.isLive ≤ s.workers

theorem steady_advance {slot : WorkerId → ChildSlot} (hadvance : Advance cfg s a slot t p p')
    (ht : s.task t = some ⟨p, d⟩) (hrunning : s.shuttingDown = false)
    (hok : spawnsSucceed s a = true) (hp : p.steady = true) : p'.steady = true := by
  cases hadvance with
  | moved ha hmove =>
    cases hmove with
    | closeNotSent | closeSendTimedOut | closeAnswered | closeTimedOut | closeLost =>
      rcases afterClosePosition_cases _ _ with ⟨e, -, -, hp'⟩ | ⟨-, hp'⟩ <;> rw [hp'] <;> rfl
    | spawnFailed hchoice =>
      rw [ha, hchoice] at hok
      cases hok
    | discard hlock hshut =>
      rw [hrunning] at hshut
      cases hshut
    | startupsDone => cases hp
    | _ => rfl
  | @leaseGone w l replenish k =>
    cases k with
    | unreserve => cases replenish <;> cases hp
    | _ => rfl
  | @forgot w k | @forgotLost w k | @replenished k =>
    cases k with
    | unreserve => cases hp
    | _ => rfl
  | @tookDead w lease replenish k =>
    cases replenish with
    | false => cases k <;> cases hp
    | true =>
      cases k with
      | unreserve => cases hp
      | _ => rfl
  | unreserved | shutdownBegun | slotsKilled => cases hp
  | _ => rfl

theorem steady_begun (hbegun : Begun s a p) (hok : spawnsSucceed s a = true)
    (hsteady : ∀ t p d, s.task t = some ⟨p, d⟩ → p.steady = true) : p.steady = true := by
  cases hbegun with
  | started operation ha hknown =>
    cases operation with
    | shutdownAll =>
      rw [ha] at hok
      cases hok
    | markDeadForLease h guarded => cases guarded <;> rfl
    | _ => rfl
  | minimum | reaper => rfl
  | killed ht => cases hsteady _ _ _ ht
  | @cleanup t p p' ha ht hdrop =>
    have hp := hsteady t p false ht
    rw [ha] at hok
    simp only [spawnsSucceed, ht] at hok
    rcases dropTask_eq_some hdrop with ⟨w, hguard, hcleanup⟩ | ⟨h, -, rfl⟩
    · cases p with
      | spawnSlot | finishSpawn => cases hok
      | unreserve => cases hp
      | takeDead _ _ r k =>
        cases k with
        | unreserve => cases r <;> cases hp
        | stop => cases hdrop
        | _ => cases hguard
      | forgetSlot _ _ k | scheduleReplenishment k =>
        cases k with
        | unreserve => cases hp
        | stop => cases hdrop
        | _ => cases hguard
      | releaseLock | releaseSend | releaseAwait | releaseReset | callAwait | callSettle => cases hguard
      | _ => cases hdrop
    · rfl

theorem scanning_of_reaps {x : List WorkerId × ℕ} (ht : s.role reaps t = some x) :
    s.role scanning t = some x := by
  obtain ⟨⟨p, d⟩, htask, hp⟩ := role_eq_some ht
  rw [role_eq scanning htask]
  cases p with
  | reapScan => exact hp
  | _ => cases hp

theorem reaps_cases {rest : List WorkerId} {n : ℕ} (htasks : TaskStep cfg s a s')
    (ht : s'.role reaps t = some (rest, n)) :
    s.role reaps t = some (rest, n) ∨
      (∃ x m, s.role reaps t = some (x :: rest, m) ∧ n = if s.isLive x then m + 1 else m) ∨
      rest = s.children ∧ n = s.spawning.length := by
  rcases htasks.role ht with ⟨_, -, -, hold⟩ | ⟨p, p', d, hp, -, hadvance, hp'⟩ | ⟨p, -, hbegun, hp⟩
  · exact .inl hold
  · cases hadvance with
    | moved _ hmove =>
      cases hmove with
      | closeNotSent | closeSendTimedOut | closeAnswered | closeTimedOut | closeLost =>
        rcases afterClosePosition_cases _ _ with ⟨e, -, -, hafter⟩ | ⟨-, hafter⟩ <;>
          rw [hafter] at hp' <;> cases hp'
      | @reapCount w sleepStarted x _ m =>
        cases hp'
        exact .inr (.inl ⟨x, m, role_eq reaps hp, rfl⟩)
      | _ => cases hp'
    | @leaseGone _ _ _ k | @forgot _ k | @replenished k => cases k <;> cases hp'
    | reapScanBegun =>
      cases hp'
      exact .inr (.inr ⟨rfl, rfl⟩)
    | _ => cases hp'
  · have hbegins := hbegun.begins
    cases p with
    | reapScan => cases hbegins
    | _ => cases hp

theorem Restored.counted_step {rest : List WorkerId} {n : ℕ} (h : Restored cfg s)
    (hsound : Accounted cfg s) (hharmless : Harmless s s') (hslots : ∀ w, SlotStep s a s' w)
    (htasks : TaskStep cfg s a s') (hworkers : s.workers ≤ s'.workers)
    (howed : (∃ t x, s.role reaps t = some x) → s.Owed → s'.Owed)
    (ht : s'.role reaps t = some (rest, n)) :
    s'.Owed ∨ n + rest.countP s'.isLive ≤ s'.workers := by
  have counted {ids : List WorkerId} {m : ℕ} (hold : s.role reaps t = some (ids, m)) :
      s'.Owed ∨ m + ids.countP s'.isLive ≤ s'.workers := by
    rcases h.counted t ids m hold with howes | hcount
    · exact .inl (howed ⟨t, _, hold⟩ howes)
    · right
      rw [countP_kept hharmless hslots fun w hw =>
        not_unbuilt_of_published (published_of_scanning hsound (scanning_of_reaps hold) hw)]
      exact Nat.le_trans hcount hworkers
  rcases reaps_cases htasks ht with hold | ⟨x, m, hold, rfl⟩ | ⟨rfl, rfl⟩
  · exact counted hold
  · rcases counted hold with howes | hcount
    · exact .inl howes
    · right
      have hx : ¬ s.Unbuilt x := not_unbuilt_of_published
        (published_of_scanning hsound (scanning_of_reaps hold) (List.mem_cons_self ..))
      rw [List.countP_cons, isLive_kept hharmless (hslots x) hx] at hcount
      split_ifs at hcount ⊢ <;> omega
  · right
    rw [countP_kept hharmless hslots fun w hw =>
      not_unbuilt_of_published (published_of_mem hsound hw)]
    exact hworkers

theorem role_owes_of_othersOwe (h : s.othersOwe t = true) : ∃ t', t' ≠ t ∧ s.role owes t' = some () := by
  obtain ⟨t', -, ht'⟩ := List.any_eq_true.mp h
  rw [Bool.and_eq_true, decide_eq_true_eq] at ht'
  obtain ⟨hne, howes⟩ := ht'
  obtain ⟨_, howes⟩ := Option.isSome_iff_exists.mp howes
  exact ⟨t', hne, howes⟩

theorem role_reaps_of_reaping (hfresh : s.Fresh) (h : s.reaping = false) :
    ¬ ∃ t x, s.role reaps t = some x := by
  rintro ⟨t, x, ht⟩
  obtain ⟨task, htask, -⟩ := role_eq_some ht
  have hmem : t ∈ List.range s.nextTask := List.mem_range.mpr (hfresh.lt htask)
  have hnone := List.any_eq_false.mp h t hmem
  rw [ht] at hnone
  exact hnone rfl

/-- Replenishment brings the workers up to the minimum when no dead slot is left installed. -/
theorem workers_replenish {k : Continuation} (hle : cfg.minWorkers ≤ cfg.maxWorkers)
    (hrunning : s.shuttingDown = false) (hlive : s.children.all s.isLive = true) :
    cfg.minWorkers ≤ (resume (replenish cfg s) t k).workers := by
  have hcount : s.liveCount = s.children.length := List.countP_eq_length.mpr (List.all_eq_true.mp hlive)
  have hmin : minReplenished cfg = cfg.minWorkers := Nat.min_eq_left hle
  have hlength := length_replenish cfg hrunning
  obtain ⟨spawning, nextId, task, nextTask, -, -, h⟩ := replenish_frame cfg s
  have hkept : (replenish cfg s).liveCount = s.liveCount := by rw [h]; rfl
  have hresume : (resume (replenish cfg s) t k).workers = (replenish cfg s).workers := by
    obtain ⟨slot, task', h'⟩ := resume_frame (replenish cfg s) t k
    have hlive' : (resume (replenish cfg s) t k).isLive = (replenish cfg s).isLive := by
      funext w
      rw [isLive, isLive, stateOf_resume]
    simp only [workers, liveCount, hlive']
    rw [h']
  rw [hresume, workers, hkept]
  omega

theorem Restored.owed_step (h : Restored cfg s) (hsound : Accounted cfg s)
    (hle : cfg.minWorkers ≤ cfg.maxWorkers) (hreplenishes : replenishes cfg s a = true)
    (hstep : step cfg s a = some s') (hworkers : s.workers ≤ s'.workers) (howed : s.Owed) :
    s'.Owed ∨ cfg.minWorkers ≤ s'.workers ∧ ¬ ∃ t x, s.role reaps t = some x := by
  obtain ⟨t, ht⟩ := howed
  have others {t : TaskId} (hactor : a.actor = some t) (hothers : s.othersOwe t = true) : s'.Owed := by
    obtain ⟨t', hne, ht'⟩ := role_owes_of_othersOwe hothers
    refine ⟨t', owes_kept hsound.fresh hstep ht' ?_ ?_⟩
    · rintro rfl
      exact hne (Option.some.inj hactor)
    · rintro choice k d rfl
      exact (hne (Option.some.inj hactor)).elim
  by_cases hdrop : a = .drop t
  · subst hdrop
    simp only [replenishes, ht, Option.isNone_some, Bool.false_or, Bool.or_eq_true, Bool.and_eq_true,
      decide_eq_true_eq, Bool.not_eq_true'] at hreplenishes
    rcases hreplenishes with hothers | ⟨hmin, hreaping⟩
    · exact .inl (others rfl hothers)
    · exact .inr ⟨Nat.le_trans hmin hworkers, role_reaps_of_reaping hsound.fresh hreaping⟩
  · by_cases hrun : ∃ choice k d, a = .run t choice ∧ s.task t = some ⟨.scheduleReplenishment k, d⟩
    · obtain ⟨choice, k, d, rfl, htask⟩ := hrun
      have hnext := next_of_step hstep htask
      cases choice with
      | proceed =>
        simp only [next] at hnext
        split_ifs at hnext with hlock
        have hreaps : ¬ ∃ t x, s.role reaps t = some x := by
          rintro ⟨t', x, ht'⟩
          have hheld := hsound.sound.scan_lock t' x (scanning_of_reaps ht')
          change s.poolLock = some t' at hheld
          rw [hlock] at hheld
          cases hheld
        simp only [replenishes, htask, Bool.or_eq_true, decide_eq_true_eq] at hreplenishes
        rcases hreplenishes with (hmin | hlive) | hothers
        · exact .inr ⟨Nat.le_trans hmin hworkers, hreaps⟩
        · cases hnext
          exact .inr ⟨workers_replenish hle h.running hlive, hreaps⟩
        · exact .inl (others rfl hothers)
      | _ => cases hnext
    · refine .inl ⟨t, owes_kept hsound.fresh hstep ht hdrop ?_⟩
      intro choice k d ha htask
      exact hrun ⟨choice, k, d, ha, htask⟩

theorem countP_le_add_count {items : List WorkerId} {f g : WorkerId → Bool}
    (h : ∀ i, i ≠ w → f i = true → g i = true) : items.countP f ≤ items.countP g + items.count w := by
  induction items with
  | nil => exact Nat.le_refl _
  | cons i items ih =>
    by_cases hi : i = w
    · subst hi
      rw [List.count_cons_self, List.countP_cons, List.countP_cons]
      split_ifs <;> omega
    · rw [List.count_cons_of_ne hi, List.countP_cons, List.countP_cons]
      by_cases hf : f i = true
      · rw [if_pos hf, if_pos (h i hi hf)]
        omega
      · rw [if_neg hf]
        split_ifs <;> omega

theorem workers_setState_dead (hsound : Accounted cfg s) (w : WorkerId) :
    s.workers ≤ (s.setState w .dead).workers + 1 := by
  have hcount : s.children.countP s.isLive ≤
      s.children.countP (s.setState w .dead).isLive + s.children.count w := by
    apply countP_le_add_count
    intro i hi hlive
    rwa [isLive, stateOf_setState, if_neg hi]
  have hnodup : s.children.Nodup := hsound.sound.installed_nodup
  have hone := List.nodup_iff_count_le_one.mp hnodup w
  change s.spawning.length + s.children.countP s.isLive ≤
    s.spawning.length + s.children.countP (s.setState w .dead).isLive + 1
  omega

theorem Restored.step (h : Restored cfg s) (hsound : Accounted cfg s) (href : Referred s)
    (hle : cfg.minWorkers ≤ cfg.maxWorkers) (hspawns : spawnsSucceed s a = true)
    (hreplenishes : replenishes cfg s a = true) (hstep : step cfg s a = some s') :
    Restored cfg s' := by
  have htransition := transition_of_step hstep
  have htasks := taskStep_transition hsound.fresh htransition
  have hslots := slotStep_transition hsound.fresh htransition
  have hsteady : ∀ t p d, s'.task t = some ⟨p, d⟩ → p.steady = true := by
    intro t p' d ht'
    rcases htasks t p' d ht' with ht | ⟨p, ht, hadvance⟩ | ⟨-, hbegun⟩
    · exact h.steady t p' d ht
    · exact steady_advance hadvance ht h.running hspawns (h.steady t p d ht)
    · exact steady_begun hbegun hspawns h.steady
  have hrunning : s'.shuttingDown = false := by
    rcases shuttingDown_transition htransition with hsame | ⟨-, -, t, d, ht⟩
    · rw [hsame, h.running]
    · cases h.steady t _ d ht
  rcases harmless_or hslots hstep with hharmless | ⟨t, w, lease, replenish, k, d, ht, rfl⟩ |
    ⟨t, w, sleepStarted, n, d, rfl, ht, hn, rfl⟩
  · have hpopulation := population_transition hsound href h.steady htransition
    have hworkers : s.workers ≤ s'.workers := by
      rw [← countP_kept hharmless hslots hpopulation.2] at hpopulation
      exact hpopulation.1
    have howed := h.owed_step hsound hle hreplenishes hstep hworkers
    refine ⟨hsteady, hrunning, ?_, ?_⟩
    · rcases h.minimum with hold | hmin
      · exact (howed hold).imp_right And.left
      · exact .inr (Nat.le_trans hmin hworkers)
    · intro t rest n ht
      refine h.counted_step hsound hharmless hslots htasks hworkers ?_ ht
      intro hreaps hold
      rcases howed hold with hnew | ⟨-, hnone⟩
      · exact hnew
      · exact (hnone hreaps).elim
  · -- a retirement owes the worker that it has just killed
    have howed : State.Owed ((s.setState w .dead).goto t (.forgetSlot w replenish k)) := by
      cases replenish with
      | false => cases h.steady t _ d ht
      | true => exact ⟨t, role_eq owes (task_goto_self (s := s.setState w .dead) ht _)⟩
    exact ⟨hsteady, hrunning, .inl howed, fun _ _ _ _ => .inl howed⟩
  · -- the reap has counted more workers than the minimum, and holds the lock that a count needs
    refine ⟨hsteady, hrunning, ?_, ?_⟩
    · rcases h.counted t [] n (role_eq reaps ht) with ⟨t', ht'⟩ | hcount
      · left
        refine ⟨t', owes_kept hsound.fresh hstep ht' nofun ?_⟩
        rintro choice k d' ha ht''
        cases ha
        rw [ht] at ht''
        cases ht''
      · right
        have hcost := workers_setState_dead hsound w
        change cfg.minWorkers ≤ (s.setState w .dead).workers
        simp only [List.countP_nil] at hcount
        omega
    · intro t' rest m ht'
      have hkilled : ((s.setState w .dead).setPoolLock none).task t =
          some ⟨.reapScan w sleepStarted [] n, d⟩ := ht
      rw [role_goto reaps hkilled, Function.update_apply] at ht'
      split_ifs at ht' with htt
      · cases ht'
      · have hscan := scanning_of_reaps (s := s) (t := t') ht'
        exact (htt (hsound.sound.eq_of_scan (role_eq scanning ht) hscan)).elim

/-- A state to start from: there are workers enough, and no reap has counted more than there are. -/
structure Poised (cfg : WorkerPoolConfig) (s : State) : Prop where
  steady : ∀ t p d, s.task t = some ⟨p, d⟩ → p.steady = true
  running : s.shuttingDown = false
  minimum : cfg.minWorkers ≤ s.workers
  counted : ∀ t rest n, s.role reaps t = some (rest, n) → n + rest.countP s.isLive ≤ s.workers

theorem poised_warmed (hle : cfg.minWorkers ≤ cfg.maxWorkers) : Poised cfg (warmed cfg) where
  steady t p d ht := by cases ht
  running := rfl
  minimum := by
    have hlive : (warmed cfg).liveCount = minReplenished cfg := by
      have hall : ∀ w ∈ (warmed cfg).children, (warmed cfg).isLive w = true := by
        intro w hw
        have hlt : w < minReplenished cfg := List.mem_range.mp hw
        simp [isLive, stateOf, warmed, newSlot, hlt]
      exact (List.countP_eq_length.mpr hall).trans List.length_range
    have hmin : minReplenished cfg = cfg.minWorkers := Nat.min_eq_left hle
    rw [workers, hlive, hmin]
    exact Nat.le_add_left _ _
  counted t rest n ht := by cases ht

theorem spawning_of_quiet (hsound : Accounted cfg s) (hquiet : ∀ t p d, s.task t = some ⟨p, d⟩ →
    p.inFlight = false) : s.spawning = [] := by
  rw [List.eq_nil_iff_forall_not_mem]
  intro w hw
  obtain ⟨t, ht⟩ := hsound.sound.owned w hw
  obtain ⟨⟨p, d⟩, htask, hp⟩ := role_eq_some ht
  have hflight := hquiet t p d htask
  cases p with
  | spawnSlot | finishSpawn | unreserve | takeDead | forgetSlot | scheduleReplenishment => cases hflight
  | _ => cases hp

/-- A run in which spawns succeed and retirements replenish comes to rest with the minimum live. -/
theorem minimum_restored {s₀ : State} (hle : cfg.minWorkers ≤ cfg.maxWorkers)
    (hreach : Reachable (step cfg) (warmed cfg) s₀) (hpoised : Poised cfg s₀)
    (hrun : ReachableBy (step cfg)
      (fun s a => spawnsSucceed s a = true ∧ replenishes cfg s a = true) s₀ s)
    (hquiet : s.quiet = true) : cfg.minWorkers ≤ s.liveCount := by
  have hstart : Accounted cfg s₀ ∧ Referred s₀ := by
    refine invariant_of_reachable (I := fun s => Accounted cfg s ∧ Referred s) ?_
      ⟨⟨fresh_warmed, sound_warmed⟩, referred_warmed⟩ hreach
    rintro s a s' ⟨hsound, href⟩ hstep
    exact ⟨hsound.step hstep, href.step hsound (transition_of_step hstep)⟩
  have hall : (Accounted cfg s ∧ Referred s) ∧ Restored cfg s := by
    refine invariant_of_meets (I := fun s => (Accounted cfg s ∧ Referred s) ∧ Restored cfg s) ?_ ?_ hrun
    · rintro s a s' ⟨⟨hsound, href⟩, hrestored⟩ ⟨hspawns, hreplenishes⟩ hstep
      exact ⟨⟨hsound.step hstep, href.step hsound (transition_of_step hstep)⟩,
        hrestored.step hsound href hle hspawns hreplenishes hstep⟩
    · refine ⟨hstart, hpoised.steady, hpoised.running, .inr hpoised.minimum, ?_⟩
      exact fun t rest n ht => .inr (hpoised.counted t rest n ht)
  obtain ⟨⟨hsound, -⟩, hrestored⟩ := hall
  have hrest : ∀ t p d, s.task t = some ⟨p, d⟩ → p.inFlight = false := by
    intro t p d ht
    have hmem : t ∈ List.range s.nextTask := List.mem_range.mpr (hsound.fresh.lt ht)
    have hflight := List.all_eq_true.mp hquiet t hmem
    simpa [ht] using hflight
  rcases hrestored.minimum with ⟨t, ht⟩ | hmin
  · obtain ⟨⟨p, d⟩, htask, hp⟩ := role_eq_some ht
    have hflight := hrest t p d htask
    cases p with
    | forgetSlot | scheduleReplenishment => cases hflight
    | _ => cases hp
  · rw [workers, spawning_of_quiet hsound hrest] at hmin
    simpa using hmin

theorem minimum_restored_mark_dead :
    ∃ s : State, s.stateOf 0 = .dead ∧ s.quiet = true ∧ 1 ≤ s.liveCount := by
  let actions : List Action := [.start (.lease 0), .run 0 .proceed, .run 0 .proceed, .run 0 .proceed,
    .start (.markDead ⟨0, 0, 1, false⟩), .run 1 .proceed, .run 1 .proceed, .run 1 .proceed,
    .run 2 .proceed, .run 2 .proceed]
  have hmeets : Meets (step ⟨2, 1, 5⟩)
      (fun s a => spawnsSucceed s a = true ∧ replenishes ⟨2, 1, 5⟩ s a = true)
      (warmed ⟨2, 1, 5⟩) actions := by decide +kernel
  have hend : (run (step ⟨2, 1, 5⟩) (warmed ⟨2, 1, 5⟩) actions).map
      (fun s => (s.stateOf 0, s.quiet)) = some (.dead, true) := by decide +kernel
  obtain ⟨s, hs, hpair⟩ := Option.map_eq_some_iff.mp hend
  obtain ⟨hdead, hquiet⟩ := Prod.mk.inj hpair
  exact ⟨s, hdead, hquiet, minimum_restored (by decide) (Reachable.refl _)
    (poised_warmed (by decide)) ⟨actions, hmeets, hs⟩ hquiet⟩

/-- A retirement that replenishes between an idle reap's kill and its forgetting counts the slot that
the reap has killed. -/
theorem reap_hides_retirement : Poised ⟨2, 1, 5⟩ (warmed ⟨2, 1, 5⟩) ∧
    ∃ s, ReachableBy (step ⟨2, 1, 5⟩) (fun s a => spawnsSucceed s a = true) (warmed ⟨2, 1, 5⟩) s ∧
      s.quiet = true ∧ s.liveCount = 0 := by
  -- slots 0 and 1 are leased and slot 0 is released, so that task 3 reaps it
  let actions : List Action := [.start (.lease 0), .run 0 .proceed, .run 0 .proceed, .run 0 .proceed,
    .start (.lease 1), .run 1 .proceed, .run 1 .proceed, .run 1 .proceed, .run 1 .proceed,
    .run 1 .proceed, .run 1 .proceed,
    .start (.release ⟨0, 0, 1, false⟩), .run 2 .proceed, .run 2 .proceed,
    .childAnswer 0 ⟨2, 1, "close_idb"⟩ (.result ⟨[], some false, none⟩) .closes,
    .run 2 .proceed, .run 2 .proceed, .run 2 .proceed,
    .run 3 .proceed, .tick 5, .run 3 .proceed, .run 3 .proceed, .run 3 .proceed, .run 3 .proceed,
    .start (.markDead ⟨1, 1, 2, false⟩), .run 4 .proceed, .run 4 .proceed, .run 4 .proceed,
    .run 3 .proceed]
  have hmeets : Meets (step ⟨2, 1, 5⟩) (fun s a => spawnsSucceed s a = true) (warmed ⟨2, 1, 5⟩)
      actions := by decide +kernel
  have hend : (run (step ⟨2, 1, 5⟩) (warmed ⟨2, 1, 5⟩) actions).map
      (fun s => (s.quiet, s.liveCount)) = some (true, 0) := by decide +kernel
  obtain ⟨s, hs, hpair⟩ := Option.map_eq_some_iff.mp hend
  obtain ⟨hquiet, hlive⟩ := Prod.mk.inj hpair
  exact ⟨poised_warmed (by decide), s, ⟨actions, hmeets, hs⟩, hquiet, hlive⟩

end IdaMcp.Pool
