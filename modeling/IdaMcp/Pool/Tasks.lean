import IdaMcp.Pool.Roles

namespace IdaMcp.Pool

open State

/-- The positions between which one step takes task `t`, with what it does to the slots. -/
inductive Advance (cfg : WorkerPoolConfig) (s : State) (a : Action) (slot : WorkerId → ChildSlot)
    (t : TaskId) : Position → Position → Prop
  | moved {choice : Choice} {before after : Position} (ha : a = .run t choice)
    (hmove : Move cfg s choice before after) :
    Advance cfg s a slot t before after
  | tookLeaseId {session} :
    Advance cfg s a slot t (.takeLeaseId session) (.leaseLoop session (s.nextLeaseId + 1))
  | leaseScanBegun {session lease} :
    Advance cfg s a slot t (.leaseLoop session lease)
      (.leaseScan session lease s.children s.spawning.length [])
  | leasedIdle {session lease w rest active deadIds} (hidle : s.stateOf w = .idle)
    (hslot : (slot w).state = .leased session lease) :
    Advance cfg s a slot t (.leaseScan session lease (w :: rest) active deadIds)
      (.done (.leased ⟨w, session, lease, false⟩))
  | leaseRefused {session lease active deadIds error} :
    Advance cfg s a slot t (.leaseScan session lease [] active deadIds) (.done (.error error))
  | leaseWaits {session lease active deadIds} :
    Advance cfg s a slot t (.leaseScan session lease [] active deadIds) (.leaseLoop session lease)
  | leaseReserved {session lease active deadIds} :
    Advance cfg s a slot t (.leaseScan session lease [] active deadIds)
      (.spawnSlot (.lease session lease) s.nextId)
  | spawned {purpose w} (hslot : slot w = newSlot purpose.initialState s.now) :
    Advance cfg s a slot t (.spawnSlot purpose w) (.finishSpawn purpose w)
  | installedLease {session lease w} :
    Advance cfg s a slot t (.finishSpawn (.lease session lease) w)
      (.done (.leased ⟨w, session, lease, false⟩))
  | installedMinimum {w} : Advance cfg s a slot t (.finishSpawn .minimum w) (.done .finished)
  | unreserved {w outcome} : Advance cfg s a slot t (.unreserve w outcome) (.done outcome)
  | tookDead {w lease replenish k} (hslot : (slot w).state = .dead) :
    Advance cfg s a slot t (.takeDead w lease replenish k) (.forgetSlot w replenish k)
  | leaseGone {w l replenish k} (hgone : (s.stateOf w).belongsToLease l = false) :
    Advance cfg s a slot t (.takeDead w (some l) replenish k) k.position
  | forgot {w k} : Advance cfg s a slot t (.forgetSlot w false k) k.position
  | forgotLost {w k} : Advance cfg s a slot t (.forgetSlot w true k) (.scheduleReplenishment k)
  | replenished {k} : Advance cfg s a slot t (.scheduleReplenishment k) k.position
  | closing {h} (hslot : (slot h.workerId).state = .closing h.leaseId)
    (hlock : (slot h.workerId).callLock = some t) :
    Advance cfg s a slot t (.releaseLock h) (.releaseSend h)
  | closeSent {h} : Advance cfg s a slot t (.releaseSend h) (.releaseAwait h none)
  | closeReply {h answer w request effect} (ha : a = .childAnswer w request answer effect)
    (hrequest : request ∈ (s.slot w).requests)
    (htask : request.task = t) (heffect : effectAllowed request answer effect = true)
    (hslot : (slot w).database = databaseAfter (s.slot w).database request effect) :
    Advance cfg s a slot t (.releaseAwait h none) (.releaseAwait h (some answer))
  | reset {h error outcome} :
    Advance cfg s a slot t (.releaseReset h error) (.releaseIdleCheck h outcome)
  | reapScheduled {h outcome} : Advance cfg s a slot t (.releaseIdleCheck h outcome) (.done outcome)
  | callSent {h tool tracksOpen} (hlock : (slot h.workerId).callLock = some t) :
    Advance cfg s a slot t (.callAdmission h tool tracksOpen) (.callAwait h tool tracksOpen none)
  | callSendLost {h tool tracksOpen error} (hlock : (slot h.workerId).callLock = some t) :
    Advance cfg s a slot t (.callAdmission h tool tracksOpen)
      (.takeDead h.workerId (some h.leaseId) true (.settleCall h (.error error)))
  | callReply {h tool tracksOpen answer} :
    Advance cfg s a slot t (.callAwait h tool tracksOpen none)
      (.callAwait h tool tracksOpen (some answer))
  | callEnded {h tool tracksOpen answer outcome} :
    Advance cfg s a slot t (.callAwait h tool tracksOpen answer) (.done outcome)
  | settleEnded {h tool outcome outcome'} :
    Advance cfg s a slot t (.callSettle h tool outcome) (.done outcome')
  | reapScanBegun {w sleepStarted} :
    Advance cfg s a slot t (.reapSleep w sleepStarted)
      (.reapScan w sleepStarted s.children s.spawning.length)
  | reapTook {w sleepStarted liveCount} (hlive : cfg.minWorkers < liveCount)
    (hslot : (slot w).state = .dead) :
    Advance cfg s a slot t (.reapScan w sleepStarted [] liveCount)
      (.forgetSlot w false (.stop .finished))
  | reapKept {w sleepStarted liveCount} :
    Advance cfg s a slot t (.reapScan w sleepStarted [] liveCount) (.done .finished)
  | shutdownBegun : Advance cfg s a slot t .beginShutdown .awaitStartups
  | slotsKilled {tasks} : Advance cfg s a slot t .killSlots (.awaitKills tasks)

inductive Begun (s : State) (a : Action) : Position → Prop
  | started (operation : Operation) (ha : a = .start operation)
    (hknown : operation.known s = true) : Begun s a operation.position
  | minimum {w : WorkerId} (hw : s.nextId ≤ w) : Begun s a (.spawnSlot .minimum w)
  | reaper {t : TaskId} {h : PooledWorkerHandle} {outcome : Outcome} {d : Bool}
    (ht : s.task t = some ⟨.releaseIdleCheck h outcome, d⟩) : Begun s a (.reapStart h.workerId)
  | killed {t : TaskId} {w : WorkerId} {d : Bool} (ht : s.task t = some ⟨.killSlots, d⟩)
    (hw : w ∈ s.children) : Begun s a (.takeDead w none false (.stop .finished))
  | cleanup {t : TaskId} {p p' : Position} (ha : a = .drop t) (ht : s.task t = some ⟨p, false⟩)
    (hdrop : p.dropTask = some p') : Begun s a p'

variable {cfg : WorkerPoolConfig} {s u s' : State} {a : Action} {t : TaskId} {d : Bool} {p p' : Position}

def Position.begins : Position → Bool
  | takeLeaseId _ | releaseLock _ | callAdmission _ _ _ | beginShutdown | spawnSlot .minimum _
  | reapStart _ | takeDead _ _ _ _ | unreserve _ _ => true
  | _ => false

theorem Begun.begins (h : Begun s a p) : p.begins = true := by
  cases h with
  | started operation => cases operation <;> rfl
  | minimum | reaper | killed => rfl
  | cleanup _ _ hdrop =>
    rcases dropTask_eq_some hdrop with ⟨w, -, rfl | rfl⟩ | ⟨h, -, rfl⟩ <;> rfl

def TaskStep (cfg : WorkerPoolConfig) (s : State) (a : Action) (s' : State) : Prop :=
  ∀ t p' d, s'.task t = some ⟨p', d⟩ →
    s.task t = some ⟨p', d⟩ ∨ (∃ p, s.task t = some ⟨p, d⟩ ∧ Advance cfg s a s'.slot t p p') ∨
      s.nextTask ≤ t ∧ Begun s a p'

def TasksBegun (s : State) (a : Action) (s' : State) : Prop :=
  ∀ t p d, s'.task t = some ⟨p, d⟩ → s.task t = some ⟨p, d⟩ ∨ s.nextTask ≤ t ∧ Begun s a p

theorem tasksBegun_of_eq (h : s'.task = s.task) : TasksBegun s a s' := by
  intro t p d ht
  rw [h] at ht
  exact .inl ht

theorem TasksBegun.taskStep (h : TasksBegun s a s') : TaskStep cfg s a s' := by
  intro t p d ht
  rcases h t p d ht with hold | hnew
  · exact .inl hold
  · exact .inr (.inr hnew)

theorem TasksBegun.setTask_none (h : TasksBegun s a u) (t : TaskId) :
    TasksBegun s a (u.setTask t none) := by
  intro t' p d ht'
  by_cases htt : t' = t
  · subst htt
    simp [setTask] at ht'
  · simp only [setTask, Function.update_of_ne htt] at ht'
    exact h t' p d ht'

theorem TasksBegun.spawn (h : TasksBegun s a u) (hnext : s.nextTask ≤ u.nextTask)
    (hbegun : Begun s a p) : TasksBegun s a (u.spawn p d) := by
  intro t' q e ht'
  by_cases htt : t' = u.nextTask
  · subst htt
    simp only [State.spawn, setTask, Function.update_self, Option.some.injEq] at ht'
    cases ht'
    exact .inr ⟨hnext, hbegun⟩
  · simp only [State.spawn, setTask, Function.update_of_ne htt] at ht'
    exact h t' q e ht'

theorem TasksBegun.goto (h : TasksBegun s a u) (ht : s.task t = some ⟨p, d⟩)
    (ht₁ : u.task t = some ⟨p, d⟩) (hadvance : Advance cfg s a u.slot t p p') :
    TaskStep cfg s a (u.goto t p') := by
  intro t' q e ht'
  rw [task_goto ht₁] at ht'
  by_cases htt : t' = t
  · subst htt
    rw [Function.update_self] at ht'
    cases ht'
    exact .inr (.inl ⟨p, ht, hadvance⟩)
  · rw [Function.update_of_ne htt] at ht'
    exact h.taskStep t' q e ht'

theorem TaskStep.spawn (h : TaskStep cfg s a u) (hnext : s.nextTask ≤ u.nextTask)
    (hbegun : Begun s a p) : TaskStep cfg s a (u.spawn p d) := by
  intro t' q e ht'
  by_cases htt : t' = u.nextTask
  · subst htt
    simp only [State.spawn, setTask, Function.update_self, Option.some.injEq] at ht'
    cases ht'
    exact .inr (.inr ⟨hnext, hbegun⟩)
  · simp only [State.spawn, setTask, Function.update_of_ne htt] at ht'
    exact h t' q e ht'

theorem replenishTimes_frame (n : ℕ) (s : State) :
    ∃ spawning nextId task nextTask, s.nextId ≤ nextId ∧ s.nextTask ≤ nextTask ∧
      replenishTimes n s = { s with spawning, nextId, task, nextTask } := by
  induction n generalizing s with
  | zero => exact ⟨_, _, _, _, Nat.le_refl _, Nat.le_refl _, rfl⟩
  | succ n ih =>
    obtain ⟨spawning, nextId, task, nextTask, hid, htask, h⟩ :=
      ih (s.reserve.spawn (.spawnSlot .minimum s.nextId) true)
    exact ⟨spawning, nextId, task, nextTask, Nat.le_trans (Nat.le_succ _) hid,
      Nat.le_trans (Nat.le_succ _) htask, h⟩

theorem replenish_frame (cfg : WorkerPoolConfig) (s : State) :
    ∃ spawning nextId task nextTask, s.nextId ≤ nextId ∧ s.nextTask ≤ nextTask ∧
      replenish cfg s = { s with spawning, nextId, task, nextTask } := by
  unfold replenish
  split_ifs
  · exact ⟨_, _, _, _, Nat.le_refl _, Nat.le_refl _, rfl⟩
  · exact replenishTimes_frame _ s

theorem killSlots_frame (slots : List WorkerId) (s : State) :
    ∃ task nextTask, s.nextTask ≤ nextTask ∧ killSlots s slots = { s with task, nextTask } := by
  induction slots generalizing s with
  | nil => exact ⟨_, _, Nat.le_refl _, rfl⟩
  | cons w slots ih =>
    obtain ⟨task, nextTask, hnext, h⟩ :=
      ih (s.spawn (.takeDead w none false (.stop .finished)) true)
    exact ⟨task, nextTask, Nat.le_trans (Nat.le_succ _) hnext, h⟩

theorem resume_frame (s : State) (t : TaskId) (k : Continuation) :
    ∃ slot task, resume s t k = { s with slot, task } := by
  rcases resume_cases s t k with hk | ⟨w, -, hk⟩ <;> exact ⟨_, _, hk⟩

theorem deliver_frame (s : State) (t : TaskId) (answer : Answer) :
    ∃ task, deliver s t answer = { s with task } := by
  rcases deliver_cases s t answer with hd | ⟨h, d, -, hd⟩ | ⟨h, tool, tracksOpen, d, -, hd⟩ <;>
    exact ⟨_, hd⟩

theorem dropTask_frame (s : State) (t : TaskId) (p : Position) :
    ∃ poolLock slot task nextTask, s.nextTask ≤ nextTask ∧
      dropTask s t p = { s with poolLock, slot, task, nextTask } := by
  obtain ⟨r, hr, hdrop⟩ := dropTask_cases s t p
  rcases hr with rfl | ⟨rfl, -⟩ | ⟨w, -, rfl⟩ <;>
    rcases hdrop with ⟨hdrop, -⟩ | ⟨cleanup, -, hdrop⟩
  all_goals first
    | exact ⟨_, _, _, _, Nat.le_refl _, hdrop⟩
    | exact ⟨_, _, _, _, Nat.le_succ _, hdrop⟩

theorem tasksBegun_replenishTimes (n : ℕ) (h : TasksBegun s a u)
    (hnext : s.nextTask ≤ u.nextTask) (hid : s.nextId ≤ u.nextId) :
    TasksBegun s a (replenishTimes n u) := by
  induction n generalizing u with
  | zero => exact h
  | succ n ih =>
    apply ih
    · exact TasksBegun.spawn (u := u.reserve) h hnext (.minimum hid)
    · exact Nat.le_succ_of_le hnext
    · exact Nat.le_succ_of_le hid

theorem tasksBegun_replenish : TasksBegun s a (replenish cfg s) := by
  unfold replenish
  split_ifs
  · exact tasksBegun_of_eq rfl
  · exact tasksBegun_replenishTimes _ (tasksBegun_of_eq rfl) (Nat.le_refl _) (Nat.le_refl _)

theorem tasksBegun_killSlots {slots : List WorkerId} (ht : s.task t = some ⟨.killSlots, d⟩)
    (hslots : ∀ w ∈ slots, w ∈ s.children) (h : TasksBegun s a u) (hnext : s.nextTask ≤ u.nextTask) :
    TasksBegun s a (killSlots u slots) := by
  induction slots generalizing u with
  | nil => exact h
  | cons w slots ih =>
    obtain ⟨hw, hrest⟩ := List.forall_mem_cons.mp hslots
    apply ih hrest
    · exact h.spawn hnext (.killed ht hw)
    · exact Nat.le_succ_of_le hnext

theorem tasksBegun_dropTask (ht : s.task t = some ⟨p, false⟩) :
    TasksBegun s (.drop t) (dropTask s t p) := by
  obtain ⟨r, hr, hdrop⟩ := dropTask_cases s t p
  have htask : r.task = s.task ∧ r.nextTask = s.nextTask := by
    rcases hr with rfl | ⟨rfl, -⟩ | ⟨w, -, rfl⟩ <;> exact ⟨rfl, rfl⟩
  have hgone : TasksBegun s (.drop t) (r.setTask t none) := (tasksBegun_of_eq htask.1).setTask_none t
  rcases hdrop with ⟨hdrop, -⟩ | ⟨cleanup, hcleanup, hdrop⟩ <;> rw [hdrop]
  · exact hgone
  · exact hgone.spawn htask.2.ge (.cleanup rfl ht hcleanup)

theorem TasksBegun.resume {k : Continuation} (h : TasksBegun s a u) (ht : s.task t = some ⟨p, d⟩)
    (ht₁ : u.task t = some ⟨p, d⟩) (hadvance : ∀ slot, Advance cfg s a slot t p k.position) :
    TaskStep cfg s a (resume u t k) := by
  rcases resume_cases u t k with hk | ⟨w, -, hk⟩ <;> rw [hk]
  · exact h.goto ht ht₁ (hadvance _)
  · exact TasksBegun.goto (u := u.setCallLock w none) h ht ht₁ (hadvance _)

theorem taskStep_transition (hfresh : s.Fresh) (hstep : Transition cfg s a s') :
    TaskStep cfg s a s' := by
  have hrefl : TasksBegun s a s := tasksBegun_of_eq rfl
  -- a step whose only effect on the tasks is that `t` advances
  have own {u : State} {t p p' d} (hu : u.task = s.task) (ht : s.task t = some ⟨p, d⟩)
      (hadvance : Advance cfg s a u.slot t p p') : TaskStep cfg s a (u.goto t p') :=
    (tasksBegun_of_eq hu).goto ht (by rw [hu, ht]) hadvance
  cases hstep with
  | started hknown => exact (hrefl.spawn (Nat.le_refl _) (.started _ rfl hknown)).taskStep
  | moved ht hmove => exact own rfl ht (.moved rfl hmove)
  | tookLeaseId ht hlock => exact own rfl ht .tookLeaseId
  | leaseScanBegun ht hlock => exact own rfl ht .leaseScanBegun
  | leasedIdle ht hidle =>
    refine own rfl ht (.leasedIdle hidle ?_)
    simp [issue, setPoolLock, useSlot, setSlot]
  | leaseRefused ht => exact own rfl ht .leaseRefused
  | leaseWaits ht => exact own rfl ht .leaseWaits
  | leaseReserved ht hactive hshut => exact own rfl ht .leaseReserved
  | spawned ht => exact own rfl ht (.spawned (Function.update_self ..))
  | installedLease ht hlock hshut => exact own rfl ht .installedLease
  | installedMinimum ht hlock hshut => exact own rfl ht .installedMinimum
  | unreserved ht hlock => exact own rfl ht .unreserved
  | tookDead ht hlease =>
    refine own rfl ht (.tookDead ?_)
    simp [setState, setSlot]
  | leaseGone ht hgone => exact hrefl.resume ht ht fun _ => .leaseGone hgone
  | @forgot t w k d ht hlock =>
    exact TasksBegun.resume (u := s.forget [w]) hrefl ht ht fun _ => .forgot
  | forgotLost ht hlock => exact own rfl ht .forgotLost
  | replenished ht hlock =>
    exact tasksBegun_replenish.resume ht (task_replenish _ hfresh ht) fun _ => .replenished
  | closing ht hcall hlease =>
    refine own rfl ht (.closing ?_ ?_) <;> simp [setCallLock, setState, setSlot]
  | closeSent ht => exact own rfl ht .closeSent
  | resetDead ht hdead | resetIdle ht hdead => exact own rfl ht .reset
  | reapScheduled ht hidle => exact (own rfl ht .reapScheduled).spawn (Nat.le_refl _) (.reaper ht)
  | callSent ht hcall hleased =>
    refine own rfl ht (.callSent ?_)
    simp [send, setRequests, setCallLock, setSlot]
  | callSendLost ht hcall hleased =>
    refine own rfl ht (.callSendLost ?_)
    simp [setCallLock, setSlot]
  | callEnded ht => exact own rfl ht .callEnded
  | settleEnded ht => exact own rfl ht .settleEnded
  | reapScanBegun ht hlock => exact own rfl ht .reapScanBegun
  | reapTook ht hlive hidle =>
    refine own rfl ht (.reapTook hlive ?_)
    simp [setPoolLock, setState, setSlot]
  | reapKept ht => exact own rfl ht .reapKept
  | shutdownBegun ht hlock => exact own rfl ht .shutdownBegun
  | slotsKilled ht hlock =>
    exact (tasksBegun_killSlots ht (fun _ h => h) hrefl (Nat.le_refl _)).goto ht
      (task_killSlots _ hfresh ht) .slotsKilled
  | dropped ht => exact (tasksBegun_dropTask ht).taskStep
  | @answered w request answer effect hrequest heffect =>
    rcases deliver_cases (s.setSlot w { s.slot w with
      requests := (s.slot w).requests.erase request
      database := databaseAfter (s.slot w).database request effect }) request.task answer with
      hd | ⟨h, d, ht, hd⟩ | ⟨h, tool, tracksOpen, d, ht, hd⟩ <;> rw [hd]
    · apply TasksBegun.taskStep
      apply tasksBegun_of_eq
      rfl
    · refine own rfl ht (.closeReply rfl hrequest rfl heffect ?_)
      simp [setSlot]
    · exact own rfl ht .callReply
  | transportClosed | ticked =>
    apply TasksBegun.taskStep
    apply tasksBegun_of_eq
    rfl

theorem counters_le (hstep : Transition cfg s a s') :
    s.nextId ≤ s'.nextId ∧ s.nextTask ≤ s'.nextTask := by
  cases hstep with
  | started => exact ⟨Nat.le_refl _, Nat.le_succ _⟩
  | leaseReserved => exact ⟨Nat.le_succ _, Nat.le_refl _⟩
  | @leaseGone t _ _ _ k =>
    obtain ⟨slot, task, h⟩ := resume_frame s t k
    rw [h]
    exact ⟨Nat.le_refl _, Nat.le_refl _⟩
  | @forgot t w k =>
    obtain ⟨slot, task, h⟩ := resume_frame (s.forget [w]) t k
    rw [h]
    exact ⟨Nat.le_refl _, Nat.le_refl _⟩
  | @replenished t k =>
    obtain ⟨spawning, nextId, task, nextTask, hid, hnext, h⟩ := replenish_frame cfg s
    obtain ⟨slot, task', h'⟩ := resume_frame (replenish cfg s) t k
    rw [h', h]
    exact ⟨hid, hnext⟩
  | reapScheduled => exact ⟨Nat.le_refl _, Nat.le_succ _⟩
  | slotsKilled =>
    obtain ⟨task, nextTask, hnext, h⟩ := killSlots_frame s.children s
    rw [h]
    exact ⟨Nat.le_refl _, hnext⟩
  | @dropped t p =>
    obtain ⟨poolLock, slot, task, nextTask, hnext, h⟩ := dropTask_frame s t p
    rw [h]
    exact ⟨Nat.le_refl _, hnext⟩
  | @answered w request answer effect =>
    obtain ⟨task, h⟩ := deliver_frame (s.setSlot w { s.slot w with
      requests := (s.slot w).requests.erase request
      database := databaseAfter (s.slot w).database request effect }) request.task answer
    rw [h]
    exact ⟨Nat.le_refl _, Nat.le_refl _⟩
  | _ => exact ⟨Nat.le_refl _, Nat.le_refl _⟩

theorem shuttingDown_transition (hstep : Transition cfg s a s') :
    s'.shuttingDown = s.shuttingDown ∨
      s.poolLock = none ∧ s'.shuttingDown = true ∧ ∃ t d, s.task t = some ⟨.beginShutdown, d⟩ := by
  cases hstep with
  | shutdownBegun ht hlock => exact .inr ⟨hlock, rfl, _, _, ht⟩
  | @leaseGone t _ _ _ k =>
    obtain ⟨slot, task, h⟩ := resume_frame s t k
    exact .inl (by rw [h])
  | @forgot t w k =>
    obtain ⟨slot, task, h⟩ := resume_frame (s.forget [w]) t k
    exact .inl (by rw [h]; rfl)
  | @replenished t k =>
    obtain ⟨spawning, nextId, task, nextTask, -, -, h⟩ := replenish_frame cfg s
    obtain ⟨slot, task', h'⟩ := resume_frame (replenish cfg s) t k
    exact .inl (by rw [h', h])
  | slotsKilled =>
    obtain ⟨task, nextTask, -, h⟩ := killSlots_frame s.children s
    exact .inl (by rw [h]; rfl)
  | @dropped t p =>
    obtain ⟨poolLock, slot, task, nextTask, -, h⟩ := dropTask_frame s t p
    exact .inl (by rw [h])
  | @answered w request answer effect =>
    obtain ⟨task, h⟩ := deliver_frame (s.setSlot w { s.slot w with
      requests := (s.slot w).requests.erase request
      database := databaseAfter (s.slot w).database request effect }) request.task answer
    exact .inl (by rw [h]; rfl)
  | _ => exact .inl rfl

theorem task_goto_self (ht : s.task t = some ⟨p, d⟩) (p' : Position) :
    (s.goto t p').task t = some ⟨p', d⟩ := by
  rw [task_goto ht, Function.update_self]

theorem task_goto_of_ne {t' : TaskId} (h : t ≠ t') (p : Position) :
    (s.goto t' p).task t = s.task t := by
  simp [goto, setTask, Function.update_of_ne h]

theorem task_resume_of_ne {t' : TaskId} (h : t ≠ t') (k : Continuation) :
    (resume s t' k).task t = s.task t := by
  rcases resume_cases s t' k with hk | ⟨w, -, hk⟩ <;> rw [hk, task_goto_of_ne h]
  rfl

theorem task_spawn_of_lt (h : t < s.nextTask) (p : Position) (d : Bool) :
    (s.spawn p d).task t = s.task t := by
  simp [State.spawn, setTask, Function.update_of_ne (Nat.ne_of_lt h)]

theorem task_dropTask_of_ne {t' : TaskId} (h : t ≠ t') (hlt : t < s.nextTask) (p : Position) :
    (dropTask s t' p).task t = s.task t := by
  obtain ⟨r, hr, hdrop⟩ := dropTask_cases s t' p
  have htask : (r.setTask t' none).task t = s.task t ∧ t < (r.setTask t' none).nextTask := by
    rcases hr with rfl | ⟨rfl, -⟩ | ⟨w, -, rfl⟩ <;> exact ⟨Function.update_of_ne h _ _, hlt⟩
  rcases hdrop with ⟨hdrop, -⟩ | ⟨cleanup, -, hdrop⟩ <;> rw [hdrop]
  · exact htask.1
  · rw [task_spawn_of_lt htask.2, htask.1]

theorem task_dropTask_self (hfresh : s.Fresh) (ht : s.task t = some ⟨p, d⟩) :
    (dropTask s t p).task t = none := by
  obtain ⟨r, hr, hdrop⟩ := dropTask_cases s t p
  have hne : t ≠ r.nextTask := by
    have hlt := hfresh.lt ht
    rcases hr with rfl | ⟨rfl, -⟩ | ⟨w', -, rfl⟩ <;> exact Nat.ne_of_lt hlt
  rcases hdrop with ⟨hdrop, -⟩ | ⟨cleanup, -, hdrop⟩ <;> rw [hdrop]
  · simp [setTask]
  · simp [State.spawn, setTask, Function.update_of_ne hne]

theorem task_of_drop (hfresh : s.Fresh) (ht : s.task t = some ⟨p, d⟩)
    (hstep : step cfg s (.drop t) = some s') : s'.task t = none := by
  cases d with
  | true => simp [step, ht] at hstep
  | false =>
    simp only [step, ht, Option.some.injEq] at hstep
    subst hstep
    exact task_dropTask_self hfresh ht

theorem task_unanswered (hfresh : s.Fresh) (hstep : Transition cfg s a s')
    (ht : s.task t = some ⟨p, d⟩) (hactor : a.actor ≠ some t)
    (hanswer : ∀ w request answer effect, a = .childAnswer w request answer effect → t ≠ request.task) :
    s'.task t = some ⟨p, d⟩ := by
  have hlt := hfresh.lt ht
  have other {t' : TaskId} {choice : Choice} (ha : (Action.run t' choice).actor ≠ some t) : t ≠ t' := by
    rintro rfl
    exact ha rfl
  cases hstep with
  | started => exact (task_spawn_of_lt hlt _ _).trans ht
  | leaseGone => exact (task_resume_of_ne (other hactor) _).trans ht
  | @forgot t' w k => exact (task_resume_of_ne (s := s.forget [w]) (other hactor) k).trans ht
  | replenished => exact (task_resume_of_ne (other hactor) _).trans (task_replenish _ hfresh ht)
  | @reapScheduled t' h outcome =>
    exact (task_spawn_of_lt (s := s.goto t' (.done outcome)) hlt _ _).trans
      ((task_goto_of_ne (other hactor) _).trans ht)
  | slotsKilled => exact (task_goto_of_ne (other hactor) _).trans (task_killSlots _ hfresh ht)
  | dropped =>
    rw [task_dropTask_of_ne _ hlt, ht]
    rintro rfl
    exact hactor rfl
  | @answered w request answer effect =>
    have hne := hanswer w request answer effect rfl
    rcases deliver_cases (s.setSlot w { s.slot w with
      requests := (s.slot w).requests.erase request
      database := databaseAfter (s.slot w).database request effect }) request.task answer with
      hd | ⟨h, d', -, hd⟩ | ⟨h, tool, tracksOpen, d', -, hd⟩ <;> rw [hd]
    · exact ht
    · exact (task_goto_of_ne hne _).trans ht
    · exact (task_goto_of_ne hne _).trans ht
  | transportClosed | ticked => exact ht
  | _ => exact (task_goto_of_ne (other hactor) _).trans ht

theorem task_answered {answer : Answer} {request : Request} {w : WorkerId} {effect : ChildEffect}
    (hstep : Transition cfg s (.childAnswer w request answer effect) s')
    (ht : s.task request.task = some ⟨p, d⟩) : s'.task request.task = some ⟨p, d⟩ ∨
      (∃ h, p = .releaseAwait h none ∧ s'.task request.task = some ⟨.releaseAwait h (some answer), d⟩) ∨
      ∃ h tool tracksOpen, p = .callAwait h tool tracksOpen none ∧
        s'.task request.task = some ⟨.callAwait h tool tracksOpen (some answer), d⟩ := by
  cases hstep with
  | answered =>
    rcases deliver_cases (s.setSlot w { s.slot w with
      requests := (s.slot w).requests.erase request
      database := databaseAfter (s.slot w).database request effect }) request.task answer with
      hd | ⟨h, d', ht', hd⟩ | ⟨h, tool, tracksOpen, d', ht', hd⟩ <;> rw [hd]
    · exact .inl ht
    · have hself := task_goto_self ht' (.releaseAwait h (some answer))
      change s.task request.task = _ at ht'
      rw [ht] at ht'
      cases ht'
      exact .inr (.inl ⟨h, rfl, hself⟩)
    · have hself := task_goto_self ht' (.callAwait h tool tracksOpen (some answer))
      change s.task request.task = _ at ht'
      rw [ht] at ht'
      cases ht'
      exact .inr (.inr ⟨h, tool, tracksOpen, rfl, hself⟩)

theorem task_kept (hfresh : s.Fresh) (hstep : Transition cfg s a s') (ht : s.task t = some ⟨p, d⟩)
    (hactor : a.actor ≠ some t) : s'.task t = some ⟨p, d⟩ ∨
      (∃ h answer, p = .releaseAwait h none ∧ s'.task t = some ⟨.releaseAwait h (some answer), d⟩) ∨
      ∃ h tool tracksOpen answer, p = .callAwait h tool tracksOpen none ∧
        s'.task t = some ⟨.callAwait h tool tracksOpen (some answer), d⟩ := by
  by_cases hanswer : ∃ w request answer effect, a = .childAnswer w request answer effect ∧ t = request.task
  · obtain ⟨w, request, answer, effect, rfl, rfl⟩ := hanswer
    rcases task_answered hstep ht with hkept | ⟨h, hp, ht'⟩ | ⟨h, tool, tracksOpen, hp, ht'⟩
    · exact .inl hkept
    · exact .inr (.inl ⟨h, answer, hp, ht'⟩)
    · exact .inr (.inr ⟨h, tool, tracksOpen, answer, hp, ht'⟩)
  · left
    apply task_unanswered hfresh hstep ht hactor
    intro w request answer effect ha htask
    exact hanswer ⟨w, request, answer, effect, ha, htask⟩

def RoleLess {α : Type*} (f : Position → Option α) (s s' : State) : Prop :=
  ∀ t x, s'.role f t = some x → s.role f t = some x

theorem TasksBegun.roleLess {α : Type*} {f : Position → Option α} (h : TasksBegun s a s')
    (hf : ∀ p, Begun s a p → f p = none) : RoleLess f s s' := by
  intro t x hx
  obtain ⟨⟨p, d⟩, ht, hp⟩ := role_eq_some hx
  rcases h t p d ht with hold | ⟨-, hbegun⟩
  · rwa [role_eq f hold]
  · rw [hf p hbegun] at hp
    cases hp

theorem RoleLess.goto {α : Type*} {f : Position → Option α} (h : RoleLess f s u)
    (ht : u.task t = some ⟨p, d⟩) (hp' : f p' = none ∨ f p' = f p) :
    RoleLess f s (u.goto t p') := by
  intro t' x hx
  apply h
  rw [role_goto f ht, Function.update_apply] at hx
  split_ifs at hx with htt
  · rcases hp' with hp' | hp' <;> rw [hp'] at hx
    · cases hx
    · rw [htt, role_eq f ht, hx]
  · exact hx

theorem TaskStep.role {α : Type*} {f : Position → Option α} {x : α} (h : TaskStep cfg s a s')
    (hx : s'.role f t = some x) :
    (∃ task, s.task t = some task ∧ s'.task t = some task ∧ s.role f t = some x) ∨
      (∃ p p' d, s.task t = some ⟨p, d⟩ ∧ s'.task t = some ⟨p', d⟩ ∧
        Advance cfg s a s'.slot t p p' ∧ f p' = some x) ∨
      ∃ p, s.nextTask ≤ t ∧ Begun s a p ∧ f p = some x := by
  obtain ⟨⟨p', d⟩, ht', hp'⟩ := role_eq_some hx
  rcases h t p' d ht' with ht | ⟨p, ht, hadvance⟩ | ⟨ht, hbegun⟩
  · exact .inl ⟨_, ht, ht', (role_eq f ht).trans hp'⟩
  · exact .inr (.inl ⟨p, p', d, ht, ht', hadvance, hp'⟩)
  · exact .inr (.inr ⟨p', ht, hbegun, hp'⟩)

end IdaMcp.Pool
