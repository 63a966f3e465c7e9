import IdaMcp.Foundation.Agents
import IdaMcp.Pool.Shutdown

namespace IdaMcp.Pool

open Foundation State Position

variable {cfg : WorkerPoolConfig} {s s' u : State} {t : TaskId} {d : Bool} {p p' : Position} {r : ℕ}

/-- The steps that need neither a client nor an answering child: time passes, a task goes on, and what a
task waits for fails or times out. -/
def Action.unaided : Action → Bool
  | .run _ .proceed | .run _ (.spawnFails _) | .run _ (.timedOut _) | .tick _ => true
  | _ => false

def Continuation.rank : Continuation → ℕ
  | .settleRelease _ _ => 2
  | _ => 1

/-- How far a task is from its end: a task of rank 2 may begin tasks of rank 1, and the scan of a lease
may have to start again. -/
def Position.rank : Position → ℕ
  | done _ => 0
  | spawnSlot _ _ | finishSpawn _ _ | unreserve _ _ | reapStart _ | reapSleep _ _ | reapScan _ _ _ _
  | awaitKills _ => 1
  | takeDead _ _ replenish k | forgetSlot _ replenish k => if replenish then 2 else k.rank
  | leaseScan _ _ _ _ _ => 3
  | _ => 2

def agents : Agents State where
  started := nextTask
  rank s t := (s.task t).elim 0 fun task => task.position.rank

abbrev Alone (cfg : WorkerPoolConfig) (t : TaskId) (r : ℕ) (s : State) : Prop :=
  agents.Settles (step cfg) (fun a => a.unaided = true) t r s

/-- Task `t` is at `p`, and no other task holds the pool mutex. -/
structure Turn (s : State) (t : TaskId) (p : Position) : Prop where
  fresh : s.Fresh
  task : ∃ d, s.task t = some ⟨p, d⟩
  lock : s.poolLock = bif p.holdsPool then some t else none

theorem rank_eq (ht : s.task t = some ⟨p, d⟩) : agents.rank s t = p.rank := by
  simp [agents, ht]

theorem rank_of_fresh (hfresh : s.Fresh) (hr : 0 < r) (t' : TaskId) (ht' : s.nextTask ≤ t') :
    agents.rank s t' < r := by
  simpa [agents, hfresh t' ht'] using hr

theorem Turn.goto (h : Turn s t p) (htask : u.task = s.task) (hnext : u.nextTask = s.nextTask)
    (hlock : u.poolLock = bif p'.holdsPool then some t else none) : Turn (u.goto t p') t p' where
  fresh := Fresh.goto (fun t' ht' => by rw [htask]; exact h.fresh t' (hnext ▸ ht')) t p'
  task := by
    obtain ⟨d, ht⟩ := h.task
    exact ⟨d, task_goto_self (htask ▸ ht) p'⟩
  lock := hlock

theorem frame_goto (hfresh : (u.goto t p').Fresh) (hr : 0 < r) (htask : u.task = s.task)
    (hnext : u.nextTask = s.nextTask) : agents.Frame t r s (u.goto t p') where
  others t' _ hne := by
    simp only [agents, task_goto_of_ne hne, htask]
  started_le := hnext.ge
  begun t' hle := rank_of_fresh hfresh hr t' (hnext.le.trans hle)

theorem frame_spawn (hfresh : s.Fresh) (hp : p.rank < r) : agents.Frame t r s (s.spawn p d) where
  others t' ht' _ := by
    simp only [agents]
    rw [task_spawn_of_lt ht']
  started_le := Nat.le_succ _
  begun t' hle := by
    rcases Nat.eq_or_lt_of_le hle with rfl | hlt
    · have hself : (s.spawn p d).task s.nextTask = some ⟨p, d⟩ := Function.update_self ..
      exact (rank_eq hself).trans_lt hp
    · exact rank_of_fresh (hfresh.spawn p d) (Nat.zero_lt_of_lt hp) t' hlt

theorem Turn.go (h : Turn s t p) (choice : Choice) (u : State) (p' : Position)
    (hchoice : (Action.run t choice).unaided = true) (hnext : next cfg s t p choice = some (u.goto t p'))
    (hr : 0 < r) (htask : u.task = s.task) (hnextTask : u.nextTask = s.nextTask)
    (hlock : u.poolLock = bif p'.holdsPool then some t else none)
    (hrest : Turn (u.goto t p') t p' → Alone cfg t r (u.goto t p')) : Alone cfg t r s := by
  have hturn := h.goto htask hnextTask hlock
  obtain ⟨d, ht⟩ := h.task
  refine .go hchoice ?_ (frame_goto hturn.fresh hr htask hnextTask) (hrest hturn)
  simpa [step, ht] using hnext

theorem Turn.begins (h : Turn s t p) (u : State) (p' : Position)
    (hnext : next cfg s t p .proceed = some (u.goto t p')) (hr : 0 < r) (hfresh : u.Fresh)
    (hframe : agents.Frame t r s u) (htask : ∀ d, s.task t = some ⟨p, d⟩ → u.task t = some ⟨p, d⟩)
    (hlock : u.poolLock = bif p'.holdsPool then some t else none)
    (hrest : Turn (u.goto t p') t p' → Alone cfg t r (u.goto t p')) : Alone cfg t r s := by
  obtain ⟨d, ht⟩ := h.task
  have hu : Turn (u.goto t p') t p' := ⟨hfresh.goto t p', ⟨d, task_goto_self (htask d ht) p'⟩, hlock⟩
  refine .go (a := .run t .proceed) rfl ?_ (hframe.trans (frame_goto hu.fresh hr rfl rfl) ?_) (hrest hu)
  · simpa [step, ht] using hnext
  · exact h.fresh.lt ht

theorem Turn.ended (h : Turn s t p) (hp : p.rank < r) : Alone cfg t r s := by
  obtain ⟨d, ht⟩ := h.task
  exact .settled (by rwa [rank_eq ht]) (rank_of_fresh h.fresh (Nat.zero_lt_of_lt hp))

theorem Turn.unreserve {w : WorkerId} {outcome : Outcome} (h : Turn s t (.unreserve w outcome))
    (hr : 0 < r) : Alone cfg t r s :=
  h.go .proceed (s.unreserve w) (.done outcome) rfl (if_pos h.lock) hr rfl rfl h.lock fun h => h.ended hr

theorem Turn.idleCheck {handle : PooledWorkerHandle} {outcome : Outcome}
    (h : Turn s t (.releaseIdleCheck handle outcome)) (hr : 2 ≤ r) : Alone cfg t r s := by
  obtain ⟨d, ht⟩ := h.task
  have hpos : 0 < r := by omega
  have hend : Turn (s.goto t (.done outcome)) t (.done outcome) := h.goto rfl rfl h.lock
  by_cases hidle : s.stateOf handle.workerId = .idle
  · have hframe := (frame_goto hend.fresh hpos rfl rfl).trans
      (frame_spawn hend.fresh hr (p := .reapStart handle.workerId) (d := true)) (h.fresh.lt ht)
    refine .go (a := .run t .proceed) rfl ?_ hframe (.settled ?_ (rank_of_fresh (hend.fresh.spawn _ _) hpos))
    · simp [step, ht, next, releaseIdleCheck, hidle]
    · obtain ⟨d', hd'⟩ := hend.task
      rw [rank_eq ((task_spawn_of_lt (s := s.goto t _) (h.fresh.lt ht) _ _).trans hd')]
      exact hpos
  · exact h.go .proceed s (.done outcome) rfl (congrArg some (if_neg hidle)) hpos rfl rfl h.lock
      fun h => h.ended hpos

theorem Continuation.rank_bounds (k : Continuation) : 0 < k.rank ∧ k.rank ≤ 2 := by
  cases k <;> simp [Continuation.rank]

theorem Turn.continuation {k : Continuation} (h : Turn s t k.position) (hr : k.rank ≤ r) :
    Alone cfg t r s := by
  have hpos : 0 < r := Nat.lt_of_lt_of_le k.rank_bounds.1 hr
  cases k with
  | stop | guarded | settleCall => exact h.ended hpos
  | settleRelease => exact h.idleCheck hr
  | unreserve => exact h.unreserve hpos

theorem holdsPool_continuation (k : Continuation) : k.position.holdsPool = false := by
  cases k <;> rfl

theorem Turn.resume {k : Continuation} (h : Turn s t p) (u : State)
    (hnext : next cfg s t p .proceed = some (resume u t k)) (hr : k.rank ≤ r) (htask : u.task = s.task)
    (hnextTask : u.nextTask = s.nextTask) (hlock : u.poolLock = none) : Alone cfg t r s := by
  have hpos : 0 < r := Nat.lt_of_lt_of_le k.rank_bounds.1 hr
  apply h.go .proceed (k.callLock.elim u fun w => u.setCallLock w none) k.position rfl hnext hpos
  · cases k.callLock <;> exact htask
  · cases k.callLock <;> exact hnextTask
  · rw [holdsPool_continuation]
    cases k.callLock <;> exact hlock
  · exact fun h => h.continuation hr

theorem frame_replenishTimes (n : ℕ) (hfresh : s.Fresh) (ht : t < s.nextTask) (hr : 1 < r) :
    agents.Frame t r s (replenishTimes n s) := by
  induction n generalizing s with
  | zero => exact ⟨fun _ _ _ => rfl, Nat.le_refl _, rank_of_fresh hfresh (by omega)⟩
  | succ n ih =>
    have hspawn : agents.Frame t r s.reserve (s.reserve.spawn (.spawnSlot .minimum s.nextId) true) :=
      frame_spawn (s := s.reserve) hfresh hr
    exact Agents.Frame.trans ⟨hspawn.others, hspawn.started_le, hspawn.begun⟩ (ih (Fresh.spawn (s := s.reserve) hfresh _ _) (Nat.lt_succ_of_lt ht)) ht

theorem frame_replenish (hfresh : s.Fresh) (ht : t < s.nextTask) (hr : 1 < r) :
    agents.Frame t r s (replenish cfg s) := by
  unfold replenish
  split_ifs
  · exact ⟨fun _ _ _ => rfl, Nat.le_refl _, rank_of_fresh hfresh (by omega)⟩
  · exact frame_replenishTimes _ hfresh ht hr

theorem frame_killSlots (slots : List WorkerId) (hfresh : s.Fresh) (ht : t < s.nextTask) (hr : 1 < r) :
    agents.Frame t r s (killSlots s slots) := by
  induction slots generalizing s with
  | nil => exact ⟨fun _ _ _ => rfl, Nat.le_refl _, rank_of_fresh hfresh (by omega)⟩
  | cons w slots ih =>
    have hspawn : agents.Frame t r s (s.spawn (.takeDead w none false (.stop .finished)) true) :=
      frame_spawn hfresh hr
    exact hspawn.trans (ih (hfresh.spawn _ _) (Nat.lt_succ_of_lt ht)) ht

theorem Turn.schedule {k : Continuation} (h : Turn s t (.scheduleReplenishment k)) (hr : 2 ≤ r) :
    Alone cfg t r s := by
  obtain ⟨d, ht⟩ := h.task
  obtain ⟨_, _, _, _, -, -, hreplenish⟩ := replenish_frame cfg s
  let u := k.callLock.elim (replenish cfg s) fun w => (replenish cfg s).setCallLock w none
  have hu : u.task = (replenish cfg s).task ∧ u.nextTask = (replenish cfg s).nextTask ∧
      u.poolLock = (replenish cfg s).poolLock := by
    cases k <;> exact ⟨rfl, rfl, rfl⟩
  have hframe : agents.Frame t r s (replenish cfg s) := frame_replenish h.fresh (h.fresh.lt ht) hr
  apply h.begins u k.position (if_pos h.lock) (by omega)
  · intro t' ht'
    rw [hu.1]
    exact fresh_replenish h.fresh t' (hu.2.1 ▸ ht')
  · constructor
    · intro t' ht' hne
      simpa only [agents, hu.1] using hframe.others t' ht' hne
    · simpa only [agents, hu.2.1] using hframe.started_le
    · intro t' hle
      simpa only [agents, hu.1] using hframe.begun t' hle
  · intro d ht
    rw [hu.1]
    exact task_replenish cfg h.fresh ht
  · rw [hu.2.2, hreplenish, holdsPool_continuation]
    exact h.lock
  · exact fun h => h.continuation (Nat.le_trans k.rank_bounds.2 hr)

theorem Turn.forget {w : WorkerId} {replenish : Bool} {k : Continuation}
    (h : Turn s t (.forgetSlot w replenish k)) (hr : (forgetSlot w replenish k).rank ≤ r) :
    Alone cfg t r s := by
  cases replenish with
  | false => exact h.resume (s.forget [w]) (if_pos h.lock) hr rfl rfl h.lock
  | true =>
    have hr : 2 ≤ r := hr
    exact h.go .proceed (s.forget [w]) (.scheduleReplenishment k) rfl (if_pos h.lock) (by omega) rfl rfl
      h.lock fun h => h.schedule hr

theorem Turn.take {w : WorkerId} {lease : Option LeaseId} {replenish : Bool} {k : Continuation}
    (h : Turn s t (.takeDead w lease replenish k)) (hr : (Position.takeDead w lease replenish k).rank ≤ r) :
    Alone cfg t r s := by
  have hk : k.rank ≤ r := by
    cases replenish with
    | false => exact hr
    | true => exact Nat.le_trans k.rank_bounds.2 hr
  by_cases htake : lease.all (s.stateOf w).belongsToLease = true
  · exact h.go .proceed (s.setState w .dead) (.forgetSlot w replenish k) rfl
      (congrArg some (if_pos htake)) (Nat.lt_of_lt_of_le k.rank_bounds.1 hk) rfl rfl h.lock
      fun h => h.forget hr
  · exact h.resume s (congrArg some (if_neg htake)) hk rfl rfl h.lock

end IdaMcp.Pool
