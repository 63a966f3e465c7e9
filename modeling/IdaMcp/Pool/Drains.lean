import IdaMcp.Pool.Alone
import IdaMcp.Pool.Manned

namespace IdaMcp.Pool

open Foundation State Position

variable {cfg : WorkerPoolConfig} {s s' u : State} {a : Action} {t : TaskId} {d : Bool} {p p' : Position}
  {r : ℕ} {w : WorkerId} {h : PooledWorkerHandle} {session : SessionId} {lease : LeaseId}

theorem Turn.finishSpawn {purpose : Purpose} (ht : Turn s t (.finishSpawn purpose w)) (hr : 0 < r) :
    Alone cfg t r s := by
  have hnext : next cfg s t (.finishSpawn purpose w) .proceed = some (Pool.finishSpawn s t purpose w) :=
    if_pos ht.lock
  by_cases hshut : s.shuttingDown = true
  · refine ht.go .proceed s (.takeDead w none false (.unreserve w (.error .workerClosed))) rfl ?_ hr rfl rfl
      ht.lock fun ht => ht.take hr
    rw [hnext, Pool.finishSpawn, if_pos hshut]
  · cases purpose with
    | lease session lease =>
      refine ht.go .proceed (((s.setChildren (s.children ++ [w])).unreserve w).issue ⟨w, session, lease, false⟩)
        (.done (.leased ⟨w, session, lease, false⟩)) rfl ?_ hr rfl rfl ht.lock fun ht => ht.ended hr
      rw [hnext, Pool.finishSpawn, if_neg hshut]
      rfl
    | minimum =>
      refine ht.go .proceed ((s.setChildren (s.children ++ [w])).unreserve w) (.done .finished) rfl ?_ hr rfl
        rfl ht.lock fun ht => ht.ended hr
      rw [hnext, Pool.finishSpawn, if_neg hshut]
      rfl

theorem Turn.spawnSlot {purpose : Purpose} (ht : Turn s t (.spawnSlot purpose w)) (hr : 0 < r) :
    Alone cfg t r s :=
  ht.go (.spawnFails .workerClosed) s (.unreserve w (.error .workerClosed)) rfl rfl hr rfl rfl ht.lock
    fun ht => ht.unreserve hr

theorem Turn.releaseReset {error : Option ToolError} (ht : Turn s t (.releaseReset h error)) (hr : 2 ≤ r) :
    Alone cfg t r s := by
  have hpos : 0 < r := by omega
  by_cases hdead : s.stateOf h.workerId = .dead
  · exact ht.go .proceed (s.setCallLock h.workerId none) _ rfl (congrArg some (if_pos hdead)) hpos rfl rfl
      ht.lock fun ht => ht.idleCheck hr
  · exact ht.go .proceed ((s.useSlot h.workerId .idle).setCallLock h.workerId none) _ rfl
      (congrArg some (if_neg hdead)) hpos rfl rfl ht.lock fun ht => ht.idleCheck hr

theorem Turn.afterClose {error : Option ToolError} (ht : Turn s t (afterClosePosition h error))
    (hr : 2 ≤ r) : Alone cfg t r s := by
  rcases afterClosePosition_cases h error with ⟨e, -, -, hp⟩ | ⟨-, hp⟩ <;> rw [hp] at ht
  · exact ht.take hr
  · exact ht.releaseReset hr

theorem holdsPool_afterClose (h : PooledWorkerHandle) (error : Option ToolError) :
    (afterClosePosition h error).holdsPool = false := by
  rcases afterClosePosition_cases h error with ⟨e, -, -, hp⟩ | ⟨-, hp⟩ <;> rw [hp] <;> rfl

theorem Turn.releaseAwait {answer : Option Answer} (ht : Turn s t (.releaseAwait h answer)) (hr : 2 ≤ r) :
    Alone cfg t r s := by
  have hpos : 0 < r := by omega
  have hlock (error : Option ToolError) :
      s.poolLock = bif (afterClosePosition h error).holdsPool then some t else none := by
    rw [holdsPool_afterClose]
    exact ht.lock
  cases answer with
  | none =>
    exact ht.go (.timedOut 0) s (afterClosePosition h (some (.timeout 0))) rfl rfl hpos rfl rfl (hlock _)
      fun ht => ht.afterClose hr
  | some answer =>
    exact ht.go .proceed s (afterClosePosition h (closeError answer)) rfl rfl hpos rfl rfl (hlock _)
      fun ht => ht.afterClose hr

theorem Turn.releaseSend (ht : Turn s t (.releaseSend h)) (hr : 2 ≤ r) : Alone cfg t r s :=
  ht.go .proceed (send s t h "close_idb") (.releaseAwait h none) rfl rfl (by omega) rfl rfl ht.lock
    fun ht => ht.releaseAwait hr

theorem Turn.releaseLock (ht : Turn s t (.releaseLock h)) (hcall : (s.slot h.workerId).callLock = none)
    (hr : 2 ≤ r) : Alone cfg t r s := by
  have hpos : 0 < r := by omega
  by_cases hlease : (s.stateOf h.workerId).belongsToLease h.leaseId = true
  · refine ht.go .proceed ((s.setState h.workerId (.closing h.leaseId)).setCallLock h.workerId (some t))
      (.releaseSend h) rfl ?_ hpos rfl rfl ht.lock fun ht => ht.releaseSend hr
    simp only [next, if_pos hcall, if_pos hlease]
  · refine ht.go .proceed s (.releaseIdleCheck h .finished) rfl ?_ hpos rfl rfl ht.lock
      fun ht => ht.idleCheck hr
    simp only [next, if_pos hcall, if_neg hlease]

theorem Turn.retireCall {error : ToolError} (ht : Turn s t p) (choice : Choice) (hp : p.holdsPool = false)
    (hchoice : (Action.run t choice).unaided = true)
    (hnext : next cfg s t p choice = some (retireCall s t h error)) (hr : 2 ≤ r) : Alone cfg t r s := by
  have hlock := ht.lock
  rw [hp] at hlock
  exact ht.go choice s (.takeDead h.workerId (some h.leaseId) true (.settleCall h (.error error))) hchoice
    hnext (by omega) rfl rfl hlock fun ht => ht.take hr

theorem Turn.endCall {outcome : Outcome} (ht : Turn s t p) (hp : p.holdsPool = false)
    (hnext : next cfg s t p .proceed = some (endCall s t h outcome)) (hr : 2 ≤ r) : Alone cfg t r s := by
  have hpos : 0 < r := by omega
  have hlock := ht.lock
  rw [hp] at hlock
  exact ht.go .proceed (s.setCallLock h.workerId none) (.done outcome) rfl hnext hpos rfl rfl hlock
    fun ht => ht.ended hpos

theorem Turn.callSettle {tool : String} {outcome : Outcome} (ht : Turn s t (.callSettle h tool outcome))
    (hr : 2 ≤ r) : Alone cfg t r s := by
  by_cases hdead : s.stateOf h.workerId = .dead ∨ (s.slot h.workerId).transportClosed = true
  · exact ht.retireCall .proceed rfl rfl (congrArg some (if_pos hdead)) hr
  · by_cases hlease : (s.stateOf h.workerId).belongsToLease h.leaseId = true
    · exact ht.endCall rfl (congrArg some ((if_neg hdead).trans (if_pos hlease))) hr
    · exact ht.endCall rfl (congrArg some ((if_neg hdead).trans (if_neg hlease))) hr

theorem Turn.settleCall {tool : String} {tracksOpen : Bool} {outcome : Outcome} {answer : Option Answer}
    (ht : Turn s t (.callAwait h tool tracksOpen answer))
    (hnext : next cfg s t (.callAwait h tool tracksOpen answer) .proceed =
      some (settleCall s t h tool tracksOpen outcome)) (hr : 2 ≤ r) : Alone cfg t r s := by
  cases tracksOpen with
  | true =>
    exact ht.go .proceed s (.callSettle h tool outcome) rfl hnext (by omega) rfl rfl ht.lock
      fun ht => ht.callSettle hr
  | false => exact ht.endCall rfl hnext hr

theorem Turn.callAwait {tool : String} {tracksOpen : Bool} {answer : Option Answer}
    (ht : Turn s t (.callAwait h tool tracksOpen answer)) (hr : 2 ≤ r) : Alone cfg t r s := by
  cases answer with
  | none => exact ht.retireCall (.timedOut 0) rfl rfl rfl hr
  | some answer =>
    cases answer with
    | rejected error => exact ht.settleCall rfl hr
    | result result =>
      cases hretire : replyRetirement tool tracksOpen result with
      | some error =>
        have hnext : next cfg s t (.callAwait h tool tracksOpen (some (.result result))) .proceed =
            some (Pool.retireCall s t h error) := by
          simp only [next, Pool.callAwait, hretire]
        exact ht.retireCall .proceed rfl rfl hnext hr
      | none =>
        have hnext : next cfg s t (.callAwait h tool tracksOpen (some (.result result))) .proceed =
            some (Pool.settleCall s t h tool tracksOpen (.reply result)) := by
          simp only [next, Pool.callAwait, hretire]
        exact ht.settleCall hnext hr

theorem Turn.callAdmission {tool : String} {tracksOpen : Bool} (ht : Turn s t (.callAdmission h tool tracksOpen))
    (hcall : (s.slot h.workerId).callLock = none) (hr : 2 ≤ r) : Alone cfg t r s := by
  have hpos : 0 < r := by omega
  cases hadmission : admissionError s h tool with
  | some error =>
    refine ht.go .proceed s (.done (.error error)) rfl ?_ hpos rfl rfl ht.lock fun ht => ht.ended hpos
    simp only [next, Pool.callAdmission, if_pos hcall, hadmission]
  | none =>
    refine ht.go .proceed (send (s.setCallLock h.workerId (some t)) t h tool)
      (.callAwait h tool tracksOpen none) rfl ?_ hpos rfl rfl ht.lock fun ht => ht.callAwait hr
    simp only [next, Pool.callAdmission, if_pos hcall, hadmission]

theorem Turn.leaseScan {rest deadIds : List WorkerId} {active : ℕ}
    (ht : Turn s t (.leaseScan session lease rest active deadIds))
    (hr : 3 ≤ r ∨ s.spawning = [] ∧ 2 ≤ r) : Alone cfg t r s := by
  have hpos : 0 < r := by omega
  induction rest generalizing s active deadIds with
  | nil =>
    have hnext : next cfg s t (.leaseScan session lease [] active deadIds) .proceed =
      some (Pool.leaseScan cfg s t session lease [] active deadIds) := rfl
    by_cases hmax : cfg.maxWorkers ≤ active
    · by_cases hspawning : s.spawning = []
      · refine ht.go .proceed ((s.forget deadIds).setPoolLock none)
          (.done (.error (.poolExhausted active cfg.maxWorkers))) rfl ?_ hpos rfl rfl rfl
          fun ht => ht.ended hpos
        rw [hnext, Pool.leaseScan, if_pos hmax, if_pos hspawning]
      · refine ht.go .proceed ((s.forget deadIds).setPoolLock none) (.leaseLoop session lease) rfl ?_ hpos rfl
          rfl rfl fun ht => ht.ended ?_
        · rw [hnext, Pool.leaseScan, if_pos hmax, if_neg hspawning]
        · exact hr.resolve_right fun hr => hspawning hr.1
    · by_cases hshut : s.shuttingDown = true
      · refine ht.go .proceed ((s.forget deadIds).setPoolLock none) (.done (.error .workerClosed)) rfl ?_ hpos
          rfl rfl rfl fun ht => ht.ended hpos
        rw [hnext, Pool.leaseScan, if_neg hmax, if_pos hshut]
      · refine ht.go .proceed ((s.forget deadIds).reserve.setPoolLock none)
          (.spawnSlot (.lease session lease) s.nextId) rfl ?_ hpos rfl rfl rfl fun ht => ht.spawnSlot hpos
        rw [hnext, Pool.leaseScan, if_neg hmax, if_neg hshut]
  | cons w rest ih =>
    have hnext : next cfg s t (.leaseScan session lease (w :: rest) active deadIds) .proceed =
      some (Pool.leaseScan cfg s t session lease (w :: rest) active deadIds) := rfl
    cases hstate : s.stateOf w with
    | dead =>
      refine ht.go .proceed s (.leaseScan session lease rest active (deadIds ++ [w])) rfl ?_ hpos rfl rfl
        ht.lock fun ht => ih ht hr
      simp only [hnext, Pool.leaseScan, hstate]
    | idle =>
      refine ht.go .proceed (((s.useSlot w (.leased session lease)).setPoolLock none).issue
        ⟨w, session, lease, false⟩) (.done (.leased ⟨w, session, lease, false⟩)) rfl ?_ hpos rfl rfl rfl
        fun ht => ht.ended hpos
      simp only [hnext, Pool.leaseScan, hstate]
    | leased | closing =>
      refine ht.go .proceed s (.leaseScan session lease rest (active + 1) deadIds) rfl ?_ hpos rfl rfl
        ht.lock fun ht => ih ht hr
      simp only [hnext, Pool.leaseScan, hstate]

theorem Turn.leaseLoop (ht : Turn s t (.leaseLoop session lease)) (hspawning : s.spawning = [])
    (hr : 2 ≤ r) : Alone cfg t r s := by
  have hpos : 0 < r := by omega
  have hlock : s.poolLock = none := ht.lock
  by_cases hshut : s.shuttingDown = true
  · refine ht.go .proceed s (.done (.error .workerClosed)) rfl ?_ hpos rfl rfl ht.lock fun ht => ht.ended hpos
    simp only [next, if_pos hlock, if_pos hshut]
  · refine ht.go .proceed (s.setPoolLock (some t)) (.leaseScan session lease s.children s.spawning.length [])
      rfl ?_ hpos rfl rfl rfl fun ht => ht.leaseScan (.inr ⟨hspawning, hr⟩)
    simp only [next, if_pos hlock, if_neg hshut]

theorem Turn.takeLeaseId (ht : Turn s t (.takeLeaseId session)) (hspawning : s.spawning = []) (hr : 2 ≤ r) :
    Alone cfg t r s :=
  ht.go .proceed { s with nextLeaseId := s.nextLeaseId + 1 } (.leaseLoop session (s.nextLeaseId + 1)) rfl
    (if_pos ht.lock) (by omega) rfl rfl ht.lock fun ht => ht.leaseLoop hspawning hr

theorem Turn.reapScan {rest : List WorkerId} {sleepStarted liveCount : ℕ}
    (ht : Turn s t (.reapScan w sleepStarted rest liveCount)) (hr : 0 < r) : Alone cfg t r s := by
  induction rest generalizing s liveCount with
  | nil =>
    have hnext : next cfg s t (.reapScan w sleepStarted [] liveCount) .proceed =
      some (Pool.reapScan cfg s t w sleepStarted [] liveCount) := rfl
    by_cases hreap : cfg.minWorkers < liveCount ∧ s.stateOf w = .idle ∧ (s.slot w).lastUsed ≤ sleepStarted
    · refine ht.go .proceed ((s.setState w .dead).setPoolLock none) (.forgetSlot w false (.stop .finished)) rfl
        ?_ hr rfl rfl rfl fun ht => ht.forget hr
      rw [hnext, Pool.reapScan, if_pos hreap]
    · refine ht.go .proceed (s.setPoolLock none) (.done .finished) rfl ?_ hr rfl rfl rfl fun ht => ht.ended hr
      rw [hnext, Pool.reapScan, if_neg hreap]
  | cons x rest ih => exact ht.go .proceed s _ rfl rfl hr rfl rfl ht.lock fun ht => ih ht

theorem Turn.reapSleep {sleepStarted : ℕ} (ht : Turn s t (.reapSleep w sleepStarted)) (hr : 0 < r) :
    Alone cfg t r s := by
  let s₁ : State := { s with now := s.now + (sleepStarted + cfg.workerIdleTimeout) }
  have ht₁ : Turn s₁ t (.reapSleep w sleepStarted) := ⟨ht.fresh, ht.task, ht.lock⟩
  have hwoken : sleepStarted + cfg.workerIdleTimeout ≤ s₁.now ∧ s₁.poolLock = none :=
    ⟨Nat.le_add_left _ _, ht.lock⟩
  have htick : step cfg s (.tick (sleepStarted + cfg.workerIdleTimeout)) = some s₁ := rfl
  refine .go rfl htick ⟨fun _ _ _ => rfl, Nat.le_refl _, rank_of_fresh ht₁.fresh hr⟩ ?_
  exact ht₁.go .proceed (s₁.setPoolLock (some t)) (.reapScan w sleepStarted s₁.children s₁.spawning.length) rfl
    (if_pos hwoken) hr rfl rfl rfl fun ht => ht.reapScan hr

theorem Turn.reapStart (ht : Turn s t (.reapStart w)) (hr : 0 < r) : Alone cfg t r s := by
  by_cases hoff : cfg.workerIdleTimeout = 0
  · exact ht.go .proceed s (.done .finished) rfl (if_pos hoff) hr rfl rfl ht.lock fun ht => ht.ended hr
  · exact ht.go .proceed s (.reapSleep w s.now) rfl (if_neg hoff) hr rfl rfl ht.lock fun ht => ht.reapSleep hr

theorem Turn.killSlots (ht : Turn s t .killSlots) (hr : 2 ≤ r) : Alone cfg t r s := by
  obtain ⟨d, hd⟩ := ht.task
  obtain ⟨_, _, -, hkill⟩ := killSlots_frame s.children s
  apply ht.begins (Pool.killSlots s s.children) (.awaitKills (List.range' s.nextTask s.children.length))
    (if_pos ht.lock) (by omega) (fresh_killSlots _ ht.fresh)
    (frame_killSlots _ ht.fresh (ht.fresh.lt hd) hr) (fun _ hd => task_killSlots _ ht.fresh hd)
  · rw [hkill]
    exact ht.lock
  · exact fun ht => ht.ended hr

theorem startups_goto (ht : s.task t = some ⟨p, d⟩) (hp : p'.tracked = p.tracked) :
    startups (s.goto t p') = startups s := by
  apply List.filter_congr
  intro t' _
  by_cases htt : t' = t
  · subst htt
    rw [task_goto_self ht, ht]
    exact hp
  · rw [task_goto_of_ne htt]

theorem Turn.awaitStartups (ht : Turn s t .awaitStartups) (hidle : startups s = []) (hr : 2 ≤ r) :
    Alone cfg t r s :=
  ht.go .proceed s .killSlots rfl (if_pos hidle) (by omega) rfl rfl ht.lock fun ht => ht.killSlots hr

theorem Turn.beginShutdown (ht : Turn s t .beginShutdown) (hidle : startups s = []) (hr : 2 ≤ r) :
    Alone cfg t r s := by
  obtain ⟨d, hd⟩ := ht.task
  refine ht.go .proceed { s with shuttingDown := true } .awaitStartups rfl (if_pos ht.lock) (by omega) rfl rfl
    ht.lock fun ht => ht.awaitStartups ?_ hr
  have hsame := startups_goto (s := { s with shuttingDown := true }) hd
    (show Position.awaitStartups.tracked = Position.beginShutdown.tracked from rfl)
  exact hsame.trans hidle

theorem Turn.awaitKills {tasks : List TaskId} (ht : Turn s t (.awaitKills tasks))
    (hdone : tasks.all (isDone s) = true) (hr : 0 < r) : Alone cfg t r s :=
  ht.go .proceed s (.done .finished) rfl (if_pos hdone) hr rfl rfl ht.lock fun ht => ht.ended hr

def Position.retires : Position → Bool
  | .takeDead _ none false (.stop _) | .forgetSlot _ false (.stop _) | .done _ => true
  | _ => false

def State.Dismisses (s : State) : Prop :=
  ∀ t tasks, s.role awaits t = some tasks → ∀ t' ∈ tasks, t' < s.nextTask ∧
    ∀ p d, s.task t' = some ⟨p, d⟩ → p.retires = true

theorem retires_advance {slot : WorkerId → ChildSlot} (hadvance : Advance cfg s a slot t p p')
    (hp : p.retires = true) : p'.retires = true := by
  cases hadvance with
  | moved _ hmove => cases hmove <;> cases hp
  | @tookDead w lease replenish k =>
    cases lease <;> cases replenish <;> cases k <;> first | rfl | cases hp
  | @forgot w k => cases k <;> first | rfl | cases hp
  | _ => cases hp

theorem task_killSlots_of_range {slots : List WorkerId} (hfresh : s.Fresh)
    (ht : t ∈ List.range' s.nextTask slots.length) :
    t < (killSlots s slots).nextTask ∧ ∃ w, (killSlots s slots).task t = some (killTask w) := by
  induction slots generalizing s with
  | nil => simp at ht
  | cons w slots ih =>
    have hfresh₁ : (s.spawn (.takeDead w none false (.stop .finished)) true).Fresh := hfresh.spawn _ _
    rw [List.length_cons, List.range'_succ] at ht
    rcases List.mem_cons.mp ht with rfl | ht
    · obtain ⟨_, _, hnext, hkill⟩ :=
        killSlots_frame slots (s.spawn (.takeDead w none false (.stop .finished)) true)
      refine ⟨?_, w, task_killSlots slots hfresh₁ (Function.update_self ..)⟩
      rw [killSlots, hkill]
      exact hnext
    · exact ih hfresh₁ ht

theorem killSlots_dismisses (hfresh : s.Fresh) (hstep : step cfg s a = some s')
    (ht : s.task t = some ⟨.killSlots, d⟩) {tasks : List TaskId} (ht' : s'.role awaits t = some tasks)
    {t' : TaskId} (hmem : t' ∈ tasks) : t' < s'.nextTask ∧
      ∀ p d, s'.task t' = some ⟨p, d⟩ → p.retires = true := by
  obtain ⟨choice, hnext⟩ := next_of_role hfresh hstep ht rfl nofun nofun ht'
  cases choice with
  | proceed =>
    simp only [next] at hnext
    split_ifs at hnext
    cases hnext
    rw [role_goto awaits (task_killSlots s.children hfresh ht), Function.update_self] at ht'
    cases ht'
    obtain ⟨hlt, w, hkill⟩ := task_killSlots_of_range hfresh hmem
    refine ⟨hlt, fun p d hp => ?_⟩
    have hne : t' ≠ t := Nat.ne_of_gt (Nat.lt_of_lt_of_le (hfresh.lt ht) (List.mem_range'_1.mp hmem).1)
    rw [task_goto_of_ne hne, hkill] at hp
    cases hp
    rfl
  | _ => cases hnext

theorem State.Dismisses.step (h : s.Dismisses) (hfresh : s.Fresh) (hstep : step cfg s a = some s') :
    s'.Dismisses := by
  have htransition := transition_of_step hstep
  have htasks := taskStep_transition hfresh htransition
  intro t tasks ht t' hmem
  rcases htasks.role ht with ⟨_, -, -, hold⟩ | ⟨p, p', d, hp, -, hadvance, hp'⟩ | ⟨p, -, hbegun, hp⟩
  · obtain ⟨hlt, hretires⟩ := h t tasks hold t' hmem
    refine ⟨Nat.lt_of_lt_of_le hlt (counters_le htransition).2, fun p d hp => ?_⟩
    rcases htasks t' p d hp with hsame | ⟨p₀, hp₀, hadvance⟩ | ⟨hnew, -⟩
    · exact hretires p d hsame
    · exact retires_advance hadvance (hretires p₀ d hp₀)
    · exact absurd hlt (Nat.not_lt.mpr hnew)
  · have hkills : p = .killSlots := by
      cases hadvance with
      | slotsKilled => rfl
      | moved _ hmove =>
        cases hmove with
        | closeNotSent | closeSendTimedOut | closeAnswered | closeTimedOut | closeLost =>
          rcases afterClosePosition_cases _ _ with ⟨e, -, -, hafter⟩ | ⟨-, hafter⟩ <;>
            rw [hafter] at hp' <;> cases hp'
        | _ => cases hp'
      | @leaseGone _ _ _ k | @forgot _ k | @replenished k => cases k <;> cases hp'
      | _ => cases hp'
    subst hkills
    exact killSlots_dismisses hfresh hstep hp ht hmem
  · have hbegins := hbegun.begins
    cases p with
    | awaitKills => cases hbegins
    | _ => cases hp

/-- What keeps tasks from waiting for each other in a circle: whatever one of them waits for is held by a
task that waits for nothing of the kind. -/
structure Orderly (cfg : WorkerPoolConfig) (s : State) : Prop where
  accounted : Accounted cfg s
  held : (ledger s).Held
  manned : s.Manned
  dismisses : s.Dismisses

theorem Orderly.step (h : Orderly cfg s) (hstep : step cfg s a = some s') : Orderly cfg s' := by
  have htransition := transition_of_step hstep
  exact ⟨h.accounted.step hstep, h.held.steps (ledgerSteps_transition h.accounted.fresh htransition),
    manned_transition h.manned h.accounted.fresh htransition, h.dismisses.step h.accounted.fresh hstep⟩

theorem orderly_warmed : Orderly cfg (warmed cfg) where
  accounted := ⟨fresh_warmed, sound_warmed⟩
  held t ht := by cases ht
  manned w t ht := by cases ht
  dismisses t tasks ht := by cases ht

theorem Accounted.alone (h : Accounted cfg s) (ht : s.task t = some ⟨p, d⟩)
    (hlock : s.poolLock = bif p.holdsPool then some t else none)
    (hturn : Turn s t p → Alone cfg t p.rank s) :
    ∃ t < agents.started s, Alone cfg t (agents.rank s t) s := by
  refine ⟨t, h.fresh.lt ht, ?_⟩
  rw [rank_eq ht]
  exact hturn ⟨h.fresh, ⟨d, ht⟩, hlock⟩

theorem holder_alone (h : Accounted cfg s) (hlock : s.poolLock = none) (hheld : s.role holdsCall t = some w) :
    ∃ t < agents.started s, Alone cfg t (agents.rank s t) s := by
  obtain ⟨⟨p, d⟩, ht, hp⟩ := role_eq_some hheld
  cases p with
  | releaseSend => exact h.alone ht hlock fun ht => ht.releaseSend (Nat.le_refl _)
  | releaseAwait => exact h.alone ht hlock fun ht => ht.releaseAwait (Nat.le_refl _)
  | releaseReset => exact h.alone ht hlock fun ht => ht.releaseReset (Nat.le_refl _)
  | callAwait => exact h.alone ht hlock fun ht => ht.callAwait (Nat.le_refl _)
  | callSettle => exact h.alone ht hlock fun ht => ht.callSettle (Nat.le_refl _)
  | takeDead => exact h.alone ht hlock fun ht => ht.take (Nat.le_refl _)
  | forgetSlot => exact h.alone ht hlock fun ht => ht.forget (Nat.le_refl _)
  | scheduleReplenishment => exact h.alone ht hlock fun ht => ht.schedule (Nat.le_refl _)
  | _ => cases hp

theorem owner_alone (h : Accounted cfg s) (hlock : s.poolLock = none) (howner : s.role reserves t = some w) :
    ∃ t < agents.started s, Alone cfg t (agents.rank s t) s := by
  obtain ⟨⟨p, d⟩, ht, hp⟩ := role_eq_some howner
  cases p with
  | spawnSlot => exact h.alone ht hlock fun ht => ht.spawnSlot Nat.one_pos
  | finishSpawn => exact h.alone ht hlock fun ht => ht.finishSpawn Nat.one_pos
  | unreserve => exact h.alone ht hlock fun ht => ht.unreserve Nat.one_pos
  | takeDead => exact h.alone ht hlock fun ht => ht.take (Nat.le_refl _)
  | forgetSlot => exact h.alone ht hlock fun ht => ht.forget (Nat.le_refl _)
  | scheduleReplenishment => exact h.alone ht hlock fun ht => ht.schedule (Nat.le_refl _)
  | _ => cases hp

theorem Orderly.exists_alone (h : Orderly cfg s) (hrank : ∃ t, agents.rank s t ≠ 0) :
    ∃ t < agents.started s, Alone cfg t (agents.rank s t) s := by
  have hacc := h.accounted
  cases hlock : s.poolLock with
  | some t =>
    obtain ⟨x, hx⟩ := h.held t hlock
    obtain ⟨⟨p, d⟩, ht, hp⟩ := role_eq_some hx
    cases p with
    | leaseScan => exact hacc.alone ht hlock fun ht => ht.leaseScan (.inl (Nat.le_refl _))
    | reapScan => exact hacc.alone ht hlock fun ht => ht.reapScan Nat.one_pos
    | _ => cases hp
  | none =>
    by_cases hspawning : s.spawning = []
    · have hidle := hacc.startups_eq_nil_iff.mpr hspawning
      have hcalls {w : WorkerId} {t : TaskId} (hcall : (s.slot w).callLock = some t) :
          ∃ t < agents.started s, Alone cfg t (agents.rank s t) s :=
        holder_alone hacc hlock (h.manned w t hcall)
      obtain ⟨t, hrank⟩ := hrank
      cases htask : s.task t with
      | none => simp [agents, htask] at hrank
      | some task =>
        obtain ⟨p, d⟩ := task
        cases p with
        | done => simp [agents, htask, rank] at hrank
        | takeLeaseId => exact hacc.alone htask hlock fun ht => ht.takeLeaseId hspawning (Nat.le_refl _)
        | leaseLoop => exact hacc.alone htask hlock fun ht => ht.leaseLoop hspawning (Nat.le_refl _)
        | leaseScan | reapScan =>
          have hheld := hlock.symm.trans (hacc.sound.scan_lock t _ (role_eq scanning htask))
          cases hheld
        | spawnSlot => exact hacc.alone htask hlock fun ht => ht.spawnSlot Nat.one_pos
        | finishSpawn => exact hacc.alone htask hlock fun ht => ht.finishSpawn Nat.one_pos
        | unreserve => exact hacc.alone htask hlock fun ht => ht.unreserve Nat.one_pos
        | takeDead => exact hacc.alone htask hlock fun ht => ht.take (Nat.le_refl _)
        | forgetSlot => exact hacc.alone htask hlock fun ht => ht.forget (Nat.le_refl _)
        | scheduleReplenishment => exact hacc.alone htask hlock fun ht => ht.schedule (Nat.le_refl _)
        | releaseLock h =>
          cases hcall : (s.slot h.workerId).callLock with
          | none => exact hacc.alone htask hlock fun ht => ht.releaseLock hcall (Nat.le_refl _)
          | some t₀ => exact hcalls hcall
        | releaseSend => exact hacc.alone htask hlock fun ht => ht.releaseSend (Nat.le_refl _)
        | releaseAwait => exact hacc.alone htask hlock fun ht => ht.releaseAwait (Nat.le_refl _)
        | releaseReset => exact hacc.alone htask hlock fun ht => ht.releaseReset (Nat.le_refl _)
        | releaseIdleCheck => exact hacc.alone htask hlock fun ht => ht.idleCheck (Nat.le_refl _)
        | callAdmission h =>
          cases hcall : (s.slot h.workerId).callLock with
          | none => exact hacc.alone htask hlock fun ht => ht.callAdmission hcall (Nat.le_refl _)
          | some t₀ => exact hcalls hcall
        | callAwait => exact hacc.alone htask hlock fun ht => ht.callAwait (Nat.le_refl _)
        | callSettle => exact hacc.alone htask hlock fun ht => ht.callSettle (Nat.le_refl _)
        | reapStart => exact hacc.alone htask hlock fun ht => ht.reapStart Nat.one_pos
        | reapSleep => exact hacc.alone htask hlock fun ht => ht.reapSleep Nat.one_pos
        | beginShutdown => exact hacc.alone htask hlock fun ht => ht.beginShutdown hidle (Nat.le_refl _)
        | awaitStartups => exact hacc.alone htask hlock fun ht => ht.awaitStartups hidle (Nat.le_refl _)
        | killSlots => exact hacc.alone htask hlock fun ht => ht.killSlots (Nat.le_refl _)
        | awaitKills tasks =>
          by_cases hdone : tasks.all (isDone s) = true
          · exact hacc.alone htask hlock fun ht => ht.awaitKills hdone Nat.one_pos
          · -- A kill that is awaited and not over can go on.
            simp only [List.all_eq_true, not_forall] at hdone
            obtain ⟨t', hmem, hopen⟩ := hdone
            obtain ⟨-, hretires⟩ := h.dismisses t tasks (role_eq awaits htask) t' hmem
            cases htask' : s.task t' with
            | none => simp [isDone, htask'] at hopen
            | some task' =>
              obtain ⟨p', d'⟩ := task'
              cases p' with
              | done => simp [isDone, htask'] at hopen
              | takeDead => exact hacc.alone htask' hlock fun ht => ht.take (Nat.le_refl _)
              | forgetSlot => exact hacc.alone htask' hlock fun ht => ht.forget (Nat.le_refl _)
              | _ => cases hretires _ d' htask'
    · obtain ⟨w, hw⟩ := List.exists_mem_of_ne_nil _ hspawning
      obtain ⟨t, ht⟩ := hacc.sound.owned w hw
      exact owner_alone hacc hlock ht

structure State.Quiesced (s : State) : Prop where
  done : ∀ t, isDone s t = true
  unlocked : s.poolLock = none
  free : ∀ w, (s.slot w).callLock = none
  settled : s.spawning = []

theorem Orderly.quiesced (h : Orderly cfg s) (hrank : ∀ t, agents.rank s t = 0) : s.Quiesced := by
  have hdone (t : TaskId) : isDone s t = true := by
    cases htask : s.task t with
    | none => simp [isDone, htask]
    | some task =>
      obtain ⟨p, d⟩ := task
      have hp := hrank t
      rw [rank_eq htask] at hp
      cases p with
      | done => simp [isDone, htask]
      | takeDead _ _ replenish k | forgetSlot _ replenish k =>
        have hbounds := k.rank_bounds.1
        simp only [rank] at hp
        split_ifs at hp
        omega
      | _ => cases hp
  have hidle {α : Type} (f : Position → Option α) (hf : ∀ outcome, f (.done outcome) = none) (t : TaskId) :
      s.role f t = none := by
    cases htask : s.task t with
    | none => simp [role, htask]
    | some task =>
      obtain ⟨p, d⟩ := task
      have hp := hdone t
      cases p with
      | done => exact (role_eq f htask).trans (hf _)
      | _ => simp [isDone, htask] at hp
  refine ⟨hdone, ?_, fun w => ?_, ?_⟩
  · by_contra hlock
    obtain ⟨t, ht⟩ := Option.ne_none_iff_exists'.mp hlock
    obtain ⟨x, hx⟩ := h.held t ht
    have hnone := hx.symm.trans (hidle scanning (fun _ => rfl) t)
    cases hnone
  · by_contra hcall
    obtain ⟨t, ht⟩ := Option.ne_none_iff_exists'.mp hcall
    have hnone := (h.manned w t ht).symm.trans (hidle holdsCall (fun _ => rfl) t)
    cases hnone
  · by_contra hspawning
    obtain ⟨w, hw⟩ := List.exists_mem_of_ne_nil _ hspawning
    obtain ⟨t, ht⟩ := h.accounted.sound.owned w hw
    have hnone := ht.symm.trans (hidle reserves (fun _ => rfl) t)
    cases hnone

/-- The pool never deadlocks: whatever its tasks are in the middle of, they can all be brought to their
end without a client or an answer of a child. -/
theorem pool_drains (h : Reachable (step cfg) (warmed cfg) s) :
    ∃ s', ReachableBy (step cfg) (fun _ a => a.unaided = true) s s' ∧ s'.Quiesced := by
  have horderly : Orderly cfg s := invariant_of_reachable (fun _ _ _ => Orderly.step) orderly_warmed h
  have hdrains : ∃ s', ReachableBy (step cfg) (fun _ a => a.unaided = true) s s' ∧
      ∀ t, agents.rank s' t = 0 :=
    Agents.drains (fun _ _ _ h _ hstep => Orderly.step h hstep) (fun _ h hrank => h.exists_alone hrank)
      horderly
  obtain ⟨s', hreach, hrank⟩ := hdrains
  have horderly' : Orderly cfg s' :=
    invariant_of_meets (fun _ _ _ h _ hstep => Orderly.step h hstep) horderly hreach
  exact ⟨s', hreach, horderly'.quiesced hrank⟩

theorem pool_drains_waiting : ∃ s s' : State, Reachable (step ⟨1, 1, 5⟩) (warmed ⟨1, 1, 5⟩) s ∧
    (s.slot 0).callLock = some 1 ∧ (step ⟨1, 1, 5⟩ s (.run 2 .proceed)).isNone = true ∧
    ReachableBy (step ⟨1, 1, 5⟩) (fun _ a => a.unaided = true) s s' ∧ s'.Quiesced := by
  let actions : List Action := [.start (.lease 7), .run 0 .proceed, .run 0 .proceed, .run 0 .proceed,
    .start (.call ⟨0, 7, 1, false⟩ "open_idb" true), .run 1 .proceed, .start (.release ⟨0, 7, 1, false⟩),
    .start .shutdownAll, .run 3 .proceed, .run 3 .proceed, .run 3 .proceed]
  have hview : (run (step ⟨1, 1, 5⟩) (warmed ⟨1, 1, 5⟩) actions).map (fun s =>
      ((s.slot 0).callLock, (step ⟨1, 1, 5⟩ s (.run 2 .proceed)).isNone)) = some (some 1, true) := by
    decide +kernel
  obtain ⟨s, hs, hpair⟩ := Option.map_eq_some_iff.mp hview
  obtain ⟨hcall, hwaits⟩ := Prod.mk.inj hpair
  have hreach : Reachable (step ⟨1, 1, 5⟩) (warmed ⟨1, 1, 5⟩) s := ⟨actions, hs⟩
  obtain ⟨s', hdrain, hquiesced⟩ := pool_drains hreach
  exact ⟨s, s', hreach, hcall, hwaits, hdrain, hquiesced⟩

end IdaMcp.Pool
