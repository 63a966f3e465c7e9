import IdaMcp.Foundation.Ledger
import IdaMcp.Pool.Roles

namespace IdaMcp.Pool

open Foundation State Relation

variable {cfg : WorkerPoolConfig} {s s' : State} {t : TaskId} {d : Bool} {p p' : Position}

namespace Position

def reserves : Position → Option WorkerId
  | spawnSlot _ w | finishSpawn _ w | unreserve w _ | takeDead _ _ _ (.unreserve w _)
  | forgetSlot _ _ (.unreserve w _) | scheduleReplenishment (.unreserve w _) => some w
  | _ => none

def scanning : Position → Option (List WorkerId × ℕ)
  | leaseScan _ _ rest active _ => some (rest, active)
  | reapScan _ _ rest liveCount => some (rest, liveCount)
  | _ => none

theorem reserves_continuation (k : Continuation) (w : WorkerId) (lease : Option LeaseId)
    (replenish : Bool) :
    k.position.reserves = (takeDead w lease replenish k).reserves ∧
      k.position.reserves = (forgetSlot w replenish k).reserves ∧
      k.position.reserves = (scheduleReplenishment k).reserves := by
  cases k <;> exact ⟨rfl, rfl, rfl⟩

theorem scanning_continuation (k : Continuation) : k.position.scanning = none := by
  cases k <;> rfl

theorem holdsPool_iff_scanning : p.holdsPool = true ↔ p.scanning.isSome = true := by
  cases p <;> simp [holdsPool, scanning]

theorem tracked_eq : p.tracked = p.reserves.isSome := by
  cases p with
  | takeDead _ _ _ k | forgetSlot _ _ k | scheduleReplenishment k => cases k <;> rfl
  | _ => rfl

end Position

open Position

/-- The pool as capacity accounting sees it. -/
def ledger (s : State) : Ledger TaskId where
  installed := s.children
  reserved := s.spawning
  nextId := s.nextId
  live := s.isLive
  owner := s.role reserves
  lock := s.poolLock
  scan := s.role scanning

def LedgerSteps (cfg : WorkerPoolConfig) (s s' : State) : Prop :=
  ReflTransGen (Ledger.Step cfg.maxWorkers) (ledger s) (ledger s')

theorem LedgerSteps.refl (cfg : WorkerPoolConfig) (s : State) : LedgerSteps cfg s s :=
  ReflTransGen.refl

theorem LedgerSteps.trans {s'' : State} (h : LedgerSteps cfg s s') (h' : LedgerSteps cfg s' s'') :
    LedgerSteps cfg s s'' :=
  ReflTransGen.trans h h'

theorem forget_nil (s : State) : s.forget [] = s := by simp [forget, setChildren]

theorem ledgerSteps_single {l : Ledger TaskId} (hstep : Ledger.Step cfg.maxWorkers (ledger s) l)
    (hinstalled : s'.children = l.installed) (hreserved : s'.spawning = l.reserved)
    (hnext : s'.nextId = l.nextId) (hlive : s'.isLive = l.live)
    (howner : s'.role reserves = l.owner) (hlock : s'.poolLock = l.lock)
    (hscan : s'.role scanning = l.scan) : LedgerSteps cfg s s' := by
  have hledger : ledger s' = l := by
    rw [ledger, hinstalled, hreserved, hnext, hlive, howner, hlock, hscan]
  refine ReflTransGen.single ?_
  rw [hledger]
  exact hstep

theorem ledgerSteps_lose (hchildren : s'.children = s.children) (hspawning : s'.spawning = s.spawning)
    (hnext : s'.nextId = s.nextId) (hlock : s'.poolLock = s.poolLock)
    (hlive : ∀ w, s'.stateOf w ≠ .dead → s.stateOf w ≠ .dead)
    (howner : s'.role reserves = s.role reserves) (hscan : s'.role scanning = s.role scanning) :
    LedgerSteps cfg s s' := by
  have hlive' : ∀ w, s'.isLive w = true → s.isLive w = true := by
    intro w
    simpa [isLive] using hlive w
  exact ledgerSteps_single (.lose _ hlive') hchildren hspawning hnext rfl howner hlock hscan

theorem ledgerSteps_goto (ht : s.task t = some ⟨p, d⟩) (hres : p'.reserves = p.reserves)
    (hscan : p'.scanning = p.scanning) : LedgerSteps cfg s (s.goto t p') :=
  ledgerSteps_lose rfl rfl rfl rfl (fun _ h => h) (role_goto_of_eq ht hres)
    (role_goto_of_eq ht hscan)

theorem role_goto_of_eq_value {α : Type*} {f : Position → Option α} {x : Option α}
    (ht : s.task t = some ⟨p, d⟩) (hf : f p' = x) :
    (s.goto t p').role f = Function.update (s.role f) t x := by
  rw [role_goto f ht, hf]

theorem ledgerSteps_endScan {x : List WorkerId × ℕ} (ht : s.task t = some ⟨p, d⟩)
    (hx : p.scanning = some x) (hres : p'.reserves = p.reserves) (hscan : p'.scanning = none)
    {deadIds : List WorkerId} :
    LedgerSteps cfg s (((s.forget deadIds).setPoolLock none).goto t p') := by
  have hrole : (ledger s).scan t = some x := (role_eq scanning ht).trans hx
  exact ledgerSteps_single (.endScan hrole fun i => decide (i ∉ deadIds)) rfl rfl rfl rfl
    (role_goto_of_eq (s := (s.forget deadIds).setPoolLock none) ht hres) rfl
    (role_goto_of_eq_value (s := (s.forget deadIds).setPoolLock none) ht hscan)

theorem ledgerSteps_unlockPool {x : List WorkerId × ℕ} (ht : s.task t = some ⟨p, d⟩)
    (hx : p.scanning = some x) (hres : p'.reserves = p.reserves) (hscan : p'.scanning = none) :
    LedgerSteps cfg s ((s.setPoolLock none).goto t p') := by
  have hend : LedgerSteps cfg s (((s.forget []).setPoolLock none).goto t p') :=
    ledgerSteps_endScan ht hx hres hscan
  rwa [forget_nil] at hend

theorem ledgerSteps_beginScan (ht : s.task t = some ⟨p, d⟩) (hlock : s.poolLock = none)
    (hres : p'.reserves = p.reserves) (hscan : p'.scanning = some (s.children, s.spawning.length)) :
    LedgerSteps cfg s ((s.setPoolLock (some t)).goto t p') :=
  ledgerSteps_single (.beginScan t hlock) rfl rfl rfl rfl
    (role_goto_of_eq (s := s.setPoolLock (some t)) ht hres) rfl
    (role_goto_of_eq_value (s := s.setPoolLock (some t)) ht hscan)

theorem ledgerSteps_count {x : WorkerId} {rest : List WorkerId} {n : ℕ} (ht : s.task t = some ⟨p, d⟩)
    (hp : p.scanning = some (x :: rest, n)) (hres : p'.reserves = p.reserves)
    (hp' : p'.scanning = some (rest, if s.isLive x then n + 1 else n)) :
    LedgerSteps cfg s (s.goto t p') := by
  have hrole : (ledger s).scan t = some (x :: rest, n) := (role_eq scanning ht).trans hp
  exact ledgerSteps_single (.count hrole) rfl rfl rfl rfl (role_goto_of_eq ht hres) rfl
    (role_goto_of_eq_value ht hp')

theorem ledgerSteps_install {w : WorkerId} (ht : s.task t = some ⟨p, d⟩) (hlock : s.poolLock = none)
    (hp : p.reserves = some w) (hscan : p.scanning = none) (hp' : p'.reserves = none)
    (hscan' : p'.scanning = none) :
    LedgerSteps cfg s (((s.setChildren (s.children ++ [w])).unreserve w).goto t p') := by
  have hrole : (ledger s).owner t = some w := (role_eq reserves ht).trans hp
  exact ledgerSteps_single (.install hrole hlock) rfl rfl rfl rfl
    (role_goto_of_eq_value (s := (s.setChildren (s.children ++ [w])).unreserve w) ht hp') rfl
    (role_goto_of_eq (s := (s.setChildren (s.children ++ [w])).unreserve w) ht
      (hscan'.trans hscan.symm))

theorem ledgerSteps_unreserve {w : WorkerId} (ht : s.task t = some ⟨p, d⟩) (hlock : s.poolLock = none)
    (hp : p.reserves = some w) (hscan : p.scanning = none) (hp' : p'.reserves = none)
    (hscan' : p'.scanning = none) : LedgerSteps cfg s ((s.unreserve w).goto t p') := by
  have hrole : (ledger s).owner t = some w := (role_eq reserves ht).trans hp
  exact ledgerSteps_single (.cancel hrole hlock) rfl rfl rfl rfl
    (role_goto_of_eq_value (s := s.unreserve w) ht hp') rfl
    (role_goto_of_eq (s := s.unreserve w) ht (hscan'.trans hscan.symm))

theorem ledgerSteps_reserve {session : SessionId} {lease : LeaseId} {active : ℕ}
    {deadIds : List WorkerId} (ht : s.task t = some ⟨.leaseScan session lease [] active deadIds, d⟩)
    (hactive : active < cfg.maxWorkers) :
    LedgerSteps cfg s (((s.forget deadIds).reserve.setPoolLock none).goto t
      (.spawnSlot (.lease session lease) s.nextId)) := by
  have hrole : (ledger s).scan t = some ([], active) := role_eq scanning ht
  exact ledgerSteps_single (.reserveScanned hrole hactive (role_eq reserves ht) fun i => decide (i ∉ deadIds)) rfl rfl rfl
    rfl (role_goto reserves (s := (s.forget deadIds).reserve.setPoolLock none) ht _) rfl
    (role_goto scanning (s := (s.forget deadIds).reserve.setPoolLock none) ht _)

theorem ledgerSteps_build {purpose : Purpose} {w : WorkerId}
    (ht : s.task t = some ⟨.spawnSlot purpose w, d⟩) :
    LedgerSteps cfg s ((s.setSlot w (newSlot purpose.initialState s.now)).goto t
      (.finishSpawn purpose w)) := by
  have hrole : (ledger s).owner t = some w := role_eq reserves ht
  have hlive : (s.setSlot w (newSlot purpose.initialState s.now)).isLive =
      Function.update s.isLive w (decide (purpose.initialState ≠ .dead)) := by
    funext w'
    simp only [isLive, stateOf_setSlot, Function.update_apply]
    split_ifs <;> rfl
  exact ledgerSteps_single (.build hrole _) rfl rfl rfl hlive
    (role_goto_of_eq (s := s.setSlot w (newSlot purpose.initialState s.now)) ht rfl) rfl
    (role_goto_of_eq (s := s.setSlot w (newSlot purpose.initialState s.now)) ht rfl)

theorem ledgerSteps_forget {w : WorkerId} (hlock : s.poolLock = none) :
    LedgerSteps cfg s (s.forget [w]) :=
  ReflTransGen.single (.forget (fun i => decide (i ∉ [w])) hlock)

theorem ledgerSteps_unlock (ht : s.task t = some ⟨p, d⟩) (hres : p'.reserves = p.reserves)
    (hscan : p'.scanning = p.scanning) {w : WorkerId} :
    LedgerSteps cfg s ((s.setCallLock w none).goto t p') := by
  refine ledgerSteps_lose rfl rfl rfl rfl (fun w' hw' => ?_)
    (role_goto_of_eq (s := s.setCallLock w none) ht hres)
    (role_goto_of_eq (s := s.setCallLock w none) ht hscan)
  change (s.setCallLock w none).stateOf w' ≠ .dead at hw'
  rwa [stateOf_setCallLock] at hw'

theorem ledgerSteps_resume {k : Continuation} (ht : s.task t = some ⟨p, d⟩)
    (hres : k.position.reserves = p.reserves) (hscan : p.scanning = none) :
    LedgerSteps cfg s (resume s t k) := by
  have hscan' : k.position.scanning = p.scanning := by rw [hscan, scanning_continuation]
  rcases resume_cases s t k with hk | ⟨w, -, hk⟩
  · rw [hk]
    exact ledgerSteps_goto ht hres hscan'
  · rw [hk]
    exact ledgerSteps_unlock ht hres hscan'

theorem ledgerSteps_replenishTimes (n : ℕ) (hfresh : s.Fresh) (hlock : s.poolLock = none)
    (hroom : n ≠ 0 → s.spawning.length + s.children.length + n ≤ cfg.maxWorkers) :
    LedgerSteps cfg s (replenishTimes n s) := by
  induction n generalizing s with
  | zero => exact .refl _ _
  | succ n ih =>
    have hroom := hroom (Nat.succ_ne_zero n)
    have hreserve : LedgerSteps cfg s (s.reserve.spawn (.spawnSlot .minimum s.nextId) true) :=
      ledgerSteps_single (.reserve (t := s.nextTask) hlock (show _ < cfg.maxWorkers by
        change s.spawning.length + s.children.length < cfg.maxWorkers
        omega) (hfresh.role_nextTask reserves)) rfl rfl rfl rfl (role_spawn (s := s.reserve) reserves _ _) rfl
        (Fresh.role_spawn_of_none (s := s.reserve) hfresh rfl)
    refine hreserve.trans (ih (Fresh.spawn (s := s.reserve) hfresh _ _) hlock fun _ => ?_)
    change (s.spawning ++ [s.nextId]).length + s.children.length + n ≤ cfg.maxWorkers
    rw [List.length_append, List.length_singleton]
    omega

theorem ledgerSteps_replenish (hfresh : s.Fresh) (hlock : s.poolLock = none) :
    LedgerSteps cfg s (replenish cfg s) := by
  unfold replenish
  split_ifs
  · exact .refl _ _
  · refine ledgerSteps_replenishTimes _ hfresh hlock fun hn => ?_
    have hmin : minReplenished cfg ≤ cfg.maxWorkers := Nat.min_le_right _ _
    omega

theorem ledgerSteps_spawn (hfresh : s.Fresh) (hres : p.reserves = none) (hscan : p.scanning = none) :
    LedgerSteps cfg s (s.spawn p d) :=
  ledgerSteps_lose rfl rfl rfl rfl (fun _ h => h) (hfresh.role_spawn_of_none hres)
    (hfresh.role_spawn_of_none hscan)

theorem ledgerSteps_killSlots (slots : List WorkerId) (hfresh : s.Fresh) :
    LedgerSteps cfg s (killSlots s slots) := by
  induction slots generalizing s with
  | nil => exact .refl _ _
  | cons w slots ih => exact (ledgerSteps_spawn hfresh rfl rfl).trans (ih (hfresh.spawn _ _))

theorem move_roles {choice : Choice} (hmove : Move cfg s choice p p') :
    p'.reserves = p.reserves ∧ (p'.scanning = p.scanning ∨ ∃ x rest n,
      p.scanning = some (x :: rest, n) ∧
        p'.scanning = some (rest, if s.isLive x then n + 1 else n)) := by
  have hafter (h : PooledWorkerHandle) (error : Option ToolError) :
      (afterClosePosition h error).reserves = none ∧ (afterClosePosition h error).scanning = none := by
    cases error with
    | none => exact ⟨rfl, rfl⟩
    | some error =>
      simp only [afterClosePosition]
      split_ifs <;> exact ⟨rfl, rfl⟩
  cases hmove with
  | skipDead hdead =>
    refine ⟨rfl, .inr ⟨_, _, _, rfl, ?_⟩⟩
    simp [scanning, isLive, hdead]
  | countActive hdead hidle =>
    refine ⟨rfl, .inr ⟨_, _, _, rfl, ?_⟩⟩
    simp [scanning, isLive, hdead]
  | reapCount => exact ⟨rfl, .inr ⟨_, _, _, rfl, rfl⟩⟩
  | closeNotSent | closeSendTimedOut | closeAnswered | closeTimedOut | closeLost =>
    exact ⟨(hafter _ _).1, .inl (hafter _ _).2⟩
  | _ => exact ⟨rfl, .inl rfl⟩

theorem dropTask_roles : p.dropTask.bind reserves = p.reserves ∧ p.dropTask.bind scanning = none ∧
    (p.holdsPool = true → p.dropTask = none) := by
  cases p with
  | takeDead _ _ _ k | forgetSlot _ _ k | scheduleReplenishment k => cases k <;> exact ⟨rfl, rfl, nofun⟩
  | leaseScan | reapScan => exact ⟨rfl, rfl, fun _ => rfl⟩
  | _ => exact ⟨rfl, rfl, nofun⟩

theorem ledgerSteps_dropTask (hfresh : s.Fresh) (ht : s.task t = some ⟨p, d⟩)
    (hscan : p.scanning = none) :
    LedgerSteps cfg s (p.dropTask.elim (s.setTask t none) fun cleanup =>
      (s.setTask t none).spawn cleanup true) := by
  obtain ⟨hres, hdrop, -⟩ := dropTask_roles (p := p)
  have hscan' : Function.update (s.role scanning) t none = s.role scanning := by
    rw [← hscan, ← role_eq scanning ht, Function.update_eq_self]
  cases hcleanup : p.dropTask with
  | none =>
    rw [hcleanup, Option.bind_none] at hres
    refine ledgerSteps_lose rfl rfl rfl rfl (fun _ h => h) ?_ ?_
    · rw [Option.elim_none, role_setTask_none, hres, ← role_eq reserves ht, Function.update_eq_self]
    · rw [Option.elim_none, role_setTask_none, hscan']
  | some cleanup =>
    rw [hcleanup, Option.bind_some] at hres hdrop
    refine ledgerSteps_single (.transfer t (hfresh.role_nextTask reserves)) rfl rfl rfl rfl ?_ rfl ?_
    · rw [Option.elim_some, role_spawn, role_setTask_none, hres, ← role_eq reserves ht]
      rfl
    · rw [Option.elim_some, (hfresh.setTask_none t).role_spawn_of_none hdrop, role_setTask_none, hscan']
      rfl

theorem ledgerSteps_drop (hfresh : s.Fresh) (ht : s.task t = some ⟨p, d⟩) :
    LedgerSteps cfg s (dropTask s t p) := by
  obtain ⟨hres, -, hpool⟩ := dropTask_roles (p := p)
  cases hscan : p.scanning with
  | some x =>
    have hholds : p.holdsPool = true := by simp [holdsPool_iff_scanning, hscan]
    rw [hpool hholds, Option.bind_none] at hres
    have hdrop : dropTask s t p = (s.setPoolLock none).setTask t none := by
      have hcall : p.holdsCall = none := by
        cases p <;> simp [holdsPool] at hholds <;> rfl
      simp [dropTask, hholds, hcall, hpool hholds]
    have hrole : (ledger s).scan t = some x := (role_eq scanning ht).trans hscan
    rw [hdrop]
    refine ledgerSteps_single (.endScan hrole fun _ => true) ?_ rfl rfl rfl ?_ rfl
      (role_setTask_none (s := s.setPoolLock none) scanning t)
    · exact (List.filter_true _).symm
    · have howner := Function.update_eq_self t (s.role reserves)
      rw [role_eq reserves ht, ← hres] at howner
      rw [role_setTask_none]
      exact howner
  | none =>
    have hholds : p.holdsPool = false := by
      rw [← Bool.not_eq_true, holdsPool_iff_scanning, hscan]
      simp
    cases hcall : p.holdsCall with
    | none =>
      simpa [dropTask, hholds, hcall] using ledgerSteps_dropTask hfresh ht hscan
    | some w =>
      have hunlock : LedgerSteps cfg s (s.setCallLock w none) := by
        refine ledgerSteps_lose rfl rfl rfl rfl (fun w' hw' => ?_) rfl rfl
        rwa [stateOf_setCallLock] at hw'
      have hdrop : LedgerSteps cfg (s.setCallLock w none) _ := ledgerSteps_dropTask hfresh ht hscan
      simpa [dropTask, hholds, hcall] using hunlock.trans hdrop

theorem ledgerSteps_transition {a : Action} (hfresh : s.Fresh) (hstep : Transition cfg s a s') :
    LedgerSteps cfg s s' := by
  cases hstep with
  | @started operation hknown =>
    refine ledgerSteps_spawn hfresh ?_ ?_
    · cases operation with
      | markDeadForLease h guarded => cases guarded <;> rfl
      | _ => rfl
    · cases operation <;> rfl
  | moved ht hmove =>
    obtain ⟨hres, hscan | ⟨x, rest, n, hp, hp'⟩⟩ := move_roles hmove
    · exact ledgerSteps_goto ht hres hscan
    · exact ledgerSteps_count ht hp hres hp'
  | tookLeaseId ht hlock =>
    exact ledgerSteps_lose rfl rfl rfl rfl (fun _ h => h)
      (role_goto_of_eq (s := { s with nextLeaseId := s.nextLeaseId + 1 }) ht rfl)
      (role_goto_of_eq (s := { s with nextLeaseId := s.nextLeaseId + 1 }) ht rfl)
  | leaseScanBegun ht hlock => exact ledgerSteps_beginScan ht hlock rfl rfl
  | @leasedIdle t session lease w rest active deadIds d ht hidle =>
    have huse : LedgerSteps cfg s (s.useSlot w (.leased session lease)) := by
      refine ledgerSteps_lose rfl rfl rfl rfl (fun w' hw' => ?_) rfl rfl
      rw [stateOf_useSlot] at hw'
      split_ifs at hw' with hw
      · rw [hw, hidle]
        simp
      · exact hw'
    refine huse.trans ?_
    apply ledgerSteps_unlockPool (s := s.useSlot w (.leased session lease)) ht <;> rfl
  | leaseRefused ht | leaseWaits ht => apply ledgerSteps_endScan ht <;> rfl
  | leaseReserved ht hactive hshut => exact ledgerSteps_reserve ht hactive
  | spawned ht => exact ledgerSteps_build ht
  | installedLease ht hlock hshut =>
    exact ledgerSteps_install ht hlock rfl rfl rfl rfl
  | installedMinimum ht hlock hshut => exact ledgerSteps_install ht hlock rfl rfl rfl rfl
  | unreserved ht hlock => exact ledgerSteps_unreserve ht hlock rfl rfl rfl rfl
  | @tookDead t w lease replenish k d ht hlease =>
    have hrole := reserves_continuation k w lease replenish
    refine ledgerSteps_lose rfl rfl rfl rfl (fun w' hw' => ?_)
      (role_goto_of_eq (s := s.setState w .dead) ht (hrole.2.1.symm.trans hrole.1))
      (role_goto_of_eq (s := s.setState w .dead) ht rfl)
    change (s.setState w .dead).stateOf w' ≠ .dead at hw'
    rw [stateOf_setState] at hw'
    split_ifs at hw'
    · exact (hw' rfl).elim
    · exact hw'
  | leaseGone ht hgone => exact ledgerSteps_resume ht (reserves_continuation _ _ _ _).1 rfl
  | @forgot t w k d ht hlock =>
    exact (ledgerSteps_forget hlock).trans (ledgerSteps_resume (s := s.forget [w]) ht
      (reserves_continuation k w none false).2.1 rfl)
  | @forgotLost t w k d ht hlock =>
    have hrole := reserves_continuation k w none true
    exact (ledgerSteps_forget hlock).trans (ledgerSteps_goto (s := s.forget [w]) ht
      (hrole.2.2.symm.trans hrole.2.1) rfl)
  | @replenished t k d ht hlock =>
    exact (ledgerSteps_replenish hfresh hlock).trans (ledgerSteps_resume
      (task_replenish _ hfresh ht) (reserves_continuation k 0 none false).2.2 rfl)
  | @closing t h d ht hcall hlease =>
    refine ledgerSteps_lose rfl rfl rfl rfl (fun w' hw' => ?_)
      (role_goto_of_eq (s := (s.setState h.workerId (.closing h.leaseId)).setCallLock h.workerId
        (some t)) ht rfl)
      (role_goto_of_eq (s := (s.setState h.workerId (.closing h.leaseId)).setCallLock h.workerId
        (some t)) ht rfl)
    change ((s.setState h.workerId (.closing h.leaseId)).setCallLock h.workerId
      (some t)).stateOf w' ≠ .dead at hw'
    rw [stateOf_setCallLock, stateOf_setState] at hw'
    split_ifs at hw' with hw
    · rintro hdead
      rw [← hw, hdead] at hlease
      cases hlease
    · exact hw'
  | @closeSent t h d ht =>
    refine ledgerSteps_lose rfl rfl rfl rfl (fun w' hw' => ?_)
      (role_goto_of_eq (s := send s t h "close_idb") ht rfl)
      (role_goto_of_eq (s := send s t h "close_idb") ht rfl)
    change (send s t h "close_idb").stateOf w' ≠ .dead at hw'
    rwa [send, stateOf_setRequests] at hw'
  | resetDead ht hdead => apply ledgerSteps_unlock ht <;> rfl
  | @resetIdle t h error d ht hdead =>
    have huse : LedgerSteps cfg s (s.useSlot h.workerId .idle) := by
      refine ledgerSteps_lose rfl rfl rfl rfl (fun w' hw' => ?_) rfl rfl
      rw [stateOf_useSlot] at hw'
      split_ifs at hw' with hw
      · rw [hw]
        exact hdead
      · exact hw'
    refine huse.trans ?_
    apply ledgerSteps_unlock (s := s.useSlot h.workerId .idle) ht <;> rfl
  | @reapScheduled t h outcome d ht hidle =>
    have hdone : LedgerSteps cfg s (s.goto t (.done outcome)) := ledgerSteps_goto ht rfl rfl
    exact hdone.trans (ledgerSteps_spawn (hfresh.goto _ _) rfl rfl)
  | @callSent t h tool tracksOpen d ht hcall hleased =>
    refine ledgerSteps_lose rfl rfl rfl rfl (fun w' hw' => ?_)
      (role_goto_of_eq (s := send (s.setCallLock h.workerId (some t)) t h tool) ht rfl)
      (role_goto_of_eq (s := send (s.setCallLock h.workerId (some t)) t h tool) ht rfl)
    change (send (s.setCallLock h.workerId (some t)) t h tool).stateOf w' ≠ .dead at hw'
    rwa [send, stateOf_setRequests, stateOf_setCallLock] at hw'
  | @callSendLost t h tool tracksOpen error error' d ht hcall hleased =>
    refine ledgerSteps_lose rfl rfl rfl rfl (fun w' hw' => ?_)
      (role_goto_of_eq (s := s.setCallLock h.workerId (some t)) ht rfl)
      (role_goto_of_eq (s := s.setCallLock h.workerId (some t)) ht rfl)
    change (s.setCallLock h.workerId (some t)).stateOf w' ≠ .dead at hw'
    rwa [stateOf_setCallLock] at hw'
  | callEnded ht | settleEnded ht => apply ledgerSteps_unlock ht <;> rfl
  | reapScanBegun ht hlock => exact ledgerSteps_beginScan ht hlock rfl rfl
  | @reapTook t w sleepStarted liveCount d ht hlive hidle =>
    have hkill : LedgerSteps cfg s (s.setState w .dead) := by
      refine ledgerSteps_lose rfl rfl rfl rfl (fun w' hw' => ?_) rfl rfl
      rw [stateOf_setState] at hw'
      split_ifs at hw'
      · exact (hw' rfl).elim
      · exact hw'
    refine hkill.trans ?_
    apply ledgerSteps_unlockPool (s := s.setState w .dead) ht <;> rfl
  | reapKept ht => apply ledgerSteps_unlockPool ht <;> rfl
  | shutdownBegun ht hlock =>
    exact ledgerSteps_lose rfl rfl rfl rfl (fun _ h => h)
      (role_goto_of_eq (s := { s with shuttingDown := true }) ht rfl)
      (role_goto_of_eq (s := { s with shuttingDown := true }) ht rfl)
  | slotsKilled ht hlock =>
    exact (ledgerSteps_killSlots _ hfresh).trans
      (ledgerSteps_goto (task_killSlots _ hfresh ht) rfl rfl)
  | dropped ht => exact ledgerSteps_drop hfresh ht
  | @answered w request answer effect hrequest heffect =>
    have hslot : LedgerSteps cfg s (s.setSlot w { s.slot w with
        requests := (s.slot w).requests.erase request
        database := databaseAfter (s.slot w).database request effect }) := by
      refine ledgerSteps_lose rfl rfl rfl rfl (fun w' hw' => ?_) rfl rfl
      rw [stateOf_setSlot_of_eq] at hw'
      · exact hw'
      · rfl
    refine hslot.trans ?_
    rcases deliver_cases (s.setSlot w { s.slot w with
      requests := (s.slot w).requests.erase request
      database := databaseAfter (s.slot w).database request effect }) request.task answer with
      hd | ⟨h, d, ht, hd⟩ | ⟨h, tool, tracksOpen, d, ht, hd⟩ <;> rw [hd]
    · exact .refl _ _
    · exact ledgerSteps_goto ht rfl rfl
    · exact ledgerSteps_goto ht rfl rfl
  | @transportClosed w =>
    refine ledgerSteps_lose rfl rfl rfl rfl (fun w' hw' => ?_) rfl rfl
    rw [stateOf_setSlot_of_eq] at hw'
    · exact hw'
    · rfl
  | ticked => exact .refl _ _

theorem sound_warmed : (ledger (warmed cfg)).Sound cfg.maxWorkers where
  mem t w h := by simp [ledger, role, warmed] at h
  unique t t' w h := by simp [ledger, role, warmed] at h
  owned w h := by simp [ledger, warmed] at h
  installed_nodup := List.nodup_range
  reserved_nodup := List.nodup_nil
  installed_lt w h := List.mem_range.mp h
  reserved_lt w h := by simp [ledger, warmed] at h
  scan_lock t x h := by simp [ledger, role, warmed] at h
  scan_visited t x h := by simp [ledger, role, warmed] at h
  total_le := by
    have hcount := List.countP_le_length (p := (warmed cfg).isLive) (l := (warmed cfg).children)
    have hmin : minReplenished cfg ≤ cfg.maxWorkers := Nat.min_le_right _ _
    have hlength : (warmed cfg).children.length = minReplenished cfg := List.length_range
    change 0 + (warmed cfg).children.countP (warmed cfg).isLive ≤ cfg.maxWorkers
    omega

structure Accounted (cfg : WorkerPoolConfig) (s : State) : Prop where
  fresh : s.Fresh
  sound : (ledger s).Sound cfg.maxWorkers

theorem Accounted.step {a : Action} (h : Accounted cfg s) (hstep : step cfg s a = some s') :
    Accounted cfg s' := by
  have htransition := transition_of_step hstep
  exact ⟨fresh_transition h.fresh htransition,
    h.sound.steps (ledgerSteps_transition h.fresh htransition)⟩

theorem Accounted.startups_eq_nil_iff (h : Accounted cfg s) : startups s = [] ↔ s.spawning = [] := by
  have hmem (t : TaskId) : t ∈ startups s ↔ ∃ w, s.role reserves t = some w := by
    rw [startups, List.mem_filter, List.mem_range]
    cases ht : s.task t with
    | none => simp [role, ht]
    | some task =>
      rw [Option.any_some, tracked_eq, role_eq reserves ht, ← Option.isSome_iff_exists]
      exact and_iff_right (h.fresh.lt ht)
  constructor
  · intro hidle
    rw [List.eq_nil_iff_forall_not_mem]
    intro w hw
    obtain ⟨t, ht⟩ := h.sound.owned w hw
    have hstartup := (hmem t).mpr ⟨w, ht⟩
    rw [hidle] at hstartup
    cases hstartup
  · intro hspawning
    rw [List.eq_nil_iff_forall_not_mem]
    intro t ht
    obtain ⟨w, hw⟩ := (hmem t).mp ht
    have hreserved := (h.sound.mem t w hw).1
    change w ∈ s.spawning at hreserved
    rw [hspawning] at hreserved
    cases hreserved

theorem accounted_of_reachable (h : Reachable (step cfg) (warmed cfg) s) : Accounted cfg s :=
  invariant_of_reachable (fun _ _ _ hi ht => hi.step ht) ⟨fresh_warmed, sound_warmed⟩ h

/-- Reserved startups and slots that are not dead never exceed the pool's maximum. -/
theorem capacity_bounded (h : Reachable (step cfg) (warmed cfg) s) :
    s.spawning.length + s.liveCount ≤ cfg.maxWorkers :=
  (accounted_of_reachable h).sound.total_le

theorem capacity_bounded_full :
    ∃ s, Reachable (step ⟨2, 1, 5⟩) (warmed ⟨2, 1, 5⟩) s ∧ s.spawning.length = 1 ∧ s.liveCount = 1 ∧
      s.spawning.length + s.liveCount ≤ 2 := by
  let actions : List Action := [.start (.lease 0), .run 0 .proceed, .run 0 .proceed, .run 0 .proceed,
    .start (.lease 1), .run 1 .proceed, .run 1 .proceed, .run 1 .proceed, .run 1 .proceed]
  have hcounts : (run (step ⟨2, 1, 5⟩) (warmed ⟨2, 1, 5⟩) actions).map
      (fun s => (s.spawning.length, s.liveCount)) = some (1, 1) := by decide
  obtain ⟨s, hs, hpair⟩ := Option.map_eq_some_iff.mp hcounts
  obtain ⟨hspawning, hlive⟩ := Prod.mk.inj hpair
  have hreach : Reachable (step ⟨2, 1, 5⟩) (warmed ⟨2, 1, 5⟩) s := ⟨actions, hs⟩
  exact ⟨s, hreach, hspawning, hlive, capacity_bounded hreach⟩

end IdaMcp.Pool
