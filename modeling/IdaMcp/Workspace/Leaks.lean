import IdaMcp.Workspace.Shelter

namespace IdaMcp.Workspace

open Foundation Remote Pool

variable {cfg : Config} {s : State} {w : WorkerId} {l : LeaseId}

structure Quiescent (s : State) : Prop where
  operations : ∀ u operation, s.operation u = some operation → ∃ result, operation.position = .done result
  tasks : ∀ t task, s.pool.task t = some task → ∃ outcome, task.position = .done outcome

theorem Quiescent.not_inFlight (h : Quiescent s) : ¬ s.InFlight w l := by
  rintro (⟨t, p, b, ht, hends⟩ | ⟨u, d, handle, g, b, hu, -⟩)
  · obtain ⟨outcome, rfl⟩ := h.tasks t _ ht
    exact hends
  · obtain ⟨result, hdone⟩ := h.operations u _ hu
    cases hdone

theorem sheltered_of_reachable {sharedHttp : DatabaseId → Bool}
    (h : ReachableBy (step cfg) (fun s a => Strands s a = false) (initial cfg sharedHttp) s) :
    Sheltered cfg s none none :=
  invariant_of_meets (I := fun s => Sheltered cfg s none none)
    (fun _ _ _ hs hok hstep => hs.step hok hstep) (sheltered_initial sharedHttp) h

/-- No worker is leaked: a slot that belongs to a lease is installed in exactly one database, or an
operation in flight takes it from the lease. -/
theorem workers_not_leaked {sharedHttp : DatabaseId → Bool}
    (h : ReachableBy (step cfg) (fun s a => Strands s a = false) (initial cfg sharedHttp) s) :
    (∀ w l, (s.pool.stateOf w).belongsToLease l = true →
      (∃! d, s.Installed d w l) ∨ s.InFlight w l) ∧
    (Quiescent s → ∀ d, (s.database d).handle = none →
      ∀ w l, s.pool.stateOf w ≠ .leased d l ∧ s.pool.stateOf w ≠ .closing l) := by
  have hs := sheltered_of_reachable h
  have howned : ∀ w l, (s.pool.stateOf w).belongsToLease l = true →
      (∃ d, s.Installed d w l) ∨ s.InFlight w l := by
    intro w l hbelongs
    exact (hs.sheltered w l hbelongs).resolve_left nofun
  constructor
  · intro w l hbelongs
    rcases howned w l hbelongs with ⟨d, hinstalled⟩ | hflight
    · exact .inl ⟨d, hinstalled, fun d' hinstalled' => hs.unique d' d w w l hinstalled' hinstalled⟩
    · exact .inr hflight
  · intro hquiescent d hnone w l
    constructor
    · intro hleased
      have hbelongs : (s.pool.stateOf w).belongsToLease l = true := by
        rw [hleased]
        exact decide_eq_true rfl
      rcases howned w l hbelongs with ⟨d', lease, hlease, rfl, rfl⟩ | hflight
      · have hsession := session_of_issued hs.pool.tokens (hs.issued d' lease (.inl hlease)).1 hleased
        rw [hs.session d' lease hlease] at hsession
        subst hsession
        exact nomatch hnone.symm.trans hlease
      · exact hquiescent.not_inFlight hflight
    · intro hclosing
      exact hquiescent.not_inFlight (.inl (hs.closing w l hclosing).1)

def single : Config := ⟨⟨1, 1, 5⟩, fun _ => none⟩

def okReply : CallToolResult := { content := [.text "\x7b\x7d"], isError := none, metadata := none }

def openedOnce : List Action :=
  [.start 0 .openIdb, .run 0 .proceed, .run 0 .proceed, .run 0 .proceed, .run 0 .proceed, .run 0 .proceed,
    .run 0 .proceed, .pool (.childAnswer 0 ⟨1, 1, "open_idb"⟩ (.result okReply) .opens), .run 0 .proceed,
    .run 0 .proceed]

theorem workers_not_leaked_opened : ∃ s, run (step single) (initial single fun _ => false) openedOnce = some s ∧
    s.pool.stateOf 0 = .leased 0 1 ∧ ((∃! d, s.Installed d 0 1) ∨ s.InFlight 0 1) := by
  have hmeets : Meets (step single) (fun s a => Strands s a = false) (initial single fun _ => false)
      openedOnce := by
    decide +kernel
  have hrun : (run (step single) (initial single fun _ => false) openedOnce).map
      (fun s => s.pool.stateOf 0) = some (.leased 0 1) := by
    decide +kernel
  obtain ⟨s, hs, hstate⟩ := Option.map_eq_some_iff.mp hrun
  refine ⟨s, hs, hstate, (workers_not_leaked ⟨openedOnce, hmeets, hs⟩).1 0 1 ?_⟩
  rw [hstate]
  rfl

def droppedReopen : List Action :=
  openedOnce ++
    ([.pool (.closeTransport 0), .start 0 .openIdb, .run 1 .proceed, .run 1 .proceed] : List Action)

/-- The worker keeps the lease of a database whose handle was cleared, and nothing in flight ends it. -/
theorem stale_worker_stranded : ∃ s, Reachable (step single) (initial single fun _ => false) s ∧
    s.pool.stateOf 0 = .leased 0 1 ∧ (∀ d, ¬ s.Installed d 0 1) ∧ ¬ s.InFlight 0 1 := by
  have hmeets : Meets (step single) (fun s a => Strands s a = false) (initial single fun _ => false)
      droppedReopen := by
    decide +kernel
  have hrun : (run (step single) (initial single fun _ => false) droppedReopen).map (fun s =>
      (s.pool.stateOf 0, s.pool.issued, s.database 0, s.pool.nextTask, s.nextOperation)) =
      some (.leased 0 1, [⟨0, 0, 1, false⟩], ⟨false, some 1, none, 1⟩, 3, 2) := by
    rfl
  have htasks : (run (step single) (initial single fun _ => false) droppedReopen).map (fun s =>
      ((s.pool.task 0).map Task.position, (s.pool.task 1).map Task.position, s.pool.task 2,
        (s.operation 0).map Operation.position, s.operation 1)) =
      some (some (.done (.leased ⟨0, 0, 1, false⟩)), some (.done (.reply okReply)),
        some ⟨.takeDead 0 (some 1) true (.stop .finished), false⟩,
        some (.done (.opened 1 (some 1))), some ⟨0, .await 2 .retireStale, false⟩) := by
    rfl
  obtain ⟨s, hs, hstate⟩ := Option.map_eq_some_iff.mp hrun
  rw [hs, Option.map_some, Option.some_inj] at htasks
  simp only [Prod.mk.injEq] at hstate htasks
  obtain ⟨hleased, hissued, hdatabase, hnextTask, hnextOperation⟩ := hstate
  obtain ⟨ht₀, ht₁, ht₂, hu₀, hu₁⟩ := htasks
  have hsheltered : Sheltered single s none none := sheltered_of_reachable ⟨droppedReopen, hmeets, hs⟩
  obtain ⟨pool', hdrop⟩ : ∃ pool', Pool.step single.pool s.pool (.drop 2) = some pool' := by
    simp only [Pool.step, ht₂]
    exact ⟨_, rfl⟩
  have hstep : Workspace.step single s (.drop 1) =
      some { (s.setLock 0 none).setOperation 1 none with pool := pool' } := by
    have hpool : ((s.setLock 0 none).setOperation 1 none).pool = s.pool := rfl
    simp only [Workspace.step, hu₁, dropOperation, hdatabase, if_true, hpool, ht₂, hdrop]
    rfl
  refine ⟨_, Reachable.tail ⟨droppedReopen, hs⟩ hstep, ?_, ?_, ?_⟩
  · exact (stateOf_of_drop ht₂ hdrop 0).trans hleased
  · -- The lease names session 0, whose database has no handle.
    rintro d ⟨lease, hlease, -, -⟩
    change ((s.setLock 0 none).database d).handle = some lease at hlease
    rw [State.setLock, State.database_setDatabase] at hlease
    split_ifs at hlease with hd
    · rw [hdatabase] at hlease
      cases hlease
    · have hmem := (hsheltered.issued d lease (.inl hlease)).1
      rw [State.Issued, hissued, List.mem_singleton] at hmem
      have hsession := congrArg PooledWorkerHandle.sessionId hmem
      exact hd ((hsheltered.session d lease hlease).symm.trans hsession)
  · rintro (⟨t, p, b, ht, hends⟩ | ⟨u, d, handle, g, b, hu, -⟩)
    · change pool'.task t = _ at ht
      simp only [Pool.step, ht₂, Option.some_inj] at hdrop
      subst hdrop
      change Function.update s.pool.task 2 none t = _ at ht
      rw [Function.update_apply] at ht
      split_ifs at ht with htwo
      have hlt : (t : ℕ) < 3 := by
        rw [← hnextTask]
        exact hsheltered.pool.fresh.lt ht
      have hcases (n : ℕ) (hn : n < 3) (htwo : n ≠ 2) : n = 0 ∨ n = 1 := by omega
      obtain rfl | rfl := hcases t hlt htwo
      · rw [ht, Option.map_some, Option.some_inj] at ht₀
        subst ht₀
        exact hends
      · rw [ht, Option.map_some, Option.some_inj] at ht₁
        subst ht₁
        exact hends
    · change ((s.setLock 0 none).setOperation 1 none).operation u = _ at hu
      obtain ⟨hne, hu⟩ := State.operation_of_vacated hu
      have hlt : (u : ℕ) < 2 := by
        rw [← hnextOperation]
        exact lt_of_operation hsheltered hu
      have hzero (n : ℕ) (hn : n < 2) (hne : n ≠ 1) : n = 0 := by omega
      obtain rfl := hzero u hlt hne
      rw [show s.operation 0 = _ from hu, Option.map_some, Option.some_inj] at hu₀
      cases hu₀

end IdaMcp.Workspace
