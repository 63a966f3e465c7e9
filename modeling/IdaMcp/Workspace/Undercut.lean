import IdaMcp.Workspace.Frames
import IdaMcp.Workspace.Leaks
import IdaMcp.Workspace.Standing

namespace IdaMcp.Workspace

open Foundation Remote Pool

variable {cfg : Config} {s s' : State} {u : OperationId} {d : DatabaseId} {b : Bool}
  {g : DatabaseGeneration} {db : Option LeaseId} {sharedHttp : DatabaseId → Bool}

theorem openEffect_keep {database : Option LeaseId} (answer : Answer) (hopen : database ≠ none) :
    openEffect database answer = .keep := by
  cases database with
  | none => exact (hopen rfl).elim
  | some lease => rfl

theorem openEffect_opens {answer : Answer} (hok : answer.succeeds = true) :
    openEffect none answer = .opens := by
  cases answer with
  | result result => exact if_neg (of_decide_eq_true hok)
  | rejected error => cases hok

theorem effect_of_undisturbed {w : WorkerId} {request : Pool.Request} {answer : Answer}
    {effect : ChildEffect}
    (hok : Undisturbed s (.pool (.childAnswer w request answer effect)) = true)
    (hanswered : openAnswered s.pool w request answer effect = true)
    (htool : request.tool = "open_idb") : effect = openEffect (s.pool.slot w).database answer := by
  cases answer with
  | result result =>
    have hcrash : isSdkCrash result = false := by
      simp only [Undisturbed, Bool.and_eq_true] at hok
      simpa using hok.2
    simpa [openAnswered, hcrash, htool] using hanswered
  | rejected error =>
    have hkeep : effect = .keep := by simpa [openAnswered, htool] using hanswered
    rw [hkeep]
    cases (s.pool.slot w).database <;> rfl

theorem quiet_childAnswer {w : WorkerId} {request : Pool.Request} {answer : Answer}
    {effect : ChildEffect} (hfresh : s.pool.Fresh) (hcalm : s.undisturbed = true)
    (heffect : request.tool = "open_idb" → effect = openEffect (s.pool.slot w).database answer) :
    Quiet s.pool (.childAnswer w request answer effect) where
  calm t task ha := nomatch ha
  drops t task ha := nomatch ha
  opens handle tool tracksOpen ha := nomatch ha
  awaited := by
    rintro w' request' answer' effect' ⟨⟩ task ht
    exact calm_of_undisturbed hfresh hcalm ht
  keeps := by
    rintro w' request' answer' effect' ⟨⟩ htool hopen
    rw [heffect htool, openEffect_keep answer hopen]
  answers := by
    rintro w' request' answer' effect' ⟨⟩ htool hsucceeds hnone
    rw [heffect htool, hnone, openEffect_opens hsucceeds]

theorem quiet_environment {pool : Pool.State} {a : Pool.Action}
    (ha : (∃ w, a = .closeTransport w) ∨ ∃ duration, a = .tick duration) : Quiet pool a := by
  rcases ha with ⟨w, rfl⟩ | ⟨duration, rfl⟩
  · constructor <;> intros <;> contradiction
  · constructor <;> intros <;> contradiction

theorem Upheld.poolStep {a : Pool.Action} (h : Upheld s) (hs : Sheltered cfg s none none)
    (hok : Undisturbed s (.pool a) = true) (hstep : poolStep cfg s a = some s') : Upheld s' := by
  unfold Workspace.poolStep at hstep
  dsimp only at hstep
  rw [Option.ite_none_right_eq_some] at hstep
  obtain ⟨hallowed, hstep⟩ := hstep
  obtain ⟨pool', hpool, rfl⟩ := Option.map_eq_some_iff.mp hstep
  have hcalm : s.undisturbed = true := by
    unfold Undisturbed at hok
    exact ((Bool.and_eq_true ..).mp hok).1
  have hquiet : Quiet s.pool a := by
    cases a with
    | start operation => simp [Undisturbed] at hok
    | drop t => cases hallowed
    | run t choice => exact quiet_run hs.pool.fresh hcalm
    | childAnswer w request answer effect =>
      exact quiet_childAnswer hs.pool.fresh hcalm (effect_of_undisturbed hok hallowed)
    | closeTransport w => exact quiet_environment (.inl ⟨w, rfl⟩)
    | tick duration => exact quiet_environment (.inr ⟨duration, rfl⟩)
  refine h.pool_step hs.pool hs.granted hquiet ?_ hpool
  rintro handle rfl
  simp [Undisturbed] at hok

theorem Upheld.begin (h : Upheld s) (d : DatabaseId) :
    Upheld { s.setOperation s.nextOperation (some ⟨d, .leaseForOpen, false⟩) with
      nextOperation := s.nextOperation + 1 } :=
  { h.setOperation (upholds_of_not_relies rfl rfl) with }

theorem Upheld.step {a : Action} (h : Upheld s) (hs : Sheltered cfg s none none)
    (hok : Undisturbed s a = true) (hundercut : Undercuts s a = false)
    (hstep : Workspace.step cfg s a = some s') : Upheld s' := by
  have hcalm : s.undisturbed = true := by
    unfold Undisturbed at hok
    exact ((Bool.and_eq_true ..).mp hok).1
  cases a with
  | start d request =>
    cases request with
    | openIdb =>
      cases hstep
      exact h.begin d
    | _ => simp [Undisturbed] at hok
  | run u choice =>
    cases hu : s.operation u with
    | none => simp [Workspace.step, hu] at hstep
    | some operation =>
      simp only [Workspace.step, hu] at hstep
      exact h.next hs hcalm hundercut hu hstep
  | drop u => simp [Undisturbed] at hok
  | pool a => exact h.poolStep hs hok hstep

theorem not_strands_of_undisturbed {a : Action} (hok : Undisturbed s a = true) : Strands s a = false := by
  cases a with
  | drop u => simp [Undisturbed] at hok
  | _ => rfl

theorem upheld_initial (sharedHttp : DatabaseId → Bool) : Upheld (initial cfg sharedHttp) where
  steady := steady_warmed
  positions := nofun
  installed := nofun
  calls := nofun
  opened := nofun

theorem upheld_of_reachable (h : ReachableBy (step cfg)
      (fun s a => Undisturbed s a = true ∧ Undercuts s a = false) (initial cfg sharedHttp) s) :
    Sheltered cfg s none none ∧ Upheld s := by
  refine invariant_of_meets (I := fun s => Sheltered cfg s none none ∧ Upheld s) ?_
    ⟨sheltered_initial sharedHttp, upheld_initial sharedHttp⟩ h
  rintro s a s' ⟨hs, hupheld⟩ ⟨hok, hundercut⟩ hstep
  exact ⟨hs.step (not_strands_of_undisturbed hok) hstep, hupheld.step hs hok hundercut hstep⟩

theorem fresh_of_closeIfGeneration {freshLease : Bool} {error : ToolError} (h : ReachableBy (step cfg)
      (fun s a => Undisturbed s a = true ∧ Undercuts s a = false) (initial cfg sharedHttp) s)
    (hu : s.operation u = some ⟨d, .closeIfGeneration g freshLease error, b⟩) : freshLease = true :=
  (upheld_of_reachable h).2.fresh_of_close hu

/-- No database stands under a lease that a failed open has taken. -/
theorem not_stands_of_taken {freshLease : Bool} {error : ToolError} {choice : Choice}
    (hu : s.operation u = some ⟨d, .closeIfGeneration g freshLease error, b⟩)
    (htakes : (s.database d).handle.any (·.generation = g) = true)
    (hstep : step cfg s (.run u choice) = some s') : ¬s'.Stands d g db := by
  obtain ⟨lease, hhandle, hg⟩ := (Option.any_eq_true ..).mp htakes
  simp only [step, hu] at hstep
  change release cfg s u d (some g) (.failed error) = some s' at hstep
  unfold release at hstep
  rw [Option.ite_none_right_eq_some] at hstep
  have hexpected : (some g).all (· = lease.generation) = true := by
    rw [of_decide_eq_true hg]
    exact decide_eq_true rfl
  simp only [hhandle, if_pos hexpected] at hstep
  obtain ⟨pool', -, rfl⟩ := await_eq_some hstep.2
  rintro ⟨lease', hlease', -⟩
  change ((s.setHandle d none).database d).handle = _ at hlease'
  rw [State.setHandle, State.database_setDatabase, if_pos rfl] at hlease'
  cases hlease'

/-- While opens undercut none, the database that an open has reported as open stays open under its
lease. -/
theorem opened_stands (h : ReachableBy (step cfg)
      (fun s a => Undisturbed s a = true ∧ Undercuts s a = false) (initial cfg sharedHttp) s)
    (hu : s.operation u = some ⟨d, .done (.opened g db), b⟩)
    (hlater : ReachableBy (step cfg)
      (fun s a => Undisturbed s a = true ∧ Undercuts s a = false) s s') : s'.Stands d g db := by
  obtain ⟨hs, hupheld⟩ := upheld_of_reachable h
  have hkept : (Sheltered cfg s' none none ∧ Upheld s') ∧
      s'.operation u = some ⟨d, .done (.opened g db), b⟩ := by
    refine invariant_of_meets (I := fun s => (Sheltered cfg s none none ∧ Upheld s) ∧
      s.operation u = some ⟨d, .done (.opened g db), b⟩) ?_ ⟨⟨hs, hupheld⟩, hu⟩ hlater
    rintro s a s' ⟨⟨hs, hupheld⟩, hu⟩ ⟨hok, hundercut⟩ hstep
    refine ⟨⟨hs.step (not_strands_of_undisturbed hok) hstep, hupheld.step hs hok hundercut hstep⟩, ?_⟩
    exact done_step hu (lt_of_operation hs hu) hstep
  exact hkept.1.2.opened u d g db b hkept.2

deriving instance DecidableEq for Result, Stage, Position, Operation

def errorReply : CallToolResult :=
  { content := [.text "bad image"], isError := some true, metadata := none }

def failedReopen : List Action :=
  [.start 0 .openIdb, .run 1 .proceed, .run 1 .proceed,
    .pool (.childAnswer 0 ⟨2, 1, "open_idb"⟩ (.result errorReply) .keep), .run 1 .proceed, .run 1 .proceed]

theorem opened_stands_reopen : ∃ s s', run (step single) (initial single fun _ => false) openedOnce = some s ∧
    run (step single) s failedReopen = some s' ∧
    (s'.operation 1).map Operation.position = some (.done (.failed (.idaError "bad image"))) ∧
    s'.Stands 0 1 (some 1) := by
  have hopened : Meets (step single) (fun s a => Undisturbed s a = true ∧ Undercuts s a = false)
      (initial single fun _ => false) openedOnce := by
    decide +kernel
  have hrun : (run (step single) (initial single fun _ => false) openedOnce).any (fun s =>
      decide (s.operation 0 = some ⟨0, .done (.opened 1 (some 1)), false⟩) &&
      decide (Meets (step single) (fun s a => Undisturbed s a = true ∧ Undercuts s a = false) s
        failedReopen) &&
      (run (step single) s failedReopen).any fun s' => decide ((s'.operation 1).map Operation.position =
        some (.done (.failed (.idaError "bad image"))))) = true := by
    decide +kernel
  obtain ⟨s, hs, hrest⟩ := (Option.any_eq_true ..).mp hrun
  simp only [Bool.and_eq_true, decide_eq_true_eq] at hrest
  obtain ⟨⟨hu, hreopened⟩, hlast⟩ := hrest
  obtain ⟨s', hs', hfailed⟩ := (Option.any_eq_true ..).mp hlast
  exact ⟨s, s', hs, hs', of_decide_eq_true hfailed,
    opened_stands ⟨openedOnce, hopened, hs⟩ hu ⟨failedReopen, hreopened, hs'⟩⟩

def reported : List Action :=
  [.start 0 .openIdb, .run 0 .proceed, .run 0 .proceed, .run 0 .proceed, .run 0 .proceed, .run 0 .proceed,
    .start 0 .openIdb, .run 1 .proceed, .run 0 .proceed,
    .pool (.childAnswer 0 ⟨1, 1, "open_idb"⟩ (.result errorReply) .keep), .run 0 .proceed, .run 0 .proceed,
    .run 1 .proceed, .pool (.childAnswer 0 ⟨2, 1, "open_idb"⟩ (.result okReply) .opens), .run 1 .proceed,
    .run 1 .proceed]

def undercut : List Action :=
  [.run 0 .proceed, .run 0 .proceed, .run 0 .proceed,
    .pool (.childAnswer 0 ⟨3, 1, "close_idb"⟩ (.result okReply) .closes)]

theorem failed_open_closes_reported : ∃ s s',
    ReachableBy (step single) (fun s a => Undisturbed s a = true) (initial single fun _ => false) s ∧
    s.operation 1 = some ⟨0, .done (.opened 1 (some 1)), false⟩ ∧
    ReachableBy (step single) (fun s a => Undisturbed s a = true) s s' ∧
    (s'.database 0).handle = none ∧ (s'.pool.slot 0).database = none := by
  have hreported : Meets (step single) (fun s a => Undisturbed s a = true)
      (initial single fun _ => false) reported := by
    decide +kernel
  have hrun : (run (step single) (initial single fun _ => false) reported).any (fun s =>
      decide (s.operation 1 = some ⟨0, .done (.opened 1 (some 1)), false⟩) &&
      decide (Meets (step single) (fun s a => Undisturbed s a = true) s undercut) &&
      (run (step single) s undercut).any fun s' =>
        decide ((s'.database 0).handle = none ∧ (s'.pool.slot 0).database = none)) = true := by
    decide +kernel
  obtain ⟨s, hs, hrest⟩ := (Option.any_eq_true ..).mp hrun
  simp only [Bool.and_eq_true, decide_eq_true_eq] at hrest
  obtain ⟨⟨hu, hundercut⟩, hlast⟩ := hrest
  obtain ⟨s', hs', hclosed⟩ := (Option.any_eq_true ..).mp hlast
  obtain ⟨hhandle, hdatabase⟩ := of_decide_eq_true hclosed
  exact ⟨s, s', ⟨reported, hreported, hs⟩, hu, ⟨undercut, hundercut, hs'⟩, hhandle, hdatabase⟩

end IdaMcp.Workspace
