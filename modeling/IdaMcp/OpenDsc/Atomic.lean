import IdaMcp.OpenDsc.Advance

namespace IdaMcp.OpenDsc

open Foundation Handle Remote Tasks

variable {cfg : Config} {plan : Plan} {s t : State} {u : CallId} {c : Handle.Call} {g : ℕ}

namespace State

def failed (s : State) : Bool :=
  match s.position with
  | .ended _ error => error || s.task.state.status == .failed || s.task.state.status == .cancelled
  | _ => false

def calls (s : State) (u : CallId) : Prop := s.openCall = some u ∨ s.position.awaits = some u

end State

def Reason.cleanupFailed (reason : Reason) (closeError : ToolError) (generation : ℕ) : String :=
  match reason with
  | .toolError error => OpenDsc.cleanupFailed error closeError generation
  | .cancellation => cancellationCleanupFailed closeError generation

def Uninstalls (lease : PooledDatabaseLease) : Handle.Call → Prop
  | .settleStale _ | .clearHandle _ _ _ | .closeAuthorized _ _ _ | .reapDecision => True
  | .takeHandle expected _ _ => expected.all (· = lease.generation) = true
  | _ => False

section Uninstalls

variable {h h' : Handle.State} {lease : PooledDatabaseLease}

theorem handle_spawnAnalyzeFuncsTask {owner : TaskOwner} {full : Bool} :
    (spawnAnalyzeFuncsTask h owner full).1.database = h.database := by
  unfold spawnAnalyzeFuncsTask
  split
  · split_ifs <;> rfl
  · split_ifs <;> rfl

theorem uninstalls_of_next {choice : Choice} (hlease : h.database.handle = some lease)
    (hnone : h'.database.handle = none) (hstep : Handle.next cfg h u c choice = some h') :
    Uninstalls lease c := by
  have hkept {db : WorkspaceDatabase} (hnone : db.handle = none) (heq : db.handle = h.database.handle) :
      Uninstalls lease c := by
    rw [heq, hlease] at hnone
    cases hnone
  unfold Handle.next at hstep
  split at hstep
  · unfold Handle.leaseForOpen at hstep
    rw [Option.ite_none_right_eq_some] at hstep
    obtain ⟨-, hstep⟩ := hstep
    split at hstep
    · split_ifs at hstep <;> cases hstep <;> exact hkept hnone rfl
    · cases hstep
      exact hkept hnone rfl
  · trivial
  · cases hstep
    unfold Handle.acquire at hnone
    split at hnone
    · exact hkept hnone rfl
    · dsimp only at hnone
      split at hnone
      · exact hkept hnone rfl
      · cases hnone
  · cases hstep
    unfold Handle.openAnswered at hnone
    split at hnone
    · exact hkept hnone rfl
    · split_ifs at hnone <;> exact hkept hnone rfl
  · unfold Handle.grant at hstep
    split_ifs at hstep
    · cases hstep
      exfalso
      change (h.database.issueCloseToken _ _ _).1.handle = none at hnone
      unfold WorkspaceDatabase.issueCloseToken at hnone
      rw [hlease] at hnone
      dsimp only at hnone
      split_ifs at hnone
      rw [hlease] at hnone
      cases hnone
    · cases hstep
      exact hkept hnone rfl
  · cases hstep
    unfold Handle.spawn at hnone
    split_ifs at hnone
    · exact hkept hnone (congrArg WorkspaceDatabase.handle handle_spawnAnalyzeFuncsTask)
    · exact hkept hnone rfl
  · trivial
  · next expected absent taken =>
    unfold Handle.takeHandle WorkspaceDatabase.takeHandle at hstep
    rw [Option.ite_none_right_eq_some] at hstep
    obtain ⟨-, hstep⟩ := hstep
    rw [hlease] at hstep
    dsimp only at hstep
    by_cases hexpected : expected.all (· = lease.generation) = true
    · exact hexpected
    · rw [if_neg hexpected] at hstep
      cases hstep
      exact hkept hnone rfl
  · cases hstep
    exact hkept hnone rfl
  · trivial
  · unfold Handle.requiredHandle at hstep
    rw [Option.ite_none_right_eq_some] at hstep
    obtain ⟨-, hstep⟩ := hstep
    split at hstep <;> cases hstep <;> exact hkept hnone rfl
  · cases hstep
    unfold Handle.answered at hnone
    split at hnone <;> exact hkept hnone rfl
  · trivial
  · unfold Handle.complete at hstep
    dsimp only at hstep
    split at hstep
    · cases hstep
      exact hkept hnone rfl
    · rw [Option.ite_none_right_eq_some] at hstep
      obtain ⟨-, hstep⟩ := hstep
      split at hstep
      · next database hset =>
        cases hstep
        exfalso
        obtain ⟨served, -, hset⟩ := Option.map_eq_some_iff.mp hset
        obtain ⟨lease', -, -, -, hlease'⟩ :=
          WorkspaceDatabase.setDebugPinForLease_true (congrArg Prod.snd hset)
        rw [hset] at hlease'
        change database.handle = none at hnone
        rw [hlease'] at hnone
        cases hnone
      · cases hstep
        exact hkept hnone rfl
  · cases hstep
    exact hkept hnone (congrArg WorkspaceDatabase.handle handle_spawnAnalyzeFuncsTask)
  · cases hstep

end Uninstalls

theorem owns_of_uninstalls (hs : Sound plan s) {lease : PooledDatabaseLease} (hcalls : s.calls u)
    (hu : s.handle.call u = some c) (hlease : s.handle.database.handle = some lease)
    (huninstalls : Uninstalls lease c) : s.owns lease.generation = true ∨
      (∃ client, c = .settleStale client) ∨ ∃ purpose served error, c = .clearHandle purpose served error := by
  have hopenCall (hopen : s.openCall = some u) : s.owns lease.generation = true ∨
      (∃ client, c = .settleStale client) ∨ ∃ purpose served error, c = .clearHandle purpose served error := by
    obtain ⟨d, hd, hphase⟩ := hs.openPhase u hopen
    rw [hu, Option.some.injEq] at hd
    subst hd
    have hphase := hphase.phase
    cases c with
    | settleStale client => exact .inr (.inl ⟨client, rfl⟩)
    | takeHandle expected absent taken =>
      left
      cases expected with
      | none => exact hphase.elim
      | some generation =>
        obtain ⟨-, hinstaller⟩ := hphase
        have heq : generation = lease.generation := of_decide_eq_true huninstalls
        subst heq
        rcases hinstaller with hinstaller | hgone
        · rw [State.owns, hopen, Option.any_some, beq_iff_eq]
          exact hinstaller
        · exact absurd rfl (hgone.2 lease hlease)
    | clearHandle | closeAuthorized | reapDecision => exact hphase.elim
    | _ => exact huninstalls.elim
  rcases hcalls with hopen | hawaits
  · exact hopenCall hopen
  have hplaced := hs.placed
  have htool (hdispatched : Dispatched s u) : s.owns lease.generation = true ∨
      (∃ client, c = .settleStale client) ∨ ∃ purpose served error, c = .clearHandle purpose served error := by
    obtain ⟨d, purpose, hd, hpurpose⟩ := hdispatched
    rw [hu, Option.some.injEq] at hd
    subst hd
    cases c with
    | clearHandle purpose served error => exact .inr (.inr ⟨purpose, served, error, rfl⟩)
    | requiredHandle | calling | completing | returned => exact huninstalls.elim
    | _ => cases hpurpose
  cases hposition : s.position with
  | opening v =>
    rw [hposition] at hawaits hplaced
    cases hawaits
    exact hopenCall hplaced
  | loadingModule g v | loadingFramework g v framework rest | fetchingStatus g v =>
    rw [hposition] at hawaits hplaced
    cases hawaits
    exact htool hplaced.2
  | closing g v reason =>
    rw [hposition] at hawaits hplaced
    cases hawaits
    obtain ⟨-, howns, d, hd, hphase⟩ := hplaced
    rw [hu, Option.some.injEq] at hd
    subst hd
    left
    cases c with
    | takeHandle expected absent taken =>
      change expected = some g at hphase
      subst hphase
      have heq : g = lease.generation := of_decide_eq_true huninstalls
      subst heq
      rcases howns with howns | hgone
      · exact howns
      · exact absurd rfl (hgone.2 lease hlease)
    | releasing | closed => exact huninstalls.elim
    | _ => exact hphase.elim
  | waiting | preparing | nextFramework | granting | deciding | ended =>
    rw [hposition] at hawaits
    cases hawaits

/-- What a run decides when it completes its task: that nobody has cancelled it, or to report a fatal
error. -/
def Decided (s t : State) : Prop :=
  t.task.state.status = .completed → s.task.state.status = .completed ∨
    (s.cancelled = false ∧ s.task.cancelRequested = none) ∨
    ∃ error now, error.isFatal = true ∧ t.task = (s.task.completeAfterFatalError (toolErrorValue error) now).2

section Decided

variable {now : ℕ} {report : Value}

theorem decided_of_eq (h : t.task = s.task) : Decided s t := by
  intro hcompleted
  rw [h] at hcompleted
  exact .inl hcompleted

theorem status_finishCancelled {task : TaskEntry} {message : String}
    (h : (task.finishCancelled message now).2.state.status = .completed) : task.state.status = .completed := by
  unfold TaskEntry.finishCancelled at h
  split_ifs at h
  · cases h
  · exact h

theorem status_failAfterCleanupError {task : TaskEntry} {message : String}
    (h : (task.failAfterCleanupError message now).2.state.status = .completed) :
    task.state.status = .completed := by
  unfold TaskEntry.failAfterCleanupError at h
  split at h
  · cases h
  · exact h

theorem status_fail {task : TaskEntry} {message : String}
    (h : (task.fail message now).2.state.status = .completed) : task.state.status = .completed := by
  unfold TaskEntry.fail at h
  split at h
  · split at h
    · cases h
    · cases h
  · exact h

theorem status_complete {task : TaskEntry} {value : Value}
    (h : (task.complete value now).2.state.status = .completed) :
    task.state.status = .completed ∨ task.cancelRequested = none := by
  unfold TaskEntry.complete at h
  split at h
  · split at h
    · cases h
    · next hnone => exact .inr hnone
  · exact .inl h

theorem decided_complete {value : Value} (hcancelled : s.cancelled = false)
    (h : t.task = (s.task.complete value now).2) : Decided s t := by
  intro hcompleted
  rw [h] at hcompleted
  rcases status_complete hcompleted with hold | hnone
  · exact .inl hold
  · exact .inr (.inl ⟨hcancelled, hnone⟩)

theorem decided_toolError {error : ToolError} {message : String}
    (h : t.task = completeBackgroundToolError s now error message) : Decided s t := by
  unfold completeBackgroundToolError at h
  split_ifs at h with hfatal
  · intro _
    exact .inr (.inr ⟨error, now, hfatal, h⟩)
  · unfold completeWithCancelToken at h
    split_ifs at h with hcancelled
    · intro hcompleted
      rw [h] at hcompleted
      exact .inl (status_finishCancelled hcompleted)
    · exact decided_complete (Bool.eq_false_iff.mpr hcancelled) h

theorem decided_finishCancelled {message : String} (h : t.task = (s.task.finishCancelled message now).2) :
    Decided s t := by
  intro hcompleted
  rw [h] at hcompleted
  exact .inl (status_finishCancelled hcompleted)

theorem decided_failAfterCleanupError {message : String}
    (h : t.task = (s.task.failAfterCleanupError message now).2) : Decided s t := by
  intro hcompleted
  rw [h] at hcompleted
  exact .inl (status_failAfterCleanupError hcompleted)

theorem decided_startCall {request : Request} {position : CallId → Position}
    (h : startCall cfg s request position = some t) : Decided s t := by
  obtain ⟨db, -, -, rfl⟩ := startCall_eq_some h
  exact decided_of_eq rfl

theorem decided_startOpen (h : startOpen cfg plan s = some t) : Decided s t := by
  obtain ⟨t', ht', rfl⟩ := Option.map_eq_some_iff.mp h
  obtain ⟨db, -, -, rfl⟩ := startCall_eq_some ht'
  exact decided_of_eq rfl

theorem decided_opened {outcome : Except ToolError ℕ} (h : opened cfg plan s now outcome = some t) :
    Decided s t := by
  unfold opened at h
  split at h
  · split_ifs at h
    · exact decided_startCall h
    · exact decided_startCall h
    · cases h
      exact decided_of_eq rfl
  · split_ifs at h
    · cases h
      exact decided_toolError rfl
    · cases h
      exact decided_of_eq rfl

theorem decided_loadedInBackground {result : Except ToolError Value} {describe : ToolError → ToolError}
    {loaded : Option State} (hloaded : ∀ t, loaded = some t → Decided s t)
    (h : loadedInBackground cfg s now g result describe loaded = some t) : Decided s t := by
  unfold loadedInBackground at h
  split at h
  · split_ifs at h
    · cases h
      exact decided_toolError rfl
    · exact decided_startCall h
    · exact decided_startCall h
  · split_ifs at h
    · exact decided_startCall h
    · exact hloaded t h

theorem decided_moduleLoaded {result : Except ToolError Value}
    (h : moduleLoaded cfg plan s now g result = some t) : Decided s t := by
  unfold moduleLoaded at h
  dsimp only at h
  split_ifs at h
  · refine decided_loadedInBackground ?_ h
    intro t ht
    cases ht
    exact decided_of_eq rfl
  · split at h
    · cases h
      exact decided_of_eq rfl
    · exact decided_startCall h
    · cases h
      exact decided_of_eq rfl

theorem decided_frameworkLoaded {result : Except ToolError Value} {framework : String} {rest : List String}
    (h : frameworkLoaded cfg plan s now g framework rest result = some t) : Decided s t := by
  unfold frameworkLoaded at h
  dsimp only at h
  split_ifs at h
  · refine decided_loadedInBackground ?_ h
    intro t ht
    cases ht
    exact decided_of_eq rfl
  · split at h
    · cases h
      exact decided_of_eq rfl
    · cases h
      exact decided_of_eq rfl

theorem decided_nextFramework {rest : List String} (h : nextFramework cfg plan s g rest = some t) :
    Decided s t := by
  unfold nextFramework at h
  split at h
  · exact decided_startCall h
  · split_ifs at h
    · exact decided_startCall h
    · exact decided_startCall h

theorem decided_statusFetched {result : Except ToolError Value}
    (h : statusFetched cfg plan s now g result = some t) : Decided s t := by
  unfold statusFetched at h
  split at h
  · split_ifs at h
    · cases h
      exact decided_toolError rfl
    · cases h
      exact decided_of_eq rfl
    · exact decided_startCall h
    · cases h
      exact decided_of_eq rfl
  · split_ifs at h
    · exact decided_startCall h
    · cases h
      exact decided_of_eq rfl

theorem decided_decide (h : decide cfg plan s now g report = some t) : Decided s t := by
  unfold decide at h
  split_ifs at h with hbackground hgives
  · exact decided_startCall h
  · cases h
    rw [Bool.or_eq_true, not_or, Bool.not_eq_true] at hgives
    exact decided_complete hgives.1 rfl
  · cases h
    exact decided_of_eq rfl

theorem decided_closed {reason : Reason} {result : Except ToolError Closed} :
    Decided s (closed s now g reason result) := by
  unfold closed
  split
  · exact decided_toolError rfl
  · exact decided_failAfterCleanupError rfl
  · exact decided_finishCancelled rfl
  · exact decided_finishCancelled rfl
  · exact decided_failAfterCleanupError rfl

theorem decided_advance (h : advance cfg plan s now report = some t) : Decided s t := by
  unfold advance at h
  split at h
  · split_ifs at h
    · cases h
      exact decided_finishCancelled rfl
    · cases h
      exact decided_of_eq rfl
    · exact decided_startOpen h
  · cases h
  · obtain ⟨outcome, -, h⟩ := Option.bind_eq_some_iff.mp h
    exact decided_opened h
  · obtain ⟨result, -, h⟩ := Option.bind_eq_some_iff.mp h
    exact decided_moduleLoaded h
  · exact decided_nextFramework h
  · obtain ⟨result, -, h⟩ := Option.bind_eq_some_iff.mp h
    exact decided_frameworkLoaded h
  · obtain ⟨result, -, h⟩ := Option.bind_eq_some_iff.mp h
    exact decided_statusFetched h
  · split_ifs at h
    exact decided_startCall h
  · exact decided_decide h
  · split at h
    · cases h
      exact decided_closed
    · cases h
  · cases h

theorem decided_prepared {settlement : Option Dsc.Settlement}
    (h : prepared cfg plan s now settlement = some t) : Decided s t := by
  unfold prepared at h
  rw [Option.ite_none_right_eq_some] at h
  obtain ⟨-, h⟩ := h
  split at h
  · exact decided_startOpen h
  · split_ifs at h
    cases h
    exact decided_finishCancelled rfl
  · cases h
    intro hcompleted
    exact .inl (status_fail hcompleted)
  · split_ifs at h
    cases h
    exact decided_toolError rfl

theorem decided_step {a : Action} (h : step cfg plan s a = some t) : Decided s t := by
  cases a with
  | handle a =>
    simp only [step] at h
    rw [Option.ite_none_right_eq_some] at h
    obtain ⟨db, -, rfl⟩ := handleStep_eq_some h.2
    exact decided_of_eq rfl
  | advance now report => exact decided_advance h
  | prepared settlement now => exact decided_prepared h
  | grant token =>
    simp only [step, grant] at h
    split at h
    · split_ifs at h
      cases h
      exact decided_of_eq rfl
    · split_ifs at h
      obtain ⟨t', ht', rfl⟩ := Option.map_eq_some_iff.mp h
      obtain ⟨db, -, rfl⟩ := handleStep_eq_some ht'
      exact decided_of_eq rfl
    · cases h
  | requestCancel message now =>
    simp only [step] at h
    rw [Option.ite_none_right_eq_some] at h
    obtain ⟨-, h⟩ := h
    cases h
    intro hcompleted
    change (s.task.requestCancel message now).2.state.status = _ at hcompleted
    rw [status_requestCancel] at hcompleted
    exact .inl hcompleted
  | cancel =>
    simp only [step] at h
    rw [Option.ite_none_right_eq_some] at h
    obtain ⟨-, h⟩ := h
    cases h
    exact decided_of_eq rfl
  | abandon =>
    simp only [step] at h
    split_ifs at h
    split at h
    · obtain ⟨t', ht', rfl⟩ := Option.map_eq_some_iff.mp h
      obtain ⟨db, -, rfl⟩ := handleStep_eq_some ht'
      exact decided_of_eq rfl
    · cases h

end Decided

structure Atomic (cfg : Config) (plan : Plan) (s : State) : Prop where
  closed : s.failed = true → ∀ g, s.owns g = true →
    s.handle.Gone g ∨ ∃ u c, s.openCall = some u ∧ s.handle.call u = some c ∧ NeverDispatched c
  named : ∀ g u reason closeError now report t, s.position = .closing g u reason →
    s.handle.call u = some (.closed (.error closeError)) → step cfg plan s (.advance now report) = some t →
    t.task.state.status = .failed ∧ t.task.state.message = reason.cleanupFailed closeError g
  others : ∀ u c choice lease t, s.calls u → s.handle.call u = some c →
    step cfg plan s (.handle (.run u choice)) = some t → s.handle.database.handle = some lease →
    t.handle.database.handle = none → s.owns lease.generation = true ∨
      (∃ client, c = .settleStale client) ∨ ∃ purpose served error, c = .clearHandle purpose served error
  completed : ∀ a t, step cfg plan s a = some t → Decided s t

theorem Sound.atomic (hs : Sound plan s) : Atomic cfg plan s where
  closed := by
    intro hfailed g howns
    have hplaced := hs.placed
    unfold State.failed at hfailed
    split at hfailed
    · next generation error hposition =>
      rw [hposition] at hplaced
      cases error with
      | false =>
        exfalso
        obtain ⟨hfailed', hcancelled⟩ := hs.succeeded generation hposition
        simp only [Bool.false_or, Bool.or_eq_true, beq_iff_eq] at hfailed
        rcases hfailed with hfailed | hfailed
        · exact hfailed' hfailed
        · exact hcancelled hfailed
      | true =>
        cases generation with
        | some generation =>
          obtain ⟨hopen, hgone⟩ := hplaced
          left
          rcases hopen.owns hs howns with rfl | hgone'
          · exact hgone howns
          · exact hgone'
        | none =>
          obtain ⟨u, hopen, howner⟩ := (Option.any_eq_true ..).mp howns
          obtain ⟨error, hclosed⟩ := hplaced u hopen
          obtain ⟨c, hc, hphase⟩ := hs.openPhase u hopen
          rw [hclosed, Option.some.injEq] at hc
          subst hc
          rw [beq_iff_eq] at howner
          rcases hphase.installer g howner with hopens | hgone | hnever
          · cases hopens
          · exact .inl hgone
          · exact .inr ⟨u, _, hopen, hclosed, hnever⟩
    · cases hfailed
  named := by
    intro g u reason closeError now report t hposition hclosed h
    have hrunning := hs.running (by
      intro g error hended
      cases hposition.symm.trans hended)
    simp only [step, advance, hposition, hclosed, Option.some.injEq] at h
    subst h
    cases reason with
    | toolError | cancellation =>
      simp only [closed, settle, TaskEntry.failAfterCleanupError, hrunning, if_true]
      exact ⟨trivial, rfl⟩
  others := by
    intro u c choice lease t hcalls hu h hlease hnone
    simp only [step] at h
    rw [Option.ite_none_right_eq_some] at h
    obtain ⟨db, hdb, rfl⟩ := handleStep_eq_some h.2
    simp only [Handle.step, hu, Option.bind_some] at hdb
    apply owns_of_uninstalls hs hcalls hu hlease
    exact uninstalls_of_next hlease hnone hdb
  completed := by
    intro a t h
    exact decided_step h

theorem open_dsc_atomic {sharedHttp : Bool}
    (h : ReachableBy (step cfg plan) (Guarded cfg plan) (initial sharedHttp plan) s) : Atomic cfg plan s := by
  have hs : Sound plan s := by
    refine invariant_of_meets ?_ (sound_initial sharedHttp plan) h
    intro s a t hs hok hstep
    exact sound_step hs hok hstep
  exact hs.atomic

def dscClient : Client := ⟨"session", .session "session", false⟩

def loads : Config where
  dbInfo := fun _ => .ok ⟨true⟩
  value := fun _ => .ok .null

def okReply : CallToolResult := { content := [.text "\x7b\x7d"], isError := none, metadata := none }

def errorReply : CallToolResult :=
  { content := [.text "IDA error: no such module"], isError := some true, metadata := none }

def openPlan (path : Path) : Plan := { path, module := "libobjc.A.dylib", frameworks := [], client := dscClient }

def openFresh (u : CallId) : List Action :=
  [.handle (.run u (.healthy true)), .handle (.run u (.leased (.ok ⟨1, 0, 1, false⟩))),
    .handle (.run u (.answered (.ok okReply)))]

def callReturns (u : CallId) (reply : CallToolResult) : List Action :=
  [.handle (.run u .proceed), .handle (.run u (.answered (.ok reply))), .handle (.run u .proceed)]

def closeReturns (u : CallId) : List Action :=
  [.handle (.run u .proceed), .handle (.run u (.released (.ok ())))]

def cancelledLoad : List Action :=
  ([.advance 1 .null, .prepared none 1] : List Action) ++ openFresh 0 ++
    ([.advance 1 .null, .cancel] : List Action) ++ callReturns 1 okReply ++
    ([.advance 2 .null] : List Action) ++ closeReturns 2 ++ ([.advance 3 .null] : List Action)

theorem open_dsc_atomic_cancelled : ∃ s : State, s.failed = true ∧ s.owns 1 = true ∧
    (s.handle.Gone 1 ∨ ∃ u c, s.openCall = some u ∧ s.handle.call u = some c ∧ NeverDispatched c) := by
  have hrun : (run (step loads (openPlan .directRawDsc)) (initial true (openPlan .directRawDsc)) cancelledLoad).any
      (fun s => s.failed && s.owns 1) = true := by
    decide +kernel
  obtain ⟨s, hs, hend⟩ := (Option.any_eq_true ..).mp hrun
  obtain ⟨hfailed, howns⟩ := (Bool.and_eq_true_iff ..).mp hend
  refine ⟨s, hfailed, howns, ?_⟩
  exact (open_dsc_atomic ⟨cancelledLoad, by decide +kernel, hs⟩).closed hfailed 1 howns

def failedLoad : List Action :=
  ([.advance 1 .null] : List Action) ++ openFresh 0 ++ ([.advance 1 .null] : List Action) ++
    callReturns 1 errorReply ++ ([.advance 2 .null] : List Action)

def cancelledJoin : List Action :=
  ([.handle (.start (.openIdb dscClient))] : List Action) ++ openFresh 0 ++
    ([.advance 1 .null, .prepared none 1, .handle (.run 1 (.healthy true)),
      .handle (.run 1 (.answered (.ok okReply))), .cancel, .advance 2 .null] : List Action)

/-- The direct path leaves the database open that it has opened, and the background path closes one that
another has opened. -/
theorem open_dsc_not_atomic :
    (∃ s, Reachable (step loads (openPlan .direct)) (initial true (openPlan .direct)) s ∧
      s.failed = true ∧ s.owns 1 = true ∧ s.installed 1 = true) ∧
    ∃ s t, Reachable (step loads (openPlan .directRawDsc)) (initial true (openPlan .directRawDsc)) s ∧
      s.calls 2 ∧ s.owns 1 = false ∧ s.installed 1 = true ∧
      step loads (openPlan .directRawDsc) s (.handle (.run 2 .proceed)) = some t ∧ t.installed 1 = false := by
  constructor
  · have hrun : (run (step loads (openPlan .direct)) (initial true (openPlan .direct)) failedLoad).any
        (fun s => s.failed && (s.owns 1 && s.installed 1)) = true := by
      decide +kernel
    obtain ⟨s, hs, hend⟩ := (Option.any_eq_true ..).mp hrun
    obtain ⟨hfailed, hend⟩ := (Bool.and_eq_true_iff ..).mp hend
    obtain ⟨howns, hinstalled⟩ := (Bool.and_eq_true_iff ..).mp hend
    exact ⟨s, ⟨_, hs⟩, hfailed, howns, hinstalled⟩
  · have hrun : (run (step loads (openPlan .directRawDsc)) (initial true (openPlan .directRawDsc))
        cancelledJoin).any (fun s => s.position.awaits == some 2 && (!s.owns 1 && (s.installed 1 &&
          (step loads (openPlan .directRawDsc) s (.handle (.run 2 .proceed))).any fun t => !t.installed 1))) =
            true := by
      decide +kernel
    obtain ⟨s, hs, hend⟩ := (Option.any_eq_true ..).mp hrun
    obtain ⟨hawaits, hend⟩ := (Bool.and_eq_true_iff ..).mp hend
    obtain ⟨howns, hend⟩ := (Bool.and_eq_true_iff ..).mp hend
    obtain ⟨hinstalled, hend⟩ := (Bool.and_eq_true_iff ..).mp hend
    obtain ⟨t, ht, hclosed⟩ := (Option.any_eq_true ..).mp hend
    rw [beq_iff_eq] at hawaits
    rw [Bool.not_eq_true'] at howns hclosed
    exact ⟨s, t, ⟨_, hs⟩, .inr hawaits, howns, hinstalled, ht, hclosed⟩

end IdaMcp.OpenDsc
