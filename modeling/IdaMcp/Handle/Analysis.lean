import IdaMcp.Handle.Current

namespace IdaMcp.Handle

open Foundation Pool Remote Tasks

def AnalysisTask.id : AnalysisTask → Option CallId
  | started id | alreadyRunning id => some id
  | existingTaskIdIsPrivate | capacityExceeded => none

variable {cfg : Config} {s s' t : State} {u v : CallId} {c d : Call} {purpose : Purpose}
  {started : Option ℕ}

structure Call.Stays (c : Call) : Prop where
  served : ∀ started served, c.started = some started → c.served = some served →
    started = some served.generation
  completing : ∀ purpose result, c = .completing purpose none result → ∃ error, result = .error error
  returned : ∀ purpose result, c = .returned purpose none result → ∃ error, result = .error error

structure Stays (s : State) : Prop where
  call : ∀ u c, s.call u = some c → c.Stays
  named : ∀ u generation grant task id, s.call u = some (.opened generation grant (some task)) →
    task.id = some id → s.started id = some (some generation)

theorem stays_initial (sharedHttp : Bool) : Stays (initial sharedHttp) where
  call := by intro u c h; cases h
  named := by intro u generation grant task id h; cases h

def Call.quiet : Call → Bool
  | requiredHandle _ | calling _ _ | clearHandle _ _ _ | completing _ _ _ | returned _ _ _
  | opened _ _ (some _) => false
  | _ => true

theorem Call.started_of_quiet (h : c.quiet = true) : c.started = none := by
  cases c with
  | requiredHandle | calling | clearHandle | completing | returned => cases h
  | _ => rfl

theorem Call.stays_of_quiet (h : c.quiet = true) : c.Stays where
  served := by
    intro started served hstarted
    rw [started_of_quiet h] at hstarted
    cases hstarted
  completing := by
    rintro purpose result rfl
    cases h
  returned := by
    rintro purpose result rfl
    cases h

theorem Stays.goto (ht : Stays t) (hu : t.call u = some c) (hd : d.Stays)
    (hstarted : ∀ started, c.started = some started → d.started = some started)
    (hnamed : ∀ generation grant task id, d = .opened generation grant (some task) →
      task.id = some id → t.started id = some (some generation)) : Stays (t.goto u d) := by
  have hkept : ∀ id started, t.started id = some started → (t.goto u d).started id = some started := by
    intro id started hid
    by_cases heq : id = u
    · subst heq
      have hself : (t.goto id d).call id = some d := Function.update_self ..
      rw [State.started, hself, Option.bind_some]
      rw [State.started, hu, Option.bind_some] at hid
      exact hstarted started hid
    · have hother : (t.goto u d).call id = t.call id := Function.update_of_ne heq ..
      rw [State.started, hother]
      exact hid
  constructor
  · intro v e hv
    rcases call_goto hv with ⟨-, rfl⟩ | hv
    · exact hd
    · exact ht.call v e hv
  · intro v generation grant task id hv hid
    rcases call_goto hv with ⟨-, rfl⟩ | hv
    · exact hkept id _ (hnamed generation grant task id rfl hid)
    · exact hkept id _ (ht.named v generation grant task id hv hid)

theorem Stays.goto_quiet (ht : Stays t) (hu : t.call u = some c) (hc : c.started = none)
    (hd : d.quiet = true) : Stays (t.goto u d) := by
  refine ht.goto hu (Call.stays_of_quiet hd) ?_ ?_
  · intro started hstarted
    rw [hc] at hstarted
    cases hstarted
  · rintro generation grant task id rfl
    cases hd

theorem Stays.goto_purpose (ht : Stays t) (hu : t.call u = some c) (hd : d.Stays)
    (hsame : d.started = c.started)
    (hopened : ∀ generation grant task, d ≠ .opened generation grant (some task)) :
    Stays (t.goto u d) := by
  refine ht.goto hu hd ?_ ?_
  · intro started hstarted
    rw [hsame]
    exact hstarted
  · intro generation grant task id h
    exact absurd h (hopened generation grant task)

theorem Stays.frame (hs : Stays s) (hcall : t.call = s.call) : Stays t where
  call := by
    rw [hcall]
    exact hs.call
  named := by
    intro u generation grant task id hu hid
    rw [hcall] at hu
    have hnamed := hs.named u generation grant task id hu hid
    rw [State.started] at hnamed ⊢
    rw [hcall]
    exact hnamed

theorem Stays.addCall (hs : Stays s) (hfresh : s.call s.nextCall = none) (hd : d.Stays)
    (hopened : ∀ generation grant task, d ≠ .opened generation grant (some task)) :
    Stays (s.addCall d) := by
  have hkept : ∀ id started, s.started id = some started → (s.addCall d).started id = some started := by
    intro id started hid
    have hne : id ≠ s.nextCall := by
      rintro rfl
      rw [State.started, hfresh] at hid
      cases hid
    have hother : (s.addCall d).call id = s.call id := Function.update_of_ne hne ..
    rw [State.started, hother]
    exact hid
  constructor
  · intro v e hv
    rcases call_goto hv with ⟨-, rfl⟩ | hv
    · exact hd
    · exact hs.call v e hv
  · intro v generation grant task id hv hid
    rcases call_goto hv with ⟨-, rfl⟩ | hv
    · exact absurd rfl (hopened generation grant task)
    · exact hkept id _ (hs.named v generation grant task id hv hid)

theorem stays_leaseForOpen (hs : Stays s) {client : Client} {healthy : Bool}
    (hu : s.call u = some (.leaseForOpen client)) (h : leaseForOpen s u client healthy = some s') :
    Stays s' := by
  unfold leaseForOpen at h
  rw [Option.ite_none_right_eq_some] at h
  obtain ⟨-, h⟩ := h
  have hlocked : Stays (s.setLock (some u)) := hs.frame rfl
  split at h
  · split_ifs at h
    · cases h
      exact hs.goto_quiet hu rfl rfl
    · cases h
      exact hlocked.goto_quiet (c := .leaseForOpen client) hu rfl rfl
  · cases h
    exact hlocked.goto_quiet (c := .leaseForOpen client) hu rfl rfl

theorem stays_acquire (hs : Stays s) {client : Client} {outcome : Except ToolError PooledWorkerHandle}
    (hu : s.call u = some (.acquire client)) : Stays (acquire s u client outcome) := by
  have hframe : ∀ database, Stays (s.setDatabase database) := fun _ => hs.frame rfl
  unfold acquire
  split
  · exact (hframe _).goto_quiet (c := .acquire client) hu rfl rfl
  · dsimp only
    split
    · exact (hframe _).goto_quiet (c := .acquire client) hu rfl rfl
    · exact (hframe _).goto_quiet (c := .acquire client) hu rfl rfl

theorem stays_openAnswered (hs : Stays s) {client : Client} {served : Served} {freshLease : Bool}
    {outcome : Except ToolError CallToolResult}
    (hu : s.call u = some (.opening client served freshLease)) :
    Stays (openAnswered cfg s u client served freshLease outcome) := by
  unfold openAnswered
  split
  · exact hs.goto_quiet hu rfl rfl
  · split_ifs
    · exact hs.goto_quiet hu rfl rfl
    · exact hs.goto_quiet hu rfl rfl

theorem stays_grant (hs : Stays s) {client : Client} {generation : ℕ} {info : DbInfo} {fresh : String}
    (hu : s.call u = some (.granting client generation info))
    (h : grant s u client generation info fresh = some s') : Stays s' := by
  unfold grant at h
  split_ifs at h
  · cases h
    refine Stays.goto_quiet (c := .granting client generation info) ?_ hu rfl rfl
    exact hs.frame rfl
  · cases h
    exact hs.goto_quiet hu rfl rfl

theorem stays_closeAuthorized (hs : Stays s) {sessionId : String} {token : Option String} {force : Bool}
    (hu : s.call u = some (.closeAuthorized sessionId token force))
    (h : closeAuthorized s u sessionId token force = some s') : Stays s' := by
  unfold closeAuthorized at h
  rw [Option.ite_none_right_eq_some] at h
  obtain ⟨-, h⟩ := h
  dsimp only at h
  split at h
  · cases h
    exact hs.goto_quiet hu rfl rfl
  · cases h
    exact hs.goto_quiet hu rfl rfl
  · cases h
    refine Stays.goto_quiet (c := .closeAuthorized sessionId token force) ?_ hu rfl rfl
    exact hs.frame rfl

theorem stays_takeHandle (hs : Stays s) {expected : Option ℕ} {absent taken : Except ToolError Closed}
    (hu : s.call u = some (.takeHandle expected absent taken))
    (h : takeHandle s u expected absent taken = some s') : Stays s' := by
  unfold takeHandle at h
  rw [Option.ite_none_right_eq_some] at h
  obtain ⟨-, h⟩ := h
  dsimp only at h
  split at h
  · cases h
    refine Stays.goto_quiet (c := .takeHandle expected absent taken) ?_ hu rfl rfl
    exact hs.frame rfl
  · cases h
    exact hs.goto_quiet hu rfl rfl

theorem stays_reapDecision (hs : Stays s) {healthy : Bool} (hu : s.call u = some .reapDecision) :
    Stays (reapDecision s u healthy) := by
  have hnone : Stays (s.setHandle none) := hs.frame rfl
  unfold reapDecision
  split_ifs
  · split
    · exact hnone.goto_quiet (c := .reapDecision) hu rfl rfl
    · exact hs.goto_quiet hu rfl rfl
  · exact hs.goto_quiet hu rfl rfl

theorem stays_requiredHandle (hs : Stays s) (hcurrent : Current s)
    (hu : s.call u = some (.requiredHandle purpose)) (h : requiredHandle s u purpose = some s') :
    Stays s' := by
  unfold requiredHandle at h
  rw [Option.ite_none_right_eq_some] at h
  obtain ⟨-, h⟩ := h
  split at h
  · next dispatched hdispatched =>
    cases h
    refine hs.goto_purpose hu ⟨?_, ?_, ?_⟩ (started_calling purpose dispatched) ?_
    · intro started served hstarted hserved
      cases hserved
      cases purpose with
      | tool name expected => cases hstarted
      | analysis started' =>
        cases hstarted
        obtain ⟨lease, hlease, rfl⟩ :=
          Option.map_eq_some_iff.mp (WorkspaceDatabase.requiredHandle_ok hdispatched)
        have hgeneration : s.generation = some lease.generation := by
          rw [State.generation, hlease, Option.map_some]
        rcases hcurrent.awaits u _ started hu rfl with hnone | hsame
        · rw [hgeneration] at hnone
          cases hnone
        · exact hsame.trans hgeneration
    · rintro purpose' result h
      cases h
    · rintro purpose' result h
      cases h
    · rintro generation grant task h
      cases h
  · next error _ =>
    cases h
    refine hs.goto_purpose hu ⟨?_, ?_, ?_⟩ (started_completing purpose none _) ?_
    · intro started served hstarted hserved
      cases hserved
    · rintro purpose' result h
      cases h
      exact ⟨error, rfl⟩
    · rintro purpose' result h
      cases h
    · rintro generation grant task h
      cases h

theorem stays_answered (hs : Stays s) {served : Served} {outcome : Except ToolError CallToolResult}
    (hu : s.call u = some (.calling purpose served)) : Stays (answered s u purpose served outcome) := by
  have hcall := hs.call u _ hu
  unfold answered
  split
  · next error =>
    refine hs.goto_purpose hu ⟨?_, ?_, ?_⟩ ?_ ?_
    · intro started served' hstarted hserved
      rw [started_clearHandle, ← started_calling purpose served] at hstarted
      exact hcall.served started served' hstarted hserved
    · rintro purpose' result h
      cases h
    · rintro purpose' result h
      cases h
    · rw [started_clearHandle, started_calling]
    · rintro generation grant task h
      cases h
  · next result _ _ =>
    refine hs.goto_purpose hu ⟨?_, ?_, ?_⟩ ?_ ?_
    · intro started served' hstarted hserved
      rw [started_completing, ← started_calling purpose served] at hstarted
      exact hcall.served started served' hstarted hserved
    · rintro purpose' result h
      cases h
    · rintro purpose' result h
      cases h
    · rw [started_completing, started_calling]
    · rintro generation grant task h
      cases h

theorem stays_clearHandle (hs : Stays s) {served : Served} {error : ToolError}
    (hu : s.call u = some (.clearHandle purpose served error))
    (h : clearHandle s u purpose served error = some s') : Stays s' := by
  have hcall := hs.call u _ hu
  unfold clearHandle at h
  rw [Option.ite_none_right_eq_some] at h
  obtain ⟨-, h⟩ := h
  cases h
  have hframe : Stays (s.setDatabase (s.database.clearHandleIfLease served).1) := hs.frame rfl
  refine hframe.goto_purpose (c := .clearHandle purpose served error) hu ⟨?_, ?_, ?_⟩ ?_ ?_
  · intro started served' hstarted hserved
    rw [started_completing, ← started_clearHandle purpose served error] at hstarted
    exact hcall.served started served' hstarted hserved
  · rintro purpose' result h
    cases h
  · rintro purpose' result h
    cases h
  · rw [started_completing, started_clearHandle]
  · rintro generation grant task h
    cases h

theorem stays_finishCall (hs : Stays s) {served : Option Served} {result : Except ToolError CallToolResult}
    {value : Except ToolError Value} (hu : s.call u = some (.completing purpose served result))
    (hcall : t.call = s.call) (hfailed : served = none → ∃ error, value = .error error) :
    Stays (finishCall t u purpose served value) := by
  have hstays := hs.call u _ hu
  have ht : Stays t := hs.frame hcall
  have hgoto : Stays (t.goto u (.returned purpose served value)) := by
    refine ht.goto_purpose (c := .completing purpose served result) (hcall ▸ hu) ⟨?_, ?_, ?_⟩ ?_ ?_
    · intro started served' hstarted hserved
      rw [started_returned, ← started_completing purpose served result] at hstarted
      exact hstays.served started served' hstarted hserved
    · rintro purpose' result h
      cases h
    · rintro purpose' result h
      cases h
      exact hfailed rfl
    · rw [started_returned, started_completing]
    · rintro generation grant task h
      cases h
  exact hgoto.frame rfl

theorem stays_complete (hs : Stays s) {served : Option Served} {result : Except ToolError CallToolResult}
    (hu : s.call u = some (.completing purpose served result))
    (h : complete cfg s u purpose served result = some s') : Stays s' := by
  have hfailed : served = none → ∃ error, result = .error error := by
    rintro rfl
    exact (hs.call u _ hu).completing purpose result rfl
  have hparsed : served = none → ∃ error,
      (result.bind fun result => cfg.parseValue result purpose.name) = .error error := by
    intro hnone
    obtain ⟨error, rfl⟩ := hfailed hnone
    exact ⟨error, rfl⟩
  unfold complete at h
  dsimp only at h
  split at h
  · cases h
    exact stays_finishCall hs hu rfl hparsed
  · rw [Option.ite_none_right_eq_some] at h
    obtain ⟨-, h⟩ := h
    split at h
    · next database hset =>
      cases h
      exact stays_finishCall hs hu rfl hparsed
    · cases h
      refine stays_finishCall hs hu rfl ?_
      intro hnone
      split_ifs
      · exact ⟨_, rfl⟩
      · exact hparsed hnone

theorem stays_requiredHandle_call (purpose : Purpose) : (Call.requiredHandle purpose).Stays where
  served := by
    intro started served hstarted hserved
    cases hserved
  completing := by
    rintro purpose' result h
    cases h
  returned := by
    rintro purpose' result h
    cases h

theorem stays_spawnAnalyzeFuncsTask (hs : Stays s) (hfresh : s.call s.nextCall = none) (owner : TaskOwner)
    (full : Bool) : Stays (spawnAnalyzeFuncsTask s owner full).1 := by
  unfold spawnAnalyzeFuncsTask
  split
  · split_ifs <;> exact hs
  · split_ifs
    · exact hs
    · have hadd : Stays (s.addCall
          (.requiredHandle (.analysis (s.database.handle.map PooledDatabaseLease.generation)))) := by
        refine hs.addCall hfresh (stays_requiredHandle_call _) ?_
        rintro generation grant task h
        cases h
      exact hadd.frame rfl

theorem call_spawnAnalyzeFuncsTask (hlt : u < s.nextCall) (owner : TaskOwner) (full : Bool) :
    (spawnAnalyzeFuncsTask s owner full).1.call u = s.call u := by
  unfold spawnAnalyzeFuncsTask
  split
  · split_ifs <;> rfl
  · split_ifs
    · rfl
    · exact Function.update_of_ne (Nat.ne_of_lt hlt) ..

theorem started_spawned {client : Client} {generation : ℕ} {info : DbInfo}
    {grant : Option (Except String CloseTokenGrant)} {full : Bool} {id : CallId} (hcurrent : Current s)
    (hu : s.call u = some (.spawning client generation info grant))
    (hbackground : (client.routeToBackground && !info.autoIsOk) = true)
    (hid : (spawnAnalyzeFuncsTask s client.owner full).2.id = some id) :
    (spawnAnalyzeFuncsTask s client.owner full).1.started id = some (some generation) := by
  have hopens : (Call.spawning client generation info grant).opens = some (client, generation) := by
    rw [Call.opens, if_pos hbackground]
  unfold spawnAnalyzeFuncsTask at hid ⊢
  split
  · next running existing hrunning =>
    simp only [hrunning] at hid
    split_ifs at hid ⊢ with howner
    · cases hid
      refine hcurrent.visible u _ _ _ hu hopens (State.visible_eq_some.mpr ⟨howner.1, ?_⟩)
      rw [hrunning, howner.2]
    · cases hid
  · next hnone =>
    simp only [hnone] at hid
    split_ifs at hid ⊢
    · cases hid
    · cases hid
      have hgeneration : s.database.handle.map PooledDatabaseLease.generation = some generation :=
        hcurrent.opens u _ _ hu hopens
      rw [hgeneration]
      exact started_goto_self (t := s) rfl

theorem stays_spawn (hs : Stays s) (hlt : u < s.nextCall) (hfresh : s.call s.nextCall = none)
    {client : Client} {generation : ℕ} {info : DbInfo} {grant : Option (Except String CloseTokenGrant)}
    {full : Bool} (hcurrent : Current s) (hu : s.call u = some (.spawning client generation info grant)) :
    Stays (spawn s u client generation info grant full) := by
  unfold spawn
  split_ifs with hbackground
  · have hspawned := stays_spawnAnalyzeFuncsTask hs hfresh client.owner full
    have hcall := (call_spawnAnalyzeFuncsTask hlt client.owner full).trans hu
    refine hspawned.goto hcall ⟨?_, ?_, ?_⟩ ?_ ?_
    · intro started served hstarted
      cases hstarted
    · rintro purpose result h
      cases h
    · rintro purpose result h
      cases h
    · intro started hstarted
      cases hstarted
    · intro generation' grant' task id h hid
      cases h
      exact started_spawned hcurrent hu hbackground hid
  · exact hs.goto_quiet hu rfl rfl

theorem stays_dropCall (hs : Stays s) (hu : s.call u = some c) (hdetached : c.detached = false)
    (hsettled : c.settled = false) : Stays (dropCall s u) := by
  have hcall : (dropCall s u).call = Function.update s.call u none := by
    simp only [dropCall]
    split_ifs <;> rfl
  have hstarted := Call.started_of_dropped hdetached hsettled
  constructor
  · intro v d hv
    exact hs.call v d (call_dropCall hv)
  · intro v generation grant task id hv hid
    have hnamed := hs.named v generation grant task id (call_dropCall hv) hid
    have hne : id ≠ u := by
      rintro rfl
      rw [State.started, hu, Option.bind_some, hstarted] at hnamed
      cases hnamed
    rw [State.started, hcall, Function.update_of_ne hne]
    exact hnamed

theorem stays_next (hs : Stays s) (hsound : Sound s) (hcurrent : Current s) {choice : Choice}
    (hu : s.call u = some c) (h : next cfg s u c choice = some s') : Stays s' := by
  have hlt := hsound.lt u c hu
  have hfresh : s.call s.nextCall = none := by
    rw [Option.eq_none_iff_forall_ne_some]
    intro d hd
    exact Nat.lt_irrefl _ (hsound.lt _ d hd)
  unfold next at h
  split at h
  · exact stays_leaseForOpen hs hu h
  · next client =>
    cases h
    have hnone : Stays (s.setHandle none) := hs.frame rfl
    exact hnone.goto_quiet (c := .settleStale client) hu rfl rfl
  · cases h
    exact stays_acquire hs hu
  · cases h
    exact stays_openAnswered hs hu
  · exact stays_grant hs hu h
  · cases h
    exact stays_spawn hs hlt hfresh hcurrent hu
  · exact stays_closeAuthorized hs hu h
  · exact stays_takeHandle hs hu h
  · cases h
    exact hs.goto_quiet hu rfl rfl
  · cases h
    exact stays_reapDecision hs hu
  · exact stays_requiredHandle hs hcurrent hu h
  · cases h
    exact stays_answered hs hu
  · exact stays_clearHandle hs hu h
  · exact stays_complete hs hu h
  · next owner full =>
    cases h
    have hspawned := stays_spawnAnalyzeFuncsTask hs hfresh owner full
    exact hspawned.goto_quiet ((call_spawnAnalyzeFuncsTask hlt owner full).trans hu) rfl rfl
  · cases h

theorem stays_step (hs : Stays s) (hsound : Sound s) (hcurrent : Current s) {a : Action}
    (h : step cfg s a = some s') : Stays s' := by
  cases a with
  | start request =>
    simp only [step, Option.some.injEq] at h
    subst h
    have hfresh : s.call s.nextCall = none := by
      rw [Option.eq_none_iff_forall_ne_some]
      intro d hd
      exact Nat.lt_irrefl _ (hsound.lt _ d hd)
    have hquiet {d : Call} (hd : d.quiet = true) : Stays (s.addCall d) := by
      apply hs.addCall hfresh (Call.stays_of_quiet hd)
      rintro generation grant task rfl
      cases hd
    cases request with
    | closeIdb sessionId token force =>
      simp only [Request.position]
      split_ifs <;> exact hquiet rfl
    | call name expected =>
      apply hs.addCall hfresh (stays_requiredHandle_call _)
      rintro generation grant task h
      cases h
    | _ => exact hquiet rfl
  | run u choice =>
    simp only [step] at h
    obtain ⟨c, hu, h⟩ := Option.bind_eq_some_iff.mp h
    exact stays_next hs hsound hcurrent hu h
  | drop u =>
    simp only [step] at h
    split at h
    · next c hu =>
      split_ifs at h with hkept
      cases h
      rw [Bool.or_eq_true, not_or, Bool.not_eq_true, Bool.not_eq_true] at hkept
      exact stays_dropCall hs hu hkept.1 hkept.2
    · cases h

theorem stays_of_reachableBy {sharedHttp : Bool}
    (h : ReachableBy (step cfg) Guarded (initial sharedHttp) s) : Sound s ∧ Current s ∧ Stays s := by
  refine invariant_of_meets (I := fun s => Sound s ∧ Current s ∧ Stays s) ?_ ?_ h
  · rintro s a t ⟨hsound, hcurrent, hs⟩ hok hstep
    exact ⟨hsound.follows (follows_step hsound hstep), hcurrent.step hsound hok hstep,
      stays_step hs hsound hcurrent hstep⟩
  · exact ⟨sound_initial sharedHttp, current_initial sharedHttp, stays_initial sharedHttp⟩

/-- In a run that keeps to the guard a background analysis works on the generation alone that it was
created on, it fails if that is gone, and the task that an open names analyses the generation that the
open has opened. -/
theorem analysis_on_its_database (cfg : Config) (sharedHttp : Bool) (s : State)
    (h : ReachableBy (step cfg) Guarded (initial sharedHttp) s) :
    (∀ u c started served, s.call u = some c → c.started = some started → c.served = some served →
      started = some served.generation) ∧
    (∀ u started s', s.call u = some (.requiredHandle (.analysis started)) →
      step cfg s (.run u .proceed) = some s' →
      (∀ lease, s.database.handle = some lease → started ≠ some lease.generation) →
      s'.call u = some (.completing (.analysis started) none (.error .noDatabaseOpen))) ∧
    (∀ u started result, s.call u = some (.returned (.analysis started) none result) →
      ∃ error, result = .error error) ∧
    (∀ u generation grant task id, s.call u = some (.opened generation grant (some task)) →
      task.id = some id → ∃ c, s.call id = some c ∧ c.started = some (some generation)) := by
  obtain ⟨-, hcurrent, hs⟩ := stays_of_reachableBy h
  refine ⟨?_, ?_, ?_, ?_⟩
  · intro u c started served hu hstarted hserved
    exact (hs.call u c hu).served started served hstarted hserved
  · intro u started s' hu hstep hgone
    have hnone : s.database.handle = none := by
      rcases hcurrent.awaits u _ started hu rfl with hnone | hsame
      · exact Option.map_eq_none_iff.mp hnone
      · cases hlease : s.database.handle with
        | none => rfl
        | some lease =>
          rw [State.generation, hlease] at hsame
          exact absurd hsame (hgone lease hlease)
    simp only [step, hu, Option.bind_some, next, requiredHandle] at hstep
    rw [Option.ite_none_right_eq_some] at hstep
    obtain ⟨-, hstep⟩ := hstep
    rw [WorkspaceDatabase.requiredHandleForGeneration, hnone] at hstep
    cases hstep
    exact Function.update_self ..
  · intro u started result hu
    exact (hs.call u _ hu).returned _ result rfl
  · intro u generation grant task id hu hid
    exact Option.bind_eq_some_iff.mp (hs.named u generation grant task id hu hid)

def large : Client := ⟨"session", .session "session", true⟩

def unanalysed : Config where
  dbInfo := fun _ => .ok ⟨false⟩
  value := fun _ => .ok .null

def unanalysedReply : CallToolResult :=
  { content := [.text "\x7b\"analysis_status\":\x7b\"auto_is_ok\":false\x7d\x7d"], isError := none, metadata := none }

def openLarge : List Action :=
  [.start (.openIdb large), .run 0 (.healthy true), .run 0 (.leased (.ok ⟨1, 0, 1, false⟩)),
    .run 0 (.answered (.ok unanalysedReply)), .run 0 (.token "token"), .run 0 (.registryFull false)]

def other : Client := ⟨"other", .session "other", true⟩

def reopen (client : Client) : List Action :=
  [.start (.closeIdb "other" none true), .run 2 .proceed, .run 2 (.released (.ok ())),
    .start (.openIdb client), .run 3 (.healthy true), .run 3 (.leased (.ok ⟨2, 0, 2, false⟩))]

def Call.analyses (generation : ℕ) : Option Call → Bool
  | some (.calling (.analysis (some 1)) served) => served.generation == generation
  | _ => false

theorem Call.analyses_eq_true {c : Option Call} {generation : ℕ} (h : Call.analyses generation c = true) :
    ∃ served, c = some (.calling (.analysis (some 1)) served) ∧ served.generation = generation := by
  unfold Call.analyses at h
  split at h
  · next served =>
    rw [beq_iff_eq] at h
    exact ⟨served, rfl, h⟩
  · cases h

theorem analysis_on_its_database_reopened : ∃ (s : State) (served : Served),
    s.call 1 = some (.calling (.analysis (some 1)) served) ∧ s.generation = some 2 ∧
      some 1 = some served.generation := by
  have hrun : (run (step unanalysed) (initial true)
      (openLarge ++ ([.run 1 .proceed] : List Action) ++ reopen other)).any
      (fun s => Call.analyses 1 (s.call 1) && s.generation == some 2) = true := by
    decide +kernel
  obtain ⟨s, hs, hend⟩ := (Option.any_eq_true ..).mp hrun
  rw [Bool.and_eq_true, beq_iff_eq] at hend
  obtain ⟨served, hu, -⟩ := Call.analyses_eq_true hend.1
  refine ⟨s, served, hu, hend.2, ?_⟩
  exact (analysis_on_its_database unanalysed true s
    ⟨openLarge ++ ([.run 1 .proceed] : List Action) ++ reopen other, by decide +kernel, hs⟩).1 1 _ _ _ hu rfl rfl

def Call.names (generation : ℕ) (id : CallId) : Option Call → Bool
  | some (.opened generation' _ (some task)) => generation' == generation && task.id == some id
  | _ => false

theorem Call.names_eq_true {c : Option Call} {generation : ℕ} {id : CallId}
    (h : Call.names generation id c = true) :
    ∃ grant task, c = some (.opened generation grant (some task)) ∧ task.id = some id := by
  unfold Call.names at h
  split at h
  · next generation' grant task =>
    rw [Bool.and_eq_true, beq_iff_eq, beq_iff_eq] at h
    obtain ⟨rfl, hid⟩ := h
    exact ⟨grant, task, rfl, hid⟩
  · cases h

/-- The analysis created on the first database runs on the second, whose open of the same client names it
besides. -/
theorem analysis_on_other_database : ∃ (s : State) (served : Served),
    Reachable (step unanalysed) (initial true) s ∧
      s.call 1 = some (.calling (.analysis (some 1)) served) ∧ served.generation = 2 ∧
        ∃ grant task, s.call 3 = some (.opened 2 grant (some task)) ∧ task.id = some 1 := by
  have hrun : (run (step unanalysed) (initial true) (openLarge ++ reopen large ++
      ([.run 1 .proceed, .run 3 (.answered (.ok unanalysedReply)), .run 3 (.token "next"),
        .run 3 (.registryFull false)] : List Action))).any
      (fun s => Call.analyses 2 (s.call 1) && Call.names 2 1 (s.call 3)) = true := by
    decide +kernel
  obtain ⟨s, hs, hend⟩ := (Option.any_eq_true ..).mp hrun
  rw [Bool.and_eq_true] at hend
  obtain ⟨served, hu, hgeneration⟩ := Call.analyses_eq_true hend.1
  obtain ⟨grant, task, hnamed, hid⟩ := Call.names_eq_true hend.2
  exact ⟨s, served, ⟨_, hs⟩, hu, hgeneration, grant, task, hnamed, hid⟩

end IdaMcp.Handle
