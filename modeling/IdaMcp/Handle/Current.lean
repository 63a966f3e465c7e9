import IdaMcp.Handle.Sound

/-! What may happen between the creation of a background analysis and its dispatch, and between the lease of
an open and its reply. -/

namespace IdaMcp.Handle

open Foundation Pool Remote Tasks

def Call.started : Call → Option (Option ℕ)
  | requiredHandle (.analysis started) | calling (.analysis started) _ | clearHandle (.analysis started) _ _
  | completing (.analysis started) _ _ | returned (.analysis started) _ _ => some started
  | _ => none

def Call.awaits : Call → Option (Option ℕ)
  | requiredHandle (.analysis started) => some started
  | _ => none

/-- An open that is to start a background analysis, with its generation, from its lease to its reply. -/
def Call.opens : Call → Option (Client × ℕ)
  | opening client served _ => if client.routeToBackground then some (client, served.generation) else none
  | granting client generation info | spawning client generation info _ =>
    if client.routeToBackground && !info.autoIsOk then some (client, generation) else none
  | _ => none

namespace State

variable (s : State)

def started (id : CallId) : Option (Option ℕ) := (s.call id).bind Call.started

def generation : Option ℕ := s.database.handle.map PooledDatabaseLease.generation

def awaits : Bool := (List.range s.nextCall).any fun u => (s.call u).any fun c => c.awaits.isSome

def opens : Bool := (List.range s.nextCall).any fun u => (s.call u).any fun c => c.opens.isSome

def visible (client : Client) : Option CallId :=
  match s.analysis with
  | some (id, existing) => if client.owner ≠ .runtime ∧ existing = client.owner then some id else none
  | none => none

end State

def installs (s : State) : Action → Bool
  | .run u (.leased (.ok _)) =>
    match s.call u with
    | some (.acquire _) => true
    | _ => false
  | _ => false

def ends (s : State) : Action → Bool
  | .run u choice =>
    match s.call u, choice with
    | some (.settleStale _), .proceed => true
    | some (.acquire _), .leased (.ok _) => s.database.handle.isSome
    | some (.closeAuthorized sessionId token force), .proceed =>
      (s.database.closeAuthorized sessionId token force).1.handle.isNone
    | some (.takeHandle expected _ _), .proceed => (s.database.takeHandle expected).1.handle.isNone
    | some .reapDecision, .healthy healthy => !healthy
    | some (.clearHandle _ served _), .proceed => s.database.isServed served
    | _, _ => false
  | _ => false

/-- An open that is to start an analysis gets its lease while one of another generation runs that its client
may see. -/
def overlaps (s : State) : Action → Bool
  | .run u choice =>
    match s.call u, choice with
    | some (.leaseForOpen client), .healthy true =>
      client.routeToBackground && s.generation.any fun generation =>
        (s.visible client).any fun id => s.started id != some (some generation)
    | some (.acquire client), .leased (.ok _) => client.routeToBackground && (s.visible client).isSome
    | _, _ => false
  | _ => false

/-- No new generation comes while an analysis waits for its dispatch, no lease ends while an open on it is to
start an analysis, and no such open finds an older analysis of its client. -/
def guarded (s : State) (a : Action) : Bool :=
  !(installs s a && s.awaits) && !(ends s a && s.opens) && !overlaps s a

def Guarded (s : State) (a : Action) : Prop := guarded s a = true

instance (s : State) (a : Action) : Decidable (Guarded s a) := inferInstanceAs (Decidable (_ = true))

variable {cfg : Config} {s s' t : State} {u v : CallId} {c d e : Call} {a : Action} {client : Client}
  {choice : Choice} {started : Option ℕ}

theorem started_calling (purpose : Purpose) (served : Served) :
    (Call.calling purpose served).started = (Call.requiredHandle purpose).started := by
  cases purpose <;> rfl

theorem started_clearHandle (purpose : Purpose) (served : Served) (error : ToolError) :
    (Call.clearHandle purpose served error).started = (Call.requiredHandle purpose).started := by
  cases purpose <;> rfl

theorem started_completing (purpose : Purpose) (served : Option Served)
    (result : Except ToolError CallToolResult) :
    (Call.completing purpose served result).started = (Call.requiredHandle purpose).started := by
  cases purpose <;> rfl

theorem started_returned (purpose : Purpose) (served : Option Served) (result : Except ToolError Value) :
    (Call.returned purpose served result).started = (Call.requiredHandle purpose).started := by
  cases purpose <;> rfl

inductive Turnover (s : State) (a : Action) (s' : State) : Prop
  | same (h : s'.generation = s.generation)
  | ended (h : s'.generation = none) (hends : ends s a = true)
  | installed (hinstalls : installs s a = true) (hends : s.generation.isSome = true → ends s a = true)

theorem generation_setDebugPin (db : WorkspaceDatabase) (served : Served) (pinned : Bool) :
    (db.setDebugPinForLease served pinned).1.handle.map PooledDatabaseLease.generation =
      db.handle.map PooledDatabaseLease.generation := by
  unfold WorkspaceDatabase.setDebugPinForLease
  split_ifs
  · cases db.handle <;> rfl
  · rfl

theorem generation_issueCloseToken (db : WorkspaceDatabase) (sessionId : String) (generation : ℕ)
    (fresh : String) : (db.issueCloseToken sessionId generation fresh).1.handle.map
      PooledDatabaseLease.generation = db.handle.map PooledDatabaseLease.generation := by
  unfold WorkspaceDatabase.issueCloseToken
  split
  · next lease hlease =>
    split_ifs
    · rw [hlease]
      rfl
    · rfl
  · rfl

theorem spawnAnalyzeFuncsTask_cases (s : State) (owner : TaskOwner) (full : Bool) :
    (spawnAnalyzeFuncsTask s owner full).1 = s ∨
      (spawnAnalyzeFuncsTask s owner full).1 =
        { s.addCall (.requiredHandle (.analysis s.generation)) with analysis := some (s.nextCall, owner) } := by
  unfold spawnAnalyzeFuncsTask
  split
  · split_ifs <;> exact .inl rfl
  · split_ifs
    · exact .inl rfl
    · exact .inr rfl

theorem generation_spawned (s : State) (owner : TaskOwner) (full : Bool) :
    (spawnAnalyzeFuncsTask s owner full).1.generation = s.generation := by
  rcases spawnAnalyzeFuncsTask_cases s owner full with h | h <;> rw [h]
  rfl

inductive Came (s : State) (a : Action) (s' : State) (v : CallId) (d : Call) : Prop
  | old (h : s.call v = some d)
  | other (hawaits : d.awaits = none) (hopens : d.opens = none)
  | carried {before : Call} (h : s.call v = some before) (hawaits : d.awaits = none)
    (hopens : ∀ o, d.opens = some o → before.opens = some o)
  | created (hawaits : ∀ started, d.awaits = some started → started = s.generation)
    (hopens : d.opens = none) (hsame : s'.generation = s.generation)
  | joined {opener : Client} (hu : s.call v = some (.leaseForOpen opener)) (ha : a = .run v (.healthy true))
    (hawaits : d.awaits = none) (hsame : s'.generation = s.generation)
    (hopens : ∀ o, d.opens = some o →
      o.1 = opener ∧ opener.routeToBackground = true ∧ s.generation = some o.2)
  | leased {opener : Client} {handle : PooledWorkerHandle} (hu : s.call v = some (.acquire opener))
    (ha : a = .run v (.leased (.ok handle))) (hawaits : d.awaits = none)
    (hopens : ∀ o, d.opens = some o →
      o.1 = opener ∧ opener.routeToBackground = true ∧ s'.generation = some o.2)

theorem came_goto (hcall : t.call = s.call) (hd : Came s a s' u d) (hv : (t.goto u d).call v = some e) :
    Came s a s' v e := by
  rcases call_goto hv with ⟨rfl, rfl⟩ | hv
  · exact hd
  · exact .old (hcall ▸ hv)

theorem opens_opening {served : Served} {freshLease : Bool} {o : Client × ℕ}
    (h : (Call.opening client served freshLease).opens = some o) :
    o = (client, served.generation) ∧ client.routeToBackground = true := by
  simp only [Call.opens] at h
  split_ifs at h with hbackground
  cases h
  exact ⟨rfl, hbackground⟩

theorem came_spawned {owner : TaskOwner} {full : Bool}
    (hv : (spawnAnalyzeFuncsTask s owner full).1.call v = some e)
    (hsame : s'.generation = s.generation) : Came s a s' v e := by
  rcases spawnAnalyzeFuncsTask_cases s owner full with h | h <;> rw [h] at hv
  · exact .old hv
  · rcases call_goto (t := s) (u := s.nextCall) hv with ⟨rfl, rfl⟩ | hv
    · refine .created ?_ rfl hsame
      intro started hstarted
      cases hstarted
      rfl
    · exact .old hv

/-- One step of a call: to a position that waits for no dispatch and is to start no analysis that it was not
to start before, or one of the three that are told apart. -/
inductive Moved (s : State) (u : CallId) : Call → Choice → State → Prop
  | goto {t : State} {c d : Call} {choice : Choice} (hcall : t.call = s.call)
    (hanalysis : ∀ running, t.analysis = some running → s.analysis = some running)
    (hturnover : Turnover s (.run u choice) (t.goto u d)) (hstarted : d.started = c.started)
    (hawaits : d.awaits = none) (hopens : ∀ o, d.opens = some o → c.opens = some o) :
    Moved s u c choice (t.goto u d)
  | joined {client : Client} {lease : PooledDatabaseLease} (hlease : s.database.handle = some lease) :
    Moved s u (.leaseForOpen client) (.healthy true) (s.goto u (.opening client lease.served false))
  | leased {t : State} {client : Client} {handle : PooledWorkerHandle} {served : Served}
    (hcall : t.call = s.call) (hanalysis : t.analysis = s.analysis)
    (hgeneration : t.generation = some served.generation) :
    Moved s u (.acquire client) (.leased (.ok handle)) (t.goto u (.opening client served true))
  | spawned {c d : Call} {owner : TaskOwner} {full : Bool} (hstarted : c.started = none)
    (hawaits : d.awaits = none) (hopens : d.opens = none) :
    Moved s u c (.registryFull full) ((spawnAnalyzeFuncsTask s owner full).1.goto u d)

theorem moved_quiet (hcall : t.call = s.call) (hanalysis : t.analysis = s.analysis)
    (hturnover : Turnover s (.run u choice) (t.goto u d)) (hstarted : d.started = c.started)
    (hawaits : d.awaits = none) (hopens : d.opens = none) : Moved s u c choice (t.goto u d) := by
  refine .goto hcall ?_ hturnover hstarted hawaits ?_
  · intro running hrunning
    rw [← hanalysis]
    exact hrunning
  · intro o ho
    rw [hopens] at ho
    cases ho

theorem moved_same (hcall : t.call = s.call) (hanalysis : t.analysis = s.analysis)
    (hsame : t.generation = s.generation) (hstarted : d.started = c.started)
    (hawaits : d.awaits = none) (hopens : d.opens = none) : Moved s u c choice (t.goto u d) :=
  moved_quiet hcall hanalysis (.same hsame) hstarted hawaits hopens

theorem moved_leaseForOpen {healthy : Bool} (h : leaseForOpen s u client healthy = some s') :
    Moved s u (.leaseForOpen client) (.healthy healthy) s' := by
  unfold leaseForOpen at h
  rw [Option.ite_none_right_eq_some] at h
  obtain ⟨-, h⟩ := h
  split at h
  · next lease hlease =>
    split_ifs at h with hhealthy
    · cases h
      subst hhealthy
      exact .joined hlease
    · cases h
      exact moved_same rfl rfl rfl rfl rfl rfl
  · cases h
    exact moved_same rfl rfl rfl rfl rfl rfl

theorem moved_acquire {outcome : Except ToolError PooledWorkerHandle} :
    Moved s u (.acquire client) (.leased outcome) (acquire s u client outcome) := by
  unfold acquire
  split
  · exact moved_same rfl rfl rfl rfl rfl rfl
  · dsimp only
    split
    · exact moved_same rfl rfl rfl rfl rfl rfl
    · exact .leased rfl rfl rfl

theorem moved_openAnswered {served : Served} {freshLease : Bool}
    {outcome : Except ToolError CallToolResult} :
    Moved s u (.opening client served freshLease) choice
      (openAnswered cfg s u client served freshLease outcome) := by
  unfold openAnswered
  split
  · refine .goto rfl (fun _ h => h) (.same rfl) rfl rfl ?_
    intro o ho
    simp only [Call.opens] at ho ⊢
    split_ifs at ho with hbackground
    rw [if_pos (Bool.and_eq_true_iff.mp hbackground).1]
    exact ho
  · split_ifs
    · exact moved_same rfl rfl rfl rfl rfl rfl
    · exact moved_same rfl rfl rfl rfl rfl rfl

theorem moved_grant {generation : ℕ} {info : DbInfo} {fresh : String}
    (h : grant s u client generation info fresh = some s') :
    Moved s u (.granting client generation info) choice s' := by
  unfold grant at h
  split_ifs at h
  · cases h
    exact .goto rfl (fun _ h => h) (.same (generation_issueCloseToken ..)) rfl rfl (fun _ ho => ho)
  · cases h
    exact .goto rfl (fun _ h => h) (.same rfl) rfl rfl (fun _ ho => ho)

theorem moved_spawn {generation : ℕ} {info : DbInfo} {grant : Option (Except String CloseTokenGrant)}
    {full : Bool} :
    Moved s u (.spawning client generation info grant) (.registryFull full)
      (spawn s u client generation info grant full) := by
  unfold spawn
  split_ifs
  · exact .spawned rfl rfl rfl
  · exact moved_same rfl rfl rfl rfl rfl rfl

theorem moved_closeAuthorized {sessionId : String} {token : Option String} {force : Bool}
    (hu : s.call u = some (.closeAuthorized sessionId token force))
    (h : closeAuthorized s u sessionId token force = some s') :
    Moved s u (.closeAuthorized sessionId token force) .proceed s' := by
  unfold closeAuthorized at h
  rw [Option.ite_none_right_eq_some] at h
  obtain ⟨-, h⟩ := h
  dsimp only at h
  split at h
  · cases h
    exact moved_same rfl rfl rfl rfl rfl rfl
  · cases h
    exact moved_same rfl rfl rfl rfl rfl rfl
  · next authorization lease hclosed =>
    cases h
    obtain ⟨-, -, -, hdb⟩ := WorkspaceDatabase.closeAuthorized_some hclosed
    rw [hdb]
    exact moved_quiet rfl rfl (.ended rfl (by simp [ends, hu, hdb])) rfl rfl rfl

theorem moved_takeHandle {expected : Option ℕ} {absent taken : Except ToolError Closed}
    (hu : s.call u = some (.takeHandle expected absent taken))
    (h : takeHandle s u expected absent taken = some s') :
    Moved s u (.takeHandle expected absent taken) .proceed s' := by
  unfold takeHandle at h
  rw [Option.ite_none_right_eq_some] at h
  obtain ⟨-, h⟩ := h
  dsimp only at h
  split at h
  · next lease htaken =>
    cases h
    obtain ⟨-, -, hdb⟩ := WorkspaceDatabase.takeHandle_some htaken
    rw [hdb]
    exact moved_quiet rfl rfl (.ended rfl (by simp [ends, hu, hdb])) rfl rfl rfl
  · cases h
    exact moved_same rfl rfl rfl rfl rfl rfl

theorem moved_reapDecision {healthy : Bool} (hu : s.call u = some .reapDecision) :
    Moved s u .reapDecision (.healthy healthy) (reapDecision s u healthy) := by
  unfold reapDecision
  split_ifs with hreaps
  · split
    · exact moved_quiet rfl rfl (.ended rfl (by simp [ends, hu, hreaps.2])) rfl rfl rfl
    · exact moved_same rfl rfl rfl rfl rfl rfl
  · exact moved_same rfl rfl rfl rfl rfl rfl

theorem moved_requiredHandle {purpose : Purpose} (h : requiredHandle s u purpose = some s') :
    Moved s u (.requiredHandle purpose) choice s' := by
  unfold requiredHandle at h
  rw [Option.ite_none_right_eq_some] at h
  obtain ⟨-, h⟩ := h
  split at h
  · cases h
    exact moved_same rfl rfl rfl (started_calling ..) rfl rfl
  · cases h
    exact moved_same rfl rfl rfl (started_completing ..) rfl rfl

theorem moved_answered {purpose : Purpose} {served : Served} {outcome : Except ToolError CallToolResult} :
    Moved s u (.calling purpose served) choice (answered s u purpose served outcome) := by
  unfold answered
  split
  · exact moved_same rfl rfl rfl ((started_clearHandle ..).trans (started_calling ..).symm) rfl rfl
  · exact moved_same rfl rfl rfl ((started_completing ..).trans (started_calling ..).symm) rfl rfl

theorem moved_clearHandle {purpose : Purpose} {served : Served} {error : ToolError}
    (hu : s.call u = some (.clearHandle purpose served error))
    (h : clearHandle s u purpose served error = some s') :
    Moved s u (.clearHandle purpose served error) .proceed s' := by
  have hstarted := started_clearHandle purpose served error
  unfold clearHandle at h
  rw [Option.ite_none_right_eq_some] at h
  obtain ⟨-, h⟩ := h
  cases h
  refine moved_quiet rfl rfl ?_ ((started_completing ..).trans hstarted.symm) rfl rfl
  unfold WorkspaceDatabase.clearHandleIfLease
  split_ifs with hserved
  · exact .ended rfl (by simp [ends, hu, hserved])
  · exact .same rfl

theorem moved_finishCall {purpose : Purpose} {served : Option Served}
    {result : Except ToolError CallToolResult} {value : Except ToolError Value} (hcall : t.call = s.call)
    (hanalysis : t.analysis = s.analysis) (hsame : t.generation = s.generation) :
    Moved s u (.completing purpose served result) choice (finishCall t u purpose served value) := by
  refine .goto hcall ?_ (.same hsame) ((started_returned ..).trans (started_completing ..).symm) rfl ?_
  · intro running hrunning
    rw [← hanalysis]
    cases purpose with
    | tool name expected => exact hrunning
    | analysis started => exact (Option.filter_eq_some_iff.mp hrunning).1
  · intro o ho
    cases ho

theorem moved_complete {purpose : Purpose} {served : Option Served}
    {result : Except ToolError CallToolResult} (h : complete cfg s u purpose served result = some s') :
    Moved s u (.completing purpose served result) choice s' := by
  unfold complete at h
  dsimp only at h
  split at h
  · cases h
    exact moved_finishCall rfl rfl rfl
  · rw [Option.ite_none_right_eq_some] at h
    obtain ⟨-, h⟩ := h
    split at h
    · next database hset =>
      cases h
      obtain ⟨served', -, hpin⟩ := Option.map_eq_some_iff.mp hset
      have hdatabase := congrArg Prod.fst hpin
      dsimp only at hdatabase
      refine moved_finishCall rfl rfl ?_
      rw [← hdatabase]
      exact generation_setDebugPin ..
    · cases h
      exact moved_finishCall rfl rfl rfl

theorem moved_next (hu : s.call u = some c) (h : next cfg s u c choice = some s') :
    Moved s u c choice s' := by
  unfold next at h
  split at h
  · exact moved_leaseForOpen h
  · cases h
    exact moved_quiet rfl rfl (.ended rfl (by simp [ends, hu])) rfl rfl rfl
  · cases h
    exact moved_acquire
  · cases h
    exact moved_openAnswered
  · exact moved_grant h
  · cases h
    exact moved_spawn
  · exact moved_closeAuthorized hu h
  · exact moved_takeHandle hu h
  · cases h
    exact moved_same rfl rfl rfl rfl rfl rfl
  · cases h
    exact moved_reapDecision hu
  · exact moved_requiredHandle h
  · cases h
    exact moved_answered
  · exact moved_clearHandle hu h
  · exact moved_complete h
  · cases h
    exact .spawned rfl rfl rfl
  · cases h

theorem turnover_next (hu : s.call u = some c) (h : next cfg s u c choice = some s') :
    Turnover s (.run u choice) s' := by
  have moved := moved_next hu h
  cases moved with
  | goto _ _ hturnover => exact hturnover
  | joined => exact .same rfl
  | leased =>
    refine .installed (by simp [installs, hu]) ?_
    simp [ends, hu, State.generation]
  | spawned => exact .same (generation_spawned ..)

theorem came_next (hu : s.call u = some c) (h : next cfg s u c choice = some s')
    (hv : s'.call v = some e) : Came s (.run u choice) s' v e := by
  have moved := moved_next hu h
  cases moved with
  | goto hcall _ _ _ hawaits hopens => exact came_goto hcall (.carried hu hawaits hopens) hv
  | joined hlease =>
    refine came_goto rfl (.joined hu rfl rfl rfl ?_) hv
    intro o ho
    obtain ⟨rfl, hbackground⟩ := opens_opening ho
    refine ⟨rfl, hbackground, ?_⟩
    rw [State.generation, hlease]
    rfl
  | leased hcall _ hgeneration =>
    refine came_goto hcall (.leased hu rfl rfl ?_) hv
    intro o ho
    obtain ⟨rfl, hbackground⟩ := opens_opening ho
    exact ⟨rfl, hbackground, hgeneration⟩
  | spawned _ hawaits hopens =>
    rcases call_goto hv with ⟨rfl, rfl⟩ | hv
    · exact .other hawaits hopens
    · exact came_spawned hv (generation_spawned ..)

theorem Call.started_of_dropped (hdetached : c.detached = false) (hsettled : c.settled = false) :
    c.started = none := by
  cases c with
  | requiredHandle purpose | calling purpose | clearHandle purpose | completing purpose =>
    cases purpose with
    | tool name expected => rfl
    | analysis started => cases hdetached
  | returned => cases hsettled
  | _ => rfl

theorem started_goto_self (hd : d.started = some started) : (t.goto u d).started u = some started := by
  have hself : (t.goto u d).call u = some d := Function.update_self ..
  rw [State.started, hself, Option.bind_some]
  exact hd

theorem started_next_self (hu : s.call u = some c) (hc : c.started = some started)
    (h : next cfg s u c choice = some s') : s'.started u = some started := by
  have moved := moved_next hu h
  cases moved with
  | goto _ _ _ hstarted => exact started_goto_self (hstarted.trans hc)
  | joined | leased => cases hc
  | spawned hstarted =>
    rw [hstarted] at hc
    cases hc

theorem started_step (hs : Sound s) (h : step cfg s a = some s') {id : CallId}
    (hid : s.started id = some started) : s'.started id = some started := by
  obtain ⟨c, hc, hstarted⟩ := Option.bind_eq_some_iff.mp hid
  by_cases hactor : id = a.actor s
  · cases a with
    | start request => exact absurd hactor (Nat.ne_of_lt (hs.lt id c hc))
    | run u choice =>
      obtain rfl : id = u := hactor
      simp only [step, hc, Option.bind_some] at h
      exact started_next_self hc hstarted h
    | drop u =>
      obtain rfl : id = u := hactor
      simp only [step, hc] at h
      split_ifs at h with hkept
      rw [Bool.or_eq_true, not_or, Bool.not_eq_true, Bool.not_eq_true] at hkept
      rw [Call.started_of_dropped hkept.1 hkept.2] at hstarted
      cases hstarted
  · rw [State.started, (follows_step hs h).others id hactor (hs.lt id c hc)]
    exact hid

inductive Runs (s : State) (a : Action) (s' : State) (id : CallId) (owner : TaskOwner) : Prop
  | old (h : s.analysis = some (id, owner))
  | created {creator : CallId} {full : Bool} (ha : a = .run creator (.registryFull full))
    (h : s'.started id = some s.generation)

theorem runs_spawned {owner owner' : TaskOwner} {full full' : Bool} {id : CallId} (hlt : u < s.nextCall)
    (h : ((spawnAnalyzeFuncsTask s owner full).1.goto u d).analysis = some (id, owner')) :
    Runs s (.run u (.registryFull full')) ((spawnAnalyzeFuncsTask s owner full).1.goto u d) id owner' := by
  rcases spawnAnalyzeFuncsTask_cases s owner full with heq | heq
  · rw [heq] at h
    exact .old h
  · rw [heq] at h ⊢
    cases h
    refine .created rfl ?_
    have hother : (Function.update (s.addCall (.requiredHandle (.analysis s.generation))).call u (some d))
        s.nextCall = some (.requiredHandle (.analysis s.generation)) := by
      rw [Function.update_of_ne (Nat.ne_of_gt hlt)]
      exact Function.update_self ..
    exact (congrArg (Option.bind · Call.started) hother).trans rfl

theorem runs_next {id : CallId} {owner : TaskOwner} (hlt : u < s.nextCall) (hu : s.call u = some c)
    (h : next cfg s u c choice = some s') (hruns : s'.analysis = some (id, owner)) :
    Runs s (.run u choice) s' id owner := by
  have moved := moved_next hu h
  cases moved with
  | goto _ hanalysis => exact .old (hanalysis _ hruns)
  | joined => exact .old hruns
  | leased _ hanalysis => exact .old (hanalysis ▸ hruns)
  | spawned => exact runs_spawned hlt hruns

theorem generation_dropCall : (dropCall s u).generation = s.generation := by
  simp only [dropCall]
  split_ifs <;> rfl

theorem call_dropCall (h : (dropCall s u).call v = some d) : s.call v = some d := by
  have hcall : (dropCall s u).call = Function.update s.call u none := by
    simp only [dropCall]
    split_ifs <;> rfl
  rw [hcall] at h
  by_cases heq : v = u
  · subst heq
    rw [Function.update_self] at h
    cases h
  · rwa [Function.update_of_ne heq] at h

theorem analysis_dropCall : (dropCall s u).analysis = s.analysis := by
  simp only [dropCall]
  split_ifs <;> rfl

theorem turnover_step (h : step cfg s a = some s') : Turnover s a s' := by
  cases a with
  | start request =>
    cases h
    exact .same rfl
  | run u choice =>
    obtain ⟨c, hu, h⟩ := Option.bind_eq_some_iff.mp h
    exact turnover_next hu h
  | drop u =>
    simp only [step] at h
    split at h
    · split_ifs at h
      cases h
      exact .same generation_dropCall
    · cases h

theorem came_step (h : step cfg s a = some s') (hv : s'.call v = some d) : Came s a s' v d := by
  cases a with
  | start request =>
    cases h
    rcases call_goto (t := s) (u := s.nextCall) hv with ⟨-, rfl⟩ | hv
    · cases request with
      | closeIdb sessionId token force =>
        simp only [Request.position]
        split_ifs <;> exact .other rfl rfl
      | _ => exact .other rfl rfl
    · exact .old hv
  | run u choice =>
    obtain ⟨c, hu, h⟩ := Option.bind_eq_some_iff.mp h
    exact came_next hu h hv
  | drop u =>
    simp only [step] at h
    split at h
    · split_ifs at h
      cases h
      exact .old (call_dropCall hv)
    · cases h

theorem runs_step {id : CallId} {owner : TaskOwner} (hs : Sound s) (h : step cfg s a = some s')
    (hruns : s'.analysis = some (id, owner)) : Runs s a s' id owner := by
  cases a with
  | start request =>
    cases h
    exact .old hruns
  | run u choice =>
    obtain ⟨c, hu, h⟩ := Option.bind_eq_some_iff.mp h
    exact runs_next (hs.lt u c hu) hu h hruns
  | drop u =>
    simp only [step] at h
    split at h
    · split_ifs at h
      cases h
      exact .old (analysis_dropCall ▸ hruns)
    · cases h

/-- What the guard keeps: an analysis that waits for its dispatch is of the installed generation, and so is
an open that is to start one, which finds no other. -/
structure Current (s : State) : Prop where
  awaits : ∀ u c started, s.call u = some c → c.awaits = some started →
    s.generation = none ∨ started = s.generation
  opens : ∀ u c o, s.call u = some c → c.opens = some o → s.generation = some o.2
  visible : ∀ u c o id, s.call u = some c → c.opens = some o → s.visible o.1 = some id →
    s.started id = some (some o.2)

theorem current_initial (sharedHttp : Bool) : Current (initial sharedHttp) where
  awaits := by intro u c started h; cases h
  opens := by intro u c o h; cases h
  visible := by intro u c o id h; cases h

theorem State.visible_eq_some {id : CallId} :
    s.visible client = some id ↔ client.owner ≠ .runtime ∧ s.analysis = some (id, client.owner) := by
  unfold State.visible
  split
  · next running existing hrunning =>
    rw [Option.ite_none_right_eq_some, hrunning, Option.some.injEq, Option.some.injEq, Prod.mk.injEq]
    tauto
  · next hnone => simp [hnone]

theorem awaits_eq_true (hs : Sound s) (hu : s.call u = some c) (hc : c.awaits = some started) :
    s.awaits = true := by
  refine List.any_eq_true.mpr ⟨u, List.mem_range.mpr (hs.lt u c hu), ?_⟩
  rw [hu, Option.any_some, hc]
  rfl

theorem opens_eq_true {o : Client × ℕ} (hs : Sound s) (hu : s.call u = some c) (hc : c.opens = some o) :
    s.opens = true := by
  refine List.any_eq_true.mpr ⟨u, List.mem_range.mpr (hs.lt u c hu), ?_⟩
  rw [hu, Option.any_some, hc]
  rfl

theorem guarded_iff : Guarded s a ↔ (installs s a = true → s.awaits = false) ∧
    (ends s a = true → s.opens = false) ∧ overlaps s a = false := by
  simp only [Guarded, guarded, Bool.and_eq_true, Bool.not_eq_true', Bool.and_eq_false_imp, and_assoc]

theorem Current.awaits_step (hc : Current s) (hs : Sound s) (hok : Guarded s a)
    (h : step cfg s a = some s') (hu : s'.call u = some c) (hawaits : c.awaits = some started) :
    s'.generation = none ∨ started = s'.generation := by
  obtain ⟨hinstalls, -, -⟩ := guarded_iff.mp hok
  have came := came_step h hu
  cases came with
  | old hold =>
    cases turnover_step h with
    | same hsame =>
      rw [hsame]
      exact hc.awaits u c started hold hawaits
    | ended hnone => exact .inl hnone
    | installed hinstalled =>
      have hwaits := awaits_eq_true hs hold hawaits
      rw [hinstalls hinstalled] at hwaits
      cases hwaits
  | other hnone | carried _ hnone | joined _ _ hnone | leased _ _ hnone =>
    rw [hnone] at hawaits
    cases hawaits
  | created hcreated _ hsame =>
    rw [hsame]
    exact .inr (hcreated started hawaits)

theorem Current.generation_step {o : Client × ℕ} (hc : Current s) (hs : Sound s) (hok : Guarded s a)
    (h : step cfg s a = some s') (hu : s.call u = some c) (hopens : c.opens = some o) :
    s'.generation = some o.2 := by
  obtain ⟨-, hends, -⟩ := guarded_iff.mp hok
  have hgeneration := hc.opens u c o hu hopens
  have hheld : ends s a ≠ true := by
    intro hended
    have hopened := opens_eq_true hs hu hopens
    rw [hends hended] at hopened
    cases hopened
  cases turnover_step h with
  | same hsame => rw [hsame, hgeneration]
  | ended _ hended => exact absurd hended hheld
  | installed _ hreplaced =>
    refine absurd (hreplaced ?_) hheld
    rw [hgeneration]
    rfl

theorem Current.opens_step {o : Client × ℕ} (hc : Current s) (hs : Sound s) (hok : Guarded s a)
    (h : step cfg s a = some s') (hu : s'.call u = some c) (hopens : c.opens = some o) :
    s'.generation = some o.2 := by
  have came := came_step h hu
  cases came with
  | old hold => exact hc.generation_step hs hok h hold hopens
  | other _ hnone | created _ hnone =>
    rw [hnone] at hopens
    cases hopens
  | carried hold _ hbefore => exact hc.generation_step hs hok h hold (hbefore o hopens)
  | joined _ _ _ hsame hjoined =>
    obtain ⟨-, -, hgeneration⟩ := hjoined o hopens
    rw [hsame, hgeneration]
  | leased _ _ _ hleased => exact (hleased o hopens).2.2

theorem Current.kept_step {o : Client × ℕ} {id : CallId} (hc : Current s) (hs : Sound s)
    (h : step cfg s a = some s') (hu : s.call u = some c) (hopens : c.opens = some o)
    (hvisible : s'.visible o.1 = some id) : s'.started id = some (some o.2) := by
  obtain ⟨howner, hruns⟩ := State.visible_eq_some.mp hvisible
  have runs := runs_step hs h hruns
  cases runs with
  | old hold =>
    exact started_step hs h (hc.visible u c o id hu hopens (State.visible_eq_some.mpr ⟨howner, hold⟩))
  | created _ hcreated =>
    rw [hcreated, hc.opens u c o hu hopens]

theorem Current.visible_step {o : Client × ℕ} {id : CallId} (hc : Current s) (hs : Sound s)
    (hok : Guarded s a) (h : step cfg s a = some s') (hu : s'.call u = some c) (hopens : c.opens = some o)
    (hvisible : s'.visible o.1 = some id) : s'.started id = some (some o.2) := by
  obtain ⟨-, -, hoverlaps⟩ := guarded_iff.mp hok
  have came := came_step h hu
  cases came with
  | old hold => exact hc.kept_step hs h hold hopens hvisible
  | other _ hnone | created _ hnone =>
    rw [hnone] at hopens
    cases hopens
  | carried hold _ hbefore => exact hc.kept_step hs h hold (hbefore o hopens) hvisible
  | joined hopener ha _ _ hjoined =>
    obtain ⟨rfl, hbackground, hgeneration⟩ := hjoined o hopens
    subst ha
    obtain ⟨howner, hruns⟩ := State.visible_eq_some.mp hvisible
    have runs := runs_step hs h hruns
    cases runs with
    | old hold =>
      have hseen := State.visible_eq_some.mpr ⟨howner, hold⟩
      simp only [overlaps, hopener, hbackground, hgeneration, hseen, Option.any_some, Bool.true_and,
        bne_eq_false_iff_eq] at hoverlaps
      exact started_step hs h hoverlaps
    | created ha => cases ha
  | leased hopener ha _ hleased =>
    obtain ⟨rfl, hbackground, -⟩ := hleased o hopens
    subst ha
    obtain ⟨howner, hruns⟩ := State.visible_eq_some.mp hvisible
    have runs := runs_step hs h hruns
    cases runs with
    | old hold =>
      have hseen := State.visible_eq_some.mpr ⟨howner, hold⟩
      simp [overlaps, hopener, hbackground, hseen] at hoverlaps
    | created ha => cases ha

theorem Current.step (hc : Current s) (hs : Sound s) (hok : Guarded s a)
    (h : step cfg s a = some s') : Current s' where
  awaits := fun _ _ _ hu hawaits => hc.awaits_step hs hok h hu hawaits
  opens := fun _ _ _ hu hopens => hc.opens_step hs hok h hu hopens
  visible := fun _ _ _ _ hu hopens hvisible => hc.visible_step hs hok h hu hopens hvisible

end IdaMcp.Handle
