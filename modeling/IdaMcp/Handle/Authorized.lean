import IdaMcp.Handle.Sound

namespace IdaMcp.Handle

open Foundation Pool Remote Tasks

variable {cfg : Config} {s s' : State} {u : CallId} {sessionId : String} {token : Option String}
  {force : Bool}

theorem closeAuthorized_denied (h : closeAuthorized s u sessionId token false = some s')
    {lease : PooledDatabaseLease} {owner : CloseTokenLease} (hlease : s.database.handle = some lease)
    (howner : lease.closeToken = some owner) (htoken : token ≠ some owner.token)
    (hsession : owner.ownerSessionId ≠ sessionId) :
    s' = s.goto u (.closed (.ok (.authorized (.denied owner.ownerSessionId)))) := by
  have hdenied := CloseTokenState.authorizeClose_denied _ sessionId token howner htoken hsession
  have hclosed : s.database.closeAuthorized sessionId token false =
      (s.database, .ok (.denied owner.ownerSessionId, none)) := by
    unfold WorkspaceDatabase.closeAuthorized
    rw [hlease]
    dsimp only
    rw [hdenied]
  unfold closeAuthorized at h
  rw [Option.ite_none_right_eq_some] at h
  obtain ⟨-, h⟩ := h
  rw [hclosed] at h
  cases h
  rfl

theorem closeAuthorized_cases (h : closeAuthorized s u sessionId token force = some s') :
    s'.database = s.database ∨ ∃ lease authorization, s.database.handle = some lease ∧
      lease.closeToken.authorizeClose sessionId token force = authorization ∧
      (∀ owner, authorization ≠ .denied owner) ∧ s'.database = { s.database with handle := none } ∧
      s'.call u = some (.releasing lease (.ok (.authorized authorization))) := by
  unfold closeAuthorized at h
  rw [Option.ite_none_right_eq_some] at h
  obtain ⟨-, h⟩ := h
  dsimp only at h
  split at h
  · cases h
    exact .inl rfl
  · cases h
    exact .inl rfl
  · next authorization lease hclosed =>
    cases h
    obtain ⟨hlease, hauthorized, hgranted, hdb⟩ := WorkspaceDatabase.closeAuthorized_some hclosed
    exact .inr ⟨lease, authorization, hlease, hauthorized, hgranted, hdb, Function.update_self ..⟩

theorem step_closeAuthorized {choice : Choice}
    (hu : s.call u = some (.closeAuthorized sessionId token force))
    (h : step cfg s (.run u choice) = some s') : closeAuthorized s u sessionId token force = some s' := by
  simp only [step, hu, Option.bind_some] at h
  unfold next at h
  split at h
  all_goals first | contradiction | skip
  next hcall =>
    cases hcall
    exact h

theorem step_releasing {choice : Choice} {lease : PooledDatabaseLease} {result : Except ToolError Closed}
    (hu : s.call u = some (.releasing lease result)) (h : step cfg s (.run u choice) = some s') :
    s'.database = s.database := by
  simp only [step, hu, Option.bind_some] at h
  unfold next at h
  split at h
  all_goals first | contradiction | skip
  cases h
  rfl

theorem token_ne (hs : Sound s) {c : Call} {issued : String} {generation : ℕ} (hu : s.call u = some c)
    (hgrant : c.grant = some (issued, generation)) {lease : PooledDatabaseLease}
    (hlease : s.database.handle = some lease) (hne : lease.generation ≠ generation) :
    ∀ owner, lease.closeToken = some owner → some issued ≠ some owner.token := by
  intro owner howner heq
  rw [Option.some.injEq] at heq
  apply hne
  apply hs.issued owner.token
  · exact hs.token lease owner hlease howner
  · rw [← heq]
    exact hs.grant u c issued generation hu hgrant

/-- A close by neither the owner nor the holder of its token leaves the database as it is; a close
detaches the lease that has authorized it, and nothing that is installed later; and a token is worth
nothing against another generation. -/
theorem close_authorization (cfg : Config) (sharedHttp : Bool) (s : State)
    (h : Reachable (step cfg) (initial sharedHttp) s) :
    (∀ u sessionId token choice s', s.call u = some (.closeAuthorized sessionId token false) →
      step cfg s (.run u choice) = some s' → ∀ lease owner, s.database.handle = some lease →
      lease.closeToken = some owner → token ≠ some owner.token → owner.ownerSessionId ≠ sessionId →
      s'.database = s.database ∧
        s'.call u = some (.closed (.ok (.authorized (.denied owner.ownerSessionId))))) ∧
    (∀ u sessionId token force choice s', s.call u = some (.closeAuthorized sessionId token force) →
      step cfg s (.run u choice) = some s' → s'.database = s.database ∨
        ∃ lease authorization, s.database.handle = some lease ∧
          lease.closeToken.authorizeClose sessionId token force = authorization ∧
          (∀ owner, authorization ≠ .denied owner) ∧ s'.database = { s.database with handle := none } ∧
          s'.call u = some (.releasing lease (.ok (.authorized authorization)))) ∧
    (∀ u lease result, s.call u = some (.releasing lease result) →
      (∀ current, s.database.handle = some current → lease.generation < current.generation) ∧
      ∀ choice s', step cfg s (.run u choice) = some s' → s'.database = s.database) ∧
    (∀ u c issued generation, s.call u = some c → c.grant = some (issued, generation) →
      ∀ lease, s.database.handle = some lease → lease.generation ≠ generation →
      ∀ sessionId force, lease.closeToken.authorizeClose sessionId (some issued) force =
        lease.closeToken.authorizeClose sessionId none force) := by
  have hs := sound_of_reachable h
  refine ⟨?_, ?_, ?_, ?_⟩
  · intro u sessionId token choice s' hu hstep lease owner hlease howner htoken hsession
    have hs' := closeAuthorized_denied (step_closeAuthorized hu hstep) hlease howner htoken hsession
    subst hs'
    exact ⟨rfl, Function.update_self ..⟩
  · intro u sessionId token force choice s' hu hstep
    exact closeAuthorized_cases (step_closeAuthorized hu hstep)
  · intro u lease result hu
    constructor
    · intro current hcurrent
      exact hs.released u lease result current hu hcurrent
    · intro choice s' hstep
      exact step_releasing hu hstep
  · intro u c issued generation hu hgrant lease hlease hne sessionId force
    apply CloseTokenState.authorizeClose_foreign
    exact token_ne hs hu hgrant hlease hne

def owner : Client := ⟨"owner-a", .runtime, false⟩

def worker : PooledWorkerHandle := ⟨1, 0, 1, false⟩

def analysed : Config where
  dbInfo := fun _ => .ok ⟨true⟩
  value := fun _ => .ok .null

def openReply : CallToolResult :=
  { content := [.text "\x7b\"analysis_status\":\x7b\"auto_is_ok\":true\x7d\x7d"], isError := none, metadata := none }

def openingRun : List Action :=
  [.start (.openIdb owner), .run 0 (.healthy true), .run 0 (.leased (.ok worker))]

def ownedRun : List Action :=
  openingRun ++ [.run 0 (.answered (.ok openReply)), .run 0 (.token "first"), .run 0 (.registryFull false),
    .start (.closeIdb "other" none false)]

def Call.isClose (sessionId : String) : Option Call → Bool
  | some (.closeAuthorized session none false) => session == sessionId
  | _ => false

theorem Call.isClose_eq_true {c : Option Call} (h : Call.isClose sessionId c = true) :
    c = some (.closeAuthorized sessionId none false) := by
  unfold Call.isClose at h
  split at h
  · rw [beq_iff_eq] at h
    rw [h]
  · cases h

theorem close_authorization_denied : ∃ s s' : State, step analysed s (.run 1 .proceed) = some s' ∧
    s.database.handle = some ⟨{ worker with preserveOnCancel := true }, 1, some ⟨"first", "owner-a"⟩, false⟩ ∧
    s'.database = s.database := by
  have hrun : (run (step analysed) (initial true) ownedRun).any (fun s =>
      Call.isClose "other" (s.call 1) && (step analysed s (.run 1 .proceed)).isSome && s.database.handle ==
        some ⟨{ worker with preserveOnCancel := true }, 1, some ⟨"first", "owner-a"⟩, false⟩) = true := by
    decide +kernel
  obtain ⟨s, hs, hend⟩ := (Option.any_eq_true ..).mp hrun
  obtain ⟨hend, hlease⟩ := (Bool.and_eq_true_iff ..).mp hend
  obtain ⟨hclose, hstep⟩ := (Bool.and_eq_true_iff ..).mp hend
  obtain ⟨s', hs'⟩ := Option.isSome_iff_exists.mp hstep
  rw [beq_iff_eq] at hlease
  refine ⟨s, s', hs', hlease, ?_⟩
  exact ((close_authorization analysed true s ⟨ownedRun, hs⟩).1 1 "other" none .proceed s'
    (Call.isClose_eq_true hclose) hs' _ _ hlease rfl (by decide) (by decide)).1

/-- Before the open has answered there is no owner yet, and any client closes the database. -/
theorem closed_before_owned : ∃ s s' : State, Reachable (step analysed) (initial true) s ∧
    s.call 1 = some (.closeAuthorized "other" none false) ∧ step analysed s (.run 1 .proceed) = some s' ∧
    s.database.handle.isSome = true ∧ s'.database.handle = none := by
  have hrun : (run (step analysed) (initial true) (openingRun ++ [.start (.closeIdb "other" none false)])).any
      (fun s => Call.isClose "other" (s.call 1) && s.database.handle.isSome &&
        (step analysed s (.run 1 .proceed)).any fun s' => s'.database.handle == none) = true := by
    decide +kernel
  obtain ⟨s, hs, hend⟩ := (Option.any_eq_true ..).mp hrun
  obtain ⟨hend, hstep⟩ := (Bool.and_eq_true_iff ..).mp hend
  obtain ⟨hclose, hlease⟩ := (Bool.and_eq_true_iff ..).mp hend
  obtain ⟨s', hs', hnone⟩ := (Option.any_eq_true ..).mp hstep
  rw [beq_iff_eq] at hnone
  exact ⟨s, s', ⟨_, hs⟩, Call.isClose_eq_true hclose, hs', hlease, hnone⟩

end IdaMcp.Handle
