import IdaMcp.Handle.Sound

namespace IdaMcp.Handle

open Foundation Pool Remote Tasks

variable {cfg : Config} {s s' : State} {u : CallId} {tool : String} {purpose : Purpose}
  {served : Option Served} {result : Except ToolError CallToolResult} {lease lease' : PooledDatabaseLease}

def parsedReply (cfg : Config) (tool : String) (result : Except ToolError CallToolResult) :
    Except ToolError Value :=
  result.bind fun result => cfg.parseValue result tool

theorem pinDecision_retained {value : Except ToolError Value} (htool : tool ∈ debugStartTools)
    (hretained : debugStartRetainsSession value = true) : pinDecision tool value = some true := by
  unfold pinDecision
  rw [if_pos htool, if_pos hretained]

theorem step_completing {choice : Choice} (hu : s.call u = some (.completing purpose served result))
    (h : step cfg s (.run u choice) = some s') : complete cfg s u purpose served result = some s' := by
  simp only [step, hu, Option.bind_some] at h
  unfold next at h
  split at h
  all_goals first | contradiction | skip
  next hcall =>
    cases hcall
    exact h

theorem served_eq (hs : Sound s) {dispatched : Served}
    (hu : s.call u = some (.completing purpose (some dispatched) result))
    (hlease : s.database.handle = some lease) (hgeneration : lease.generation = dispatched.generation) :
    lease.served = dispatched := by
  apply hs.one
  · left
    rw [hlease, Option.map_some]
  · exact .inr ⟨u, _, hu, rfl⟩
  · exact hgeneration

theorem complete_debugStart (hs : Sound s) (hu : s.call u = some (.completing purpose served result))
    (htool : purpose.name ∈ debugStartTools)
    (hretained : debugStartRetainsSession (parsedReply cfg purpose.name result) = true)
    (h : complete cfg s u purpose served result = some s') :
    (∃ lease, s.database.handle = some lease ∧ served = some lease.served ∧
      s'.database.handle = some { lease with debugPinned := true } ∧
      s'.call u = some (.returned purpose served (parsedReply cfg purpose.name result))) ∨
    ((∀ lease, s.database.handle = some lease → served ≠ some lease.served) ∧
      s'.database.handle = s.database.handle ∧
      s'.call u = some (.returned purpose served (.error (sessionLostBeforePinning purpose.name)))) := by
  have hdecision : pinDecision purpose.name (result.bind fun result => cfg.parseValue result purpose.name) =
      some true := pinDecision_retained htool hretained
  unfold complete at h
  dsimp only at h
  rw [hdecision] at h
  dsimp only at h
  rw [Option.ite_none_right_eq_some] at h
  obtain ⟨-, h⟩ := h
  split at h
  · next database hset =>
    cases h
    left
    obtain ⟨dispatched, rfl, hpin⟩ := Option.map_eq_some_iff.mp hset
    obtain ⟨lease, hlease, -, hgeneration, hlease'⟩ :=
      WorkspaceDatabase.setDebugPinForLease_true (congrArg Prod.snd hpin)
    rw [congrArg Prod.fst hpin] at hlease'
    have hserved := served_eq hs hu hlease hgeneration
    exact ⟨lease, hlease, congrArg some hserved.symm, hlease', Function.update_self ..⟩
  · next hnot =>
    cases h
    right
    refine ⟨?_, rfl, Function.update_self ..⟩
    rintro lease hlease rfl
    have hserved : s.database.isServed lease.served = true :=
      s.database.isServed_iff.mpr ⟨lease, hlease, rfl, rfl⟩
    apply hnot (s.database.setDebugPinForLease lease.served true).1
    rw [Option.map_some]
    unfold WorkspaceDatabase.setDebugPinForLease
    rw [if_pos hserved]

theorem pin_of_step (hs : Sound s) {a : Action} (h : step cfg s a = some s')
    (hlease : s.database.handle = some lease) (hlease' : s'.database.handle = some lease')
    (hserved : lease'.served = lease.served) (hpin : lease'.debugPinned ≠ lease.debugPinned) :
    ∃ choice purpose result, a = .run (a.actor s) choice ∧
      s.call (a.actor s) = some (.completing purpose (some lease.served) result) := by
  have hgeneration : lease'.generation = lease.generation := congrArg Served.generation hserved
  cases (follows_step hs h).change with
  | same heq _ =>
    rw [hlease, hlease'] at heq
    cases heq
    exact absurd rfl hpin
  | pinned current b purpose dispatched result hcurrent hu hdispatched hcurrent' _ =>
    rw [hlease] at hcurrent
    cases hcurrent
    have heq := served_eq hs hu hlease hdispatched
    subst heq
    cases a with
    | start request => exact absurd (hs.lt _ _ hu) (Nat.lt_irrefl _)
    | run u choice => exact ⟨choice, purpose, result, rfl, hu⟩
    | drop u =>
      simp only [step] at h
      change s.call u = _ at hu
      rw [hu] at h
      dsimp only at h
      split_ifs at h
      cases h
      have hhandle : (dropCall s u).database.handle = s.database.handle := by
        simp only [dropCall]
        split_ifs <;> rfl
      rw [hhandle, hlease] at hlease'
      cases hlease'
      exact absurd rfl hpin
  | granted current token hcurrent _ hcurrent' _ =>
    rw [hlease] at hcurrent
    cases hcurrent
    rw [hlease'] at hcurrent'
    cases hcurrent'
    exact absurd rfl hpin
  | taken _ _ hnone _ =>
    rw [hlease'] at hnone
    cases hnone
  | installed handle hnew _ =>
    rw [hlease'] at hnew
    cases hnew
    have hle := hs.bounded lease.served (.inl (by rw [hlease, Option.map_some]))
    change lease.generation ≤ _ at hle
    change s.database.nextDatabaseGeneration + 1 = lease.generation at hgeneration
    omega

theorem pin_of_installed (hs : Sound s) {a : Action} (h : step cfg s a = some s')
    (hlease' : s'.database.handle = some lease')
    (hnew : ∀ lease, s.database.handle = some lease → lease.served ≠ lease'.served) :
    lease'.debugPinned = false := by
  cases (follows_step hs h).change with
  | same heq _ =>
    rw [hlease'] at heq
    exact absurd rfl (hnew lease' heq.symm)
  | pinned lease b _ _ _ hlease _ _ heq _ =>
    rw [hlease'] at heq
    cases heq
    exact absurd rfl (hnew lease hlease)
  | granted lease token hlease _ heq _ =>
    rw [hlease'] at heq
    cases heq
    exact absurd rfl (hnew lease hlease)
  | taken _ _ hnone _ =>
    rw [hlease'] at hnone
    cases hnone
  | installed handle heq _ =>
    rw [hlease'] at heq
    cases heq
    rfl

/-- A debugger start whose session the child retains returns with its lease pinned, if that is still
installed, and with the loss of the session otherwise; only a call that has run on a lease sets or clears
its pin. -/
theorem debug_pin_of_lease (cfg : Config) (sharedHttp : Bool) (s : State)
    (h : Reachable (step cfg) (initial sharedHttp) s) :
    (∀ u tool expected served result choice s',
      s.call u = some (.completing (.tool tool expected) served result) →
      step cfg s (.run u choice) = some s' → tool ∈ debugStartTools →
      debugStartRetainsSession (parsedReply cfg tool result) = true →
      (∃ lease, s.database.handle = some lease ∧ served = some lease.served ∧
        s'.database.handle = some { lease with debugPinned := true } ∧
        s'.call u = some (.returned (.tool tool expected) served (parsedReply cfg tool result))) ∨
      ((∀ lease, s.database.handle = some lease → served ≠ some lease.served) ∧
        s'.database.handle = s.database.handle ∧
        s'.call u = some (.returned (.tool tool expected) served (.error (sessionLostBeforePinning tool))))) ∧
    (∀ a s' lease lease', step cfg s a = some s' → s.database.handle = some lease →
      s'.database.handle = some lease' → lease'.served = lease.served →
      lease'.debugPinned ≠ lease.debugPinned → ∃ u choice purpose result, a = .run u choice ∧
        s.call u = some (.completing purpose (some lease.served) result)) ∧
    (∀ a s' lease', step cfg s a = some s' → s'.database.handle = some lease' →
      (∀ lease, s.database.handle = some lease → lease.served ≠ lease'.served) →
      lease'.debugPinned = false) := by
  have hs := sound_of_reachable h
  refine ⟨?_, ?_, ?_⟩
  · intro u tool expected served result choice s' hu hstep htool hretained
    exact complete_debugStart hs hu htool hretained (step_completing hu hstep)
  · intro a s' lease lease' hstep hlease hlease' hserved hpin
    obtain ⟨choice, purpose, result, ha, hu⟩ := pin_of_step hs hstep hlease hlease' hserved hpin
    exact ⟨_, choice, purpose, result, ha, hu⟩
  · intro a s' lease' hstep hlease' hnew
    exact pin_of_installed hs hstep hlease' hnew

def launching : Config where
  dbInfo := fun _ => .ok ⟨true⟩
  value := fun _ => .ok (.object [("session_retained", .bool true)])

def launchReply : CallToolResult :=
  { content := [.text "\x7b\"session_retained\":true\x7d"], isError := none, metadata := none }

def launchRun : List Action :=
  [.start (.openIdb ⟨"session", .session "session", false⟩), .run 0 (.healthy true),
    .run 0 (.leased (.ok ⟨1, 0, 1, false⟩)), .start (.call "debug_launch" none), .run 1 .proceed,
    .run 1 (.answered (.ok launchReply))]

def Call.isLaunched (served : Served) : Option Call → Bool
  | some (.completing purpose (some dispatched) (.ok reply)) =>
    purpose == .tool "debug_launch" none && dispatched == served && reply.isError.isNone
  | _ => false

theorem Call.isLaunched_eq_true {c : Option Call} {dispatched : Served}
    (h : Call.isLaunched dispatched c = true) :
    ∃ reply, c = some (.completing (.tool "debug_launch" none) (some dispatched) (.ok reply)) ∧
      reply.isError = none := by
  unfold Call.isLaunched at h
  split at h
  · next purpose served reply =>
    obtain ⟨h, hreply⟩ := (Bool.and_eq_true_iff ..).mp h
    obtain ⟨hpurpose, hserved⟩ := (Bool.and_eq_true_iff ..).mp h
    rw [beq_iff_eq] at hpurpose hserved
    subst hpurpose hserved
    exact ⟨reply, rfl, Option.isNone_iff_eq_none.mp hreply⟩
  · cases h

theorem launched_retained {reply : CallToolResult} (h : reply.isError = none) :
    debugStartRetainsSession (parsedReply launching "debug_launch" (.ok reply)) = true := by
  have hresult : resultError reply "debug_launch" = none := by
    rw [resultError, h]
    rfl
  rw [parsedReply, Except.bind, Config.parseValue, hresult]
  rfl

theorem debug_pin_of_lease_launched : ∃ s s' : State, step launching s (.run 1 .proceed) = some s' ∧
    s.database.handle = some ⟨⟨1, 0, 1, false⟩, 1, none, false⟩ ∧
    ∃ lease, s'.database.handle = some lease ∧ lease.generation = 1 ∧ lease.debugPinned = true := by
  have hrun : (run (step launching) (initial false) launchRun).any (fun s =>
      Call.isLaunched ⟨⟨1, 0, 1, false⟩, 1⟩ (s.call 1) && (step launching s (.run 1 .proceed)).isSome &&
        s.database.handle == some ⟨⟨1, 0, 1, false⟩, 1, none, false⟩) = true := by
    decide +kernel
  obtain ⟨s, hs, hend⟩ := (Option.any_eq_true ..).mp hrun
  obtain ⟨hend, hlease⟩ := (Bool.and_eq_true_iff ..).mp hend
  obtain ⟨hlaunched, hstep⟩ := (Bool.and_eq_true_iff ..).mp hend
  obtain ⟨s', hs'⟩ := Option.isSome_iff_exists.mp hstep
  obtain ⟨reply, hu, hreply⟩ := Call.isLaunched_eq_true hlaunched
  rw [beq_iff_eq] at hlease
  refine ⟨s, s', hs', hlease, ?_⟩
  rcases (debug_pin_of_lease launching false s ⟨launchRun, hs⟩).1 1 "debug_launch" none _ (.ok reply) .proceed
    s' hu hs' (by decide) (launched_retained hreply) with ⟨lease, hinstalled, -, hpinned, -⟩ | ⟨hnot, -⟩
  · rw [hlease] at hinstalled
    cases hinstalled
    exact ⟨_, hpinned, rfl, rfl⟩
  · exact absurd rfl (hnot _ hlease)

end IdaMcp.Handle
