import IdaMcp.Handle.Sound

namespace IdaMcp.Handle

open Foundation Pool Remote Tasks

def Call.purpose : Call → Option Purpose
  | requiredHandle purpose | calling purpose _ | clearHandle purpose _ _ | completing purpose _ _
  | returned purpose _ _ => some purpose
  | _ => none

def State.Gone (s : State) (generation : ℕ) : Prop :=
  generation ≤ s.database.nextDatabaseGeneration ∧
    ∀ lease, s.database.handle = some lease → lease.generation ≠ generation

variable {cfg : Config} {s s' t : State} {u v : CallId} {c d : Call} {purpose : Purpose} {generation : ℕ}

theorem State.Gone.follows (hgone : s.Gone generation) (h : Follows s s' u) : s'.Gone generation := by
  obtain ⟨hle, hgone⟩ := hgone
  refine ⟨le_trans hle h.next_le, ?_⟩
  intro lease hlease heq
  have hserved : s'.database.handle.map PooledDatabaseLease.served = some lease.served := by
    rw [hlease, Option.map_some]
  rcases h.handle hserved with hold | ⟨hnew, -⟩
  · obtain ⟨lease', hlease', hsame⟩ := Option.map_eq_some_iff.mp hold
    apply hgone lease' hlease'
    exact (congrArg Served.generation hsame).trans heq
  · change lease.generation = _ at hnew
    omega

theorem gone_takeHandle {g : ℕ} {h h' : State} {absent taken : Except ToolError Closed}
    (hle : g ≤ h.database.nextDatabaseGeneration)
    (hstep : takeHandle h u (some g) absent taken = some h') :
    h'.Gone g ∧ h'.database.nextDatabaseGeneration = h.database.nextDatabaseGeneration ∧
      ∃ c, h'.call u = some c ∧ ((∃ lease, c = .releasing lease taken) ∨ c = .closed absent) := by
  unfold takeHandle at hstep
  rw [Option.ite_none_right_eq_some] at hstep
  obtain ⟨-, hstep⟩ := hstep
  dsimp only at hstep
  split at hstep
  · next lease htaken =>
    cases hstep
    obtain ⟨-, -, hdatabase⟩ := WorkspaceDatabase.takeHandle_some htaken
    refine ⟨?_, ?_, _, Function.update_self .., .inl ⟨lease, rfl⟩⟩
    · rw [hdatabase]
      refine ⟨hle, ?_⟩
      intro lease' hlease'
      cases hlease'
    · rw [hdatabase]
      rfl
  · next hnone =>
    cases hstep
    refine ⟨⟨hle, ?_⟩, rfl, _, Function.update_self .., .inr rfl⟩
    intro lease hlease heq
    change h.database.handle = some lease at hlease
    unfold WorkspaceDatabase.takeHandle at hnone
    rw [hlease] at hnone
    dsimp only at hnone
    rw [if_pos (by simp [heq])] at hnone
    cases hnone

/-- What a dispatched call knows: its lease is the one that it expects, and a fatal error means that
the lease is gone. -/
structure Call.Honest (s : State) (c : Call) : Prop where
  bound : ∀ purpose served generation, c.purpose = some purpose → c.served = some served →
    purpose.expected = some generation → served.generation = generation
  lost : ∀ purpose served error, (c = .completing purpose served (.error error) ∨
    c = .returned purpose served (.error error)) → error.isFatal = true →
    purpose.name ∉ debugStartTools → ∃ lease, served = some lease ∧ s.Gone lease.generation

def Honest (s : State) : Prop := ∀ u c, s.call u = some c → c.Honest s

theorem honest_initial (sharedHttp : Bool) : Honest (initial sharedHttp) := by
  intro u c h
  cases h

theorem Call.Honest.follows (hc : c.Honest s) (h : Follows s s' u) : c.Honest s' where
  bound := hc.bound
  lost := by
    intro purpose served error heq hfatal hname
    obtain ⟨lease, hlease, hgone⟩ := hc.lost purpose served error heq hfatal hname
    exact ⟨lease, hlease, hgone.follows h⟩

theorem Call.honest_of_purpose_none (h : c.purpose = none) : c.Honest s where
  bound := by
    intro purpose served generation hpurpose
    rw [h] at hpurpose
    cases hpurpose
  lost := by
    rintro purpose served error (rfl | rfl)
    · cases h
    · cases h

theorem Call.honest_of_bound (hbound : ∀ purpose served generation, c.purpose = some purpose →
      c.served = some served → purpose.expected = some generation → served.generation = generation)
    (hcompleting : ∀ purpose served error, c = .completing purpose served (.error error) →
      error.isFatal = false)
    (hreturned : ∀ purpose served error, c ≠ .returned purpose served (.error error)) : c.Honest s where
  bound := hbound
  lost := by
    rintro purpose served error (h | h) hfatal -
    · rw [hcompleting purpose served error h] at hfatal
      cases hfatal
    · exact absurd h (hreturned purpose served error)

theorem isFatal_classifyChildError (message : String) : (classifyChildError message).isFatal = false := by
  unfold classifyChildError
  split
  · rfl
  · split
    · rfl
    · unfold classifyByPhrase
      split_ifs <;> rfl

theorem isFatal_dispatched {tool : String} {outcome : Except ToolError CallToolResult} {error : ToolError}
    (h : dispatched tool outcome = (.error error, false)) : error.isFatal = false := by
  unfold dispatched at h
  split at h
  · split at h
    · next hresult =>
      rw [Prod.mk.injEq, Except.error.injEq] at h
      obtain ⟨rfl, -⟩ := h
      unfold resultError at hresult
      split_ifs at hresult
      cases hresult
      exact isFatal_classifyChildError _
    · cases h
  · cases h
    rfl
  · rw [Prod.mk.injEq, Bool.not_eq_false', Except.error.injEq] at h
    obtain ⟨rfl, hnever⟩ := h
    unfold ToolError.wasNeverDispatched at hnever
    split at hnever
    · rfl
    · rfl
    · cases hnever

theorem honest_answered (hu : s.call u = some (.calling purpose served)) (hs : Honest s)
    {outcome : Except ToolError CallToolResult}
    (hv : (answered s u purpose served outcome).call v = some d) : s.call v = some d ∨ d.Honest s := by
  have hbound := (hs u _ hu).bound
  unfold answered at hv
  split at hv
  · rcases call_goto hv with ⟨-, rfl⟩ | hv
    · right
      refine Call.honest_of_bound ?_ ?_ ?_
      · intro purpose' served' generation hpurpose hserved
        exact hbound purpose' served' generation hpurpose hserved
      · intro purpose' served' error h
        cases h
      · intro purpose' served' error h
        cases h
    · exact .inl hv
  · next result lost hnot hdispatched =>
    rcases call_goto hv with ⟨-, rfl⟩ | hv
    · right
      refine Call.honest_of_bound ?_ ?_ ?_
      · intro purpose' served' generation hpurpose hserved
        exact hbound purpose' served' generation hpurpose hserved
      · intro purpose' served' error h
        cases h
        cases lost with
        | true => exact (hnot error rfl rfl).elim
        | false => exact isFatal_dispatched hdispatched
      · intro purpose' served' error h
        cases h
    · exact .inl hv

theorem isFatal_parseValue {result : CallToolResult} {tool : String} {error : ToolError}
    (h : cfg.parseValue result tool = .error error) : error.isFatal = false := by
  unfold Config.parseValue at h
  split at h
  · next hresult =>
    cases h
    unfold resultError at hresult
    split_ifs at hresult
    cases hresult
    exact isFatal_classifyChildError _
  · unfold remoteProtocol at h
    split at h
    · cases h
    · cases h
      rfl

theorem honest_requiredHandle (hv : s'.call v = some d) (h : requiredHandle s u purpose = some s') :
    s.call v = some d ∨ d.Honest s := by
  unfold requiredHandle at h
  rw [Option.ite_none_right_eq_some] at h
  obtain ⟨-, h⟩ := h
  unfold WorkspaceDatabase.requiredHandleForGeneration at h
  split at h
  · next served hserved =>
    cases h
    rcases call_goto hv with ⟨-, rfl⟩ | hv
    · right
      refine Call.honest_of_bound ?_ ?_ ?_
      · intro purpose' served' generation hpurpose hserved' hexpected
        cases hpurpose
        cases hserved'
        split at hserved
        · cases hserved
        · next lease hlease =>
          split_ifs at hserved with hall
          cases hserved
          rw [hexpected, Option.all_some, decide_eq_true_eq] at hall
          exact hall.symm
      · intro purpose' served' error h
        cases h
      · intro purpose' served' error h
        cases h
    · exact .inl hv
  · next error herror =>
    cases h
    rcases call_goto hv with ⟨-, rfl⟩ | hv
    · right
      refine Call.honest_of_bound ?_ ?_ ?_
      · intro purpose' served' generation hpurpose hserved'
        cases hserved'
      · intro purpose' served' error' h
        cases h
        split at herror
        · cases herror
          rfl
        · split_ifs at herror
          cases herror
          rfl
      · intro purpose' served' error' h
        cases h
    · exact .inl hv

theorem gone_clearHandle (hs : Sound s) {served : Served} {error : ToolError}
    (hu : s.call u = some (.clearHandle purpose served error)) :
    (s.setDatabase (s.database.clearHandleIfLease served).1).Gone served.generation := by
  have hle := hs.bounded served (.inr ⟨u, _, hu, rfl⟩)
  unfold WorkspaceDatabase.clearHandleIfLease
  split_ifs with hserved
  · refine ⟨hle, ?_⟩
    intro lease hlease
    cases hlease
  · refine ⟨hle, ?_⟩
    intro lease hlease heq
    apply hserved
    have hsame : lease.served = served := by
      apply hs.one
      · exact .inl (by rw [show s.database.handle = some lease from hlease, Option.map_some])
      · exact .inr ⟨u, _, hu, rfl⟩
      · exact heq
    subst hsame
    exact s.database.isServed_iff.mpr ⟨lease, hlease, rfl, rfl⟩

theorem honest_clearHandle (hs : Sound s) (hhonest : Honest s) {served : Served} {error : ToolError}
    (hu : s.call u = some (.clearHandle purpose served error)) (hv : s'.call v = some d)
    (h : clearHandle s u purpose served error = some s') : s.call v = some d ∨ d.Honest s' := by
  have hbound := (hhonest u _ hu).bound
  have hgone := gone_clearHandle hs hu
  unfold clearHandle at h
  rw [Option.ite_none_right_eq_some] at h
  obtain ⟨-, h⟩ := h
  cases h
  rcases call_goto hv with ⟨-, rfl⟩ | hv
  · right
    constructor
    · intro purpose' served' generation hpurpose hserved hexpected
      cases hserved
      exact hbound purpose' _ generation hpurpose rfl hexpected
    · rintro purpose' served' error' (h | h) - -
      · cases h
        exact ⟨served, rfl, hgone⟩
      · cases h
  · exact .inl hv

theorem honest_complete (hhonest : Honest s) {served : Option Served}
    {result : Except ToolError CallToolResult} (hu : s.call u = some (.completing purpose served result))
    (hv : s'.call v = some d) (h : complete cfg s u purpose served result = some s') :
    s.call v = some d ∨ d.Honest s := by
  have hcall := hhonest u _ hu
  have hparsed : ∀ error, result.bind (fun result => cfg.parseValue result purpose.name) = .error error →
      error.isFatal = true → purpose.name ∉ debugStartTools →
      ∃ lease, served = some lease ∧ s.Gone lease.generation := by
    intro error herror hfatal hname
    cases result with
    | error error' =>
      cases herror
      exact hcall.lost purpose served error (.inl rfl) hfatal hname
    | ok result =>
      rw [isFatal_parseValue herror] at hfatal
      cases hfatal
  have hreturned {value : Except ToolError Value} (hvalue : ∀ error, value = .error error →
      error.isFatal = true → purpose.name ∉ debugStartTools →
      ∃ lease, served = some lease ∧ s.Gone lease.generation) :
      (Call.returned purpose served value).Honest s := by
    constructor
    · intro purpose' served' generation hpurpose hserved hexpected
      exact hcall.bound purpose' served' generation hpurpose hserved hexpected
    · rintro purpose' served' error (h | h) hfatal hname
      · cases h
      · cases h
        exact hvalue error rfl hfatal hname
  unfold complete at h
  dsimp only at h
  split at h
  · cases h
    rcases call_goto hv with ⟨-, rfl⟩ | hv
    · exact .inr (hreturned hparsed)
    · exact .inl hv
  · next pinned hdecision =>
    rw [Option.ite_none_right_eq_some] at h
    obtain ⟨-, h⟩ := h
    split at h
    · cases h
      rcases call_goto hv with ⟨-, rfl⟩ | hv
      · exact .inr (hreturned hparsed)
      · exact .inl hv
    · cases h
      rcases call_goto hv with ⟨-, rfl⟩ | hv
      · right
        apply hreturned
        intro error herror hfatal hname
        split_ifs at herror with hpinned
        · exfalso
          unfold pinDecision at hdecision
          rw [if_neg hname] at hdecision
          subst hpinned
          split_ifs at hdecision
          cases hdecision
        · exact hparsed error herror hfatal hname
      · exact .inl hv

def Call.idle (c : Call) : Prop := c.purpose = none ∨ ∃ purpose, c = .requiredHandle purpose

theorem Call.idle.honest (h : c.idle) : c.Honest s := by
  rcases h with h | ⟨purpose, rfl⟩
  · exact Call.honest_of_purpose_none h
  · refine Call.honest_of_bound ?_ ?_ ?_
    · intro purpose' served generation hpurpose hserved
      cases hserved
    · intro purpose' served error h
      cases h
    · intro purpose' served error h
      cases h

theorem idle_goto (hcall : t.call = s.call) (hc : c.purpose = none) (hv : (t.goto u c).call v = some d) :
    s.call v = some d ∨ d.idle := by
  rcases call_goto hv with ⟨-, rfl⟩ | hv
  · exact .inr (.inl hc)
  · rw [hcall] at hv
    exact .inl hv

theorem idle_spawnAnalyzeFuncsTask {owner : TaskOwner} {full : Bool}
    (hv : (spawnAnalyzeFuncsTask s owner full).1.call v = some d) : s.call v = some d ∨ d.idle := by
  unfold spawnAnalyzeFuncsTask at hv
  split at hv
  · split_ifs at hv <;> exact .inl hv
  · split_ifs at hv
    · exact .inl hv
    · rcases call_goto hv with ⟨-, rfl⟩ | hv
      · exact .inr (.inr ⟨_, rfl⟩)
      · exact .inl hv

theorem idle_spawned_goto {owner : TaskOwner} {full : Bool} (hc : c.purpose = none)
    (hv : ((spawnAnalyzeFuncsTask s owner full).1.goto u c).call v = some d) :
    s.call v = some d ∨ d.idle := by
  rcases call_goto hv with ⟨-, rfl⟩ | hv
  · exact .inr (.inl hc)
  · exact idle_spawnAnalyzeFuncsTask hv

theorem idle_next {choice : Choice} (hc : c.purpose = none) (h : next cfg s u c choice = some s')
    (hv : s'.call v = some d) : s.call v = some d ∨ d.idle := by
  unfold next at h
  split at h
  · unfold leaseForOpen at h
    rw [Option.ite_none_right_eq_some] at h
    obtain ⟨-, h⟩ := h
    split at h
    · split_ifs at h <;> cases h <;> exact idle_goto rfl rfl hv
    · cases h
      exact idle_goto rfl rfl hv
  · cases h
    exact idle_goto rfl rfl hv
  · cases h
    unfold acquire at hv
    split at hv
    · exact idle_goto rfl rfl hv
    · dsimp only at hv
      split at hv <;> exact idle_goto rfl rfl hv
  · cases h
    unfold openAnswered at hv
    split at hv
    · exact idle_goto rfl rfl hv
    · split_ifs at hv <;> exact idle_goto rfl rfl hv
  · unfold grant at h
    split_ifs at h <;> cases h <;> exact idle_goto rfl rfl hv
  · cases h
    unfold spawn at hv
    split_ifs at hv
    · exact idle_spawned_goto rfl hv
    · exact idle_goto rfl rfl hv
  · unfold closeAuthorized at h
    rw [Option.ite_none_right_eq_some] at h
    obtain ⟨-, h⟩ := h
    dsimp only at h
    split at h <;> cases h <;> exact idle_goto rfl rfl hv
  · unfold takeHandle at h
    rw [Option.ite_none_right_eq_some] at h
    obtain ⟨-, h⟩ := h
    dsimp only at h
    split at h <;> cases h <;> exact idle_goto rfl rfl hv
  · cases h
    exact idle_goto rfl rfl hv
  · cases h
    unfold reapDecision at hv
    split_ifs at hv
    · split at hv <;> exact idle_goto rfl rfl hv
    · exact idle_goto rfl rfl hv
  · cases hc
  · cases hc
  · cases hc
  · cases hc
  · cases h
    exact idle_spawned_goto rfl hv
  · cases h

theorem honest_step (hs : Sound s) (hhonest : Honest s) {a : Action} (h : step cfg s a = some s') :
    Honest s' := by
  have hfollows := follows_step hs h
  intro v d hv
  have hnew : s.call v = some d ∨ d.Honest s ∨ d.Honest s' := by
    cases a with
    | start request =>
      simp only [step, Option.some.injEq] at h
      subst h
      rcases call_goto hv with ⟨-, rfl⟩ | hv
      · right
        left
        apply Call.idle.honest
        cases request with
        | closeIdb sessionId token force =>
          simp only [Request.position]
          split_ifs <;> exact .inl rfl
        | call name expected => exact .inr ⟨_, rfl⟩
        | _ => exact .inl rfl
      · exact .inl hv
    | drop u =>
      simp only [step] at h
      split at h
      · split_ifs at h
        cases h
        have hcall : (dropCall s u).call = Function.update s.call u none := by
          simp only [dropCall]
          split_ifs <;> rfl
        rw [hcall] at hv
        left
        by_cases heq : v = u
        · subst heq
          rw [Function.update_self] at hv
          cases hv
        · rwa [Function.update_of_ne heq] at hv
      · cases h
    | run u choice =>
      simp only [step] at h
      obtain ⟨c, hu, h⟩ := Option.bind_eq_some_iff.mp h
      cases hpurpose : c.purpose with
      | none => exact (idle_next hpurpose h hv).imp_right fun hidle => .inl hidle.honest
      | some purpose =>
        unfold next at h
        split at h
        all_goals first | cases hpurpose; done | skip
        · exact (honest_requiredHandle hv h).imp_right .inl
        · cases h
          exact (honest_answered hu hhonest hv).imp_right .inl
        · exact (honest_clearHandle hs hhonest hu hv h).imp_right .inr
        · exact (honest_complete hhonest hu hv h).imp_right .inl
        · cases h
  rcases hnew with hold | hd | hd
  · exact (hhonest v d hold).follows hfollows
  · exact hd.follows hfollows
  · exact hd

end IdaMcp.Handle
