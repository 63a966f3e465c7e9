import IdaMcp.Handle.Step

namespace IdaMcp.Handle

open Foundation Pool Remote Tasks

def Call.served : Call → Option Served
  | opening _ served _ | calling _ served | clearHandle _ served _ => some served
  | completing _ served _ | returned _ served _ => served
  | releasing lease _ => some lease.served
  | _ => none

def Call.grant : Call → Option (String × ℕ)
  | spawning _ generation _ (some (.ok grant)) | opened generation (some (.ok grant)) _ =>
    some (grant.token, generation)
  | _ => none

variable {cfg : Config} {s s' : State} {u v : CallId} {c d : Call} {served served' : Served}
  {lease : PooledDatabaseLease} {generation : ℕ}

namespace State

def Names (s : State) (served : Served) : Prop :=
  s.database.handle.map PooledDatabaseLease.served = some served ∨
    ∃ u c, s.call u = some c ∧ c.served = some served

end State

inductive Change (s : State) (u : CallId) (db' : WorkspaceDatabase) : Prop
  | same (h : db'.handle = s.database.handle)
      (hnext : s.database.nextDatabaseGeneration ≤ db'.nextDatabaseGeneration)
  | pinned (lease : PooledDatabaseLease) (b : Bool) (purpose : Purpose) (served : Served)
      (result : Except ToolError CallToolResult) (h : s.database.handle = some lease)
      (hu : s.call u = some (.completing purpose (some served) result))
      (hserved : lease.generation = served.generation)
      (h' : db'.handle = some { lease with debugPinned := b })
      (hnext : db'.nextDatabaseGeneration = s.database.nextDatabaseGeneration)
  | granted (lease : PooledDatabaseLease) (token : CloseTokenLease) (h : s.database.handle = some lease)
      (hnone : lease.closeToken = none) (h' : db'.handle = some { lease with closeToken := some token })
      (hnext : db'.nextDatabaseGeneration = s.database.nextDatabaseGeneration)
  | taken (lease : PooledDatabaseLease) (h : s.database.handle = some lease) (h' : db'.handle = none)
      (hnext : db'.nextDatabaseGeneration = s.database.nextDatabaseGeneration)
  | installed (handle : PooledWorkerHandle)
      (h' : db'.handle = some ⟨handle, s.database.nextDatabaseGeneration + 1, none, false⟩)
      (hnext : db'.nextDatabaseGeneration = s.database.nextDatabaseGeneration + 1)

/-- Where what a call says comes from when it goes on to `c`. -/
structure Origin (s s' : State) (c : Call) : Prop where
  served : ∀ served, c.served = some served →
    s.Names served ∨ s'.database.handle.map PooledDatabaseLease.served = some served
  grant : ∀ token generation, c.grant = some (token, generation) → (token, generation) ∈ s'.issued
  releasing : ∀ lease result, c = .releasing lease result →
    s.database.handle = some lease ∧ s'.database.handle = none

/-- The close tokens after a step: as before, or with the one that the step has installed. -/
inductive Issues (s s' : State) : Prop
  | same (h : s'.issued = s.issued) (htoken : ∀ lease token, s'.database.handle = some lease →
      lease.closeToken = some token → ∃ lease', s.database.handle = some lease' ∧
        lease'.closeToken = some token ∧ lease'.generation = lease.generation)
  | fresh (lease : PooledDatabaseLease) (token : CloseTokenLease)
      (h : s'.issued = (token.token, lease.generation) :: s.issued)
      (hfresh : token.token ∉ s.issued.map Prod.fst) (h' : s'.database.handle = some lease)
      (htoken : lease.closeToken = some token)

/-- Everything that the invariants need of a step of call `u`. -/
structure Follows (s s' : State) (u : CallId) : Prop where
  change : Change s u s'.database
  issues : Issues s s'
  nextCall : s.nextCall ≤ s'.nextCall
  others : ∀ v, v ≠ u → v < s.nextCall → s'.call v = s.call v
  calls : ∀ v c, s'.call v = some c → s.call v = some c ∨ (v < s'.nextCall ∧ Origin s s' c)

structure Sound (s : State) : Prop where
  lt : ∀ u c, s.call u = some c → u < s.nextCall
  bounded : ∀ served, s.Names served → served.generation ≤ s.database.nextDatabaseGeneration
  one : ∀ served served', s.Names served → s.Names served' → served.generation = served'.generation →
    served = served'
  issued : ∀ token generation generation', (token, generation) ∈ s.issued →
    (token, generation') ∈ s.issued → generation = generation'
  grant : ∀ u c token generation, s.call u = some c → c.grant = some (token, generation) →
    (token, generation) ∈ s.issued
  token : ∀ lease token, s.database.handle = some lease → lease.closeToken = some token →
    (token.token, lease.generation) ∈ s.issued
  released : ∀ u lease result current, s.call u = some (.releasing lease result) →
    s.database.handle = some current → lease.generation < current.generation

theorem sound_initial (sharedHttp : Bool) : Sound (initial sharedHttp) where
  lt := by intro u c h; cases h
  bounded := by
    rintro served (h | ⟨u, c, h, -⟩)
    · cases h
    · cases h
  one := by
    rintro served served' (h | ⟨u, c, h, -⟩)
    · cases h
    · cases h
  issued := by intro token generation generation' h; cases h
  grant := by intro u c token generation h; cases h
  token := by intro lease token h; cases h
  released := by intro u lease result current h; cases h

theorem Follows.next_le (h : Follows s s' u) :
    s.database.nextDatabaseGeneration ≤ s'.database.nextDatabaseGeneration := by
  cases h.change with
  | same h hnext => exact hnext
  | pinned _ _ _ _ _ _ _ _ _ hnext | granted _ _ _ _ _ hnext | taken _ _ _ hnext => exact hnext.ge
  | installed _ _ hnext => omega

theorem Follows.handle (h : Follows s s' u)
    (hserved : s'.database.handle.map PooledDatabaseLease.served = some served) :
    s.database.handle.map PooledDatabaseLease.served = some served ∨
      (served.generation = s.database.nextDatabaseGeneration + 1 ∧
        s'.database.nextDatabaseGeneration = s.database.nextDatabaseGeneration + 1) := by
  cases h.change with
  | same heq hnext =>
    rw [heq] at hserved
    exact .inl hserved
  | pinned lease b purpose served' result hlease hu hserved' hlease' hnext =>
    rw [hlease', Option.map_some] at hserved
    rw [hlease, Option.map_some]
    exact .inl hserved
  | granted lease token hlease hnone hlease' hnext =>
    rw [hlease', Option.map_some] at hserved
    rw [hlease, Option.map_some]
    exact .inl hserved
  | taken lease hlease hlease' hnext =>
    rw [hlease'] at hserved
    cases hserved
  | installed handle hlease' hnext =>
    rw [hlease', Option.map_some] at hserved
    cases hserved
    exact .inr ⟨rfl, hnext⟩

theorem Follows.names (h : Follows s s' u) (hnames : s'.Names served) :
    s.Names served ∨ (s'.database.handle.map PooledDatabaseLease.served = some served ∧
      served.generation = s.database.nextDatabaseGeneration + 1 ∧
      s'.database.nextDatabaseGeneration = s.database.nextDatabaseGeneration + 1) := by
  have hinstalled (hserved : s'.database.handle.map PooledDatabaseLease.served = some served) :
      s.Names served ∨ (s'.database.handle.map PooledDatabaseLease.served = some served ∧
        served.generation = s.database.nextDatabaseGeneration + 1 ∧
        s'.database.nextDatabaseGeneration = s.database.nextDatabaseGeneration + 1) := by
    rcases h.handle hserved with hold | hnew
    · exact .inl (.inl hold)
    · exact .inr ⟨hserved, hnew⟩
  rcases hnames with hserved | ⟨v, c, hv, hc⟩
  · exact hinstalled hserved
  · rcases h.calls v c hv with hold | ⟨-, horigin⟩
    · exact .inl (.inr ⟨v, c, hold, hc⟩)
    · rcases horigin.served served hc with hold | hserved
      · exact .inl hold
      · exact hinstalled hserved

theorem Sound.follows (hs : Sound s) (h : Follows s s' u) : Sound s' where
  lt := by
    intro v c hv
    rcases h.calls v c hv with hold | ⟨hlt, -⟩
    · exact Nat.lt_of_lt_of_le (hs.lt v c hold) h.nextCall
    · exact hlt
  bounded := by
    intro served hnames
    have hle := h.next_le
    rcases h.names hnames with hold | ⟨-, hgeneration, hnext⟩
    · exact le_trans (hs.bounded served hold) hle
    · omega
  one := by
    intro served served' hnames hnames' heq
    rcases h.names hnames with hold | ⟨hinstalled, hgeneration, -⟩
    · rcases h.names hnames' with hold' | ⟨-, hgeneration', -⟩
      · exact hs.one served served' hold hold' heq
      · have hle := hs.bounded served hold
        omega
    · rcases h.names hnames' with hold' | ⟨hinstalled', -, -⟩
      · have hle := hs.bounded served' hold'
        omega
      · exact Option.some.inj (hinstalled.symm.trans hinstalled')
  issued := by
    intro token generation generation' hmem hmem'
    cases h.issues with
    | same hissued =>
      rw [hissued] at hmem hmem'
      exact hs.issued token generation generation' hmem hmem'
    | fresh lease fresh hissued hfresh =>
      rw [hissued] at hmem hmem'
      have hnew {g : ℕ} (hg : (token, g) ∈ s.issued) : token ≠ fresh.token := by
        intro heq
        exact hfresh (heq ▸ List.mem_map_of_mem hg)
      rcases List.mem_cons.mp hmem with heq | hmem
      · rcases List.mem_cons.mp hmem' with heq' | hmem'
        · exact (Prod.ext_iff.mp heq).2.trans (Prod.ext_iff.mp heq').2.symm
        · exact absurd (Prod.ext_iff.mp heq).1 (hnew hmem')
      · rcases List.mem_cons.mp hmem' with heq' | hmem'
        · exact absurd (Prod.ext_iff.mp heq').1 (hnew hmem)
        · exact hs.issued token generation generation' hmem hmem'
  grant := by
    intro v c token generation hv hc
    rcases h.calls v c hv with hold | ⟨-, horigin⟩
    · have hmem := hs.grant v c token generation hold hc
      cases h.issues with
      | same hissued =>
        rw [hissued]
        exact hmem
      | fresh lease fresh hissued =>
        rw [hissued]
        exact List.mem_cons_of_mem _ hmem
    · exact horigin.grant token generation hc
  token := by
    intro lease token hlease htoken
    cases h.issues with
    | same hissued hsame =>
      obtain ⟨lease', hlease', htoken', hgeneration⟩ := hsame lease token hlease htoken
      rw [hissued, ← hgeneration]
      exact hs.token lease' token hlease' htoken'
    | fresh lease' token' hissued hfresh hlease' htoken' =>
      rw [hlease] at hlease'
      cases hlease'
      rw [htoken] at htoken'
      cases htoken'
      rw [hissued]
      exact List.mem_cons_self
  released := by
    intro v lease result current hv hcurrent
    rcases h.calls v _ hv with hold | ⟨-, horigin⟩
    · have hserved : s'.database.handle.map PooledDatabaseLease.served = some current.served := by
        rw [hcurrent, Option.map_some]
      rcases h.handle hserved with hinstalled | ⟨hgeneration, -⟩
      · obtain ⟨current', hcurrent', heq⟩ := Option.map_eq_some_iff.mp hinstalled
        have hlt := hs.released v lease result current' hold hcurrent'
        have hgeneration : current'.generation = current.generation := congrArg Served.generation heq
        omega
      · have hle := hs.bounded lease.served (.inr ⟨v, _, hold, rfl⟩)
        change current.generation = _ at hgeneration
        change lease.generation ≤ _ at hle
        omega
    · obtain ⟨-, hnone⟩ := horigin.releasing lease result rfl
      rw [hcurrent] at hnone
      cases hnone

theorem call_goto {t : State} (h : (t.goto u c).call v = some d) : v = u ∧ d = c ∨ t.call v = some d := by
  by_cases hv : v = u
  · subst hv
    have hself : (t.goto v c).call v = some c := Function.update_self ..
    rw [hself, Option.some.injEq] at h
    exact .inl ⟨rfl, h.symm⟩
  · have hother : (t.goto u c).call v = t.call v := Function.update_of_ne hv ..
    rw [hother] at h
    exact .inr h

theorem Origin.quiet (hserved : c.served = none) (hgrant : c.grant = none) : Origin s s' c where
  served := by
    intro served h
    rw [hserved] at h
    cases h
  grant := by
    intro token generation h
    rw [hgrant] at h
    cases h
  releasing := by
    rintro lease result rfl
    cases hserved

theorem Origin.carry (hu : s.call u = some d) (hserved : c.served = d.served) (hgrant : c.grant = none)
    (hreleasing : ∀ lease result, c ≠ .releasing lease result) : Origin s s' c where
  served := by
    intro served h
    exact .inl (.inr ⟨u, d, hu, hserved ▸ h⟩)
  grant := by
    intro token generation h
    rw [hgrant] at h
    cases h
  releasing := fun lease result h => absurd h (hreleasing lease result)

theorem issues_of_handle_eq (hissued : s'.issued = s.issued)
    (hhandle : s'.database.handle = s.database.handle) : Issues s s' := by
  refine .same hissued ?_
  intro lease token hlease htoken
  rw [hhandle] at hlease
  exact ⟨lease, hlease, htoken, rfl⟩

theorem issues_of_no_token (hissued : s'.issued = s.issued)
    (hnone : ∀ lease, s'.database.handle = some lease → lease.closeToken = none) : Issues s s' := by
  refine .same hissued ?_
  intro lease token hlease htoken
  rw [hnone lease hlease] at htoken
  cases htoken

theorem issues_of_pinned {b : Bool} (hissued : s'.issued = s.issued)
    (hlease : s.database.handle = some lease)
    (hlease' : s'.database.handle = some { lease with debugPinned := b }) : Issues s s' := by
  refine .same hissued ?_
  intro lease' token hinstalled htoken
  rw [hlease'] at hinstalled
  cases hinstalled
  exact ⟨lease, hlease, htoken, rfl⟩

theorem Follows.goto {t : State} (h : Follows s t u) (hlt : u < t.nextCall) (horigin : Origin s t c) :
    Follows s (t.goto u c) u where
  change := h.change
  issues := by
    cases h.issues with
    | same hissued htoken => exact .same hissued htoken
    | fresh lease token hissued hfresh hlease htoken => exact .fresh lease token hissued hfresh hlease htoken
  nextCall := h.nextCall
  others := by
    intro v hne hv
    have hother : (t.goto u c).call v = t.call v := Function.update_of_ne hne ..
    rw [hother]
    exact h.others v hne hv
  calls := by
    intro v d hv
    rcases call_goto hv with ⟨rfl, rfl⟩ | hv
    · exact .inr ⟨hlt, horigin.served, horigin.grant, horigin.releasing⟩
    · rcases h.calls v d hv with hold | ⟨hvlt, hd⟩
      · exact .inl hold
      · exact .inr ⟨hvlt, hd.served, hd.grant, hd.releasing⟩

theorem follows_goto {t : State} (hlt : u < s.nextCall) (hcall : t.call = s.call)
    (hnext : t.nextCall = s.nextCall) (hchange : Change s u t.database) (hissues : Issues s t)
    (horigin : Origin s t c) : Follows s (t.goto u c) u := by
  have hfollows : Follows s t u := by
    refine ⟨hchange, hissues, hnext.ge, fun v _ _ => by rw [hcall], ?_⟩
    intro v d hv
    rw [hcall] at hv
    exact .inl hv
  exact hfollows.goto (hnext ▸ hlt) horigin

theorem follows_goto_same (hlt : u < s.nextCall) (horigin : Origin s s c) : Follows s (s.goto u c) u :=
  follows_goto hlt rfl rfl (.same rfl le_rfl) (issues_of_handle_eq rfl rfl) horigin

theorem follows_leaseForOpen (hlt : u < s.nextCall) {client : Client} {healthy : Bool}
    (h : leaseForOpen s u client healthy = some s') : Follows s s' u := by
  unfold leaseForOpen at h
  rw [Option.ite_none_right_eq_some] at h
  obtain ⟨-, h⟩ := h
  split at h
  · next lease hlease =>
    split_ifs at h
    · cases h
      refine follows_goto_same hlt ⟨?_, ?_, ?_⟩
      · intro served hserved
        cases hserved
        left
        left
        rw [hlease, Option.map_some]
      · intro token generation hgrant
        cases hgrant
      · intro lease result hreleasing
        cases hreleasing
    · cases h
      exact follows_goto hlt rfl rfl (.same rfl le_rfl) (issues_of_handle_eq rfl rfl) (.quiet rfl rfl)
  · cases h
    exact follows_goto hlt rfl rfl (.same rfl le_rfl) (issues_of_handle_eq rfl rfl) (.quiet rfl rfl)

theorem follows_acquire (hlt : u < s.nextCall) {client : Client}
    {outcome : Except ToolError PooledWorkerHandle} : Follows s (acquire s u client outcome) u := by
  unfold acquire
  split
  · exact follows_goto hlt rfl rfl (.same rfl le_rfl) (issues_of_handle_eq rfl rfl) (.quiet rfl rfl)
  · next generation hgeneration =>
    have hnext := WorkspaceDatabase.nextGeneration_ok hgeneration
    split
    · refine follows_goto hlt rfl rfl (.same rfl ?_) (issues_of_handle_eq rfl rfl) (.quiet rfl rfl)
      exact hnext ▸ Nat.le_succ _
    · next handle =>
      refine follows_goto hlt rfl rfl ?_ ?_ ⟨?_, ?_, ?_⟩
      · subst hnext
        exact .installed _ rfl rfl
      · refine issues_of_no_token rfl ?_
        intro lease hlease
        cases hlease
        rfl
      · intro served hserved
        cases hserved
        exact .inr rfl
      · intro token generation hgrant
        cases hgrant
      · intro lease result hreleasing
        cases hreleasing

theorem follows_openAnswered (hlt : u < s.nextCall) {client : Client} {freshLease : Bool}
    {outcome : Except ToolError CallToolResult} :
    Follows s (openAnswered cfg s u client served freshLease outcome) u := by
  unfold openAnswered
  split
  · exact follows_goto_same hlt (.quiet rfl rfl)
  · split_ifs
    · exact follows_goto_same hlt (.quiet rfl rfl)
    · exact follows_goto_same hlt (.quiet rfl rfl)

theorem follows_grant (hlt : u < s.nextCall) {client : Client} {info : DbInfo} {fresh : String}
    (hs : Sound s) (h : grant s u client generation info fresh = some s') : Follows s s' u := by
  unfold grant at h
  split_ifs at h with hshared hfresh
  · obtain ⟨-, hnew⟩ := hfresh
    cases h
    unfold WorkspaceDatabase.issueCloseToken
    split
    · next lease hlease =>
      split_ifs with hgeneration
      · subst hgeneration
        dsimp only
        cases htoken : lease.closeToken with
        | none =>
          refine follows_goto hlt rfl rfl ?_ ?_ ⟨?_, ?_, ?_⟩
          · exact .granted lease ⟨fresh, client.sessionId⟩ hlease htoken rfl rfl
          · exact .fresh { lease with closeToken := some ⟨fresh, client.sessionId⟩ } _ rfl hnew rfl rfl
          · intro served hserved
            cases hserved
          · intro token generation hgrant
            cases hgrant
            exact List.mem_cons_self
          · intro lease result hreleasing
            cases hreleasing
        | some token =>
          have hinstalled : s.database.handle = some { lease with closeToken := some token } := by
            rw [hlease, ← htoken]
          simp only [CloseTokenState.issueForSession]
          split_ifs with howner
          · refine follows_goto hlt rfl rfl ?_ ?_ ⟨?_, ?_, ?_⟩
            · exact .same hinstalled.symm le_rfl
            · exact issues_of_handle_eq rfl hinstalled.symm
            · intro served hserved
              cases hserved
            · intro token' generation hgrant
              cases hgrant
              exact hs.token lease token hlease htoken
            · intro lease result hreleasing
              cases hreleasing
          · refine follows_goto hlt rfl rfl ?_ ?_ (.quiet rfl rfl)
            · exact .same hinstalled.symm le_rfl
            · exact issues_of_handle_eq rfl hinstalled.symm
      · exact follows_goto hlt rfl rfl (.same rfl le_rfl) (issues_of_handle_eq rfl rfl) (.quiet rfl rfl)
    · exact follows_goto hlt rfl rfl (.same rfl le_rfl) (issues_of_handle_eq rfl rfl) (.quiet rfl rfl)
  · cases h
    exact follows_goto_same hlt (.quiet rfl rfl)

theorem follows_addCall (hserved : c.served = none) (hgrant : c.grant = none) :
    Follows s (s.addCall c) u where
  change := .same rfl le_rfl
  issues := issues_of_handle_eq rfl rfl
  nextCall := Nat.le_succ _
  others := fun v _ hv => Function.update_of_ne (Nat.ne_of_lt hv) ..
  calls := by
    intro v d hv
    rcases call_goto hv with ⟨rfl, rfl⟩ | hv
    · exact .inr ⟨Nat.lt_succ_self _, .quiet hserved hgrant⟩
    · exact .inl hv

theorem follows_spawnAnalyzeFuncsTask (u : CallId) (owner : TaskOwner) (full : Bool) :
    Follows s (spawnAnalyzeFuncsTask s owner full).1 u := by
  have hsame : Follows s s u :=
    ⟨.same rfl le_rfl, issues_of_handle_eq rfl rfl, le_rfl, fun _ _ _ => rfl, fun _ _ hv => .inl hv⟩
  unfold spawnAnalyzeFuncsTask
  split
  · split_ifs <;> exact hsame
  · split_ifs
    · exact hsame
    · have hadd := follows_addCall (s := s) (u := u)
        (c := .requiredHandle (.analysis (s.database.handle.map PooledDatabaseLease.generation))) rfl rfl
      exact ⟨hadd.change, issues_of_handle_eq rfl rfl, hadd.nextCall, hadd.others, fun v d hv =>
        (hadd.calls v d hv).imp_right fun hd => ⟨hd.1, hd.2.served, hd.2.grant, hd.2.releasing⟩⟩

theorem follows_spawn (hs : Sound s) {client : Client} {info : DbInfo}
    {grant : Option (Except String CloseTokenGrant)} {full : Bool}
    (hu : s.call u = some (.spawning client generation info grant)) :
    Follows s (spawn s u client generation info grant full) u := by
  have hlt := hs.lt u _ hu
  unfold spawn
  split_ifs with hbackground
  · have hspawned : Follows s _ u := follows_spawnAnalyzeFuncsTask u client.owner full
    refine hspawned.goto (Nat.lt_of_lt_of_le hlt hspawned.nextCall) ⟨?_, ?_, ?_⟩
    · intro served hserved
      cases hserved
    · intro token generation' hgrant
      have hmem : (token, generation') ∈ s.issued := by
        apply hs.grant u _ token generation' hu
        cases grant with
        | none => cases hgrant
        | some result =>
          cases result with
          | error owner => cases hgrant
          | ok grant => exact hgrant
      cases hspawned.issues with
      | same hissued =>
        rw [hissued]
        exact hmem
      | fresh lease token hissued =>
        rw [hissued]
        exact List.mem_cons_of_mem _ hmem
    · intro lease result hreleasing
      cases hreleasing
  · refine follows_goto_same hlt ⟨?_, ?_, ?_⟩
    · intro served hserved
      cases hserved
    · intro token generation' hgrant
      apply hs.grant u _ token generation' hu
      cases grant with
      | none => cases hgrant
      | some result =>
        cases result with
        | error owner => cases hgrant
        | ok grant => exact hgrant
    · intro lease result hreleasing
      cases hreleasing

theorem follows_taken (hlt : u < s.nextCall) {result : Except ToolError Closed}
    (hlease : s.database.handle = some lease) {db : WorkspaceDatabase} (hnone : db.handle = none)
    (hnext : db.nextDatabaseGeneration = s.database.nextDatabaseGeneration) :
    Follows s ((s.setDatabase db).goto u (.releasing lease result)) u := by
  refine follows_goto hlt rfl rfl ?_ ?_ ⟨?_, ?_, ?_⟩
  · exact .taken lease hlease hnone hnext
  · refine issues_of_no_token rfl ?_
    intro lease' hlease'
    change db.handle = some lease' at hlease'
    rw [hnone] at hlease'
    cases hlease'
  · intro served hserved
    cases hserved
    left
    left
    rw [hlease, Option.map_some]
  · intro token generation hgrant
    cases hgrant
  · intro lease' result' hreleasing
    cases hreleasing
    exact ⟨hlease, hnone⟩

theorem follows_closeAuthorized (hlt : u < s.nextCall) {sessionId : String} {token : Option String}
    {force : Bool} (h : closeAuthorized s u sessionId token force = some s') : Follows s s' u := by
  unfold closeAuthorized at h
  rw [Option.ite_none_right_eq_some] at h
  obtain ⟨-, h⟩ := h
  dsimp only at h
  split at h
  · cases h
    exact follows_goto_same hlt (.quiet rfl rfl)
  · cases h
    exact follows_goto_same hlt (.quiet rfl rfl)
  · next authorization lease hclosed =>
    cases h
    obtain ⟨hlease, -, -, hdb⟩ := WorkspaceDatabase.closeAuthorized_some hclosed
    rw [hdb]
    exact follows_taken hlt hlease rfl rfl

theorem follows_takeHandle (hlt : u < s.nextCall) {expected : Option ℕ}
    {absent taken : Except ToolError Closed} (h : takeHandle s u expected absent taken = some s') :
    Follows s s' u := by
  unfold takeHandle at h
  rw [Option.ite_none_right_eq_some] at h
  obtain ⟨-, h⟩ := h
  dsimp only at h
  split at h
  · next lease htaken =>
    cases h
    obtain ⟨hlease, -, hdb⟩ := WorkspaceDatabase.takeHandle_some htaken
    rw [hdb]
    exact follows_taken hlt hlease rfl rfl
  · cases h
    exact follows_goto_same hlt (.quiet rfl rfl)

theorem follows_reapDecision (hlt : u < s.nextCall) {healthy : Bool} :
    Follows s (reapDecision s u healthy) u := by
  unfold reapDecision
  split_ifs
  · split
    · next lease hlease => exact follows_taken hlt hlease rfl rfl
    · exact follows_goto_same hlt (.quiet rfl rfl)
  · exact follows_goto_same hlt (.quiet rfl rfl)

theorem follows_requiredHandle (hlt : u < s.nextCall) {purpose : Purpose}
    (h : requiredHandle s u purpose = some s') : Follows s s' u := by
  unfold requiredHandle at h
  rw [Option.ite_none_right_eq_some] at h
  obtain ⟨-, h⟩ := h
  split at h
  · next served hserved =>
    cases h
    refine follows_goto_same hlt ⟨?_, ?_, ?_⟩
    · intro served' h
      cases h
      exact .inl (.inl (WorkspaceDatabase.requiredHandle_ok hserved))
    · intro token generation hgrant
      cases hgrant
    · intro lease result hreleasing
      cases hreleasing
  · cases h
    exact follows_goto_same hlt (.quiet rfl rfl)

theorem follows_answered (hlt : u < s.nextCall) {purpose : Purpose}
    {outcome : Except ToolError CallToolResult} (hu : s.call u = some (.calling purpose served)) :
    Follows s (answered s u purpose served outcome) u := by
  unfold answered
  split
  · exact follows_goto_same hlt (.carry hu rfl rfl fun _ _ h => by cases h)
  · exact follows_goto_same hlt (.carry hu rfl rfl fun _ _ h => by cases h)

theorem follows_clearHandle (hlt : u < s.nextCall) {purpose : Purpose} {error : ToolError}
    (hu : s.call u = some (.clearHandle purpose served error))
    (h : clearHandle s u purpose served error = some s') : Follows s s' u := by
  unfold clearHandle at h
  rw [Option.ite_none_right_eq_some] at h
  obtain ⟨-, h⟩ := h
  cases h
  unfold WorkspaceDatabase.clearHandleIfLease
  split_ifs with hserved
  · obtain ⟨lease, hlease, -⟩ := s.database.isServed_iff.mp hserved
    refine follows_goto hlt rfl rfl (.taken lease hlease rfl rfl) ?_
      (.carry hu rfl rfl fun _ _ h => by cases h)
    refine issues_of_no_token rfl ?_
    intro lease' hlease'
    cases hlease'
  · exact follows_goto hlt rfl rfl (.same rfl le_rfl) (issues_of_handle_eq rfl rfl)
      (.carry hu rfl rfl fun _ _ h => by cases h)

theorem follows_finishCall (hlt : u < s.nextCall) {t : State} {purpose : Purpose} {served : Option Served}
    {result : Except ToolError CallToolResult} {value : Except ToolError Value}
    (hu : s.call u = some (.completing purpose served result)) (hcall : t.call = s.call)
    (hnext : t.nextCall = s.nextCall) (hchange : Change s u t.database) (hissues : Issues s t) :
    Follows s (finishCall t u purpose served value) u := by
  have hfollows : Follows s (t.goto u (.returned purpose served value)) u :=
    follows_goto hlt hcall hnext hchange hissues (.carry hu rfl rfl fun _ _ h => by cases h)
  refine ⟨hchange, ?_, hfollows.nextCall, hfollows.others, ?_⟩
  · cases hissues with
    | same hissued htoken => exact .same hissued htoken
    | fresh lease token hissued hfresh hlease htoken => exact .fresh lease token hissued hfresh hlease htoken
  · intro v d hv
    exact (hfollows.calls v d hv).imp_right fun hd => ⟨hd.1, hd.2.served, hd.2.grant, hd.2.releasing⟩

theorem follows_complete (hlt : u < s.nextCall) {purpose : Purpose} {served : Option Served}
    {result : Except ToolError CallToolResult} (hu : s.call u = some (.completing purpose served result))
    (h : complete cfg s u purpose served result = some s') : Follows s s' u := by
  unfold complete at h
  dsimp only at h
  split at h
  · cases h
    exact follows_finishCall hlt hu rfl rfl (.same rfl le_rfl) (issues_of_handle_eq rfl rfl)
  · next pinned hdecision =>
    rw [Option.ite_none_right_eq_some] at h
    obtain ⟨-, h⟩ := h
    split at h
    · next database hset =>
      cases h
      obtain ⟨served', rfl, hpin⟩ := Option.map_eq_some_iff.mp hset
      obtain ⟨lease, hlease, -, hgeneration, hlease'⟩ :=
        WorkspaceDatabase.setDebugPinForLease_true (congrArg Prod.snd hpin)
      rw [congrArg Prod.fst hpin] at hlease'
      have hnext : database.nextDatabaseGeneration = s.database.nextDatabaseGeneration := by
        have hfst : (s.database.setDebugPinForLease served' pinned).1 = database := congrArg Prod.fst hpin
        rw [← hfst, WorkspaceDatabase.setDebugPinForLease_next]
      exact follows_finishCall hlt hu rfl rfl
        (.pinned lease pinned purpose served' result hlease hu hgeneration hlease' hnext)
        (issues_of_pinned rfl hlease hlease')
    · cases h
      exact follows_finishCall hlt hu rfl rfl (.same rfl le_rfl) (issues_of_handle_eq rfl rfl)

theorem follows_dropCall : Follows s (dropCall s u) u := by
  have hhandle : (dropCall s u).database.handle = s.database.handle := by
    simp only [dropCall]
    split_ifs <;> rfl
  have hnext : (dropCall s u).database.nextDatabaseGeneration = s.database.nextDatabaseGeneration := by
    simp only [dropCall]
    split_ifs <;> rfl
  have hcall : (dropCall s u).call = Function.update s.call u none := by
    simp only [dropCall]
    split_ifs <;> rfl
  refine ⟨.same hhandle hnext.ge, issues_of_handle_eq ?_ hhandle, ?_, ?_, ?_⟩
  · simp only [dropCall]
    split_ifs <;> rfl
  · simp only [dropCall]
    split_ifs <;> exact le_rfl
  · intro v hne _
    rw [hcall, Function.update_of_ne hne]
  · intro v d hv
    left
    rw [hcall] at hv
    by_cases heq : v = u
    · subst heq
      rw [Function.update_self] at hv
      cases hv
    · rwa [Function.update_of_ne heq] at hv

theorem follows_next (hs : Sound s) {choice : Choice} (hu : s.call u = some c)
    (h : next cfg s u c choice = some s') : Follows s s' u := by
  have hlt := hs.lt u c hu
  unfold next at h
  split at h
  · exact follows_leaseForOpen hlt h
  · cases h
    cases hlease : s.database.handle with
    | none =>
      exact follows_goto hlt rfl rfl (.same hlease.symm le_rfl) (issues_of_handle_eq rfl hlease.symm) (.quiet rfl rfl)
    | some lease =>
      refine follows_goto hlt rfl rfl (.taken lease hlease rfl rfl) ?_ (.quiet rfl rfl)
      refine issues_of_no_token rfl ?_
      intro lease' hlease'
      cases hlease'
  · cases h
    exact follows_acquire hlt
  · cases h
    exact follows_openAnswered hlt
  · exact follows_grant hlt hs h
  · cases h
    exact follows_spawn hs hu
  · exact follows_closeAuthorized hlt h
  · exact follows_takeHandle hlt h
  · cases h
    exact follows_goto_same hlt (.quiet rfl rfl)
  · cases h
    exact follows_reapDecision hlt
  · exact follows_requiredHandle hlt h
  · cases h
    exact follows_answered hlt hu
  · exact follows_clearHandle hlt hu h
  · exact follows_complete hlt hu h
  · next owner full =>
    cases h
    have hspawned : Follows s _ u := follows_spawnAnalyzeFuncsTask u owner full
    exact hspawned.goto (Nat.lt_of_lt_of_le hlt hspawned.nextCall) (.quiet rfl rfl)
  · cases h

def Action.actor (s : State) : Action → CallId
  | start _ => s.nextCall
  | run u _ | drop u => u

theorem follows_step (hs : Sound s) {a : Action} (h : step cfg s a = some s') :
    Follows s s' (a.actor s) := by
  cases a with
  | start request =>
    simp only [step, Option.some.injEq] at h
    subst h
    cases request with
    | closeIdb sessionId token force =>
      simp only [Request.position]
      split_ifs <;> exact follows_addCall rfl rfl
    | _ => exact follows_addCall rfl rfl
  | run u choice =>
    simp only [step] at h
    obtain ⟨c, hu, h⟩ := Option.bind_eq_some_iff.mp h
    exact follows_next hs hu h
  | drop u =>
    simp only [step] at h
    split at h
    · split_ifs at h
      cases h
      exact follows_dropCall
    · cases h

theorem sound_of_reachable {sharedHttp : Bool} (h : Reachable (step cfg) (initial sharedHttp) s) :
    Sound s :=
  invariant_of_reachable (fun _ _ _ hs hstep => hs.follows (follows_step hs hstep))
    (sound_initial sharedHttp) h

end IdaMcp.Handle
