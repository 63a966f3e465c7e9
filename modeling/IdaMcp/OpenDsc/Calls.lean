import IdaMcp.OpenDsc.Step

namespace IdaMcp.OpenDsc

open Foundation Handle Tasks

variable {cfg : Config} {plan : Plan} {s s' t : State} {u v : CallId} {c d : Handle.Call} {g : ℕ}
  {db : Handle.State} {a : Handle.Action}

namespace State

def installed (s : State) (g : ℕ) : Bool := s.handle.database.handle.any fun lease => lease.generation == g

def owns (s : State) (g : ℕ) : Bool := s.openCall.any fun u => s.installer g == some u

end State

/-- Whether the run gives up after its open, when it goes on: it is cancelled, or the call that it awaits
has failed and its worker is not lost. -/
def givesUp (plan : Plan) (s : State) : Bool :=
  let cancelled := plan.background && s.cancelled
  match s.position with
  | .opening _ | .nextFramework _ (_ :: _) | .fetchingStatus _ _ | .granting _ => cancelled
  | .loadingModule generation u =>
    match returnedTo s loadTool generation u with
    | some (.error (.notSupported _)) => plan.background
    | some (.error error) => !error.isFatal
    | _ => cancelled
  | .loadingFramework generation u _ _ =>
    match returnedTo s loadTool generation u with
    | some (.error error) => !error.isFatal
    | _ => cancelled
  | .deciding _ => plan.background && (s.cancelled || s.task.cancelRequested.isSome)
  | _ => false

def current (s : State) : Option ℕ :=
  match s.position with
  | .opening u =>
    match openedBy s u with
    | some (.ok generation) => some generation
    | _ => none
  | position => position.generation

/-- A background run that gives up has opened its generation itself, and a direct run has not, or the
generation is gone already; and an open that has joined the generation of another does not end with an
error that closes it. -/
def guarded (cfg : Config) (plan : Plan) (s : State) : Action → Bool
  | .advance _ _ =>
    !givesUp plan s || (current s).all fun g => !s.installed g || (s.owns g == plan.background)
  | .handle (.run u (.answered outcome)) =>
    match s.handle.call u with
    | some (.opening _ served freshLease) =>
      s.openCall != some u || !s.installed served.generation || s.owns served.generation ||
        match openResult cfg outcome with
        | .error error => !openErrorReleasesLease freshLease error
        | .ok _ => true
    | _ => true
  | _ => true

def Guarded (cfg : Config) (plan : Plan) (s : State) (a : Action) : Prop := guarded cfg plan s a = true

instance (s : State) (a : Action) : Decidable (Guarded cfg plan s a) :=
  inferInstanceAs (Decidable (_ = true))

def opens : Handle.Call → Option ℕ
  | .opening _ served true => some served.generation
  | .granting _ generation _ | .spawning _ generation _ _ | .takeHandle (some generation) _ _ =>
    some generation
  | _ => none

def grants : Handle.Call → Option ℕ
  | .granting _ generation _ | .spawning _ generation _ _ => some generation
  | _ => none

/-- What the open of a run may be about to do; it closes no generation but its own. -/
def Phase (s : State) (u : CallId) : Handle.Call → Prop
  | .granting _ generation _ | .spawning _ generation _ _ =>
    generation ≤ s.handle.database.nextDatabaseGeneration
  | .takeHandle (some generation) _ _ => generation ≤ s.handle.database.nextDatabaseGeneration ∧
      (s.installer generation = some u ∨ s.handle.Gone generation)
  | .leaseForOpen _ | .settleStale _ | .acquire _ | .opening _ _ _ | .releasing _ _ | .closed _ => True
  | _ => False

/-- The open was never dispatched, so that it has not opened the generation that it has installed. -/
def NeverDispatched (c : Handle.Call) : Prop := ∃ error, c = .closed (.error error) ∧ error.wasNeverDispatched = true

structure OpenPhase (s : State) (u : CallId) (c : Handle.Call) : Prop where
  phase : Phase s u c
  installer : ∀ g, s.installer g = some u → opens c = some g ∨ s.handle.Gone g ∨ NeverDispatched c

def ClosePhase (s : State) (g : ℕ) : Handle.Call → Prop
  | .takeHandle expected _ _ => expected = some g
  | .releasing _ _ | .closed _ => s.handle.Gone g
  | _ => False

def Opened (s : State) (g : ℕ) : Prop :=
  ∃ u c, s.openCall = some u ∧ s.handle.call u = some c ∧ grants c = some g

def Dispatched (s : State) (u : CallId) : Prop :=
  ∃ c purpose, s.handle.call u = some c ∧ c.purpose = some purpose

def Placed (s : State) : Position → Prop
  | .waiting | .preparing => s.openCall = none
  | .opening u => s.openCall = some u
  | .loadingModule g u | .loadingFramework g u _ _ | .fetchingStatus g u => Opened s g ∧ Dispatched s u
  | .nextFramework g _ | .granting g | .deciding g => Opened s g
  | .closing g u _ => Opened s g ∧ (s.owns g = true ∨ s.handle.Gone g) ∧
      ∃ c, s.handle.call u = some c ∧ ClosePhase s g c
  | .ended (some g) true => Opened s g ∧ (s.owns g = true → s.handle.Gone g)
  | .ended none true => ∀ u, s.openCall = some u → ∃ error, s.handle.call u = some (.closed (.error error))
  | .ended _ false => True

structure Sound (plan : Plan) (s : State) : Prop where
  handle : Handle.Sound s.handle
  honest : Honest s.handle
  installers : ∀ g u, s.installer g = some u →
    g ≤ s.handle.database.nextDatabaseGeneration ∧ u < s.handle.nextCall
  openPhase : ∀ u, s.openCall = some u → ∃ c, s.handle.call u = some c ∧ OpenPhase s u c
  placed : Placed s s.position
  running : (∀ g error, s.position ≠ .ended g error) → s.task.isRunning = true
  succeeded : ∀ g, s.position = .ended g false → s.task.state.status ≠ .failed ∧ s.task.state.status ≠ .cancelled

theorem sound_initial (sharedHttp : Bool) (plan : Plan) : Sound plan (initial sharedHttp plan) where
  handle := Handle.sound_initial sharedHttp
  honest := honest_initial sharedHttp
  installers := by
    intro g u h
    cases h
  openPhase := by
    intro u h
    cases h
  placed := rfl
  running := fun _ => rfl
  succeeded := nofun

theorem Opened.le (hs : Sound plan s) (h : Opened s g) : g ≤ s.handle.database.nextDatabaseGeneration := by
  obtain ⟨u, c, hopen, hu, hgrants⟩ := h
  obtain ⟨d, hd, hphase⟩ := hs.openPhase u hopen
  rw [hu, Option.some.injEq] at hd
  subst hd
  cases c with
  | granting | spawning =>
    cases hgrants
    exact hphase.phase
  | _ => cases hgrants

theorem Opened.owns (hs : Sound plan s) (h : Opened s g) {generation : ℕ} (howns : s.owns generation = true) :
    generation = g ∨ s.handle.Gone generation := by
  obtain ⟨u, c, hopen, hu, hgrants⟩ := h
  obtain ⟨d, hd, hphase⟩ := hs.openPhase u hopen
  rw [hu, Option.some.injEq] at hd
  subst hd
  rw [State.owns, hopen, Option.any_some, beq_iff_eq] at howns
  rcases hphase.installer generation howns with hopens | hgone | ⟨error, rfl, -⟩
  · left
    cases c with
    | granting | spawning =>
      cases hgrants
      cases hopens
      rfl
    | _ => cases hgrants
  · exact .inr hgone
  · cases hgrants

theorem gone_of_not_installed (hle : g ≤ s.handle.database.nextDatabaseGeneration)
    (h : s.installed g = false) : s.handle.Gone g := by
  refine ⟨hle, ?_⟩
  intro lease hlease heq
  have hinstalled : s.installed g = true := by
    rw [State.installed, hlease, Option.any_some, beq_iff_eq]
    exact heq
  rw [h] at hinstalled
  cases hinstalled

def after (s : State) (a : Handle.Action) (db : Handle.State) : State :=
  { s with handle := db, installer := installerAfter s a db }

theorem installer_after (h : (after s a db).installer g = some u) : s.installer g = some u ∨
    (u = a.actor s.handle ∧ s.handle.database.nextDatabaseGeneration < g ∧
      ∃ lease, db.database.handle = some lease ∧ lease.generation = g) := by
  change installerAfter s a db g = some u at h
  unfold installerAfter at h
  cases hlease : db.database.handle with
  | none =>
    rw [hlease] at h
    exact .inl h
  | some lease =>
    rw [hlease] at h
    dsimp only at h
    split_ifs at h with hnew
    · by_cases heq : g = lease.generation
      · subst heq
        rw [Function.update_self, Option.some.injEq] at h
        exact .inr ⟨h.symm, hnew, lease, rfl, rfl⟩
      · rw [Function.update_of_ne heq] at h
        exact .inl h
    · exact .inl h

theorem installerAfter_of_le (hle : g ≤ s.handle.database.nextDatabaseGeneration) :
    installerAfter s a db g = s.installer g := by
  unfold installerAfter
  cases db.database.handle with
  | none => rfl
  | some lease =>
    dsimp only
    split_ifs with hnew
    · exact Function.update_of_ne (by omega) ..
    · rfl

theorem handleStep_eq_some (h : handleStep cfg s a = some t) :
    ∃ db, Handle.step cfg s.handle a = some db ∧ t = after s a db := by
  obtain ⟨db, hdb, rfl⟩ := Option.map_eq_some_iff.mp h
  exact ⟨db, hdb, rfl⟩

section HandleStep

variable (hs : Sound plan s) (hdb : Handle.step cfg s.handle a = some db)

theorem owns_after (hle : g ≤ s.handle.database.nextDatabaseGeneration) :
    (after s a db).owns g = s.owns g := by
  unfold State.owns after
  dsimp only
  rw [installerAfter_of_le hle]

include hs hdb

theorem follows_handle : Follows s.handle db (a.actor s.handle) := follows_step hs.handle hdb

theorem next_le_handle : s.handle.database.nextDatabaseGeneration ≤ db.database.nextDatabaseGeneration :=
  (follows_handle hs hdb).next_le

theorem gone_after (hgone : s.handle.Gone g) : db.Gone g := hgone.follows (follows_handle hs hdb)

theorem actor_lt : a.actor s.handle < db.nextCall := by
  have hnext := (follows_handle hs hdb).nextCall
  cases a with
  | start request =>
    simp only [Handle.step, Option.some.injEq] at hdb
    subst hdb
    exact Nat.lt_succ_self _
  | run u choice =>
    obtain ⟨c, hu, -⟩ := Option.bind_eq_some_iff.mp hdb
    exact Nat.lt_of_lt_of_le (hs.handle.lt u c hu) hnext
  | drop u =>
    simp only [Handle.step] at hdb
    split at hdb
    · next c hu => exact Nat.lt_of_lt_of_le (hs.handle.lt u c hu) hnext
    · cases hdb

theorem installers_after (h : (after s a db).installer g = some u) :
    g ≤ db.database.nextDatabaseGeneration ∧ u < db.nextCall := by
  have hfollows := follows_handle hs hdb
  rcases installer_after h with hold | ⟨rfl, -, lease, hlease, rfl⟩
  · obtain ⟨hle, hlt⟩ := hs.installers g u hold
    exact ⟨le_trans hle hfollows.next_le, Nat.lt_of_lt_of_le hlt hfollows.nextCall⟩
  · refine ⟨?_, actor_lt hs hdb⟩
    apply (hs.handle.follows hfollows).bounded lease.served
    left
    rw [hlease, Option.map_some]

theorem Phase.after (h : Phase s u c) : Phase (after s a db) u c := by
  have hnext := next_le_handle hs hdb
  cases c with
  | granting | spawning => exact le_trans h hnext
  | takeHandle expected absent taken =>
    cases expected with
    | none => exact h
    | some generation =>
      obtain ⟨hle, howner⟩ := h
      refine ⟨le_trans hle hnext, ?_⟩
      rcases howner with howner | hgone
      · left
        exact (installerAfter_of_le hle).trans howner
      · exact .inr (gone_after hs hdb hgone)
  | _ => exact h

theorem OpenPhase.after (h : OpenPhase s u c) (hactor : u ≠ a.actor s.handle) :
    OpenPhase (after s a db) u c where
  phase := h.phase.after hs hdb
  installer := by
    intro g hg
    rcases installer_after hg with hold | ⟨heq, -⟩
    · rcases h.installer g hold with hopens | hgone | hnever
      · exact .inl hopens
      · exact .inr (.inl (gone_after hs hdb hgone))
      · exact .inr (.inr hnever)
    · exact absurd heq hactor

theorem ClosePhase.after (h : ClosePhase s g c) : ClosePhase (after s a db) g c := by
  cases c with
  | releasing | closed => exact gone_after hs hdb h
  | _ => exact h

theorem call_handle (hu : s.handle.call u = some c) (hactor : u ≠ a.actor s.handle) :
    db.call u = some c := by
  rw [← hu]
  exact (follows_handle hs hdb).others u hactor (hs.handle.lt u c hu)

theorem call_closed {result : Except ToolError Closed} (hu : s.handle.call u = some (.closed result)) :
    db.call u = some (.closed result) := by
  apply call_handle hs hdb hu
  rintro rfl
  cases a with
  | start request => exact (hs.handle.lt _ _ hu).ne rfl
  | run v choice =>
    change s.handle.call v = _ at hu
    simp only [Handle.step, hu, Option.bind_some, Handle.next] at hdb
    cases hdb
  | drop v =>
    change s.handle.call v = _ at hu
    simp only [Handle.step, hu, Handle.Call.settled, Bool.or_true, if_true] at hdb
    cases hdb

end HandleStep

theorem OpenPhase.next (hs : Sound plan s) (hdb : Handle.step cfg s.handle a = some db)
    (hphase : OpenPhase s u c) (hphase' : Phase (OpenDsc.after s a db) u d)
    (hnext : db.database.nextDatabaseGeneration = s.handle.database.nextDatabaseGeneration)
    (hclosed : ¬NeverDispatched c)
    (hopens : ∀ g, opens c = some g → opens d = some g ∨ db.Gone g ∨ NeverDispatched d) :
    OpenPhase (OpenDsc.after s a db) u d where
  phase := hphase'
  installer := by
    intro g hg
    rcases installer_after hg with hold | ⟨-, hlt, -⟩
    · rcases hphase.installer g hold with hopens' | hgone | hnever
      · exact hopens g hopens'
      · exact .inr (.inl (gone_after hs hdb hgone))
      · exact absurd hnever hclosed
    · have hle := (installers_after hs hdb hg).1
      omega

theorem openPhase_acquire (hs : Sound plan s) {client : Client}
    {outcome : Except ToolError Pool.PooledWorkerHandle} (hu : s.handle.call u = some (.acquire client)) (hphase : OpenPhase s u (.acquire client))
    (hdb : Handle.step cfg s.handle (.run u (.leased outcome)) = some db) :
    ∃ d, db.call u = some d ∧ OpenPhase (after s (.run u (.leased outcome)) db) u d := by
  have hstep := hdb
  simp only [Handle.step, hu, Option.bind_some, Handle.next, Option.some.injEq] at hstep
  have hgone : ∀ g, s.installer g = some u → s.handle.Gone g := by
    intro g hg
    rcases hphase.installer g hg with hopens | hgone | ⟨error, h, -⟩
    · cases hopens
    · exact hgone
    · cases h
  unfold Handle.acquire at hstep
  split at hstep
  · subst hstep
    refine ⟨_, Function.update_self .., hphase.next hs hdb trivial rfl ?_ ?_⟩
    · rintro ⟨error, h, -⟩
      cases h
    · intro g h
      cases h
  · dsimp only at hstep
    split at hstep
    · subst hstep
      refine ⟨_, Function.update_self .., trivial, ?_⟩
      intro g hg
      rcases installer_after hg with hold | ⟨-, hlt, lease, hlease, rfl⟩
      · exact .inr (.inl (gone_after hs hdb (hgone g hold)))
      · exfalso
        change s.handle.database.handle = some lease at hlease
        have hle := hs.handle.bounded lease.served (.inl (by rw [hlease, Option.map_some]))
        change lease.generation ≤ _ at hle
        omega
    · subst hstep
      refine ⟨_, Function.update_self .., trivial, ?_⟩
      intro g hg
      rcases installer_after hg with hold | ⟨-, -, lease, hlease, rfl⟩
      · exact .inr (.inl (gone_after hs hdb (hgone g hold)))
      · left
        cases hlease
        rfl

theorem openPhase_next (hs : Sound plan s) {choice : Choice} (hu : s.handle.call u = some c)
    (hopen : s.openCall = some u) (hphase : OpenPhase s u c)
    (hok : Guarded cfg plan s (.handle (.run u choice))) (hgrants : grants c = none)
    (hdb : Handle.step cfg s.handle (.run u choice) = some db) :
    ∃ d, db.call u = some d ∧ OpenPhase (after s (.run u choice) db) u d := by
  have hstep := hdb
  simp only [Handle.step, hu, Option.bind_some] at hstep
  have hquiet {d : Handle.Call} (hd : db.call u = some d) (hphase' : Phase (after s (.run u choice) db) u d)
      (hnext : db.database.nextDatabaseGeneration = s.handle.database.nextDatabaseGeneration)
      (hopens : opens c = none) (hclosed : ∀ result, c ≠ .closed result) :
      ∃ d, db.call u = some d ∧ OpenPhase (after s (.run u choice) db) u d := by
    refine ⟨d, hd, ?_⟩
    apply hphase.next hs hdb hphase' hnext
    · rintro ⟨error, h, -⟩
      exact hclosed _ h
    · intro g h
      rw [hopens] at h
      cases h
  unfold Handle.next at hstep
  split at hstep
  · unfold Handle.leaseForOpen at hstep
    rw [Option.ite_none_right_eq_some] at hstep
    obtain ⟨-, hstep⟩ := hstep
    split at hstep
    · split_ifs at hstep <;> cases hstep <;>
        exact hquiet (Function.update_self ..) trivial rfl rfl (by intro result h; cases h)
    · cases hstep
      exact hquiet (Function.update_self ..) trivial rfl rfl (by intro result h; cases h)
  · cases hstep
    exact hquiet (Function.update_self ..) trivial rfl rfl (by intro result h; cases h)
  · exact openPhase_acquire hs hu hphase hdb
  · next client served freshLease outcome =>
    have hle : served.generation ≤ s.handle.database.nextDatabaseGeneration :=
      hs.handle.bounded served (.inr ⟨u, _, hu, rfl⟩)
    have hfresh : ∀ g, opens (.opening client served freshLease) = some g →
        freshLease = true ∧ g = served.generation := by
      intro g hg
      cases freshLease with
      | false => cases hg
      | true =>
        cases hg
        exact ⟨rfl, rfl⟩
    cases hstep
    have hnever : ¬NeverDispatched (.opening client served freshLease) := by
      rintro ⟨error, h, -⟩
      cases h
    revert hdb
    unfold Handle.openAnswered
    split
    · intro hdb
      refine ⟨_, Function.update_self .., hphase.next hs hdb hle rfl hnever ?_⟩
      intro g hg
      obtain ⟨-, rfl⟩ := hfresh g hg
      exact .inl rfl
    · next error herror =>
      split_ifs with hreleases
      · intro hdb
        refine ⟨_, Function.update_self .., hphase.next hs hdb ?_ rfl hnever ?_⟩
        · refine ⟨hle, ?_⟩
          simp only [Guarded, guarded, hu, herror, hopen, hreleases, Bool.or_eq_true, bne_self_eq_false,
            Bool.not_true, Bool.false_eq_true, or_false, false_or, Bool.not_eq_true'] at hok
          rcases hok with hnot | howns
          · exact .inr (gone_of_not_installed hle hnot)
          · left
            rw [State.owns, hopen, Option.any_some, beq_iff_eq] at howns
            exact (installerAfter_of_le hle).trans howns
        · intro g hg
          obtain ⟨-, rfl⟩ := hfresh g hg
          exact .inl rfl
      · intro hdb
        refine ⟨_, Function.update_self .., hphase.next hs hdb trivial rfl hnever ?_⟩
        intro g hg
        obtain ⟨rfl, -⟩ := hfresh g hg
        refine .inr (.inr ⟨error, rfl, ?_⟩)
        unfold openErrorReleasesLease at hreleases
        split_ifs at hreleases with hdispatched
        · exact hdispatched
        · exact absurd rfl hreleases
  · cases hgrants
  · cases hgrants
  · exact hphase.phase.elim
  · next expected absent taken =>
    cases expected with
    | none => exact hphase.phase.elim
    | some generation =>
      obtain ⟨hgone, hnext, d, hd, hcases⟩ := gone_takeHandle hphase.phase.1 hstep
      refine ⟨d, hd, hphase.next hs hdb ?_ hnext ?_ ?_⟩
      · rcases hcases with ⟨lease, rfl⟩ | rfl
        · trivial
        · trivial
      · rintro ⟨error, h, -⟩
        cases h
      · intro g hg
        cases hg
        exact .inr (.inl hgone)
  · cases hstep
    exact hquiet (Function.update_self ..) trivial rfl rfl (by intro result h; cases h)
  · exact hphase.phase.elim
  · exact hphase.phase.elim
  · exact hphase.phase.elim
  · exact hphase.phase.elim
  · exact hphase.phase.elim
  · exact hphase.phase.elim
  · cases hstep

theorem closePhase_next (hle : g ≤ s.handle.database.nextDatabaseGeneration) {choice : Choice}
    (hphase : ClosePhase s g c) (hdb : Handle.next cfg s.handle u c choice = some db) :
    ∃ d, db.call u = some d ∧ ClosePhase (after s a db) g d := by
  unfold Handle.next at hdb
  split at hdb
  · exact hphase.elim
  · exact hphase.elim
  · exact hphase.elim
  · exact hphase.elim
  · exact hphase.elim
  · exact hphase.elim
  · exact hphase.elim
  · next expected absent taken =>
    change expected = some g at hphase
    subst hphase
    obtain ⟨hgone, -, d, hd, hcases⟩ := gone_takeHandle hle hdb
    refine ⟨d, hd, ?_⟩
    rcases hcases with ⟨lease, rfl⟩ | rfl
    · exact hgone
    · exact hgone
  · cases hdb
    exact ⟨_, Function.update_self .., hphase⟩
  · exact hphase.elim
  · exact hphase.elim
  · exact hphase.elim
  · exact hphase.elim
  · exact hphase.elim
  · exact hphase.elim
  · cases hdb

theorem dispatched_next {choice : Choice} {purpose : Purpose} (hpurpose : c.purpose = some purpose)
    (hdb : Handle.next cfg s.handle u c choice = some db) :
    ∃ d, db.call u = some d ∧ d.purpose = some purpose := by
  unfold Handle.next at hdb
  split at hdb
  all_goals first | cases hpurpose; done | skip
  · unfold Handle.requiredHandle at hdb
    rw [Option.ite_none_right_eq_some] at hdb
    obtain ⟨-, hdb⟩ := hdb
    split at hdb <;> cases hdb <;> exact ⟨_, Function.update_self .., hpurpose⟩
  · cases hdb
    unfold Handle.answered
    split <;> exact ⟨_, Function.update_self .., hpurpose⟩
  · unfold Handle.clearHandle at hdb
    rw [Option.ite_none_right_eq_some] at hdb
    obtain ⟨-, hdb⟩ := hdb
    cases hdb
    exact ⟨_, Function.update_self .., hpurpose⟩
  · unfold Handle.complete at hdb
    dsimp only at hdb
    split at hdb
    · cases hdb
      exact ⟨_, Function.update_self .., hpurpose⟩
    · rw [Option.ite_none_right_eq_some] at hdb
      obtain ⟨-, hdb⟩ := hdb
      split at hdb <;> cases hdb <;> exact ⟨_, Function.update_self .., hpurpose⟩
  · cases hdb

theorem actor_cases (hs : Sound plan s) (hdb : Handle.step cfg s.handle a = some db)
    (hu : s.handle.call u = some c) (hdrop : a ≠ .drop u) : db.call u = some c ∧ u ≠ a.actor s.handle ∨
      ∃ choice, a = .run u choice ∧ Handle.next cfg s.handle u c choice = some db := by
  by_cases hactor : u = a.actor s.handle
  · right
    cases a with
    | start request =>
      exfalso
      exact (hs.handle.lt u c hu).ne hactor
    | run v choice =>
      change u = v at hactor
      subst hactor
      simp only [Handle.step, hu, Option.bind_some] at hdb
      exact ⟨choice, rfl, hdb⟩
    | drop v =>
      change u = v at hactor
      subst hactor
      exact absurd rfl hdrop
  · exact .inl ⟨call_handle hs hdb hu hactor, hactor⟩

section Placed

variable (hs : Sound plan s) (hdb : Handle.step cfg s.handle a = some db)
include hs hdb

theorem dispatched_after (h : Dispatched s u) (hdrop : a ≠ .drop u) : Dispatched (after s a db) u := by
  obtain ⟨c, purpose, hu, hpurpose⟩ := h
  rcases actor_cases hs hdb hu hdrop with ⟨hkept, -⟩ | ⟨choice, rfl, hnext⟩
  · exact ⟨c, purpose, hkept, hpurpose⟩
  · obtain ⟨d, hd, hpurpose'⟩ := dispatched_next hpurpose hnext
    exact ⟨d, purpose, hd, hpurpose'⟩

theorem close_after (hle : g ≤ s.handle.database.nextDatabaseGeneration) (hdrop : a ≠ .drop u)
    (h : ∃ c, s.handle.call u = some c ∧ ClosePhase s g c) :
    ∃ c, (after s a db).handle.call u = some c ∧ ClosePhase (after s a db) g c := by
  obtain ⟨c, hu, hphase⟩ := h
  rcases actor_cases hs hdb hu hdrop with ⟨hkept, -⟩ | ⟨choice, rfl, hnext⟩
  · exact ⟨c, hkept, hphase.after hs hdb⟩
  · exact closePhase_next hle hphase hnext

theorem ownsOrGone_after (hle : g ≤ s.handle.database.nextDatabaseGeneration)
    (h : s.owns g = true ∨ s.handle.Gone g) : (after s a db).owns g = true ∨ (after s a db).handle.Gone g := by
  rcases h with howns | hgone
  · left
    rw [owns_after hle]
    exact howns
  · exact .inr (gone_after hs hdb hgone)

theorem placed_after (hopened : ∀ g, Opened s g → Opened (after s a db) g)
    (hdrop : ∀ u, s.position.awaits = some u → a ≠ .drop u) : Placed (after s a db) s.position := by
  have hplaced := hs.placed
  cases hposition : s.position with
  | waiting | preparing | opening u =>
    rw [hposition] at hplaced
    exact hplaced
  | loadingModule g u | loadingFramework g u framework rest | fetchingStatus g u =>
    rw [hposition] at hplaced
    have hawaits := hdrop u (by rw [hposition]; rfl)
    exact ⟨hopened g hplaced.1, dispatched_after hs hdb hplaced.2 hawaits⟩
  | nextFramework g rest | granting g | deciding g =>
    rw [hposition] at hplaced
    exact hopened g hplaced
  | closing g u reason =>
    rw [hposition] at hplaced
    obtain ⟨hopen, howns, hclose⟩ := hplaced
    have hawaits := hdrop u (by rw [hposition]; rfl)
    have hle := hopen.le hs
    exact ⟨hopened g hopen, ownsOrGone_after hs hdb hle howns, close_after hs hdb hle hawaits hclose⟩
  | ended generation error =>
    rw [hposition] at hplaced
    cases error with
    | false =>
      cases generation with
      | none => trivial
      | some g => trivial
    | true =>
      cases generation with
      | none =>
        intro u hu
        obtain ⟨error, hclosed⟩ := hplaced u hu
        exact ⟨error, call_closed hs hdb hclosed⟩
      | some g =>
        obtain ⟨hopen, hgone⟩ := hplaced
        refine ⟨hopened g hopen, ?_⟩
        intro howns
        rw [owns_after (hopen.le hs)] at howns
        exact gone_after hs hdb (hgone howns)

theorem sound_after (hopenPhase : ∀ u, s.openCall = some u →
      ∃ c, db.call u = some c ∧ OpenPhase (after s a db) u c)
    (hopened : ∀ g, Opened s g → Opened (after s a db) g)
    (hdrop : ∀ u, s.position.awaits = some u → a ≠ .drop u) : Sound plan (after s a db) where
  handle := hs.handle.follows (follows_handle hs hdb)
  honest := honest_step hs.handle hs.honest hdb
  installers := by
    intro g u h
    exact installers_after hs hdb h
  openPhase := hopenPhase
  placed := placed_after hs hdb hopened hdrop
  running := hs.running
  succeeded := hs.succeeded

end Placed

theorem sound_handle (hs : Sound plan s) (hallowed : allows s a = true)
    (hok : Guarded cfg plan s (.handle a)) (hdb : Handle.step cfg s.handle a = some db) :
    Sound plan (after s a db) := by
  have hdrop : ∀ u, s.openCall = some u ∨ s.position.awaits = some u → a ≠ .drop u := by
    rintro u hu rfl
    simp only [allows, ne_eq, Bool.and_eq_true, decide_eq_true_eq] at hallowed
    rcases hu with hu | hu
    · exact hallowed.1 hu
    · exact hallowed.2 hu
  have hgrants : ∀ u choice c, a = .run u choice → s.openCall = some u → s.handle.call u = some c →
      grants c = none := by
    rintro u choice c rfl hopen hu
    simp only [allows, hu] at hallowed
    cases c with
    | granting | spawning =>
      simp only [ne_eq, decide_eq_true_eq] at hallowed
      exact absurd hopen hallowed
    | _ => rfl
  apply sound_after hs hdb
  · intro u hopen
    obtain ⟨c, hu, hphase⟩ := hs.openPhase u hopen
    rcases actor_cases hs hdb hu (hdrop u (.inl hopen)) with ⟨hkept, hactor⟩ | ⟨choice, rfl, hnext⟩
    · exact ⟨c, hkept, hphase.after hs hdb hactor⟩
    · exact openPhase_next hs hu hopen hphase hok (hgrants u choice c rfl hopen hu) hdb
  · rintro g ⟨u, c, hopen, hu, hg⟩
    rcases actor_cases hs hdb hu (hdrop u (.inl hopen)) with ⟨hkept, -⟩ | ⟨choice, rfl, -⟩
    · exact ⟨u, c, hopen, hkept, hg⟩
    · rw [hgrants u choice c rfl hopen hu] at hg
      cases hg
  · intro u hu
    exact hdrop u (.inr hu)

end IdaMcp.OpenDsc
