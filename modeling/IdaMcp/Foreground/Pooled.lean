import IdaMcp.Foreground.Operation
import IdaMcp.Handle.Loss

namespace IdaMcp.Foreground

open Foundation Handle Remote Tasks

inductive Dispatch
  | admission
  | executing
  | settled (outcome : Except ToolError CallToolResult)

/-- An `open_idb` on a workspace database that it shares with the calls of other clients. -/
structure Pooled where
  handle : Handle.State
  own : CallId
  dispatch : Dispatch
  cancelled : Bool
  /-- The generation that the call has installed. -/
  created : Option ℕ
  /-- The generations that other opens have returned. -/
  joined : List ℕ

namespace Pooled

inductive Action
  | handle (a : Handle.Action)
  | cancelAdmission
  | refuse (error : ToolError)
  | dispatch
  | kill
  | reply (outcome : Except ToolError CallToolResult)
  | settle

def cancelledBeforeDispatch : ToolError :=
  .neverDispatched ("cancelled open_idb before dispatch to the IDA worker; the worker and its database " ++
    "are unaffected")

def workerKilled (workerId : ℕ) : ToolError :=
  .workerRetired ("cancelled open_idb; killed worker " ++ toString workerId ++ ". The database it held is " ++
    "no longer open and changes since the last save_idb are lost; call open_idb again")

def start (h : Handle.State) (client : Client) : Pooled where
  handle := h.addCall (.leaseForOpen client)
  own := h.nextCall
  dispatch := .admission
  cancelled := false
  created := none
  joined := []

variable (cfg : Config) (s : Pooled)

def opening : Option Served :=
  match s.handle.call s.own with
  | some (.opening _ served _) => some served
  | _ => none

/-- The call itself waits for the worker, and then for the server; no other client drops it. -/
def allows (a : Handle.Action) : Bool :=
  match a with
  | .start _ => true
  | .drop u => u ≠ s.own
  | .run u _ =>
    match s.handle.call u with
    | some (.opening _ _ _) | some (.granting _ _ _) | some (.spawning _ _ _ _) => u ≠ s.own
    | _ => true

def createdBy (created : Option ℕ) : Option Call → Option ℕ
  | some (.opening _ served true) => some served.generation
  | _ => created

def observe (a : Handle.Action) (h : Handle.State) : Pooled :=
  { s with
    handle := h
    created := createdBy s.created (h.call s.own)
    joined :=
      match h.call (a.actor s.handle) with
      | some (.granting _ generation _) =>
        if a.actor s.handle = s.own then s.joined else generation :: s.joined
      | _ => s.joined }

def answer (outcome : Except ToolError CallToolResult) : Handle.Action := .run s.own (.answered outcome)

/-- The pool, the worker and the other clients go on. A call that is cancelled waits for its admission no
longer, and kills its worker unless the worker is to survive cancellations. -/
def step : Action → Option Pooled
  | .handle a => if allows s a then (Handle.step cfg s.handle a).map (observe s a) else none
  | .cancelAdmission =>
    match s.dispatch, s.opening with
    | .admission, some _ =>
      if s.cancelled then some { s with dispatch := .settled (.error cancelledBeforeDispatch) } else none
    | _, _ => none
  | .refuse error =>
    match s.dispatch, s.opening with
    | .admission, some _ => if s.cancelled then none else some { s with dispatch := .settled (.error error) }
    | _, _ => none
  | .dispatch =>
    match s.dispatch, s.opening with
    | .admission, some _ => if s.cancelled then none else some { s with dispatch := .executing }
    | _, _ => none
  | .kill =>
    match s.dispatch, s.opening with
    | .executing, some served =>
      if s.cancelled && !served.handle.preserveOnCancel then
        some { s with dispatch := .settled (.error (workerKilled served.handle.workerId)) }
      else none
    | _, _ => none
  | .reply outcome =>
    match s.dispatch, s.opening with
    | .executing, some served =>
      if s.cancelled && !served.handle.preserveOnCancel then none
      else some { s with dispatch := .settled outcome }
    | _, _ => none
  | .settle =>
    match s.dispatch, s.opening with
    | .settled outcome, some _ => (Handle.step cfg s.handle (answer s outcome)).map (observe s (answer s outcome))
    | _, _ => none

def result : Option (Except ToolError ℕ) :=
  match s.handle.call s.own with
  | some (.granting _ generation _) => some (.ok generation)
  | some (.closed (.error error)) => some (.error error)
  | _ => none

def installed (generation : ℕ) : Bool :=
  s.handle.database.handle.any fun lease => lease.generation == generation

/-- The drop of the future leaves the lease where it is, and retires its worker if it was dispatched. -/
def backend : Backend Pooled Action where
  step := step cfg
  result := result
  cancel s := { s with cancelled := true }
  drop s := { s with handle := dropCall s.handle s.own }

/-- The call holds a fresh lease, of a generation that no other open has returned. -/
def fresh : Bool :=
  match s.handle.call s.own with
  | some (.opening _ served true) => !s.joined.contains served.generation
  | _ => false

def closing : Bool :=
  match s.handle.call s.own with
  | some (.takeHandle (some generation) _ _) => !s.joined.contains generation
  | _ => false

/-- An open that ends so does not release its lease: it has succeeded, or was not dispatched. -/
def keepsLease (outcome : Except ToolError CallToolResult) : Bool :=
  match openResult cfg outcome with
  | .ok _ => true
  | .error error => !openErrorReleasesLease true error

/-- A call with a fresh lease is given up neither when its answer that keeps the lease is there, nor before
its dispatch; once it is given up no such answer comes, which only a worker that survives cancellations can
still give; and the cleanup window does not end before the call has ended or closed its lease. -/
def condition : Condition Pooled Action where
  giveUp s :=
    match s.dispatch with
    | .settled outcome => !(fresh s && keepsLease cfg outcome)
    | _ => true
  given s a :=
    match a with
    | .cancelAdmission => !fresh s
    | .reply outcome => !(fresh s && keepsLease cfg outcome)
    | _ => true
  expire s := !(fresh s || closing s)

variable {cfg s} {t : Pooled} {h h' : Handle.State} {u : CallId} {c d : Call} {g : ℕ} {created : Option ℕ}
  {joined : List ℕ} {givenUp : Bool}

def Path : Call → Prop
  | .leaseForOpen _ | .settleStale _ | .acquire _ | .opening _ _ _ | .granting _ _ _ => True
  | .takeHandle expected absent taken => ∃ generation error, expected = some generation ∧
      absent = .error error ∧ taken = .error error ∧ error.wasNeverDispatched = false
  | .releasing _ result | .closed result => ∃ error, result = .error error
  | _ => False

def Leaseless : Call → Prop
  | .leaseForOpen _ | .settleStale _ | .acquire _ => True
  | _ => False

def Unanswered : Call → Prop
  | .leaseForOpen _ | .settleStale _ | .acquire _ | .opening _ _ _ => True
  | _ => False

def Answers (givenUp : Bool) (g : ℕ) : Call → Prop
  | .opening _ served freshLease => freshLease = true ∧ served.generation = g
  | .takeHandle expected _ _ => expected = some g
  | .granting _ generation _ => givenUp = false ∧ generation = g
  | .closed result => givenUp = false ∧ ∃ error, result = .error error ∧ error.wasNeverDispatched = true
  | _ => False

def Kept (givenUp : Bool) (h : Handle.State) (created : Option ℕ) (joined : List ℕ) (c : Call) : Prop :=
  ∀ g, created = some g → g ≤ h.database.nextDatabaseGeneration ∧
    (Answers givenUp g c ∨ h.Gone g ∨ g ∈ joined)

theorem kept_follows {joined' : List ℕ} (hkept : Kept givenUp h created joined c)
    (hfollows : Follows h h' u) (hjoined : joined ⊆ joined')
    (hanswers : ∀ g, created = some g → Answers givenUp g c →
      Answers givenUp g d ∨ h'.Gone g ∨ g ∈ joined') : Kept givenUp h' created joined' d := by
  intro g hg
  obtain ⟨hle, hplace⟩ := hkept g hg
  refine ⟨le_trans hle hfollows.next_le, ?_⟩
  rcases hplace with hplace | hgone | hmem
  · exact hanswers g hg hplace
  · exact .inr (.inl (hgone.follows hfollows))
  · exact .inr (.inr (hjoined hmem))

theorem path_next (hs : Handle.Sound h) {choice : Choice} (hu : h.call u = some c) (hpath : Path c)
    (hkept : Kept givenUp h created joined c)
    (hgranting : ∀ client generation info, c ≠ .granting client generation info)
    (hkeeps : ∀ client served outcome, c = .opening client served true → choice = .answered outcome →
      givenUp = true → served.generation ∈ joined ∨ keepsLease cfg outcome = false)
    (hstep : next cfg h u c choice = some h') :
    ∃ d, h'.call u = some d ∧ Path d ∧ Kept givenUp h' (createdBy created (some d)) joined d ∧
      (Unanswered d → Leaseless c) := by
  have hfollows := follows_next hs hu hstep
  have hquiet {d : Call} (hd : h'.call u = some d) (hpath' : Path d)
      (hcreated : createdBy created (some d) = created) (hanswers : ∀ g, ¬Answers givenUp g c)
      (hearlier : Unanswered d → Leaseless c) :
      ∃ d, h'.call u = some d ∧ Path d ∧ Kept givenUp h' (createdBy created (some d)) joined d ∧
        (Unanswered d → Leaseless c) := by
    refine ⟨d, hd, hpath', ?_, hearlier⟩
    rw [hcreated]
    apply kept_follows hkept hfollows (List.Subset.refl _)
    intro g _ h
    exact (hanswers g h).elim
  unfold next at hstep
  split at hstep
  · unfold leaseForOpen at hstep
    rw [Option.ite_none_right_eq_some] at hstep
    obtain ⟨-, hstep⟩ := hstep
    split at hstep
    · split_ifs at hstep <;> cases hstep <;>
        exact hquiet (Function.update_self ..) trivial rfl (fun _ h => h) (fun _ => trivial)
    · cases hstep
      exact hquiet (Function.update_self ..) trivial rfl (fun _ h => h) (fun _ => trivial)
  · cases hstep
    exact hquiet (Function.update_self ..) trivial rfl (fun _ h => h) (fun _ => trivial)
  · next client outcome =>
    cases hstep
    revert hquiet hfollows
    unfold acquire
    split
    · intro hfollows hquiet
      exact hquiet (Function.update_self ..) ⟨_, rfl⟩ rfl (fun _ h => h) (fun _ => trivial)
    · dsimp only
      split
      · intro hfollows hquiet
        exact hquiet (Function.update_self ..) ⟨_, rfl⟩ rfl (fun _ h => h) (fun _ => trivial)
      · intro hfollows _
        refine ⟨_, Function.update_self .., trivial, ?_, fun _ => trivial⟩
        intro g hg
        cases hg
        exact ⟨le_rfl, .inl ⟨rfl, rfl⟩⟩
  · next client served freshLease outcome =>
    cases hstep
    -- An answer that keeps the lease comes only while the open is not given up.
    have hlenient (hfresh : freshLease = true) (hanswer : keepsLease cfg outcome = true) :
        givenUp = false ∨ served.generation ∈ joined := by
      subst hfresh
      cases hgiven : givenUp with
      | false => exact .inl rfl
      | true =>
        rcases hkeeps client served outcome rfl rfl hgiven with hmem | hreleases
        · exact .inr hmem
        · rw [hanswer] at hreleases
          cases hreleases
    unfold keepsLease at hlenient
    revert hfollows
    unfold openAnswered
    split
    · next hopened =>
      rw [hopened] at hlenient
      intro hfollows
      refine ⟨_, Function.update_self .., trivial,
        kept_follows hkept hfollows (List.Subset.refl _) ?_, fun h => h⟩
      rintro g - ⟨hfresh, rfl⟩
      rcases hlenient hfresh rfl with hgiven | hmem
      · exact .inl ⟨hgiven, rfl⟩
      · exact .inr (.inr hmem)
    · next error herror =>
      rw [herror] at hlenient
      split_ifs with hreleases
      · intro hfollows
        have hdispatched : error.wasNeverDispatched = false := by
          unfold openErrorReleasesLease at hreleases
          split_ifs at hreleases with hnever
          exact Bool.eq_false_iff.mpr hnever
        refine ⟨_, Function.update_self .., ⟨_, error, rfl, rfl, rfl, hdispatched⟩,
          kept_follows hkept hfollows (List.Subset.refl _) ?_, fun h => h⟩
        rintro g - ⟨-, rfl⟩
        exact .inl rfl
      · intro hfollows
        refine ⟨_, Function.update_self .., ⟨error, rfl⟩,
          kept_follows hkept hfollows (List.Subset.refl _) ?_, fun h => h⟩
        rintro g - ⟨rfl, rfl⟩
        have hnever : error.wasNeverDispatched = true := by
          unfold openErrorReleasesLease at hreleases
          split_ifs at hreleases with hnever
          · exact hnever
          · exact absurd rfl hreleases
        rcases hlenient rfl (by simpa using hreleases) with hgiven | hmem
        · exact .inl ⟨hgiven, error, rfl, hnever⟩
        · exact .inr (.inr hmem)
  · exact absurd rfl (hgranting _ _ _)
  · exact hpath.elim
  · exact hpath.elim
  · next expected absent taken =>
    obtain ⟨generation, error, rfl, rfl, rfl, hdispatched⟩ := hpath
    have hd : ∃ d, h'.call u = some d ∧ Path d ∧ createdBy created (some d) = created ∧ ¬Unanswered d := by
      have htaken := hstep
      unfold takeHandle at htaken
      rw [Option.ite_none_right_eq_some] at htaken
      obtain ⟨-, htaken⟩ := htaken
      dsimp only at htaken
      split at htaken <;> cases htaken <;>
        exact ⟨_, Function.update_self .., ⟨error, rfl⟩, rfl, fun h => h⟩
    obtain ⟨d, hd, hpath', hcreated, hleased⟩ := hd
    refine ⟨d, hd, hpath', ?_, fun h => (hleased h).elim⟩
    rw [hcreated]
    apply kept_follows hkept hfollows (List.Subset.refl _)
    intro g hg heq
    cases heq
    exact .inr (.inl (gone_takeHandle (hkept generation hg).1 hstep).1)
  · obtain ⟨error, rfl⟩ := hpath
    cases hstep
    exact hquiet (Function.update_self ..) ⟨error, rfl⟩ rfl (fun _ h => h) (fun h => h)
  · exact hpath.elim
  · exact hpath.elim
  · exact hpath.elim
  · exact hpath.elim
  · exact hpath.elim
  · exact hpath.elim
  · cases hstep

structure UnderWay (cfg : Config) (givenUp : Bool) (s : Pooled) : Prop where
  handle : Handle.Sound s.handle
  call : ∃ c, s.handle.call s.own = some c ∧ Path c ∧ Kept givenUp s.handle s.created s.joined c ∧
    (Leaseless c → s.dispatch = .admission)
  given : givenUp = true → s.cancelled = true ∧
    ∀ outcome, s.dispatch = .settled outcome → fresh s = true → keepsLease cfg outcome = false

structure Ended (s : Pooled) : Prop where
  handle : Handle.Sound s.handle
  lt : s.own < s.handle.nextCall
  call : ∀ c, s.handle.call s.own = some c → (s.result).isSome = true
  gone : ∀ g, s.created = some g → g ≤ s.handle.database.nextDatabaseGeneration ∧
    (s.handle.Gone g ∨ g ∈ s.joined)

theorem underWay_start (hs : Handle.Sound h) (client : Client) : UnderWay cfg false (start h client) where
  handle := hs.follows (u := h.nextCall) (follows_addCall rfl rfl)
  call := by
    refine ⟨_, Function.update_self .., trivial, ?_, fun _ => rfl⟩
    intro g hg
    cases hg
  given := nofun

theorem opening_eq_some {served : Served} (h : s.opening = some served) :
    ∃ client freshLease, s.handle.call s.own = some (.opening client served freshLease) := by
  unfold opening at h
  split at h
  · cases h
    exact ⟨_, _, ‹_›⟩
  · cases h

theorem fresh_iff : fresh s = true ↔ ∃ client served,
    s.handle.call s.own = some (.opening client served true) ∧ served.generation ∉ s.joined := by
  unfold fresh
  split
  · next client served hu =>
    rw [hu, Bool.not_eq_true', ← Bool.not_eq_true, List.contains_iff_mem]
    constructor
    · exact fun hmem => ⟨client, served, rfl, hmem⟩
    · rintro ⟨_, _, heq, hmem⟩
      cases heq
      exact hmem
  · next hother =>
    refine iff_of_false Bool.false_ne_true ?_
    rintro ⟨client, served, hu, -⟩
    exact hother client served hu

theorem joined_observe {a : Handle.Action} : s.joined ⊆ (observe s a h).joined := by
  unfold observe
  dsimp only
  split
  · split_ifs
    · exact List.Subset.refl _
    · exact List.subset_cons_self _ _
  · exact List.Subset.refl _

theorem underWay_observe {a : Handle.Action} (hs : UnderWay cfg givenUp s)
    (hstep : Handle.step cfg s.handle a = some h) (hdrop : a ≠ .drop s.own)
    (hrun : ∀ choice client generation info, a = .run s.own choice →
      s.handle.call s.own ≠ some (.granting client generation info))
    (hkeeps : ∀ outcome, a = .run s.own (.answered outcome) → givenUp = true → fresh s = true →
      keepsLease cfg outcome = false) : UnderWay cfg givenUp (observe s a h) := by
  have hfollows := follows_step hs.handle hstep
  obtain ⟨c, hu, hpath, hkept, hwaits⟩ := hs.call
  by_cases hactor : s.own = a.actor s.handle
  · cases a with
    | start request =>
      exfalso
      exact (hs.handle.lt _ _ hu).ne hactor
    | drop u =>
      change s.own = u at hactor
      subst hactor
      exact absurd rfl hdrop
    | run u choice =>
      change s.own = u at hactor
      subst hactor
      simp only [Handle.step, hu, Option.bind_some] at hstep
      obtain ⟨d, hd, hpath', hkept', hunanswered⟩ := path_next hs.handle hu hpath hkept (by
        rintro client generation info rfl
        exact hrun choice client generation info rfl hu) (by
        rintro client served outcome rfl rfl hgiven
        by_cases hmem : served.generation ∈ s.joined
        · exact .inl hmem
        · exact .inr (hkeeps outcome rfl hgiven (fresh_iff.mpr ⟨client, served, hu, hmem⟩))) hstep
      have hcreated : (observe s (.run s.own choice) h).created = createdBy s.created (some d) := by
        rw [← hd]
        rfl
      refine ⟨hs.handle.follows hfollows, ⟨d, hd, hpath', ?_, ?_⟩, ?_⟩
      · rw [hcreated]
        intro g hg
        obtain ⟨hle, hplace⟩ := hkept' g hg
        exact ⟨hle, hplace.imp_right fun hplace => hplace.imp_right fun hmem => joined_observe hmem⟩
      · intro hleaseless
        apply hwaits
        apply hunanswered
        cases d with
        | leaseForOpen | settleStale | acquire => trivial
        | _ => exact hleaseless.elim
      · intro hgiven
        refine ⟨(hs.given hgiven).1, ?_⟩
        intro outcome hsettled hfresh
        obtain ⟨client, served, hd', -⟩ := fresh_iff.mp hfresh
        change h.call s.own = _ at hd'
        rw [hd] at hd'
        cases hd'
        have hdispatch : s.dispatch = .settled outcome := hsettled
        rw [hwaits (hunanswered trivial)] at hdispatch
        cases hdispatch
  · have hd : h.call s.own = some c := by
      rw [← hu]
      exact hfollows.others _ hactor (hs.handle.lt _ _ hu)
    have hfresh (h : fresh (observe s a h) = true) : fresh s = true := by
      obtain ⟨client, served, hd', hmem⟩ := fresh_iff.mp h
      refine fresh_iff.mpr ⟨client, served, ?_, fun hmem' => hmem (joined_observe hmem')⟩
      rw [hu, ← hd]
      exact hd'
    refine ⟨hs.handle.follows hfollows, ⟨c, hd, hpath, ?_, hwaits⟩, fun hgiven => ⟨(hs.given hgiven).1,
      fun outcome hsettled h => (hs.given hgiven).2 outcome hsettled (hfresh h)⟩⟩
    have hcreated : createdBy s.created (some c) = s.created ∨
        ∃ client served, c = .opening client served true := by
      cases c with
      | opening client served freshLease =>
        cases freshLease with
        | false => exact .inl rfl
        | true => exact .inr ⟨client, served, rfl⟩
      | _ => exact .inl rfl
    have hobserved : (observe s a h).created = createdBy s.created (some c) := by
      rw [← hd]
      rfl
    rcases hcreated with hcreated | ⟨client, served, rfl⟩
    · rw [hobserved, hcreated]
      apply kept_follows hkept hfollows joined_observe
      intro g _ hanswers
      exact .inl hanswers
    · rw [hobserved]
      intro g hg
      cases hg
      refine ⟨?_, .inl ⟨rfl, rfl⟩⟩
      have hle := hs.handle.bounded served (.inr ⟨s.own, _, hu, rfl⟩)
      exact le_trans hle hfollows.next_le

theorem not_leaseless_of_opening {served : Served} (h : s.opening = some served)
    (hu : s.handle.call s.own = some c) : ¬Leaseless c := by
  obtain ⟨client, freshLease, hu'⟩ := opening_eq_some h
  rw [hu] at hu'
  cases hu'
  exact fun hleaseless => hleaseless

theorem underWay_dispatched {served : Served} (hs : UnderWay cfg givenUp s) (hopening : s.opening = some served)
    (dispatch : Dispatch) (hkeeps : ∀ outcome, dispatch = .settled outcome → givenUp = true →
      fresh s = true → keepsLease cfg outcome = false) : UnderWay cfg givenUp { s with dispatch } := by
  obtain ⟨c, hu, hpath, hkept, -⟩ := hs.call
  refine ⟨hs.handle, ⟨c, hu, hpath, hkept, fun h => (not_leaseless_of_opening hopening hu h).elim⟩, ?_⟩
  intro hgiven
  exact ⟨(hs.given hgiven).1, fun outcome hsettled hfresh => hkeeps outcome hsettled hgiven hfresh⟩

theorem underWay_step {a : Action} (hs : UnderWay cfg givenUp s)
    (hok : givenUp = true → (condition cfg).given s a = true) (hstep : step cfg s a = some t) :
    UnderWay cfg givenUp t := by
  cases a with
  | handle a =>
    simp only [step] at hstep
    rw [Option.ite_none_right_eq_some] at hstep
    obtain ⟨hallowed, hstep⟩ := hstep
    obtain ⟨h, hdb, rfl⟩ := Option.map_eq_some_iff.mp hstep
    apply underWay_observe hs hdb
    · rintro rfl
      simp only [allows, ne_eq, not_true_eq_false, decide_false, Bool.false_eq_true] at hallowed
    · rintro choice client generation info rfl hgranting
      simp only [allows, hgranting, ne_eq, not_true_eq_false, decide_false, Bool.false_eq_true] at hallowed
    · rintro outcome rfl - hfresh
      obtain ⟨client, served, hu, -⟩ := fresh_iff.mp hfresh
      simp only [allows, hu, ne_eq, not_true_eq_false, decide_false, Bool.false_eq_true] at hallowed
  | settle =>
    simp only [step] at hstep
    split at hstep
    · next outcome served hdispatch hopening =>
      obtain ⟨client, freshLease, hu⟩ := opening_eq_some hopening
      obtain ⟨h, hdb, rfl⟩ := Option.map_eq_some_iff.mp hstep
      apply underWay_observe hs hdb
      · intro heq
        cases heq
      · intro choice client' generation info _ hgranting
        rw [hu] at hgranting
        cases hgranting
      · intro outcome' heq hgiven hfresh
        cases heq
        exact (hs.given hgiven).2 outcome hdispatch hfresh
    · cases hstep
  | cancelAdmission =>
    simp only [step] at hstep
    split at hstep
    · next served hdispatch hopening =>
      split_ifs at hstep
      cases hstep
      apply underWay_dispatched hs hopening
      intro outcome _ hgiven hfresh
      have hstale := hok hgiven
      simp only [condition, hfresh, Bool.not_true, Bool.false_eq_true] at hstale
    · cases hstep
  | refuse error =>
    simp only [step] at hstep
    split at hstep
    · next served hdispatch hopening =>
      split_ifs at hstep with hcancelled
      cases hstep
      apply underWay_dispatched hs hopening
      intro outcome _ hgiven _
      exact absurd (hs.given hgiven).1 hcancelled
    · cases hstep
  | dispatch =>
    simp only [step] at hstep
    split at hstep
    · next served hdispatch hopening =>
      split_ifs at hstep
      cases hstep
      exact underWay_dispatched hs hopening .executing nofun
    · cases hstep
  | kill =>
    simp only [step] at hstep
    split at hstep
    · next served hdispatch hopening =>
      split_ifs at hstep
      cases hstep
      apply underWay_dispatched hs hopening
      intro outcome heq _ _
      cases heq
      rfl
    · cases hstep
  | reply outcome =>
    simp only [step] at hstep
    split at hstep
    · next served hdispatch hopening =>
      split_ifs at hstep
      cases hstep
      apply underWay_dispatched hs hopening
      intro outcome' heq hgiven hfresh
      cases heq
      have hreply := hok hgiven
      simpa only [condition, hfresh, Bool.true_and, Bool.not_eq_true'] using hreply
    · cases hstep

theorem underWay_given (hs : UnderWay cfg false s) (hresult : s.result = none)
    (hok : (condition cfg).giveUp s = true) : UnderWay cfg true { s with cancelled := true } := by
  obtain ⟨c, hu, hpath, hkept, hwaits⟩ := hs.call
  refine ⟨hs.handle, ⟨c, hu, hpath, ?_, hwaits⟩, fun _ => ⟨rfl, ?_⟩⟩
  · intro g hg
    obtain ⟨hle, hplace⟩ := hkept g hg
    refine ⟨hle, hplace.imp_left fun hanswers => ?_⟩
    unfold result at hresult
    rw [hu] at hresult
    cases c with
    | granting => cases hresult
    | closed result =>
      obtain ⟨error, rfl⟩ := hpath
      cases hresult
    | _ => exact hanswers
  · intro outcome hsettled hfresh
    change s.dispatch = .settled outcome at hsettled
    change fresh s = true at hfresh
    simp only [condition, hsettled, hfresh, Bool.true_and, Bool.not_eq_true'] at hok
    exact hok

theorem ended_returned {r : Except ToolError ℕ} (hs : UnderWay cfg givenUp s) (hresult : s.result = some r)
    (hlenient : givenUp = true ∨ ∃ error, r = .error error ∧ error.wasNeverDispatched = false) :
    Ended s where
  handle := hs.handle
  lt := by
    obtain ⟨c, hu, -⟩ := hs.call
    exact hs.handle.lt _ c hu
  call := by
    intro c _
    rw [hresult]
    rfl
  gone := by
    intro g hg
    obtain ⟨c, hu, hpath, hkept, -⟩ := hs.call
    obtain ⟨hle, hanswers | hplace⟩ := hkept g hg
    · exfalso
      unfold result at hresult
      rw [hu] at hresult
      cases c with
      | granting =>
        cases hresult
        obtain ⟨rfl, -⟩ := hanswers
        obtain ⟨⟨⟩⟩ | ⟨error, ⟨⟩, -⟩ := hlenient
      | closed =>
        obtain ⟨rfl, error, rfl, hnever⟩ := hanswers
        cases hresult
        obtain ⟨⟨⟩⟩ | ⟨error', heq, hdispatched⟩ := hlenient
        cases heq
        rw [hnever] at hdispatched
        cases hdispatched
      | _ => cases hresult
    · exact ⟨hle, hplace⟩

theorem ended_dropped (hs : UnderWay cfg true s)
    (hok : (condition cfg).expire s = true) : Ended { s with handle := dropCall s.handle s.own } := by
  have hfollows : Follows s.handle (dropCall s.handle s.own) s.own := follows_dropCall
  have hnone : (dropCall s.handle s.own).call s.own = none := by
    unfold dropCall
    exact Function.update_self ..
  obtain ⟨c, hu, hpath, hkept, -⟩ := hs.call
  refine ⟨hs.handle.follows hfollows, ?_, ?_, ?_⟩
  · exact Nat.lt_of_lt_of_le (hs.handle.lt _ c hu) hfollows.nextCall
  · intro c hc
    change (dropCall s.handle s.own).call s.own = some c at hc
    rw [hnone] at hc
    cases hc
  · intro g hg
    obtain ⟨hle, hplace⟩ := hkept g hg
    refine ⟨le_trans hle hfollows.next_le, ?_⟩
    rcases hplace with hanswers | hgone | hmem
    · right
      simp only [condition, Bool.not_eq_true', Bool.or_eq_false_iff] at hok
      obtain ⟨hfresh, hclosing⟩ := hok
      cases c with
      | opening client served freshLease =>
        obtain ⟨rfl, rfl⟩ := hanswers
        by_contra hmem
        rw [fresh_iff.mpr ⟨client, served, hu, hmem⟩] at hfresh
        cases hfresh
      | takeHandle expected absent taken =>
        obtain rfl := hanswers
        simp only [closing, hu, Bool.not_eq_false', List.contains_iff_mem] at hclosing
        exact hclosing
      | granting | closed =>
        obtain ⟨⟨⟩, -⟩ := hanswers
      | _ => exact hanswers.elim
    · exact .inl (hgone.follows hfollows)
    · exact .inr hmem

theorem Ended.opening (hs : Ended s) : s.opening = none := by
  unfold Pooled.opening
  split
  · next hu =>
    have hresult := hs.call _ hu
    simp only [result, hu, Option.isSome_none, Bool.false_eq_true] at hresult
  · rfl

theorem Ended.actor (hs : Ended s) {a : Handle.Action} (hallowed : allows s a = true)
    (hstep : Handle.step cfg s.handle a = some h) : s.own ≠ a.actor s.handle := by
  intro hactor
  cases a with
  | start request => exact hs.lt.ne hactor
  | drop u =>
    change s.own = u at hactor
    subst hactor
    simp only [allows, ne_eq, not_true_eq_false, decide_false, Bool.false_eq_true] at hallowed
  | run u choice =>
    change s.own = u at hactor
    subst hactor
    obtain ⟨c, hu, hnext⟩ := Option.bind_eq_some_iff.mp hstep
    have hresult := hs.call c hu
    cases c with
    | granting =>
      simp only [allows, hu, ne_eq, not_true_eq_false, decide_false, Bool.false_eq_true] at hallowed
    | closed => cases hnext
    | _ => simp only [result, hu, Option.isSome_none, Bool.false_eq_true] at hresult

theorem ended_step {a : Action} (hs : Ended s) (hstep : step cfg s a = some t) : Ended t := by
  have hopening := hs.opening
  cases a with
  | handle a =>
    simp only [step] at hstep
    rw [Option.ite_none_right_eq_some] at hstep
    obtain ⟨hallowed, hstep⟩ := hstep
    obtain ⟨h, hdb, rfl⟩ := Option.map_eq_some_iff.mp hstep
    have hfollows := follows_step hs.handle hdb
    have hcall : h.call s.own = s.handle.call s.own := hfollows.others _ (hs.actor hallowed hdb) hs.lt
    have hcreated : createdBy s.created (h.call s.own) = s.created := by
      unfold createdBy
      split
      · next hu =>
        rw [hcall] at hu
        unfold Pooled.opening at hopening
        rw [hu] at hopening
        cases hopening
      · rfl
    refine ⟨hs.handle.follows hfollows, Nat.lt_of_lt_of_le hs.lt hfollows.nextCall, ?_, ?_⟩
    · intro c hc
      change h.call s.own = some c at hc
      rw [hcall] at hc
      have hresult := hs.call c hc
      unfold result at hresult ⊢
      unfold observe
      dsimp only
      rwa [hcall]
    · intro g hg
      change createdBy s.created (h.call s.own) = some g at hg
      rw [hcreated] at hg
      obtain ⟨hle, hplace⟩ := hs.gone g hg
      exact ⟨le_trans hle hfollows.next_le,
        hplace.imp (fun hgone => hgone.follows hfollows) (fun hmem => joined_observe hmem)⟩
  | cancelAdmission | refuse error | dispatch | kill | reply outcome | settle =>
    simp only [step, hopening] at hstep
    split at hstep
    · next heq => cases heq
    · cases hstep

theorem lawful (cfg : Config) :
    Lawful (backend cfg) (condition cfg) (UnderWay cfg false) (UnderWay cfg true) Ended where
  step _ _ _ hs hstep := underWay_step hs nofun hstep
  finished _ error hs hresult hdispatched := ended_returned hs hresult (.inr ⟨error, rfl, hdispatched⟩)
  giveUp _ hs hresult hok := underWay_given hs hresult hok
  given _ _ _ hs hstep hok := underWay_step hs (fun _ => hok) hstep
  settled _ _ hs hresult := ended_returned hs hresult (.inl rfl)
  dropped _ hs _ hok := ended_dropped hs hok
  after _ _ _ hs hstep _ := ended_step hs hstep

end Pooled

end IdaMcp.Foreground
