import IdaMcp.OpenDsc.Calls

namespace IdaMcp.OpenDsc

open Foundation Handle Tasks

variable {cfg : Config} {plan : Plan} {s s' t : State} {u v : CallId} {c d : Handle.Call} {g : ℕ}
  {db : Handle.State} {a : Handle.Action}

theorem Sound.keep (hs : Sound plan s) (hhandle : t.handle = s.handle) (hinstaller : t.installer = s.installer)
    (hopen : t.openCall = s.openCall) (hplaced : Placed t t.position)
    (hrunning : (∀ g error, t.position ≠ .ended g error) → t.task.isRunning = true)
    (hsucceeded : ∀ g, t.position = .ended g false →
      t.task.state.status ≠ .failed ∧ t.task.state.status ≠ .cancelled) : Sound plan t := by
  refine ⟨?_, ?_, ?_, ?_, hplaced, hrunning, hsucceeded⟩
  · rw [hhandle]
    exact hs.handle
  · rw [hhandle]
    exact hs.honest
  · rw [hhandle, hinstaller]
    exact hs.installers
  · intro u hu
    rw [hopen] at hu
    obtain ⟨c, hc, hphase, howned⟩ := hs.openPhase u hu
    rw [hhandle]
    refine ⟨c, hc, ?_, ?_⟩
    · unfold Phase
      rw [hhandle, hinstaller]
      exact hphase
    · rw [hhandle, hinstaller]
      exact howned

theorem Sound.status (hs : Sound plan s) (hgoing : ∀ g error, s.position ≠ .ended g error) :
    s.task.state.status = .running := by
  have hrunning := hs.running hgoing
  rwa [TaskEntry.isRunning, beq_iff_eq] at hrunning

theorem Sound.goto (hs : Sound plan s) (hgoing : ∀ g error, s.position ≠ .ended g error)
    {position : Position} (hplaced : Placed s position) : Sound plan (goto s position) := by
  refine hs.keep rfl rfl rfl hplaced (fun _ => hs.running hgoing) ?_
  intro g _
  change s.task.state.status ≠ _ ∧ s.task.state.status ≠ _
  rw [hs.status hgoing]
  exact ⟨nofun, nofun⟩

theorem Sound.finish (hs : Sound plan s) {task : TaskEntry} {generation : Option ℕ}
    (hplaced : Placed s (.ended generation true)) : Sound plan (settle s task generation) := by
  refine hs.keep rfl rfl rfl hplaced ?_ ?_
  · intro hgoing
    exact absurd rfl (hgoing _ _)
  · intro g h
    cases h

section Start

variable {request : Request} (hs : Sound plan s)
  (hdb : Handle.step cfg s.handle (.start request) = some db)
include hs hdb

theorem call_start (hu : s.handle.call u = some c) : db.call u = some c := by
  apply call_handle hs hdb hu
  exact (hs.handle.lt u c hu).ne

theorem opened_start (h : Opened s g) : Opened (after s (.start request) db) g := by
  obtain ⟨u, c, hopen, hu, hg⟩ := h
  exact ⟨u, c, hopen, call_start hs hdb hu, hg⟩

theorem sound_start : Sound plan (after s (.start request) db) := by
  apply sound_after hs hdb
  · intro u hopen
    obtain ⟨c, hu, hphase⟩ := hs.openPhase u hopen
    exact ⟨c, call_start hs hdb hu, hphase.after hs hdb (hs.handle.lt u c hu).ne⟩
  · intro g hg
    exact opened_start hs hdb hg
  · intro u _ h
    cases h

end Start

theorem startCall_eq_some {request : Request} {position : CallId → Position}
    (h : startCall cfg s request position = some t) :
    ∃ db, Handle.step cfg s.handle (.start request) = some db ∧
      db.call s.handle.nextCall = some (request.position s.handle.database.sharedHttp) ∧
      t = goto (after s (.start request) db) (position s.handle.nextCall) := by
  obtain ⟨t', ht', rfl⟩ := Option.map_eq_some_iff.mp h
  obtain ⟨db, hdb, rfl⟩ := handleStep_eq_some ht'
  refine ⟨db, hdb, ?_, rfl⟩
  simp only [Handle.step, Option.some.injEq] at hdb
  subst hdb
  exact Function.update_self ..

section Calls

variable (hs : Sound plan s) (hgoing : ∀ g error, s.position ≠ .ended g error)
include hs hgoing

theorem sound_startOpen (h : startOpen cfg plan s = some t) : Sound plan t := by
  obtain ⟨t', ht', rfl⟩ := Option.map_eq_some_iff.mp h
  obtain ⟨db, hdb, hcall, rfl⟩ := startCall_eq_some ht'
  have hs' := sound_start hs hdb
  refine ⟨hs'.handle, hs'.honest, hs'.installers, ?_, rfl, fun _ => hs.running hgoing, nofun⟩
  intro u hu
  cases hu
  refine ⟨_, hcall, trivial, ?_⟩
  intro g hg
  exfalso
  rcases installer_after hg with hold | ⟨-, hlt, lease, hlease, rfl⟩
  · exact (hs.installers g _ hold).2.ne rfl
  · simp only [Handle.step, Option.some.injEq] at hdb
    subst hdb
    change s.handle.database.handle = some lease at hlease
    have hle := hs.handle.bounded lease.served (.inl (by rw [hlease, Option.map_some]))
    change lease.generation ≤ _ at hle
    omega

theorem sound_startTool {tool : String} {position : CallId → Position} (hopen : Opened s g)
    (hposition : ∀ t u, Opened t g → Dispatched t u → Placed t (position u))
    (h : startCall cfg s (.call tool (some g)) position = some t) : Sound plan t := by
  obtain ⟨db, hdb, hcall, rfl⟩ := startCall_eq_some h
  apply (sound_start hs hdb).goto hgoing
  apply hposition
  · exact opened_start hs hdb hopen
  · exact ⟨_, _, hcall, rfl⟩

theorem sound_startClose {reason : Reason} (hopen : Opened s g) (howns : s.owns g = true ∨ s.handle.Gone g)
    (h : startClose cfg s g reason = some t) : Sound plan t := by
  obtain ⟨db, hdb, hcall, rfl⟩ := startCall_eq_some h
  apply (sound_start hs hdb).goto hgoing
  refine ⟨opened_start hs hdb hopen, ownsOrGone_after hs hdb (hopen.le hs) howns, _, hcall, ?_⟩
  rfl

end Calls

section GivesUp

variable {now : ℕ} {report : Value} (hok : Guarded cfg plan s (.advance now report))
  (hgives : givesUp plan s = true) (hcurrent : current s = some g)
  (hle : g ≤ s.handle.database.nextDatabaseGeneration)
include hok hgives hcurrent hle

theorem ownsOrGone_of_givesUp (hbackground : plan.background = true) :
    s.owns g = true ∨ s.handle.Gone g := by
  simp only [Guarded, guarded, hgives, hcurrent, hbackground, Bool.not_true, Bool.false_or,
    Option.all_some, Bool.or_eq_true, Bool.not_eq_true', beq_true] at hok
  rcases hok with hnot | howns
  · exact .inr (gone_of_not_installed hle hnot)
  · exact .inl howns

theorem gone_of_givesUp (hbackground : plan.background = false) (howns : s.owns g = true) :
    s.handle.Gone g := by
  simp only [Guarded, guarded, hgives, hcurrent, hbackground, howns, Bool.not_true, Bool.false_or,
    Option.all_some, Bool.or_eq_true, Bool.not_eq_true', beq_false] at hok
  rcases hok with hnot | hfalse
  · exact gone_of_not_installed hle hnot
  · cases hfalse

end GivesUp

theorem gone_of_fatal (hs : Sound plan s) {tool : String} {error : ToolError}
    (h : returnedTo s tool g u = some (.error error)) (hfatal : error.isFatal = true)
    (hname : tool ∉ debugStartTools) : s.handle.Gone g := by
  unfold returnedTo at h
  split at h
  · next purpose served result hu =>
    split_ifs at h with hpurpose
    cases h
    subst hpurpose
    have hhonest := hs.honest u _ hu
    obtain ⟨lease, rfl, hgone⟩ := hhonest.lost _ served error (.inr rfl) hfatal hname
    have hbound := hhonest.bound _ lease g rfl rfl rfl
    rwa [hbound] at hgone
  · cases h

section Advance

variable {now : ℕ} {report : Value} (hs : Sound plan s) (hok : Guarded cfg plan s (.advance now report))
include hs hok

theorem sound_opened {outcome : Except ToolError ℕ} (hposition : s.position = .opening u)
    (houtcome : openedBy s u = some outcome) (h : opened cfg plan s now outcome = some t) :
    Sound plan t := by
  have hgoing : ∀ g error, s.position ≠ .ended g error := by
    intro g error
    rw [hposition]
    exact nofun
  have hopenCall : s.openCall = some u := by
    have hplaced := hs.placed
    rwa [hposition] at hplaced
  have hcall := houtcome
  unfold openedBy at hcall
  unfold opened at h
  cases outcome with
  | ok generation =>
    have hopen : Opened s generation := by
      split at hcall
      · next client generation' info hu =>
        cases hcall
        exact ⟨u, _, hopenCall, hu, rfl⟩
      · cases hcall
      · cases hcall
    dsimp only at h
    split_ifs at h with hgives hload
    · obtain ⟨hbackground, -⟩ := (Bool.and_eq_true_iff ..).mp hgives
      apply sound_startClose hs hgoing hopen _ h
      apply ownsOrGone_of_givesUp hok _ _ (hopen.le hs) hbackground
      · rw [givesUp, hposition]
        exact hgives
      · simp only [current, hposition, houtcome]
    · apply sound_startTool hs hgoing hopen _ h
      intro t u hopen' hdispatched
      exact ⟨hopen', hdispatched⟩
    · cases h
      exact hs.goto hgoing hopen
  | error error =>
    have hfailed : Placed s (.ended none true) := by
      intro v hv
      rw [hopenCall, Option.some.injEq] at hv
      subst hv
      split at hcall
      · cases hcall
      · next error' hu =>
        cases hcall
        exact ⟨error, hu⟩
      · cases hcall
    dsimp only at h
    split_ifs at h
    · cases h
      exact hs.finish hfailed
    · cases h
      exact hs.goto hgoing hfailed

theorem sound_loadedInBackground {result : Except ToolError Value} {describe : ToolError → ToolError}
    {loaded : Option State} (hbackground : plan.background = true)
    (hgoing : ∀ g error, s.position ≠ .ended g error) (hopen : Opened s g) (hcurrent : current s = some g)
    (hreturned : returnedTo s loadTool g u = some result)
    (hfailed : ∀ error, result = .error error → error.isFatal = false → givesUp plan s = true)
    (hcancelled : ∀ value, result = .ok value → s.cancelled = true → givesUp plan s = true)
    (hloaded : ∀ t, loaded = some t → Sound plan t)
    (h : loadedInBackground cfg s now g result describe loaded = some t) : Sound plan t := by
  have hclose {reason : Reason} (hgives : givesUp plan s = true) (h : startClose cfg s g reason = some t) :
      Sound plan t := by
    apply sound_startClose hs hgoing hopen _ h
    exact ownsOrGone_of_givesUp hok hgives hcurrent (hopen.le hs) hbackground
  unfold loadedInBackground at h
  cases result with
  | ok value =>
    dsimp only at h
    split_ifs at h with hcancel
    · exact hclose (hcancelled value rfl hcancel) h
    · exact hloaded t h
  | error error =>
    dsimp only at h
    split_ifs at h with hfatal hcancel
    · cases h
      refine hs.finish ⟨hopen, ?_⟩
      intro _
      exact gone_of_fatal hs hreturned hfatal (by decide)
    · exact hclose (hfailed error rfl (Bool.eq_false_iff.mpr hfatal)) h
    · exact hclose (hfailed error rfl (Bool.eq_false_iff.mpr hfatal)) h

theorem sound_loadFailed {error : ToolError} (hbackground : plan.background = false)
    (hgoing : ∀ g error, s.position ≠ .ended g error) (hopen : Opened s g) (hcurrent : current s = some g)
    (hreturned : returnedTo s loadTool g u = some (.error error))
    (hfailed : error.isFatal = false → givesUp plan s = true) :
    Sound plan (goto s (.ended (some g) true)) := by
  refine hs.goto hgoing ⟨hopen, ?_⟩
  intro howns
  cases hfatal : error.isFatal with
  | true => exact gone_of_fatal hs hreturned hfatal (by decide)
  | false => exact gone_of_givesUp hok (hfailed hfatal) hcurrent (hopen.le hs) hbackground howns

theorem sound_moduleLoaded {result : Except ToolError Value} (hposition : s.position = .loadingModule g u)
    (hreturned : returnedTo s loadTool g u = some result)
    (h : moduleLoaded cfg plan s now g result = some t) : Sound plan t := by
  have hgoing : ∀ g error, s.position ≠ .ended g error := by
    intro g error
    rw [hposition]
    exact nofun
  have hopen : Opened s g := by
    have hplaced := hs.placed
    rw [hposition] at hplaced
    exact hplaced.1
  have hcurrent : current s = some g := by
    rw [current, hposition]
    rfl
  have hfailed : ∀ error, result = .error error → (∀ message, error ≠ .notSupported message) →
      error.isFatal = false → givesUp plan s = true := by
    rintro error rfl hsupported hfatal
    simp only [givesUp, hposition, hreturned, hfatal, Bool.not_false]
  unfold moduleLoaded at h
  dsimp only at h
  split_ifs at h with hbackground
  · apply sound_loadedInBackground hs hok hbackground hgoing hopen hcurrent hreturned _ _ _ h
    · rintro error rfl hfatal
      by_cases hsupported : ∀ message, error ≠ .notSupported message
      · exact hfailed error rfl hsupported hfatal
      · obtain ⟨message, heq⟩ := not_forall_not.mp hsupported
        subst heq
        simp only [givesUp, hposition, hreturned]
        exact hbackground
    · rintro value rfl hcancel
      simp only [givesUp, hposition, hreturned, hbackground, hcancel, Bool.and_true]
    · intro t ht
      cases ht
      exact hs.goto hgoing hopen
  · rw [Bool.not_eq_true] at hbackground
    split at h
    · cases h
      exact hs.goto hgoing hopen
    · apply sound_startTool hs hgoing hopen _ h
      intro t u hopen' hdispatched
      exact ⟨hopen', hdispatched⟩
    · next error hsupported =>
      cases h
      apply sound_loadFailed hs hok hbackground hgoing hopen hcurrent hreturned
      exact hfailed error rfl hsupported

theorem sound_frameworkLoaded {result : Except ToolError Value} {framework : String} {rest : List String}
    (hposition : s.position = .loadingFramework g u framework rest)
    (hreturned : returnedTo s loadTool g u = some result)
    (h : frameworkLoaded cfg plan s now g framework rest result = some t) : Sound plan t := by
  have hgoing : ∀ g error, s.position ≠ .ended g error := by
    intro g error
    rw [hposition]
    exact nofun
  have hopen : Opened s g := by
    have hplaced := hs.placed
    rw [hposition] at hplaced
    exact hplaced.1
  have hcurrent : current s = some g := by
    rw [current, hposition]
    rfl
  have hfailed : ∀ error, result = .error error → error.isFatal = false → givesUp plan s = true := by
    rintro error rfl hfatal
    simp only [givesUp, hposition, hreturned, hfatal, Bool.not_false]
  unfold frameworkLoaded at h
  dsimp only at h
  split_ifs at h with hbackground
  · apply sound_loadedInBackground hs hok hbackground hgoing hopen hcurrent hreturned hfailed _ _ h
    · rintro value rfl hcancel
      simp only [givesUp, hposition, hreturned, hbackground, hcancel, Bool.and_true]
    · intro t ht
      cases ht
      exact hs.goto hgoing hopen
  · rw [Bool.not_eq_true] at hbackground
    split at h
    · cases h
      exact hs.goto hgoing hopen
    · next error =>
      cases h
      apply sound_loadFailed hs hok hbackground hgoing hopen hcurrent hreturned
      exact hfailed error rfl

theorem sound_cancelled (hgoing : ∀ g error, s.position ≠ .ended g error) (hopen : Opened s g)
    (hcurrent : current s = some g) (hgives : givesUp plan s = true) (hbackground : plan.background = true)
    (h : startClose cfg s g .cancellation = some t) : Sound plan t := by
  apply sound_startClose hs hgoing hopen _ h
  exact ownsOrGone_of_givesUp hok hgives hcurrent (hopen.le hs) hbackground

theorem sound_nextFramework {rest : List String} (hposition : s.position = .nextFramework g rest)
    (h : nextFramework cfg plan s g rest = some t) : Sound plan t := by
  have hgoing : ∀ g error, s.position ≠ .ended g error := by
    intro g error
    rw [hposition]
    exact nofun
  have hopen : Opened s g := by
    have hplaced := hs.placed
    rwa [hposition] at hplaced
  cases rest with
  | nil =>
    refine sound_startTool hs hgoing hopen ?_ (show startStatus cfg s g = some t from h)
    intro t u hopen' hdispatched
    exact ⟨hopen', hdispatched⟩
  | cons framework rest =>
    simp only [nextFramework] at h
    split_ifs at h with hgives
    · obtain ⟨hbackground, -⟩ := (Bool.and_eq_true_iff ..).mp hgives
      apply sound_cancelled hs hok hgoing hopen _ _ hbackground h
      · rw [current, hposition]
        rfl
      · rw [givesUp, hposition]
        exact hgives
    · apply sound_startTool hs hgoing hopen _ h
      intro t u hopen' hdispatched
      exact ⟨hopen', hdispatched⟩

theorem sound_statusFetched {result : Except ToolError Value} (hposition : s.position = .fetchingStatus g u)
    (hreturned : returnedTo s statusTool g u = some result)
    (h : statusFetched cfg plan s now g result = some t) : Sound plan t := by
  have hgoing : ∀ g error, s.position ≠ .ended g error := by
    intro g error
    rw [hposition]
    exact nofun
  have hopen : Opened s g := by
    have hplaced := hs.placed
    rw [hposition] at hplaced
    exact hplaced.1
  have hcancelled (hgives : (plan.background && s.cancelled) = true)
      (h : startClose cfg s g .cancellation = some t) : Sound plan t := by
    obtain ⟨hbackground, -⟩ := (Bool.and_eq_true_iff ..).mp hgives
    apply sound_cancelled hs hok hgoing hopen _ _ hbackground h
    · rw [current, hposition]
      rfl
    · rw [givesUp, hposition]
      exact hgives
  unfold statusFetched at h
  cases result with
  | ok value =>
    dsimp only at h
    split_ifs at h with hgives
    · exact hcancelled hgives h
    · cases h
      exact hs.goto hgoing hopen
  | error error =>
    dsimp only at h
    split_ifs at h with hfatal hbackground hgives
    · cases h
      refine hs.finish ⟨hopen, ?_⟩
      intro _
      exact gone_of_fatal hs hreturned hfatal (by decide)
    · cases h
      refine hs.goto hgoing ⟨hopen, ?_⟩
      intro _
      exact gone_of_fatal hs hreturned hfatal (by decide)
    · exact hcancelled hgives h
    · cases h
      exact hs.goto hgoing hopen

theorem sound_decide (hposition : s.position = .deciding g)
    (h : decide cfg plan s now g report = some t) : Sound plan t := by
  have hgoing : ∀ g error, s.position ≠ .ended g error := by
    intro g error
    rw [hposition]
    exact nofun
  have hopen : Opened s g := by
    have hplaced := hs.placed
    rwa [hposition] at hplaced
  unfold decide at h
  split_ifs at h with hbackground hgives
  · apply sound_cancelled hs hok hgoing hopen _ _ hbackground h
    · rw [current, hposition]
      rfl
    · rw [givesUp, hposition]
      simp only [hbackground, hgives, Bool.and_self]
  · cases h
    have hcompleted : (s.task.complete report now).2.state.status = .completed := by
      have hpending : s.task.cancelRequested = none := by
        cases hrequested : s.task.cancelRequested with
        | none => rfl
        | some message =>
          rw [hrequested, Option.isSome_some, Bool.or_true] at hgives
          exact absurd rfl hgives
      unfold TaskEntry.complete
      rw [if_pos (hs.running hgoing), hpending]
    refine hs.keep rfl rfl rfl trivial ?_ ?_
    · intro hended
      exact absurd rfl (hended _ _)
    · intro g _
      rw [hcompleted]
      exact ⟨nofun, nofun⟩
  · cases h
    exact hs.goto hgoing trivial

omit hok in
theorem sound_closed {reason : Reason} {result : Except ToolError Closed}
    (hposition : s.position = .closing g u reason) (hu : s.handle.call u = some (.closed result)) :
    Sound plan (closed s now g reason result) := by
  have hplaced := hs.placed
  rw [hposition] at hplaced
  obtain ⟨hopen, -, c, hc, hphase⟩ := hplaced
  rw [hu, Option.some.injEq] at hc
  subst hc
  have hended : Placed s (.ended (some g) true) := ⟨hopen, fun _ => hphase⟩
  unfold closed
  split <;> exact hs.finish hended

theorem sound_advance (h : advance cfg plan s now report = some t) : Sound plan t := by
  unfold advance at h
  split at h
  · next hposition =>
    have hgoing : ∀ g error, s.position ≠ .ended g error := by
      intro g error
      rw [hposition]
      exact nofun
    have hnone : s.openCall = none := by
      have hplaced := hs.placed
      rwa [hposition] at hplaced
    split_ifs at h
    · cases h
      refine hs.finish ?_
      intro u hu
      rw [hnone] at hu
      cases hu
    · cases h
      exact hs.goto hgoing hnone
    · exact sound_startOpen hs hgoing h
  · cases h
  · next u hposition =>
    obtain ⟨outcome, houtcome, h⟩ := Option.bind_eq_some_iff.mp h
    exact sound_opened hs hok hposition houtcome h
  · next g u hposition =>
    obtain ⟨result, hreturned, h⟩ := Option.bind_eq_some_iff.mp h
    exact sound_moduleLoaded hs hok hposition hreturned h
  · next g rest hposition => exact sound_nextFramework hs hok hposition h
  · next g u framework rest hposition =>
    obtain ⟨result, hreturned, h⟩ := Option.bind_eq_some_iff.mp h
    exact sound_frameworkLoaded hs hok hposition hreturned h
  · next g u hposition =>
    obtain ⟨result, hreturned, h⟩ := Option.bind_eq_some_iff.mp h
    exact sound_statusFetched hs hok hposition hreturned h
  · next g hposition =>
    split_ifs at h with hgives
    obtain ⟨hbackground, -⟩ := (Bool.and_eq_true_iff ..).mp hgives
    apply sound_cancelled hs hok _ _ _ _ hbackground h
    · intro g error
      rw [hposition]
      exact nofun
    · have hplaced := hs.placed
      rwa [hposition] at hplaced
    · rw [current, hposition]
      rfl
    · rw [givesUp, hposition]
      exact hgives
  · next g hposition => exact sound_decide hs hok hposition h
  · next g u reason hposition =>
    split at h
    · next result hu =>
      cases h
      exact sound_closed hs hposition hu
    · cases h
  · cases h

end Advance

theorem sound_prepared (hs : Sound plan s) {settlement : Option Dsc.Settlement} {now : ℕ}
    (h : prepared cfg plan s now settlement = some t) : Sound plan t := by
  unfold prepared at h
  rw [Option.ite_none_right_eq_some] at h
  obtain ⟨hposition, h⟩ := h
  have hgoing : ∀ g error, s.position ≠ .ended g error := by
    intro g error
    rw [hposition]
    exact nofun
  have hfailed : Placed s (.ended none true) := by
    intro u hu
    have hplaced := hs.placed
    rw [hposition] at hplaced
    rw [show s.openCall = none from hplaced] at hu
    cases hu
  split at h
  · exact sound_startOpen hs hgoing h
  · split_ifs at h
    cases h
    exact hs.finish hfailed
  · cases h
    exact hs.finish hfailed
  · split_ifs at h
    cases h
    exact hs.finish hfailed

theorem sound_grant (hs : Sound plan s) {token : Option String} (h : grant cfg plan s token = some t) :
    Sound plan t := by
  unfold grant at h
  split at h
  · next g hposition =>
    split_ifs at h
    cases h
    refine hs.goto ?_ ?_
    · intro g error
      rw [hposition]
      exact nofun
    · have hplaced := hs.placed
      rwa [hposition] at hplaced
  · next g fresh u hposition hopenCall =>
    split_ifs at h
    obtain ⟨t', ht', rfl⟩ := Option.map_eq_some_iff.mp h
    obtain ⟨db, hdb, rfl⟩ := handleStep_eq_some ht'
    have hopen : Opened s g := by
      have hplaced := hs.placed
      rwa [hposition] at hplaced
    obtain ⟨v, c, hv, hc, hg⟩ := hopen
    rw [hopenCall, Option.some.injEq] at hv
    subst hv
    obtain ⟨d, hd, hphase⟩ := hs.openPhase u hopenCall
    rw [hc, Option.some.injEq] at hd
    subst hd
    have hstep := hdb
    simp only [Handle.step, hc, Option.bind_some] at hstep
    have hgranted : ∃ d, db.call u = some d ∧ grants d = some g ∧
        OpenPhase (after s (.run u (.token fresh)) db) u d := by
      cases c with
      | granting client generation info =>
        cases hg
        simp only [Handle.next, Handle.grant] at hstep
        have hnever : ¬NeverDispatched (.granting client g info) := by
          rintro ⟨error, h, -⟩
          cases h
        have hnext : db.database.nextDatabaseGeneration = s.handle.database.nextDatabaseGeneration := by
          split_ifs at hstep
          · cases hstep
            change (s.handle.database.issueCloseToken _ _ _).1.nextDatabaseGeneration = _
            unfold WorkspaceDatabase.issueCloseToken
            split
            · split_ifs <;> rfl
            · rfl
          · cases hstep
            rfl
        have hspawning : ∃ grant, db.call u = some (.spawning client g info grant) := by
          split_ifs at hstep <;> cases hstep <;> exact ⟨_, Function.update_self ..⟩
        obtain ⟨grant, hd⟩ := hspawning
        refine ⟨_, hd, rfl, hphase.next hs hdb ?_ hnext hnever ?_⟩
        · exact le_of_le_of_eq hphase.phase hnext.symm
        · intro g hg
          exact .inl hg
      | spawning => cases hstep
      | _ => cases hg
    obtain ⟨d, hd, hg', hphase'⟩ := hgranted
    refine Sound.goto ?_ ?_ ⟨u, d, hopenCall, hd, hg'⟩
    · apply sound_after hs hdb
      · intro v hv
        rw [hopenCall, Option.some.injEq] at hv
        subst hv
        exact ⟨d, hd, hphase'⟩
      · rintro g' ⟨v, c', hv, hc', hg''⟩
        rw [hopenCall, Option.some.injEq] at hv
        subst hv
        rw [hc, Option.some.injEq] at hc'
        subst hc'
        rw [hg, Option.some.injEq] at hg''
        subst hg''
        exact ⟨u, d, hopenCall, hd, hg'⟩
      · intro v _ h
        cases h
    · intro g error
      change s.position ≠ _
      rw [hposition]
      exact nofun
  · cases h

theorem status_requestCancel {task : TaskEntry} {message : String} {now : ℕ} :
    (task.requestCancel message now).2.state.status = task.state.status := by
  unfold TaskEntry.requestCancel
  split_ifs
  · rfl
  · rfl

theorem isRunning_requestCancel {task : TaskEntry} {message : String} {now : ℕ} (h : task.isRunning = true) :
    (task.requestCancel message now).2.isRunning = true := by
  rwa [TaskEntry.isRunning, status_requestCancel]

theorem sound_step {a : Action} (hs : Sound plan s) (hok : Guarded cfg plan s a)
    (h : step cfg plan s a = some t) : Sound plan t := by
  cases a with
  | handle a =>
    simp only [step] at h
    rw [Option.ite_none_right_eq_some] at h
    obtain ⟨hallowed, h⟩ := h
    obtain ⟨db, hdb, rfl⟩ := handleStep_eq_some h
    exact sound_handle hs hallowed hok hdb
  | advance now report => exact sound_advance hs hok h
  | prepared settlement now => exact sound_prepared hs h
  | grant token => exact sound_grant hs h
  | requestCancel message now =>
    simp only [step] at h
    rw [Option.ite_none_right_eq_some] at h
    obtain ⟨-, h⟩ := h
    cases h
    refine hs.keep rfl rfl rfl hs.placed ?_ ?_
    · intro hgoing
      exact isRunning_requestCancel (hs.running hgoing)
    · intro g hended
      change (s.task.requestCancel message now).2.state.status ≠ _ ∧ _
      rw [status_requestCancel]
      exact hs.succeeded g hended
  | cancel =>
    simp only [step] at h
    rw [Option.ite_none_right_eq_some] at h
    obtain ⟨-, h⟩ := h
    cases h
    exact hs.keep rfl rfl rfl hs.placed hs.running hs.succeeded
  | abandon =>
    simp only [step] at h
    split_ifs at h with hbackground
    split at h
    · next u hu =>
      obtain ⟨t', ht', rfl⟩ := Option.map_eq_some_iff.mp h
      obtain ⟨db, hdb, rfl⟩ := handleStep_eq_some ht'
      have hgoing : ∀ g error, s.position ≠ .ended g error := by
        intro g error hended
        rw [hended] at hu
        cases hu
      refine ⟨hs.handle.follows (follows_handle hs hdb), honest_step hs.handle hs.honest hdb, ?_, ?_, trivial, ?_, ?_⟩
      · intro g v hv
        exact installers_after hs hdb hv
      · intro v hv
        cases hv
      · intro _
        exact hs.running hgoing
      · intro g _
        change s.task.state.status ≠ _ ∧ s.task.state.status ≠ _
        rw [hs.status hgoing]
        exact ⟨nofun, nofun⟩
    · cases h

end IdaMcp.OpenDsc
