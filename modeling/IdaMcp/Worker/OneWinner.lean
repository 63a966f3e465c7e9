import IdaMcp.Worker.SideEffect

namespace IdaMcp.Worker

open Foundation

variable {α : Type} {wait : Wait} {s t : Exchange α} {a : Action α}

def IdaCoherent (s : Exchange α) : Prop :=
  match s.ida with
  | .absent => s.admission = .queued ∧ s.mutations = 0
  | .queued | .dequeued => s.admission ≠ .started ∧ s.mutations = 0 ∧ s.reply = .none
  | .admitted => s.admission = .started ∧ s.mutations = 0 ∧ s.reply = .none
  | .mutating => s.admission = .started ∧ s.mutations = 1 ∧ s.reply = .none
  | .done => s.mutations ≤ 1 ∧ (0 < s.mutations → s.admission = .started) ∧ s.reply ≠ .none ∧
    (s.admission = .started → (∃ result, s.reply = .settled result) ∨ s.reply = .closed)

def timedOut (wait : Wait) : Except ToolError α :=
  .error (.timeout (clampedTimeout wait.supervised wait.timeoutSecs))

def CallerCoherent (wait : Wait) (s : Exchange α) : Prop :=
  match s.caller with
  | .sending => s.ida = .absent ∧ s.reply = .none
  | .waiting | .elapsed | .settling | .dropping => s.ida ≠ .absent ∧ s.admission ≠ .cancelled
  | .finishing outcome => s.ida ≠ .absent ∧
    (s.admission ≠ .cancelled ∧ s.reply.received = some outcome ∨
      s.admission = .cancelled ∧ outcome = timedOut wait)
  | .returned outcome => s.ida = .absent ∨
    (s.reply.received = some outcome ∨ s.admission = .cancelled ∧ outcome = timedOut wait) ∧
    (wait.observed = true ∨ s.admission ≠ .queued)
  | .gone => wait.observed = true ∨ s.admission ≠ .queued

theorem callerStep_coherent (hida : IdaCoherent s) (hcaller : CallerCoherent wait s)
    (h : callerStep wait s a = some t) : IdaCoherent t ∧ CallerCoherent wait t := by
  obtain ⟨admission, caller, ida, reply, mutations⟩ := s
  cases a with
  | send =>
    cases caller <;> simp_all [callerStep]
    subst h
    cases hobs : wait.observed <;> cases ida <;> simp_all [IdaCoherent, CallerCoherent]
  | sendFails error =>
    cases caller <;> simp_all [callerStep]
    subst h
    cases ida <;> simp_all [IdaCoherent, CallerCoherent]
  | receive =>
    cases caller <;> simp_all [callerStep]
    all_goals
      obtain ⟨outcome, hreceived, rfl⟩ := h
      cases ida <;> simp_all [IdaCoherent, CallerCoherent]
  | elapse =>
    cases caller <;> simp_all [callerStep]
    subst h
    cases ida <;> simp_all [IdaCoherent, CallerCoherent]
  | cancel =>
    cases caller <;> simp_all [callerStep]
    subst h
    cases admission <;> cases ida <;>
      simp_all [IdaCoherent, CallerCoherent, SideEffectAdmission.cancelIfQueued, timedOut]
  | drop =>
    cases caller <;> simp_all [callerStep]
    all_goals
      subst h
      cases ida <;> simp_all [IdaCoherent, CallerCoherent]
  | finish =>
    cases caller <;> simp_all [callerStep]
    all_goals
      subst h
      cases hobs : wait.observed <;> cases admission <;> cases ida <;>
        simp_all [IdaCoherent, CallerCoherent, Exchange.dropGuard, SideEffectAdmission.cancelIfQueued]
  | _ => cases h

theorem idaStep_coherent (hida : IdaCoherent s) (hcaller : CallerCoherent wait s)
    (h : idaStep s a = some t) : IdaCoherent t ∧ CallerCoherent wait t := by
  obtain ⟨admission, caller, ida, reply, mutations⟩ := s
  cases a with
  | dequeue =>
    cases ida <;> simp_all [idaStep]
    subst h
    cases caller <;> simp_all [IdaCoherent, CallerCoherent]
  | reject error =>
    cases ida <;> simp_all [idaStep]
    subst h
    cases caller <;> simp_all [IdaCoherent, CallerCoherent, Reply.received]
  | admission =>
    cases ida <;> simp_all [idaStep]
    cases admission <;> simp_all [SideEffectAdmission.start]
    all_goals
      subst h
      cases caller <;> simp_all [IdaCoherent, CallerCoherent, Reply.received]
  | decline error =>
    cases ida <;> simp_all [idaStep]
    subst h
    cases caller <;> simp_all [IdaCoherent, CallerCoherent, Reply.received]
  | mutate =>
    cases ida <;> simp_all [idaStep]
    subst h
    cases caller <;> simp_all [IdaCoherent, CallerCoherent]
  | settle result =>
    cases ida <;> simp_all [idaStep]
    subst h
    cases caller <;> simp_all [IdaCoherent, CallerCoherent, Reply.received]
  | close =>
    cases ida <;> simp_all [idaStep]
    all_goals
      subst h
      cases caller <;> simp_all [IdaCoherent, CallerCoherent, Reply.received]
  | _ => cases h

theorem coherent_of_reachable (h : Reachable (step wait) .initial s) :
    IdaCoherent s ∧ CallerCoherent wait s := by
  apply invariant_of_reachable ?_ ⟨⟨rfl, rfl⟩, rfl, rfl⟩ h
  rintro s a t ⟨hida, hcaller⟩ hstep
  rcases Option.or_eq_some_iff.mp hstep with hstep | ⟨_, hstep⟩
  · exact callerStep_coherent hida hcaller hstep
  · exact idaStep_coherent hida hcaller hstep

theorem step_admission (h : step wait s a = some t) (hdecided : s.admission ≠ .queued) :
    t.admission = s.admission := by
  obtain ⟨admission, caller, ida, reply, mutations⟩ := s
  have hcancel : admission.cancelIfQueued.2 = admission := by
    cases admission <;> first | rfl | exact (hdecided rfl).elim
  have hstart : admission.start.2 = admission := by
    cases admission <;> first | rfl | exact (hdecided rfl).elim
  rcases Option.or_eq_some_iff.mp h with hstep | ⟨_, hstep⟩
  · cases a with
    | cancel =>
      cases caller <;> cases hstep
      exact hcancel
    | finish =>
      cases caller <;> cases hstep
      all_goals
        unfold Exchange.dropGuard
        split
        · rfl
        · exact hcancel
    | receive =>
      cases caller <;> simp [callerStep] at hstep
      all_goals
        obtain ⟨outcome, _, rfl⟩ := hstep
        rfl
    | _ => cases caller <;> cases hstep <;> rfl
  · cases a with
    | admission =>
      cases ida <;> try cases hstep
      cases admission with
      | queued => exact (hdecided rfl).elim
      | started => cases hstep; rfl
      | cancelled => cases hstep; rfl
    | _ => cases ida <;> cases hstep <;> rfl

theorem admission_of_run (h : Reachable (step wait) s t) (hdecided : s.admission ≠ .queued) :
    t.admission = s.admission := by
  apply invariant_of_reachable (I := fun t => t.admission = s.admission) ?_ rfl h
  intro t a t' ht hstep
  rw [step_admission hstep (by rwa [ht]), ht]

theorem Reply.received_of_started {reply : Reply α} {outcome : Except ToolError α}
    (h : (∃ result, reply = .settled result) ∨ reply = .closed) (hreceived : reply.received = some outcome) :
    reply = .settled outcome ∨ reply = .closed ∧ outcome = .error .workerClosed := by
  rcases h with ⟨result, rfl⟩ | rfl
  · cases hreceived
    exact .inl rfl
  · cases hreceived
    exact .inr ⟨rfl, rfl⟩

theorem mutations_cases (h : IdaCoherent s) :
    s.mutations ≤ 1 ∧ (0 < s.mutations → s.admission = .started) := by
  unfold IdaCoherent at h
  split at h
  · exact ⟨by omega, fun hpos => by omega⟩
  · exact ⟨by omega, fun hpos => by omega⟩
  · exact ⟨by omega, fun hpos => by omega⟩
  · exact ⟨by omega, fun hpos => by omega⟩
  · exact ⟨by omega, fun _ => h.1⟩
  · exact ⟨h.1, h.2.1⟩

/-- One of the two threads wins a request that is queued, and the other one knows. -/
structure OneWinner (wait : Wait) (s : Exchange α) : Prop where
  once : s.mutations ≤ 1
  admitted : 0 < s.mutations → s.admission = .started
  abandoned : s.admission = .cancelled →
    ∀ t, Reachable (step wait) s t → t.admission = .cancelled ∧ t.mutations = 0
  started : s.admission = .started → ∀ t, Reachable (step wait) s t → t.admission = .started ∧
    ∀ outcome, t.caller = .returned outcome → t.reply = .settled outcome ∨
      t.reply = .closed ∧ outcome = .error .workerClosed
  outcome : ∀ outcome, s.caller = .returned outcome → s.ida ≠ .absent →
    s.reply.received = some outcome ∨ s.admission = .cancelled ∧ outcome = timedOut wait
  decided : (∃ outcome, s.caller = .returned outcome) ∨ s.caller = .gone → s.ida ≠ .absent →
    wait.observed = false → s.admission = .started ∨ s.admission = .cancelled

theorem outcome_of_started (hida : IdaCoherent s) (hcaller : CallerCoherent wait s)
    (hstarted : s.admission = .started) {outcome : Except ToolError α}
    (hreturned : s.caller = .returned outcome) :
    s.reply = .settled outcome ∨ s.reply = .closed ∧ outcome = .error .workerClosed := by
  have hsent : s.ida ≠ .absent := by
    intro habsent
    rw [IdaCoherent, habsent] at hida
    rw [hstarted] at hida
    cases hida.1
  rw [CallerCoherent, hreturned] at hcaller
  have hreceived : s.reply.received = some outcome := by
    rcases (hcaller.resolve_left hsent).1 with hreceived | ⟨hcancelled, _⟩
    · exact hreceived
    · rw [hstarted] at hcancelled
      cases hcancelled
  refine Reply.received_of_started ?_ hreceived
  unfold IdaCoherent at hida
  split at hida
  · next habsent => exact (hsent habsent).elim
  · exact (hida.1 hstarted).elim
  · exact (hida.1 hstarted).elim
  · rw [hida.2.2] at hreceived
    cases hreceived
  · rw [hida.2.2] at hreceived
    cases hreceived
  · exact hida.2.2.2 hstarted

theorem side_effect_admission (h : Reachable (step wait) .initial s) : OneWinner wait s := by
  obtain ⟨hida, hcaller⟩ := coherent_of_reachable h
  have later {t : Exchange α} (ht : Reachable (step wait) s t) :
      IdaCoherent t ∧ CallerCoherent wait t := by
    obtain ⟨as, has⟩ := h
    obtain ⟨bs, hbs⟩ := ht
    exact coherent_of_reachable ⟨as ++ bs, by rw [run_append, has]; exact hbs⟩
  constructor
  · exact (mutations_cases hida).1
  · exact (mutations_cases hida).2
  · intro hcancelled t ht
    have hsame : t.admission = .cancelled := by
      rw [admission_of_run ht (by rw [hcancelled]; nofun), hcancelled]
    refine ⟨hsame, ?_⟩
    by_contra hpos
    have hstarted := (mutations_cases (later ht).1).2 (Nat.pos_of_ne_zero hpos)
    rw [hsame] at hstarted
    cases hstarted
  · intro hstarted t ht
    have hsame : t.admission = .started := by
      rw [admission_of_run ht (by rw [hstarted]; nofun), hstarted]
    exact ⟨hsame, fun outcome => outcome_of_started (later ht).1 (later ht).2 hsame⟩
  · intro outcome hreturned hsent
    rw [CallerCoherent, hreturned] at hcaller
    exact (hcaller.resolve_left hsent).1
  · intro hended hsent hguarded
    have hdecided : wait.observed = true ∨ s.admission ≠ .queued := by
      rcases hended with ⟨outcome, hreturned⟩ | hgone
      · rw [CallerCoherent, hreturned] at hcaller
        exact (hcaller.resolve_left hsent).2
      · rw [CallerCoherent, hgone] at hcaller
        exact hcaller
    rw [hguarded] at hdecided
    cases hadmission : s.admission with
    | queued => exact (hdecided.resolve_left nofun hadmission).elim
    | started => exact .inl rfl
    | cancelled => exact .inr rfl

theorem side_effect_admission_late : OneWinner ⟨false, false, some 1⟩
    (⟨.started, .returned (.ok ()), .done, .settled (.ok ()), 1⟩ : Exchange Unit) :=
  side_effect_admission
    ⟨[.send, .dequeue, .elapse, .admission, .cancel, .mutate, .settle (.ok ()), .receive, .finish], rfl⟩

end IdaMcp.Worker
