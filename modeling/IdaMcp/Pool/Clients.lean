import IdaMcp.Pool.Cover

namespace IdaMcp.Pool

open Foundation State Position

variable {cfg : WorkerPoolConfig} {s s' : State} {a : Action} {t : TaskId} {d : Bool}
  {p p' : Position} {w : WorkerId} {l : LeaseId} {h : PooledWorkerHandle} {session : SessionId}

namespace Outcome

def loses : Outcome → Bool
  | error (.remoteCall _) => false
  | error e => !e.wasNeverDispatched
  | _ => false

def isError : Outcome → Bool
  | error _ => true
  | _ => false

end Outcome

namespace Position

def Acquires (session : SessionId) : Position → Prop
  | unreserve _ outcome | takeDead _ _ _ (.unreserve _ outcome) | forgetSlot _ _ (.unreserve _ outcome)
  | scheduleReplenishment (.unreserve _ outcome) => outcome.isError = true
  | done _ => True
  | p => p.leases = some session

def Serves (P : Prop) (h : PooledWorkerHandle) : Position → Prop
  | callAdmission h' _ _ | callAwait h' _ _ _ => h' = h
  | callSettle h' _ outcome => h' = h ∧ outcome.loses = false
  | takeDead _ _ _ (.settleCall h' _) => h' = h
  | forgetSlot _ _ (.settleCall h' _) | scheduleReplenishment (.settleCall h' _) => h' = h ∧ P
  | done outcome => outcome.loses = true → P
  | _ => False

theorem Serves.mono {P Q : Prop} (hp : p.Serves P h) (hPQ : P → Q) : p.Serves Q h := by
  cases p with
  | forgetSlot _ _ k | scheduleReplenishment k =>
    cases k with
    | settleCall => exact ⟨hp.1, hPQ hp.2⟩
    | _ => exact hp.elim
  | done outcome => exact fun hloses => hPQ (hp hloses)
  | takeDead _ _ _ k =>
    cases k with
    | settleCall => exact hp
    | _ => exact hp.elim
  | callAdmission | callAwait | callSettle => exact hp
  | _ => exact hp.elim

end Position

theorem leases_advance {slot : WorkerId → ChildSlot} (hadvance : Advance cfg s a slot t p p')
    (hp' : p'.leases = some session) : p.leases = some session := by
  cases hadvance with
  | moved _ hmove =>
    cases hmove with
    | closeNotSent | closeSendTimedOut | closeAnswered | closeTimedOut | closeLost =>
      rcases afterClosePosition_cases _ _ with ⟨e, -, -, hafter⟩ | ⟨-, hafter⟩ <;>
        rw [hafter] at hp' <;> cases hp'
    | skipDead | countActive => exact hp'
    | _ => cases hp'
  | @leaseGone _ _ _ k | @forgot _ k | @replenished k => cases k <;> cases hp'
  | tookLeaseId | leaseScanBegun | leaseWaits | leaseReserved => exact hp'
  | @spawned purpose w hslot => cases purpose <;> exact hp'
  | _ => cases hp'

theorem leases_begun (hbegun : Begun s a p) (hp : p.leases = some session) :
    a = .start (.lease session) := by
  cases hbegun with
  | started operation ha =>
    cases operation with
    | lease => cases hp; exact ha
    | markDeadForLease h guarded => cases guarded <;> cases hp
    | _ => cases hp
  | minimum | reaper | killed => cases hp
  | cleanup _ _ hdrop =>
    rcases dropTask_eq_some hdrop with ⟨w, -, rfl | rfl⟩ | ⟨h, -, rfl⟩ <;> cases hp

theorem leases_of_step (hsound : Accounted cfg s) (hstep : step cfg s a = some s')
    (ht : s'.role leases t = some session) :
    s.role leases t = some session ∨ s.nextTask ≤ t ∧ a = .start (.lease session) := by
  have htasks := taskStep_transition hsound.fresh (transition_of_step hstep)
  rcases htasks.role ht with ⟨-, -, -, hold⟩ | ⟨p, p', d, hp, -, hadvance, hp'⟩ | ⟨p, hnew, hbegun, hp⟩
  · exact .inl hold
  · exact .inl ((role_eq leases hp).trans (leases_advance hadvance hp'))
  · exact .inr ⟨hnew, leases_begun hbegun hp⟩

theorem acquires_next {choice : Choice} (hfresh : s.Fresh) (hp : p.Acquires session)
    (ht : s.task t = some ⟨p, d⟩)
    (hnext : next cfg s t p choice = some s') :
    ∃ p', s'.task t = some ⟨p', d⟩ ∧ p'.Acquires session ∧
      ∀ h, p' = .done (.leased h) → s'.issued = s.issued ++ [h] ∧ h.sessionId = session := by
  have goes {u : State} {p' : Position} (ht₁ : u.task t = some ⟨p, d⟩) (hp' : p'.Acquires session)
      (hdone : ∀ h, p' ≠ .done (.leased h)) :
      ∃ q, (u.goto t p').task t = some ⟨q, d⟩ ∧ q.Acquires session ∧
        ∀ h, q = .done (.leased h) → (u.goto t p').issued = s.issued ++ [h] ∧ h.sessionId = session :=
    ⟨p', task_goto_self ht₁ p', hp', fun h hq => (hdone h hq).elim⟩
  cases choice with
  | proceed =>
    cases p with
    | takeLeaseId =>
      simp only [next] at hnext
      split_ifs at hnext
      cases hnext
      exact goes (u := { s with nextLeaseId := s.nextLeaseId + 1 }) ht hp (by rintro _ ⟨⟩)
    | leaseLoop =>
      simp only [next] at hnext
      split_ifs at hnext
      · cases hnext
        exact goes ht trivial (by rintro _ ⟨⟩)
      · cases hnext
        exact goes (u := s.setPoolLock (some t)) ht hp (by rintro _ ⟨⟩)
    | leaseScan _ lease rest active deadIds =>
      cases hp
      cases hnext
      cases rest with
      | nil =>
        unfold leaseScan
        split_ifs
        · exact goes (u := (s.forget deadIds).setPoolLock none) ht trivial (by rintro _ ⟨⟩)
        · exact goes (u := (s.forget deadIds).setPoolLock none) ht rfl (by rintro _ ⟨⟩)
        · exact goes (u := (s.forget deadIds).setPoolLock none) ht trivial (by rintro _ ⟨⟩)
        · exact goes (u := (s.forget deadIds).reserve.setPoolLock none) ht rfl (by rintro _ ⟨⟩)
      | cons w rest =>
        cases hw : s.stateOf w with
        | dead | leased | closing =>
          simp only [leaseScan, hw]
          exact goes ht rfl (by rintro _ ⟨⟩)
        | idle =>
          simp only [leaseScan, hw]
          refine ⟨_, task_goto_self (s := ((s.useSlot w (.leased session lease)).setPoolLock none).issue
            ⟨w, session, lease, false⟩) ht _, trivial, ?_⟩
          intro h hdone
          cases hdone
          exact ⟨rfl, rfl⟩
    | spawnSlot purpose w =>
      cases hnext
      refine goes (u := s.setSlot w (newSlot purpose.initialState s.now)) ht ?_ (by rintro _ ⟨⟩)
      cases purpose <;> exact hp
    | finishSpawn purpose w =>
      simp only [next] at hnext
      split_ifs at hnext
      cases hnext
      unfold finishSpawn
      split_ifs
      · exact goes ht rfl (by rintro _ ⟨⟩)
      · cases purpose with
        | minimum => cases hp
        | lease session' lease =>
          cases hp
          refine ⟨_, task_goto_self (s := ((s.setChildren (s.children ++ [w])).unreserve w).issue
            ⟨w, session, lease, false⟩) ht _, trivial, ?_⟩
          intro h hdone
          cases hdone
          exact ⟨rfl, rfl⟩
    | unreserve w outcome =>
      simp only [next] at hnext
      split_ifs at hnext
      cases hnext
      refine goes (u := s.unreserve w) ht trivial ?_
      intro h hdone
      cases hdone
      cases hp
    | takeDead w lease replenish k =>
      cases k with
      | unreserve w' outcome =>
        simp only [next, Option.some.injEq, takeDead] at hnext
        subst hnext
        split_ifs
        · exact goes (u := s.setState w .dead) ht hp (by rintro _ ⟨⟩)
        · exact goes ht hp (by rintro _ ⟨⟩)
      | _ => cases hp
    | forgetSlot w replenish k =>
      cases k with
      | unreserve w' outcome =>
        simp only [next] at hnext
        split_ifs at hnext <;> cases hnext
        · exact goes (u := s.forget [w]) ht hp (by rintro _ ⟨⟩)
        · exact goes (u := s.forget [w]) ht hp (by rintro _ ⟨⟩)
      | _ => cases hp
    | scheduleReplenishment k =>
      cases k with
      | unreserve w' outcome =>
        simp only [next] at hnext
        split_ifs at hnext
        cases hnext
        exact goes (task_replenish _ hfresh ht) hp (by rintro _ ⟨⟩)
      | _ => cases hp
    | done => cases hnext
    | _ => cases hp
  | spawnFails error =>
    cases p with
    | spawnSlot purpose w =>
      cases hnext
      exact goes ht rfl (by rintro _ ⟨⟩)
    | callAdmission | callAwait | releaseAwait => cases hp
    | _ => cases hnext
  | _ =>
    cases p with
    | callAdmission | callAwait | releaseSend | releaseAwait => cases hp
    | _ => cases hnext

theorem lost_of_not_belongs (hgone : (s.stateOf h.workerId).belongsToLease h.leaseId = false) :
    s.Lost h := by
  intro session hleased
  rw [hleased] at hgone
  exact of_decide_eq_false hgone rfl

def State.Issued (s : State) (h : PooledWorkerHandle) : Prop :=
  { h with preserveOnCancel := false } ∈ s.issued

theorem published_of_issued (href : Referred s) (hissued : s.Issued h) : s.Published h.workerId :=
  href.issued { h with preserveOnCancel := false } hissued

theorem lost_step (href : Referred s) (htokens : (tokens s).Sound) (hissued : s.Issued h)
    (hslot : SlotStep s a s' h.workerId) (hlost : s.Lost h) : s'.Lost h := by
  intro session' hleased
  cases hslot.stateStep with
  | same hstate =>
    rw [hstate] at hleased
    exact hlost session' hleased
  | @leased t session lease rest active deadIds d ha ht hidle ht' hstate =>
    rw [hstate] at hleased
    cases hleased
    have hdrawn : (tokens s).drawn t = some ⟨session', h.leaseId, none⟩ := role_eq draws ht
    have hgrant : (⟨h.sessionId, h.leaseId, h.workerId⟩ : Grant WorkerId SessionId) ∈
        (tokens s).granted := List.mem_map.mpr ⟨_, hissued, rfl⟩
    exact htokens.drawn_not_granted t _ hdrawn _ hgrant rfl
  | built ht ht' hstate =>
    exact not_unbuilt_of_published (published_of_issued href hissued) (.inr ⟨_, role_eq starts ht⟩)
  | killed _ _ _ hstate | closing _ _ _ _ hstate | reset _ _ _ hstate =>
    rw [hstate] at hleased
    cases hleased

theorem loses_of_wasNeverDispatched {error : ToolError} (h : error.wasNeverDispatched = true) :
    (Outcome.error error).loses = false := by
  cases error <;> first | rfl | cases h

theorem session_of_issued (htokens : (tokens s).Sound) (hissued : s.Issued h)
    (hleased : s.stateOf h.workerId = .leased session h.leaseId) : session = h.sessionId := by
  have hgrant : (⟨h.sessionId, h.leaseId, h.workerId⟩ : Grant WorkerId SessionId) ∈
      (tokens s).granted := List.mem_map.mpr ⟨_, hissued, rfl⟩
  have hlease : (s.stateOf h.workerId).leaseId = some h.leaseId := by rw [hleased]; rfl
  have hsession : (s.stateOf h.workerId).sessionId = some session := by rw [hleased]; rfl
  exact (htokens.granted_reserved _ hgrant h.workerId hlease).2 session hsession

theorem serves_goto {P : Prop} {u : State} (ht : u.task t = some ⟨p, d⟩) (hp' : p'.Serves P h) :
    ∃ q, (u.goto t p').task t = some ⟨q, d⟩ ∧ q.Serves P h :=
  ⟨p', task_goto_self ht p', hp'⟩

theorem serves_resume {P : Prop} {u : State} {outcome : Outcome} (ht : u.task t = some ⟨p, d⟩) (hP : P) :
    ∃ q, (resume u t (.settleCall h outcome)).task t = some ⟨q, d⟩ ∧ q.Serves P h :=
  serves_goto (u := u.setCallLock h.workerId none) ht fun _ => hP

theorem serves_settleCall {P : Prop} {tool : String} {tracksOpen : Bool} {outcome : Outcome}
    (ht : s.task t = some ⟨p, d⟩) (hloses : outcome.loses = false) :
    ∃ q, (settleCall s t h tool tracksOpen outcome).task t = some ⟨q, d⟩ ∧ q.Serves P h := by
  unfold settleCall
  split_ifs
  · exact serves_goto ht ⟨rfl, hloses⟩
  · refine serves_goto (u := s.setCallLock h.workerId none) ht ?_
    intro htrue
    rw [hloses] at htrue
    cases htrue

theorem serves_callAdmission {tool : String} {tracksOpen : Bool} {choice : Choice}
    (htokens : (tokens s).Sound) (hissued : s.Issued h)
    (ht : s.task t = some ⟨.callAdmission h tool tracksOpen, d⟩)
    (hnext : callAdmission s t h tool tracksOpen choice = some s') :
    ∃ p', s'.task t = some ⟨p', d⟩ ∧ p'.Serves (s'.Lost h) h := by
  have never {error : ToolError} (herror : error.wasNeverDispatched = true) :
      ∃ p', (s.goto t (.done (.error error))).task t = some ⟨p', d⟩ ∧
        p'.Serves ((s.goto t (.done (.error error))).Lost h) h := by
    refine serves_goto ht ?_
    intro hloses
    rw [loses_of_wasNeverDispatched herror] at hloses
    cases hloses
  cases choice with
  | refused error =>
    simp only [callAdmission] at hnext
    split_ifs at hnext with herror
    cases hnext
    exact never herror
  | proceed =>
    simp only [callAdmission] at hnext
    split_ifs at hnext with hcall
    cases hadmission : admissionError s h tool with
    | none =>
      rw [hadmission] at hnext
      cases hnext
      exact serves_goto (u := send (s.setCallLock h.workerId (some t)) t h tool) ht rfl
    | some error =>
      rw [hadmission] at hnext
      cases hnext
      refine serves_goto ht fun _ session hleased => ?_
      change s.stateOf h.workerId = _ at hleased
      obtain rfl := session_of_issued htokens hissued hleased
      rw [admissionError_eq_none.mpr hleased] at hadmission
      cases hadmission
  | notSent error =>
    simp only [callAdmission] at hnext
    split_ifs at hnext with hguard herror
    · cases hnext
      exact never herror
    · cases hnext
      exact serves_goto (u := s.setCallLock h.workerId (some t)) ht rfl
  | _ => cases hnext

theorem serves_callAwait {P : Prop} {tool : String} {tracksOpen : Bool} {answer : Option Answer}
    {choice : Choice} (ht : s.task t = some ⟨.callAwait h tool tracksOpen answer, d⟩)
    (hnext : callAwait s t h tool tracksOpen answer choice = some s') :
    ∃ p', s'.task t = some ⟨p', d⟩ ∧ p'.Serves P h := by
  cases choice with
  | proceed =>
    cases answer with
    | none => cases hnext
    | some answer =>
      cases answer with
      | rejected error =>
        cases hnext
        exact serves_settleCall ht rfl
      | result result =>
        simp only [callAwait] at hnext
        cases hretire : replyRetirement tool tracksOpen result with
        | none =>
          rw [hretire] at hnext
          cases hnext
          exact serves_settleCall ht rfl
        | some error =>
          rw [hretire] at hnext
          cases hnext
          exact serves_goto ht rfl
  | timedOut | transportLost | cancelled =>
    simp only [callAwait] at hnext
    split_ifs at hnext
    cases hnext
    exact serves_goto ht rfl
  | _ => cases hnext

theorem serves_callSettle {tool : String} {outcome : Outcome} (hloses : outcome.loses = false)
    (ht : s.task t = some ⟨.callSettle h tool outcome, d⟩) :
    ∃ p', (callSettle s t h tool outcome).task t = some ⟨p', d⟩ ∧
      p'.Serves ((callSettle s t h tool outcome).Lost h) h := by
  unfold callSettle
  split_ifs with hdead hbelongs
  · exact serves_goto ht rfl
  · refine serves_goto (u := s.setCallLock h.workerId none) ht ?_
    intro htrue
    rw [hloses] at htrue
    cases htrue
  · refine serves_goto (u := s.setCallLock h.workerId none) ht fun _ => ?_
    apply lost_of_not_belongs
    change ((s.setCallLock h.workerId none).stateOf h.workerId).belongsToLease h.leaseId = false
    rw [stateOf_setCallLock]
    simpa using hbelongs

theorem serves_next {choice : Choice} (hfresh : s.Fresh) (htokens : (tokens s).Sound)
    (haligned : p.Aligned) (hissued : s.Issued h) (hlost : s.Lost h → s'.Lost h)
    (hp : p.Serves (s.Lost h) h) (ht : s.task t = some ⟨p, d⟩)
    (hnext : next cfg s t p choice = some s') :
    ∃ p', s'.task t = some ⟨p', d⟩ ∧ p'.Serves (s'.Lost h) h := by
  cases p with
  | callAdmission =>
    obtain rfl := hp
    exact serves_callAdmission htokens hissued ht hnext
  | callAwait =>
    obtain rfl := hp
    exact serves_callAwait ht hnext
  | callSettle =>
    obtain ⟨rfl, hloses⟩ := hp
    cases choice with
    | proceed =>
      cases hnext
      exact serves_callSettle hloses ht
    | _ => cases hnext
  | takeDead w lease replenish k =>
    cases k with
    | settleCall h' outcome =>
      obtain rfl : h' = h := hp
      obtain ⟨rfl, rfl⟩ := haligned h' rfl
      cases choice with
      | proceed =>
        simp only [next, Option.some.injEq, takeDead] at hnext
        split_ifs at hnext with htake
        · subst hnext
          refine serves_goto (u := s.setState h'.workerId .dead) ht ⟨rfl, ?_⟩
          intro session hleased
          change (s.setState h'.workerId .dead).stateOf h'.workerId = _ at hleased
          rw [stateOf_setState, if_pos rfl] at hleased
          cases hleased
        · subst hnext
          apply serves_resume ht
          apply lost_of_not_belongs
          rw [stateOf_resume]
          simpa using htake
      | _ => cases hnext
    | _ => exact hp.elim
  | forgetSlot w replenish k =>
    cases k with
    | settleCall h' outcome =>
      obtain ⟨rfl, hgone⟩ := hp
      cases choice with
      | proceed =>
        have hkept := hlost hgone
        simp only [next] at hnext
        split_ifs at hnext <;> cases hnext
        · exact serves_goto (u := s.forget [w]) ht ⟨rfl, hkept⟩
        · exact serves_resume (u := s.forget [w]) ht hkept
      | _ => cases hnext
    | _ => exact hp.elim
  | scheduleReplenishment k =>
    cases k with
    | settleCall h' outcome =>
      obtain ⟨rfl, hgone⟩ := hp
      cases choice with
      | proceed =>
        have hkept := hlost hgone
        simp only [next] at hnext
        split_ifs at hnext
        cases hnext
        exact serves_resume (task_replenish _ hfresh ht) hkept
      | _ => cases hnext
    | _ => exact hp.elim
  | done => cases hnext
  | _ => exact hp.elim

theorem acquires_step (hfresh : s.Fresh) (hp : p.Acquires session) (ht : s.task t = some ⟨p, d⟩)
    (hstep : step cfg s a = some s') {d' : Bool} (ht' : s'.task t = some ⟨p', d'⟩) :
    p'.Acquires session ∧ d' = d := by
  by_cases hactor : a.actor = some t
  · cases a with
    | run t' choice =>
      obtain rfl := Option.some.inj hactor
      obtain ⟨q, hq, hacquires, -⟩ := acquires_next hfresh hp ht (next_of_step hstep ht)
      rw [ht'] at hq
      cases hq
      exact ⟨hacquires, rfl⟩
    | drop t' =>
      obtain rfl := Option.some.inj hactor
      rw [task_of_drop hfresh ht hstep] at ht'
      cases ht'
    | _ => cases hactor
  · rcases task_kept hfresh (transition_of_step hstep) ht hactor with hsame |
      ⟨h, answer, rfl, -⟩ | ⟨h, tool, tracksOpen, answer, rfl, -⟩
    · rw [ht'] at hsame
      cases hsame
      exact ⟨hp, rfl⟩
    · cases hp
    · cases hp

theorem serves_step (hfresh : s.Fresh) (htokens : (tokens s).Sound) (haligned : s.Aligned)
    (hissued : s.Issued h) (hlost : s.Lost h → s'.Lost h) (hp : p.Serves (s.Lost h) h)
    (ht : s.task t = some ⟨p, d⟩) (hstep : step cfg s a = some s') {d' : Bool}
    (ht' : s'.task t = some ⟨p', d'⟩) : p'.Serves (s'.Lost h) h := by
  by_cases hactor : a.actor = some t
  · cases a with
    | run t' choice =>
      obtain rfl := Option.some.inj hactor
      obtain ⟨q, hq, hserves⟩ := serves_next hfresh htokens (haligned _ _ _ ht) hissued hlost hp ht
        (next_of_step hstep ht)
      rw [ht'] at hq
      cases hq
      exact hserves
    | drop t' =>
      obtain rfl := Option.some.inj hactor
      rw [task_of_drop hfresh ht hstep] at ht'
      cases ht'
    | _ => cases hactor
  · rcases task_kept hfresh (transition_of_step hstep) ht hactor with hsame |
      ⟨h', answer, rfl, -⟩ | ⟨h', tool, tracksOpen, answer, rfl, hanswered⟩
    · rw [ht'] at hsame
      cases hsame
      exact hp.mono hlost
    · exact hp.elim
    · rw [ht'] at hanswered
      cases hanswered
      exact hp

structure Regular (cfg : WorkerPoolConfig) (s : State) : Prop where
  accounted : Accounted cfg s
  kept : Kept s
  tokens : (tokens s).Sound
  referred : Referred s
  aligned : s.Aligned

theorem regular_warmed : Regular cfg (warmed cfg) :=
  ⟨⟨fresh_warmed, sound_warmed⟩, kept_warmed, sound_tokens_warmed, referred_warmed, aligned_warmed⟩

theorem Regular.step (h : Regular cfg s) (hstep : step cfg s a = some s') : Regular cfg s' := by
  have htransition := transition_of_step hstep
  have hfresh := h.accounted.fresh
  exact ⟨h.accounted.step hstep, h.kept.step h.accounted htransition,
    h.tokens.steps (tokenSteps_transition hfresh htransition),
    h.referred.step h.accounted htransition, h.aligned.step (taskStep_transition hfresh htransition)⟩

theorem Regular.fresh (h : Regular cfg s) : s.Fresh := h.accounted.fresh

theorem Regular.slots (h : Regular cfg s) (hstep : Pool.step cfg s a = some s') (w : WorkerId) :
    SlotStep s a s' w :=
  slotStep_transition h.fresh (transition_of_step hstep) w

theorem issued_step (hstep : step cfg s a = some s') (hissued : s.Issued h) : s'.Issued h := by
  rcases issued_cases (transition_of_step hstep) with hsame | ⟨t, w, session, lease, -, hnew, -⟩
  · unfold State.Issued
    rwa [hsame]
  · unfold State.Issued
    rw [hnew]
    exact List.mem_append_left _ hissued

theorem Regular.lost_step (h : Regular cfg s) (hstep : Pool.step cfg s a = some s')
    {handle : PooledWorkerHandle} (hissued : s.Issued handle) (hlost : s.Lost handle) :
    s'.Lost handle :=
  Pool.lost_step h.referred h.tokens hissued (h.slots hstep _) hlost

theorem session_eq_of_issued (htokens : (Pool.tokens s).Sound) {h' : PooledWorkerHandle}
    (hissued : s.Issued h) (hissued' : s.Issued h') (hlease : h.leaseId = h'.leaseId) :
    h.sessionId = h'.sessionId := by
  have hnodup := htokens.granted_nodup
  rw [Pool.tokens, List.map_map] at hnodup
  have hsame := List.inj_on_of_nodup_map hnodup hissued hissued' hlease
  simpa using congrArg PooledWorkerHandle.sessionId hsame

theorem lease_of_issued (htokens : (Pool.tokens s').Sound) (hnew : s'.issued = s.issued ++ [h])
    {h' : PooledWorkerHandle} (hissued : s.Issued h') : h'.leaseId ≠ h.leaseId := by
  have hnodup := htokens.granted_nodup
  rw [Pool.tokens, List.map_map, hnew, List.map_append, List.nodup_append] at hnodup
  exact hnodup.2.2 _ (List.mem_map.mpr ⟨_, hissued, rfl⟩) _ (List.mem_singleton.mpr rfl)

end IdaMcp.Pool
