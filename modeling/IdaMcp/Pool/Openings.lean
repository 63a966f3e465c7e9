import IdaMcp.Pool.Calm

namespace IdaMcp.Pool

open Foundation Remote State Position

variable {cfg : WorkerPoolConfig} {s s' : State} {a : Action} {t : TaskId} {d : Bool}
  {p p' : Position} {w : WorkerId} {l : LeaseId} {session : SessionId} {h : PooledWorkerHandle}
  {P Q : Prop}

/-- An open that fails with the error releases no lease that it has only joined. -/
def spares (error : ToolError) : Prop := openErrorReleasesLease false error = false

/-- The outcome is one of an open; `P` is what its success tells. -/
def Outcome.Opens (P : Prop) : Outcome → Prop
  | .reply result => (result.isError ≠ some true → P) ∧
      ∀ err, resultError result "open_idb" = some err → spares err
  | .error err => spares err
  | .leased _ | .finished => False

theorem Outcome.Opens.mono {outcome : Outcome} (houtcome : outcome.Opens P) (hPQ : P → Q) :
    outcome.Opens Q := by
  cases outcome with
  | reply => exact ⟨fun hok => hPQ (houtcome.1 hok), houtcome.2⟩
  | error => exact houtcome
  | leased | finished => exact houtcome.elim

theorem spares_of_neverDispatched {error : ToolError} (h : error.wasNeverDispatched = true) :
    spares error := by
  unfold spares openErrorReleasesLease
  exact if_pos h

theorem classifyChildError_ne_databaseReplaced (message : String) :
    classifyChildError message ≠ .databaseReplaced := by
  intro h
  unfold classifyChildError at h
  split at h
  · cases h
  · split at h
    · cases h
    · unfold classifyByPhrase at h
      split_ifs at h

theorem spares_of_kept {result : CallToolResult} (hkept : replyRetirement "open_idb" true result = none)
    {error : ToolError} (herror : resultError result "open_idb" = some error) : spares error := by
  have hne : error ≠ .databaseReplaced := by
    unfold resultError at herror
    split_ifs at herror
    cases herror
    exact classifyChildError_ne_databaseReplaced _
  rw [replyRetirement, Option.or_eq_none_iff, herror, Option.filter_some] at hkept
  cases error with
  | databaseReplaced => exact (hne rfl).elim
  | timeout | timeoutDetailed | cancelled | workerCrashed | sdkCrashed | workerRetired | workerClosed =>
    cases hkept.2
  | _ => rfl

namespace Position

def Opens (P : Prop) (h : PooledWorkerHandle) : Position → Prop
  | callAdmission h' _ _ | callAwait h' _ _ none => h' = h
  | callAwait h' _ _ (some answer) => h' = h ∧ (answer.succeeds = true → P)
  | callSettle h' _ outcome => h' = h ∧ outcome.Opens P
  | done outcome => outcome.Opens P
  | p => p.loses = true

theorem Opens.mono (hp : p.Opens P h) (hPQ : P → Q) : p.Opens Q h := by
  cases p with
  | callAwait h' tool tracksOpen answer =>
    cases answer with
    | none => exact hp
    | some answer => exact ⟨hp.1, fun hok => hPQ (hp.2 hok)⟩
  | callSettle => exact ⟨hp.1, hp.2.mono hPQ⟩
  | done => exact Outcome.Opens.mono hp hPQ
  | _ => exact hp

end Position

theorem opens_goto {u : State} (ht : u.task t = some ⟨p, d⟩) (hp' : p'.Opens P h) :
    ∃ q, (u.goto t p').task t = some ⟨q, d⟩ ∧ q.Opens P h :=
  ⟨p', task_goto_self ht p', hp'⟩

theorem opens_settleCall {tool : String} {tracksOpen : Bool} {outcome : Outcome}
    (ht : s.task t = some ⟨p, d⟩) (houtcome : outcome.Opens P) :
    ∃ q, (settleCall s t h tool tracksOpen outcome).task t = some ⟨q, d⟩ ∧ q.Opens P h := by
  unfold settleCall
  split_ifs
  · exact opens_goto ht ⟨rfl, houtcome⟩
  · exact opens_goto (u := s.setCallLock h.workerId none) ht houtcome

theorem opens_callAdmission {tool : String} {tracksOpen : Bool} {choice : Choice}
    (hleased : s.stateOf h.workerId = .leased h.sessionId h.leaseId)
    (ht : s.task t = some ⟨.callAdmission h tool tracksOpen, d⟩)
    (hnext : callAdmission s t h tool tracksOpen choice = some s') :
    ∃ p', s'.task t = some ⟨p', d⟩ ∧ p'.Opens P h := by
  have hadmitted : admissionError s h tool = none := by
    rw [admissionError, hleased]
    exact if_pos ⟨rfl, rfl⟩
  cases choice with
  | refused error =>
    simp only [callAdmission] at hnext
    split_ifs at hnext with hnever
    cases hnext
    exact opens_goto ht (spares_of_neverDispatched hnever)
  | proceed =>
    simp only [callAdmission, hadmitted] at hnext
    split_ifs at hnext
    cases hnext
    exact opens_goto (u := send (s.setCallLock h.workerId (some t)) t h tool) ht rfl
  | notSent error =>
    simp only [callAdmission] at hnext
    split_ifs at hnext with _ hnever
    · cases hnext
      exact opens_goto ht (spares_of_neverDispatched hnever)
    · cases hnext
      exact opens_goto (u := s.setCallLock h.workerId (some t)) ht rfl
  | _ => cases hnext

theorem opens_callAwait {tool : String} {tracksOpen : Bool} {answer : Option Answer} {choice : Choice}
    (honly : (Position.callAwait h tool tracksOpen answer).OnlyOpens)
    (hp : (Position.callAwait h tool tracksOpen answer).Opens P h)
    (ht : s.task t = some ⟨.callAwait h tool tracksOpen answer, d⟩)
    (hnext : callAwait s t h tool tracksOpen answer choice = some s') :
    ∃ p', s'.task t = some ⟨p', d⟩ ∧ p'.Opens P h := by
  obtain ⟨rfl, rfl⟩ := honly
  cases choice with
  | proceed =>
    cases answer with
    | none => cases hnext
    | some answer =>
      cases answer with
      | rejected error =>
        cases hnext
        exact opens_settleCall ht rfl
      | result reply =>
        simp only [callAwait] at hnext
        cases hretire : replyRetirement "open_idb" true reply with
        | none =>
          rw [hretire] at hnext
          cases hnext
          exact opens_settleCall ht ⟨fun hok => hp.2 (decide_eq_true hok), fun error => spares_of_kept hretire⟩
        | some error =>
          rw [hretire] at hnext
          cases hnext
          exact opens_goto ht rfl
  | timedOut | transportLost | cancelled =>
    simp only [callAwait] at hnext
    split_ifs at hnext
    cases hnext
    exact opens_goto ht rfl
  | _ => cases hnext

theorem opens_callSettle {tool : String} {outcome : Outcome} (houtcome : outcome.Opens P)
    (hleased : s.stateOf h.workerId = .leased h.sessionId h.leaseId)
    (ht : s.task t = some ⟨.callSettle h tool outcome, d⟩) :
    ∃ p', (callSettle s t h tool outcome).task t = some ⟨p', d⟩ ∧ p'.Opens P h := by
  unfold callSettle
  split_ifs with _ hbelongs
  · exact opens_goto ht rfl
  · exact opens_goto (u := s.setCallLock h.workerId none) ht houtcome
  · rw [hleased] at hbelongs
    exact (hbelongs (by simp [ChildState.belongsToLease])).elim

theorem opens_next {choice : Choice} (hcalm : p.loses = false) (honly : p.OnlyOpens)
    (hleased : s.stateOf h.workerId = .leased h.sessionId h.leaseId) (hp : p.Opens P h)
    (ht : s.task t = some ⟨p, d⟩) (hnext : next cfg s t p choice = some s') :
    ∃ p', s'.task t = some ⟨p', d⟩ ∧ p'.Opens P h := by
  cases p with
  | callAdmission =>
    obtain rfl := hp
    exact opens_callAdmission hleased ht hnext
  | callAwait h' tool tracksOpen answer =>
    obtain rfl : h' = h := by
      cases answer with
      | none => exact hp
      | some answer => exact hp.1
    exact opens_callAwait honly hp ht hnext
  | callSettle =>
    obtain ⟨rfl, houtcome⟩ := hp
    cases choice with
    | proceed =>
      cases hnext
      exact opens_callSettle houtcome hleased ht
    | _ => cases hnext
  | done => cases hnext
  | _ => exact (Bool.false_ne_true (hcalm.symm.trans hp)).elim

theorem database_answered {request : Request} {answer : Answer} {effect : ChildEffect}
    (hquiet : Quiet s a) (ha : a = .childAnswer w request answer effect)
    (htool : request.tool = "open_idb") (hok : answer.succeeds = true)
    (hstep : step cfg s a = some s') : (s'.slot w).database ≠ none := by
  subst ha
  have hslot := (slot_childAnswer hstep).2
  rw [hslot, Function.update_self]
  by_cases hopen : (s.slot w).database = none
  · rw [hquiet.answers w request answer effect rfl htool hok hopen]
    exact Option.some_ne_none _
  · rw [hquiet.keeps w request answer effect rfl htool hopen]
    exact hopen

theorem opens_step (hreg : Regular cfg s) (hsteady : Steady s) (hquiet : Quiet s a)
    (hleased : s.stateOf h.workerId = .leased h.sessionId h.leaseId)
    (hkept : (s.slot h.workerId).database ≠ none → (s'.slot h.workerId).database ≠ none)
    (hp : p.Opens ((s.slot h.workerId).database ≠ none) h) (ht : s.task t = some ⟨p, d⟩)
    (hstep : step cfg s a = some s') {d' : Bool} (ht' : s'.task t = some ⟨p', d'⟩) :
    p'.Opens ((s'.slot h.workerId).database ≠ none) h := by
  by_cases hactor : a.actor = some t
  · cases a with
    | run t choice =>
      obtain rfl := Option.some.inj hactor
      have hcalm := hquiet.calm t _ hactor ht
      obtain ⟨q, hq, hopens⟩ :=
        opens_next hcalm (hsteady.opens t _ d ht) hleased hp ht (next_of_step hstep ht)
      rw [ht'] at hq
      cases hq
      exact hopens.mono hkept
    | drop t =>
      obtain rfl := Option.some.inj hactor
      rw [task_of_drop hreg.fresh ht hstep] at ht'
      cases ht'
    | _ => cases hactor
  · by_cases hanswer : ∃ w request answer effect, a = .childAnswer w request answer effect ∧ t = request.task
    · obtain ⟨w, request, answer, effect, ha, rfl⟩ := hanswer
      have hstep' := ha ▸ hstep
      rcases task_answered (transition_of_step hstep') ht with hsame | ⟨h', rfl, -⟩ |
        ⟨h', tool, tracksOpen, rfl, hanswered⟩
      · rw [ht'] at hsame
        cases hsame
        exact hp.mono hkept
      · exact (Bool.false_ne_true hp).elim
      · obtain rfl : h' = h := hp
        rw [ht'] at hanswered
        cases hanswered
        refine ⟨rfl, fun hok => ?_⟩
        obtain ⟨q, d'', hq, hawaits⟩ := hsteady.awaited w request (slot_childAnswer hstep').1
        rw [ht] at hq
        cases hq
        obtain ⟨rfl, htool⟩ := hawaits
        exact database_answered hquiet ha (htool.trans (hsteady.opens _ _ d ht).1) hok hstep
    · have hsame := task_unanswered hreg.fresh (transition_of_step hstep) ht hactor
        fun w request answer effect ha htask => hanswer ⟨w, request, answer, effect, ha, htask⟩
      rw [ht'] at hsame
      cases hsame
      exact hp.mono hkept

theorem granted_leased {choice : Choice} (hreg : Regular cfg s) (hsteady : Steady s)
    (hp : p.Acquires session) (ht : s.task t = some ⟨p, d⟩)
    (hstep : step cfg s (.run t choice) = some s') {d' : Bool}
    (ht' : s'.task t = some ⟨.done (.leased h), d'⟩) :
    s'.stateOf h.workerId = .leased session h.leaseId ∧ ¬s'.Releasing h.leaseId := by
  obtain ⟨q, hq, -, hgrant⟩ := acquires_next hreg.fresh hp ht (next_of_step hstep ht)
  cases ht'.symm.trans hq
  obtain ⟨hissued, hsession⟩ := hgrant h rfl
  constructor
  · rcases taskStep_transition hreg.fresh (transition_of_step hstep) t _ _ ht' with
      hold | ⟨p₀, hp₀, hadvance⟩ | ⟨hnew, -⟩
    · have hnext := next_of_step hstep hold
      cases hnext
    · rw [ht] at hp₀
      cases hp₀
      generalize hdone : Position.done (.leased h) = p' at hadvance
      cases hadvance with
      | moved _ hmove =>
        cases hmove with
        | closeNotSent | closeSendTimedOut | closeAnswered | closeTimedOut | closeLost
        | releaseEnded => cases hp
        | _ => cases hdone
      | @leaseGone _ _ _ k | @forgot _ k | @replenished k =>
        cases k with
        | unreserve => cases hdone
        | _ => cases hp
      | unreserved =>
        cases hdone
        cases hp
      | leasedIdle hidle hslot =>
        cases hdone
        cases hp
        exact hslot
      | installedLease =>
        cases hdone
        cases hp
        exact built_kept hreg (hsteady.starting t _ _ _ _ ht) ht hstep
      | leaseScanBegun | leaseReserved | leaseWaits | leaseRefused => cases hdone
      | tookDead | forgotLost => cases hdone
      | spawned | tookLeaseId | installedMinimum => cases hdone
      | _ => cases hp
    · exact (Nat.not_lt.mpr hnew (hreg.fresh.lt ht)).elim
  · intro hreleasing
    rcases releasing_step hreg.fresh hstep hreleasing with hold | ⟨h', ha, -⟩
    · obtain ⟨h', hissued', hlease⟩ := hsteady.releasing _ hold
      exact lease_of_issued (hreg.step hstep).tokens hissued hissued' hlease
    · cases ha

end IdaMcp.Pool
