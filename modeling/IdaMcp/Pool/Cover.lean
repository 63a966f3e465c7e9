import IdaMcp.Pool.Leases
import IdaMcp.Pool.Published

namespace IdaMcp.Pool

open Foundation State Position

variable {cfg : WorkerPoolConfig} {s s' : State} {a : Action} {t : TaskId} {d : Bool}
  {p p' : Position} {w : WorkerId} {l : LeaseId} {h : PooledWorkerHandle}

def Continuation.handle : Continuation → Option PooledWorkerHandle
  | .guarded h _ | .settleCall h _ | .settleRelease h _ => some h
  | .stop _ | .unreserve _ _ => none

namespace Position

def Aligned : Position → Prop
  | takeDead w lease _ k => ∀ h, k.handle = some h → h.workerId = w ∧ lease = some h.leaseId
  | _ => True

/-- A task that will take slot `w` from lease `l`, or is still starting it. -/
def Ends (w : WorkerId) (l : LeaseId) : Position → Prop
  | finishSpawn (.lease _ lease) w' => w' = w ∧ lease = l
  | takeDead w' lease _ _ => w' = w ∧ ∀ l', lease = some l' → l' = l
  | releaseLock h | releaseSend h | releaseAwait h _ | releaseReset h _ =>
    h.workerId = w ∧ h.leaseId = l
  | _ => False

/-- A retirement that no guard watches. -/
def unwatched : Position → Bool
  | takeDead _ _ _ (.stop _) => true
  | _ => false

def leases : Position → Option SessionId
  | takeLeaseId session | leaseLoop session _ | leaseScan session _ _ _ _
  | spawnSlot (.lease session _) _ | finishSpawn (.lease session _) _ => some session
  | _ => none

theorem aligned_continuation (k : Continuation) : k.position.Aligned := by
  cases k <;> trivial

theorem aligned_afterClose (h : PooledWorkerHandle) (error : Option ToolError) :
    (afterClosePosition h error).Aligned := by
  rcases afterClosePosition_cases h error with ⟨e, -, -, hp⟩ | ⟨-, hp⟩ <;> rw [hp]
  · rintro h' hk
    cases hk
    exact ⟨rfl, rfl⟩
  · trivial

theorem ends_afterClose (h : PooledWorkerHandle) (error : Option ToolError) :
    (afterClosePosition h error).Ends h.workerId h.leaseId := by
  rcases afterClosePosition_cases h error with ⟨e, -, -, hp⟩ | ⟨-, hp⟩ <;> rw [hp]
  · exact ⟨rfl, fun l' hl => (Option.some.inj hl).symm⟩
  · exact ⟨rfl, rfl⟩

end Position

theorem aligned_advance {slot : WorkerId → ChildSlot} (hadvance : Advance cfg s a slot t p p') :
    p'.Aligned := by
  cases hadvance with
  | moved _ hmove =>
    cases hmove with
    | closeNotSent | closeSendTimedOut | closeAnswered | closeTimedOut | closeLost =>
      exact aligned_afterClose _ _
    | discard =>
      intro h hk
      cases hk
    | callRetired | settleRetired =>
      intro h hk
      cases hk
      exact ⟨rfl, rfl⟩
    | _ => trivial
  | leaseGone | forgot | replenished => exact aligned_continuation _
  | callSendLost =>
    intro h hk
    cases hk
    exact ⟨rfl, rfl⟩
  | _ => trivial

theorem aligned_begun (hbegun : Begun s a p) : p.Aligned := by
  cases hbegun with
  | started operation =>
    cases operation with
    | markDead =>
      intro h hk
      cases hk
    | markDeadForLease h₀ guarded =>
      intro h hk
      cases guarded <;> cases hk
      exact ⟨rfl, rfl⟩
    | _ => trivial
  | minimum | reaper => trivial
  | killed =>
    intro h hk
    cases hk
  | cleanup _ _ hdrop =>
    rcases dropTask_eq_some hdrop with ⟨w, -, rfl | rfl⟩ | ⟨h₀, -, rfl⟩
    · trivial
    · intro h hk
      cases hk
    · intro h hk
      cases hk

theorem unwatched_advance {slot : WorkerId → ChildSlot} (hadvance : Advance cfg s a slot t p p') :
    p'.unwatched = false := by
  cases hadvance with
  | moved _ hmove =>
    cases hmove with
    | closeNotSent | closeSendTimedOut | closeAnswered | closeTimedOut | closeLost =>
      rcases afterClosePosition_cases _ _ with ⟨e, -, -, hafter⟩ | ⟨-, hafter⟩ <;> rw [hafter] <;> rfl
    | _ => rfl
  | @leaseGone _ _ _ k | @forgot _ k | @replenished k => cases k <;> rfl
  | _ => rfl

namespace State

def Aligned (s : State) : Prop := ∀ t p d, s.task t = some ⟨p, d⟩ → p.Aligned

def Covered (s : State) (w : WorkerId) (l : LeaseId) : Prop :=
  ∃ t p d, s.task t = some ⟨p, d⟩ ∧ p.Ends w l

def Lost (s : State) (h : PooledWorkerHandle) : Prop :=
  ∀ session, s.stateOf h.workerId ≠ .leased session h.leaseId

theorem Aligned.step (h : s.Aligned) (htasks : TaskStep cfg s a s') : s'.Aligned := by
  intro t p' d ht'
  rcases htasks t p' d ht' with ht | ⟨p, -, hadvance⟩ | ⟨-, hbegun⟩
  · exact h t p' d ht
  · exact aligned_advance hadvance
  · exact aligned_begun hbegun

end State

theorem aligned_warmed : (warmed cfg).Aligned := by
  intro t p d ht
  cases ht

/-- Either a task that ends a lease goes on to do so, or it grants the lease, or it is dropped before
it has taken a slot that no guard watches. -/
inductive Covers (s : State) (a : Action) (s' : State) (t : TaskId) (p : Position) (w : WorkerId)
    (l : LeaseId) : Prop
  | covered (hcovered : s'.Covered w l)
  | granted {choice session d} (ha : a = .run t choice) (hp : p = .finishSpawn (.lease session l) w)
    (ht' : s'.task t = some ⟨.done (.leased ⟨w, session, l, false⟩), d⟩)
  | dropped {lease replenish outcome} (ha : a = .drop t)
    (hp : p = .takeDead w lease replenish (.stop outcome))

theorem covered_goto {u : State} (ht : u.task t = some ⟨p, d⟩) (hp' : p'.Ends w l) :
    (u.goto t p').Covered w l :=
  ⟨t, p', d, task_goto_self ht p', hp'⟩

theorem covers_run {choice : Choice} (hends : p.Ends w l) (ht : s.task t = some ⟨p, d⟩)
    (hstep : step cfg s (.run t choice) = some s')
    (hbelongs : (s'.stateOf w).belongsToLease l = true) : Covers s (.run t choice) s' t p w l := by
  have hnext := next_of_step hstep ht
  have hgone (state : ChildState) (hstate : s'.stateOf w = state)
      (hlease : state.belongsToLease l = false) : Covers s (.run t choice) s' t p w l := by
    rw [hstate, hlease] at hbelongs
    cases hbelongs
  cases p with
  | finishSpawn purpose w' =>
    cases purpose with
    | minimum => exact hends.elim
    | lease session lease =>
      obtain ⟨rfl, rfl⟩ := hends
      cases choice with
      | proceed =>
        simp only [next, finishSpawn] at hnext
        split_ifs at hnext with hlock hshut
        · cases hnext
          exact .covered (covered_goto ht ⟨rfl, by rintro _ ⟨⟩⟩)
        · cases hnext
          exact .granted rfl rfl (task_goto_self
            (s := ((s.setChildren (s.children ++ [w'])).unreserve w').issue ⟨w', session, lease, false⟩)
            ht _)
      | _ => cases hnext
  | takeDead w' lease replenish k =>
    obtain ⟨rfl, hlease⟩ := hends
    cases choice with
    | proceed =>
      simp only [next, Option.some.injEq, takeDead] at hnext
      split_ifs at hnext with htake
      · subst hnext
        refine hgone .dead ?_ rfl
        change (s.setState w' .dead).stateOf w' = .dead
        rw [stateOf_setState, if_pos rfl]
      · cases lease with
        | none => exact (htake rfl).elim
        | some l' =>
          obtain rfl := hlease l' rfl
          subst hnext
          exact hgone _ (stateOf_resume s t k w') (by simpa using htake)
    | _ => cases hnext
  | releaseLock h =>
    obtain ⟨rfl, rfl⟩ := hends
    cases choice with
    | proceed =>
      simp only [next] at hnext
      split_ifs at hnext with hcall hlease
      · cases hnext
        exact .covered (covered_goto (u := State.setCallLock _ _ _) ht ⟨rfl, rfl⟩)
      · cases hnext
        exact hgone (s.stateOf h.workerId) rfl (by simpa using hlease)
    | _ => cases hnext
  | releaseSend h =>
    obtain ⟨rfl, rfl⟩ := hends
    cases choice with
    | proceed =>
      cases hnext
      exact .covered (covered_goto (u := send s t h "close_idb") ht ⟨rfl, rfl⟩)
    | notSent error =>
      simp only [next] at hnext
      split_ifs at hnext
      cases hnext
      exact .covered (covered_goto ht (ends_afterClose h _))
    | timedOut secs =>
      cases hnext
      exact .covered (covered_goto ht (ends_afterClose h _))
    | _ => cases hnext
  | releaseAwait h answer =>
    obtain ⟨rfl, rfl⟩ := hends
    cases answer with
    | none =>
      cases choice with
      | timedOut | transportLost =>
        cases hnext
        exact .covered (covered_goto ht (ends_afterClose h _))
      | _ => cases hnext
    | some answer =>
      cases choice with
      | proceed =>
        cases hnext
        exact .covered (covered_goto ht (ends_afterClose h _))
      | _ => cases hnext
  | releaseReset h error =>
    obtain ⟨rfl, rfl⟩ := hends
    cases choice with
    | proceed =>
      simp only [next, releaseReset, Option.some.injEq] at hnext
      split_ifs at hnext with hdead
      · subst hnext
        refine hgone .dead ?_ rfl
        exact (stateOf_setCallLock s _ _ none).trans hdead
      · subst hnext
        refine hgone .idle ?_ rfl
        change ((s.useSlot h.workerId .idle).setCallLock h.workerId none).stateOf h.workerId = .idle
        rw [stateOf_setCallLock, stateOf_useSlot, if_pos rfl]
    | _ => cases hnext
  | _ => exact hends.elim

theorem task_dropTask_cleanup (s : State) (t : TaskId) {cleanup : Position}
    (hp : p.dropTask = some cleanup) : ∃ t', (dropTask s t p).task t' = some ⟨cleanup, true⟩ := by
  obtain ⟨r, -, ⟨-, hnone⟩ | ⟨cleanup', hcleanup, hdrop⟩⟩ := dropTask_cases s t p
  · rw [hp] at hnone
    cases hnone
  · rw [hp] at hcleanup
    cases hcleanup
    refine ⟨(r.setTask t none).nextTask, ?_⟩
    rw [hdrop]
    exact Function.update_self ..

theorem covers_drop (haligned : p.Aligned) (hrefers : p.Refers s.Published) (hends : p.Ends w l)
    (ht : s.task t = some ⟨p, d⟩) (hstep : step cfg s (.drop t) = some s') :
    Covers s (.drop t) s' t p w l := by
  cases d with
  | true => simp [step, ht] at hstep
  | false =>
    simp only [step, ht, Option.some.injEq] at hstep
    subst hstep
    have hcleanup {cleanup : Position} (hp : p.dropTask = some cleanup) (hends' : cleanup.Ends w l) :
        Covers s (.drop t) (dropTask s t p) t p w l := by
      obtain ⟨t', ht'⟩ := task_dropTask_cleanup s t hp
      exact .covered ⟨t', cleanup, true, ht', hends'⟩
    have hguarded {h : PooledWorkerHandle} (hw : h.workerId = w) (hl : h.leaseId = l)
        (hp : p.dropTask = some (.takeDead h.workerId (some h.leaseId) true (.stop .finished))) :
        Covers s (.drop t) (dropTask s t p) t p w l :=
      hcleanup hp ⟨hw, fun l' hl' => (Option.some.inj hl').symm.trans hl⟩
    cases p with
    | finishSpawn purpose w' =>
      cases purpose with
      | minimum => exact hends.elim
      | lease session lease => exact hcleanup rfl ⟨hends.1, by rintro _ ⟨⟩⟩
    | takeDead w' lease replenish k =>
      obtain ⟨rfl, hlease⟩ := hends
      cases k with
      | stop outcome => exact .dropped rfl rfl
      | unreserve w'' outcome =>
        obtain rfl : w' = w'' := hrefers
        exact hcleanup rfl ⟨rfl, by rintro _ ⟨⟩⟩
      | guarded h | settleCall h | settleRelease h =>
        obtain ⟨hw, rfl⟩ := haligned h rfl
        exact hguarded hw (hlease h.leaseId rfl) rfl
    | releaseLock h | releaseSend h | releaseAwait h | releaseReset h =>
      exact hguarded hends.1 hends.2 rfl
    | _ => exact hends.elim

theorem covers_step (hsound : Accounted cfg s) (href : Referred s) (haligned : s.Aligned)
    (hends : p.Ends w l) (ht : s.task t = some ⟨p, d⟩) (hstep : step cfg s a = some s')
    (hbelongs : (s'.stateOf w).belongsToLease l = true) : Covers s a s' t p w l := by
  by_cases hactor : a.actor = some t
  · cases a with
    | run t' choice =>
      obtain rfl := Option.some.inj hactor
      exact covers_run hends ht hstep hbelongs
    | drop t' =>
      obtain rfl := Option.some.inj hactor
      exact covers_drop (haligned _ _ _ ht) (href.tasks _ _ _ ht) hends ht hstep
    | _ => cases hactor
  · rcases task_kept hsound.fresh (transition_of_step hstep) ht hactor with ht' |
      ⟨h, answer, rfl, ht'⟩ | ⟨h, tool, tracksOpen, answer, rfl, ht'⟩
    · exact .covered ⟨t, p, d, ht', hends⟩
    · exact .covered ⟨t, _, d, ht', hends⟩
    · exact hends.elim

theorem belongs_cases (hslot : SlotStep s a s' w) (hbelongs : (s'.stateOf w).belongsToLease l = true) :
    (s.stateOf w).belongsToLease l = true ∨ s'.Covered w l ∨
      ∃ t p session d, a = .run t .proceed ∧ s.task t = some ⟨p, d⟩ ∧ p.leases = some session ∧
        s'.task t = some ⟨.done (.leased ⟨w, session, l, false⟩), d⟩ := by
  cases hslot.stateStep with
  | same hstate =>
    rw [hstate] at hbelongs
    exact .inl hbelongs
  | @leased t session lease _ _ _ d ha ht hidle ht' hstate =>
    rw [hstate] at hbelongs
    obtain rfl := of_decide_eq_true hbelongs
    exact .inr (.inr ⟨t, _, session, d, ha, ht, rfl, ht'⟩)
  | @built t purpose d ht ht' hstate =>
    rw [hstate] at hbelongs
    cases purpose with
    | minimum => cases hbelongs
    | lease session lease => exact .inr (.inl ⟨t, _, d, ht', rfl, of_decide_eq_true hbelongs⟩)
  | closing ht hw hlease ht' hstate =>
    rw [hstate] at hbelongs
    obtain rfl := of_decide_eq_true hbelongs
    exact .inl hlease
  | killed _ _ _ hstate | reset _ _ _ hstate =>
    rw [hstate] at hbelongs
    cases hbelongs

theorem closing_cases (hslot : SlotStep s a s' w) (hclosing : s'.stateOf w = .closing l) :
    s.stateOf w = .closing l ∨
      s'.Covered w l ∧ ∃ t h d, s.task t = some ⟨.releaseLock h, d⟩ ∧ h.workerId = w := by
  cases hslot.stateStep with
  | same hstate => exact .inl (hstate ▸ hclosing)
  | @closing t h d ht hw hlease ht' hstate =>
    rw [hstate] at hclosing
    cases hclosing
    exact .inr ⟨⟨t, _, d, ht', hw, rfl⟩, t, h, d, ht, hw⟩
  | @built t purpose d ht ht' hstate =>
    rw [hstate] at hclosing
    cases purpose <;> cases hclosing
  | leased _ _ _ _ hstate | killed _ _ _ hstate | reset _ _ _ hstate =>
    rw [hstate] at hclosing
    cases hclosing

end IdaMcp.Pool
