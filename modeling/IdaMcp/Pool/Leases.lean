import IdaMcp.Foundation.Tokens
import IdaMcp.Pool.Slots

namespace IdaMcp.Pool

open Foundation State Position Relation

variable {cfg : WorkerPoolConfig} {s u s' : State} {t : TaskId} {d : Bool} {p p' : Position}
  {w : WorkerId}

namespace ChildState

def leaseId : ChildState → Option LeaseId
  | leased _ leaseId | closing leaseId => some leaseId
  | idle | dead => none

def sessionId : ChildState → Option SessionId
  | leased sessionId _ => some sessionId
  | idle | closing _ | dead => none

theorem belongsToLease_iff (state : ChildState) (expected : LeaseId) :
    state.belongsToLease expected = true ↔ state.leaseId = some expected := by
  cases state <;> simp [belongsToLease, leaseId]

end ChildState

def Position.draws : Position → Option (Draw WorkerId SessionId)
  | leaseLoop session lease | leaseScan session lease _ _ _ | spawnSlot (.lease session lease) _ =>
    some ⟨session, lease, none⟩
  | finishSpawn (.lease session lease) w => some ⟨session, lease, some w⟩
  | _ => none

/-- The pool as a table of fencing tokens: lease ids on slots. -/
def tokens (s : State) : Tokens TaskId WorkerId SessionId where
  next := s.nextLeaseId
  drawn := s.role draws
  token w := (s.stateOf w).leaseId
  client w := (s.stateOf w).sessionId
  granted := s.issued.map fun h => ⟨h.sessionId, h.leaseId, h.workerId⟩

def TokenSteps (s s' : State) : Prop := ReflTransGen Tokens.Step (tokens s) (tokens s')

def LeasesLess (s s' : State) : Prop :=
  ∀ w, s'.stateOf w = s.stateOf w ∨ s'.stateOf w = .idle ∨ s'.stateOf w = .dead ∨
    ∃ l, (s.stateOf w).belongsToLease l = true ∧ s'.stateOf w = .closing l

theorem draws_move {choice : Choice} (hmove : Move cfg s choice p p') : p'.draws = none ∨ p'.draws = p.draws := by
  have hclose (h : PooledWorkerHandle) (error : Option ToolError) :
      (afterClosePosition h error).draws = none := by
    rcases afterClosePosition_cases h error with ⟨e, -, -, hp⟩ | ⟨-, hp⟩ <;> rw [hp] <;> rfl
  cases hmove with
  | closeNotSent | closeSendTimedOut | closeAnswered | closeTimedOut | closeLost =>
    exact .inl (hclose _ _)
  | skipDead | countActive => exact .inr rfl
  | _ => exact .inl rfl

theorem draws_begun {a : Action} (hbegun : Begun s a p) : p.draws = none := by
  cases hbegun with
  | started operation => cases operation <;> rfl
  | minimum | reaper | killed => rfl
  | cleanup _ ht hdrop =>
    rcases dropTask_eq_some hdrop with ⟨w, -, rfl | rfl⟩ | ⟨h, -, rfl⟩ <;> rfl

theorem draws_continuation (k : Continuation) : k.position.draws = none := by
  cases k <;> rfl

theorem tokenSteps_clear (hnext : s'.nextLeaseId = s.nextLeaseId) (hissued : s'.issued = s.issued)
    (hdraws : RoleLess draws s s') (hleases : LeasesLess s s') : TokenSteps s s' := by
  have htokens : tokens s' = { tokens s with
      drawn := (tokens s').drawn, token := (tokens s').token, client := (tokens s').client } := by
    simp [tokens, hnext, hissued]
  apply ReflTransGen.single
  rw [htokens]
  apply Tokens.Step.clear (l := tokens s) hdraws
  · intro w l hl
    change (s'.stateOf w).leaseId = some l at hl
    change (s.stateOf w).leaseId = some l
    rcases hleases w with hw | hw | hw | ⟨l', hbelongs, hw⟩ <;> rw [hw] at hl
    · exact hl
    · cases hl
    · cases hl
    · cases hl
      exact (ChildState.belongsToLease_iff _ _).mp hbelongs
  · intro w session hsession
    change (s'.stateOf w).sessionId = some session at hsession
    change (s.stateOf w).sessionId = some session
    rcases hleases w with hw | hw | hw | ⟨l', hbelongs, hw⟩ <;> rw [hw] at hsession
    · exact hsession
    all_goals cases hsession

theorem tokenSteps_goto (hnext : u.nextLeaseId = s.nextLeaseId) (hissued : u.issued = s.issued)
    (hdraws : RoleLess draws s u) (hleases : LeasesLess s u) (ht : u.task t = some ⟨p, d⟩)
    (hp' : p'.draws = none ∨ p'.draws = p.draws) : TokenSteps s (u.goto t p') :=
  tokenSteps_clear hnext hissued (hdraws.goto ht hp') hleases

theorem tokenSteps_resume {k : Continuation} (hnext : u.nextLeaseId = s.nextLeaseId)
    (hissued : u.issued = s.issued) (hdraws : RoleLess draws s u) (hslot : u.slot = s.slot)
    (ht : u.task t = some ⟨p, d⟩) : TokenSteps s (resume u t k) := by
  have hstate (w : WorkerId) : u.stateOf w = s.stateOf w := by rw [stateOf, hslot]; rfl
  rcases resume_cases u t k with hk | ⟨w, -, hk⟩ <;> rw [hk]
  · exact tokenSteps_goto hnext hissued hdraws (fun w => .inl (hstate w)) ht
      (.inl (draws_continuation k))
  · refine tokenSteps_goto (u := u.setCallLock w none) hnext hissued hdraws (fun w' => .inl ?_) ht
      (.inl (draws_continuation k))
    rw [stateOf_setCallLock, hstate]

theorem roleLess_refl {α : Type*} (f : Position → Option α) : RoleLess f s s := fun _ _ h => h

theorem leasesLess_refl : LeasesLess s s := fun _ => .inl rfl

theorem comp_stateOf_setSlot {β : Type*} (f : ChildState → β) (w : WorkerId) (slot : ChildSlot) :
    (fun w' => f ((s.setSlot w slot).stateOf w')) =
      Function.update (fun w' => f (s.stateOf w')) w (f slot.state) := by
  funext w'
  rw [stateOf_setSlot, Function.update_apply]
  split_ifs <;> rfl

theorem role_draws_goto (ht : u.task t = some ⟨p, d⟩) (htask : u.task = s.task)
    {x : Option (Draw WorkerId SessionId)} (hp' : p'.draws = x) :
    (u.goto t p').role draws = Function.update (s.role draws) t x := by
  have hrole : u.role draws = s.role draws := by
    funext t'
    rw [role, htask]
    rfl
  rw [role_goto draws ht, hp', hrole]

theorem tokenSteps_draw {session : SessionId} (ht : s.task t = some ⟨.takeLeaseId session, d⟩) :
    TokenSteps s ({ s with nextLeaseId := s.nextLeaseId + 1 }.goto t
      (.leaseLoop session (s.nextLeaseId + 1))) := by
  have hstep := Tokens.Step.draw (l := tokens s) t session
  apply ReflTransGen.single
  convert hstep using 1
  exact congrArg (fun drawn => { tokens s with next := s.nextLeaseId + 1, drawn })
    (role_draws_goto (s := s) (u := { s with nextLeaseId := s.nextLeaseId + 1 }) ht rfl rfl)

theorem tokens_eq {l : Tokens TaskId WorkerId SessionId} (hnext : s.nextLeaseId = l.next)
    (hdrawn : s.role draws = l.drawn) (htoken : (fun w => (s.stateOf w).leaseId) = l.token)
    (hclient : (fun w => (s.stateOf w).sessionId) = l.client)
    (hgranted : s.issued.map (fun h => ⟨h.sessionId, h.leaseId, h.workerId⟩) = l.granted) :
    tokens s = l := by
  rw [tokens, hnext, hdrawn, htoken, hclient, hgranted]

theorem tokenSteps_place {session : SessionId} {lease : LeaseId} {slot : ChildSlot}
    (hslot : slot.state = .leased session lease)
    (ht : s.task t = some ⟨.spawnSlot (.lease session lease) w, d⟩) :
    TokenSteps s ((s.setSlot w slot).goto t (.finishSpawn (.lease session lease) w)) := by
  have hdrawn : (tokens s).drawn t = some ⟨session, lease, none⟩ := role_eq draws ht
  have hstep := Tokens.Step.place w hdrawn
  apply ReflTransGen.single
  convert hstep using 1
  apply tokens_eq
  · rfl
  · exact role_draws_goto (u := s.setSlot w slot) ht rfl rfl
  · exact (comp_stateOf_setSlot ChildState.leaseId w slot).trans (by rw [hslot]; rfl)
  · exact (comp_stateOf_setSlot ChildState.sessionId w slot).trans (by rw [hslot]; rfl)
  · rfl

theorem tokenSteps_grant {session : SessionId} {lease : LeaseId} (hslot : u.slot = s.slot)
    (hnext : u.nextLeaseId = s.nextLeaseId)
    (hissued : u.issued = s.issued ++ [⟨w, session, lease, false⟩]) (htask : u.task = s.task)
    (ht : s.task t = some ⟨.finishSpawn (.lease session lease) w, d⟩) (hp' : p'.draws = none) :
    TokenSteps s (u.goto t p') := by
  have hdrawn : (tokens s).drawn t = some ⟨session, lease, some w⟩ := role_eq draws ht
  have hstep := Tokens.Step.grant hdrawn
  have hstate : (u.goto t p').stateOf = s.stateOf := by
    funext w'
    exact congrArg ChildSlot.state (congrFun hslot w')
  apply ReflTransGen.single
  convert hstep using 1
  apply tokens_eq
  · exact hnext
  · exact role_draws_goto (by rw [htask, ht]) htask hp'
  · rw [hstate]
    rfl
  · rw [hstate]
    rfl
  · change u.issued.map _ = _
    rw [hissued, List.map_append]
    rfl

theorem tokenSteps_leasedIdle {session : SessionId} {lease : LeaseId} {rest deadIds : List WorkerId}
    {active : ℕ} (ht : s.task t = some ⟨.leaseScan session lease (w :: rest) active deadIds, d⟩) :
    TokenSteps s ((((s.useSlot w (.leased session lease)).setPoolLock none).issue
      ⟨w, session, lease, false⟩).goto t (.done (.leased ⟨w, session, lease, false⟩))) := by
  have hdrawn : (tokens s).drawn t = some ⟨session, lease, none⟩ := role_eq draws ht
  have hsteps := Tokens.place_grant w hdrawn
  rw [TokenSteps]
  convert hsteps using 1
  apply tokens_eq
  · rfl
  · exact role_draws_goto (s := s)
      (u := ((s.useSlot w (.leased session lease)).setPoolLock none).issue ⟨w, session, lease, false⟩)
      ht rfl rfl
  · exact comp_stateOf_setSlot ChildState.leaseId w _
  · exact comp_stateOf_setSlot ChildState.sessionId w _
  · exact List.map_append

theorem leasesLess_setSlot (slot : ChildSlot)
    (h : slot.state = s.stateOf w ∨ slot.state = .idle ∨ slot.state = .dead ∨
      ∃ l, (s.stateOf w).belongsToLease l = true ∧ slot.state = .closing l) :
    LeasesLess s (s.setSlot w slot) := by
  intro w'
  rw [stateOf_setSlot]
  split_ifs with hw
  · rw [hw]
    exact h
  · exact .inl rfl

theorem stateOf_dropTask (s : State) (t : TaskId) (p : Position) (w : WorkerId) :
    (dropTask s t p).stateOf w = s.stateOf w := by
  obtain ⟨r, hr, hdrop⟩ := dropTask_cases s t p
  have hframe : (dropTask s t p).stateOf w = r.stateOf w := by
    rcases hdrop with ⟨hdrop, -⟩ | ⟨cleanup, -, hdrop⟩ <;> rw [hdrop] <;> rfl
  rw [hframe]
  rcases hr with rfl | ⟨rfl, -⟩ | ⟨w', -, rfl⟩
  · rfl
  · rfl
  · exact stateOf_setCallLock s w' w none

theorem tokenSteps_transition {a : Action} (hfresh : s.Fresh) (hstep : Transition cfg s a s') :
    TokenSteps s s' := by
  have hrefl : TasksBegun s a s := tasksBegun_of_eq rfl
  -- the steps of a task that leave the lease ids, the handles and the state of every slot
  have own {u : State} {t p p' d} (hnext : u.nextLeaseId = s.nextLeaseId)
      (hissued : u.issued = s.issued) (htask : u.task = s.task)
      (hstate : ∀ w, u.stateOf w = s.stateOf w) (ht : s.task t = some ⟨p, d⟩)
      (hp' : p'.draws = none ∨ p'.draws = p.draws) : TokenSteps s (u.goto t p') := by
    refine tokenSteps_goto hnext hissued (fun t' x hx => ?_) (fun w => .inl (hstate w))
      (by rw [htask, ht]) hp'
    rw [role, htask] at hx
    exact hx
  cases hstep with
  | started hknown =>
    exact tokenSteps_clear rfl rfl
      ((hrefl.spawn (Nat.le_refl _) (.started _ rfl hknown)).roleLess fun _ => draws_begun) leasesLess_refl
  | moved ht hmove => exact own rfl rfl rfl (fun _ => rfl) ht (draws_move hmove)
  | tookLeaseId ht hlock => exact tokenSteps_draw ht
  | leaseScanBegun ht hlock | leaseWaits ht | leaseReserved ht hactive hshut =>
    exact own rfl rfl rfl (fun _ => rfl) ht (.inr rfl)
  | leasedIdle ht hidle => exact tokenSteps_leasedIdle ht
  | @spawned t purpose w d ht =>
    cases purpose with
    | lease session lease => exact tokenSteps_place rfl ht
    | minimum =>
      exact tokenSteps_goto (u := s.setSlot w (newSlot .idle s.now)) rfl rfl (roleLess_refl draws)
        (leasesLess_setSlot _ (.inr (.inl rfl))) ht (.inl rfl)
  | installedLease ht hlock hshut => exact tokenSteps_grant rfl rfl rfl rfl ht rfl
  | @tookDead t w lease replenish k d ht hlease =>
    exact tokenSteps_goto (u := s.setState w .dead) rfl rfl (roleLess_refl draws)
      (leasesLess_setSlot _ (.inr (.inr (.inl rfl)))) ht (.inl rfl)
  | leaseGone ht hgone => exact tokenSteps_resume rfl rfl (roleLess_refl draws) rfl ht
  | @forgot t w k d ht hlock =>
    exact tokenSteps_resume (u := s.forget [w]) rfl rfl (roleLess_refl draws) rfl ht
  | replenished ht hlock =>
    have hdraws : RoleLess draws s (replenish cfg s) :=
      (tasksBegun_replenish (a := .run 0 .proceed)).roleLess fun _ => draws_begun
    have htask := task_replenish cfg hfresh ht
    obtain ⟨spawning, nextId, task, nextTask, -, -, h⟩ := replenish_frame cfg s
    rw [h] at hdraws htask ⊢
    exact tokenSteps_resume rfl rfl hdraws rfl htask
  | @closing t h d ht hcall hlease =>
    refine tokenSteps_goto (u := (s.setState h.workerId (.closing h.leaseId)).setCallLock h.workerId
      (some t)) rfl rfl (roleLess_refl draws) (fun w' => ?_) ht (.inl rfl)
    rw [stateOf_setCallLock]
    exact leasesLess_setSlot _ (.inr (.inr (.inr ⟨_, hlease, rfl⟩))) w'
  | @closeSent t h d ht =>
    exact own (u := send s t h "close_idb") rfl rfl rfl (stateOf_setRequests s _ · _) ht (.inl rfl)
  | @resetDead t h error d outcome ht hdead =>
    exact own (u := s.setCallLock h.workerId none) rfl rfl rfl (stateOf_setCallLock s _ · _) ht
      (.inl rfl)
  | @resetIdle t h error d ht hdead =>
    refine tokenSteps_goto (u := (s.useSlot h.workerId .idle).setCallLock h.workerId none) rfl rfl
      (roleLess_refl draws) (fun w' => ?_) ht (.inl rfl)
    rw [stateOf_setCallLock]
    exact leasesLess_setSlot _ (.inr (.inl rfl)) w'
  | @reapScheduled t h outcome d ht hidle =>
    have hdone : RoleLess draws s (s.goto t (.done outcome)) := (roleLess_refl draws).goto ht (.inl rfl)
    refine tokenSteps_clear rfl rfl (fun t' x hx => hdone t' x ?_) leasesLess_refl
    rwa [(hfresh.goto t (.done outcome)).role_spawn_of_none rfl] at hx
  | @callSent t h tool tracksOpen d ht hcall hleased =>
    refine own (u := send (s.setCallLock h.workerId (some t)) t h tool) rfl rfl rfl (fun w' => ?_) ht
      (.inl rfl)
    rw [send, stateOf_setRequests, stateOf_setCallLock]
  | @callSendLost t h tool tracksOpen error error' d ht hcall hleased =>
    exact own (u := s.setCallLock h.workerId (some t)) rfl rfl rfl (stateOf_setCallLock s _ · _) ht
      (.inl rfl)
  | @callEnded t choice h tool tracksOpen answer outcome d ht =>
    exact own (u := s.setCallLock h.workerId none) rfl rfl rfl (stateOf_setCallLock s _ · _) ht
      (.inl rfl)
  | @settleEnded t h tool outcome outcome' d ht =>
    exact own (u := s.setCallLock h.workerId none) rfl rfl rfl (stateOf_setCallLock s _ · _) ht
      (.inl rfl)
  | @reapTook t w sleepStarted liveCount d ht hlive hidle =>
    exact tokenSteps_goto (u := (s.setState w .dead).setPoolLock none) rfl rfl (roleLess_refl draws)
      (leasesLess_setSlot (s := s) (w := w) { s.slot w with state := .dead }
        (.inr (.inr (.inl rfl)))) ht (.inl rfl)
  | slotsKilled ht hlock =>
    have hdraws : RoleLess draws s (killSlots s s.children) :=
      (tasksBegun_killSlots ht (fun _ h => h) hrefl (Nat.le_refl _)).roleLess fun _ => draws_begun
    have htask := task_killSlots s.children hfresh ht
    obtain ⟨task, nextTask, -, h⟩ := killSlots_frame s.children s
    rw [h] at hdraws htask ⊢
    exact tokenSteps_goto rfl rfl hdraws leasesLess_refl htask (.inl rfl)
  | @dropped t p ht =>
    have hdraws : RoleLess draws s (dropTask s t p) :=
      (tasksBegun_dropTask ht).roleLess fun _ => draws_begun
    have hstate (w : WorkerId) := stateOf_dropTask s t p w
    obtain ⟨poolLock, slot, task, nextTask, -, h⟩ := dropTask_frame s t p
    rw [h] at hdraws hstate ⊢
    exact tokenSteps_clear rfl rfl hdraws fun w => .inl (hstate w)
  | @answered w request answer effect hrequest heffect =>
    have hstate (w' : WorkerId) : (s.setSlot w { s.slot w with
        requests := (s.slot w).requests.erase request
        database := databaseAfter (s.slot w).database request effect }).stateOf w' = s.stateOf w' :=
      stateOf_setSlot_of_eq s w w' rfl
    rcases deliver_cases (s.setSlot w { s.slot w with
      requests := (s.slot w).requests.erase request
      database := databaseAfter (s.slot w).database request effect }) request.task answer with
      hd | ⟨h, d, ht, hd⟩ | ⟨h, tool, tracksOpen, d, ht, hd⟩ <;> rw [hd]
    · exact tokenSteps_clear rfl rfl (roleLess_refl draws) fun w => .inl (hstate w)
    · exact own rfl rfl rfl hstate ht (.inl rfl)
    · exact own rfl rfl rfl hstate ht (.inl rfl)
  | @transportClosed w =>
    exact tokenSteps_clear rfl rfl (roleLess_refl draws) (leasesLess_setSlot _ (.inl rfl))
  | ticked => exact tokenSteps_clear rfl rfl (roleLess_refl draws) leasesLess_refl
  | _ => exact own rfl rfl rfl (fun _ => rfl) ‹_› (.inl rfl)

theorem sound_tokens_warmed : (tokens (warmed cfg)).Sound := by
  have hfree (w : WorkerId) : ((warmed cfg).stateOf w).leaseId = none := by
    change (if w < minReplenished cfg then ChildState.idle else .dead).leaseId = none
    split_ifs <;> rfl
  constructor
  · intro w l hl
    cases (hfree w).symm.trans hl
  · intro t x hx
    cases hx
  · intro x hx
    cases hx
  · intro t t' x x' hx
    cases hx
  · intro t x hx
    cases hx
  · intro t x hx
    cases hx
  · intro x hx
    cases hx
  · intro w w' l hl
    cases (hfree w).symm.trans hl
  · exact List.nodup_nil

theorem sound_tokens_of_reachable (h : Reachable (step cfg) (warmed cfg) s) : (tokens s).Sound := by
  have hboth : s.Fresh ∧ (tokens s).Sound := by
    refine invariant_of_reachable (I := fun s => s.Fresh ∧ (tokens s).Sound) ?_ ?_ h
    · rintro s a s' ⟨hfresh, hsound⟩ hstep
      have htransition := transition_of_step hstep
      exact ⟨fresh_transition hfresh htransition,
        hsound.steps (tokenSteps_transition hfresh htransition)⟩
    · exact ⟨fresh_warmed, sound_tokens_warmed⟩
  exact hboth.2

def drawnLease (s : State) : Action → Option LeaseId
  | .run t _ =>
    match s.task t with
    | some ⟨.takeLeaseId _, _⟩ => some (s.nextLeaseId + 1)
    | _ => none
  | _ => none

theorem nextLeaseId_of_drawnLease {a : Action} {l : LeaseId} (hstep : step cfg s a = some s')
    (hdrawn : drawnLease s a = some l) : l = s.nextLeaseId + 1 ∧ s'.nextLeaseId = l := by
  cases a with
  | run t choice =>
    simp only [drawnLease] at hdrawn
    split at hdrawn
    case h_1 session d ht =>
      simp only [step, ht] at hstep
      cases choice with
      | proceed =>
        simp only [next] at hstep
        split_ifs at hstep
        cases hstep
        cases hdrawn
        exact ⟨rfl, rfl⟩
      | _ => cases hstep
    case h_2 => cases hdrawn
  | _ => cases hdrawn

def Position.actsFor : Position → Option LeaseId
  | .releaseLock h | .releaseSend h | .releaseAwait h _ | .releaseReset h _ | .releaseIdleCheck h _ =>
    some h.leaseId
  | .takeDead _ lease _ _ => lease
  | _ => none

inductive Dispatch (s : State) (w : WorkerId) (request : Request) : Prop
  | call {t h tool tracksOpen d} (ht : s.task t = some ⟨.callAdmission h tool tracksOpen, d⟩)
    (hw : h.workerId = w) (hrequest : request = ⟨t, h.leaseId, tool⟩)
    (hleased : s.stateOf w = .leased h.sessionId h.leaseId)
  | close {t h d} (ht : s.task t = some ⟨.releaseSend h, d⟩) (hw : h.workerId = w)
    (hrequest : request = ⟨t, h.leaseId, "close_idb"⟩)
    (hclosing : s.stateOf w = .closing h.leaseId ∨ s.stateOf w = .dead)

/-- What a lease gives its holder in state `s` and in the steps from it. -/
structure Exclusive (cfg : WorkerPoolConfig) (s : State) : Prop where
  issued_nodup : (s.issued.map PooledWorkerHandle.leaseId).Nodup
  one_lease : ∀ w l l', (s.stateOf w).belongsToLease l = true →
    (s.stateOf w).belongsToLease l' = true → l = l'
  one_slot : ∀ w w' l, (s.stateOf w).belongsToLease l = true →
    (s.stateOf w').belongsToLease l = true → w = w'
  one_session : ∀ h ∈ s.issued, ∀ w session, s.stateOf w = .leased session h.leaseId →
    w = h.workerId ∧ session = h.sessionId
  dispatched : ∀ a s' w, step cfg s a = some s' →
    (s'.slot w).requests.Sublist (s.slot w).requests ∨
      ∃ request, (s'.slot w).requests = (s.slot w).requests ++ [request] ∧ Dispatch s w request
  stale_kept : ∀ a s' t task l w, step cfg s a = some s' → a.actor = some t →
    s.task t = some task → task.position.actsFor = some l →
    (s.stateOf w).belongsToLease l = false → s'.stateOf w = s.stateOf w

theorem dispatched_slot {a : Action} (hkept : Kept s) (hstep : SlotStep s a s' w) :
    (s'.slot w).requests.Sublist (s.slot w).requests ∨
      ∃ request, (s'.slot w).requests = (s.slot w).requests ++ [request] ∧ Dispatch s w request := by
  have same {slot : ChildSlot} (hslot : s'.slot w = slot)
      (hrequests : slot.requests = (s.slot w).requests) :
      (s'.slot w).requests.Sublist (s.slot w).requests := by
    rw [hslot, hrequests]
  cases hstep with
  | same hslot => exact .inl (same hslot rfl)
  | leased _ _ _ _ hslot => exact .inl (same hslot rfl)
  | killed _ _ _ hslot => exact .inl (same hslot rfl)
  | closing _ _ _ _ _ hslot => exact .inl (same hslot rfl)
  | unlocked _ _ _ hslot => exact .inl (same hslot rfl)
  | reset _ _ _ _ hslot => exact .inl (same hslot rfl)
  | callLocked _ _ hslot => exact .inl (same hslot rfl)
  | transportLost hslot => exact .inl (same hslot rfl)
  | built ht ht' hslot =>
    left
    rw [hslot]
    exact (List.nil_sublist _)
  | answered _ hrequest heffect hslot =>
    left
    rw [hslot]
    exact List.erase_sublist
  | closeSent ht hw ht' hslot =>
    right
    subst hw
    refine ⟨_, by rw [hslot], .close ht rfl rfl ?_⟩
    exact hkept.closing _ _ (role_eq closes ht)
  | callSent ht hw hcall hleased ht' hslot =>
    right
    subst hw
    exact ⟨_, by rw [hslot], .call ht rfl rfl hleased⟩

theorem stale_next {l : LeaseId} {choice : Choice} (hkept : Kept s)
    (ht : s.task t = some ⟨p, d⟩) (hp : p.actsFor = some l)
    (hstale : (s.stateOf w).belongsToLease l = false) (hnext : next cfg s t p choice = some s') :
    s'.stateOf w = s.stateOf w := by
  have hbelongs (h : PooledWorkerHandle) (hw : (s.stateOf h.workerId).belongsToLease h.leaseId = true)
      (hl : h.leaseId = l) : w ≠ h.workerId := by
    rintro rfl
    rw [hl, hstale] at hw
    cases hw
  cases p with
  | releaseLock h =>
    cases choice with
    | proceed =>
      simp only [next] at hnext
      split_ifs at hnext with hcall hlease
      · cases hnext
        change ((s.setState h.workerId (.closing h.leaseId)).setCallLock h.workerId (some t)).stateOf
          w = s.stateOf w
        rw [stateOf_setCallLock, stateOf_setState, if_neg (hbelongs h hlease (Option.some.inj hp))]
      · cases hnext
        rfl
    | _ => cases hnext
  | releaseSend h =>
    cases choice with
    | proceed =>
      cases hnext
      exact stateOf_setRequests s h.workerId w _
    | notSent error =>
      simp only [next] at hnext
      split_ifs at hnext
      cases hnext
      rfl
    | timedOut secs =>
      cases hnext
      rfl
    | _ => cases hnext
  | releaseAwait h answer =>
    cases answer with
    | none =>
      cases choice with
      | timedOut | transportLost =>
        cases hnext
        rfl
      | _ => cases hnext
    | some answer =>
      cases choice with
      | proceed =>
        cases hnext
        rfl
      | _ => cases hnext
  | releaseReset h error =>
    cases choice with
    | proceed =>
      simp only [next, releaseReset] at hnext
      split_ifs at hnext with hdead
      · cases hnext
        exact stateOf_setCallLock s h.workerId w none
      · cases hnext
        have hclosing := (hkept.closing t h (role_eq closes ht)).resolve_right hdead
        have hw : w ≠ h.workerId := by
          apply hbelongs h _ (Option.some.inj hp)
          rw [hclosing]
          exact decide_eq_true rfl
        change ((s.useSlot h.workerId .idle).setCallLock h.workerId none).stateOf w = s.stateOf w
        rw [stateOf_setCallLock, stateOf_useSlot, if_neg hw]
    | _ => cases hnext
  | releaseIdleCheck h outcome =>
    cases choice with
    | proceed =>
      simp only [next, releaseIdleCheck] at hnext
      split_ifs at hnext <;> cases hnext <;> rfl
    | _ => cases hnext
  | takeDead w' lease replenish k =>
    cases choice with
    | proceed =>
      obtain rfl : lease = some l := hp
      simp only [next, takeDead] at hnext
      split_ifs at hnext with hlease
      · cases hnext
        have hw : w ≠ w' := by
          rintro rfl
          rw [Option.all_some, hstale] at hlease
          cases hlease
        change (s.setState w' .dead).stateOf w = s.stateOf w
        rw [stateOf_setState, if_neg hw]
      · cases hnext
        exact stateOf_resume s t k w
    | _ => cases hnext
  | _ => cases hp

/-- Lease ids strictly grow along every run, and in every state that a run reaches leases are
exclusive. -/
theorem lease_exclusivity {as : List Action} (hrun : run (step cfg) (warmed cfg) as = some s) :
    (observed (step cfg) drawnLease (warmed cfg) as).Pairwise (· < ·) ∧ Exclusive cfg s := by
  have hreach : Reachable (step cfg) (warmed cfg) s := ⟨as, hrun⟩
  have hsound := sound_tokens_of_reachable hreach
  have hkept := kept_of_reachable hreach
  have hfresh := (accounted_of_reachable hreach).fresh
  constructor
  · have hgrows : ∀ s a s', State.Fresh s → step cfg s a = some s' →
        s.nextLeaseId ≤ s'.nextLeaseId := by
      intro s a s' hfresh hstep
      exact Tokens.next_le_of_steps (tokenSteps_transition hfresh (transition_of_step hstep))
    refine (observed_pairwise_lt (fun s a s' hfresh hstep => ?_) hgrows ?_ as fresh_warmed).1
    · exact fresh_transition hfresh (transition_of_step hstep)
    · intro s a s' l hstep hdrawn
      obtain ⟨rfl, hnext⟩ := nextLeaseId_of_drawnLease hstep hdrawn
      exact ⟨Nat.lt_succ_self _, hnext.ge⟩
  · constructor
    · have hnodup := hsound.granted_nodup
      rwa [tokens, List.map_map] at hnodup
    · intro w l l' hl hl'
      rw [ChildState.belongsToLease_iff] at hl hl'
      rw [hl] at hl'
      exact Option.some.inj hl'
    · intro w w' l hl hl'
      rw [ChildState.belongsToLease_iff] at hl hl'
      exact hsound.token_inj w w' l hl hl'
    · intro h hh w session hw
      have hgrant : (⟨h.sessionId, h.leaseId, h.workerId⟩ : Grant WorkerId SessionId) ∈
          (tokens s).granted := List.mem_map.mpr ⟨h, hh, rfl⟩
      have hlease : (s.stateOf w).leaseId = some h.leaseId := by rw [hw]; rfl
      have hsession : (s.stateOf w).sessionId = some session := by rw [hw]; rfl
      obtain ⟨hworker, hclient⟩ := hsound.granted_reserved _ hgrant w hlease
      exact ⟨(Option.some.inj hworker).symm, hclient session hsession⟩
    · intro a s' w hstep
      exact dispatched_slot hkept (slotStep_transition hfresh (transition_of_step hstep) w)
    · rintro a s' t ⟨p, d⟩ l w hstep hactor ht hp hstale
      cases a with
      | run t' choice =>
        obtain rfl := Option.some.inj hactor
        simp only [step, ht] at hstep
        exact stale_next hkept ht hp hstale hstep
      | drop t' =>
        obtain rfl := Option.some.inj hactor
        simp only [step, ht] at hstep
        cases d with
        | false =>
          cases hstep
          exact stateOf_dropTask s t' p w
        | true => cases hstep
      | _ => cases hactor

theorem lease_exclusivity_two_sessions : ∃ s, run (step ⟨2, 2, 5⟩) (warmed ⟨2, 2, 5⟩)
      [.start (.lease 0), .run 0 .proceed, .run 0 .proceed, .run 0 .proceed,
        .start (.call ⟨0, 0, 1, false⟩ "decompile" false), .run 1 .proceed,
        .start (.lease 1), .run 2 .proceed, .run 2 .proceed, .run 2 .proceed, .run 2 .proceed] = some s ∧
    s.stateOf 0 = .leased 0 1 ∧ s.stateOf 1 = .leased 1 2 ∧
    (s.slot 0).requests = [⟨1, 1, "decompile"⟩] ∧ Exclusive ⟨2, 2, 5⟩ s := by
  let actions : List Action := [.start (.lease 0), .run 0 .proceed, .run 0 .proceed, .run 0 .proceed,
    .start (.call ⟨0, 0, 1, false⟩ "decompile" false), .run 1 .proceed,
    .start (.lease 1), .run 2 .proceed, .run 2 .proceed, .run 2 .proceed, .run 2 .proceed]
  have hslots : (run (step ⟨2, 2, 5⟩) (warmed ⟨2, 2, 5⟩) actions).map
      (fun s => (s.stateOf 0, s.stateOf 1, (s.slot 0).requests)) =
        some (.leased 0 1, .leased 1 2, [⟨1, 1, "decompile"⟩]) := by decide
  obtain ⟨s, hs, hslots⟩ := Option.map_eq_some_iff.mp hslots
  simp only [Prod.mk.injEq] at hslots
  exact ⟨s, hs, hslots.1, hslots.2.1, hslots.2.2, (lease_exclusivity hs).2⟩

/-- The release of a lease sends `close_idb` after it has taken the slot out of `Leased`. -/
theorem close_sent_while_closing : ∃ s s', Reachable (step ⟨1, 1, 5⟩) (warmed ⟨1, 1, 5⟩) s ∧
    step ⟨1, 1, 5⟩ s (.run 1 .proceed) = some s' ∧ s.stateOf 0 = .closing 1 ∧
    (s'.slot 0).requests = (s.slot 0).requests ++ [⟨1, 1, "close_idb"⟩] := by
  let actions : List Action := [.start (.lease 0), .run 0 .proceed, .run 0 .proceed, .run 0 .proceed,
    .start (.release ⟨0, 0, 1, false⟩), .run 1 .proceed]
  have hrun : (run (step ⟨1, 1, 5⟩) (warmed ⟨1, 1, 5⟩) actions).map (fun s => (s.stateOf 0,
      (step ⟨1, 1, 5⟩ s (.run 1 .proceed)).map fun s' => ((s'.slot 0).requests, (s.slot 0).requests))) =
        some (.closing 1, some ([⟨1, 1, "close_idb"⟩], [])) := by decide
  obtain ⟨s, hs, hpair⟩ := Option.map_eq_some_iff.mp hrun
  simp only [Prod.mk.injEq] at hpair
  obtain ⟨s', hs', hrequests⟩ := Option.map_eq_some_iff.mp hpair.2
  simp only [Prod.mk.injEq] at hrequests
  refine ⟨s, s', ⟨actions, hs⟩, hs', hpair.1, ?_⟩
  rw [hrequests.1, hrequests.2]
  rfl

end IdaMcp.Pool
