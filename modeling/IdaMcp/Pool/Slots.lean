import IdaMcp.Pool.Tasks
import IdaMcp.Pool.Capacity

namespace IdaMcp.Pool

open Foundation State Position

def Position.kills : Position → Option WorkerId
  | takeDead w _ _ _ | reapScan w _ _ _ => some w
  | _ => none

inductive SlotStep (s : State) (a : Action) (s' : State) (w : WorkerId) : Prop
  | same (hslot : s'.slot w = s.slot w)
  | leased {t session lease rest active deadIds d} (ha : a = .run t .proceed)
    (ht : s.task t = some ⟨.leaseScan session lease (w :: rest) active deadIds, d⟩)
    (hidle : s.stateOf w = .idle)
    (ht' : s'.task t = some ⟨.done (.leased ⟨w, session, lease, false⟩), d⟩)
    (hslot : s'.slot w = { s.slot w with state := .leased session lease, lastUsed := s.now })
  | built {t purpose d} (ht : s.task t = some ⟨.spawnSlot purpose w, d⟩)
    (ht' : s'.task t = some ⟨.finishSpawn purpose w, d⟩)
    (hslot : s'.slot w = newSlot purpose.initialState s.now)
  | killed {t choice p d} (ha : a = .run t choice) (ht : s.task t = some ⟨p, d⟩)
    (hp : p.kills = some w) (hslot : s'.slot w = { s.slot w with state := .dead })
  | closing {t h d} (ht : s.task t = some ⟨.releaseLock h, d⟩) (hw : h.workerId = w)
    (hcall : (s.slot w).callLock = none) (hlease : (s.stateOf w).belongsToLease h.leaseId = true)
    (ht' : s'.task t = some ⟨.releaseSend h, d⟩)
    (hslot : s'.slot w = { s.slot w with state := .closing h.leaseId, callLock := some t })
  | closeSent {t h d} (ht : s.task t = some ⟨.releaseSend h, d⟩) (hw : h.workerId = w)
    (ht' : s'.task t = some ⟨.releaseAwait h none, d⟩)
    (hslot : s'.slot w =
      { s.slot w with requests := (s.slot w).requests ++ [⟨t, h.leaseId, "close_idb"⟩] })
  | unlocked {t p d} (ht : s.task t = some ⟨p, d⟩) (hp : p.holdsCall = some w)
    (hfree : s'.role holdsCall t = none) (hslot : s'.slot w = { s.slot w with callLock := none })
  | reset {t h error d} (ht : s.task t = some ⟨.releaseReset h error, d⟩) (hw : h.workerId = w)
    (hdead : s.stateOf w ≠ .dead) (hfree : s'.role holdsCall t = none)
    (hslot : s'.slot w = { s.slot w with state := .idle, lastUsed := s.now, callLock := none })
  | callSent {t h tool tracksOpen d} (ht : s.task t = some ⟨.callAdmission h tool tracksOpen, d⟩)
    (hw : h.workerId = w) (hcall : (s.slot w).callLock = none)
    (hleased : s.stateOf w = .leased h.sessionId h.leaseId)
    (ht' : s'.task t = some ⟨.callAwait h tool tracksOpen none, d⟩)
    (hslot : s'.slot w = { s.slot w with
      callLock := some t, requests := (s.slot w).requests ++ [⟨t, h.leaseId, tool⟩] })
  | callLocked {t session lease} (hcall : (s.slot w).callLock = none)
    (hleased : s.stateOf w = .leased session lease)
    (hslot : s'.slot w = { s.slot w with callLock := some t })
  | answered {request answer effect} (ha : a = .childAnswer w request answer effect)
    (hrequest : request ∈ (s.slot w).requests)
    (heffect : effectAllowed request answer effect = true)
    (hslot : s'.slot w = { s.slot w with
      requests := (s.slot w).requests.erase request
      database := databaseAfter (s.slot w).database request effect })
  | transportLost (hslot : s'.slot w = { s.slot w with transportClosed := true })

variable {cfg : WorkerPoolConfig} {s u s' : State} {a : Action} {t : TaskId} {d : Bool} {p p' : Position}
  {w : WorkerId}

inductive StateStep (s : State) (a : Action) (s' : State) (w : WorkerId) : Prop
  | same (hstate : s'.stateOf w = s.stateOf w)
  | leased {t session lease rest active deadIds d} (ha : a = .run t .proceed)
    (ht : s.task t = some ⟨.leaseScan session lease (w :: rest) active deadIds, d⟩)
    (hidle : s.stateOf w = .idle)
    (ht' : s'.task t = some ⟨.done (.leased ⟨w, session, lease, false⟩), d⟩)
    (hstate : s'.stateOf w = .leased session lease)
  | built {t purpose d} (ht : s.task t = some ⟨.spawnSlot purpose w, d⟩)
    (ht' : s'.task t = some ⟨.finishSpawn purpose w, d⟩)
    (hstate : s'.stateOf w = purpose.initialState)
  | killed {t choice p d} (ha : a = .run t choice) (ht : s.task t = some ⟨p, d⟩)
    (hp : p.kills = some w) (hstate : s'.stateOf w = .dead)
  | closing {t h d} (ht : s.task t = some ⟨.releaseLock h, d⟩) (hw : h.workerId = w)
    (hlease : (s.stateOf w).belongsToLease h.leaseId = true)
    (ht' : s'.task t = some ⟨.releaseSend h, d⟩) (hstate : s'.stateOf w = .closing h.leaseId)
  | reset {t h error d} (ht : s.task t = some ⟨.releaseReset h error, d⟩) (hw : h.workerId = w)
    (hdead : s.stateOf w ≠ .dead) (hstate : s'.stateOf w = .idle)

theorem SlotStep.stateStep (h : SlotStep s a s' w) : StateStep s a s' w := by
  have same {slot : ChildSlot} (hslot : s'.slot w = slot) (hstate : slot.state = s.stateOf w) :
      StateStep s a s' w :=
    .same (by rw [stateOf, hslot, hstate])
  cases h with
  | same hslot => exact same hslot rfl
  | closeSent _ _ _ hslot => exact same hslot rfl
  | unlocked _ _ _ hslot => exact same hslot rfl
  | callSent _ _ _ _ _ hslot => exact same hslot rfl
  | callLocked _ _ hslot => exact same hslot rfl
  | answered _ _ _ hslot => exact same hslot rfl
  | transportLost hslot => exact same hslot rfl
  | leased ha ht hidle ht' hslot => exact .leased ha ht hidle ht' (by rw [stateOf, hslot])
  | built ht ht' hslot => exact .built ht ht' (by rw [stateOf, hslot]; rfl)
  | killed ha ht hp hslot => exact .killed ha ht hp (by rw [stateOf, hslot])
  | closing ht hw _ hlease ht' hslot => exact .closing ht hw hlease ht' (by rw [stateOf, hslot])
  | reset ht hw hdead _ hslot => exact .reset ht hw hdead (by rw [stateOf, hslot])

theorem slotStep_of_update (w₀ : WorkerId) {x : ChildSlot}
    (hslot : s'.slot = Function.update s.slot w₀ x)
    (hstep : s'.slot w₀ = x → SlotStep s a s' w₀) (w : WorkerId) : SlotStep s a s' w := by
  by_cases hw : w = w₀
  · subst hw
    apply hstep
    rw [hslot, Function.update_self]
  · apply SlotStep.same
    rw [hslot, Function.update_of_ne hw]

theorem holdsCall_continuation (k : Continuation) (w : WorkerId) (lease : Option LeaseId)
    (replenish : Bool) :
    k.position.holdsCall = none ∧ (Position.takeDead w lease replenish k).holdsCall = k.callLock ∧
      (Position.forgetSlot w replenish k).holdsCall = k.callLock ∧
      (Position.scheduleReplenishment k).holdsCall = k.callLock := by
  cases k <;> exact ⟨rfl, rfl, rfl, rfl⟩

theorem slotStep_resume {k : Continuation} (hslot : u.slot = s.slot) (ht : s.task t = some ⟨p, d⟩)
    (ht₁ : u.task t = some ⟨p, d⟩) (hp : p.holdsCall = k.callLock) (w : WorkerId) :
    SlotStep s a (resume u t k) w := by
  rcases resume_cases u t k with hk | ⟨w₀, hw₀, hk⟩ <;> rw [hk]
  · apply SlotStep.same
    exact congrFun hslot w
  · have hfree : ((u.setCallLock w₀ none).goto t k.position).role holdsCall t = none := by
      rw [role_goto (s := u.setCallLock w₀ none) holdsCall ht₁, Function.update_self]
      exact (holdsCall_continuation k 0 none false).1
    apply slotStep_of_update w₀ (x := { s.slot w₀ with callLock := none })
    · rw [← hslot]
      rfl
    · intro hx
      exact .unlocked ht (hp.trans hw₀) hfree hx

theorem stateOf_resume (s : State) (t : TaskId) (k : Continuation) (w : WorkerId) :
    (resume s t k).stateOf w = s.stateOf w := by
  rcases resume_cases s t k with hk | ⟨w', -, hk⟩ <;> rw [hk]
  · rfl
  · exact stateOf_setCallLock s w' w none

theorem slotStep_dropTask (hfresh : s.Fresh) (ht : s.task t = some ⟨p, false⟩) (w : WorkerId) :
    SlotStep s a (dropTask s t p) w := by
  obtain ⟨r, hr, hdrop⟩ := dropTask_cases s t p
  have hframe : (dropTask s t p).slot = r.slot := by
    rcases hdrop with ⟨hdrop, -⟩ | ⟨cleanup, -, hdrop⟩ <;> rw [hdrop] <;> rfl
  have hgone := task_dropTask_self hfresh ht
  rcases hr with rfl | ⟨rfl, -⟩ | ⟨w₀, hw₀, rfl⟩
  · exact .same (congrFun hframe w)
  · exact .same (congrFun hframe w)
  · apply slotStep_of_update _ hframe
    intro hx
    exact .unlocked ht hw₀ (by simp [role, hgone]) hx

theorem slotStep_transition (hfresh : s.Fresh) (hstep : Transition cfg s a s')
    (w : WorkerId) : SlotStep s a s' w := by
  have hfree {u : State} {t p p' d} (ht : u.task t = some ⟨p, d⟩) (hp' : p'.holdsCall = none) :
      (u.goto t p').role holdsCall t = none := by
    rw [role_goto holdsCall ht, Function.update_self, hp']
  have htask {u : State} {t p d} (ht : u.task t = some ⟨p, d⟩) (p' : Position) :
      (u.goto t p').task t = some ⟨p', d⟩ := by
    rw [task_goto ht, Function.update_self]
  cases hstep with
  | @leasedIdle t session lease w₀ rest active deadIds d ht hidle =>
    have ht' := htask (u := ((s.useSlot w₀ (.leased session lease)).setPoolLock none).issue
      ⟨w₀, session, lease, false⟩) ht (.done (.leased ⟨w₀, session, lease, false⟩))
    apply slotStep_of_update w₀ (x := { s.slot w₀ with
      state := .leased session lease, lastUsed := s.now })
    · rfl
    · exact fun hx => .leased rfl ht hidle ht' hx
  | spawned ht =>
    exact slotStep_of_update _ rfl (fun hx => .built ht (htask (u := s.setSlot _ _) ht _) hx) w
  | tookDead ht hlease => exact slotStep_of_update _ rfl (.killed rfl ht rfl) w
  | leaseGone ht hgone =>
    exact slotStep_resume rfl ht ht (holdsCall_continuation _ _ _ _).2.1 w
  | @forgot t w₀ k d ht hlock =>
    exact slotStep_resume (s := s) (u := s.forget [w₀]) rfl ht ht (holdsCall_continuation _ _ none _).2.2.1 w
  | replenished ht hlock =>
    have hslot : (replenish cfg s).slot = s.slot := by
      obtain ⟨spawning, nextId, task, nextTask, -, -, h⟩ := replenish_frame cfg s
      rw [h]
    exact slotStep_resume hslot ht (task_replenish _ hfresh ht)
      (holdsCall_continuation _ 0 none false).2.2.2 w
  | @closing t h d ht hcall hlease =>
    have ht' := htask (u := (s.setState h.workerId (.closing h.leaseId)).setCallLock h.workerId (some t))
      ht (.releaseSend h)
    apply slotStep_of_update h.workerId (x := { s.slot h.workerId with
      state := .closing h.leaseId, callLock := some t })
    · simp [State.goto, setTask, setCallLock, setState, setSlot]
    · exact fun hx => .closing ht rfl hcall hlease ht' hx
  | closeSent ht =>
    exact slotStep_of_update _ rfl
      (fun hx => .closeSent ht rfl (htask (u := send s _ _ _) ht _) hx) w
  | resetDead ht hdead =>
    exact slotStep_of_update _ rfl
      (fun hx => .unlocked ht rfl (hfree (u := s.setCallLock _ _) ht rfl) hx) w
  | @resetIdle t h error d ht hdead =>
    apply slotStep_of_update h.workerId (x := { s.slot h.workerId with
      state := .idle, lastUsed := s.now, callLock := none })
    · simp [State.goto, setTask, setCallLock, useSlot, setSlot]
    · exact fun hx => .reset ht rfl hdead
        (hfree (u := (s.useSlot h.workerId .idle).setCallLock _ _) ht rfl) hx
  | @callSent t h tool tracksOpen d ht hcall hleased =>
    apply slotStep_of_update h.workerId (x := { s.slot h.workerId with
      callLock := some t, requests := (s.slot h.workerId).requests ++ [⟨t, h.leaseId, tool⟩] })
    · simp [State.goto, setTask, send, setRequests, setCallLock, setSlot]
    · exact fun hx => .callSent ht rfl hcall hleased
        (htask (u := send (s.setCallLock h.workerId (some t)) t h tool) ht _) hx
  | callSendLost ht hcall hleased =>
    exact slotStep_of_update _ rfl (fun hx => .callLocked hcall hleased hx) w
  | callEnded ht | settleEnded ht =>
    exact slotStep_of_update _ rfl
      (fun hx => .unlocked ht rfl (hfree (u := s.setCallLock _ _) ht rfl) hx) w
  | reapTook ht hlive hidle => exact slotStep_of_update _ rfl (.killed rfl ht rfl) w
  | slotsKilled ht hlock =>
    obtain ⟨task, nextTask, -, h⟩ := killSlots_frame s.children s
    exact .same (by rw [h]; rfl)
  | dropped ht => exact slotStep_dropTask hfresh ht w
  | @answered w₀ request answer effect hrequest heffect =>
    obtain ⟨task, h⟩ := deliver_frame (s.setSlot w₀ { s.slot w₀ with
      requests := (s.slot w₀).requests.erase request
      database := databaseAfter (s.slot w₀).database request effect }) request.task answer
    rw [h]
    exact slotStep_of_update _ rfl (fun hx => .answered rfl hrequest heffect hx) w
  | transportClosed => exact slotStep_of_update _ rfl .transportLost w
  | _ => exact .same rfl

namespace Position

def starts : Position → Option WorkerId
  | spawnSlot _ w => some w
  | _ => none

def closes : Position → Option PooledWorkerHandle
  | releaseSend h | releaseAwait h _ | releaseReset h _ => some h
  | _ => none

theorem holdsCall_of_closes {h : PooledWorkerHandle} (hp : p.closes = some h) :
    p.holdsCall = some h.workerId := by
  cases p <;> cases hp <;> rfl

end Position

def State.Unbuilt (s : State) (w : WorkerId) : Prop := s.nextId ≤ w ∨ ∃ t, s.role starts t = some w

structure ChildSlot.Pristine (slot : ChildSlot) : Prop where
  state : slot.state = .dead
  callLock : slot.callLock = none
  requests : slot.requests = []
  database : slot.database = none

theorem afterClose_starts (h : PooledWorkerHandle) (error : Option ToolError) :
    (afterClosePosition h error).starts = none ∧
      (afterClosePosition h error).holdsCall = some h.workerId := by
  rcases afterClosePosition_cases h error with ⟨e, -, -, hp⟩ | ⟨-, hp⟩ <;> rw [hp] <;>
    exact ⟨rfl, rfl⟩

theorem starts_advance {slot : WorkerId → ChildSlot} (hadvance : Advance cfg s a slot t p p')
    (hp' : p'.starts = some w) : s.nextId ≤ w := by
  cases hadvance with
  | moved _ hmove =>
    cases hmove with
    | closeNotSent | closeSendTimedOut | closeAnswered | closeTimedOut | closeLost =>
      rw [(afterClose_starts _ _).1] at hp'
      cases hp'
    | _ => cases hp'
  | @leaseGone _ _ _ k | @forgot _ k | @replenished k => cases k <;> cases hp'
  | leaseReserved =>
    cases hp'
    exact Nat.le_refl _
  | _ => cases hp'

theorem starts_begun (hbegun : Begun s a p) (hp : p.starts = some w) : s.nextId ≤ w := by
  cases hbegun with
  | started operation => cases operation <;> cases hp
  | minimum hw =>
    cases hp
    exact hw
  | reaper | killed => cases hp
  | cleanup _ ht hdrop =>
    rcases dropTask_eq_some hdrop with ⟨w, -, rfl | rfl⟩ | ⟨h, -, rfl⟩ <;> cases hp

theorem holdsCall_advance {slot : WorkerId → ChildSlot} (hadvance : Advance cfg s a slot t p p')
    (hp' : p'.holdsCall = some w) : p.holdsCall = some w ∨ (slot w).callLock = some t := by
  cases hadvance with
  | moved _ hmove =>
    cases hmove with
    | closeNotSent | closeSendTimedOut | closeAnswered | closeTimedOut | closeLost =>
      rw [(afterClose_starts _ _).2] at hp'
      exact .inl hp'
    | callRetired | callToSettle | settleRetired => exact .inl hp'
    | _ => cases hp'
  | @leaseGone _ _ _ k | @forgot _ k | @replenished k => cases k <;> cases hp'
  | @tookDead _ _ _ k | @forgotLost _ k => cases k <;> exact .inl hp'
  | closing hslot hlock =>
    cases hp'
    exact .inr hlock
  | callSent hlock | callSendLost hlock =>
    cases hp'
    exact .inr hlock
  | closeSent | closeReply | callReply => exact .inl hp'
  | _ => cases hp'

theorem holdsCall_begun (hbegun : Begun s a p) : p.holdsCall = none := by
  cases hbegun with
  | started operation =>
    cases operation with
    | markDeadForLease h guarded => cases guarded <;> rfl
    | _ => rfl
  | minimum | reaper | killed => rfl
  | cleanup _ ht hdrop =>
    rcases dropTask_eq_some hdrop with ⟨w, -, rfl | rfl⟩ | ⟨h, -, rfl⟩ <;> rfl

theorem closes_advance {slot : WorkerId → ChildSlot} {h : PooledWorkerHandle}
    (hadvance : Advance cfg s a slot t p p') (hp' : p'.closes = some h) :
    p.closes = some h ∨ (slot h.workerId).state = .closing h.leaseId := by
  have hclose {h₀ : PooledWorkerHandle} {error : Option ToolError}
      (hp' : (afterClosePosition h₀ error).closes = some h) : h₀ = h := by
    rcases afterClosePosition_cases h₀ error with ⟨e, -, -, hp⟩ | ⟨-, hp⟩ <;> rw [hp] at hp' <;>
      cases hp'
    rfl
  cases hadvance with
  | moved _ hmove =>
    cases hmove with
    | closeNotSent | closeSendTimedOut | closeAnswered | closeTimedOut | closeLost =>
      rw [hclose hp']
      exact .inl rfl
    | _ => cases hp'
  | @leaseGone _ _ _ k | @forgot _ k | @replenished k => cases k <;> cases hp'
  | closing hslot hlock =>
    cases hp'
    exact .inr hslot
  | closeSent | closeReply => exact .inl hp'
  | _ => cases hp'

structure Kept (s : State) : Prop where
  held : ∀ t w, s.role holdsCall t = some w → (s.slot w).callLock = some t
  unbuilt : ∀ w, s.Unbuilt w → (s.slot w).Pristine
  closing : ∀ t h, s.role closes t = some h →
    s.stateOf h.workerId = .closing h.leaseId ∨ s.stateOf h.workerId = .dead

theorem role_holdsCall_of_closes {h : PooledWorkerHandle} (ht : s.role closes t = some h) :
    s.role holdsCall t = some h.workerId := by
  obtain ⟨task, htask, hp⟩ := role_eq_some ht
  rw [role_eq holdsCall htask]
  exact holdsCall_of_closes hp

theorem Kept.holder_eq {t' : TaskId} (h : Kept s) (ht : s.role holdsCall t = some w)
    (ht' : s.role holdsCall t' = some w) : t' = t := by
  have hlock := h.held t' w ht'
  rw [h.held t w ht] at hlock
  exact (Option.some.inj hlock).symm

theorem unbuilt_of_taskStep (hstep : TaskStep cfg s a s') (hid : s.nextId ≤ s'.nextId)
    (hw : s'.Unbuilt w) : s.Unbuilt w := by
  rcases hw with hw | ⟨t, ht⟩
  · exact .inl (Nat.le_trans hid hw)
  · rcases hstep.role ht with ⟨_, -, -, hold⟩ | ⟨p, p', d, -, -, hadvance, hp'⟩ | ⟨p, -, hbegun, hp⟩
    · exact .inr ⟨t, hold⟩
    · exact .inl (starts_advance hadvance hp')
    · exact .inl (starts_begun hbegun hp)

theorem not_unbuilt_of_built (hsound : Accounted cfg s) (hstep : TaskStep cfg s a s')
    (hid : s.nextId ≤ s'.nextId) {purpose : Purpose} (ht : s.task t = some ⟨.spawnSlot purpose w, d⟩)
    (ht' : s'.task t = some ⟨.finishSpawn purpose w, d⟩) : ¬ s'.Unbuilt w := by
  have howner : (ledger s).owner t = some w := role_eq reserves ht
  have hlt : w < s.nextId := hsound.sound.reserved_lt w (hsound.sound.mem t w howner).1
  rintro (hw | ⟨t', hw⟩)
  · exact Nat.lt_irrefl _ (Nat.lt_of_lt_of_le hlt (Nat.le_trans hid hw))
  · rcases hstep.role hw with ⟨task, hold, hnew, hw⟩ | ⟨p, p', d, -, -, hadvance, hp'⟩ | ⟨p, -, hbegun, hp⟩
    · have howner' : (ledger s).owner t' = some w := by
        obtain ⟨⟨p, d⟩, htask, hp⟩ := role_eq_some hw
        refine (role_eq reserves htask).trans ?_
        cases p <;> cases hp
        rfl
      obtain rfl := hsound.sound.unique t' t w howner' howner
      rw [ht] at hold
      rw [ht'] at hnew
      cases hold
      cases hnew
    · exact Nat.lt_irrefl _ (Nat.lt_of_lt_of_le hlt (starts_advance hadvance hp'))
    · exact Nat.lt_irrefl _ (Nat.lt_of_lt_of_le hlt (starts_begun hbegun hp))

theorem Kept.held_slot (h : Kept s) (ht : s.role holdsCall t = some w)
    (ht' : s'.role holdsCall t = some w) (hstep : SlotStep s a s' w) :
    (s'.slot w).callLock = some t ∧
      (s'.stateOf w = s.stateOf w ∨ s'.stateOf w = .dead ∨ s.stateOf w = .idle) := by
  have hlock := h.held t w ht
  have not_free {t₀ : TaskId} (ht₀ : s.role holdsCall t₀ = some w)
      (hfree : s'.role holdsCall t₀ = none) : False := by
    obtain rfl := h.holder_eq ht ht₀
    rw [ht'] at hfree
    cases hfree
  cases hstep with
  | same hslot => exact ⟨by rw [hslot, hlock], .inl (by rw [stateOf, hslot]; rfl)⟩
  | leased _ ht hidle _ hslot => exact ⟨by rw [hslot, hlock], .inr (.inr hidle)⟩
  | built ht hnew hslot =>
    have hpristine := h.unbuilt w (.inr ⟨_, role_eq starts ht⟩)
    rw [hpristine.callLock] at hlock
    cases hlock
  | killed _ _ _ hslot => exact ⟨by rw [hslot, hlock], .inr (.inl (by rw [stateOf, hslot]))⟩
  | closing ht hw hcall | callSent ht hw hcall | callLocked hcall =>
    rw [hcall] at hlock
    cases hlock
  | closeSent ht hw hnew hslot | answered _ hrequest heffect hslot | transportLost hslot =>
    exact ⟨by rw [hslot, hlock], .inl (by rw [stateOf, hslot]; rfl)⟩
  | unlocked ht₀ hp hfree hslot => exact (not_free ((role_eq holdsCall ht₀).trans hp) hfree).elim
  | reset ht₀ hw hdead hfree hslot =>
    subst hw
    exact (not_free (role_eq holdsCall ht₀) hfree).elim

theorem Kept.pristine_slot (h : Kept s) (hw : s.Unbuilt w) (hstep : SlotStep s a s' w)
    (hbuilt : ∀ t purpose d, s.task t = some ⟨.spawnSlot purpose w, d⟩ →
      s'.task t ≠ some ⟨.finishSpawn purpose w, d⟩) : (s'.slot w).Pristine := by
  have hpristine := h.unbuilt w hw
  obtain ⟨hstate, hcall, hrequests, hdatabase⟩ := hpristine
  have not_held {t : TaskId} (ht : s.role holdsCall t = some w) : False := by
    have hlock := h.held t w ht
    rw [hcall] at hlock
    cases hlock
  cases hstep with
  | same hslot =>
    rw [hslot]
    exact ⟨hstate, hcall, hrequests, hdatabase⟩
  | leased _ ht hidle _ hslot =>
    rw [stateOf, hstate] at hidle
    cases hidle
  | built ht ht' hslot => exact (hbuilt _ _ _ ht ht').elim
  | killed _ _ _ hslot =>
    rw [hslot]
    exact ⟨rfl, hcall, hrequests, hdatabase⟩
  | closing ht hw hcall hlease _ hslot =>
    rw [stateOf, hstate] at hlease
    cases hlease
  | closeSent ht hw ht' hslot =>
    subst hw
    exact (not_held (role_eq holdsCall ht)).elim
  | unlocked ht hp hfree hslot =>
    rw [hslot]
    exact ⟨hstate, rfl, hrequests, hdatabase⟩
  | reset ht hw hdead hfree hslot => exact (hdead hstate).elim
  | callSent ht hw hcall hleased ht' hslot | callLocked hcall hleased hslot =>
    rw [stateOf, hstate] at hleased
    cases hleased
  | answered _ hrequest heffect hslot =>
    rw [hrequests] at hrequest
    cases hrequest
  | transportLost hslot =>
    rw [hslot]
    exact ⟨hstate, hcall, hrequests, hdatabase⟩

theorem Kept.step (h : Kept s) (hsound : Accounted cfg s)
    (hstep : Transition cfg s a s') : Kept s' := by
  have htasks := taskStep_transition hsound.fresh hstep
  have hslot := slotStep_transition hsound.fresh hstep
  have hid := (counters_le hstep).1
  constructor
  · intro t w ht
    rcases htasks.role ht with ⟨_, -, -, hold⟩ | ⟨p, p', d, hp, -, hadvance, hp'⟩ | ⟨p, -, hbegun, hp⟩
    · exact (h.held_slot hold ht (hslot w)).1
    · rcases holdsCall_advance hadvance hp' with hold | hnew
      · exact (h.held_slot ((role_eq holdsCall hp).trans hold) ht (hslot w)).1
      · exact hnew
    · rw [holdsCall_begun hbegun] at hp
      cases hp
  · intro w hw
    apply h.pristine_slot (unbuilt_of_taskStep htasks hid hw) (hslot w)
    intro t purpose d ht ht'
    exact not_unbuilt_of_built hsound htasks hid ht ht' hw
  · intro t hd ht
    have hheld := role_holdsCall_of_closes ht
    have hkept (hold : s.role closes t = some hd) :
        s'.stateOf hd.workerId = .closing hd.leaseId ∨ s'.stateOf hd.workerId = .dead := by
      have hclosing := h.closing t hd hold
      rcases (h.held_slot (role_holdsCall_of_closes hold) hheld (hslot hd.workerId)).2 with
        hsame | hdead | hidle
      · rwa [hsame]
      · exact .inr hdead
      · rw [hidle] at hclosing
        rcases hclosing with hclosing | hclosing <;> cases hclosing
    rcases htasks.role ht with ⟨_, -, -, hold⟩ | ⟨p, p', d, hp, -, hadvance, hp'⟩ | ⟨p, -, hbegun, hp⟩
    · exact hkept hold
    · rcases closes_advance hadvance hp' with hold | hnew
      · exact hkept ((role_eq closes hp).trans hold)
      · exact .inl hnew
    · have hnone := holdsCall_of_closes hp
      rw [holdsCall_begun hbegun] at hnone
      cases hnone

theorem kept_warmed : Kept (warmed cfg) where
  held t w ht := by simp [role, warmed] at ht
  unbuilt w hw := by
    have hle : minReplenished cfg ≤ w := by
      rcases hw with hw | ⟨t, ht⟩
      · exact hw
      · simp [role, warmed] at ht
    exact ⟨if_neg (Nat.not_lt.mpr hle), rfl, rfl, rfl⟩
  closing t h ht := by simp [role, warmed] at ht

theorem kept_of_reachable (h : Reachable (step cfg) (warmed cfg) s) : Kept s := by
  have hboth : Accounted cfg s ∧ Kept s := by
    refine invariant_of_reachable (I := fun s => Accounted cfg s ∧ Kept s) ?_ ?_ h
    · rintro s a s' ⟨hsound, hkept⟩ hstep
      exact ⟨hsound.step hstep, hkept.step hsound (transition_of_step hstep)⟩
    · exact ⟨⟨fresh_warmed, sound_warmed⟩, kept_warmed⟩
  exact hboth.2

end IdaMcp.Pool
