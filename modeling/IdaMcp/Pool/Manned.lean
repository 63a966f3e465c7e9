import IdaMcp.Pool.Slots

namespace IdaMcp.Foundation.Ledger

variable {τ : Type*} [DecidableEq τ] {cap : ℕ} {l l' : Ledger τ}

def Held (l : Ledger τ) : Prop := ∀ t, l.lock = some t → ∃ x, l.scan t = some x

theorem Held.step (h : l.Held) (hstep : Step cap l l') : l'.Held := by
  intro t ht
  cases hstep with
  | beginScan t' =>
    obtain rfl := Option.some.inj ht
    exact ⟨_, Function.update_self ..⟩
  | @count t' i rest n hscan =>
    by_cases htt : t = t'
    · subst htt
      exact ⟨_, Function.update_self ..⟩
    · obtain ⟨x, hx⟩ := h t ht
      exact ⟨x, (Function.update_of_ne htt _ _).trans hx⟩
  | endScan | reserveScanned => cases ht
  | _ => exact h t ht

theorem Held.steps (h : l.Held) (hsteps : Relation.ReflTransGen (Step cap) l l') : l'.Held := by
  induction hsteps with
  | refl => exact h
  | tail _ hstep ih => exact ih.step hstep

end IdaMcp.Foundation.Ledger

namespace IdaMcp.Pool

open Foundation State Position

variable {cfg : WorkerPoolConfig} {s s' u : State} {a : Action} {t : TaskId} {d : Bool}
  {p p' : Position} {w : WorkerId}

def State.Manned (s : State) : Prop :=
  ∀ w t, (s.slot w).callLock = some t → s.role holdsCall t = some w

theorem move_holdsCall {choice : Choice} (hmove : Move cfg s choice p p') :
    p'.holdsCall = p.holdsCall := by
  cases hmove with
  | closeNotSent | closeSendTimedOut | closeAnswered | closeTimedOut | closeLost =>
    exact (afterClose_starts _ _).2
  | _ => rfl

theorem State.Manned.goto (h : s.Manned) (ht : s.task t = some ⟨p, d⟩) (htask : u.task = s.task)
    (hkeep : ∀ w, (u.slot w).callLock = none ∨ (u.slot w).callLock = (s.slot w).callLock)
    (hp : ∀ w, p.holdsCall = some w → p'.holdsCall = some w ∨ (u.slot w).callLock = none) :
    (u.goto t p').Manned := by
  intro w t' hlock
  have hu : u.task t = some ⟨p, d⟩ := htask ▸ ht
  have hold : s.role holdsCall t' = some w := by
    rcases hkeep w with hfree | hsame
    · rw [show (u.slot w).callLock = some t' from hlock] at hfree
      cases hfree
    · exact h w t' (hsame.symm.trans hlock)
  rw [role_goto holdsCall hu, Function.update_apply]
  split_ifs with htt
  · subst htt
    rw [role_eq holdsCall ht] at hold
    rcases hp w hold with hp' | hfree
    · exact hp'
    · rw [show (u.slot w).callLock = some t' from hlock] at hfree
      cases hfree
  · simpa [role, htask] using hold

theorem State.Manned.lock (h : s.Manned) (ht : s.task t = some ⟨p, d⟩) (htask : u.task = s.task)
    (hlock : ∀ w', (u.slot w').callLock = if w' = w then some t else (s.slot w').callLock)
    (hp : p.holdsCall = none) (hp' : p'.holdsCall = some w) : (u.goto t p').Manned := by
  intro w' t' hheld
  have hu : u.task t = some ⟨p, d⟩ := htask ▸ ht
  have hheld' := (hlock w').symm.trans hheld
  rw [role_goto holdsCall hu, Function.update_apply]
  split_ifs at hheld' with hw
  · obtain rfl := Option.some.inj hheld'
    rw [if_pos rfl, hp', hw]
  · have hold := h w' t' hheld'
    have hne : t' ≠ t := by
      rintro rfl
      rw [role_eq holdsCall ht, hp] at hold
      cases hold
    rw [if_neg hne]
    simpa [role, htask] using hold

theorem State.Manned.of_kept (h : s.Manned) (hslot : u.slot = s.slot)
    (hkeep : ∀ t p d, s.task t = some ⟨p, d⟩ → u.task t = some ⟨p, d⟩) : u.Manned := by
  intro w t hlock
  rw [hslot] at hlock
  obtain ⟨task, ht, hp⟩ := role_eq_some (h w t hlock)
  exact (role_eq holdsCall (hkeep t task.position task.detached ht)).trans hp

theorem callLock_dropTask (s : State) (t : TaskId) (p : Position) (w : WorkerId) :
    ((dropTask s t p).slot w).callLock = if p.holdsCall = some w then none else (s.slot w).callLock := by
  have hslot : (dropTask s t p).slot = (p.holdsCall.elim s fun w => s.setCallLock w none).slot := by
    unfold dropTask
    cases p.dropTask <;> cases p.holdsCall <;> cases p.holdsPool <;> rfl
  rw [hslot]
  cases hp : p.holdsCall with
  | none => simp
  | some w' =>
    simp only [Option.elim_some, setCallLock, setSlot, Function.update_apply, Option.some_inj]
    split_ifs with hw hw' hw'
    · rfl
    · exact absurd hw.symm hw'
    · exact absurd hw'.symm hw
    · rfl

theorem callLock_setSlot (s : State) (w w' : WorkerId) {slot : ChildSlot}
    (hslot : slot.callLock = (s.slot w).callLock) :
    ((s.setSlot w slot).slot w').callLock = (s.slot w').callLock := by
  simp only [setSlot, Function.update_apply]
  split_ifs with hw
  · rw [hw, hslot]
  · rfl

theorem callLock_setCallLock (s : State) (w w' : WorkerId) (callLock : Option TaskId) :
    ((s.setCallLock w callLock).slot w').callLock = if w' = w then callLock else (s.slot w').callLock := by
  simp only [setCallLock, setSlot, Function.update_apply]
  split_ifs <;> rfl

theorem State.Manned.unlock (h : s.Manned) (ht : s.task t = some ⟨p, d⟩) (htask : u.task = s.task)
    (hlock : ∀ w', (u.slot w').callLock = (s.slot w').callLock) (hp : p.holdsCall = some w)
    (p' : Position) : ((u.setCallLock w none).goto t p').Manned := by
  apply h.goto (u := u.setCallLock w none) ht htask
  · intro w'
    rw [callLock_setCallLock, hlock]
    split_ifs
    · exact .inl rfl
    · exact .inr rfl
  · intro w' hw'
    obtain rfl := Option.some.inj (hp.symm.trans hw')
    right
    rw [callLock_setCallLock, if_pos rfl]

theorem State.Manned.move (h : s.Manned) (ht : s.task t = some ⟨p, d⟩) (htask : u.task = s.task)
    (hlock : ∀ w', (u.slot w').callLock = (s.slot w').callLock) (hp : p'.holdsCall = p.holdsCall) :
    (u.goto t p').Manned :=
  h.goto ht htask (fun w => .inr (hlock w)) fun _ hw => .inl (hp.trans hw)

theorem State.Manned.resume {k : Continuation} (h : s.Manned) (ht : s.task t = some ⟨p, d⟩)
    (hp : p.holdsCall = k.callLock) : (resume s t k).Manned := by
  have hk : k.position.holdsCall = none := (holdsCall_continuation k 0 none false).1
  unfold Pool.resume
  cases hlock : k.callLock with
  | none => exact h.move ht rfl (fun _ => rfl) (by rw [hk, hp, hlock])
  | some w => exact h.unlock ht rfl (fun _ => rfl) (hp.trans hlock) _

theorem State.Manned.drop (h : s.Manned) (hfresh : s.Fresh) (ht : s.task t = some ⟨p, d⟩) :
    (dropTask s t p).Manned := by
  intro w t' hlock
  rw [callLock_dropTask] at hlock
  split_ifs at hlock with hp
  obtain ⟨task, ht', hrole⟩ := role_eq_some (h w t' hlock)
  have hne : t' ≠ t := by
    rintro rfl
    obtain rfl := Option.some.inj (ht.symm.trans ht')
    exact hp hrole
  rw [role, task_dropTask_of_ne hne (hfresh.lt ht'), ht']
  exact hrole

theorem manned_transition (h : s.Manned) (hfresh : s.Fresh) (hstep : Transition cfg s a s') :
    s'.Manned := by
  cases hstep with
  | started => exact h.of_kept rfl fun t p d ht => (task_spawn_of_lt (hfresh.lt ht) _ _).trans ht
  | moved ht hmove => exact h.move ht rfl (fun _ => rfl) (move_holdsCall hmove)
  | tookLeaseId ht | leaseScanBegun ht | leaseRefused ht | leaseWaits ht | leaseReserved ht
  | installedLease ht | installedMinimum ht | unreserved ht | reapScanBegun ht | reapKept ht
  | shutdownBegun ht =>
    exact h.move ht rfl (fun _ => rfl) rfl
  | @leasedIdle t session lease w rest active deadIds d ht =>
    exact h.move ht rfl (fun w' => callLock_setSlot s w w' rfl) rfl
  | @spawned t purpose w d ht =>
    refine h.goto ht rfl ?_ (by rintro _ ⟨⟩)
    intro w'
    simp only [setSlot, Function.update_apply]
    split_ifs
    · exact .inl rfl
    · exact .inr rfl
  | @tookDead t w lease replenish k d ht =>
    refine h.move ht rfl (fun w' => callLock_setSlot s w w' rfl) ?_
    obtain ⟨-, htake, hforget, -⟩ := holdsCall_continuation k w lease replenish
    exact hforget.trans htake.symm
  | @reapTook t w sleepStarted liveCount d ht =>
    exact h.move ht rfl (fun w' => callLock_setSlot s w w' rfl) rfl
  | leaseGone ht => exact h.resume ht (holdsCall_continuation _ _ _ _).2.1
  | @forgot t w k d ht =>
    exact Manned.resume (s := s.forget [w]) h ht (holdsCall_continuation k w none false).2.2.1
  | @forgotLost t w k d ht =>
    refine h.move ht rfl (fun _ => rfl) ?_
    obtain ⟨-, -, hforget, hschedule⟩ := holdsCall_continuation k w none true
    exact hschedule.trans hforget.symm
  | @replenished t k d ht =>
    have hkept : (replenish cfg s).Manned := by
      obtain ⟨_, _, _, _, -, -, hframe⟩ := replenish_frame cfg s
      exact h.of_kept (by rw [hframe]) fun _ _ _ ht => task_replenish cfg hfresh ht
    exact hkept.resume (task_replenish cfg hfresh ht) (holdsCall_continuation k 0 none false).2.2.2
  | @closing t h₀ d ht =>
    refine h.lock ht rfl ?_ rfl rfl
    intro w'
    rw [callLock_setCallLock, setState, callLock_setSlot s h₀.workerId w' (by rfl)]
  | @closeSent t h₀ d ht =>
    exact h.move ht rfl (fun w' => callLock_setSlot s h₀.workerId w' (by rfl)) rfl
  | resetDead ht => exact h.unlock ht rfl (fun _ => rfl) rfl _
  | @resetIdle t h₀ error d ht =>
    exact h.unlock (u := s.useSlot h₀.workerId .idle) ht rfl
      (fun w' => callLock_setSlot s h₀.workerId w' (by rfl)) rfl _
  | @reapScheduled t h₀ outcome d ht =>
    have hmoved : (s.goto t (.done outcome)).Manned := h.move ht rfl (fun _ => rfl) rfl
    exact hmoved.of_kept rfl fun t' p' d' ht' =>
      (task_spawn_of_lt (Fresh.lt (hfresh.goto t _) ht') _ _).trans ht'
  | @callSent t h₀ tool tracksOpen d ht =>
    refine h.lock ht rfl ?_ rfl rfl
    intro w'
    rw [send, setRequests, callLock_setSlot _ h₀.workerId w' (by rfl), callLock_setCallLock]
  | @callSendLost t h₀ tool tracksOpen error error' d ht =>
    exact h.lock ht rfl (fun w' => callLock_setCallLock s h₀.workerId w' (some t)) rfl rfl
  | callEnded ht => exact h.unlock ht rfl (fun _ => rfl) rfl _
  | settleEnded ht => exact h.unlock ht rfl (fun _ => rfl) rfl _
  | @slotsKilled t d ht =>
    have hkept : (killSlots s s.children).Manned := by
      obtain ⟨_, _, -, hframe⟩ := killSlots_frame s.children s
      exact h.of_kept (by rw [hframe]) fun _ _ _ ht => task_killSlots _ hfresh ht
    exact hkept.move (task_killSlots _ hfresh ht) rfl (fun _ => rfl) rfl
  | dropped ht => exact h.drop hfresh ht
  | @answered w request answer effect =>
    have hslot : (s.setSlot w { s.slot w with
        requests := (s.slot w).requests.erase request
        database := databaseAfter (s.slot w).database request effect }).Manned := by
      intro w' t' hlock
      rw [callLock_setSlot s w w' (by rfl)] at hlock
      exact h w' t' hlock
    rcases deliver_cases (s.setSlot w _) request.task answer with hd | ⟨h₀, d, ht, hd⟩ |
      ⟨h₀, tool, tracksOpen, d, ht, hd⟩ <;> rw [hd]
    · exact hslot
    · exact hslot.move ht rfl (fun _ => rfl) rfl
    · exact hslot.move ht rfl (fun _ => rfl) rfl
  | @transportClosed w =>
    intro w' t' hlock
    rw [callLock_setSlot s w w' (by rfl)] at hlock
    exact h w' t' hlock
  | ticked => exact h

end IdaMcp.Pool
