import IdaMcp.Pool.Published

/-! A slot that is not dead is installed or reserved: what a startup gives up has been retired. -/

namespace IdaMcp.Pool

open Foundation State Position

variable {cfg : WorkerPoolConfig} {s s' : State} {a : Action} {t : TaskId} {d : Bool}
  {p p' : Position} {w : WorkerId}

namespace Position

/-- The reserved worker that a task gives up next. -/
def yields : Position → Option WorkerId
  | unreserve w _ => some w
  | _ => none

/-- What no discard of a startup is: one that asks for a lease, or that replenishes. -/
def strays : Position → Option Unit
  | takeDead _ (some _) _ (.unreserve _ _) | takeDead _ _ true (.unreserve _ _)
  | forgetSlot _ true (.unreserve _ _) | scheduleReplenishment (.unreserve _ _) => some ()
  | _ => none

theorem yields_continuation {k : Continuation} (hw : k.position.yields = some w) :
    ∃ outcome, k = .unreserve w outcome := by
  cases k with
  | unreserve =>
    cases hw
    exact ⟨_, rfl⟩
  | _ => cases hw

theorem strays_continuation (k : Continuation) : k.position.strays = none := by
  cases k <;> rfl

theorem yields_dropTask (hdrop : p.dropTask = some p') (hp' : p'.yields = some w) :
    p.starts = some w ∨ p.yields = some w := by
  cases p with
  | spawnSlot =>
    cases hdrop
    exact .inl hp'
  | unreserve =>
    cases hdrop
    exact .inr hp'
  | takeDead _ _ _ k | forgetSlot _ _ k | scheduleReplenishment k =>
    cases k <;> cases hdrop <;> cases hp'
  | finishSpawn | releaseLock | releaseSend | releaseAwait | releaseReset | callAwait | callSettle =>
    cases hdrop
    cases hp'
  | _ => cases hdrop

theorem afterClose_yields (h : PooledWorkerHandle) (error : Option ToolError) :
    (afterClosePosition h error).yields = none ∧ (afterClosePosition h error).strays = none := by
  rcases afterClosePosition_cases h error with ⟨e, -, -, hp⟩ | ⟨-, hp⟩ <;> rw [hp] <;>
    exact ⟨rfl, rfl⟩

end Position

theorem children_transition (href : Referred s) (hstep : Transition cfg s a s') :
    (∀ w ∈ s.children, w ∈ s'.children ∨ s.stateOf w = .dead) ∧
      (s.shuttingDown = true → s'.children ⊆ s.children ∧ s'.spawning ⊆ s.spawning) := by
  have kept {s₁ : State} (hchildren : s₁.children = s.children) (hspawning : s₁.spawning = s.spawning) :
      (∀ w ∈ s.children, w ∈ s₁.children ∨ s.stateOf w = .dead) ∧
        (s.shuttingDown = true → s₁.children ⊆ s.children ∧ s₁.spawning ⊆ s.spawning) := by
    rw [hchildren, hspawning]
    exact ⟨fun w hw => .inl hw, fun _ => ⟨List.Subset.refl _, List.Subset.refl _⟩⟩
  have forgets {s₁ : State} {t : TaskId} {p : Position} {d : Bool} (ht : s.task t = some ⟨p, d⟩)
      (hchildren : s₁.children = (s.forget p.buries).children)
      (hspawning : s.shuttingDown = true → s₁.spawning = s.spawning) :
      (∀ w ∈ s.children, w ∈ s₁.children ∨ s.stateOf w = .dead) ∧
        (s.shuttingDown = true → s₁.children ⊆ s.children ∧ s₁.spawning ⊆ s.spawning) := by
    rw [hchildren]
    constructor
    · intro w hw
      by_cases hburied : w ∈ p.buries
      · exact .inr (href.buried t p d ht w hburied).1
      · exact .inl (List.mem_filter.mpr ⟨hw, by simpa using hburied⟩)
    · intro hshut
      rw [hspawning hshut]
      exact ⟨List.filter_subset_self _, List.Subset.refl _⟩
  have installs {s₁ : State} {w : WorkerId} (hshut : s.shuttingDown = false)
      (hchildren : s₁.children = s.children ++ [w]) :
      (∀ w ∈ s.children, w ∈ s₁.children ∨ s.stateOf w = .dead) ∧
        (s.shuttingDown = true → s₁.children ⊆ s.children ∧ s₁.spawning ⊆ s.spawning) := by
    rw [hchildren, hshut]
    exact ⟨fun w hw => .inl (List.mem_append_left _ hw), nofun⟩
  cases hstep with
  | leaseRefused ht | leaseWaits ht => exact forgets ht rfl fun _ => rfl
  | leaseReserved ht hactive hshut =>
    refine forgets ht rfl fun hshut' => ?_
    rw [hshut] at hshut'
    cases hshut'
  | installedLease ht hlock hshut => exact installs hshut rfl
  | installedMinimum ht hlock hshut => exact installs hshut rfl
  | unreserved ht =>
    exact ⟨fun w hw => .inl hw, fun _ => ⟨List.Subset.refl _, List.filter_subset_self _⟩⟩
  | @leaseGone t _ _ _ k =>
    obtain ⟨slot, task, h⟩ := resume_frame s t k
    exact kept (by rw [h]) (by rw [h])
  | @forgot t w k d ht =>
    obtain ⟨slot, task, h⟩ := resume_frame (s.forget [w]) t k
    rw [h]
    exact forgets ht rfl fun _ => rfl
  | forgotLost ht => exact forgets ht rfl fun _ => rfl
  | @replenished t k =>
    obtain ⟨slot, task, h⟩ := resume_frame (replenish cfg s) t k
    rw [h]
    by_cases hshut : s.shuttingDown = true
    · have hsame : replenish cfg s = s := if_pos hshut
      exact kept (by rw [hsame]) (by rw [hsame])
    · obtain ⟨spawning, nextId, task', nextTask, -, -, h'⟩ := replenish_frame cfg s
      rw [h']
      exact ⟨fun w hw => .inl hw, fun hshut' => absurd hshut' hshut⟩
  | slotsKilled ht hlock =>
    obtain ⟨task, nextTask, -, h⟩ := killSlots_frame s.children s
    exact kept (by rw [h]; rfl) (by rw [h]; rfl)
  | @dropped t p =>
    obtain ⟨poolLock, slot, task, nextTask, -, h⟩ := dropTask_frame s t p
    exact kept (by rw [h]) (by rw [h])
  | @answered w request answer effect =>
    obtain ⟨task, h⟩ := deliver_frame (s.setSlot w { s.slot w with
      requests := (s.slot w).requests.erase request
      database := databaseAfter (s.slot w).database request effect }) request.task answer
    rw [h]
    exact kept rfl rfl
  | _ => exact kept rfl rfl

theorem spawning_replenishTimes (n : ℕ) (s : State) : s.spawning ⊆ (replenishTimes n s).spawning := by
  induction n generalizing s with
  | zero => exact List.Subset.refl _
  | succ n ih =>
    have hreserve : s.spawning ⊆ (s.reserve.spawn (.spawnSlot .minimum s.nextId) true).spawning :=
      List.subset_append_left _ _
    exact List.Subset.trans hreserve (ih _)

theorem spawning_replenish (cfg : WorkerPoolConfig) (s : State) :
    s.spawning ⊆ (replenish cfg s).spawning := by
  unfold replenish
  split_ifs
  · exact List.Subset.refl _
  · exact spawning_replenishTimes _ s

theorem spawning_transition (hstep : Transition cfg s a s') (hw : w ∈ s.spawning) :
    w ∈ s'.spawning ∨ w ∈ s'.children ∨ ∃ t, s.role yields t = some w := by
  have installs {w₀ : WorkerId} :
      w ∈ s.spawning.filter (· ≠ w₀) ∨ w ∈ s.children ++ [w₀] := by
    by_cases hne : w = w₀
    · rw [hne]
      exact .inr (List.mem_append_right _ (List.mem_singleton_self _))
    · exact .inl (List.mem_filter.mpr ⟨hw, by simpa using hne⟩)
  cases hstep with
  | leaseReserved => exact .inl (List.mem_append_left _ hw)
  | installedLease | installedMinimum => exact installs.imp_right .inl
  | @unreserved t w₀ outcome d ht =>
    by_cases hne : w = w₀
    · rw [hne]
      exact .inr (.inr ⟨t, role_eq yields ht⟩)
    · exact .inl (List.mem_filter.mpr ⟨hw, by simpa using hne⟩)
  | @leaseGone t _ _ _ k =>
    obtain ⟨slot, task, h⟩ := resume_frame s t k
    rw [h]
    exact .inl hw
  | @forgot t w₀ k =>
    obtain ⟨slot, task, h⟩ := resume_frame (s.forget [w₀]) t k
    rw [h]
    exact .inl hw
  | @replenished t k =>
    obtain ⟨slot, task, h⟩ := resume_frame (replenish cfg s) t k
    rw [h]
    exact .inl (spawning_replenish cfg s hw)
  | slotsKilled =>
    obtain ⟨task, nextTask, -, h⟩ := killSlots_frame s.children s
    rw [h]
    exact .inl hw
  | @dropped t p =>
    obtain ⟨poolLock, slot, task, nextTask, -, h⟩ := dropTask_frame s t p
    rw [h]
    exact .inl hw
  | @answered w₀ request answer effect =>
    obtain ⟨task, h⟩ := deliver_frame (s.setSlot w₀ { s.slot w₀ with
      requests := (s.slot w₀).requests.erase request
      database := databaseAfter (s.slot w₀).database request effect }) request.task answer
    rw [h]
    exact .inl hw
  | _ => exact .inl hw

structure Placed (s : State) : Prop where
  discards : ∀ t, s.role strays t = none
  yielded : ∀ t w, s.role yields t = some w → s.stateOf w = .dead
  placed : ∀ w, s.stateOf w ≠ .dead → w ∈ s.children ∨ w ∈ s.spawning

theorem reserves_of_yields (ht : s.role yields t = some w) : s.role reserves t = some w := by
  obtain ⟨⟨p, d⟩, htask, hp⟩ := role_eq_some ht
  rw [role_eq reserves htask]
  cases p <;> cases hp
  rfl

theorem not_unbuilt_of_yields (hsound : Accounted cfg s) (ht : s.role yields t = some w) :
    ¬ s.Unbuilt w := by
  have howner : (ledger s).owner t = some w := reserves_of_yields ht
  rintro (hge | ⟨t', ht'⟩)
  · exact Nat.not_lt.mpr hge (hsound.sound.reserved_lt w (hsound.sound.mem t w howner).1)
  · obtain rfl := hsound.sound.unique t' t w (reserves_of_starts ht') howner
    obtain ⟨⟨p, d⟩, htask, hp⟩ := role_eq_some ht
    rw [role_eq starts htask] at ht'
    cases p <;> cases hp
    cases ht'

theorem Placed.discards_step (h : Placed s) (htasks : TaskStep cfg s a s') (t : TaskId) :
    s'.role strays t = none := by
  by_contra hsome
  obtain ⟨x, ht⟩ := Option.ne_none_iff_exists'.mp hsome
  rcases htasks.role ht with ⟨_, -, -, hold⟩ | ⟨p, p', d, hp, -, hadvance, hp'⟩ | ⟨p, -, hbegun, hp⟩
  · rw [h.discards t] at hold
    cases hold
  · have hnone := h.discards t
    rw [role_eq strays hp] at hnone
    cases hadvance with
    | moved _ hmove =>
      cases hmove with
      | closeNotSent | closeSendTimedOut | closeAnswered | closeTimedOut | closeLost =>
        rw [(afterClose_yields _ _).2] at hp'
        cases hp'
      | _ => cases hp'
    | @leaseGone _ _ _ k | @forgot _ k | @replenished k =>
      rw [strays_continuation k] at hp'
      cases hp'
    | @tookDead _ lease replenish k =>
      cases replenish with
      | true =>
        cases k with
        | unreserve => cases lease <;> cases hnone
        | _ => cases hp'
      | false => cases k <;> cases hp'
    | @forgotLost _ k =>
      cases k with
      | unreserve => cases hnone
      | _ => cases hp'
    | _ => cases hp'
  · cases hbegun with
    | started operation =>
      cases operation with
      | markDeadForLease h guarded => cases guarded <;> cases hp
      | _ => cases hp
    | minimum | reaper | killed => cases hp
    | cleanup _ _ hdrop =>
      rcases dropTask_eq_some hdrop with ⟨w, -, rfl | rfl⟩ | ⟨h, -, rfl⟩ <;> cases hp

theorem Placed.yielded_step (h : Placed s) (hsound : Accounted cfg s) (hsound' : Accounted cfg s')
    (hkept : Kept s) (href : Referred s) (htasks : TaskStep cfg s a s') (hslot : SlotStep s a s' w)
    (ht : s'.role yields t = some w) : s'.stateOf w = .dead := by
  -- A worker that is given up before it is started has no slot, and none is built for it.
  have unstarted {t₀ : TaskId} (hstarts : s.role starts t₀ = some w) : s'.stateOf w = .dead := by
    refine (hkept.pristine_slot (.inr ⟨t₀, hstarts⟩) hslot ?_).state
    intro t₁ purpose d _ ht₁
    have howner : (ledger s').owner t₁ = some w := role_eq reserves ht₁
    obtain rfl := hsound'.sound.unique t₁ t w howner (reserves_of_yields ht)
    rw [role_eq yields ht₁] at ht
    cases ht
  have old {t₀ : TaskId} (hold : s.role yields t₀ = some w) : s'.stateOf w = .dead :=
    dead_kept hslot (h.yielded t₀ w hold) (not_unbuilt_of_yields hsound hold)
  rcases htasks.role ht with ⟨_, -, -, hold⟩ | ⟨p, p', d, hp, -, hadvance, hp'⟩ | ⟨p, -, hbegun, hp⟩
  · exact old hold
  · have hnone := h.discards t
    rw [role_eq strays hp] at hnone
    cases hadvance with
    | moved _ hmove =>
      cases hmove with
      | closeNotSent | closeSendTimedOut | closeAnswered | closeTimedOut | closeLost =>
        rw [(afterClose_yields _ _).1] at hp'
        cases hp'
      | spawnFailed => exact unstarted ((role_eq starts hp).trans hp')
      | _ => cases hp'
    | leaseGone | replenished =>
      obtain ⟨outcome, rfl⟩ := yields_continuation hp'
      cases hnone
    | forgot =>
      obtain ⟨outcome, rfl⟩ := yields_continuation hp'
      obtain rfl := href.tasks t _ d hp
      cases hp'
      obtain ⟨hdead, hbuilt⟩ := href.buried t _ d hp _ (List.mem_singleton_self _)
      exact dead_kept hslot hdead hbuilt
    | _ => cases hp'
  · cases hbegun with
    | started operation => cases operation <;> cases hp
    | minimum | reaper | killed => cases hp
    | cleanup _ ht₀ hdrop =>
      rcases yields_dropTask hdrop hp with hstarts | hold
      · exact unstarted ((role_eq starts ht₀).trans hstarts)
      · exact old ((role_eq yields ht₀).trans hold)

theorem Placed.placed_step (h : Placed s) (hsound : Accounted cfg s) (href : Referred s)
    (hstep : Transition cfg s a s') (hlive : s'.stateOf w ≠ .dead) :
    w ∈ s'.children ∨ w ∈ s'.spawning := by
  have live (hlive₀ : s.stateOf w ≠ .dead) : w ∈ s'.children ∨ w ∈ s'.spawning := by
    rcases h.placed w hlive₀ with hmem | hmem
    · rcases (children_transition href hstep).1 w hmem with hmem' | hdead
      · exact .inl hmem'
      · exact (hlive₀ hdead).elim
    · rcases spawning_transition hstep hmem with hmem' | hmem' | ⟨t, ht⟩
      · exact .inr hmem'
      · exact .inl hmem'
      · exact (hlive₀ (h.yielded t w ht)).elim
  cases (slotStep_transition hsound.fresh hstep w).stateStep with
  | same hstate =>
    rw [hstate] at hlive
    exact live hlive
  | leased _ _ hidle => exact live (by rw [hidle]; rintro ⟨⟩)
  | @built t _ _ ht =>
    have howner : (ledger s).owner t = some w := role_eq reserves ht
    rcases spawning_transition hstep (hsound.sound.mem t w howner).1 with hmem | hmem | ⟨t', ht'⟩
    · exact .inr hmem
    · exact .inl hmem
    · obtain rfl := hsound.sound.unique t' t w (reserves_of_yields ht') howner
      rw [role_eq yields ht] at ht'
      cases ht'
  | killed _ _ _ hstate => exact (hlive hstate).elim
  | closing _ _ hlease =>
    apply live
    intro hdead
    rw [hdead] at hlease
    cases hlease
  | reset _ _ hdead => exact live hdead

theorem Placed.step (h : Placed s) (hsound : Accounted cfg s) (hkept : Kept s) (href : Referred s)
    (hstep : step cfg s a = some s') : Placed s' := by
  have htransition := transition_of_step hstep
  have htasks := taskStep_transition hsound.fresh htransition
  constructor
  · exact h.discards_step htasks
  · intro t w ht
    exact h.yielded_step hsound (hsound.step hstep) hkept href htasks
      (slotStep_transition hsound.fresh htransition w) ht
  · intro w hlive
    exact h.placed_step hsound href htransition hlive

theorem placed_warmed : Placed (warmed cfg) where
  discards t := rfl
  yielded t w ht := by cases ht
  placed w hlive := by
    left
    by_contra hmem
    apply hlive
    exact if_neg fun hlt => hmem (List.mem_range.mpr hlt)

end IdaMcp.Pool
