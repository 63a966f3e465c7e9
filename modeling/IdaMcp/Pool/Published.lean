import IdaMcp.Pool.Slots

namespace IdaMcp.Pool

open Foundation State Position

variable {cfg : WorkerPoolConfig} {s s' : State} {a : Action} {t : TaskId} {d : Bool}
  {p p' : Position} {w : WorkerId} {P Q : WorkerId → Prop}

def Continuation.Refers (P : WorkerId → Prop) : Continuation → Prop
  | .guarded h _ | .settleCall h _ | .settleRelease h _ => P h.workerId
  | .stop _ | .unreserve _ _ => True

namespace Position

/-- The workers that a task refers to, other than one it has reserved itself, satisfy `P`. -/
def Refers (P : WorkerId → Prop) : Position → Prop
  | releaseLock h | releaseSend h | releaseAwait h _ | releaseReset h _ | releaseIdleCheck h _
  | callAdmission h _ _ | callAwait h _ _ _ | callSettle h _ _ => P h.workerId
  | takeDead w _ _ (.unreserve w' _) | forgetSlot w _ (.unreserve w' _) => w = w'
  | takeDead w _ _ k | forgetSlot w _ k => P w ∧ k.Refers P
  | scheduleReplenishment k => k.Refers P
  | reapStart w | reapSleep w _ | reapScan w _ _ _ => P w
  | _ => True

def buries : Position → List WorkerId
  | forgetSlot w _ _ => [w]
  | leaseScan _ _ _ _ deadIds => deadIds
  | _ => []

def finishes : Position → Option WorkerId
  | finishSpawn _ w => some w
  | _ => none

theorem refers_continuation {k : Continuation} (hk : k.Refers P) : k.position.Refers P := by
  cases k with
  | settleRelease h => exact hk
  | _ => trivial

theorem Refers.mono (h : p.Refers P) (hP : ∀ w, P w → Q w) : p.Refers Q := by
  have continuation (k : Continuation) (hk : k.Refers P) : k.Refers Q := by
    cases k with
    | guarded h | settleCall h | settleRelease h => exact hP _ hk
    | _ => trivial
  cases p with
  | takeDead _ _ _ k | forgetSlot _ _ k =>
    cases k with
    | unreserve => exact h
    | _ => exact ⟨hP _ h.1, continuation _ h.2⟩
  | scheduleReplenishment k => exact continuation k h
  | releaseLock | releaseSend | releaseAwait | releaseReset | releaseIdleCheck | callAdmission
  | callAwait | callSettle | reapStart | reapSleep | reapScan => exact hP _ h
  | _ => trivial

theorem Refers.continuation {lease : Option LeaseId} {replenish : Bool} {k : Continuation}
    (h : (takeDead w lease replenish k).Refers P) : k.Refers P := by
  cases k with
  | unreserve => trivial
  | _ => exact h.2

theorem Refers.afterClose {h : PooledWorkerHandle} (hp : P h.workerId) (error : Option ToolError) :
    (afterClosePosition h error).Refers P := by
  rcases afterClosePosition_cases h error with ⟨e, -, -, hp'⟩ | ⟨-, hp'⟩ <;> rw [hp']
  · exact ⟨hp, hp⟩
  · exact hp

theorem Refers.retireGuard {h : PooledWorkerHandle} (hp : p.Refers P)
    (hguard : p.retireGuard = some h) : P h.workerId := by
  cases p with
  | takeDead _ _ _ k | forgetSlot _ _ k =>
    cases k <;> cases hguard
    all_goals exact hp.2
  | scheduleReplenishment k =>
    cases k <;> cases hguard
    all_goals exact hp
  | releaseLock | releaseSend | releaseAwait | releaseReset | callAwait | callSettle =>
    cases hguard
    exact hp
  | _ => cases hguard

theorem Refers.kills (hp : p.Refers P) (hw : p.kills = some w) : P w ∨ p.reserves = some w := by
  cases p with
  | takeDead w' _ _ k =>
    cases hw
    cases k with
    | unreserve =>
      obtain rfl := hp
      exact .inr rfl
    | _ => exact .inl hp.1
  | reapScan =>
    cases hw
    exact .inl hp
  | _ => cases hw

end Position

def State.Published (s : State) (w : WorkerId) : Prop :=
  w < s.nextId ∧ ∀ t, s.role reserves t ≠ some w

theorem reserves_of_starts (ht : s.role starts t = some w) : s.role reserves t = some w := by
  obtain ⟨⟨p, d⟩, htask, hp⟩ := role_eq_some ht
  rw [role_eq reserves htask]
  cases p <;> cases hp
  rfl

theorem not_unbuilt_of_published (h : s.Published w) : ¬ s.Unbuilt w := by
  rintro (hw | ⟨t, ht⟩)
  · exact Nat.not_lt.mpr hw h.1
  · exact h.2 t (reserves_of_starts ht)

theorem published_of_mem (hsound : Accounted cfg s) (hw : w ∈ s.children) : s.Published w := by
  refine ⟨hsound.sound.installed_lt w hw, ?_⟩
  intro t ht
  exact (hsound.sound.mem t w ht).2 hw

theorem published_of_scanning {x : List WorkerId × ℕ} (hsound : Accounted cfg s)
    (ht : s.role scanning t = some x) (hw : w ∈ x.1) : s.Published w := by
  obtain ⟨visited, hinstalled, -⟩ := hsound.sound.scan_visited t x ht
  have hmem : w ∈ s.children := by
    change s.children = _ at hinstalled
    rw [hinstalled]
    exact List.mem_append_right _ hw
  exact published_of_mem hsound hmem

theorem reserves_advance {slot : WorkerId → ChildSlot} (hadvance : Advance cfg s a slot t p p')
    (hp' : p'.reserves = some w) : p.reserves = some w ∨ s.nextId ≤ w := by
  cases hadvance with
  | moved _ hmove => exact .inl ((move_roles hmove).1.symm.trans hp')
  | @tookDead w' lease replenish k =>
    have hk := reserves_continuation k w' lease replenish
    exact .inl (hk.1.symm.trans (hk.2.1.trans hp'))
  | @leaseGone w' l replenish k =>
    exact .inl ((reserves_continuation k w' (some l) replenish).1.symm.trans hp')
  | @forgot w' k => exact .inl ((reserves_continuation k w' none false).2.1.symm.trans hp')
  | @forgotLost w' k =>
    have hk := reserves_continuation k w' none true
    exact .inl (hk.2.1.symm.trans (hk.2.2.trans hp'))
  | @replenished k => exact .inl ((reserves_continuation k 0 none false).2.2.symm.trans hp')
  | leaseReserved =>
    cases hp'
    exact .inr (Nat.le_refl _)
  | spawned => exact .inl hp'
  | _ => cases hp'

theorem reserves_begun (hbegun : Begun s a p) (hp : p.reserves = some w) :
    (∃ t, s.role reserves t = some w) ∨ s.nextId ≤ w := by
  cases hbegun with
  | started operation =>
    cases operation with
    | markDeadForLease h guarded => cases guarded <;> cases hp
    | _ => cases hp
  | minimum hw =>
    cases hp
    exact .inr hw
  | reaper | killed => cases hp
  | @cleanup t p p' _ ht hdrop =>
    have hres := (dropTask_roles (p := p)).1
    rw [hdrop, Option.bind_some, hp] at hres
    exact .inl ⟨t, (role_eq reserves ht).trans hres.symm⟩

theorem reserves_of_taskStep (hstep : TaskStep cfg s a s') (ht : s'.role reserves t = some w) :
    (∃ t', s.role reserves t' = some w) ∨ s.nextId ≤ w := by
  rcases hstep.role ht with ⟨-, -, -, hold⟩ | ⟨p, p', d, hp, -, hadvance, hp'⟩ | ⟨p, -, hbegun, hp⟩
  · exact .inl ⟨t, hold⟩
  · rcases reserves_advance hadvance hp' with hres | hge
    · exact .inl ⟨t, (role_eq reserves hp).trans hres⟩
    · exact .inr hge
  · exact reserves_begun hbegun hp

theorem State.Published.step (h : s.Published w) (htasks : TaskStep cfg s a s') (hid : s.nextId ≤ s'.nextId) :
    s'.Published w := by
  refine ⟨Nat.lt_of_lt_of_le h.1 hid, ?_⟩
  intro t ht
  rcases reserves_of_taskStep htasks ht with ⟨t', ht'⟩ | hge
  · exact h.2 t' ht'
  · exact Nat.not_lt.mpr hge h.1

theorem published_of_installed (hsound : Accounted cfg s) (htasks : TaskStep cfg s a s')
    (hid : s.nextId ≤ s'.nextId) (hrun : a = .run t .proceed) (howner : s.role reserves t = some w)
    (hdone : s'.role reserves t = none) : s'.Published w := by
  have hlt : w < s.nextId := hsound.sound.reserved_lt w (hsound.sound.mem t w howner).1
  refine ⟨Nat.lt_of_lt_of_le hlt hid, ?_⟩
  intro t' ht'
  have not_owner {t₁ : TaskId} (ht₁ : s.role reserves t₁ = some w) : t₁ = t :=
    hsound.sound.unique t₁ t w ht₁ howner
  rcases htasks.role ht' with ⟨-, -, -, hold⟩ | ⟨p, p', d, hp, -, hadvance, hp'⟩ | ⟨p, -, hbegun, hp⟩
  · obtain rfl := not_owner hold
    rw [hdone] at ht'
    cases ht'
  · rcases reserves_advance hadvance hp' with hres | hge
    · obtain rfl := not_owner ((role_eq reserves hp).trans hres)
      rw [hdone] at ht'
      cases ht'
    · exact Nat.not_lt.mpr hge hlt
  · cases hbegun with
    | started operation =>
      cases operation with
      | markDeadForLease h guarded => cases guarded <;> cases hp
      | _ => cases hp
    | minimum hw =>
      cases hp
      exact Nat.not_lt.mpr hw hlt
    | reaper | killed => cases hp
    | cleanup ha =>
      rw [hrun] at ha
      cases ha

theorem issued_cases (hstep : Transition cfg s a s') :
    s'.issued = s.issued ∨ ∃ t w session lease, a = .run t .proceed ∧
      s'.issued = s.issued ++ [⟨w, session, lease, false⟩] ∧
      ((∃ rest active deadIds d,
          s.task t = some ⟨.leaseScan session lease (w :: rest) active deadIds, d⟩) ∨
        ∃ d, s.task t = some ⟨.finishSpawn (.lease session lease) w, d⟩ ∧
          s'.role reserves t = none) := by
  cases hstep with
  | @leasedIdle t session lease w rest active deadIds d ht hidle =>
    exact .inr ⟨t, w, session, lease, rfl, rfl, .inl ⟨rest, active, deadIds, d, ht⟩⟩
  | @installedLease t session lease w d ht hlock hshut =>
    refine .inr ⟨t, w, session, lease, rfl, rfl, .inr ⟨d, ht, ?_⟩⟩
    rw [role_goto (s := ((s.setChildren (s.children ++ [w])).unreserve w).issue _) reserves ht,
      Function.update_self]
    rfl
  | @leaseGone t _ _ _ k =>
    obtain ⟨slot, task, h⟩ := resume_frame s t k
    exact .inl (by rw [h])
  | @forgot t w k =>
    obtain ⟨slot, task, h⟩ := resume_frame (s.forget [w]) t k
    exact .inl (by rw [h]; rfl)
  | @replenished t k =>
    obtain ⟨spawning, nextId, task, nextTask, -, -, h⟩ := replenish_frame cfg s
    obtain ⟨slot, task', h'⟩ := resume_frame (replenish cfg s) t k
    exact .inl (by rw [h', h])
  | slotsKilled =>
    obtain ⟨task, nextTask, -, h⟩ := killSlots_frame s.children s
    exact .inl (by rw [h]; rfl)
  | @dropped t p =>
    obtain ⟨poolLock, slot, task, nextTask, -, h⟩ := dropTask_frame s t p
    exact .inl (by rw [h])
  | @answered w request answer effect =>
    obtain ⟨task, h⟩ := deliver_frame (s.setSlot w { s.slot w with
      requests := (s.slot w).requests.erase request
      database := databaseAfter (s.slot w).database request effect }) request.task answer
    exact .inl (by rw [h]; rfl)
  | _ => exact .inl rfl

structure Referred (s : State) : Prop where
  tasks : ∀ t p d, s.task t = some ⟨p, d⟩ → p.Refers s.Published
  issued : ∀ h ∈ s.issued, s.Published h.workerId
  finishing : ∀ t w, s.role finishes t = some w → s.stateOf w ≠ .dead
  buried : ∀ t p d, s.task t = some ⟨p, d⟩ → ∀ w ∈ p.buries, s.stateOf w = .dead ∧ ¬ s.Unbuilt w

theorem refers_advance {slot : WorkerId → ChildSlot} (hadvance : Advance cfg s a slot t p p')
    (hp : p.Refers P) : p'.Refers P := by
  cases hadvance with
  | moved _ hmove =>
    cases hmove with
    | closeNotSent | closeSendTimedOut | closeAnswered | closeTimedOut | closeLost =>
      exact Refers.afterClose hp _
    | callRetired | settleRetired => exact ⟨hp, hp⟩
    | discard => rfl
    | callToSettle | releaseStale | reapSlept | reapCount => exact hp
    | _ => trivial
  | @leaseGone w l replenish k => exact refers_continuation hp.continuation
  | @tookDead w lease replenish k => cases k <;> exact hp
  | @forgot w k =>
    have hk : (Position.takeDead w none false k).Refers P := by cases k <;> exact hp
    exact refers_continuation hk.continuation
  | @forgotLost w k =>
    have hk : (Position.takeDead w none true k).Refers P := by cases k <;> exact hp
    exact hk.continuation
  | replenished => exact refers_continuation hp
  | closing | closeSent | closeReply | reset | callSent | callReply | reapScanBegun => exact hp
  | callSendLost => exact ⟨hp, hp⟩
  | reapTook => exact ⟨hp, trivial⟩
  | _ => trivial

theorem Referred.refers_begun (h : Referred s) (hsound : Accounted cfg s) (hbegun : Begun s a p) :
    p.Refers s.Published := by
  cases hbegun with
  | started operation _ hknown =>
    have hissued {h₀ : PooledWorkerHandle}
        (h₀mem : operation.handle = some h₀) : s.Published h₀.workerId := by
      simp only [Operation.known, h₀mem, Option.all_some, decide_eq_true_eq] at hknown
      exact h.issued ⟨h₀.workerId, h₀.sessionId, h₀.leaseId, false⟩ hknown
    cases operation with
    | markDeadForLease h₀ guarded =>
      cases guarded with
      | false => exact ⟨hissued rfl, trivial⟩
      | true => exact ⟨hissued rfl, hissued rfl⟩
    | markDead h₀ => exact ⟨hissued rfl, trivial⟩
    | release | call => exact hissued rfl
    | lease | shutdownAll => trivial
  | minimum hw => trivial
  | @reaper t h₀ outcome d ht =>
    have hold := h.tasks t _ d ht
    exact hold
  | killed ht hw => exact ⟨published_of_mem hsound hw, trivial⟩
  | @cleanup t p p' ha ht hdrop =>
    rcases dropTask_eq_some hdrop with ⟨w, -, rfl | rfl⟩ | ⟨h₀, hguard, rfl⟩
    · trivial
    · rfl
    · exact ⟨(h.tasks t p false ht).retireGuard hguard, trivial⟩

theorem Referred.built_of_kills (h : Referred s) (hsound : Accounted cfg s)
    (ht : s.task t = some ⟨p, d⟩) (hw : p.kills = some w) : ¬ s.Unbuilt w := by
  rcases (h.tasks t p d ht).kills hw with hpublished | hreserved
  · exact not_unbuilt_of_published hpublished
  · have howner : (ledger s).owner t = some w := (role_eq reserves ht).trans hreserved
    rintro (hge | ⟨t', ht'⟩)
    · exact Nat.not_lt.mpr hge (hsound.sound.reserved_lt w (hsound.sound.mem t w howner).1)
    · obtain rfl := hsound.sound.unique t' t w (reserves_of_starts ht') howner
      rw [role_eq starts ht] at ht'
      cases p with
      | spawnSlot => cases hw
      | _ => cases ht'

theorem afterClose_buries (h : PooledWorkerHandle) (error : Option ToolError) :
    (afterClosePosition h error).finishes = none ∧ (afterClosePosition h error).buries = [] := by
  rcases afterClosePosition_cases h error with ⟨e, -, -, hp⟩ | ⟨-, hp⟩ <;> rw [hp] <;>
    exact ⟨rfl, rfl⟩

theorem Referred.finishing_step (h : Referred s) (hsound : Accounted cfg s)
    (htasks : TaskStep cfg s a s') (hslot : SlotStep s a s' w) (ht : s'.role finishes t = some w) :
    s'.stateOf w ≠ .dead := by
  have old (hold : s.role finishes t = some w) : s'.stateOf w ≠ .dead := by
    have halive := h.finishing t w hold
    have howner : (ledger s).owner t = some w := by
      obtain ⟨⟨p, d⟩, htask, hp⟩ := role_eq_some hold
      refine (role_eq reserves htask).trans ?_
      cases p <;> cases hp
      rfl
    cases hslot.stateStep with
    | same hstate => rwa [hstate]
    | leased _ _ _ _ hstate | closing _ _ _ _ hstate | reset _ _ _ hstate =>
      rw [hstate]
      rintro ⟨⟩
    | @built t purpose d ht ht' hstate =>
      rw [hstate]
      cases purpose <;> rintro ⟨⟩
    | @killed t' choice p d ha ht' hp hstate =>
      rcases (h.tasks t' p d ht').kills hp with hpublished | hreserved
      · exact (hpublished.2 t howner).elim
      · obtain rfl := hsound.sound.unique t' t w ((role_eq reserves ht').trans hreserved) howner
        rw [role_eq finishes ht'] at hold
        cases p with
        | finishSpawn => cases hp
        | _ => cases hold
  rcases htasks.role ht with ⟨_, -, -, hold⟩ | ⟨p, p', d, hp, -, hadvance, hp'⟩ | ⟨p, -, hbegun, hp⟩
  · exact old hold
  · cases hadvance with
    | moved _ hmove =>
      cases hmove with
      | closeNotSent | closeSendTimedOut | closeAnswered | closeTimedOut | closeLost =>
        rw [(afterClose_buries _ _).1] at hp'
        cases hp'
      | _ => cases hp'
    | @leaseGone _ _ _ k | @forgot _ k | @replenished k => cases k <;> cases hp'
    | @spawned purpose w hslot =>
      cases hp'
      rw [stateOf, hslot]
      cases purpose <;> rintro ⟨⟩
    | _ => cases hp'
  · have hbegins := hbegun.begins
    cases p with
    | finishSpawn => cases hbegins
    | _ => cases hp

theorem dead_kept (hslot : SlotStep s a s' w) (hdead : s.stateOf w = .dead) (hbuilt : ¬ s.Unbuilt w) :
    s'.stateOf w = .dead := by
  cases hslot.stateStep with
  | same hstate => rw [hstate, hdead]
  | killed _ _ _ hstate => exact hstate
  | leased _ ht hidle _ _ =>
    rw [hdead] at hidle
    cases hidle
  | built ht _ _ => exact (hbuilt (.inr ⟨_, role_eq starts ht⟩)).elim
  | closing _ _ hlease _ _ =>
    rw [hdead] at hlease
    cases hlease
  | reset _ _ hnotdead _ => exact (hnotdead hdead).elim

theorem Referred.buries_advance (h : Referred s) (hsound : Accounted cfg s)
    (hadvance : Advance cfg s a s'.slot t p p') (ht : s.task t = some ⟨p, d⟩) (hw : w ∈ p'.buries) :
    w ∈ p.buries ∨ ¬ s.Unbuilt w ∧ (s.stateOf w = .dead ∨ s'.stateOf w = .dead) := by
  cases hadvance with
  | moved _ hmove =>
    cases hmove with
    | closeNotSent | closeSendTimedOut | closeAnswered | closeTimedOut | closeLost =>
      rw [(afterClose_buries _ _).2] at hw
      cases hw
    | skipDead hdead =>
      rcases List.mem_append.mp hw with hw | hw
      · exact .inl hw
      · obtain rfl := List.mem_singleton.mp hw
        have hpublished := published_of_scanning hsound (role_eq scanning ht) (List.mem_cons_self ..)
        exact .inr ⟨not_unbuilt_of_published hpublished, .inl hdead⟩
    | countActive => exact .inl hw
    | _ => cases hw
  | @leaseGone _ _ _ k | @forgot _ k | @replenished k => cases k <;> cases hw
  | tookDead hslot | reapTook _ hslot =>
    obtain rfl := List.mem_singleton.mp hw
    exact .inr ⟨h.built_of_kills hsound ht rfl, .inr hslot⟩
  | _ => cases hw

theorem buries_begun (hbegun : Begun s a p) : p.buries = [] := by
  cases hbegun with
  | started operation => cases operation <;> rfl
  | minimum | reaper | killed => rfl
  | cleanup _ ht hdrop =>
    rcases dropTask_eq_some hdrop with ⟨w, -, rfl | rfl⟩ | ⟨h, -, rfl⟩ <;> rfl

theorem Referred.step (h : Referred s) (hsound : Accounted cfg s) (hstep : Transition cfg s a s') :
    Referred s' := by
  have htasks := taskStep_transition hsound.fresh hstep
  have hslots := slotStep_transition hsound.fresh hstep
  have hid := (counters_le hstep).1
  have hgrows : ∀ w, s.Published w → s'.Published w := fun w hw => hw.step htasks hid
  have hbuilt : ∀ w, ¬ s.Unbuilt w → ¬ s'.Unbuilt w :=
    fun w hw hw' => hw (unbuilt_of_taskStep htasks hid hw')
  constructor
  · intro t p' d ht'
    rcases htasks t p' d ht' with ht | ⟨p, ht, hadvance⟩ | ⟨-, hbegun⟩
    · exact (h.tasks t p' d ht).mono hgrows
    · exact (refers_advance hadvance (h.tasks t p d ht)).mono hgrows
    · exact (h.refers_begun hsound hbegun).mono hgrows
  · rcases issued_cases hstep with hsame | ⟨t, w, session, lease, ha, hnew, hcase⟩
    · rw [hsame]
      exact fun h₀ h₀mem => hgrows _ (h.issued h₀ h₀mem)
    · rw [hnew]
      intro h₀ h₀mem
      rcases List.mem_append.mp h₀mem with hold | hh₀
      · exact hgrows _ (h.issued h₀ hold)
      · obtain rfl := List.mem_singleton.mp hh₀
        rcases hcase with ⟨rest, active, deadIds, d, ht⟩ | ⟨d, ht, hdone⟩
        · exact hgrows w (published_of_scanning hsound (role_eq scanning ht) (List.mem_cons_self ..))
        · exact published_of_installed hsound htasks hid ha (role_eq reserves ht) hdone
  · intro t w ht
    exact h.finishing_step hsound htasks (hslots w) ht
  · intro t p' d ht' w hw
    have old (hw : ¬ s.Unbuilt w ∧ s.stateOf w = .dead) : s'.stateOf w = .dead ∧ ¬ s'.Unbuilt w :=
      ⟨dead_kept (hslots w) hw.2 hw.1, hbuilt w hw.1⟩
    rcases htasks t p' d ht' with ht | ⟨p, ht, hadvance⟩ | ⟨-, hbegun⟩
    · exact old (h.buried t p' d ht w hw).symm
    · rcases h.buries_advance hsound hadvance ht hw with hold | ⟨hnew, hdead | hdead⟩
      · exact old (h.buried t p d ht w hold).symm
      · exact old ⟨hnew, hdead⟩
      · exact ⟨hdead, hbuilt w hnew⟩
    · rw [buries_begun hbegun] at hw
      cases hw

theorem referred_warmed : Referred (warmed cfg) where
  tasks t p d ht := by cases ht
  issued h hh := by cases hh
  finishing t w ht := by cases ht
  buried t p d ht := by cases ht

end IdaMcp.Pool
