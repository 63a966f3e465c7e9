import IdaMcp.Pool.Clients
import IdaMcp.Pool.Requests

namespace IdaMcp.Pool

open Foundation Remote State Position

variable {cfg : WorkerPoolConfig} {s s' : State} {a : Action} {t : TaskId} {d : Bool}
  {p p' : Position} {w : WorkerId} {l : LeaseId} {session : SessionId} {h : PooledWorkerHandle}
  {request : Request} {answered : List TaskId}

namespace Position

/-- The retirement of a worker other than one whose startup has failed. -/
def loses : Position → Bool
  | takeDead _ _ _ (.unreserve _ _) => false
  | takeDead _ _ _ _ => true
  | _ => false

def OnlyOpens : Position → Prop
  | callAdmission _ tool tracksOpen | callAwait _ tool tracksOpen _ =>
    tool = "open_idb" ∧ tracksOpen = true
  | _ => True

def Awaits (request : Request) (w : WorkerId) : Position → Prop
  | callAwait h tool _ none => h.workerId = w ∧ request.tool = tool
  | releaseAwait h none => h.workerId = w
  | p => p.loses = true

theorem Acquires.not_awaits (h : p.Acquires session) (hcalm : p.loses = false) : ¬p.Awaits request w := by
  intro hawaits
  cases p with
  | callAwait | releaseAwait => cases h
  | _ => exact Bool.false_ne_true (hcalm.symm.trans hawaits)

end Position

def Answer.succeeds : Answer → Bool
  | .result reply => reply.isError ≠ some true
  | .rejected _ => false

/-- A step that retires no worker, of a pool whose calls are opens. -/
structure Quiet (s : State) (a : Action) : Prop where
  calm : ∀ t task, a.actor = some t → s.task t = some task → task.position.loses = false
  drops : ∀ t task, a = .drop t → s.task t = some task → ∃ session, task.position.Acquires session
  opens : ∀ h tool tracksOpen, a = .start (.call h tool tracksOpen) →
    tool = "open_idb" ∧ tracksOpen = true
  awaited : ∀ w request answer effect, a = .childAnswer w request answer effect →
    ∀ task, s.task request.task = some task → task.position.loses = false
  keeps : ∀ w request answer effect, a = .childAnswer w request answer effect →
    request.tool = "open_idb" → (s.slot w).database ≠ none → effect = .keep
  answers : ∀ w request answer effect, a = .childAnswer w request answer effect →
    request.tool = "open_idb" → answer.succeeds = true → (s.slot w).database = none → effect = .opens

def State.Releasing (s : State) (l : LeaseId) : Prop :=
  ∃ t h d, s.task t = some ⟨.releaseLock h, d⟩ ∧ h.leaseId = l

structure Steady (s : State) : Prop where
  starting : ∀ t session l w d, s.task t = some ⟨.finishSpawn (.lease session l) w, d⟩ →
    s.stateOf w = .leased session l
  releasing : ∀ l, s.Releasing l → ∃ h, s.Issued h ∧ h.leaseId = l
  opens : ∀ t p d, s.task t = some ⟨p, d⟩ → p.OnlyOpens
  asked : ∃ answered, Asked s answered
  awaited : ∀ w request, request ∈ (s.slot w).requests →
    ∃ p d, s.task request.task = some ⟨p, d⟩ ∧ p.Awaits request w

theorem afterClose_onlyOpens (h : PooledWorkerHandle) (error : Option ToolError) :
    (afterClosePosition h error).OnlyOpens := by
  rcases afterClosePosition_cases h error with ⟨e, -, -, hp⟩ | ⟨-, hp⟩ <;> rw [hp] <;> trivial

theorem onlyOpens_advance {slot : WorkerId → ChildSlot} (hadvance : Advance cfg s a slot t p p')
    (hp : p.OnlyOpens) : p'.OnlyOpens := by
  cases hadvance with
  | moved _ hmove =>
    cases hmove with
    | closeNotSent | closeSendTimedOut | closeAnswered | closeTimedOut | closeLost =>
      exact afterClose_onlyOpens _ _
    | _ => trivial
  | @leaseGone _ _ _ k | @forgot _ k | @replenished k => cases k <;> trivial
  | callSent | callReply => exact hp
  | _ => trivial

theorem onlyOpens_begun (hquiet : Quiet s a) (hbegun : Begun s a p) : p.OnlyOpens := by
  cases hbegun with
  | started operation ha =>
    cases operation with
    | call h tool tracksOpen => exact hquiet.opens h tool tracksOpen ha
    | markDeadForLease h guarded => cases guarded <;> trivial
    | _ => trivial
  | minimum | reaper | killed => trivial
  | cleanup _ _ hdrop =>
    rcases dropTask_eq_some hdrop with ⟨w, -, rfl | rfl⟩ | ⟨h, -, rfl⟩ <;> trivial

theorem finishes_taskStep (hsteps : TaskStep cfg s a s') {purpose : Purpose}
    (ht' : s'.task t = some ⟨.finishSpawn purpose w, d⟩) :
    s.task t = some ⟨.finishSpawn purpose w, d⟩ ∨ s'.stateOf w = purpose.initialState := by
  rcases hsteps t _ d ht' with ht | ⟨p, -, hadvance⟩ | ⟨-, hbegun⟩
  · exact .inl ht
  · generalize hp' : Position.finishSpawn purpose w = p' at hadvance
    right
    cases hadvance with
    | moved _ hmove =>
      cases hmove with
      | closeNotSent | closeSendTimedOut | closeAnswered | closeTimedOut | closeLost =>
        rcases afterClosePosition_cases _ _ with ⟨e, -, -, hafter⟩ | ⟨-, hafter⟩ <;>
          rw [hafter] at hp' <;> cases hp'
      | _ => cases hp'
    | @leaseGone _ _ _ k | @forgot _ k | @replenished k => cases k <;> cases hp'
    | spawned hslot =>
      cases hp'
      rw [stateOf, hslot]
      cases purpose <;> rfl
    | _ => cases hp'
  · generalize hp : Position.finishSpawn purpose w = p at hbegun
    cases hbegun with
    | started operation =>
      cases operation with
      | markDeadForLease h guarded => cases guarded <;> cases hp
      | _ => cases hp
    | minimum | reaper | killed => cases hp
    | cleanup _ _ hdrop =>
      rcases dropTask_eq_some hdrop with ⟨w, -, rfl | rfl⟩ | ⟨h, -, rfl⟩ <;> cases hp

theorem built_kept (hreg : Regular cfg s) (hleased : s.stateOf w = .leased session l)
    (ht : s.task t = some ⟨.finishSpawn (.lease session l) w, d⟩) (hstep : step cfg s a = some s') :
    s'.stateOf w = .leased session l := by
  have hreserves : s.role reserves t = some w := role_eq reserves ht
  have hunpublished : ¬s.Published w := fun hpublished => hpublished.2 t hreserves
  cases (hreg.slots hstep w).stateStep with
  | same hstate => rwa [hstate]
  | leased _ _ hidle =>
    rw [hleased] at hidle
    cases hidle
  | @built t' purpose d' hspawn _ hstate =>
    obtain rfl := hreg.accounted.sound.unique t' t w (role_eq reserves hspawn) hreserves
    rw [hspawn] at ht
    cases ht
  | @killed t' choice p' d' ha hkill hp hstate =>
    rcases (hreg.referred.tasks t' p' d' hkill).kills hp with hpublished | hown
    · exact (hunpublished hpublished).elim
    · obtain rfl := hreg.accounted.sound.unique t' t w ((role_eq reserves hkill).trans hown) hreserves
      rw [hkill] at ht
      cases ht
      cases hp
  | @closing t' h' d' hrelease hw =>
    subst hw
    exact (hunpublished (hreg.referred.tasks t' _ d' hrelease)).elim
  | @reset t' h' error d' hrelease hw =>
    subst hw
    exact (hunpublished (hreg.referred.tasks t' _ d' hrelease)).elim

theorem starting_step (hreg : Regular cfg s)
    (hstarting : ∀ t session l w d, s.task t = some ⟨.finishSpawn (.lease session l) w, d⟩ →
      s.stateOf w = .leased session l)
    (hstep : step cfg s a = some s') (ht' : s'.task t = some ⟨.finishSpawn (.lease session l) w, d⟩) :
    s'.stateOf w = .leased session l := by
  have htasks := taskStep_transition hreg.fresh (transition_of_step hstep)
  rcases finishes_taskStep htasks ht' with ht | hstate
  · exact built_kept hreg (hstarting t session l w d ht) ht hstep
  · exact hstate

theorem releasing_taskStep (hsteps : TaskStep cfg s a s')
    (ht' : s'.task t = some ⟨.releaseLock h, d⟩) :
    s.task t = some ⟨.releaseLock h, d⟩ ∨ a = .start (.release h) ∧ s.Issued h := by
  rcases hsteps t _ d ht' with ht | ⟨p, -, hadvance⟩ | ⟨-, hbegun⟩
  · exact .inl ht
  · generalize hp' : Position.releaseLock h = p' at hadvance
    cases hadvance with
    | moved _ hmove =>
      cases hmove with
      | closeNotSent | closeSendTimedOut | closeAnswered | closeTimedOut | closeLost =>
        rcases afterClosePosition_cases _ _ with ⟨e, -, -, hafter⟩ | ⟨-, hafter⟩ <;>
          rw [hafter] at hp' <;> cases hp'
      | _ => cases hp'
    | @leaseGone _ _ _ k | @forgot _ k | @replenished k => cases k <;> cases hp'
    | _ => cases hp'
  · generalize hp : Position.releaseLock h = p at hbegun
    cases hbegun with
    | started operation ha hknown =>
      cases operation with
      | release h' =>
        cases hp
        refine .inr ⟨ha, ?_⟩
        simpa [Operation.known, Operation.handle, State.Issued] using hknown
      | markDeadForLease h' guarded => cases guarded <;> cases hp
      | _ => cases hp
    | minimum | reaper | killed => cases hp
    | cleanup _ _ hdrop =>
      rcases dropTask_eq_some hdrop with ⟨w, -, rfl | rfl⟩ | ⟨h', -, rfl⟩ <;> cases hp

theorem awaits_step (hfresh : s.Fresh) (hquiet : Quiet s a) (hasked : Asked s answered)
    (hstep : step cfg s a = some s') (hslot : SlotStep s a s' w)
    (hrequest : request ∈ (s'.slot w).requests)
    (ht : s.task request.task = some ⟨p, d⟩) (hawaits : p.Awaits request w) :
    ∃ p' d', s'.task request.task = some ⟨p', d'⟩ ∧ p'.Awaits request w := by
  have gone {p' : Position} (hs' : s.goto request.task p' = s') (hp' : p'.Awaits request w) :
      ∃ p' d', s'.task request.task = some ⟨p', d'⟩ ∧ p'.Awaits request w :=
    ⟨p', d, by rw [← hs']; exact task_goto_self ht p', hp'⟩
  by_cases hactor : a.actor = some request.task
  · have hcalm := hquiet.calm _ _ hactor ht
    cases a with
    | drop t =>
      obtain rfl := Option.some.inj hactor
      obtain ⟨session, hacquires⟩ := hquiet.drops _ _ rfl ht
      exact (hacquires.not_awaits hcalm hawaits).elim
    | run t choice =>
      obtain rfl := Option.some.inj hactor
      have hnext := next_of_step hstep ht
      cases p with
      | callAwait h tool tracksOpen answer =>
        cases answer with
        | some answer => cases hawaits
        | none =>
          cases choice with
          | timedOut | transportLost => exact gone (Option.some.inj hnext) rfl
          | cancelled =>
            simp only [next, callAwait] at hnext
            split_ifs at hnext
            exact gone (Option.some.inj hnext) rfl
          | _ => cases hnext
      | releaseAwait h answer =>
        cases answer with
        | some answer => cases hawaits
        | none =>
          cases choice with
          | timedOut | transportLost => exact gone (Option.some.inj hnext) rfl
          | _ => cases hnext
      | _ => exact (Bool.false_ne_true (hcalm.symm.trans hawaits)).elim
    | _ => cases hactor
  · have hwaits := hasked.waits_step hstep hslot hrequest
    have hsame := task_unanswered hfresh (transition_of_step hstep) ht hactor (by
      rintro w₀ request₀ answer effect rfl htask
      exact hwaits (htask ▸ List.mem_cons_self ..))
    exact ⟨p, d, hsame, hawaits⟩

theorem sent_awaits (hslot : SlotStep s a s' w) (hrequest : request ∈ (s'.slot w).requests) :
    request ∈ (s.slot w).requests ∨
      ∃ p d, s'.task request.task = some ⟨p, d⟩ ∧ p.Awaits request w := by
  rcases old_or_asks hslot hrequest with hold | hasks
  · exact .inl hold
  · cases hslot with
    | closeSent ht hw ht' hslot =>
      rw [hslot] at hrequest
      rcases List.mem_append.mp hrequest with hold | hnew
      · exact .inl hold
      · obtain rfl := List.mem_singleton.mp hnew
        exact .inr ⟨_, _, ht', hw⟩
    | callSent ht hw hcall hleased ht' hslot =>
      rw [hslot] at hrequest
      rcases List.mem_append.mp hrequest with hold | hnew
      · exact .inl hold
      · obtain rfl := List.mem_singleton.mp hnew
        exact .inr ⟨_, _, ht', hw, rfl⟩
    | built ht ht' hslot =>
      rw [hslot] at hrequest
      cases hrequest
    | answered ha hanswered heffect hslot =>
      rw [hslot] at hrequest
      exact .inl (List.mem_of_mem_erase hrequest)
    | same hslot | transportLost hslot =>
      rw [hslot] at hrequest
      exact .inl hrequest
    | callLocked _ _ hslot =>
      rw [hslot] at hrequest
      exact .inl hrequest
    | killed _ _ _ hslot | unlocked _ _ _ hslot =>
      rw [hslot] at hrequest
      exact .inl hrequest
    | leased _ _ _ _ hslot | reset _ _ _ _ hslot =>
      rw [hslot] at hrequest
      exact .inl hrequest
    | closing _ _ _ _ _ hslot =>
      rw [hslot] at hrequest
      exact .inl hrequest

theorem releasing_step (hfresh : s.Fresh) (hstep : step cfg s a = some s') (hl : s'.Releasing l) :
    s.Releasing l ∨ ∃ h, a = .start (.release h) ∧ s.Issued h ∧ h.leaseId = l := by
  obtain ⟨t, h, d, ht', hlease⟩ := hl
  rcases releasing_taskStep (taskStep_transition hfresh (transition_of_step hstep)) ht' with
    ht | ⟨ha, hissued⟩
  · exact .inl ⟨t, h, d, ht, hlease⟩
  · exact .inr ⟨h, ha, hissued, hlease⟩

theorem Steady.step (h : Steady s) (hreg : Regular cfg s) (hquiet : Quiet s a)
    (hstep : step cfg s a = some s') : Steady s' := by
  have htasks := taskStep_transition hreg.fresh (transition_of_step hstep)
  obtain ⟨answered, hasked⟩ := h.asked
  constructor
  · exact fun t session l w d => starting_step hreg h.starting hstep
  · intro l hl
    rcases releasing_step hreg.fresh hstep hl with hold | ⟨h', -, hissued, hlease⟩
    · obtain ⟨h', hissued, hlease⟩ := h.releasing l hold
      exact ⟨h', issued_step hstep hissued, hlease⟩
    · exact ⟨h', issued_step hstep hissued, hlease⟩
  · intro t p' d ht'
    rcases htasks t p' d ht' with ht | ⟨p, ht, hadvance⟩ | ⟨-, hbegun⟩
    · exact h.opens t p' d ht
    · exact onlyOpens_advance hadvance (h.opens t p d ht)
    · exact onlyOpens_begun hquiet hbegun
  · exact ⟨_, hasked.step hreg.fresh hstep⟩
  · intro w request hrequest
    rcases sent_awaits (hreg.slots hstep w) hrequest with hold | hnew
    · obtain ⟨p, d, ht, hawaits⟩ := h.awaited w request hold
      exact awaits_step hreg.fresh hquiet hasked hstep (hreg.slots hstep w) hrequest ht hawaits
    · exact hnew

theorem steady_warmed : Steady (warmed cfg) where
  starting t session l w d ht := by cases ht
  releasing := by
    rintro l ⟨t, h, d, ht, -⟩
    cases ht
  opens t p d ht := by cases ht
  asked := ⟨[], asked_warmed⟩
  awaited w request hrequest := by cases hrequest

theorem not_killed (hreg : Regular cfg s) (hquiet : Quiet s a) (hpublished : s.Published w)
    (hleased : s.stateOf w = .leased session l) (hstep : step cfg s a = some s') {choice : Choice}
    (ha : a = .run t choice) (ht : s.task t = some ⟨p, d⟩) (hkills : p.kills = some w) :
    s'.stateOf w ≠ .dead := by
  subst ha
  have hcalm := hquiet.calm t _ rfl ht
  have hrefers := hreg.referred.tasks t p d ht
  cases p with
  | takeDead w₀ lease replenish k =>
    cases hkills
    cases k with
    | unreserve w₀ outcome =>
      obtain rfl := hrefers
      exact (hpublished.2 t (role_eq reserves ht)).elim
    | _ => cases hcalm
  | reapScan w₀ sleepStarted rest liveCount =>
    cases hkills
    have hnext := next_of_step hstep ht
    have hidle : s.stateOf w ≠ .idle := by
      rw [hleased]
      exact nofun
    cases choice with
    | proceed =>
      cases hnext
      cases rest with
      | cons x rest =>
        change s.stateOf w ≠ _
        rw [hleased]
        exact nofun
      | nil =>
        rw [reapScan, if_neg fun hcond => hidle hcond.2.1]
        change s.stateOf w ≠ _
        rw [hleased]
        exact nofun
    | _ => cases hnext
  | _ => cases hkills

theorem leased_step (hreg : Regular cfg s) (hquiet : Quiet s a) (hpublished : s.Published w)
    (hleased : s.stateOf w = .leased session l) (hnot : ¬s.Releasing l)
    (hstep : step cfg s a = some s') : s'.stateOf w = .leased session l := by
  cases (hreg.slots hstep w).stateStep with
  | same hstate => rwa [hstate]
  | leased _ _ hidle =>
    rw [hleased] at hidle
    cases hidle
  | built ht =>
    exact (not_unbuilt_of_published hpublished (.inr ⟨_, role_eq starts ht⟩)).elim
  | killed ha ht hkills hstate =>
    exact (not_killed hreg hquiet hpublished hleased hstep ha ht hkills hstate).elim
  | @closing t h d ht hw hlease =>
    rw [hleased] at hlease
    exact (hnot ⟨t, h, d, ht, (of_decide_eq_true hlease).symm⟩).elim
  | @reset t h error d ht hw =>
    subst hw
    rcases hreg.kept.closing t h (role_eq closes ht) with hstate | hstate <;>
      exact nomatch hleased.symm.trans hstate

theorem database_step (hreg : Regular cfg s) (hsteady : Steady s) (hquiet : Quiet s a)
    (hpublished : s.Published w) (hleased : s.stateOf w = .leased session l)
    (hopen : (s.slot w).database ≠ none) (hstep : step cfg s a = some s') :
    (s'.slot w).database = (s.slot w).database := by
  cases hreg.slots hstep w with
  | @answered request answer effect ha hrequest _ hslot =>
    have hkeep : effect = .keep := by
      apply hquiet.keeps w request answer effect ha _ hopen
      obtain ⟨p, d, ht, hawaits⟩ := hsteady.awaited w request hrequest
      have hcalm := hquiet.awaited w request answer effect ha _ ht
      cases p with
      | callAwait h tool tracksOpen answer' =>
        cases answer' with
        | none => exact hawaits.2.trans (hsteady.opens _ _ d ht).1
        | some => cases hawaits
      | releaseAwait h answer' =>
        cases answer' with
        | none =>
          obtain rfl : h.workerId = w := hawaits
          -- The slot of a release that waits for its close is closing.
          rcases hreg.kept.closing _ h (role_eq closes ht) with hstate | hstate <;>
            exact nomatch hleased.symm.trans hstate
        | some => cases hawaits
      | _ => exact (Bool.false_ne_true (hcalm.symm.trans hawaits)).elim
    rw [hslot, hkeep]
    rfl
  | built ht =>
    exact (not_unbuilt_of_published hpublished (.inr ⟨_, role_eq starts ht⟩)).elim
  | same hslot | transportLost hslot => rw [hslot]
  | callLocked _ _ hslot => rw [hslot]
  | killed _ _ _ hslot | unlocked _ _ _ hslot => rw [hslot]
  | leased _ _ _ _ hslot | reset _ _ _ _ hslot => rw [hslot]
  | closing _ _ _ _ _ hslot | callSent _ _ _ _ _ hslot => rw [hslot]
  | closeSent _ _ _ hslot => rw [hslot]

end IdaMcp.Pool
