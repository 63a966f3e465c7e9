import IdaMcp.Pool.Slots

namespace IdaMcp.Pool

open Foundation State Position

variable {cfg : WorkerPoolConfig} {s s' : State} {a : Action} {t : TaskId} {d : Bool}
  {p p' : Position} {w : WorkerId}

namespace Position

def settled : Position → Option PooledWorkerHandle
  | releaseAwait h (some answer) =>
    if (closeError answer).any releaseErrorRetiresWorker then none else some h
  | releaseReset h _ => some h
  | _ => none

def Sent (request : Request) (w : WorkerId) : Position → Prop
  | releaseLock _ | releaseSend _ | callAdmission _ _ _ => False
  | releaseAwait h _ | releaseReset h _ => h.workerId = w ∧ request.tool = "close_idb"
  | _ => True

theorem closes_of_settled {h : PooledWorkerHandle} (hp : p.settled = some h) : p.closes = some h := by
  cases p with
  | releaseAwait h' answer =>
    cases answer with
    | none => cases hp
    | some answer =>
      simp only [settled] at hp
      split_ifs at hp
      exact hp
  | releaseReset h' => exact hp
  | _ => cases hp

end Position

/-- What a run leaves to chance: a close that fails without retiring the worker leaves no database
open, and an open that is still running when its slot is given back leaves none open later. -/
def confirmed (s : State) : Action → Bool
  | .run t (.notSent error) =>
    match s.task t with
    | some ⟨.releaseSend h, _⟩ =>
      releaseErrorRetiresWorker error || (s.slot h.workerId).database.isNone
    | _ => true
  | .childAnswer w request answer effect =>
    (request.tool ≠ "close_idb" || (closeError answer).all releaseErrorRetiresWorker ||
        (databaseAfter (s.slot w).database request effect).isNone) &&
      (effect ≠ .opens || s.stateOf w ≠ .idle && ((s.slot w).callLock.bind (s.role settled)).isNone)
  | _ => true

structure Confined (s : State) : Prop where
  sent : ∀ w request, request ∈ (s.slot w).requests → request.task < s.nextTask ∧
    ∀ task, s.task request.task = some task → task.position.Sent request w
  closed : ∀ t h, s.role settled t = some h → (s.slot h.workerId).database = none
  idle : ∀ w, s.stateOf w = .idle → (s.slot w).database = none

theorem sent_continuation (request : Request) (w : WorkerId) (k : Continuation) :
    k.position.Sent request w := by
  cases k <;> trivial

theorem sent_afterClose {request : Request} {h : PooledWorkerHandle} (error : Option ToolError)
    (hsent : h.workerId = w ∧ request.tool = "close_idb") :
    (afterClosePosition h error).Sent request w := by
  rcases afterClosePosition_cases h error with ⟨e, -, -, hp⟩ | ⟨-, hp⟩ <;> rw [hp]
  · trivial
  · exact hsent

theorem sent_advance {slot : WorkerId → ChildSlot} {request : Request}
    (hadvance : Advance cfg s a slot t p p') (hp : p.Sent request w) : p'.Sent request w := by
  cases hadvance with
  | moved _ hmove =>
    cases hmove with
    | closeNotSent | closeSendTimedOut => exact hp.elim
    | closeAnswered | closeTimedOut | closeLost => exact sent_afterClose _ hp
    | _ => trivial
  | leaseGone | forgot | replenished => exact sent_continuation request w _
  | closing | closeSent | callSent | callSendLost => exact hp.elim
  | closeReply => exact hp
  | _ => trivial

theorem request_cases {request : Request} (hstep : SlotStep s a s' w)
    (hrequest : request ∈ (s'.slot w).requests) :
    request ∈ (s.slot w).requests ∨
      ∃ p' d, s'.task request.task = some ⟨p', d⟩ ∧ p'.Sent request w := by
  have old {slot : ChildSlot} (hslot : s'.slot w = slot)
      (hrequests : slot.requests = (s.slot w).requests) : request ∈ (s.slot w).requests := by
    rwa [← hrequests, ← hslot]
  cases hstep with
  | same hslot => exact .inl (old hslot rfl)
  | leased _ _ _ _ hslot => exact .inl (old hslot rfl)
  | killed _ _ _ hslot => exact .inl (old hslot rfl)
  | closing _ _ _ _ _ hslot => exact .inl (old hslot rfl)
  | unlocked _ _ _ hslot => exact .inl (old hslot rfl)
  | reset _ _ _ _ hslot => exact .inl (old hslot rfl)
  | callLocked _ _ hslot => exact .inl (old hslot rfl)
  | transportLost hslot => exact .inl (old hslot rfl)
  | built ht ht' hslot =>
    rw [hslot] at hrequest
    cases hrequest
  | answered ha hanswered heffect hslot =>
    rw [hslot] at hrequest
    exact .inl (List.mem_of_mem_erase hrequest)
  | closeSent ht hw ht' hslot =>
    rw [hslot] at hrequest
    rcases List.mem_append.mp hrequest with hold | hnew
    · exact .inl hold
    · obtain rfl := List.mem_singleton.mp hnew
      exact .inr ⟨_, _, ht', hw, rfl⟩
  | callSent ht hw hcall hleased ht' hslot =>
    rw [hslot] at hrequest
    rcases List.mem_append.mp hrequest with hold | hnew
    · exact .inl hold
    · obtain rfl := List.mem_singleton.mp hnew
      exact .inr ⟨_, _, ht', trivial⟩

def State.HasSent (s : State) (request : Request) (w : WorkerId) : Prop :=
  request.task < s.nextTask ∧
    ∀ task, s.task request.task = some task → task.position.Sent request w

theorem State.HasSent.step {request : Request} (h : s.HasSent request w)
    (hnext : s.nextTask ≤ s'.nextTask) (htasks : TaskStep cfg s a s') : s'.HasSent request w := by
  obtain ⟨hlt, hsent⟩ := h
  refine ⟨Nat.lt_of_lt_of_le hlt hnext, ?_⟩
  rintro ⟨p', d⟩ ht'
  rcases htasks _ p' d ht' with ht | ⟨p, ht, hadvance⟩ | ⟨hge, -⟩
  · exact hsent _ ht
  · exact sent_advance hadvance (hsent _ ht)
  · exact (Nat.not_lt.mpr hge hlt).elim

theorem sent_step (h : ∀ request, request ∈ (s.slot w).requests → s.HasSent request w)
    (hfresh' : s'.Fresh) (hnext : s.nextTask ≤ s'.nextTask) (htasks : TaskStep cfg s a s')
    {request : Request} (hslot : SlotStep s a s' w) (hrequest : request ∈ (s'.slot w).requests) :
    s'.HasSent request w := by
  rcases request_cases hslot hrequest with hold | ⟨p', d, ht', hsent⟩
  · exact (h request hold).step hnext htasks
  · refine ⟨hfresh'.lt ht', ?_⟩
    intro task ht
    rw [ht'] at ht
    cases ht
    exact hsent

theorem settled_advance {slot : WorkerId → ChildSlot} {h : PooledWorkerHandle}
    (hadvance : Advance cfg s a slot t p p') (hp' : p'.settled = some h) :
    p.settled = some h ∨
      (∃ error, p = .releaseSend h ∧ a = .run t (.notSent error) ∧
        releaseErrorRetiresWorker error = false) ∨
      ∃ answer w request effect, p = .releaseAwait h none ∧
        a = .childAnswer w request answer effect ∧ request ∈ (s.slot w).requests ∧
        request.task = t ∧ effectAllowed request answer effect = true ∧
        (slot w).database = databaseAfter (s.slot w).database request effect ∧
        (closeError answer).any releaseErrorRetiresWorker = false := by
  have hclose {h₀ : PooledWorkerHandle} {error : Option ToolError}
      (hp' : (afterClosePosition h₀ error).settled = some h) :
      h₀ = h ∧ ∀ e, error = some e → releaseErrorRetiresWorker e = false := by
    rcases afterClosePosition_cases h₀ error with ⟨e, -, -, hp⟩ | ⟨hkeeps, hp⟩ <;> rw [hp] at hp' <;>
      cases hp'
    exact ⟨rfl, hkeeps⟩
  cases hadvance with
  | moved ha hmove =>
    cases hmove with
    | @closeNotSent _ error hchoice herror =>
      obtain ⟨rfl, hkeeps⟩ := hclose hp'
      exact .inr (.inl ⟨error, rfl, by rw [ha, hchoice], hkeeps error rfl⟩)
    | @closeAnswered _ answer =>
      obtain ⟨rfl, hkeeps⟩ := hclose hp'
      left
      simp only [settled]
      cases hanswer : closeError answer with
      | none => rfl
      | some e => simp [hkeeps e hanswer]
    | closeSendTimedOut | closeTimedOut | closeLost =>
      cases (hclose hp').2 _ rfl
    | _ => cases hp'
  | @leaseGone _ _ _ k | @forgot _ k | @replenished k => cases k <;> cases hp'
  | @closeReply _ answer w request effect ha hrequest htask heffect hslot =>
    simp only [settled] at hp'
    split_ifs at hp' with hretires
    cases hp'
    exact .inr (.inr ⟨answer, w, request, effect, rfl, ha, hrequest, htask, heffect, hslot,
      by simpa using hretires⟩)
  | _ => cases hp'

theorem database_kept_none (hkept : Kept s) (hok : confirmed s a = true)
    {h : PooledWorkerHandle} (hclosing : s.role closes t = some h)
    (hopens : ∀ request answer, a = .childAnswer h.workerId request answer .opens →
      s.role settled t = some h)
    (hnone : (s.slot h.workerId).database = none) (hstep : SlotStep s a s' h.workerId) :
    (s'.slot h.workerId).database = none := by
  have hlock := hkept.held t _ (role_holdsCall_of_closes hclosing)
  cases hstep with
  | built ht ht' hslot =>
    have hpristine := hkept.unbuilt h.workerId (.inr ⟨_, role_eq starts ht⟩)
    rw [hpristine.callLock] at hlock
    cases hlock
  | @answered request answer effect ha hrequest heffect hslot =>
    rw [hslot]
    cases effect with
    | keep => exact hnone
    | closes => rfl
    | opens =>
      have hsettled := hopens request answer ha
      rw [ha] at hok
      simp [confirmed, hlock, hsettled] at hok
  | same hslot => rw [hslot, hnone]
  | leased _ _ _ _ hslot => rw [hslot, ← hnone]
  | killed _ _ _ hslot => rw [hslot, ← hnone]
  | closing _ _ _ _ _ hslot => rw [hslot, ← hnone]
  | closeSent _ _ _ hslot => rw [hslot, ← hnone]
  | unlocked _ _ _ hslot => rw [hslot, ← hnone]
  | reset _ _ _ _ hslot => rw [hslot, ← hnone]
  | callSent _ _ _ _ _ hslot => rw [hslot, ← hnone]
  | callLocked _ _ hslot => rw [hslot, ← hnone]
  | transportLost hslot => rw [hslot, ← hnone]

theorem Confined.settled_step (h : Confined s) (hkept : Kept s) (hok : confirmed s a = true)
    (htasks : TaskStep cfg s a s') (hslots : ∀ w, SlotStep s a s' w) {hd : PooledWorkerHandle}
    (hsettled : s'.role settled t = some hd) : (s'.slot hd.workerId).database = none := by
  have old (hold : s.role settled t = some hd) : (s'.slot hd.workerId).database = none := by
    obtain ⟨task, ht, hp⟩ := role_eq_some hold
    exact database_kept_none hkept hok ((role_eq closes ht).trans (closes_of_settled hp))
      (fun _ _ _ => hold) (h.closed t hd hold) (hslots hd.workerId)
  rcases htasks.role hsettled with
    ⟨_, -, -, hold⟩ | ⟨p, p', d, ht, -, hadvance, hp'⟩ | ⟨p, -, hbegun, hp⟩
  · exact old hold
  · rcases settled_advance hadvance hp' with
      hp | ⟨error, rfl, ha, hkeeps⟩ | ⟨answer, w, request, effect, rfl, ha, hrequest, htask, heffect,
        hdatabase, hkeeps⟩
    · exact old ((role_eq settled ht).trans hp)
    · have hnone : (s.slot hd.workerId).database = none := by
        rw [ha] at hok
        simpa [confirmed, ht, hkeeps] using hok
      refine database_kept_none hkept hok (role_eq closes ht) (fun request answer ha' => ?_) hnone
        (hslots hd.workerId)
      rw [ha] at ha'
      cases ha'
    · -- the answer is the one to the release's own close
      subst htask
      obtain ⟨rfl, htool⟩ := (h.sent w request hrequest).2 _ ht
      rw [hdatabase]
      cases effect with
      | closes => rfl
      | opens =>
        simp only [effectAllowed, htool, decide_eq_true_eq] at heffect
        exact absurd heffect (by decide)
      | keep =>
        cases herror : closeError answer with
        | none => simp [effectAllowed, htool, herror] at heffect
        | some e =>
          have hkeeps' : releaseErrorRetiresWorker e = false := by simpa [herror] using hkeeps
          rw [ha] at hok
          simpa [confirmed, htool, herror, hkeeps', databaseAfter] using hok
  · have hnone := holdsCall_of_closes (closes_of_settled hp)
    rw [holdsCall_begun hbegun] at hnone
    cases hnone

theorem Confined.idle_step (h : Confined s) (hok : confirmed s a = true) (hslot : SlotStep s a s' w)
    (hidle : s'.stateOf w = .idle) : (s'.slot w).database = none := by
  have old {slot : ChildSlot} (hslot : s'.slot w = slot) (hstate : slot.state = s.stateOf w)
      (hdatabase : slot.database = (s.slot w).database) : (s'.slot w).database = none := by
    rw [hslot, hdatabase]
    apply h.idle
    rw [← hstate, ← hslot]
    exact hidle
  cases hslot with
  | same hslot => exact old hslot rfl rfl
  | closeSent _ _ _ hslot => exact old hslot rfl rfl
  | unlocked _ _ _ hslot => exact old hslot rfl rfl
  | callSent _ _ _ _ _ hslot => exact old hslot rfl rfl
  | callLocked _ _ hslot => exact old hslot rfl rfl
  | transportLost hslot => exact old hslot rfl rfl
  | built _ _ hslot =>
    rw [hslot]
    rfl
  | leased _ _ _ _ hslot =>
    rw [stateOf, hslot] at hidle
    cases hidle
  | killed _ _ _ hslot =>
    rw [stateOf, hslot] at hidle
    cases hidle
  | closing _ _ _ _ _ hslot =>
    rw [stateOf, hslot] at hidle
    cases hidle
  | reset ht hw hdead hfree hslot =>
    subst hw
    rw [hslot]
    exact h.closed _ _ (role_eq settled ht)
  | @answered request answer effect ha hrequest heffect hslot =>
    have hold : s.stateOf w = .idle := by
      rw [← hidle, stateOf, stateOf, hslot]
    rw [hslot]
    cases effect with
    | keep => exact h.idle w hold
    | closes => rfl
    | opens =>
      rw [ha] at hok
      simp [confirmed, hold] at hok

theorem Confined.step (h : Confined s) (hsound : Accounted cfg s) (hkept : Kept s)
    (hok : confirmed s a = true) (hstep : Transition cfg s a s') : Confined s' := by
  have htasks := taskStep_transition hsound.fresh hstep
  have hslots := slotStep_transition hsound.fresh hstep
  constructor
  · intro w request hrequest
    exact sent_step (h.sent w) (fresh_transition hsound.fresh hstep) (counters_le hstep).2 htasks
      (hslots w) hrequest
  · intro t hd hsettled
    exact h.settled_step hkept hok htasks hslots hsettled
  · intro w hidle
    exact h.idle_step hok (hslots w) hidle

theorem confined_warmed : Confined (warmed cfg) where
  sent w request hrequest := by cases hrequest
  closed t h ht := by cases ht
  idle w _ := rfl

/-- In a run whose closes are confirmed, no idle slot has a database open, so none is handed to the
next lease. -/
theorem idle_slot_closed
    (h : ReachableBy (step cfg) (fun s a => confirmed s a = true) (warmed cfg) s)
    (hidle : s.stateOf w = .idle) : (s.slot w).database = none := by
  have hall : Accounted cfg s ∧ Kept s ∧ Confined s := by
    refine invariant_of_meets (I := fun s => Accounted cfg s ∧ Kept s ∧ Confined s) ?_ ?_ h
    · rintro s a s' ⟨hsound, hkept, hconfined⟩ hok hstep
      have htransition := transition_of_step hstep
      exact ⟨hsound.step hstep, hkept.step hsound htransition,
        hconfined.step hsound hkept hok htransition⟩
    · exact ⟨⟨fresh_warmed, sound_warmed⟩, kept_warmed, confined_warmed⟩
  exact hall.2.2.idle w hidle

def textReply (text : String) (isError : Bool) : CallToolResult :=
  { content := [.text text], isError := some isError, metadata := none }

def openThenRelease (close : CallToolResult) (effect : ChildEffect) : List Action :=
  [.start (.lease 0), .run 0 .proceed, .run 0 .proceed, .run 0 .proceed,
    .start (.call ⟨0, 0, 1, false⟩ "open_idb" true), .run 1 .proceed,
    .childAnswer 0 ⟨1, 1, "open_idb"⟩ (.result (textReply "{}" false)) .opens, .run 1 .proceed,
    .run 1 .proceed,
    .start (.release ⟨0, 0, 1, false⟩), .run 2 .proceed, .run 2 .proceed,
    .childAnswer 0 ⟨2, 1, "close_idb"⟩ (.result close) effect, .run 2 .proceed, .run 2 .proceed,
    .start (.lease 1), .run 3 .proceed, .run 3 .proceed]

theorem idle_slot_closed_release : ∃ s, s.stateOf 0 = .idle ∧ (s.slot 0).database = none ∧
    ReachableBy (step ⟨1, 1, 5⟩) (fun s a => confirmed s a = true) (warmed ⟨1, 1, 5⟩) s := by
  let actions := openThenRelease (textReply "closed" false) .closes
  have hmeets : Meets (step ⟨1, 1, 5⟩) (fun s a => confirmed s a = true) (warmed ⟨1, 1, 5⟩) actions := by
    decide +kernel
  have hidle : (run (step ⟨1, 1, 5⟩) (warmed ⟨1, 1, 5⟩) actions).map (fun s => s.stateOf 0) =
      some .idle := by decide +kernel
  obtain ⟨s, hs, hidle⟩ := Option.map_eq_some_iff.mp hidle
  have hreach : ReachableBy (step ⟨1, 1, 5⟩) (fun s a => confirmed s a = true) (warmed ⟨1, 1, 5⟩) s :=
    ⟨actions, hmeets, hs⟩
  exact ⟨s, hidle, idle_slot_closed hreach hidle, hreach⟩

/-- A close that the child is too busy to queue leaves its database to the next lease. -/
theorem busy_close_crosses_leases : ∃ s s', Reachable (step ⟨1, 1, 5⟩) (warmed ⟨1, 1, 5⟩) s ∧
    s.stateOf 0 = .idle ∧ (s.slot 0).database = some 1 ∧
    step ⟨1, 1, 5⟩ s (.run 3 .proceed) = some s' ∧ s'.stateOf 0 = .leased 1 2 ∧
    (s'.slot 0).database = some 1 := by
  let actions := openThenRelease ToolError.busy.toToolResult .keep
  have hrun : (run (step ⟨1, 1, 5⟩) (warmed ⟨1, 1, 5⟩) actions).map (fun s => (s.stateOf 0,
      (s.slot 0).database, (step ⟨1, 1, 5⟩ s (.run 3 .proceed)).map fun s' =>
        (s'.stateOf 0, (s'.slot 0).database))) =
      some (.idle, some 1, some (.leased 1 2, some 1)) := by decide +kernel
  obtain ⟨s, hs, hstates⟩ := Option.map_eq_some_iff.mp hrun
  simp only [Prod.mk.injEq] at hstates
  obtain ⟨hidle, hdatabase, hnext⟩ := hstates
  obtain ⟨s', hs', hstates'⟩ := Option.map_eq_some_iff.mp hnext
  simp only [Prod.mk.injEq] at hstates'
  exact ⟨s, s', ⟨actions, hs⟩, hidle, hdatabase, hs', hstates'.1, hstates'.2⟩

end IdaMcp.Pool
