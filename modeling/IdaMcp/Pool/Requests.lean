import IdaMcp.Pool.Release

namespace IdaMcp.Pool

open Foundation State Position

variable {cfg : WorkerPoolConfig} {s s' : State} {a : Action} {t : TaskId} {w w' : WorkerId}
  {request request' : Request} {answered : List TaskId}

namespace Position

def asks : Position → Option WorkerId
  | releaseSend h | callAdmission h _ _ => some h.workerId
  | _ => none

theorem asks_of_sent {p : Position} (hp : p.Sent request w) : p.asks = none := by
  cases p with
  | releaseSend | callAdmission => exact hp.elim
  | _ => rfl

end Position

theorem State.HasSent.not_asks (h : s.HasSent request w) : s.role asks request.task ≠ some w' := by
  intro hasks
  obtain ⟨task, ht, hp⟩ := role_eq_some hasks
  rw [asks_of_sent (h.2 task ht)] at hp
  cases hp

theorem requests_cases (hstep : SlotStep s a s' w) :
    (s'.slot w).requests.Sublist (s.slot w).requests ∨
      ∃ request, (s'.slot w).requests = (s.slot w).requests ++ [request] ∧
        s.role asks request.task = some w := by
  cases hstep with
  | closeSent ht hw ht' hslot =>
    exact .inr ⟨_, by rw [hslot], (role_eq asks ht).trans (congrArg some hw)⟩
  | callSent ht hw hcall hleased ht' hslot =>
    exact .inr ⟨_, by rw [hslot], (role_eq asks ht).trans (congrArg some hw)⟩
  | built ht ht' hslot =>
    rw [hslot]
    exact .inl (List.nil_sublist _)
  | answered ha hanswered heffect hslot =>
    rw [hslot]
    exact .inl List.erase_sublist
  | same hslot | transportLost hslot =>
    rw [hslot]
    exact .inl (List.Sublist.refl _)
  | callLocked _ _ hslot =>
    rw [hslot]
    exact .inl (List.Sublist.refl _)
  | killed _ _ _ hslot | unlocked _ _ _ hslot =>
    rw [hslot]
    exact .inl (List.Sublist.refl _)
  | leased _ _ _ _ hslot | reset _ _ _ _ hslot =>
    rw [hslot]
    exact .inl (List.Sublist.refl _)
  | closing _ _ _ _ _ hslot =>
    rw [hslot]
    exact .inl (List.Sublist.refl _)

theorem old_or_asks (hstep : SlotStep s a s' w) (hrequest : request ∈ (s'.slot w).requests) :
    request ∈ (s.slot w).requests ∨ s.role asks request.task = some w := by
  rcases requests_cases hstep with hsub | ⟨new, heq, hasks⟩
  · exact .inl (hsub.subset hrequest)
  · rw [heq] at hrequest
    rcases List.mem_append.mp hrequest with hold | hnew
    · exact .inl hold
    · obtain rfl := List.mem_singleton.mp hnew
      exact .inr hasks

theorem slot_childAnswer {answer : Answer} {effect : ChildEffect}
    (hstep : step cfg s (.childAnswer w request answer effect) = some s') :
    request ∈ (s.slot w).requests ∧ s'.slot = Function.update s.slot w { s.slot w with
      requests := (s.slot w).requests.erase request
      database := databaseAfter (s.slot w).database request effect } := by
  rw [step, childAnswer, Option.ite_none_right_eq_some, Option.some_inj] at hstep
  obtain ⟨⟨hrequest, -⟩, rfl⟩ := hstep
  obtain ⟨task, h⟩ := deliver_frame (s.setSlot w { s.slot w with
    requests := (s.slot w).requests.erase request
    database := databaseAfter (s.slot w).database request effect }) request.task answer
  exact ⟨hrequest, by rw [h]; rfl⟩

def answeredBy (answered : List TaskId) : Action → List TaskId
  | .childAnswer _ request _ _ => request.task :: answered
  | _ => answered

/-- A task sends one request, to one slot, and has at most one answer to it. -/
structure Asked (s : State) (answered : List TaskId) : Prop where
  sent : ∀ w request, request ∈ (s.slot w).requests → s.HasSent request w
  past : ∀ t ∈ answered, ∃ request w, request.task = t ∧ s.HasSent request w
  once : ∀ w, ((s.slot w).requests.map Request.task).Nodup
  apart : ∀ w w' request request', request ∈ (s.slot w).requests →
    request' ∈ (s.slot w').requests → request.task = request'.task → w = w'
  waits : ∀ w request, request ∈ (s.slot w).requests → request.task ∉ answered

theorem Asked.fresh (h : Asked s answered) (hasks : s.role asks t = some w) :
    (∀ w' request, request ∈ (s.slot w').requests → request.task ≠ t) ∧ t ∉ answered := by
  constructor
  · rintro w' request hrequest rfl
    exact (h.sent w' request hrequest).not_asks hasks
  · intro hpast
    obtain ⟨request, w', rfl, hsent⟩ := h.past t hpast
    exact hsent.not_asks hasks

theorem Asked.once_step (h : Asked s answered) (hstep : SlotStep s a s' w) :
    ((s'.slot w).requests.map Request.task).Nodup := by
  rcases requests_cases hstep with hsub | ⟨request, heq, hasks⟩
  · exact (h.once w).sublist (hsub.map _)
  · rw [heq, List.map_append, List.nodup_append]
    refine ⟨h.once w, List.nodup_singleton _, ?_⟩
    intro t ht t' ht'
    obtain ⟨request', hrequest', rfl⟩ := List.mem_map.mp ht
    rw [List.map_singleton, List.mem_singleton] at ht'
    rw [ht']
    exact (h.fresh hasks).1 w request' hrequest'

theorem Asked.apart_step (h : Asked s answered) (hslots : ∀ w, SlotStep s a s' w)
    (hrequest : request ∈ (s'.slot w).requests) (hrequest' : request' ∈ (s'.slot w').requests)
    (htask : request.task = request'.task) : w = w' := by
  rcases old_or_asks (hslots w) hrequest with hold | hasks <;>
    rcases old_or_asks (hslots w') hrequest' with hold' | hasks'
  · exact h.apart w w' request request' hold hold' htask
  · exact absurd htask ((h.fresh hasks').1 w request hold)
  · exact absurd htask.symm ((h.fresh hasks).1 w' request' hold')
  · rw [htask, hasks'] at hasks
    exact (Option.some.inj hasks).symm

theorem Asked.waits_step (h : Asked s answered) (hstep : step cfg s a = some s')
    (hslot : SlotStep s a s' w) (hrequest : request ∈ (s'.slot w).requests) :
    request.task ∉ answeredBy answered a := by
  have hold : request.task ∉ answered := by
    rcases old_or_asks hslot hrequest with hold | hasks
    · exact h.waits w request hold
    · exact (h.fresh hasks).2
  cases a with
  | childAnswer w₀ request₀ answer effect =>
    obtain ⟨hrequest₀, heq⟩ := slot_childAnswer hstep
    apply List.not_mem_cons_of_ne_of_not_mem _ hold
    intro htask
    rw [heq] at hrequest
    by_cases hw : w = w₀
    · subst hw
      rw [Function.update_self] at hrequest
      have hmem : request ∈ (s.slot w).requests := List.mem_of_mem_erase hrequest
      obtain rfl := List.inj_on_of_nodup_map (h.once w) hmem hrequest₀ htask
      exact ((List.Nodup.of_map _ (h.once w)).not_mem_erase) hrequest
    · rw [Function.update_of_ne hw] at hrequest
      exact hw (h.apart w w₀ request request₀ hrequest hrequest₀ htask)
  | _ => exact hold

theorem Asked.past_step (h : Asked s answered) (hstep : step cfg s a = some s')
    (hkeep : ∀ {request w}, s.HasSent request w → s'.HasSent request w)
    (ht : t ∈ answeredBy answered a) : ∃ request w, request.task = t ∧ s'.HasSent request w := by
  have hold (ht : t ∈ answered) : ∃ request w, request.task = t ∧ s'.HasSent request w := by
    obtain ⟨request, w, htask, hsent⟩ := h.past t ht
    exact ⟨request, w, htask, hkeep hsent⟩
  cases a with
  | childAnswer w₀ request₀ answer effect =>
    rcases List.mem_cons.mp ht with rfl | ht
    · exact ⟨request₀, w₀, rfl, hkeep (h.sent w₀ request₀ (slot_childAnswer hstep).1)⟩
    · exact hold ht
  | _ => exact hold ht

theorem Asked.step (h : Asked s answered) (hfresh : s.Fresh) (hstep : step cfg s a = some s') :
    Asked s' (answeredBy answered a) := by
  have htransition := transition_of_step hstep
  have htasks := taskStep_transition hfresh htransition
  have hslots := slotStep_transition hfresh htransition
  have hnext := (counters_le htransition).2
  constructor
  · intro w request hrequest
    exact sent_step (h.sent w) (fresh_transition hfresh htransition) hnext htasks (hslots w) hrequest
  · intro t ht
    exact h.past_step hstep (fun hsent => hsent.step hnext htasks) ht
  · exact fun w => h.once_step (hslots w)
  · exact fun w w' request request' => h.apart_step hslots
  · exact fun w request => h.waits_step hstep (hslots w)

theorem asked_warmed : Asked (warmed cfg) [] where
  sent w request hrequest := by cases hrequest
  past t ht := by cases ht
  once w := List.nodup_nil
  apart w w' request request' hrequest := by cases hrequest
  waits w request hrequest := by cases hrequest

end IdaMcp.Pool
