import IdaMcp.Trail.Calls

namespace IdaMcp.Trail

open Foundation

def OperationEvent.isTerminal (e : OperationEvent) : Bool := e.status.isTerminal

def TerminalLast (recorded : List OperationEvent) : Prop :=
  recorded.Pairwise fun e e' => e.isTerminal = true → e'.opId ≠ e.opId

def State.Has (s : State) (id : String) (p : Position → Prop) : Prop :=
  ∃ u c, s.call u = some c ∧ c.opId = id ∧ p c.position

def State.Unfinished (s : State) (id : String) : Prop :=
  s.Has id (fun _ => True) ∧ ∀ e ∈ s.recorded, e.opId = id → e.isTerminal = false

/-- What a reader of the trail may rely on. -/
structure Truthful (s : State) : Prop where
  terminalLast : TerminalLast s.recorded
  active : ∀ limit clock,
    (s.registry.recent limit clock).activeOperation.isSome ↔ ∃ id, s.Unfinished id
  names : ∀ limit clock snapshot,
    (s.registry.recent limit clock).activeOperation = some snapshot → s.Unfinished snapshot.opId
  recentEvents : ∀ limit clock, (s.registry.recent limit clock).recentEvents =
    (s.recorded.reverse.take (min 20 s.recorded.length)).take (OperationRegistry.requestedLimit limit)
  settled : (∀ u c, s.call u = some c → c.position = .returned ∨ c.position = .dropped) →
    ∀ id, s.registry.current id = none

structure Faithful (s : State) : Prop where
  fresh : ∀ u, s.nonce ≤ u → s.call u = none
  id : ∀ u c, s.call u = some c → ∃ now, c.opId = nextOperationId now u
  current : ∀ id, (s.registry.current id).isSome ↔ s.Has id (· ≠ .returned)
  named : ∀ id state, s.registry.current id = some state → state.opId = id
  terminal : ∀ id, (∃ e ∈ s.recorded, e.isTerminal = true ∧ e.opId = id) ↔ s.Has id (· = .returned)
  last : TerminalLast s.recorded
  events : s.registry.events = s.recorded.drop (s.recorded.length - recentEventCap)
  active : ∀ id, s.registry.activeOpId = some id → (s.registry.current id).isSome

variable {s t : State} {u v : ℕ} {c c' : Call} {turn : Turn} {id : String}

theorem faithful_initial : Faithful initial where
  fresh _ _ := rfl
  id _ _ h := by cases h
  current id := by simp [initial, OperationRegistry.new, State.Has]
  named _ _ h := by cases h
  terminal id := by simp [initial, State.Has]
  last := .nil
  events := rfl
  active _ h := by cases h

theorem Faithful.unique (hs : Faithful s) (hu : s.call u = some c) (hv : s.call v = some c')
    (h : c.opId = c'.opId) : u = v := by
  obtain ⟨now, hnow⟩ := hs.id u c hu
  obtain ⟨now', hnow'⟩ := hs.id v c' hv
  exact nextOperationId_injective (hnow.symm.trans (h.trans hnow'))

theorem has_setCall {p : Position → Prop} : (s.setCall u c').Has id p ↔
    c'.opId = id ∧ p c'.position ∨ ∃ v c, v ≠ u ∧ s.call v = some c ∧ c.opId = id ∧ p c.position := by
  constructor
  · rintro ⟨v, d, hv, hid, hp⟩
    change Function.update s.call u (some c') v = some d at hv
    rw [Function.update_apply] at hv
    split_ifs at hv with hne
    · cases hv
      exact .inl ⟨hid, hp⟩
    · exact .inr ⟨v, d, hne, hv, hid, hp⟩
  · rintro (⟨hid, hp⟩ | ⟨v, d, hne, hv, hid, hp⟩)
    · exact ⟨u, c', Function.update_self .., hid, hp⟩
    · exact ⟨v, d, (Function.update_of_ne hne _ _).trans hv, hid, hp⟩

theorem has_iff {p : Position → Prop} (hu : s.call u = some c) : s.Has id p ↔
    c.opId = id ∧ p c.position ∨ ∃ v d, v ≠ u ∧ s.call v = some d ∧ d.opId = id ∧ p d.position := by
  have hself : s.setCall u c = s := by
    rw [State.setCall, ← hu, Function.update_eq_self]
  have hhas : (s.setCall u c).Has id p ↔ _ := has_setCall
  rwa [hself] at hhas

theorem Has.keeps {p : Position → Prop} (hu : s.call u = some c) (hid : c'.opId = c.opId)
    (hp : p c'.position ↔ p c.position) : (s.setCall u c').Has id p ↔ s.Has id p := by
  rw [has_setCall, has_iff hu, hid, hp]

theorem Faithful.setCall (hs : Faithful s) (hu : s.call u = some c) (hid : c'.opId = c.opId)
    (hreturned : c'.position = .returned ↔ c.position = .returned) : Faithful (s.setCall u c') where
  fresh v hv := by
    have hne : v ≠ u := by
      rintro rfl
      rw [hs.fresh v hv] at hu
      cases hu
    exact (Function.update_of_ne hne _ _).trans (hs.fresh v hv)
  id v d hv := by
    change Function.update s.call u (some c') v = some d at hv
    rw [Function.update_apply] at hv
    split_ifs at hv with hvu
    · cases hv
      rw [hid, hvu]
      exact hs.id u c hu
    · exact hs.id v d hv
  current id := (hs.current id).trans (Has.keeps hu hid (not_congr hreturned)).symm
  named := hs.named
  terminal id := (hs.terminal id).trans (Has.keeps hu hid hreturned).symm
  last := hs.last
  events := hs.events
  active := hs.active

theorem Faithful.unfinished_iff (hs : Faithful s) :
    s.Unfinished id ↔ (s.registry.current id).isSome := by
  rw [hs.current]
  constructor
  · rintro ⟨⟨u, c, hu, hid, -⟩, hnone⟩
    refine ⟨u, c, hu, hid, fun hreturned => ?_⟩
    obtain ⟨e, he, hterminal, heid⟩ := (hs.terminal id).mpr ⟨u, c, hu, hid, hreturned⟩
    rw [hnone e he heid] at hterminal
    cases hterminal
  · rintro ⟨u, c, hu, hid, hrunning⟩
    refine ⟨⟨u, c, hu, hid, trivial⟩, fun e he heid => ?_⟩
    rw [← Bool.not_eq_true]
    intro hterminal
    obtain ⟨v, d, hv, hvid, hreturned⟩ := (hs.terminal id).mp ⟨e, he, hterminal, heid⟩
    obtain rfl := hs.unique hu hv (hid.trans hvid.symm)
    cases hu.symm.trans hv
    exact hrunning hreturned

theorem terminalLast_append {recorded : List OperationEvent} {e : OperationEvent}
    (h : TerminalLast recorded) (he : ∀ e' ∈ recorded, e'.opId = e.opId → e'.isTerminal = false) :
    TerminalLast (recorded ++ [e]) := by
  refine List.pairwise_append.mpr ⟨h, List.pairwise_singleton .., ?_⟩
  intro e' he' e'' hmem hterminal heq
  rw [List.mem_singleton.mp hmem] at heq
  rw [he e' he' heq.symm] at hterminal
  cases hterminal

theorem exists_terminal_append {recorded : List OperationEvent} {e : OperationEvent} :
    (∃ e' ∈ recorded ++ [e], e'.isTerminal = true ∧ e'.opId = id) ↔
      (∃ e' ∈ recorded, e'.isTerminal = true ∧ e'.opId = id) ∨ e.isTerminal = true ∧ e.opId = id := by
  simp only [List.mem_append, List.mem_singleton, or_and_right, exists_or, exists_eq_left]

theorem isSome_update {current : String → Option OperationState} {state : OperationState}
    (h : (current id).isSome) (id' : String) :
    (Function.update current id (some state) id').isSome ↔ (current id').isSome := by
  rw [Function.update_apply]
  split_ifs with heq
  · simp [heq, h]
  · rfl

theorem Faithful.progress (hs : Faithful s) (id phase message : String) (clock : Clock) :
    Faithful (s.push clock (s.registry.recordProgress id phase message clock)) := by
  cases hcurrent : s.registry.current id with
  | none =>
    rw [OperationRegistry.recordProgress, hcurrent]
    exact hs
  | some state =>
    have hsome : (s.registry.current id).isSome := by rw [hcurrent]; rfl
    have hname : (state.progressed phase message clock).opId = id := hs.named id state hcurrent
    have hrunning := state.progressed_status phase message clock
    have hunfinished := hs.unfinished_iff.mpr hsome
    rw [OperationRegistry.recordProgress, hcurrent]
    exact {
      fresh := hs.fresh
      id := hs.id
      current := fun id' => (isSome_update hsome id').trans (hs.current id')
      named := by
        intro id' state' h
        change Function.update s.registry.current id _ id' = some state' at h
        rw [Function.update_apply] at h
        split_ifs at h with heq
        · rw [← Option.some_inj.mp h, heq, hname]
        · exact hs.named id' state' h
      terminal := by
        intro id'
        refine exists_terminal_append.trans ((or_iff_left ?_).trans (hs.terminal id'))
        rintro ⟨h, -⟩
        exact absurd (hrunning.symm.trans h) (by decide)
      last := by
        apply terminalLast_append hs.last
        intro e he heq
        exact hunfinished.2 e he (heq.trans hname)
      events := (congrArg (pushEvent · _) hs.events).trans (pushEvent_eq _ _)
      active := by
        intro id' h
        cases h
        exact (isSome_update hsome id).mpr hsome }

theorem Outcome.isTerminal (outcome : Outcome) (toolName : String) (timeoutSecs : ℕ) :
    (outcome.terminal toolName timeoutSecs).1.isTerminal = true := by
  match outcome with
  | .finished (.ok _) => rfl
  | .finished (.error error) => cases error <;> rfl
  | .givenUp _ (some _) => rfl
  | .givenUp .timedOut none => rfl
  | .givenUp .cancelled none => rfl

theorem Faithful.finish (hs : Faithful s) (hu : s.call u = some c) {outcome : Outcome}
    (hposition : c.position = .draining outcome) (clock : Clock) :
    Faithful (s.finish u c outcome clock) := by
  have hrunning : s.Has c.opId (· ≠ .returned) := ⟨u, c, hu, rfl, by simp [hposition]⟩
  have hsome := (hs.current c.opId).mpr hrunning
  have hunfinished := hs.unfinished_iff.mpr hsome
  obtain ⟨state, hcurrent⟩ := Option.isSome_iff_exists.mp hsome
  have hname : state.opId = c.opId := hs.named _ state hcurrent
  have hhas (id : String) (p : Position → Prop) :
      (s.setCall u { c with position := .returned }).Has id p ↔
        c.opId = id ∧ p .returned ∨ c.opId ≠ id ∧ s.Has id p := by
    rw [has_setCall, has_iff hu]
    by_cases heq : c.opId = id
    · have hother : ¬∃ v d, v ≠ u ∧ s.call v = some d ∧ d.opId = id ∧ p d.position := by
        rintro ⟨v, d, hne, hv, hid, -⟩
        exact hne (hs.unique hv hu (hid.trans heq.symm))
      rw [or_iff_left hother]
      simp [heq]
    · simp [heq]
  rw [State.finish, OperationRegistry.finish, hcurrent]
  exact {
    fresh := by
      intro v hv
      have hne : v ≠ u := by
        rintro rfl
        rw [hs.fresh v hv] at hu
        cases hu
      exact (Function.update_of_ne hne _ _).trans (hs.fresh v hv)
    id := by
      intro v d hv
      change Function.update s.call u _ v = some d at hv
      rw [Function.update_apply] at hv
      split_ifs at hv with hvu
      · cases hv
        exact hvu ▸ hs.id u c hu
      · exact hs.id v d hv
    current := by
      intro id
      refine Iff.trans ?_ (hhas id (· ≠ .returned)).symm
      change (Function.update s.registry.current c.opId none id).isSome ↔ _
      rw [Function.update_apply, ← hs.current]
      by_cases heq : c.opId = id
      · simp [heq]
      · simp [heq, Ne.symm heq]
    named := by
      intro id state' h
      change Function.update s.registry.current c.opId none id = some state' at h
      rw [Function.update_apply] at h
      split_ifs at h
      exact hs.named id state' h
    terminal := by
      intro id
      refine Iff.trans ?_ (hhas id (· = .returned)).symm
      refine exists_terminal_append.trans ?_
      have hterminal : ((state.finished (outcome.terminal c.toolName c.timeoutSecs).1
          (outcome.terminal c.toolName c.timeoutSecs).2 clock).event clock).isTerminal = true :=
        outcome.isTerminal c.toolName c.timeoutSecs
      have heid : ((state.finished (outcome.terminal c.toolName c.timeoutSecs).1
          (outcome.terminal c.toolName c.timeoutSecs).2 clock).event clock).opId = c.opId := hname
      rw [hterminal, heid, hs.terminal]
      by_cases heq : c.opId = id
      · simp [heq]
      · simp [heq]
    last := by
      apply terminalLast_append hs.last
      intro e he heq
      exact hunfinished.2 e he (heq.trans hname)
    events := (congrArg (pushEvent · _) hs.events).trans (pushEvent_eq _ _)
    active := by
      intro id h
      change (if s.registry.activeOpId = some c.opId then none else s.registry.activeOpId) = some id at h
      split_ifs at h with hactive
      change (Function.update s.registry.current c.opId none id).isSome
      rw [Function.update_of_ne]
      · exact hs.active id h
      · rintro rfl
        exact hactive h }

theorem Faithful.not_has (hs : Faithful s) (now : ℕ) (p : Position → Prop) :
    ¬s.Has (nextOperationId now s.nonce) p := by
  rintro ⟨u, c, hu, hid, -⟩
  obtain ⟨now', hnow⟩ := hs.id u c hu
  have hnonce : u = s.nonce := nextOperationId_injective (hnow.symm.trans hid)
  rw [hnonce, hs.fresh s.nonce (Nat.le_refl _)] at hu
  cases hu

theorem begin_current (s : State) (toolName targetSummary : String) (timeoutSecs : ℕ) (clock : Clock) :
    (s.begin toolName targetSummary timeoutSecs clock).registry.current =
      Function.update s.registry.current (nextOperationId clock.nowMs s.nonce)
        (some (OperationRegistry.queued (nextOperationId clock.nowMs s.nonce) toolName targetSummary
          clock)) := rfl

theorem Faithful.begin (hs : Faithful s) (toolName targetSummary : String) (timeoutSecs : ℕ)
    (clock : Clock) : Faithful (s.begin toolName targetSummary timeoutSecs clock) := by
  have hnone : s.call s.nonce = none := hs.fresh s.nonce (Nat.le_refl _)
  have hnew := hs.not_has clock.nowMs
  have hhas (id : String) (p : Position → Prop) :
      (s.begin toolName targetSummary timeoutSecs clock).Has id p ↔
        nextOperationId clock.nowMs s.nonce = id ∧ p .running ∨ s.Has id p := by
    refine Iff.trans has_setCall (or_congr Iff.rfl ?_)
    constructor
    · rintro ⟨v, d, -, hv, hid, hp⟩
      exact ⟨v, d, hv, hid, hp⟩
    · rintro ⟨v, d, hv, hid, hp⟩
      refine ⟨v, d, ?_, hv, hid, hp⟩
      rintro rfl
      rw [hnone] at hv
      cases hv
  exact {
    fresh := by
      intro v hv
      have hne : v ≠ s.nonce := Nat.ne_of_gt hv
      exact (Function.update_of_ne hne _ _).trans (hs.fresh v (Nat.le_of_lt hv))
    id := by
      intro v d hv
      change Function.update s.call s.nonce _ v = some d at hv
      rw [Function.update_apply] at hv
      split_ifs at hv with hvu
      · cases hv
        exact ⟨clock.nowMs, by rw [hvu]⟩
      · exact hs.id v d hv
    current := by
      intro id
      refine Iff.trans ?_ (hhas id (· ≠ .returned)).symm
      rw [← hs.current, begin_current, Function.update_apply]
      split_ifs with heq
      · simp [heq]
      · simp [Ne.symm heq]
    named := by
      intro id state h
      rw [begin_current, Function.update_apply] at h
      split_ifs at h with heq
      · cases h
        exact heq.symm
      · exact hs.named id state h
    terminal := by
      intro id
      refine Iff.trans ?_ (hhas id (· = .returned)).symm
      refine exists_terminal_append.trans ?_
      rw [hs.terminal, or_comm]
      refine or_congr (iff_of_false ?_ ?_) Iff.rfl
      · rintro ⟨h, -⟩
        cases h
      · rintro ⟨-, h⟩
        cases h
    last := by
      apply terminalLast_append hs.last
      intro e he heq
      rw [← Bool.not_eq_true]
      intro hterminal
      exact hnew (· = .returned) ((hs.terminal _).mp ⟨e, he, hterminal, heq⟩)
    events := (congrArg (pushEvent · _) hs.events).trans (pushEvent_eq _ _)
    active := by
      intro id h
      obtain rfl : nextOperationId clock.nowMs s.nonce = id := Option.some_inj.mp h
      rw [begin_current, Function.update_self]
      rfl }

theorem push_call (s : State) (clock : Clock) (change : Option (OperationRegistry × OperationState)) :
    (s.push clock change).call = s.call := by
  cases change <;> rfl

theorem setCall_call (s : State) (u : ℕ) (c : Call) :
    (s.setCall u c).call = Function.update s.call u (some c) := rfl

theorem finish_call (s : State) (u : ℕ) (c : Call) (outcome : Outcome) (clock : Clock) :
    (s.finish u c outcome clock).call =
      Function.update s.call u (some { c with position := .returned }) := by
  rw [State.finish, setCall_call, push_call]

theorem Faithful.step {a : Action} (hs : Faithful s) (h : step s a = some t) : Faithful t := by
  cases a with
  | begin toolName targetSummary timeoutSecs clock =>
    cases h
    exact hs.begin toolName targetSummary timeoutSecs clock
  | run u turn =>
    obtain ⟨c, hu, hnext⟩ := Option.bind_eq_some_iff.mp h
    rcases next_cases hnext with ⟨c', hkeeps, rfl⟩ | ⟨clock, update, progress, -, rfl⟩ |
      ⟨clock, outcome, -, hposition, rfl⟩
    · exact hs.setCall hu hkeeps.opId hkeeps.returned
    · have hprogress := hs.progress c.opId update.phase update.message clock
      exact hprogress.setCall ((congrFun (push_call ..) u).trans hu) rfl .rfl
    · exact hs.finish hu hposition clock

theorem faithful_of_reachable (h : Reachable step initial s) : Faithful s :=
  invariant_of_reachable (fun _ _ _ hs => hs.step) faithful_initial h

/-- An operation does not finish as the active one while another is unfinished, and no call is dropped
before it has returned. -/
def Allowed (s : State) : Action → Prop
  | .run u (.finish _) => ∀ c, s.call u = some c → s.registry.activeOpId = some c.opId →
      ∀ id, s.Unfinished id → id = c.opId
  | .run _ .drop => False
  | _ => True

structure Tracked (s : State) : Prop where
  idle : s.registry.activeOpId = none → ∀ id, s.registry.current id = none
  kept : ∀ u c, s.call u = some c → c.position ≠ .dropped

theorem tracked_initial : Tracked initial where
  idle _ _ := rfl
  kept _ _ h := by cases h

theorem Tracked.kept_setCall (hs : Tracked s) (hposition : c'.position ≠ .dropped) (v : ℕ) (d : Call)
    (hv : Function.update s.call u (some c') v = some d) : d.position ≠ .dropped := by
  rw [Function.update_apply] at hv
  split_ifs at hv
  · cases hv
    exact hposition
  · exact hs.kept v d hv

theorem Tracked.step {a : Action} (hs : Tracked s) (hf : Faithful s) (hok : Allowed s a)
    (h : step s a = some t) : Tracked t := by
  cases a with
  | begin toolName targetSummary timeoutSecs clock =>
    cases h
    exact ⟨nofun, hs.kept_setCall (by simp)⟩
  | run u turn =>
    obtain ⟨c, hu, hnext⟩ := Option.bind_eq_some_iff.mp h
    have hkept := hs.kept u c hu
    rcases next_cases hnext with ⟨c', hkeeps, rfl⟩ | ⟨clock, update, progress, -, rfl⟩ |
      ⟨clock, outcome, rfl, hposition, rfl⟩
    · refine ⟨hs.idle, hs.kept_setCall fun hdropped => ?_⟩
      rcases hkeeps.dropped hdropped with hold | rfl
      · exact hkept hold
      · exact hok
    · refine ⟨?_, ?_⟩
      · intro hidle
        change (s.push clock _).registry.activeOpId = none at hidle
        change ∀ id, (s.push clock _).registry.current id = none
        cases hcurrent : s.registry.current c.opId with
        | none =>
          simp only [OperationRegistry.recordProgress, hcurrent] at hidle ⊢
          exact hs.idle hidle
        | some state => simp [OperationRegistry.recordProgress, hcurrent, State.push] at hidle
      · rw [setCall_call, push_call]
        exact hs.kept_setCall hkept
    · have hsome := (hf.current c.opId).mpr ⟨u, c, hu, rfl, by simp [hposition]⟩
      obtain ⟨state, hcurrent⟩ := Option.isSome_iff_exists.mp hsome
      refine ⟨?_, ?_⟩
      · rw [State.finish, OperationRegistry.finish, hcurrent]
        intro hidle id
        change (if s.registry.activeOpId = some c.opId then none else s.registry.activeOpId) = none at hidle
        change Function.update s.registry.current c.opId none id = none
        rw [Function.update_apply]
        split_ifs at hidle with hactive
        · split_ifs with hid
          · rfl
          · rw [← Option.not_isSome_iff_eq_none, ← hf.unfinished_iff]
            exact fun hunfinished => hid (hok c hu hactive id hunfinished)
        · rw [hs.idle hidle c.opId] at hcurrent
          cases hcurrent
      · rw [finish_call]
        exact hs.kept_setCall (by simp)

theorem active_eq (hs : Faithful s) {limit : Option ℕ} {clock : Clock} {snapshot : OperationSnapshot}
    (h : (s.registry.recent limit clock).activeOperation = some snapshot) :
    s.registry.activeOpId = some snapshot.opId := by
  obtain ⟨state, hstate, rfl⟩ := Option.map_eq_some_iff.mp h
  obtain ⟨id, hid, hcurrent⟩ := Option.bind_eq_some_iff.mp hstate
  rw [hid]
  exact congrArg some (hs.named id state hcurrent).symm

theorem active_isSome (hs : Faithful s) (limit : Option ℕ) (clock : Clock) :
    (s.registry.recent limit clock).activeOperation.isSome ↔ s.registry.activeOpId.isSome := by
  rw [OperationRegistry.recent, Option.isSome_map]
  cases hactive : s.registry.activeOpId with
  | none => rfl
  | some id => exact iff_of_true (hs.active id hactive) rfl

theorem recent_events (hs : Faithful s) (limit : Option ℕ) (clock : Clock) :
    (s.registry.recent limit clock).recentEvents =
      (s.recorded.reverse.take (min 20 s.recorded.length)).take
        (OperationRegistry.requestedLimit limit) := by
  have hlast : s.recorded.reverse.take (min 20 s.recorded.length) = s.recorded.reverse.take 20 := by
    rw [← List.length_reverse, ← List.take_eq_take_min]
  rw [OperationRegistry.recent, hs.events, reverse_kept, hlast]
  rfl

theorem truthful_of_tracked (hf : Faithful s) (hs : Tracked s) : Truthful s where
  terminalLast := hf.last
  active limit clock := by
    rw [active_isSome hf]
    constructor
    · intro h
      obtain ⟨id, hid⟩ := Option.isSome_iff_exists.mp h
      exact ⟨id, hf.unfinished_iff.mpr (hf.active id hid)⟩
    · rintro ⟨id, hunfinished⟩
      rw [hf.unfinished_iff] at hunfinished
      by_contra hnone
      rw [Option.not_isSome_iff_eq_none] at hnone
      rw [hs.idle hnone id] at hunfinished
      cases hunfinished
  names limit clock snapshot h := hf.unfinished_iff.mpr (hf.active _ (active_eq hf h))
  recentEvents := recent_events hf
  settled hover id := by
    rw [← Option.not_isSome_iff_eq_none, hf.current]
    rintro ⟨u, c, hu, -, hrunning⟩
    exact (hover u c hu).elim hrunning (hs.kept u c hu)

/-- Along a run in which every operation is finished, the active one only as the last, the trail is
truthful in every state. -/
theorem trail_truthful (h : ReachableBy step Allowed initial s) : Truthful s := by
  have hboth : Faithful s ∧ Tracked s := by
    refine invariant_of_meets (I := fun s => Faithful s ∧ Tracked s) ?_
      ⟨faithful_initial, tracked_initial⟩ h
    rintro s a t ⟨hf, hs⟩ hok hstep
    exact ⟨hf.step hstep, hs.step hf hok hstep⟩
  exact truthful_of_tracked hboth.1 hboth.2

def nested : List Action :=
  [.begin "open_idb" "" 600 ⟨0, 0⟩, .begin "survey" "" 600 ⟨0, 0⟩, .run 0 (.settle (.ok ())),
    .run 0 (.drain ⟨0, 0⟩), .run 0 (.finish ⟨0, 0⟩)]

theorem nested_truthful : ∃ s, (s.registry.current (nextOperationId 0 0)).isSome = false ∧
    (s.registry.current (nextOperationId 0 1)).isSome = true ∧ Truthful s := by
  have hmeets : Meets step Allowed initial nested := by
    refine ⟨trivial, fun t ht => ?_⟩
    cases ht
    refine ⟨trivial, fun t ht => ?_⟩
    cases ht
    refine ⟨trivial, fun t ht => ?_⟩
    cases ht
    refine ⟨trivial, fun t ht => ?_⟩
    cases ht
    refine ⟨?_, fun t ht => trivial⟩
    intro c hc hactive
    cases hc
    have hne : nextOperationId 0 1 ≠ nextOperationId 0 0 := by decide +kernel
    exact absurd (Option.some_inj.mp hactive) hne
  have hrun : (run step initial nested).map (fun s =>
      ((s.registry.current (nextOperationId 0 0)).isSome,
        (s.registry.current (nextOperationId 0 1)).isSome)) = some (false, true) := by
    decide +kernel
  obtain ⟨s, hs, hstate⟩ := Option.map_eq_some_iff.mp hrun
  obtain ⟨hfirst, hsecond⟩ := Prod.mk.inj hstate
  exact ⟨s, hfirst, hsecond, trail_truthful ⟨nested, hmeets, hs⟩⟩

/-- The steps that are not allowed for it are those after which an operation runs and none is active. -/
theorem finish_untruthful (hf : Faithful s) (hu : s.call u = some c) {outcome : Outcome}
    (hposition : c.position = .draining outcome) (hactive : s.registry.activeOpId = some c.opId)
    (hother : s.Unfinished id) (hne : id ≠ c.opId) (clock : Clock) :
    ¬Truthful (s.finish u c outcome clock) := by
  intro htruthful
  have hf' := hf.finish hu hposition clock
  have hrunning : s.Has c.opId (· ≠ .returned) := ⟨u, c, hu, rfl, by simp [hposition]⟩
  obtain ⟨state, hcurrent⟩ := Option.isSome_iff_exists.mp ((hf.current c.opId).mpr hrunning)
  have hfinished : (s.finish u c outcome clock).registry.activeOpId = none ∧
      ((s.finish u c outcome clock).registry.current id).isSome := by
    rw [State.finish, OperationRegistry.finish, hcurrent]
    constructor
    · exact if_pos hactive
    · change (Function.update s.registry.current c.opId none id).isSome
      rw [Function.update_of_ne hne]
      exact hf.unfinished_iff.mp hother
  have hsome := (htruthful.active none clock).mpr ⟨id, hf'.unfinished_iff.mpr hfinished.2⟩
  rw [active_isSome hf', hfinished.1] at hsome
  cases hsome

def overlapping : List Action :=
  [.begin "open_idb" "" 600 ⟨0, 0⟩, .begin "survey" "" 600 ⟨0, 0⟩, .run 1 (.settle (.ok ())),
    .run 1 (.drain ⟨0, 0⟩), .run 1 (.finish ⟨0, 0⟩)]

/-- With the operation that started last over, no operation is active while another still runs. -/
theorem overlapping_untruthful : ∃ s, Reachable step initial s ∧ ¬Truthful s := by
  have hrun : (run step initial overlapping).map (fun s =>
      (s.registry.activeOpId, (s.registry.current (nextOperationId 0 0)).isSome)) =
      some (none, true) := by
    decide +kernel
  obtain ⟨s, hs, hstate⟩ := Option.map_eq_some_iff.mp hrun
  obtain ⟨hactive, hcurrent⟩ := Prod.mk.inj hstate
  have hreachable : Reachable step initial s := ⟨overlapping, hs⟩
  have hf := faithful_of_reachable hreachable
  refine ⟨s, hreachable, fun htruthful => ?_⟩
  have hsome := (htruthful.active none ⟨0, 0⟩).mpr ⟨_, hf.unfinished_iff.mpr hcurrent⟩
  rw [active_isSome hf, hactive] at hsome
  cases hsome

theorem dropped_step {a : Action} (hs : Faithful s) (hu : s.call u = some c)
    (hdropped : c.position = .dropped) (h : step s a = some t) :
    ∃ c', t.call u = some c' ∧ c'.opId = c.opId ∧ c'.position = .dropped := by
  have hother {v : ℕ} (d : Call) (hne : u ≠ v) : Function.update s.call v (some d) u = some c :=
    (Function.update_of_ne hne _ _).trans hu
  cases a with
  | begin toolName targetSummary timeoutSecs clock =>
    cases h
    have hne : u ≠ s.nonce := by
      rintro rfl
      rw [hs.fresh s.nonce (Nat.le_refl _)] at hu
      cases hu
    exact ⟨c, hother _ hne, rfl, hdropped⟩
  | run v turn =>
    obtain ⟨d, hv, hnext⟩ := Option.bind_eq_some_iff.mp h
    by_cases hne : u = v
    · subst hne
      cases hu.symm.trans hv
      rcases next_cases hnext with ⟨c', hkeeps, rfl⟩ | ⟨clock, update, progress, -, rfl⟩ |
        ⟨clock, outcome, -, hposition, -⟩
      · exact ⟨c', Function.update_self .., hkeeps.opId, hkeeps.stays hdropped⟩
      · exact ⟨_, Function.update_self .., rfl, hdropped⟩
      · rw [hdropped] at hposition
        cases hposition
    · rcases next_cases hnext with ⟨d', -, rfl⟩ | ⟨clock, update, progress, -, rfl⟩ |
        ⟨clock, outcome, -, -, rfl⟩
      · exact ⟨c, hother _ hne, rfl, hdropped⟩
      · refine ⟨c, ?_, rfl, hdropped⟩
        rw [setCall_call, push_call]
        exact hother _ hne
      · refine ⟨c, ?_, rfl, hdropped⟩
        rw [finish_call]
        exact hother _ hne

theorem dropped_unfinished (hs : Faithful s) (hu : s.call u = some c)
    (hdropped : c.position = .dropped) (h : Reachable step s t) :
    (t.registry.current c.opId).isSome := by
  have hinv : Faithful t ∧ ∃ c', t.call u = some c' ∧ c'.opId = c.opId ∧ c'.position = .dropped := by
    refine invariant_of_reachable (I := fun t => Faithful t ∧
      ∃ c', t.call u = some c' ∧ c'.opId = c.opId ∧ c'.position = .dropped) ?_
      ⟨hs, c, hu, rfl, hdropped⟩ h
    rintro s a t ⟨hf, c', hu', hid, hdropped'⟩ hstep
    obtain ⟨c'', hu'', hid', hdropped''⟩ := dropped_step hf hu' hdropped' hstep
    exact ⟨hf.step hstep, c'', hu'', hid'.trans hid, hdropped''⟩
  obtain ⟨hf, c', hu', hid, hdropped'⟩ := hinv
  exact (hf.current _).mpr ⟨u, c', hu', hid, by simp [hdropped']⟩

end IdaMcp.Trail
