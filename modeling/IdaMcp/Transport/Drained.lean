import IdaMcp.Transport.SaveFirst

namespace IdaMcp.SaveFirst

open Foundation SaveFirstTransport

def Receive.tokens : Receive → ℕ
  | .holding _ | .checked _ => 1
  | _ => 0

structure Drained (s : SaveFirstTransport) : Prop where
  closed : s.shutdown.closed = true
  guards : s.guards = []
  not_checked : ∀ message, s.receive ≠ .checked message

def Settled (d : Drain) : Prop := d = .waiting true ∨ d = .returned

structure Sound (s : SaveFirstTransport) : Prop where
  tokens_eq : s.shutdown.tokens = s.guards.length + s.receive.tokens
  tracker : s.shutdown.trackerClosed = true → s.shutdown.closed = true
  started : ∀ d ∈ s.drains, d ≠ .cancelling → s.shutdown.closed = true
  drained : ∀ d ∈ s.drains, Settled d → Drained s

variable {s t : SaveFirstTransport}

theorem sound_init : Sound init := by
  constructor <;> simp [init, Receive.tokens]

section Fields

variable (s)

@[simp] theorem notify_shutdown : s.notify.shutdown = s.shutdown := by unfold notify; split_ifs <;> rfl
@[simp] theorem notify_receive : s.notify.receive = s.receive := by unfold notify; split_ifs <;> rfl
@[simp] theorem notify_guards : s.notify.guards = s.guards := by unfold notify; split_ifs <;> rfl
@[simp] theorem notify_handedOut : s.notify.handedOut = s.handedOut := by
  unfold notify; split_ifs <;> rfl
@[simp] theorem notify_ended : s.notify.ended = s.ended := by unfold notify; split_ifs <;> rfl
@[simp] theorem notify_failed : s.notify.failed = s.failed := by unfold notify; split_ifs <;> rfl

@[simp] theorem dropToken_saved : s.dropToken.shutdown.saved = s.shutdown.saved := by simp [dropToken]
@[simp] theorem dropToken_ended : s.dropToken.ended = s.ended := by simp [dropToken]
@[simp] theorem dropToken_failed : s.dropToken.failed = s.failed := by simp [dropToken]
@[simp] theorem dropToken_closed : s.dropToken.shutdown.closed = s.shutdown.closed := by simp [dropToken]
@[simp] theorem dropToken_trackerClosed :
    s.dropToken.shutdown.trackerClosed = s.shutdown.trackerClosed := by simp [dropToken]
@[simp] theorem dropToken_tokens : s.dropToken.shutdown.tokens = s.shutdown.tokens - 1 := by
  simp [dropToken]
@[simp] theorem dropToken_receive : s.dropToken.receive = s.receive := by simp [dropToken]
@[simp] theorem dropToken_guards : s.dropToken.guards = s.guards := by simp [dropToken]
@[simp] theorem dropToken_handedOut : s.dropToken.handedOut = s.handedOut := by simp [dropToken]

end Fields

theorem drained_of_empty (htokens : s.shutdown.tokens = s.guards.length + s.receive.tokens)
    (hclosed : s.shutdown.trackerClosed = true → s.shutdown.closed = true)
    (hempty : s.shutdown.isClosedAndEmpty = true) : Drained s := by
  obtain ⟨htracker, hnone⟩ := Bool.and_eq_true_iff.mp hempty
  rw [of_decide_eq_true hnone] at htokens
  refine ⟨hclosed htracker, List.eq_nil_of_length_eq_zero (by omega), ?_⟩
  intro message hchecked
  rw [hchecked, Receive.tokens] at htokens
  omega

theorem mem_notify {d : Drain} (h : d ∈ s.notify.drains) (hsettled : Settled d) :
    (∃ d' ∈ s.drains, Settled d') ∨ s.shutdown.isClosedAndEmpty = true := by
  unfold notify at h
  split_ifs at h with hempty
  · exact Or.inr hempty
  · exact Or.inl ⟨d, h, hsettled⟩

theorem started_notify {d : Drain} (h : d ∈ s.notify.drains) (hd : d ≠ .cancelling) :
    ∃ d' ∈ s.drains, d' ≠ .cancelling := by
  unfold notify at h
  split_ifs at h
  · obtain ⟨d', hd', rfl⟩ := List.mem_map.mp h
    refine ⟨d', hd', ?_⟩
    rintro rfl
    exact hd rfl
  · exact ⟨d, h, hd⟩

theorem Drained.keep (h : Drained s) (hclosed : t.shutdown.closed = true) (hguards : t.guards = s.guards)
    (hreceive : ∀ message, t.receive ≠ .checked message) (hout : t.handedOut = s.handedOut) :
    Drained t ∧ t.handedOut = s.handedOut :=
  ⟨⟨hclosed, hguards.trans h.guards, hreceive⟩, hout⟩

theorem afterTerminalEvent_closed {flags flags' : StdioShutdown} {at' : Terminal} {rest : Option Terminal}
    (h : flags.afterTerminalEvent at' = some (flags', rest)) :
    flags' = flags ∨ flags' = { flags with closed := true } := by
  cases at' with
  | cancelling =>
    obtain ⟨rfl, -⟩ := Prod.mk.inj (Option.some_inj.mp h)
    exact Or.inr rfl
  | deciding =>
    obtain ⟨rfl, -⟩ := Prod.mk.inj (Option.some_inj.mp h)
    exact Or.inl rfl
  | waiting =>
    unfold StdioShutdown.afterTerminalEvent at h
    dsimp only at h
    split_ifs at h
    obtain ⟨rfl, -⟩ := Prod.mk.inj (Option.some_inj.mp h)
    exact Or.inl rfl

theorem afterTerminalEvent_keeps {flags flags' : StdioShutdown} {at' : Terminal} {rest : Option Terminal}
    (h : flags.afterTerminalEvent at' = some (flags', rest)) :
    (flags.closed = true → flags'.closed = true) ∧ flags'.tokens = flags.tokens ∧
      flags'.trackerClosed = flags.trackerClosed := by
  rcases afterTerminalEvent_closed h with rfl | rfl
  · exact ⟨id, rfl, rfl⟩
  · exact ⟨fun _ => rfl, rfl, rfl⟩

theorem step_receiveTerminal (h : s.step .receiveTerminal = some t) :
    ∃ at' flags rest, s.receive = .terminal at' ∧
      s.shutdown.afterTerminalEvent at' = some (flags, rest) ∧
      t = { s with
        shutdown := flags
        receive := rest.elim .idle .terminal
        ended := if rest.isSome then s.ended else s.ended + 1 } := by
  rw [SaveFirstTransport.step] at h
  cases hreceive : s.receive with
  | terminal at' =>
    simp only [hreceive] at h
    obtain ⟨⟨flags, rest⟩, hflags, rfl⟩ := Option.map_eq_some_iff.mp h
    refine ⟨at', flags, rest, rfl, hflags, ?_⟩
    cases rest <;> rfl
  | _ => simp [hreceive] at h

theorem step_sendTerminal {i : ℕ} (h : s.step (.sendTerminal i) = some t) :
    ∃ at' flags rest, s.sends[i]? = some (.terminal at') ∧
      s.shutdown.afterTerminalEvent at' = some (flags, rest) ∧
      t = { s with
        shutdown := flags
        sends := s.sends.set i (rest.elim .done .terminal)
        failed := if rest.isSome then s.failed else s.failed + 1 } := by
  rw [SaveFirstTransport.step] at h
  cases hsend : s.sends[i]? with
  | none => simp [hsend] at h
  | some send =>
    cases send with
    | terminal at' =>
      simp only [hsend] at h
      obtain ⟨⟨flags, rest⟩, hflags, rfl⟩ := Option.map_eq_some_iff.mp h
      refine ⟨at', flags, rest, rfl, hflags, ?_⟩
      cases rest <;> rfl
    | _ => simp [hsend] at h

theorem stepDrain_cases {i : ℕ} (h : s.stepDrain i = some t) : ∃ d, s.drains[i]? = some d ∧
    (d = .cancelling ∧ t = { s with
      shutdown := { s.shutdown with closed := true }, drains := s.drains.set i .closing } ∨
    d = .closing ∧ t = notify { s with
      shutdown := { s.shutdown with trackerClosed := true }, drains := s.drains.set i .starting } ∨
    d ≠ .cancelling ∧ (∃ d', d' ≠ .cancelling ∧
      (Settled d' → s.shutdown.isClosedAndEmpty = true ∨ Settled d) ∧
      t = { s with drains := s.drains.set i d' })) := by
  unfold stepDrain at h
  cases hi : s.drains[i]? with
  | none => simp [hi] at h
  | some d =>
    refine ⟨d, rfl, ?_⟩
    cases d with
    | cancelling =>
      simp only [hi, Option.some_inj] at h
      exact Or.inl ⟨rfl, h.symm⟩
    | closing =>
      simp only [hi, Option.some_inj] at h
      exact Or.inr (Or.inl ⟨rfl, h.symm⟩)
    | starting =>
      simp only [hi, Option.some_inj] at h
      refine Or.inr (Or.inr ⟨nofun, _, ?_, ?_, h.symm⟩)
      · split_ifs <;> exact nofun
      · split_ifs with hempty
        · exact fun _ => Or.inl hempty
        · rintro (hd | hd) <;> exact nomatch hd
    | waiting notified =>
      simp only [hi] at h
      split_ifs at h with hready
      refine Or.inr (Or.inr ⟨nofun, .returned, nofun, fun _ => ?_, (Option.some_inj.mp h).symm⟩)
      rcases Bool.or_eq_true_iff.mp hready with hnotified | hempty
      · exact Or.inr (Or.inl (congrArg Drain.waiting hnotified))
      · exact Or.inl hempty
    | returned => simp [hi] at h

theorem Drained.step (h : Drained s) {a : Act} (hstep : s.step a = some t) :
    Drained t ∧ t.handedOut = s.handedOut := by
  cases a with
  | arm | release | startSend | startDrain | cancelSend i =>
    obtain rfl := Option.some_inj.mp hstep
    exact h.keep h.closed rfl h.not_checked rfl
  | startReceive | seeClosed | cancelReceive =>
    rw [SaveFirstTransport.step] at hstep
    split_ifs at hstep
    obtain rfl := Option.some_inj.mp hstep
    exact h.keep h.closed rfl nofun rfl
  | arrive message =>
    rw [SaveFirstTransport.step] at hstep
    split_ifs at hstep
    obtain rfl := Option.some_inj.mp hstep
    exact h.keep h.closed rfl (by cases message <;> exact nofun) rfl
  | token =>
    rw [SaveFirstTransport.step] at hstep
    cases hreceive : s.receive <;> simp only [hreceive, reduceCtorEq, Option.some_inj] at hstep
    subst hstep
    exact h.keep h.closed rfl nofun rfl
  | check =>
    rw [SaveFirstTransport.step] at hstep
    cases hreceive : s.receive <;>
      simp only [hreceive, h.closed, if_true, reduceCtorEq, Option.some_inj] at hstep
    subst hstep
    exact h.keep ((dropToken_closed s).trans h.closed) (dropToken_guards s) nofun (dropToken_handedOut s)
  | handOut =>
    rw [SaveFirstTransport.step] at hstep
    cases hreceive : s.receive <;> simp only [hreceive, reduceCtorEq] at hstep
    exact absurd hreceive (h.not_checked _)
  | receiveTerminal =>
    obtain ⟨at', flags, rest, -, hflags, rfl⟩ := step_receiveTerminal hstep
    have hclosed := (afterTerminalEvent_keeps hflags).1 h.closed
    exact h.keep hclosed rfl (by cases rest <;> exact nofun) rfl
  | written i ok =>
    rw [SaveFirstTransport.step] at hstep
    split_ifs at hstep
    all_goals
      obtain rfl := Option.some_inj.mp hstep
      exact h.keep h.closed rfl h.not_checked rfl
  | sendTerminal i =>
    obtain ⟨at', flags, rest, -, hflags, rfl⟩ := step_sendTerminal hstep
    have hclosed := (afterTerminalEvent_keeps hflags).1 h.closed
    exact h.keep hclosed rfl h.not_checked rfl
  | cloneGuard i =>
    simp [SaveFirstTransport.step, h.guards] at hstep
  | dropGuard i =>
    simp [SaveFirstTransport.step, h.guards] at hstep
  | drain i =>
    obtain ⟨d, -, ⟨-, rfl⟩ | ⟨-, rfl⟩ | ⟨-, d', -, -, rfl⟩⟩ := stepDrain_cases hstep
    · exact h.keep rfl rfl h.not_checked rfl
    · apply h.keep
      · simpa using h.closed
      · simp
      · simpa using h.not_checked
      · simp
    · exact h.keep h.closed rfl h.not_checked rfl

theorem Sound.keep (h : Sound s) {a : Act} (hstep : s.step a = some t)
    (htokens : t.shutdown.tokens = t.guards.length + t.receive.tokens)
    (htracker : t.shutdown.trackerClosed = true → t.shutdown.closed = true)
    (hstarted : ∀ d ∈ t.drains, d ≠ .cancelling → t.shutdown.closed = true)
    (hsettled : ∀ d ∈ t.drains, Settled d →
      (∃ d' ∈ s.drains, Settled d') ∨ t.shutdown.isClosedAndEmpty = true) : Sound t := by
  refine ⟨htokens, htracker, hstarted, ?_⟩
  intro d hd hsettledDrain
  rcases hsettled d hd hsettledDrain with ⟨d', hd', hsettledDrain⟩ | hempty
  · exact ((h.drained d' hd' hsettledDrain).step hstep).1
  · exact drained_of_empty htokens htracker hempty

theorem Sound.keep_drains (h : Sound s) {a : Act} (hstep : s.step a = some t)
    (htokens : t.shutdown.tokens = t.guards.length + t.receive.tokens)
    (htracker : t.shutdown.trackerClosed = s.shutdown.trackerClosed)
    (hclosed : s.shutdown.closed = true → t.shutdown.closed = true) (hdrains : t.drains = s.drains) :
    Sound t := by
  apply h.keep hstep htokens
  · exact fun htrue => hclosed (h.tracker (htracker ▸ htrue))
  · exact fun d hd hne => hclosed (h.started d (hdrains ▸ hd) hne)
  · exact fun d hd hsettled => Or.inl ⟨d, hdrains ▸ hd, hsettled⟩

theorem Sound.keep_drop (h : Sound s) {a : Act} (hstep : s.step a = some t)
    (htokens : s.shutdown.tokens - 1 = t.guards.length + t.receive.tokens)
    (hshutdown : t.shutdown = s.dropToken.shutdown) (hdrains : t.drains = s.dropToken.drains) :
    Sound t := by
  have hclosed : t.shutdown.closed = s.shutdown.closed := by rw [hshutdown, dropToken_closed]
  apply h.keep hstep
  · rw [hshutdown, dropToken_tokens]
    exact htokens
  · intro htracker
    rw [hshutdown, dropToken_trackerClosed] at htracker
    exact hclosed.trans (h.tracker htracker)
  · intro d hd hne
    rw [hdrains] at hd
    obtain ⟨d', hd', hne'⟩ := started_notify hd hne
    exact hclosed.trans (h.started d' hd' hne')
  · intro d hd hsettled
    rw [hdrains] at hd
    rw [hshutdown, dropToken, notify_shutdown]
    exact mem_notify hd hsettled

theorem Sound.step_drain (h : Sound s) {i : ℕ} (hstep : s.step (.drain i) = some t) : Sound t := by
  obtain ⟨d, hi, hcases⟩ := stepDrain_cases hstep
  have hmem := List.mem_of_getElem? hi
  rcases hcases with ⟨rfl, rfl⟩ | ⟨rfl, rfl⟩ | ⟨hd, d', hd', hsettle, rfl⟩
  · apply h.keep hstep h.tokens_eq (fun _ => rfl) (fun _ _ _ => rfl)
    intro d' hd' hsettled
    rcases List.mem_or_eq_of_mem_set hd' with hd' | rfl
    · exact Or.inl ⟨d', hd', hsettled⟩
    · rcases hsettled with hsettled | hsettled <;> exact nomatch hsettled
  · have hclosed : s.shutdown.closed = true := h.started _ hmem nofun
    apply h.keep hstep
    · simpa using h.tokens_eq
    · simpa using hclosed
    · simpa using fun _ _ _ => hclosed
    · intro d' hd' hsettled
      rw [notify_shutdown]
      rcases mem_notify hd' hsettled with ⟨d', hd', hsettled⟩ | hempty
      · rcases List.mem_or_eq_of_mem_set hd' with hd' | rfl
        · exact Or.inl ⟨d', hd', hsettled⟩
        · rcases hsettled with hsettled | hsettled <;> exact nomatch hsettled
      · exact Or.inr hempty
  · have hclosed : s.shutdown.closed = true := h.started d hmem hd
    apply h.keep hstep h.tokens_eq h.tracker (fun _ _ _ => hclosed)
    intro d'' hd'' hsettled
    rcases List.mem_or_eq_of_mem_set hd'' with hd'' | rfl
    · exact Or.inl ⟨d'', hd'', hsettled⟩
    · rcases hsettle hsettled with hempty | hold
      · exact Or.inr hempty
      · exact Or.inl ⟨d, hmem, hold⟩

theorem Sound.step (h : Sound s) {a : Act} (hstep : s.step a = some t) : Sound t := by
  have hstep' := hstep
  have htokens := h.tokens_eq
  cases a with
  | arm | release | startSend | cancelSend i =>
    obtain rfl := Option.some_inj.mp hstep
    exact h.keep_drains hstep' htokens rfl id rfl
  | startDrain =>
    obtain rfl := Option.some_inj.mp hstep
    apply h.keep hstep' htokens h.tracker
    · intro d hd hne
      rcases List.mem_append.mp hd with hd | hd
      · exact h.started d hd hne
      · exact absurd (List.mem_singleton.mp hd) hne
    · intro d hd hsettled
      rcases List.mem_append.mp hd with hd | hd
      · exact Or.inl ⟨d, hd, hsettled⟩
      · rw [List.mem_singleton.mp hd] at hsettled
        rcases hsettled with hsettled | hsettled <;> exact nomatch hsettled
  | startReceive =>
    rw [SaveFirstTransport.step] at hstep
    split_ifs at hstep with hreceive
    obtain rfl := Option.some_inj.mp hstep
    rw [hreceive] at htokens
    exact h.keep_drains hstep' htokens rfl id rfl
  | seeClosed =>
    rw [SaveFirstTransport.step] at hstep
    split_ifs at hstep with hready
    obtain rfl := Option.some_inj.mp hstep
    rw [hready.1] at htokens
    exact h.keep_drains hstep' htokens rfl id rfl
  | cancelReceive =>
    rw [SaveFirstTransport.step] at hstep
    split_ifs at hstep with hreceive
    obtain rfl := Option.some_inj.mp hstep
    have hnone : s.receive.tokens = 0 := by rcases hreceive with hreceive | hreceive <;> rw [hreceive] <;> rfl
    rw [hnone] at htokens
    exact h.keep_drains hstep' htokens rfl id rfl
  | arrive message =>
    rw [SaveFirstTransport.step] at hstep
    split_ifs at hstep with hreceive
    obtain rfl := Option.some_inj.mp hstep
    rw [hreceive] at htokens
    refine h.keep_drains hstep' ?_ rfl id rfl
    cases message <;> exact htokens
  | token =>
    rw [SaveFirstTransport.step] at hstep
    cases hreceive : s.receive <;> simp only [hreceive, reduceCtorEq, Option.some_inj] at hstep
    subst hstep
    rw [hreceive] at htokens
    exact h.keep_drains hstep' (congrArg (· + 1) htokens) rfl id rfl
  | check =>
    rw [SaveFirstTransport.step] at hstep
    cases hreceive : s.receive with
    | holding message =>
      simp only [hreceive] at hstep
      rw [hreceive] at htokens
      by_cases hclosed : s.shutdown.closed = true
      · rw [if_pos hclosed, Option.some_inj] at hstep
        subst hstep
        apply h.keep_drop hstep' _ rfl rfl
        rw [dropToken_guards, htokens]
        rfl
      · rw [if_neg hclosed, Option.some_inj] at hstep
        subst hstep
        exact h.keep_drains hstep' htokens rfl id rfl
    | _ => simp [hreceive] at hstep
  | handOut =>
    rw [SaveFirstTransport.step] at hstep
    cases hreceive : s.receive with
    | checked message =>
      simp only [hreceive, Option.some_inj] at hstep
      rw [hreceive] at htokens
      unfold SaveFirstTransport.handOut at hstep
      by_cases hrequest : message.kind = .request
      · rw [if_pos hrequest] at hstep
        subst hstep
        refine h.keep_drains hstep' (htokens.trans ?_) rfl id rfl
        rw [List.length_append]
        rfl
      · rw [if_neg hrequest] at hstep
        subst hstep
        apply h.keep_drop hstep' _ rfl rfl
        rw [dropToken_guards, htokens]
        rfl
    | _ => simp [hreceive] at hstep
  | receiveTerminal =>
    obtain ⟨at', flags, rest, hreceive, hflags, rfl⟩ := step_receiveTerminal hstep
    obtain ⟨hclosed, htokens', htracker⟩ := afterTerminalEvent_keeps hflags
    rw [hreceive] at htokens
    refine h.keep_drains hstep' (htokens'.trans (htokens.trans ?_)) htracker hclosed rfl
    cases rest <;> rfl
  | written i ok =>
    rw [SaveFirstTransport.step] at hstep
    split_ifs at hstep
    all_goals
      obtain rfl := Option.some_inj.mp hstep
      exact h.keep_drains hstep' htokens rfl id rfl
  | sendTerminal i =>
    obtain ⟨at', flags, rest, -, hflags, rfl⟩ := step_sendTerminal hstep
    obtain ⟨hclosed, htokens', htracker⟩ := afterTerminalEvent_keeps hflags
    exact h.keep_drains hstep' (htokens'.trans htokens) htracker hclosed rfl
  | cloneGuard i =>
    obtain ⟨request, -, rfl⟩ := Option.map_eq_some_iff.mp hstep
    refine h.keep_drains hstep' ?_ rfl id rfl
    change s.shutdown.tokens + 1 = (s.guards ++ [request]).length + s.receive.tokens
    rw [List.length_append, List.length_singleton]
    omega
  | dropGuard i =>
    rw [SaveFirstTransport.step] at hstep
    split_ifs at hstep with hi
    obtain rfl := Option.some_inj.mp hstep
    apply h.keep_drop hstep' _ rfl rfl
    rw [dropToken_receive, List.length_eraseIdx_of_lt hi]
    omega
  | drain i => exact h.step_drain hstep'

theorem sound_of_run {acts : List Act} (h : run SaveFirstTransport.step init acts = some s) : Sound s :=
  invariant_of_reachable (fun _ _ _ hsound hstep => hsound.step hstep) sound_init ⟨acts, h⟩

theorem Drained.run (h : Drained s) {acts : List Act} (hrun : run SaveFirstTransport.step s acts = some t) :
    Drained t ∧ t.handedOut = s.handedOut := by
  apply invariant_of_reachable (I := fun t => Drained t ∧ t.handedOut = s.handedOut) _ ⟨h, rfl⟩ ⟨acts, hrun⟩
  intro u a v hu hstep
  have hstep := hu.1.step hstep
  exact ⟨hstep.1, hstep.2.trans hu.2⟩

theorem afterTerminalEvent_saved {flags flags' : StdioShutdown} {at' : Terminal} {rest : Option Terminal}
    (h : flags.afterTerminalEvent at' = some (flags', rest)) : flags'.saved = flags.saved := by
  rcases afterTerminalEvent_closed h with rfl | rfl <;> rfl

theorem afterTerminalEvent_over {flags flags' : StdioShutdown} {at' : Terminal}
    (h : flags.afterTerminalEvent at' = some (flags', none)) (harmed : flags.armed = true) :
    flags.saved = true := by
  cases at' <;> simp [StdioShutdown.afterTerminalEvent, harmed] at h
  exact h.1

/-- Nothing else sets the mark of `release`, and an armed transport ends nothing before it is set. -/
structure Patient (s : SaveFirstTransport) (a : Act) (t : SaveFirstTransport) : Prop where
  saved : a ≠ .release → t.shutdown.saved = s.shutdown.saved
  ends : s.shutdown.armed = true → t.ended ≠ s.ended ∨ t.failed ≠ s.failed → s.shutdown.saved = true

theorem Patient.quiet {a : Act} (hsaved : t.shutdown.saved = s.shutdown.saved) (hended : t.ended = s.ended)
    (hfailed : t.failed = s.failed) : Patient s a t := by
  refine ⟨fun _ => hsaved, fun _ hends => ?_⟩
  rcases hends with hends | hends
  · exact absurd hended hends
  · exact absurd hfailed hends

theorem patient_step {a : Act} (hstep : s.step a = some t) : Patient s a t := by
  cases a with
  | release =>
    obtain rfl := Option.some_inj.mp hstep
    exact ⟨fun hne => absurd rfl hne, fun _ hends => absurd hends (by simp)⟩
  | arm | startSend | startDrain | cancelSend i =>
    obtain rfl := Option.some_inj.mp hstep
    exact .quiet rfl rfl rfl
  | startReceive | seeClosed | cancelReceive | arrive message | written i ok =>
    rw [SaveFirstTransport.step] at hstep
    split_ifs at hstep
    all_goals
      obtain rfl := Option.some_inj.mp hstep
      exact .quiet rfl rfl rfl
  | token =>
    rw [SaveFirstTransport.step] at hstep
    cases hreceive : s.receive <;> simp only [hreceive, reduceCtorEq, Option.some_inj] at hstep
    subst hstep
    exact .quiet rfl rfl rfl
  | check =>
    rw [SaveFirstTransport.step] at hstep
    cases hreceive : s.receive <;> simp only [hreceive, reduceCtorEq] at hstep
    split_ifs at hstep
    · obtain rfl := Option.some_inj.mp hstep
      exact .quiet (by simp) (by simp) (by simp)
    · obtain rfl := Option.some_inj.mp hstep
      exact .quiet rfl rfl rfl
  | handOut =>
    rw [SaveFirstTransport.step] at hstep
    cases hreceive : s.receive <;> simp only [hreceive, reduceCtorEq, Option.some_inj] at hstep
    unfold SaveFirstTransport.handOut at hstep
    split_ifs at hstep
    · subst hstep
      exact .quiet rfl rfl rfl
    · subst hstep
      exact .quiet (by simp) (by simp) (by simp)
  | receiveTerminal =>
    obtain ⟨at', flags, rest, -, hflags, rfl⟩ := step_receiveTerminal hstep
    refine ⟨fun _ => afterTerminalEvent_saved hflags, fun harmed hends => ?_⟩
    cases rest with
    | some at'' => exact absurd hends (by simp)
    | none => exact afterTerminalEvent_over hflags harmed
  | sendTerminal i =>
    obtain ⟨at', flags, rest, -, hflags, rfl⟩ := step_sendTerminal hstep
    refine ⟨fun _ => afterTerminalEvent_saved hflags, fun harmed hends => ?_⟩
    cases rest with
    | some at'' => exact absurd hends (by simp)
    | none => exact afterTerminalEvent_over hflags harmed
  | cloneGuard i =>
    obtain ⟨request, -, rfl⟩ := Option.map_eq_some_iff.mp hstep
    exact .quiet rfl rfl rfl
  | dropGuard i =>
    rw [SaveFirstTransport.step] at hstep
    split_ifs at hstep
    obtain rfl := Option.some_inj.mp hstep
    exact .quiet (by simp) (by simp) (by simp)
  | drain i =>
    obtain ⟨d, -, ⟨-, rfl⟩ | ⟨-, rfl⟩ | ⟨-, d', -, -, rfl⟩⟩ := stepDrain_cases hstep
    · exact .quiet rfl rfl rfl
    · exact .quiet (by simp) (by simp) (by simp)
    · exact .quiet rfl rfl rfl

theorem release_of_saved {acts : List Act} (h : run SaveFirstTransport.step s acts = some t)
    (hbefore : s.shutdown.saved = false) (hafter : t.shutdown.saved = true) : .release ∈ acts := by
  induction acts generalizing s with
  | nil =>
    obtain rfl := Option.some_inj.mp h
    exact absurd (hbefore.symm.trans hafter) nofun
  | cons a acts ih =>
    obtain ⟨u, hu, hrest⟩ := run_cons_eq_some.mp h
    by_cases ha : a = .release
    · exact ha ▸ List.mem_cons_self
    · exact List.mem_cons_of_mem _ (ih hrest (((patient_step hu).saved ha).trans hbefore))

/-- When a drain has returned no guard is left and nothing is ever handed out again; and on an armed
transport neither the end of input nor a failed write is reported before the release. -/
theorem save_first_drain (acts : List Act) (s : SaveFirstTransport)
    (h : run SaveFirstTransport.step init acts = some s) :
    (.returned ∈ s.drains → s.guards = [] ∧
      ∀ later t, run SaveFirstTransport.step s later = some t →
        t.guards = [] ∧ t.handedOut = s.handedOut) ∧
    ∀ a t, s.step a = some t → s.shutdown.armed = true → t.ended ≠ s.ended ∨ t.failed ≠ s.failed →
      .release ∈ acts := by
  constructor
  · intro hreturned
    have hdrained : Drained s := (sound_of_run h).drained _ hreturned (Or.inr rfl)
    refine ⟨hdrained.guards, fun later t hlater => ?_⟩
    obtain ⟨hlast, hout⟩ := hdrained.run hlater
    exact ⟨hlast.guards, hout⟩
  · intro a t hstep harmed hends
    exact release_of_saved h rfl ((patient_step hstep).ends harmed hends)

def settledRequest : List Act :=
  [.arm, .startReceive, .arrive (some ⟨.request, "ping"⟩), .token, .check, .handOut, .cloneGuard 0,
    .startDrain, .drain 0, .drain 0, .drain 0, .dropGuard 0, .dropGuard 0, .drain 0,
    .startReceive, .seeClosed, .receiveTerminal, .receiveTerminal]

theorem save_first_drain_settled : ∃ s, run SaveFirstTransport.step init settledRequest = some s ∧
    .returned ∈ s.drains ∧ s.handedOut = [⟨.request, "ping"⟩] ∧ s.guards = [] ∧
    ∀ later t, run SaveFirstTransport.step s later = some t → t.handedOut = s.handedOut := by
  have h := save_first_drain settledRequest _ rfl
  obtain ⟨hguards, hlater⟩ := h.1 List.mem_cons_self
  exact ⟨_, rfl, List.mem_cons_self, rfl, hguards, fun later t hrun => (hlater later t hrun).2⟩

end IdaMcp.SaveFirst
