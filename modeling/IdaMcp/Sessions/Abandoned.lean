import IdaMcp.Sessions.Disconnects

namespace IdaMcp.Sessions

open Foundation

def Guard.isLive : Guard → Bool
  | .live _ => true
  | _ => false

@[simp] theorem isLive_pending : Guard.pending.isLive = false := rfl
@[simp] theorem isLive_live (generation : ℕ) : (Guard.live generation).isLive = true := rfl
@[simp] theorem isLive_finished (e : Ending) : (Guard.finished e).isLive = false := rfl

namespace Session

def liveGuards (s : Session) : ℕ := s.streams.countP fun stream => stream.guard.isLive

def entry (s : Session) : DisconnectState := s.state.getD DisconnectState.default

/-- At time `now` every stream of the session has ended long enough ago, and one that closes on
drop was dropped after the last stream was created. -/
structure Abandoned (grace now : ℕ) (s : Session) : Prop where
  ended : ∀ stream ∈ s.streams, ∃ e, stream.guard = .finished e ∧ e.time + grace ≤ now
  dropped : ∃ stream ∈ s.streams, stream.closeOnDrop = true ∧
    ∃ e, stream.guard = .finished e ∧ e.dropped = true ∧ ∀ stream' ∈ s.streams, stream'.created < e.round

end Session

/-- What the cleanup relies on: when its check allows the close no stream is still to be counted,
and none is created before the close; streams end inside the runtime; and the generation does not
wrap around. -/
def Session.Orderly (s : Session) : SessionAct → Prop
  | .create _ => ∀ c ∈ s.cleanups, c.phase ≠ .closing
  | .check i => ∀ c ∈ s.cleanups[i]?, (s.state.any fun state => state.shouldClose c.generation) = true →
      ∀ stream ∈ s.streams, stream.guard ≠ .pending
  | .streamOpened _ => s.entry.generation + 1 < 2 ^ 64
  | .spawn _ inRuntime => inRuntime = true
  | _ => True

def Orderly (m : Manager) : Act → Prop
  | .tick => True
  | .session id a => (m.sessions id).Orderly a

instance : ∀ (s : Session) (a : SessionAct), Decidable (s.Orderly a)
  | s, .create _ => inferInstanceAs (Decidable (∀ c ∈ s.cleanups, c.phase ≠ .closing))
  | s, .check i => inferInstanceAs (Decidable (∀ c ∈ s.cleanups[i]?,
      (s.state.any fun state => state.shouldClose c.generation) = true →
        ∀ stream ∈ s.streams, stream.guard ≠ .pending))
  | s, .streamOpened _ => inferInstanceAs (Decidable (s.entry.generation + 1 < 2 ^ 64))
  | _, .spawn _ inRuntime => inferInstanceAs (Decidable (inRuntime = true))
  | _, .finish _ _ | _, .close _ | _, .closeSession _ | _, .sessionClosed => isTrue trivial

instance : ∀ (m : Manager) (a : Act), Decidable (Orderly m a)
  | _, .tick => isTrue trivial
  | m, .session id a => inferInstanceAs (Decidable ((m.sessions id).Orderly a))

def Counted (m : Manager) : Prop :=
  ∀ id, (m.sessions id).closed = false →
    (m.sessions id).entry.activeStreams = (m.sessions id).liveGuards

def ClosesAbandoned (grace : ℕ) (m : Manager) : Prop :=
  ∀ id i m', m.step grace (.session id (.close i)) = some m' → (m.sessions id).closed = false →
    (m'.sessions id).closed = true → (m.sessions id).Abandoned grace m.now

/-- What holds of a session that is not closed, in round `round` at time `now`. -/
structure Tended (grace round now : ℕ) (s : Session) : Prop where
  remembered : s.forgetting = 0
  created_lt : ∀ stream ∈ s.streams, stream.created < round
  ended_le : ∀ stream ∈ s.streams, ∀ e, stream.guard = .finished e → e.time ≤ now
  active_eq : s.entry.activeStreams = s.liveGuards
  active_le : s.entry.activeStreams ≤ s.entry.generation
  generation_lt : s.entry.generation < 2 ^ 64
  live_le : ∀ stream ∈ s.streams, ∀ g, stream.guard = .live g → g ≤ s.entry.generation
  abandoned_le : ∀ g, s.entry.abandonedGeneration = some g → g ≤ s.entry.generation
  abandoned_by : ∀ g, s.entry.abandonedGeneration = some g →
    ∃ stream ∈ s.streams, stream.closeOnDrop = true ∧ ∃ e, stream.guard = .finished e ∧
      e.dropped = true ∧ ∀ stream' ∈ s.streams, stream'.guard ≠ .pending → stream'.created < e.round
  cleanup_le : ∀ c ∈ s.cleanups, c.generation ≤ s.entry.generation
  cleanup_ne : ∀ c ∈ s.cleanups, ∀ stream ∈ s.streams, stream.guard ≠ .live c.generation
  settled : ∀ c ∈ s.cleanups, s.entry.abandonedGeneration = some c.generation →
    s.entry.activeStreams = 0
  slept : ∀ c ∈ s.cleanups, s.entry.abandonedGeneration = some c.generation →
    ∀ since, c.phase = .sleeping since →
      ∀ stream ∈ s.streams, ∀ e, stream.guard = .finished e → e.time ≤ since
  closing : ∀ c ∈ s.cleanups, c.phase = .closing → s.Abandoned grace now

variable {grace round now : ℕ} {s t : Session}

theorem tended_fresh (grace round now : ℕ) : Tended grace round now Session.fresh := by
  constructor <;> simp [Session.fresh, Session.entry, DisconnectState.default, Session.liveGuards]

theorem Session.Abandoned.later (h : s.Abandoned grace now) {now' : ℕ} (hle : now ≤ now') :
    s.Abandoned grace now' where
  ended := by
    intro stream hstream
    obtain ⟨e, he, htime⟩ := h.ended stream hstream
    exact ⟨e, he, Nat.le_trans htime hle⟩
  dropped := h.dropped

theorem Tended.later (h : Tended grace round now s) {round' now' : ℕ} (hround : round ≤ round')
    (hnow : now ≤ now') : Tended grace round' now' s :=
  { h with
    created_lt := fun stream hs => Nat.lt_of_lt_of_le (h.created_lt stream hs) hround
    ended_le := fun stream hs e he => Nat.le_trans (h.ended_le stream hs e he) hnow
    closing := fun c hc hphase => (h.closing c hc hphase).later hnow }

theorem Session.live_of_mem {i : ℕ} {stream : TrackedStream} (hi : s.streams[i]? = some stream)
    (hlive : stream.guard.isLive = true) : 0 < s.liveGuards :=
  List.countP_pos_iff.mpr ⟨stream, List.mem_of_getElem? hi, hlive⟩

theorem Session.Abandoned.finished (h : s.Abandoned grace now) {i : ℕ} {stream : TrackedStream}
    (hi : s.streams[i]? = some stream) : ∃ e, stream.guard = .finished e := by
  obtain ⟨e, he, -⟩ := h.ended stream (List.mem_of_getElem? hi)
  exact ⟨e, he⟩

/-! A stream that changes leaves the others as they are. -/

section Set

variable {streams : List TrackedStream} {i : ℕ} {old new stream : TrackedStream}

theorem mem_of_mem_set (h : stream ∈ streams.set i new) : stream ∈ streams ∨ stream = new :=
  List.mem_or_eq_of_mem_set h

theorem mem_set_of_ne (hi : streams[i]? = some old) (h : stream ∈ streams) (hne : stream ≠ old) :
    stream ∈ streams.set i new := by
  obtain ⟨j, hj⟩ := List.mem_iff_getElem?.mp h
  have hij : i ≠ j := by
    rintro rfl
    exact hne (Option.some_inj.mp (hj.symm.trans hi))
  exact List.mem_iff_getElem?.mpr ⟨j, (List.getElem?_set_ne hij).trans hj⟩

theorem countP_live_set (hi : streams[i]? = some old) (new : TrackedStream) :
    (streams.set i new).countP (fun stream => stream.guard.isLive) +
        (if old.guard.isLive then 1 else 0) =
      streams.countP (fun stream => stream.guard.isLive) + if new.guard.isLive then 1 else 0 := by
  obtain ⟨hlt, hget⟩ := List.getElem?_eq_some_iff.mp hi
  rw [List.countP_set hlt, hget]
  have hpos : old.guard.isLive = true → 0 < streams.countP fun stream => stream.guard.isLive :=
    fun hlive => List.countP_pos_iff.mpr ⟨old, List.mem_of_getElem? hi, hlive⟩
  split_ifs with hold hnew
  · have := hpos hold
    omega
  · have := hpos hold
    omega
  · omega
  · omega

end Set

section Steps

variable {i : ℕ} {closeOnDrop : Bool} {created : ℕ}

theorem Tended.create (h : Tended grace round now s) (request : StreamRequest)
    (hclosing : ∀ c ∈ s.cleanups, c.phase ≠ .closing) : Tended grace (round + 1) now
      { s with streams := s.streams ++ [⟨request.closeOnDrop, round, .pending⟩] } := by
  have hmem {stream : TrackedStream} {P : TrackedStream → Prop} (hold : ∀ stream ∈ s.streams, P stream)
      (hnew : P ⟨request.closeOnDrop, round, .pending⟩)
      (hstream : stream ∈ s.streams ++ [⟨request.closeOnDrop, round, .pending⟩]) : P stream := by
    rcases List.mem_append.mp hstream with hstream | hstream
    · exact hold stream hstream
    · exact List.mem_singleton.mp hstream ▸ hnew
  refine ⟨h.remembered, ?_, ?_, ?_, h.active_le, h.generation_lt, ?_, h.abandoned_le, ?_,
    h.cleanup_le, ?_, h.settled, ?_, ?_⟩
  · intro stream hstream
    apply hmem (fun old hold => ?_) (Nat.lt_succ_self round) hstream
    exact Nat.lt_succ_of_lt (h.created_lt old hold)
  · intro stream hstream
    exact hmem (P := fun stream => ∀ e, stream.guard = .finished e → e.time ≤ now) h.ended_le
      (fun e he => nomatch he) hstream
  · refine h.active_eq.trans ?_
    rw [Session.liveGuards, Session.liveGuards, List.countP_append]
    rfl
  · intro stream hstream
    exact hmem (P := fun stream => ∀ g, stream.guard = .live g → g ≤ s.entry.generation) h.live_le
      (fun g hg => nomatch hg) hstream
  · intro g hg
    obtain ⟨stream, hstream, hclose, e, he, hdropped, hlast⟩ := h.abandoned_by g hg
    refine ⟨stream, List.mem_append_left _ hstream, hclose, e, he, hdropped, ?_⟩
    intro stream' hstream'
    exact hmem (P := fun stream => stream.guard ≠ .pending → stream.created < e.round) hlast
      (fun hne => absurd rfl hne) hstream'
  · intro c hc stream hstream
    exact hmem (P := fun stream => stream.guard ≠ .live c.generation) (h.cleanup_ne c hc)
      (fun hg => nomatch hg) hstream
  · intro c hc hg since hphase stream hstream
    exact hmem (P := fun stream => ∀ e, stream.guard = .finished e → e.time ≤ since)
      (h.slept c hc hg since hphase) (fun e he => nomatch he) hstream
  · exact fun c hc hphase => absurd hphase (hclosing c hc)

theorem Tended.streamOpened (h : Tended grace round now s)
    (hi : s.streams[i]? = some ⟨closeOnDrop, created, .pending⟩)
    (hwrap : s.entry.generation + 1 < 2 ^ 64) : Tended grace (round + 1) now
      { s with
        state := some s.entry.streamOpened
        streams := s.streams.set i ⟨closeOnDrop, created, .live s.entry.streamOpened.generation⟩ } := by
  have hgeneration : s.entry.streamOpened.generation = s.entry.generation + 1 := Nat.mod_eq_of_lt hwrap
  have hactive : s.entry.streamOpened.activeStreams = s.entry.activeStreams + 1 := by
    have hle := h.active_le
    exact Nat.min_eq_left (by omega)
  rw [hgeneration]
  refine ⟨h.remembered, ?_, ?_, ?_, ?_, ?_, ?_, ?_, ?_,
    ?_, ?_, ?_, ?_, ?_⟩
  · intro stream hstream
    rcases mem_of_mem_set hstream with hstream | rfl
    · exact Nat.lt_succ_of_lt (h.created_lt stream hstream)
    · exact Nat.lt_succ_of_lt
        (h.created_lt ⟨closeOnDrop, created, .pending⟩ (List.mem_of_getElem? hi))
  · intro stream hstream e he
    rcases mem_of_mem_set hstream with hstream | rfl
    · exact h.ended_le stream hstream e he
    · exact nomatch he
  · have hcount := countP_live_set hi ⟨closeOnDrop, created, .live (s.entry.generation + 1)⟩
    have hsame := h.active_eq
    simp only [isLive_pending, isLive_live, Bool.false_eq_true, if_false, if_true] at hcount
    exact hactive.trans (by rw [hsame]; exact hcount.symm)
  · have hle := h.active_le
    change s.entry.streamOpened.activeStreams ≤ s.entry.streamOpened.generation
    omega
  · change s.entry.streamOpened.generation < 2 ^ 64
    omega
  · intro stream hstream g hg
    change g ≤ s.entry.streamOpened.generation
    rw [hgeneration]
    rcases mem_of_mem_set hstream with hstream | rfl
    · exact Nat.le_succ_of_le (h.live_le stream hstream g hg)
    · exact Nat.le_of_eq (Guard.live.inj hg).symm
  · exact fun g hg => nomatch hg
  · exact fun g hg => nomatch hg
  · intro c hc
    exact Nat.le_trans (Nat.le_succ_of_le (h.cleanup_le c hc)) (Nat.le_of_eq hgeneration.symm)
  · intro c hc stream hstream hg
    rcases mem_of_mem_set hstream with hstream | rfl
    · exact h.cleanup_ne c hc stream hstream hg
    · have hle := h.cleanup_le c hc
      have heq := Guard.live.inj hg
      omega
  · exact fun c _ hg => nomatch hg
  · exact fun c _ hg => nomatch hg
  · intro c hc hphase
    obtain ⟨e, he⟩ := (h.closing c hc hphase).finished hi
    exact nomatch he

theorem Tended.finish (h : Tended grace round now s) {generation : ℕ} (dropped : Bool)
    (hi : s.streams[i]? = some ⟨closeOnDrop, created, .live generation⟩)
    {state : DisconnectState} (hstate : s.state = some state) : Tended grace (round + 1) now
      { s with
        streams := s.streams.set i ⟨closeOnDrop, created, .finished ⟨round, now, dropped⟩⟩
        state := some (state.streamClosed generation (dropped && closeOnDrop))
        cleanups := s.cleanups ++
          ((state.streamClosed generation (dropped && closeOnDrop)).closeGeneration.map
            fun g => ⟨g, .spawning⟩).toList } := by
  have hentry : s.entry = state := by rw [Session.entry, hstate, Option.getD_some]
  have hmem := List.mem_of_getElem? hi
  have hcreated : created < round := h.created_lt _ hmem
  have hgeneration : generation ≤ state.generation := hentry ▸ h.live_le _ hmem generation rfl
  have hlive : 0 < state.activeStreams := by
    rw [← hentry, h.active_eq]
    exact Session.live_of_mem hi rfl
  have hcount := countP_live_set hi ⟨closeOnDrop, created, .finished ⟨round, now, dropped⟩⟩
  have hnew : ⟨closeOnDrop, created, .finished ⟨round, now, dropped⟩⟩ ∈
      s.streams.set i ⟨closeOnDrop, created, .finished ⟨round, now, dropped⟩⟩ :=
    List.mem_set (List.getElem?_eq_some_iff.mp hi).1 _
  have hactive : state.activeStreams - 1 =
      (s.streams.set i ⟨closeOnDrop, created, .finished ⟨round, now, dropped⟩⟩).countP
        fun stream => stream.guard.isLive := by
    have hsame := h.active_eq
    rw [hentry, Session.liveGuards] at hsame
    simp only [isLive_live, isLive_finished, Bool.false_eq_true, if_false, if_true] at hcount
    omega
  have habandoned (g : ℕ) (hg : (state.streamClosed generation (dropped && closeOnDrop)).abandonedGeneration =
      some g) : (dropped && closeOnDrop) = true ∧ g = generation ∨ state.abandonedGeneration = some g := by
    unfold DisconnectState.streamClosed at hg
    dsimp only at hg
    split_ifs at hg with hflag
    · exact Or.inl ⟨hflag, (Option.some_inj.mp hg).symm⟩
    · exact Or.inr hg
  have hle (g : ℕ) (hg : (state.streamClosed generation (dropped && closeOnDrop)).abandonedGeneration =
      some g) : g ≤ state.generation := by
    rcases habandoned g hg with ⟨-, rfl⟩ | hg
    · exact hgeneration
    · exact hentry ▸ h.abandoned_le g (hentry ▸ hg)
  have hother (c : Cleanup) (hc : c ∈ s.cleanups) :
      (state.streamClosed generation (dropped && closeOnDrop)).abandonedGeneration ≠
        some c.generation := by
    intro hg
    rcases habandoned _ hg with ⟨-, hsame⟩ | hg
    · exact h.cleanup_ne c hc _ hmem (congrArg Guard.live hsame.symm)
    · have hidle := h.settled c hc (hentry ▸ hg)
      rw [hentry] at hidle
      omega
  have hcleanup (c : Cleanup) (hc : c ∈ s.cleanups ++
      ((state.streamClosed generation (dropped && closeOnDrop)).closeGeneration.map
        fun g => ⟨g, .spawning⟩).toList) : c ∈ s.cleanups ∨ c.phase = .spawning ∧
      (state.streamClosed generation (dropped && closeOnDrop)).abandonedGeneration = some c.generation ∧
      state.activeStreams - 1 = 0 := by
    rcases List.mem_append.mp hc with hc | hc
    · exact Or.inl hc
    · obtain ⟨g, hg, rfl⟩ := Option.map_eq_some_iff.mp (Option.mem_toList.mp hc)
      unfold DisconnectState.closeGeneration at hg
      split_ifs at hg with hidle
      exact Or.inr ⟨rfl, hg, hidle⟩
  refine ⟨h.remembered, ?_, ?_, hactive, ?_, ?_, ?_, hle, ?_, ?_, ?_, ?_, ?_, ?_⟩
  · intro stream hstream
    rcases mem_of_mem_set hstream with hstream | rfl
    · exact Nat.lt_succ_of_lt (h.created_lt stream hstream)
    · exact Nat.lt_succ_of_lt hcreated
  · intro stream hstream e he
    rcases mem_of_mem_set hstream with hstream | rfl
    · exact h.ended_le stream hstream e he
    · exact Nat.le_of_eq (congrArg Ending.time (Guard.finished.inj he)).symm
  · have hle := h.active_le
    rw [hentry] at hle
    exact Nat.le_trans (Nat.sub_le _ 1) hle
  · have hlt := h.generation_lt
    rw [hentry] at hlt
    exact hlt
  · intro stream hstream g hg
    rcases mem_of_mem_set hstream with hstream | rfl
    · have hle := h.live_le stream hstream g hg
      rw [hentry] at hle
      exact hle
    · exact nomatch hg
  · intro g hg
    rcases habandoned g hg with ⟨hflag, -⟩ | hg
    · obtain ⟨hdropped, hclose⟩ := Bool.and_eq_true_iff.mp hflag
      refine ⟨_, hnew, hclose, _, rfl, hdropped, ?_⟩
      intro stream hstream _
      rcases mem_of_mem_set hstream with hstream | rfl
      · exact h.created_lt stream hstream
      · exact hcreated
    · obtain ⟨stream, hstream, hclose, e, he, hdropped, hlast⟩ := h.abandoned_by g (hentry ▸ hg)
      have hne : stream ≠ ⟨closeOnDrop, created, .live generation⟩ := by
        rintro rfl
        exact nomatch he
      refine ⟨stream, mem_set_of_ne hi hstream hne, hclose, e, he, hdropped, ?_⟩
      intro stream' hstream' hcounted
      rcases mem_of_mem_set hstream' with hstream' | rfl
      · exact hlast stream' hstream' hcounted
      · exact hlast ⟨closeOnDrop, created, .live generation⟩ hmem fun hg => nomatch hg
  · intro c hc
    rcases hcleanup c hc with hc | ⟨-, hg, -⟩
    · have hle := h.cleanup_le c hc
      rw [hentry] at hle
      exact hle
    · exact hle _ hg
  · intro c hc stream hstream hg
    rcases hcleanup c hc with hc | ⟨-, -, hidle⟩
    · rcases mem_of_mem_set hstream with hstream | rfl
      · exact h.cleanup_ne c hc stream hstream hg
      · exact nomatch hg
    · have hnone := List.countP_eq_zero.mp (hactive.symm.trans hidle) stream hstream
      rw [hg] at hnone
      exact hnone rfl
  · intro c hc hg
    rcases hcleanup c hc with hc | ⟨-, -, hidle⟩
    · exact absurd hg (hother c hc)
    · exact hidle
  · intro c hc hg since hphase
    rcases hcleanup c hc with hc | ⟨hspawning, -, -⟩
    · exact absurd hg (hother c hc)
    · exact nomatch hspawning.symm.trans hphase
  · intro c hc hphase
    rcases hcleanup c hc with hc | ⟨hspawning, -, -⟩
    · obtain ⟨e, he⟩ := (h.closing c hc hphase).finished hi
      exact nomatch he
    · exact nomatch hspawning.symm.trans hphase

theorem Tended.setPhase (h : Tended grace round now s) {c : Cleanup} (hi : s.cleanups[i]? = some c)
    {phase : Phase} (hslept : ∀ since, phase = .sleeping since → since = now)
    (hclosing : phase = .closing → s.Abandoned grace now) :
    Tended grace (round + 1) now (s.setPhase i c phase) := by
  have hmem := List.mem_of_getElem? hi
  have hcleanup (c' : Cleanup) (hc : c' ∈ (s.setPhase i c phase).cleanups) :
      c' ∈ s.cleanups ∨ c'.generation = c.generation ∧ c'.phase = phase := by
    rcases List.mem_or_eq_of_mem_set hc with hc | rfl
    · exact Or.inl hc
    · exact Or.inr ⟨rfl, rfl⟩
  refine ⟨h.remembered, fun stream hs => Nat.lt_succ_of_lt (h.created_lt stream hs), h.ended_le,
    h.active_eq, h.active_le, h.generation_lt, h.live_le, h.abandoned_le, h.abandoned_by,
    ?_, ?_, ?_, ?_, ?_⟩
  · intro c' hc
    rcases hcleanup c' hc with hc | ⟨hsame, -⟩
    · exact h.cleanup_le c' hc
    · exact hsame ▸ h.cleanup_le c hmem
  · intro c' hc
    rcases hcleanup c' hc with hc | ⟨hsame, -⟩
    · exact h.cleanup_ne c' hc
    · exact hsame ▸ h.cleanup_ne c hmem
  · intro c' hc
    rcases hcleanup c' hc with hc | ⟨hsame, -⟩
    · exact h.settled c' hc
    · exact hsame ▸ h.settled c hmem
  · intro c' hc hg since hphase
    rcases hcleanup c' hc with hc | ⟨-, hsame⟩
    · exact h.slept c' hc hg since hphase
    · rw [hslept since (hsame.symm.trans hphase)]
      exact h.ended_le
  · intro c' hc hphase
    rcases hcleanup c' hc with hc | ⟨-, hsame⟩
    · exact ⟨(h.closing c' hc hphase).ended, (h.closing c' hc hphase).dropped⟩
    · have habandoned := hclosing (hsame.symm.trans hphase)
      exact ⟨habandoned.ended, habandoned.dropped⟩

theorem Tended.abandoned (h : Tended grace round now s) {c : Cleanup} (hc : c ∈ s.cleanups)
    {since : ℕ} (hphase : c.phase = .sleeping since) (hslept : since + grace ≤ now)
    (hshould : (s.state.any fun state => state.shouldClose c.generation) = true)
    (hpending : ∀ stream ∈ s.streams, stream.guard ≠ .pending) : s.Abandoned grace now := by
  obtain ⟨state, hstate, hshould⟩ := (Option.any_eq_true _ _).mp hshould
  have hentry : s.entry = state := by rw [Session.entry, hstate, Option.getD_some]
  obtain ⟨hgeneration, hidle⟩ := Bool.and_eq_true_iff.mp hshould
  have habandoned : s.entry.abandonedGeneration = some c.generation := by
    rw [hentry]
    exact of_decide_eq_true hgeneration
  have hnone : s.liveGuards = 0 := by
    rw [← h.active_eq, hentry]
    exact of_decide_eq_true hidle
  have hfinished (stream : TrackedStream) (hstream : stream ∈ s.streams) :
      ∃ e, stream.guard = .finished e := by
    cases hguard : stream.guard with
    | pending => exact absurd hguard (hpending stream hstream)
    | live generation =>
      have hdead := List.countP_eq_zero.mp hnone stream hstream
      rw [hguard] at hdead
      exact absurd rfl hdead
    | finished e => exact ⟨e, rfl⟩
  constructor
  · intro stream hstream
    obtain ⟨e, he⟩ := hfinished stream hstream
    have hle := h.slept c hc habandoned since hphase stream hstream e he
    exact ⟨e, he, by omega⟩
  · obtain ⟨stream, hstream, hclose, e, he, hdropped, hlast⟩ := h.abandoned_by _ habandoned
    exact ⟨stream, hstream, hclose, e, he, hdropped,
      fun stream' hstream' => hlast stream' hstream' (hpending stream' hstream')⟩

theorem Session.step_tended {a : SessionAct} (hs : s.closed = false → Tended grace round now s)
    (horder : s.Orderly a) (hstep : s.step grace round now a = some t) (hopen : t.closed = false) :
    Tended grace (round + 1) now t := by
  cases a with
  | create request =>
    obtain rfl := Option.some_inj.mp hstep
    exact (hs hopen).create request horder
  | streamOpened i =>
    rw [Session.step] at hstep
    cases hi : s.streams[i]? with
    | none => simp [hi] at hstep
    | some stream =>
      obtain ⟨closeOnDrop, created, guard⟩ := stream
      cases guard with
      | pending =>
        simp only [hi, Option.some_inj] at hstep
        subst hstep
        exact (hs hopen).streamOpened hi horder
      | live generation => simp [hi] at hstep
      | finished e => simp [hi] at hstep
  | finish i dropped =>
    rw [Session.step] at hstep
    cases hi : s.streams[i]? with
    | none => simp [hi] at hstep
    | some stream =>
      obtain ⟨closeOnDrop, created, guard⟩ := stream
      cases guard with
      | pending => simp [hi] at hstep
      | live generation =>
        cases hstate : s.state with
        | none =>
          simp only [hi, hstate, Option.some_inj] at hstep
          subst hstep
          have hactive := (hs hopen).active_eq
          rw [Session.entry, hstate] at hactive
          exact absurd hactive (Nat.ne_of_lt (Session.live_of_mem hi rfl))
        | some state =>
          simp only [hi, hstate, Option.some_inj] at hstep
          subst hstep
          exact (hs hopen).finish dropped hi hstate
      | finished e =>
        simp only [hi, Option.some_inj] at hstep
        subst hstep
        exact (hs hopen).later (Nat.le_succ round) (Nat.le_refl now)
  | spawn i inRuntime =>
    obtain rfl : inRuntime = true := horder
    rw [Session.step] at hstep
    cases hi : s.cleanups[i]? with
    | none => simp [hi] at hstep
    | some c =>
      obtain ⟨generation, phase⟩ := c
      cases phase with
      | spawning =>
        simp only [hi, if_true, Option.some_inj] at hstep
        subst hstep
        exact (hs hopen).setPhase hi (fun since h => (Phase.sleeping.inj h).symm) fun h => nomatch h
      | sleeping since => simp [hi] at hstep
      | closing => simp [hi] at hstep
      | done => simp [hi] at hstep
  | check i =>
    rw [Session.step] at hstep
    cases hi : s.cleanups[i]? with
    | none => simp [hi] at hstep
    | some c =>
      obtain ⟨generation, phase⟩ := c
      cases phase with
      | spawning => simp [hi] at hstep
      | sleeping since =>
        simp only [hi] at hstep
        by_cases hslept : since + grace ≤ now
        · rw [if_pos hslept] at hstep
          by_cases hshould : (s.state.any fun state => state.shouldClose generation) = true
          · rw [if_pos hshould, Option.some_inj] at hstep
            subst hstep
            have h := hs hopen
            refine h.setPhase hi (fun since h => nomatch h) fun _ => ?_
            exact h.abandoned (List.mem_of_getElem? hi) rfl hslept hshould (horder _ hi hshould)
          · rw [if_neg hshould, Option.some_inj] at hstep
            subst hstep
            exact (hs hopen).setPhase hi (fun since h => nomatch h) fun h => nomatch h
        · simp [hslept] at hstep
      | closing => simp [hi] at hstep
      | done => simp [hi] at hstep
  | close i =>
    rw [Session.step] at hstep
    cases hi : s.cleanups[i]? with
    | none => simp [hi] at hstep
    | some c =>
      obtain ⟨generation, phase⟩ := c
      cases phase with
      | spawning => simp [hi] at hstep
      | sleeping since => simp [hi] at hstep
      | closing =>
        simp only [hi, Option.some_inj] at hstep
        subst hstep
        exact nomatch hopen
      | done => simp [hi] at hstep
  | closeSession ok =>
    obtain rfl := Option.some_inj.mp hstep
    exact nomatch hopen
  | sessionClosed =>
    rw [Session.step] at hstep
    by_cases hforget : 0 < s.forgetting
    · rw [if_pos hforget, Option.some_inj] at hstep
      subst hstep
      exact absurd (hs hopen).remembered (Nat.ne_of_gt hforget)
    · simp [hforget] at hstep

end Steps

def ManagerTended (grace : ℕ) (m : Manager) : Prop :=
  ∀ id, (m.sessions id).closed = false → Tended grace m.round m.now (m.sessions id)

theorem managerTended_step (grace : ℕ) (m : Manager) (a : Act) (m' : Manager)
    (h : ManagerTended grace m) (horder : Orderly m a) (hstep : m.step grace a = some m') :
    ManagerTended grace m' := by
  intro id hopen
  cases a with
  | tick =>
    obtain rfl := Option.some_inj.mp hstep
    exact (h id hopen).later (Nat.le_succ _) (Nat.le_succ _)
  | session id' a =>
    obtain ⟨t, ht, rfl⟩ := Option.map_eq_some_iff.mp hstep
    by_cases hid : id = id'
    · subst hid
      simp only [Function.update_self] at hopen ⊢
      exact Session.step_tended (h id) horder ht hopen
    · simp only [Function.update_of_ne hid] at hopen ⊢
      exact (h id hopen).later (Nat.le_succ _) (Nat.le_refl _)

/-- In every orderly run the open streams are counted and only abandoned sessions are closed. -/
theorem closes_only_abandoned (grace : ℕ) (m : Manager)
    (h : ReachableBy (Manager.step grace) Orderly Manager.init m) :
    Counted m ∧ ClosesAbandoned grace m := by
  have htended : ManagerTended grace m :=
    invariant_of_meets (managerTended_step grace) (fun _ _ => tended_fresh grace 0 0) h
  constructor
  · exact fun id hopen => (htended id hopen).active_eq
  · intro id i m' hstep hopen _
    obtain ⟨t, ht, -⟩ := Option.map_eq_some_iff.mp hstep
    rw [Session.step] at ht
    cases hi : (m.sessions id).cleanups[i]? with
    | none => simp [hi] at ht
    | some c =>
      obtain ⟨generation, phase⟩ := c
      cases phase with
      | closing => exact (htended id hopen).closing _ (List.mem_of_getElem? hi) rfl
      | spawning => simp [hi] at ht
      | sleeping since => simp [hi] at ht
      | done => simp [hi] at ht

def abandonment : List Act :=
  [.session "a" (.create .createStandaloneStream), .session "a" (.streamOpened 0),
    .session "a" (.finish 0 true), .session "a" (.spawn 0 true), .tick, .session "a" (.check 0)]

/-- After the check the client reconnects, and its session is closed all the same. -/
theorem close_after_reconnect : ¬∀ grace m,
    Reachable (Manager.step grace) Manager.init m → Counted m ∧ ClosesAbandoned grace m := by
  intro h
  have hclose := (h 1 _ ⟨abandonment ++ [.session "a" (.create .createStandaloneStream),
    .session "a" (.streamOpened 1)], rfl⟩).2 "a" 0 _ rfl rfl rfl
  obtain ⟨e, he, -⟩ := hclose.ended ⟨true, 6, .live 2⟩ (List.mem_cons_of_mem _ List.mem_cons_self)
  exact nomatch he

theorem closes_only_abandoned_after_grace : ∃ m,
    run (Manager.step 1) Manager.init abandonment = some m ∧ Counted m ∧ ClosesAbandoned 1 m ∧
    (m.step 1 (.session "a" (.close 0))).isSome := by
  refine ⟨_, rfl, ?_⟩
  have h := closes_only_abandoned 1 _ ⟨abandonment, by decide, rfl⟩
  exact ⟨h.1, h.2, rfl⟩

end IdaMcp.Sessions
