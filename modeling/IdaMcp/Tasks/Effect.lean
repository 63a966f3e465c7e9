import IdaMcp.Tasks.Registry

namespace IdaMcp.Tasks

open Foundation Assoc

def Action.owner : Action → Option TaskOwner
  | createKeyed owner _ _ _ _ => some owner
  | getForOwner owner _ => some owner
  | cancelForOwner owner _ => some owner
  | _ => none

def Action.settles : Action → Option String
  | complete id _ => some id
  | completeWithCancelToken id _ _ _ => some id
  | completeAfterFatalError id _ => some id
  | completeOrDeferCancellation id _ _ => some id
  | fail id _ => some id
  | failAfterCleanupError id _ => some id
  | finishCancelled id _ => some id
  | _ => none

def TaskState.Settled (state : TaskState) : Prop := state.result.isSome ↔ state.status = .completed

/-- What an operation makes of the entry of a task, at some of the times in `times`. -/
structure Evolves (a : Action) (id : String) (times : ℕ → Prop) (e e' : TaskEntry) : Prop where
  owner : e'.owner = e.owner
  sameId : e'.state.id = e.state.id
  key : e'.state.key = e.state.key
  updated : e'.state.updatedAt = e.state.updatedAt ∨ times e'.state.updatedAt
  terminal : e.isRunning = false → e'.state = e.state
  ended : e.isRunning = true → e'.isRunning = false → a.settles = some id ∧ times e'.state.updatedAt
  completed : e'.state.status = .completed → e.state.status = .completed ∨ e.cancelRequested = none ∨
    ∃ result, a = .completeAfterFatalError id result
  failed : e'.state.status = .failed → e.state.status = .failed ∨ e.cancelRequested = none ∨
    ∃ error, a = .failAfterCleanupError id error
  settled : e.state.Settled → e'.state.Settled
  pending : e.cancelRequested.isSome → e'.isRunning → e'.cancelRequested.isSome
  foreign : ∀ owner, a.owner = some owner → owner ≠ e.owner → e' = e

variable {a : Action} {id : String} {times : ℕ → Prop} {e e' : TaskEntry} {now : ℕ}

theorem Evolves.refl : Evolves a id times e e := by
  constructor
  · rfl
  · rfl
  · rfl
  · exact .inl rfl
  · intro _
    rfl
  · intro hrunning hstopped
    rw [hrunning] at hstopped
    cases hstopped
  · exact .inl
  · exact .inl
  · exact fun h => h
  · exact fun h _ => h
  · intro _ _ _
    rfl

theorem Evolves.of_state (ha : a.owner = none) (howner : e'.owner = e.owner) (hstate : e'.state = e.state)
    (hrequested : e'.cancelRequested = e.cancelRequested) : Evolves a id times e e' := by
  constructor
  · exact howner
  · rw [hstate]
  · rw [hstate]
  · exact .inl (by rw [hstate])
  · exact fun _ => hstate
  · intro hrunning hstopped
    rw [TaskEntry.isRunning, hstate, ← TaskEntry.isRunning, hrunning] at hstopped
    cases hstopped
  · rw [hstate]
    exact .inl
  · rw [hstate]
    exact .inl
  · rw [hstate]
    exact fun h => h
  · rw [hrequested]
    exact fun h _ => h
  · intro owner h
    rw [ha] at h
    cases h

theorem Evolves.mono {times' : ℕ → Prop} (h : Evolves a id times e e') (ht : ∀ t, times t → times' t) :
    Evolves a id times' e e' :=
  { h with
    updated := h.updated.imp_right (ht _)
    ended := fun hrunning hstopped => (h.ended hrunning hstopped).imp_right (ht _) }

theorem Evolves.of_running (ha : ∀ owner, a.owner = some owner → owner = e.owner)
    (hrunning : e.isRunning = true) (howner : e'.owner = e.owner) (hid : e'.state.id = e.state.id)
    (hkey : e'.state.key = e.state.key) (hupdated : times e'.state.updatedAt)
    (hended : e'.isRunning = false → a.settles = some id)
    (hcompleted : e'.state.status = .completed → e.cancelRequested = none ∨
      ∃ result, a = .completeAfterFatalError id result)
    (hfailed : e'.state.status = .failed → e.cancelRequested = none ∨
      ∃ error, a = .failAfterCleanupError id error)
    (hsettled : e.state.result = none → e'.state.Settled)
    (hpending : e'.isRunning → e'.cancelRequested = e.cancelRequested ∨ e'.cancelRequested.isSome) :
    Evolves a id times e e' := by
  have hstatus : e.state.status = .running := by simpa [TaskEntry.isRunning] using hrunning
  constructor
  · exact howner
  · exact hid
  · exact hkey
  · exact .inr hupdated
  · intro h
    rw [hrunning] at h
    cases h
  · exact fun _ h => ⟨hended h, hupdated⟩
  · exact fun h => .inr (hcompleted h)
  · exact fun h => .inr (hfailed h)
  · intro h
    apply hsettled
    rw [TaskState.Settled, hstatus] at h
    simpa using h
  · intro h hrun
    rcases hpending hrun with hsame | hsome
    · rwa [hsame]
    · exact hsome
  · intro owner h hne
    exact (hne (ha owner h)).elim

section Entry

variable (htime : times now)
include htime

theorem transitionCancelled_evolves (ha : ∀ owner, a.owner = some owner → owner = e.owner)
    (hsettles : a.settles = some id)    (hrunning : e.isRunning = true) (message : String) :
    Evolves a id times e (e.transitionCancelled message now) := by
  refine Evolves.of_running ha hrunning rfl rfl rfl htime (fun _ => hsettles) ?_ ?_ ?_ ?_
  · nofun
  · nofun
  · intro h
    simp [TaskState.Settled, TaskEntry.transitionCancelled, h]
  · nofun

theorem complete_evolves (ha : a.owner = none) (hsettles : a.settles = some id) (result : Value) :
    Evolves a id times e (e.complete result now).2 := by
  unfold TaskEntry.complete
  split
  · next hrunning =>
    have ha' : ∀ owner, a.owner = some owner → owner = e.owner := by simp [ha]
    split
    · exact transitionCancelled_evolves htime ha' hsettles hrunning _
    · next hnone =>
      refine Evolves.of_running ha' hrunning rfl rfl rfl htime (fun _ => hsettles) ?_ ?_ ?_ ?_
      · exact fun _ => .inl hnone
      · intro h
        cases h
      · simp [TaskState.Settled]
      · intro h
        cases h
  · exact .refl

theorem fail_evolves (ha : a.owner = none) (hsettles : a.settles = some id) (error : String) :
    Evolves a id times e (e.fail error now).2 := by
  unfold TaskEntry.fail
  split
  · next hrunning =>
    have ha' : ∀ owner, a.owner = some owner → owner = e.owner := by simp [ha]
    split
    · exact transitionCancelled_evolves htime ha' hsettles hrunning _
    · next hnone =>
      refine Evolves.of_running ha' hrunning rfl rfl rfl htime (fun _ => hsettles) ?_ ?_ ?_ ?_
      · intro h
        cases h
      · exact fun _ => .inl hnone
      · intro h
        simp [TaskState.Settled, h]
      · intro h
        cases h
  · exact .refl

theorem completeAfterFatalError_evolves (result : Value) :
    Evolves (.completeAfterFatalError id result) id times e (e.completeAfterFatalError result now).2 := by
  unfold TaskEntry.completeAfterFatalError
  split
  · next hrunning =>
    have hcompleted : ({ e with cancelRequested := none } : TaskEntry).isRunning = true := hrunning
    rw [TaskEntry.complete, if_pos hcompleted]
    refine Evolves.of_running (by nofun) hrunning rfl rfl rfl htime (fun _ => rfl) ?_ ?_ ?_ ?_
    · exact fun _ => .inr ⟨result, rfl⟩
    · nofun
    · simp [TaskState.Settled]
    · nofun
  · exact .refl

theorem failAfterCleanupError_evolves (error : String) :
    Evolves (.failAfterCleanupError id error) id times e (e.failAfterCleanupError error now).2 := by
  unfold TaskEntry.failAfterCleanupError
  split
  · next hrunning =>
    refine Evolves.of_running (by nofun) hrunning rfl rfl rfl htime (fun _ => rfl) ?_ ?_ ?_ ?_
    · nofun
    · exact fun _ => .inr ⟨error, rfl⟩
    · intro h
      simp [TaskState.Settled, h]
    · nofun
  · exact .refl

theorem requestCancel_evolves (ha : ∀ owner, a.owner = some owner → owner = e.owner) (message : String) :
    Evolves a id times e (e.requestCancel message now).2 := by
  unfold TaskEntry.requestCancel
  split
  · next h =>
    have hrunning : e.isRunning = true := (Bool.and_eq_true _ _ ▸ h).1
    have hstatus : e.state.status = .running := by simpa [TaskEntry.isRunning] using hrunning
    refine Evolves.of_running ha hrunning rfl rfl rfl htime (fun h => absurd (hrunning.symm.trans h) (by decide)) ?_ ?_ ?_ ?_
    · intro h
      simp [hstatus] at h
    · intro h
      simp [hstatus] at h
    · intro h
      simp [TaskState.Settled, h, hstatus]
    · exact fun _ => .inr rfl
  · exact .refl

theorem finishCancelled_evolves (ha : a.owner = none) (hsettles : a.settles = some id) (message : String) :
    Evolves a id times e (e.finishCancelled message now).2 := by
  unfold TaskEntry.finishCancelled
  split
  · next hrunning => exact transitionCancelled_evolves htime (by simp [ha]) hsettles hrunning message
  · exact .refl

theorem updateMessage_evolves (ha : a.owner = none) (message : String) :
    Evolves a id times e (e.updateMessage message now) := by
  unfold TaskEntry.updateMessage
  split
  · next h =>
    have hrunning : e.isRunning = true := (Bool.and_eq_true _ _ ▸ h).1
    have hstatus : e.state.status = .running := by simpa [TaskEntry.isRunning] using hrunning
    refine Evolves.of_running (by simp [ha]) hrunning rfl rfl rfl htime (fun h => absurd (hrunning.symm.trans h) (by decide)) ?_ ?_ ?_ ?_
    · intro h
      simp [hstatus] at h
    · intro h
      simp [hstatus] at h
    · intro h
      simp [TaskState.Settled, h, hstatus]
    · exact fun _ => .inl rfl
  · exact .refl

end Entry

structure Touches (a : Action) (times : ℕ → Prop) (m m₁ : List (String × TaskEntry)) : Prop where
  keyed : Keyed m → Keyed m₁
  length : m₁.length = m.length
  forward : ∀ id e, (id, e) ∈ m → ∃ e₁, (id, e₁) ∈ m₁ ∧ Evolves a id times e e₁
  backward : ∀ id e₁, (id, e₁) ∈ m₁ → ∃ e, (id, e) ∈ m ∧ Evolves a id times e e₁

variable {m m₁ : List (String × TaskEntry)}

theorem Touches.refl : Touches a times m m :=
  ⟨fun h => h, rfl, fun _ e h => ⟨e, h, .refl⟩, fun _ e h => ⟨e, h, .refl⟩⟩

theorem Touches.of_perm (h : m₁.Perm m) : Touches a times m m₁ := by
  constructor
  · exact fun hm => hm.perm h
  · exact h.length_eq
  · exact fun _ e he => ⟨e, h.mem_iff.mpr he, .refl⟩
  · exact fun _ e he => ⟨e, h.mem_iff.mp he, .refl⟩

theorem Touches.replace (hm : Keyed m) (hmem : (id, e) ∈ m) (h : Evolves a id times e e') :
    Touches a times m (replace m id e') := by
  refine ⟨Keyed.replace, length_replace, ?_, ?_⟩
  · intro id' e₁ he
    by_cases hid : id' = id
    · subst hid
      rw [hm.unique he hmem]
      exact ⟨e', mem_replace.mpr (.inr ⟨rfl, rfl, e, hmem⟩), h⟩
    · exact ⟨e₁, mem_replace.mpr (.inl ⟨hid, he⟩), .refl⟩
  · intro id' e₁ he
    rcases mem_replace.mp he with ⟨_, hold⟩ | ⟨rfl, rfl, _⟩
    · exact ⟨e₁, hold, .refl⟩
    · exact ⟨e, hmem, h⟩

def readings (instant : ℕ → ℕ) (first last : ℕ) (t : ℕ) : Prop :=
  ∃ n, first ≤ n ∧ n < last ∧ t = instant n

variable {instant : ℕ → ℕ} {r r' : TaskRegistry}

theorem readings_mono {first last last' : ℕ} (h : last ≤ last') (t : ℕ)
    (ht : readings instant first last t) : readings instant first last' t := by
  obtain ⟨n, hfirst, hlast, rfl⟩ := ht
  exact ⟨n, hfirst, Nat.lt_of_lt_of_le hlast h, rfl⟩

structure Worked (instant : ℕ → ℕ) (a : Action) (r r₁ : TaskRegistry) : Prop where
  touches : Touches a (readings instant r.reads r₁.reads) r.entries r₁.entries
  reads : r.reads ≤ r₁.reads
  drawn : r₁.drawn = r.drawn

theorem Worked.refl : Worked instant a r r := ⟨.refl, Nat.le_refl _, rfl⟩

open TaskRegistry

theorem update_worked {α : Type} {absent : α} {f : TaskEntry → ℕ → α × TaskEntry}
    (hr : Keyed r.entries)
    (hf : ∀ e (times : ℕ → Prop), times (r.now instant) → Evolves a id times e (f e (r.now instant)).2) :
    Worked instant a r (r.update instant id absent f).2 := by
  unfold update
  split
  · next e hlookup =>
    refine ⟨?_, Nat.le_succ _, rfl⟩
    apply Touches.replace hr (mem_of_lookup hlookup)
    apply hf
    exact ⟨r.reads, Nat.le_refl _, Nat.lt_succ_self _, rfl⟩
  · exact .refl

theorem Touches.of_forall₂
    (h : List.Forall₂ (fun p q => q.1 = p.1 ∧ Evolves a p.1 times p.2 q.2) m m₁) : Touches a times m m₁ := by
  have hkeys : m₁.map Prod.fst = m.map Prod.fst := by
    induction h with
    | nil => rfl
    | cons hpq _ ih => rw [List.map_cons, List.map_cons, hpq.1, ih]
  refine ⟨?_, h.length_eq.symm, ?_, ?_⟩
  · intro hm
    unfold Keyed
    rwa [hkeys]
  · intro id e he
    induction h with
    | nil => cases he
    | cons hpq hrest ih =>
      rcases List.mem_cons.mp he with rfl | hmem
      · refine ⟨_, ?_, hpq.2⟩
        apply List.mem_cons.mpr
        exact .inl (Prod.ext hpq.1.symm rfl)
      · obtain ⟨e₁, he₁, hevolves⟩ := ih (List.cons.inj hkeys).2 hmem
        exact ⟨e₁, List.mem_cons_of_mem _ he₁, hevolves⟩
  · intro id e₁ he
    induction h with
    | nil => cases he
    | cons hpq hrest ih =>
      rcases List.mem_cons.mp he with rfl | hmem
      · obtain ⟨hid, hevolves⟩ := hpq
        dsimp only at hid
        subst hid
        exact ⟨_, List.mem_cons_self, hevolves⟩
      · obtain ⟨e, he, hevolves⟩ := ih (List.cons.inj hkeys).2 hmem
        exact ⟨e, List.mem_cons_of_mem _ he, hevolves⟩

theorem requestEach_forall₂ (ha : a.owner = none) (message : String) (first last : ℕ) {reads : ℕ}
    (m : List (String × TaskEntry)) (hfirst : first ≤ reads) (hlast : reads + m.length ≤ last) :
    List.Forall₂ (fun p q => q.1 = p.1 ∧ Evolves a p.1 (readings instant first last) p.2 q.2) m
      (requestEach instant message reads m).2 := by
  induction m generalizing reads with
  | nil => exact .nil
  | cons p m ih =>
    rw [List.length_cons] at hlast
    refine .cons ⟨rfl, ?_⟩ (ih (by omega) (by omega))
    exact requestCancel_evolves ⟨reads, hfirst, by omega, rfl⟩ (by simp [ha]) message

structure Swept (instant : ℕ → ℕ) (a : Action) (r r' : TaskRegistry) where
  worked : TaskRegistry
  work : Worked instant a r worked
  reads : worked.reads ≤ r'.reads
  drawn : r'.drawn = r.drawn
  sweep : r'.entries = worked.entries ∨ ∃ t, readings instant worked.reads r'.reads t ∧
    r'.entries = worked.entries.filter fun p => retained t p.2

theorem Worked.swept {r₁ : TaskRegistry} (h : Worked instant a r r₁) : Nonempty (Swept instant a r r₁) :=
  ⟨⟨r₁, h, Nat.le_refl _, h.drawn, .inl rfl⟩⟩

theorem Worked.cancel {r₁ : TaskRegistry} (h : Worked instant a r r₁) (cancelled : List CancellationToken) :
    Worked instant a r { r₁ with cancelled } := ⟨h.touches, h.reads, h.drawn⟩

theorem Worked.prune {r₁ : TaskRegistry} (h : Worked instant a r r₁) :
    Nonempty (Swept instant a r (r₁.pruneTerminalTasks instant)) :=
  ⟨⟨r₁, h, Nat.le_succ _, h.drawn, .inr ⟨_, ⟨r₁.reads, Nat.le_refl _, Nat.lt_succ_self _, rfl⟩, rfl⟩⟩⟩

theorem Worked.pruneIf {r₁ : TaskRegistry} (h : Worked instant a r r₁) (changed : Bool) :
    Nonempty (Swept instant a r (r₁.pruneIf instant changed)) := by
  unfold TaskRegistry.pruneIf
  split
  · exact h.prune
  · exact h.swept

theorem settle_swept {f : TaskEntry → ℕ → TaskSettlement × TaskEntry} (hr : Keyed r.entries)
    (hf : ∀ e (times : ℕ → Prop), times (r.now instant) → Evolves a id times e (f e (r.now instant)).2) :
    Nonempty (Swept instant a r (r.settle instant id f).2) :=
  (update_worked hr hf).pruneIf _

def Action.isCreate : Action → Bool
  | createKeyed _ _ _ _ _ => true
  | _ => false

theorem cancelForOwner_evolves {owner : TaskOwner} (htime : times now) :
    Evolves (.cancelForOwner owner id) id times e
      (if e.owner = owner then e.requestCancel "Cancelled by client" now else ((false, []), e)).2 := by
  split
  · next howner =>
    apply requestCancel_evolves htime
    intro owner' h
    cases h
    exact howner.symm
  · exact .refl

theorem perform_swept (hr : Keyed r.entries) (ha : a.isCreate = false)
    (hreorder : ∀ entries, a = .reorder entries → entries.Perm r.entries) :
    Nonempty (Swept instant a r (perform instant r a).2) := by
  cases a with
  | createKeyed => cases ha
  | setCancelToken id token =>
    have hworked : Worked instant (.setCancelToken id token) r
        (r.update instant id [] fun e _ => e.setCancelToken token).2 :=
      update_worked hr fun _ _ _ => .of_state rfl rfl rfl rfl
    exact (hworked.cancel _).swept
  | bindWorkspaceOpen id databaseId =>
    change Nonempty (Swept instant _ r (r.update instant id () _).2)
    refine (update_worked hr ?_).swept
    exact fun _ _ _ => .of_state rfl rfl rfl rfl
  | hasRunningWorkspaceOpen databaseId => exact Worked.refl.prune
  | get id => exact Worked.refl.prune
  | getForOwner owner id => exact Worked.refl.prune
  | updateMessage id message =>
    change Nonempty (Swept instant _ r (r.update instant id () _).2)
    refine (update_worked hr ?_).swept
    exact fun _ _ htime => updateMessage_evolves htime rfl message
  | complete id result =>
    change Nonempty (Swept instant _ r (r.complete instant id result).2)
    exact settle_swept hr fun _ _ htime => complete_evolves htime rfl rfl result
  | completeWithCancelToken id result token cancelMessage =>
    change Nonempty (Swept instant _ r
      (r.completeWithCancelToken instant id result token cancelMessage).2)
    apply settle_swept hr
    intro e times htime
    split
    · exact finishCancelled_evolves htime rfl rfl cancelMessage
    · exact complete_evolves htime rfl rfl result
  | completeAfterFatalError id result =>
    change Nonempty (Swept instant _ r (r.completeAfterFatalError instant id result).2)
    exact settle_swept hr fun _ _ htime => completeAfterFatalError_evolves htime result
  | completeOrDeferCancellation id result token =>
    change Nonempty (Swept instant _ r (r.completeOrDeferCancellation instant id result token).2)
    unfold completeOrDeferCancellation
    dsimp only
    refine (update_worked hr ?_).pruneIf _
    intro e times htime
    have hcomplete : Evolves (.completeOrDeferCancellation id result token) id times e
        (e.complete result (r.now instant)).2 := complete_evolves htime rfl rfl result
    split
    · exact .refl
    · split
      · exact .refl
      · split <;> simp_all
  | fail id error =>
    change Nonempty (Swept instant _ r (r.fail instant id error).2)
    exact settle_swept hr fun _ _ htime => fail_evolves htime rfl rfl error
  | failAfterCleanupError id error =>
    change Nonempty (Swept instant _ r (r.failAfterCleanupError instant id error).2)
    exact settle_swept hr fun _ _ htime => failAfterCleanupError_evolves htime error
  | cancelForOwner owner id =>
    change Nonempty (Swept instant _ r (r.cancelForOwner instant owner id).2)
    unfold cancelForOwner
    dsimp only
    refine Worked.pruneIf (Worked.cancel ?_ _) _
    exact update_worked hr fun _ _ htime => cancelForOwner_evolves htime
  | finishCancelled id message =>
    change Nonempty (Swept instant _ r (r.finishCancelled instant id message).2)
    unfold finishCancelled
    dsimp only
    refine (update_worked hr ?_).pruneIf _
    exact fun _ _ htime => finishCancelled_evolves htime rfl rfl message
  | cancelAllRunning message =>
    change Nonempty (Swept instant _ r (r.cancelAllRunning instant message).2)
    unfold cancelAllRunning
    dsimp only
    apply Worked.pruneIf
    refine ⟨?_, Nat.le_add_right _ _, rfl⟩
    apply Touches.of_forall₂
    exact requestEach_forall₂ rfl message _ _ _ (Nat.le_refl _) (Nat.le_refl _)
  | cancelToken token => exact (Worked.refl.cancel _).swept
  | reorder entries => exact Worked.swept ⟨.of_perm (hreorder entries rfl), Nat.le_refl _, rfl⟩

end IdaMcp.Tasks
