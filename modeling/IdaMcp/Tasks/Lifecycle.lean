import IdaMcp.Tasks.Create

namespace IdaMcp.Tasks

open Foundation Assoc TaskRegistry

/-- A UUID is drawn once and has 32 digits, and another order is one of the same entries. -/
def Allowed (r : TaskRegistry) : Action → Prop
  | .createKeyed _ _ _ _ uuid => uuid.length = 32 ∧ uuid ∉ r.drawn
  | .reorder entries => entries.Perm r.entries
  | _ => True

def step (instant : ℕ → ℕ) (r : TaskRegistry) (a : Action) : Option TaskRegistry :=
  some (perform instant r a).2

variable {instant : ℕ → ℕ} {r r' : TaskRegistry} {a : Action} {id : String} {e e' : TaskEntry}

structure Consistent (r : TaskRegistry) : Prop where
  keyed : Keyed r.entries
  bounded : r.entries.length ≤ maxTaskRegistryEntries
  named : ∀ id e, (id, e) ∈ r.entries → e.state.id = id
  issued : ∀ id e, (id, e) ∈ r.entries → ∃ taskPrefix uuid, uuid ∈ r.drawn ∧ id = nextTaskId taskPrefix uuid
  digits : ∀ uuid ∈ r.drawn, uuid.length = 32
  settled : ∀ id e, (id, e) ∈ r.entries → e.state.Settled
  single : ∀ id e id' e', (id, e) ∈ r.entries → (id', e') ∈ r.entries → e.isRunning = true →
    e'.isRunning = true → e.state.key = e'.state.key → id = id'

theorem nextTaskId_inj {taskPrefix taskPrefix' uuid uuid' : String} (hu : uuid.length = 32)
    (hu' : uuid'.length = 32) (h : nextTaskId taskPrefix uuid = nextTaskId taskPrefix' uuid') :
    uuid = uuid' := by
  have hlist := congrArg String.toList h
  simp only [nextTaskId, String.toList_append] at hlist
  have hlength : uuid.toList.length = uuid'.toList.length := by
    rw [String.length_toList, String.length_toList, hu, hu']
  exact String.toList_inj.mp (List.append_inj' hlist hlength).2

theorem Swept.backward (h : Swept instant a r r') (he : (id, e') ∈ r'.entries) :
    ∃ e, (id, e) ∈ r.entries ∧ Evolves a id (readings instant r.reads r'.reads) e e' := by
  have hworked : (id, e') ∈ h.worked.entries := by
    rcases h.sweep with hsame | ⟨t, _, hpruned⟩
    · rwa [hsame] at he
    · rw [hpruned] at he
      exact (List.mem_filter.mp he).1
  obtain ⟨e, hmem, hevolves⟩ := h.work.touches.backward id e' hworked
  exact ⟨e, hmem, hevolves.mono (readings_mono h.reads)⟩

theorem Swept.forward (h : Swept instant a r r') (he : (id, e) ∈ r.entries) :
    ∃ e₁, Evolves a id (readings instant r.reads r'.reads) e e₁ ∧ ((id, e₁) ∈ r'.entries ∨
      e₁.isRunning = false ∧ ∃ t, readings instant r.reads r'.reads t ∧
        taskRetentionTtlMs ≤ t - e₁.state.updatedAt) := by
  obtain ⟨e₁, hmem, hevolves⟩ := h.work.touches.forward id e he
  refine ⟨e₁, hevolves.mono (readings_mono h.reads), ?_⟩
  rcases h.sweep with hsame | ⟨t, ⟨n, hfirst, hlast, rfl⟩, hpruned⟩
  · exact .inl (by rwa [hsame])
  · by_cases hretained : retained (instant n) e₁ = true
    · exact .inl (hpruned ▸ List.mem_filter.mpr ⟨hmem, hretained⟩)
    · simp only [retained, Bool.or_eq_true, decide_eq_true_eq, not_or, Bool.not_eq_true,
        Nat.not_lt] at hretained
      exact .inr ⟨hretained.1, _, ⟨n, Nat.le_trans h.work.reads hfirst, hlast, rfl⟩, hretained.2⟩

theorem Swept.keyed (h : Swept instant a r r') (hr : Keyed r.entries) : Keyed r'.entries := by
  have hworked := h.work.touches.keyed hr
  rcases h.sweep with hsame | ⟨t, _, hpruned⟩
  · rwa [hsame]
  · rw [hpruned]
    exact hworked.filter _

theorem Swept.length (h : Swept instant a r r') : r'.entries.length ≤ r.entries.length := by
  rw [← h.work.touches.length]
  rcases h.sweep with hsame | ⟨t, _, hpruned⟩
  · rw [hsame]
  · rw [hpruned]
    exact List.length_filter_le _ _

theorem Evolves.isRunning {times : ℕ → Prop} (h : Evolves a id times e e') (he' : e'.isRunning = true) :
    e.isRunning = true := by
  by_contra hstopped
  rw [Bool.not_eq_true] at hstopped
  have hstate := h.terminal hstopped
  rw [TaskEntry.isRunning, hstate] at he'
  rw [TaskEntry.isRunning, he'] at hstopped
  cases hstopped

theorem Consistent.swept (hr : Consistent r) (h : Swept instant a r r') : Consistent r' := by
  constructor
  · exact h.keyed hr.keyed
  · exact Nat.le_trans h.length hr.bounded
  · intro id e' he'
    obtain ⟨e, he, hevolves⟩ := h.backward he'
    rw [hevolves.sameId]
    exact hr.named id e he
  · intro id e' he'
    obtain ⟨e, he, _⟩ := h.backward he'
    rw [h.drawn]
    exact hr.issued id e he
  · rw [h.drawn]
    exact hr.digits
  · intro id e' he'
    obtain ⟨e, he, hevolves⟩ := h.backward he'
    exact hevolves.settled (hr.settled id e he)
  · intro id₁ e₁' id₂ e₂' he₁' he₂' hrun₁ hrun₂ hkey
    obtain ⟨e₁, he₁, hevolves₁⟩ := h.backward he₁'
    obtain ⟨e₂, he₂, hevolves₂⟩ := h.backward he₂'
    apply hr.single id₁ e₁ id₂ e₂ he₁ he₂ (hevolves₁.isRunning hrun₁) (hevolves₂.isRunning hrun₂)
    rw [← hevolves₁.key, ← hevolves₂.key, hkey]

section Create

variable {owner : TaskOwner} {taskPrefix key message uuid : String} {kept m : List (String × TaskEntry)}
  {now : ℕ} {result : Except TaskCreateError String}

theorem Creates.mem (h : Creates owner taskPrefix key message uuid kept now result m)
    (he : (id, e) ∈ m) : (id, e) ∈ kept ∨ result = .ok (nextTaskId taskPrefix uuid) ∧
      id = nextTaskId taskPrefix uuid ∧
      e = admitted owner (nextTaskId taskPrefix uuid) key message now := by
  cases h with
  | duplicate => exact .inl he
  | full => exact .inl he
  | room =>
    rcases List.mem_cons.mp he with heq | hold
    · cases heq
      exact .inr ⟨rfl, rfl, rfl⟩
    · exact .inl hold
  | reclaimed =>
    rcases List.mem_cons.mp he with heq | hold
    · cases heq
      exact .inr ⟨rfl, rfl, rfl⟩
    · exact .inl (mem_remove.mp hold).1

theorem Consistent.fresh (hr : Consistent r) (hlength : uuid.length = 32) (hfresh : uuid ∉ r.drawn)
    (e : TaskEntry) : (nextTaskId taskPrefix uuid, e) ∉ r.entries := by
  intro he
  obtain ⟨taskPrefix', uuid', hdrawn, hid⟩ := hr.issued _ e he
  rw [nextTaskId_inj hlength (hr.digits uuid' hdrawn) hid] at hfresh
  exact hfresh hdrawn

theorem Creates.keyed (h : Creates owner taskPrefix key message uuid kept now result m)
    (hkept : Keyed kept) (hfresh : ∀ e, (nextTaskId taskPrefix uuid, e) ∉ kept) : Keyed m := by
  cases h with
  | duplicate => exact hkept
  | full => exact hkept
  | room => exact hkept.cons hfresh
  | reclaimed => exact (hkept.filter _).cons fun e he => hfresh e (mem_remove.mp he).1

theorem Creates.length (h : Creates owner taskPrefix key message uuid kept now result m)
    (hkept : Keyed kept) (hbound : kept.length ≤ maxTaskRegistryEntries) :
    m.length ≤ maxTaskRegistryEntries := by
  cases h with
  | duplicate => exact hbound
  | full => exact hbound
  | room _ hlength => exact hlength
  | reclaimed _ hlength hmem =>
    rw [List.length_cons, length_remove hkept hmem, hlength]

theorem Creates.single (h : Creates owner taskPrefix key message uuid kept now result m)
    (hkept : ∀ id e id' e', (id, e) ∈ kept → (id', e') ∈ kept → e.isRunning = true →
      e'.isRunning = true → e.state.key = e'.state.key → id = id') {id₁ id₂ : String} {e₁ e₂ : TaskEntry}
    (he₁ : (id₁, e₁) ∈ m) (he₂ : (id₂, e₂) ∈ m) (hrun₁ : e₁.isRunning = true)
    (hrun₂ : e₂.isRunning = true) (hkey : e₁.state.key = e₂.state.key) : id₁ = id₂ := by
  have alone {id : String} {e : TaskEntry} (he : (id, e) ∈ kept) (hrun : e.isRunning = true)
      (hnew : result = .ok (nextTaskId taskPrefix uuid)) : e.state.key ≠ some key := by
    cases h with
    | duplicate => cases hnew
    | full => cases hnew
    | room hunique => exact hunique id e he hrun
    | reclaimed hunique => exact hunique id e he hrun
  rcases h.mem he₁ with hold₁ | ⟨hnew, rfl, rfl⟩
  · rcases h.mem he₂ with hold₂ | ⟨hnew, rfl, rfl⟩
    · exact hkept id₁ e₁ id₂ e₂ hold₁ hold₂ hrun₁ hrun₂ hkey
    · exact (alone hold₁ hrun₁ hnew hkey).elim
  · rcases h.mem he₂ with hold₂ | ⟨_, rfl, rfl⟩
    · exact (alone hold₂ hrun₂ hnew hkey.symm).elim
    · rfl

theorem Consistent.createKeyed (hr : Consistent r) (hlength : uuid.length = 32)
    (hfresh : uuid ∉ r.drawn) :
    Consistent (r.createKeyed instant owner taskPrefix key message uuid).2 := by
  have hcreates := createKeyed_creates instant hr.keyed hr.bounded owner taskPrefix key
    message uuid
  have hdrawn := createKeyed_drawn r instant owner taskPrefix key message uuid
  have hold {id : String} {e : TaskEntry} (he : (id, e) ∈ (r.pruneTerminalTasks instant).entries) :
      (id, e) ∈ r.entries := (List.mem_filter.mp he).1
  have hkept : Keyed (r.pruneTerminalTasks instant).entries := hr.keyed.filter _
  constructor
  · exact hcreates.keyed hkept fun e he => hr.fresh hlength hfresh e (hold he)
  · exact hcreates.length hkept (Nat.le_trans (List.length_filter_le _ _) hr.bounded)
  · intro id e he
    rcases hcreates.mem he with hkeep | ⟨_, rfl, rfl⟩
    · exact hr.named id e (hold hkeep)
    · rfl
  · intro id e he
    rw [hdrawn]
    rcases hcreates.mem he with hkeep | ⟨hok, rfl, rfl⟩
    · obtain ⟨taskPrefix', uuid', hmem, hid⟩ := hr.issued id e (hold hkeep)
      refine ⟨taskPrefix', uuid', ?_, hid⟩
      split
      · exact List.mem_cons_of_mem _ hmem
      · exact hmem
    · rw [hok]
      exact ⟨taskPrefix, uuid, List.mem_cons_self, rfl⟩
  · intro uuid' hmem
    rw [hdrawn] at hmem
    split at hmem
    · rcases List.mem_cons.mp hmem with rfl | hmem
      · exact hlength
      · exact hr.digits uuid' hmem
    · exact hr.digits uuid' hmem
  · intro id e he
    rcases hcreates.mem he with hkeep | ⟨_, rfl, rfl⟩
    · exact hr.settled id e (hold hkeep)
    · simp [TaskState.Settled, admitted, TaskEntry.new]
  · intro id₁ e₁ id₂ e₂ he₁ he₂
    exact hcreates.single (fun id e id' e' he he' => hr.single id e id' e' (hold he) (hold he')) he₁ he₂

end Create

theorem perform_swept_of_allowed (instant : ℕ → ℕ) (hr : Consistent r) (ha : a.isCreate = false)
    (hallowed : Allowed r a) :
    Nonempty (Swept instant a r (perform instant r a).2) := by
  apply perform_swept hr.keyed ha
  rintro entries rfl
  exact hallowed

theorem Consistent.perform (hr : Consistent r) (hallowed : Allowed r a) :
    Consistent (perform instant r a).2 := by
  cases ha : a.isCreate with
  | false =>
    obtain ⟨hswept⟩ := perform_swept_of_allowed instant hr ha hallowed
    exact hr.swept hswept
  | true =>
    cases a with
    | createKeyed owner taskPrefix key message uuid =>
      exact hr.createKeyed hallowed.1 hallowed.2
    | _ => cases ha

theorem Consistent.run (hr : Consistent r) (h : ReachableBy (step instant) Allowed r r') :
    Consistent r' := by
  apply invariant_of_meets ?_ hr h
  intro r a r' hr hallowed hstep
  cases hstep
  exact hr.perform hallowed

theorem consistent_of_reachable (h : ReachableBy (step instant) Allowed .new r) : Consistent r := by
  have hnone (id : String) (e : TaskEntry) : (id, e) ∉ new.entries := List.not_mem_nil
  have hnew : Consistent new :=
    ⟨List.nodup_nil, Nat.zero_le _, fun id e he => (hnone id e he).elim,
      fun id e he => (hnone id e he).elim, fun _ h => (List.not_mem_nil h).elim,
      fun id e he => (hnone id e he).elim, fun id e _ _ he => (hnone id e he).elim⟩
  exact hnew.run h

theorem perform_backward (hr : Consistent r) (hallowed : Allowed r a)
    (he : (id, e') ∈ (perform instant r a).2.entries) :
    (∃ e, (id, e) ∈ r.entries ∧
      Evolves a id (readings instant r.reads (perform instant r a).2.reads) e e') ∨
    a.isCreate = true ∧ ∃ taskPrefix uuid, uuid.length = 32 ∧ uuid ∉ r.drawn ∧
      id = nextTaskId taskPrefix uuid := by
  cases ha : a.isCreate with
  | false =>
    obtain ⟨hswept⟩ := perform_swept_of_allowed instant hr ha hallowed
    exact .inl (hswept.backward he)
  | true =>
    cases a with
    | createKeyed owner taskPrefix key message uuid =>
      have hcreates := createKeyed_creates instant hr.keyed hr.bounded owner taskPrefix
        key message uuid
      rcases hcreates.mem he with hkept | ⟨_, rfl, _⟩
      · exact .inl ⟨e', (List.mem_filter.mp hkept).1, .refl⟩
      · exact .inr ⟨rfl, taskPrefix, uuid, hallowed.1, hallowed.2, rfl⟩
    | _ => cases ha

theorem perform_drawn (hr : Consistent r) (hallowed : Allowed r a) {uuid : String}
    (h : uuid ∈ r.drawn) : uuid ∈ (perform instant r a).2.drawn := by
  cases ha : a.isCreate with
  | false =>
    obtain ⟨hswept⟩ := perform_swept_of_allowed instant hr ha hallowed
    rwa [hswept.drawn]
  | true =>
    cases a with
    | createKeyed owner taskPrefix key message uuid' =>
      have hdrawn := createKeyed_drawn r instant owner taskPrefix key message uuid'
      change uuid ∈ (r.createKeyed instant owner taskPrefix key message uuid').2.drawn
      rw [hdrawn]
      split
      · exact List.mem_cons_of_mem _ h
      · exact h
    | _ => cases ha

/-- What every operation keeps of the entry of a task holds of it as long as it is there, since its
id is never given to another task. -/
theorem entry_of_run {P : TaskEntry → Prop} {taskPrefix uuid : String} (hr : Consistent r)
    (hdrawn : uuid ∈ r.drawn) (hP : ∀ e, (nextTaskId taskPrefix uuid, e) ∈ r.entries → P e)
    (hevolves : ∀ a times e e', Evolves a (nextTaskId taskPrefix uuid) times e e' → P e → P e')
    (h : ReachableBy (step instant) Allowed r r') :
    ∀ e, (nextTaskId taskPrefix uuid, e) ∈ r'.entries → P e := by
  have hall : Consistent r' ∧ uuid ∈ r'.drawn ∧
      ∀ e, (nextTaskId taskPrefix uuid, e) ∈ r'.entries → P e := by
    apply invariant_of_meets ?_ ⟨hr, hdrawn, hP⟩ h
    rintro r a r' ⟨hr, hdrawn, hP⟩ hallowed hstep
    cases hstep
    refine ⟨hr.perform hallowed, perform_drawn hr hallowed hdrawn, ?_⟩
    intro e' he'
    rcases perform_backward hr hallowed he' with ⟨e, he, hstep⟩ | ⟨_, taskPrefix', uuid', hlength, hnew, hid⟩
    · exact hevolves _ _ _ _ hstep (hP e he)
    · rw [nextTaskId_inj (hr.digits uuid hdrawn) hlength hid] at hdrawn
      exact (hnew hdrawn).elim
  exact hall.2.2

def Accepts (instant : ℕ → ℕ) (r : TaskRegistry) (id : String) : Action → Prop
  | .cancelForOwner owner id' =>
    id' = id ∧ (r.cancelForOwner instant owner id).1 = true
  | .cancelAllRunning _ => ∃ e, (id, e) ∈ r.entries ∧ e.isRunning = true ∧ e.cancelRequested = none
  | _ => False

theorem requestCancel_pending (e : TaskEntry) (message : String) (now : ℕ)
    (h : (e.requestCancel message now).2.isRunning = true) :
    (e.requestCancel message now).2.cancelRequested.isSome = true := by
  unfold TaskEntry.requestCancel at h ⊢
  split
  · rfl
  · next hnot =>
    rw [if_neg hnot] at h
    dsimp only at h ⊢
    rw [h, Bool.true_and] at hnot
    cases hrequested : e.cancelRequested with
    | none => simp [hrequested] at hnot
    | some message => rfl

theorem requestEach_pending (message : String) (reads : ℕ) (m : List (String × TaskEntry))
    (he : (id, e) ∈ (requestEach instant message reads m).2) (hrunning : e.isRunning = true) :
    e.cancelRequested.isSome = true := by
  induction m generalizing reads with
  | nil => cases he
  | cons p m ih =>
    rcases List.mem_cons.mp he with heq | hrest
    · cases heq
      exact requestCancel_pending _ _ _ hrunning
    · exact ih (reads + 1) hrest

theorem mem_pruneIf {changed : Bool} (h : (id, e) ∈ (r.pruneIf instant changed).entries) :
    (id, e) ∈ r.entries := by
  unfold pruneIf at h
  split at h
  · exact (List.mem_filter.mp h).1
  · exact h

theorem mem_of_accepts (h : Accepts instant r id a) : ∃ e, (id, e) ∈ r.entries := by
  cases a with
  | cancelForOwner owner id' =>
    obtain ⟨rfl, haccepted⟩ := h
    unfold cancelForOwner update at haccepted
    cases hlookup : r.entries.lookup id' with
    | none =>
      rw [hlookup] at haccepted
      cases haccepted
    | some e => exact ⟨e, mem_of_lookup hlookup⟩
  | cancelAllRunning message => exact ⟨h.choose, h.choose_spec.1⟩
  | _ => exact h.elim

theorem pending_of_accepts (h : Accepts instant r id a)
    (he : (id, e) ∈ (perform instant r a).2.entries) (hrunning : e.isRunning = true) :
    e.cancelRequested.isSome = true := by
  cases a with
  | cancelForOwner owner id' =>
    obtain ⟨rfl, haccepted⟩ := h
    replace he := mem_pruneIf he
    unfold cancelForOwner update at haccepted
    dsimp only [update] at he
    cases hlookup : r.entries.lookup id' with
    | none =>
      rw [hlookup] at haccepted
      cases haccepted
    | some e₀ =>
      rw [hlookup] at haccepted he
      dsimp only at haccepted he
      rcases mem_replace.mp he with ⟨hne, _⟩ | ⟨_, heq, _⟩
      · exact (hne rfl).elim
      · split at heq
        · subst heq
          exact requestCancel_pending _ _ _ hrunning
        · next hforeign =>
          rw [if_neg hforeign] at haccepted
          cases haccepted
  | cancelAllRunning message => exact requestEach_pending message r.reads r.entries (mem_pruneIf he) hrunning
  | _ => exact h.elim

theorem Creates.keeps_running {owner : TaskOwner} {taskPrefix key message uuid : String}
    {kept m : List (String × TaskEntry)} {now : ℕ} {result : Except TaskCreateError String}
    (h : Creates owner taskPrefix key message uuid kept now result m) (hkept : Keyed kept)
    (he : (id, e) ∈ kept) (hrunning : e.isRunning = true) : (id, e) ∈ m := by
  cases h with
  | duplicate => exact he
  | full => exact he
  | room => exact List.mem_cons_of_mem _ he
  | reclaimed _ _ hmem hstopped =>
    apply List.mem_cons_of_mem
    refine mem_remove.mpr ⟨he, ?_⟩
    rintro rfl
    rw [hkept.unique he hmem, hstopped] at hrunning
    cases hrunning

theorem running_kept (instant : ℕ → ℕ) (hr : Consistent r) (hallowed : Allowed r a) (he : (id, e) ∈ r.entries)
    (hrunning : e.isRunning = true) : (∃ e', (id, e') ∈ (perform instant r a).2.entries) ∨
      a.settles = some id ∧ ∃ t t', readings instant r.reads (perform instant r a).2.reads t ∧
        readings instant r.reads (perform instant r a).2.reads t' ∧ taskRetentionTtlMs ≤ t' - t := by
  cases ha : a.isCreate with
  | false =>
    obtain ⟨hswept⟩ := perform_swept_of_allowed instant hr ha hallowed
    obtain ⟨e₁, hevolves, hmem | ⟨hstopped, t', ht', hexpired⟩⟩ := hswept.forward he
    · exact .inl ⟨e₁, hmem⟩
    · obtain ⟨hsettles, ht⟩ := hevolves.ended hrunning hstopped
      exact .inr ⟨hsettles, _, t', ht, ht', hexpired⟩
  | true =>
    cases a with
    | createKeyed owner taskPrefix key message uuid =>
      have hcreates := createKeyed_creates instant hr.keyed hr.bounded owner taskPrefix
        key message uuid
      have hkept : (id, e) ∈ (r.pruneTerminalTasks instant).entries := by
        apply List.mem_filter.mpr
        exact ⟨he, by simp [retained, hrunning]⟩
      exact .inl ⟨e, hcreates.keeps_running (hr.keyed.filter _) hkept hrunning⟩
    | _ => cases ha

theorem Evolves.cancelled {times : ℕ → Prop} (h : Evolves a id times e e') (hsettled : e'.state.Settled)
    (hrunning : e.isRunning = true) (hpending : e.cancelRequested.isSome = true)
    (hstopped : e'.isRunning = false) :
    (∃ result, a = .completeAfterFatalError id result) ∧ e'.state.status = .completed ∨
    (∃ error, a = .failAfterCleanupError id error) ∧ e'.state.status = .failed ∨
    e'.state.status = .cancelled ∧ e'.state.result = none := by
  have hstatus : e.state.status = .running := by simpa [TaskEntry.isRunning] using hrunning
  have hsome : e.cancelRequested ≠ none := Option.isSome_iff_ne_none.mp hpending
  cases hend : e'.state.status with
  | running => simp [TaskEntry.isRunning, hend] at hstopped
  | completed =>
    rcases h.completed hend with hold | hnone | hfatal
    · rw [hstatus] at hold
      cases hold
    · exact (hsome hnone).elim
    · exact .inl ⟨hfatal, rfl⟩
  | failed =>
    rcases h.failed hend with hold | hnone | hcleanup
    · rw [hstatus] at hold
      cases hold
    · exact (hsome hnone).elim
    · exact .inr (.inl ⟨hcleanup, rfl⟩)
  | cancelled =>
    rw [TaskState.Settled, hend] at hsettled
    exact .inr (.inr ⟨rfl, by simpa using hsettled⟩)

structure Lifecycle (instant : ℕ → ℕ) (r : TaskRegistry) : Prop where
  result : ∀ id e, (id, e) ∈ r.entries → (e.state.result.isSome ↔ e.state.status = .completed)
  frozen : ∀ id e, (id, e) ∈ r.entries → e.isRunning = false →
    ∀ r', ReachableBy (step instant) Allowed r r' → ∀ e', (id, e') ∈ r'.entries → e'.state = e.state
  kept : ∀ id e, (id, e) ∈ r.entries → e.isRunning = true → ∀ a, Allowed r a →
    (∃ e', (id, e') ∈ (perform instant r a).2.entries) ∨
    a.settles = some id ∧ ∃ t t', readings instant r.reads (perform instant r a).2.reads t ∧
      readings instant r.reads (perform instant r a).2.reads t' ∧ taskRetentionTtlMs ≤ t' - t
  cancelled : ∀ id a, Allowed r a → Accepts instant r id a →
    ∀ r', ReachableBy (step instant) Allowed (perform instant r a).2 r' →
    ∀ e, (id, e) ∈ r'.entries → e.isRunning = true → ∀ b, Allowed r' b →
    ∀ e', (id, e') ∈ (perform instant r' b).2.entries → e'.isRunning = false →
      (∃ result, b = .completeAfterFatalError id result) ∧ e'.state.status = .completed ∨
      (∃ error, b = .failAfterCleanupError id error) ∧ e'.state.status = .failed ∨
      e'.state.status = .cancelled ∧ e'.state.result = none

theorem task_lifecycle (h : ReachableBy (step instant) Allowed .new r) : Lifecycle instant r := by
  have hr := consistent_of_reachable h
  refine ⟨hr.settled, ?_, fun id e he hrunning a hallowed => running_kept instant hr hallowed he hrunning, ?_⟩
  · intro id e he hstopped r' hrun
    obtain ⟨taskPrefix, uuid, hdrawn, rfl⟩ := hr.issued id e he
    have hboth := entry_of_run (P := fun e' => e'.state = e.state ∧ e'.isRunning = false) hr hdrawn
      (fun e' he' => hr.keyed.unique he he' ▸ ⟨rfl, hstopped⟩) (fun a times e₁ e₂ hevolves h => ?_) hrun
    · exact fun e' he' => (hboth e' he').1
    · have hstate := hevolves.terminal h.2
      refine ⟨hstate.trans h.1, ?_⟩
      rw [TaskEntry.isRunning, hstate]
      exact h.2
  · intro id a hallowed haccepts r' hrun e he hrunning b hb e' he' hstopped
    have hr₁ : Consistent (perform instant r a).2 := hr.perform hallowed
    have hr' : Consistent r' := hr₁.run hrun
    have hend : Consistent (perform instant r' b).2 := hr'.perform hb
    obtain ⟨e₀, he₀⟩ := mem_of_accepts haccepts
    obtain ⟨taskPrefix, uuid, hdrawn, rfl⟩ := hr.issued id e₀ he₀
    have hpending := entry_of_run (P := fun e => e.isRunning = true → e.cancelRequested.isSome = true)
      hr₁ (perform_drawn hr hallowed hdrawn) (fun e he => pending_of_accepts haccepts he)
      (fun a times e₁ e₂ hevolves h hrun₂ => hevolves.pending (h (hevolves.isRunning hrun₂)) hrun₂) hrun
    rcases perform_backward hr' hb he' with ⟨e₁, he₁, hevolves⟩ | ⟨_, taskPrefix', uuid', hlength, hnew, hid⟩
    · rw [hr'.keyed.unique he₁ he] at hevolves
      exact hevolves.cancelled (hend.settled _ e' he') hrunning (hpending e he hrunning) hstopped
    · rw [hid] at he
      exact (hr'.fresh hlength hnew e he).elim

def twoOpenings : List Action :=
  [.createKeyed (.session "a") "dsc" "/a" "Opening" "0123456789abcdef0123456789abcdef",
    .createKeyed (.session "b") "dsc" "/b" "Opening" "fedcba9876543210fedcba9876543210",
    .cancelForOwner (.session "a") "dsc-0123456789abcdef0123456789abcdef",
    .complete "dsc-0123456789abcdef0123456789abcdef" .null,
    .complete "dsc-fedcba9876543210fedcba9876543210" .null]

theorem task_lifecycle_twoOpenings : ∃ r : TaskRegistry, r.entries.map (fun p => p.2.state.status) =
    [.completed, .cancelled] ∧ Lifecycle (fun n => n) r := by
  have hmeets : Meets (step fun n => n) Allowed .new twoOpenings := by
    refine ⟨⟨by decide, List.not_mem_nil⟩, fun r hr => ?_⟩
    cases hr
    exact ⟨⟨by decide, by decide +kernel⟩, fun _ _ => ⟨trivial, fun _ _ => ⟨trivial, fun _ _ =>
      ⟨trivial, fun _ _ => trivial⟩⟩⟩⟩
  have hrun : (run (step fun n => n) .new twoOpenings).map
      (fun r => r.entries.map fun p => p.2.state.status) = some [.completed, .cancelled] := by
    decide +kernel
  obtain ⟨r, hr, hstatus⟩ := Option.map_eq_some_iff.mp hrun
  exact ⟨r, hstatus, task_lifecycle ⟨twoOpenings, hmeets, hr⟩⟩

end IdaMcp.Tasks
