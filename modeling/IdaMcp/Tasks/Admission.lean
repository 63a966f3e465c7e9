import IdaMcp.Tasks.Lifecycle

namespace IdaMcp.Tasks

open Foundation Assoc TaskRegistry

variable {instant : ℕ → ℕ} {r : TaskRegistry} {a : Action} {id : String} {e : TaskEntry}

def Outcome.discloses : Outcome → Option String
  | created (.ok id) => some id
  | created (.error (.alreadyRunning id)) => some id
  | read (some state) => some state.id
  | _ => none

theorem pruned_of_full (hr : Consistent r)
    (h : (r.pruneTerminalTasks instant).entries.length = maxTaskRegistryEntries) :
    (r.pruneTerminalTasks instant).entries = r.entries ∧ r.entries.length = maxTaskRegistryEntries := by
  have hle := List.length_filter_le (fun p => retained (r.now instant) p.2) r.entries
  have hlength : (r.entries.filter fun p => retained (r.now instant) p.2).length = r.entries.length :=
    Nat.le_antisymm hle (h ▸ hr.bounded)
  have hall := List.length_filter_eq_length_iff.mp hlength
  exact ⟨List.filter_eq_self.mpr hall, hlength.symm.trans h⟩

theorem mem_pruned {p : String × TaskEntry} (h : p ∈ (r.pruneTerminalTasks instant).entries) :
    p ∈ r.entries := (List.mem_filter.mp h).1

section Create

variable {owner : TaskOwner} {taskPrefix key message uuid : String}

theorem admission_fails (hr : Consistent r)
    (hunique : ∀ id e, (id, e) ∈ r.entries → e.isRunning = true → e.state.key ≠ some key)
    {error : TaskCreateError}
    (h : (r.createKeyed instant owner taskPrefix key message uuid).1 = .error error) :
    r.entries.length = maxTaskRegistryEntries ∧ ∀ id e, (id, e) ∈ r.entries → e.isRunning = true := by
  have hcreates := createKeyed_creates instant hr.keyed hr.bounded owner taskPrefix key
    message uuid
  rw [h] at hcreates
  generalize (r.createKeyed instant owner taskPrefix key message uuid).2.entries = m at hcreates
  cases hcreates with
  | duplicate hmem hrunning hkey => exact (hunique _ _ (mem_pruned hmem) hrunning hkey).elim
  | full _ hall hlength =>
    obtain ⟨hsame, hfull⟩ := pruned_of_full hr hlength
    rw [hsame] at hall
    exact ⟨hfull, hall⟩

structure Reclaimed (instant : ℕ → ℕ) (r : TaskRegistry) (a : Action) (id : String) (e : TaskEntry) :
    Prop where
  admits : ∃ newId, (perform instant r a).1 = .created (.ok newId)
  full : r.entries.length = maxTaskRegistryEntries
  terminal : e.isRunning = false
  oldest : ∀ id' e', (id', e') ∈ r.entries → e'.isRunning = false → e.state.updatedAt ≤ e'.state.updatedAt
  others : ∀ id' e', (id', e') ∈ r.entries → id' ≠ id → (id', e') ∈ (perform instant r a).2.entries

theorem Creates.removed {kept m : List (String × TaskEntry)} {now : ℕ}
    {result : Except TaskCreateError String}
    (h : Creates owner taskPrefix key message uuid kept now result m) (hkept : Keyed kept)
    (he : (id, e) ∈ kept) (hgone : ∀ e', (id, e') ∉ m) :
    result = .ok (nextTaskId taskPrefix uuid) ∧ kept.length = maxTaskRegistryEntries ∧
      e.isRunning = false ∧
      (∀ id' e', (id', e') ∈ kept → e'.isRunning = false → e.state.updatedAt ≤ e'.state.updatedAt) ∧
      ∀ id' e', (id', e') ∈ kept → id' ≠ id → (id', e') ∈ m := by
  cases h with
  | duplicate => exact (hgone e he).elim
  | full => exact (hgone e he).elim
  | room => exact (hgone e (List.mem_cons_of_mem _ he)).elim
  | @reclaimed id₁ e₁ _ hlength hmem hstopped holdest =>
    have hid : id = id₁ := by
      by_contra hne
      exact hgone e (List.mem_cons_of_mem _ (mem_remove.mpr ⟨he, hne⟩))
    subst hid
    rw [hkept.unique he hmem]
    refine ⟨rfl, hlength, hstopped, holdest, ?_⟩
    intro id' e' he' hne
    exact List.mem_cons_of_mem _ (mem_remove.mpr ⟨he', hne⟩)

theorem removed_by_create (hr : Consistent r) (he : (id, e) ∈ r.entries)
    (hgone : ∀ e', (id, e') ∉ (r.createKeyed instant owner taskPrefix key message uuid).2.entries) :
    e.isRunning = false ∧ taskRetentionTtlMs ≤ instant r.reads - e.state.updatedAt ∨
      Reclaimed instant r (.createKeyed owner taskPrefix key message uuid) id e := by
  have hcreates := createKeyed_creates instant hr.keyed hr.bounded owner taskPrefix key
    message uuid
  by_cases hkept : (id, e) ∈ (r.pruneTerminalTasks instant).entries
  · obtain ⟨hresult, hlength, hstopped, holdest, hothers⟩ :=
      hcreates.removed (hr.keyed.filter _) hkept hgone
    obtain ⟨hsame, hfull⟩ := pruned_of_full hr hlength
    rw [hsame] at holdest hothers
    exact .inr ⟨⟨_, congrArg Outcome.created hresult⟩, hfull, hstopped, holdest, hothers⟩
  · have hexpired : retained (r.now instant) e ≠ true := fun h => hkept (List.mem_filter.mpr ⟨he, h⟩)
    simp only [retained, ne_eq, Bool.or_eq_true, decide_eq_true_eq, not_or, Bool.not_eq_true,
      Nat.not_lt] at hexpired
    exact .inl hexpired

theorem Creates.discloses {kept m : List (String × TaskEntry)} {now : ℕ}
    {result : Except TaskCreateError String}
    (h : Creates owner taskPrefix key message uuid kept now result m)
    (hid : (Outcome.created result).discloses = some id) :
    id = nextTaskId taskPrefix uuid ∨
      owner ≠ .runtime ∧ ∃ id' e, (id', e) ∈ kept ∧ e.owner = owner ∧ e.state.id = id := by
  cases h with
  | @duplicate id' e hmem =>
    split at hid
    · next howner =>
      cases hid
      exact .inr ⟨howner.1, id', e, hmem, howner.2, rfl⟩
    · cases hid
  | full => cases hid
  | room =>
    cases hid
    exact .inl rfl
  | reclaimed =>
    cases hid
    exact .inl rfl

theorem create_discloses (hr : Consistent r) (hlength : uuid.length = 32) (hfresh : uuid ∉ r.drawn)
    (he : (id, e) ∈ r.entries)
    (hid : (perform instant r (.createKeyed owner taskPrefix key message uuid)).1.discloses = some id) :
    owner ≠ .runtime ∧ e.owner = owner := by
  have hcreates := createKeyed_creates instant hr.keyed hr.bounded owner taskPrefix key
    message uuid
  rcases hcreates.discloses hid with rfl | ⟨howner, id', e', hmem, hsame, hid'⟩
  · exact (hr.fresh hlength hfresh e he).elim
  · have hmem' := mem_pruned hmem
    have hnamed := hr.named id' e' hmem'
    rw [← hnamed, hid'] at hmem'
    rw [hr.keyed.unique he hmem']
    exact ⟨howner, hsame⟩

end Create

theorem owner_of_discloses {owner : TaskOwner} (hr : Consistent r) (hallowed : Allowed r a)
    (ha : a.owner = some owner) (he : (id, e) ∈ r.entries)
    (hid : (perform instant r a).1.discloses = some id) : e.owner = owner := by
  cases a with
  | createKeyed owner' taskPrefix key message uuid =>
    cases ha
    exact (create_discloses hr hallowed.1 hallowed.2 he hid).2
  | getForOwner owner' id' =>
    cases ha
    change (Outcome.read (r.getForOwner instant owner id').1).discloses = some id at hid
    unfold getForOwner at hid
    dsimp only at hid
    cases hlookup : (r.pruneTerminalTasks instant).entries.lookup id' with
    | none =>
      rw [hlookup] at hid
      cases hid
    | some e' =>
      rw [hlookup] at hid
      by_cases howner : e'.owner = owner
      · rw [Option.filter_some, if_pos (decide_eq_true howner)] at hid
        have hmem := mem_pruned (mem_of_lookup hlookup)
        have hnamed := hr.named id' e' hmem
        cases hid
        rw [← hnamed] at hmem
        rw [hr.keyed.unique he hmem]
        exact howner
      · rw [Option.filter_some, if_neg (by simpa using howner)] at hid
        cases hid
  | cancelForOwner owner' id' => cases hid
  | _ => cases ha

theorem removed_cases (hr : Consistent r) (hallowed : Allowed r a) (he : (id, e) ∈ r.entries)
    (hgone : ∀ e', (id, e') ∉ (perform instant r a).2.entries) :
    (e.isRunning = false ∧ ∃ t, readings instant r.reads (perform instant r a).2.reads t ∧
      taskRetentionTtlMs ≤ t - e.state.updatedAt) ∨
    (a.settles = some id ∧ ∃ t t', readings instant r.reads (perform instant r a).2.reads t ∧
      readings instant r.reads (perform instant r a).2.reads t' ∧ taskRetentionTtlMs ≤ t' - t) ∨
    a.isCreate = true ∧ Reclaimed instant r a id e := by
  cases hrunning : e.isRunning with
  | true =>
    rcases running_kept instant hr hallowed he hrunning with ⟨e', he'⟩ | hended
    · exact (hgone e' he').elim
    · exact .inr (.inl hended)
  | false =>
    cases ha : a.isCreate with
    | false =>
      obtain ⟨hswept⟩ := perform_swept_of_allowed instant hr ha hallowed
      obtain ⟨e₁, hevolves, hmem | ⟨_, t, ht, hexpired⟩⟩ := hswept.forward he
      · exact (hgone e₁ hmem).elim
      · rw [hevolves.terminal hrunning] at hexpired
        exact .inl ⟨rfl, t, ht, hexpired⟩
    | true =>
      cases a with
      | createKeyed owner taskPrefix key message uuid =>
        rcases removed_by_create hr he hgone with ⟨_, hexpired⟩ | hreclaimed
        · refine .inl ⟨rfl, _, ⟨r.reads, Nat.le_refl _, ?_, rfl⟩, hexpired⟩
          exact createKeyed_reads owner taskPrefix key message uuid
        · exact .inr (.inr ⟨rfl, hreclaimed⟩)
      | _ => cases ha

structure Admission (instant : ℕ → ℕ) (r : TaskRegistry) : Prop where
  bounded : r.entries.length ≤ maxTaskRegistryEntries
  single : ∀ id e id' e', (id, e) ∈ r.entries → (id', e') ∈ r.entries → e.isRunning = true →
    e'.isRunning = true → e.state.key = e'.state.key → id = id'
  fails : ∀ owner taskPrefix key message uuid error,
    (∀ id e, (id, e) ∈ r.entries → e.isRunning = true → e.state.key ≠ some key) →
    (r.createKeyed instant owner taskPrefix key message uuid).1 = .error error →
    r.entries.length = maxTaskRegistryEntries ∧ ∀ id e, (id, e) ∈ r.entries → e.isRunning = true
  removed : ∀ a, Allowed r a → ∀ id e, (id, e) ∈ r.entries →
    (∀ e', (id, e') ∉ (perform instant r a).2.entries) →
    (e.isRunning = false ∧ ∃ t, readings instant r.reads (perform instant r a).2.reads t ∧
      taskRetentionTtlMs ≤ t - e.state.updatedAt) ∨
    (a.settles = some id ∧ ∃ t t', readings instant r.reads (perform instant r a).2.reads t ∧
      readings instant r.reads (perform instant r a).2.reads t' ∧ taskRetentionTtlMs ≤ t' - t) ∨
    a.isCreate = true ∧ Reclaimed instant r a id e
  isolated : ∀ a owner, Allowed r a → a.owner = some owner → ∀ id e, (id, e) ∈ r.entries →
    e.owner ≠ owner → (perform instant r a).1.discloses ≠ some id ∧
      ∀ e', (id, e') ∈ (perform instant r a).2.entries → e' = e
  hidden : ∀ taskPrefix key message uuid,
    Allowed r (.createKeyed .runtime taskPrefix key message uuid) → ∀ id e, (id, e) ∈ r.entries →
    (perform instant r (.createKeyed .runtime taskPrefix key message uuid)).1.discloses ≠ some id

theorem registry_admission (h : ReachableBy (step instant) Allowed .new r) : Admission instant r := by
  have hr := consistent_of_reachable h
  constructor
  · exact hr.bounded
  · exact hr.single
  · intro owner taskPrefix key message uuid error hunique herror
    exact admission_fails hr hunique herror
  · intro a hallowed id e he hgone
    exact removed_cases hr hallowed he hgone
  · intro a owner hallowed ha id e he hforeign
    constructor
    · exact fun hid => hforeign (owner_of_discloses hr hallowed ha he hid)
    · intro e' he'
      rcases perform_backward hr hallowed he' with ⟨e₀, he₀, hevolves⟩ | ⟨_, taskPrefix, uuid, hlength, hnew, hid⟩
      · have hsame := hr.keyed.unique he₀ he
        subst hsame
        exact hevolves.foreign owner ha hforeign.symm
      · rw [hid] at he
        exact (hr.fresh hlength hnew e he).elim
  · intro taskPrefix key message uuid hallowed id e he hid
    exact (create_discloses hr hallowed.1 hallowed.2 he hid).1 rfl

def reopened : List Action :=
  [.createKeyed (.session "a") "dsc" "/a" "Opening" "0123456789abcdef0123456789abcdef",
    .complete "dsc-0123456789abcdef0123456789abcdef" .null,
    .createKeyed (.session "a") "dsc" "/a" "Opening" "fedcba9876543210fedcba9876543210"]

def Outcome.isPrivate : Outcome → Bool
  | created (.error .existingTaskIdIsPrivate) => true
  | _ => false

theorem registry_admission_reopened : ∃ r : TaskRegistry,
    r.entries.map (fun p => p.2.state.status) = [.running, .completed] ∧
    (perform (fun n => n) r (.createKeyed (.session "b") "dsc" "/a" "Opening"
      "00112233445566778899aabbccddeeff")).1.isPrivate = true ∧ Admission (fun n => n) r := by
  have hmeets : Meets (step fun n => n) Allowed .new reopened := by
    refine ⟨⟨by decide, List.not_mem_nil⟩, fun r hr => ?_⟩
    cases hr
    refine ⟨trivial, fun r hr => ?_⟩
    cases hr
    exact ⟨⟨by decide, by decide +kernel⟩, fun _ _ => trivial⟩
  have hrun : (run (step fun n => n) .new reopened).map (fun r =>
      (r.entries.map (fun p => p.2.state.status), (perform (fun n => n) r (.createKeyed (.session "b")
        "dsc" "/a" "Opening" "00112233445566778899aabbccddeeff")).1.isPrivate)) =
      some ([.running, .completed], true) := by
    decide +kernel
  obtain ⟨r, hr, hstate⟩ := Option.map_eq_some_iff.mp hrun
  obtain ⟨hstatus, hprivate⟩ := Prod.mk.inj hstate
  exact ⟨r, hstatus, hprivate, registry_admission ⟨reopened, hmeets, hr⟩⟩

end IdaMcp.Tasks
