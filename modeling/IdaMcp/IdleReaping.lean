import Mathlib.Data.List.Perm.Basic
import IdaMcp.Registry

namespace IdaMcp.Registry

open Foundation

variable {T : ℕ} {s t : State} {id : DatabaseId} {τ : ℕ}

def guardCount (s : State) (id : DatabaseId) (kind : GuardKind) : ℕ :=
  s.guards.countP fun g => g.databaseId = id ∧ g.kind = kind

def InUse (s : State) (id : DatabaseId) : Prop :=
  ∃ g ∈ s.guards, g.databaseId = id ∧ g.phase = .inUse

structure Consistent (s : State) : Prop where
  registered_lt : ∀ id ∈ s.registered, id < s.nextId
  guards_lt : ∀ g ∈ s.guards, g.databaseId < s.nextId
  counts : ∀ id kind, guardCount s id kind = (s.entry id).count kind
  lastUsed_le : ∀ id, (s.entry id).lastUsed ≤ s.now

structure Advances (s t : State) : Prop where
  now : s.now ≤ t.now
  lastUsed : ∀ id, (s.entry id).lastUsed ≤ (t.entry id).lastUsed
  pinned : ∀ id, (t.entry id).debugPinned = true → (s.entry id).debugPinned = true ∨ InUse t id
  inUse : ∀ id, InUse s id → InUse t id ∨ t.now ≤ (t.entry id).lastUsed

def UsedSince (s : State) (id : DatabaseId) (τ : ℕ) : Prop :=
  τ ≤ s.now ∧ ((s.entry id).debugPinned = true → τ ≤ (s.entry id).lastUsed ∨ InUse s id)

theorem UsedSince.advance (h : UsedSince s id τ) (ha : Advances s t) : UsedSince t id τ := by
  obtain ⟨hτ, hused⟩ := h
  have hnow := ha.now
  have hlast := ha.lastUsed id
  refine ⟨by omega, fun hp => ?_⟩
  rcases ha.pinned id hp with hp | hp
  · rcases hused hp with hτ' | hin
    · left
      omega
    · rcases ha.inUse id hin with hin | htouched
      · exact .inr hin
      · left
        omega
  · exact .inr hp

section Entries

variable (e : Entry) (kind kind' : GuardKind) (n now : ℕ)

@[simp] theorem setCount_lastUsed : (e.setCount kind n).lastUsed = e.lastUsed := by
  cases kind <;> rfl

@[simp] theorem setCount_lease : (e.setCount kind n).lease = e.lease := by
  cases kind <;> rfl

@[simp] theorem setCount_debugPinned : (e.setCount kind n).debugPinned = e.debugPinned := by
  simp [Entry.debugPinned]

theorem count_setCount : (e.setCount kind n).count kind' = if kind' = kind then n else e.count kind' := by
  cases kind <;> cases kind' <;> rfl

@[simp] theorem touch_count : (e.touch now).count kind = e.count kind := by
  cases kind <;> rfl

@[simp] theorem touch_debugPinned : (e.touch now).debugPinned = e.debugPinned := rfl

@[simp] theorem touch_lastUsed : (e.touch now).lastUsed = now := rfl

end Entries

theorem guardCount_cons (g : Guard) (gs : List Guard) (id : DatabaseId) (kind : GuardKind) :
    (g :: gs).countP (fun g => decide (g.databaseId = id ∧ g.kind = kind)) =
      gs.countP (fun g => decide (g.databaseId = id ∧ g.kind = kind)) +
        if g.databaseId = id ∧ g.kind = kind then 1 else 0 := by
  rw [List.countP_cons]
  simp

theorem guardCount_erase {g : Guard} (hg : g ∈ s.guards) (id : DatabaseId) (kind : GuardKind) :
    guardCount s id kind = (s.guards.erase g).countP
      (fun g => decide (g.databaseId = id ∧ g.kind = kind)) +
        if g.databaseId = id ∧ g.kind = kind then 1 else 0 := by
  rw [← guardCount_cons, guardCount]
  exact (List.perm_cons_erase hg).countP_eq _

theorem Consistent.guarded_of_inUse (h : Consistent s) (hin : InUse s id) :
    (s.entry id).unguarded = false := by
  obtain ⟨g, hg, hid, -⟩ := hin
  have hpos : 0 < guardCount s id g.kind := by
    apply List.countP_pos_iff.mpr
    exact ⟨g, hg, by simp [hid]⟩
  rw [h.counts] at hpos
  cases hk : g.kind <;> rw [hk] at hpos <;> simp only [Entry.count] at hpos <;>
    simp [Entry.unguarded] <;> omega

/-- Steps that leave the guards, the clock and everything about the entries but their leases. -/
structure LeaseOnly (s t : State) : Prop where
  now : t.now = s.now
  guards : t.guards = s.guards
  nextId : t.nextId = s.nextId
  registered : ∀ id ∈ t.registered, id ∈ s.registered
  lastUsed : ∀ id, (t.entry id).lastUsed = (s.entry id).lastUsed
  count : ∀ id kind, (t.entry id).count kind = (s.entry id).count kind
  pinned : ∀ id, (t.entry id).debugPinned = true → (s.entry id).debugPinned = true ∨ InUse s id

theorem LeaseOnly.inUse_iff (h : LeaseOnly s t) : InUse t id ↔ InUse s id := by
  simp only [InUse, h.guards]

theorem LeaseOnly.advances (h : LeaseOnly s t) : Advances s t where
  now := Nat.le_of_eq h.now.symm
  lastUsed id := Nat.le_of_eq (h.lastUsed id).symm
  pinned id hp := by rw [h.inUse_iff]; exact h.pinned id hp
  inUse id hin := .inl (h.inUse_iff.mpr hin)

theorem LeaseOnly.consistent (h : LeaseOnly s t) (hs : Consistent s) : Consistent t where
  registered_lt id hid := by rw [h.nextId]; exact hs.registered_lt id (h.registered id hid)
  guards_lt g hg := by
    rw [h.guards] at hg
    rw [h.nextId]
    exact hs.guards_lt g hg
  counts id kind := by
    rw [h.count, ← hs.counts]
    simp only [guardCount, h.guards]
  lastUsed_le id := by rw [h.lastUsed, h.now]; exact hs.lastUsed_le id

theorem leaseOnly_refl (reaper : Reaper) : LeaseOnly s (s.goto reaper) :=
  ⟨rfl, rfl, rfl, fun _ h => h, fun _ => rfl, fun _ _ => rfl, fun _ h => .inl h⟩

theorem LeaseOnly.goto (h : LeaseOnly s t) (reaper : Reaper) : LeaseOnly s (t.goto reaper) :=
  ⟨h.now, h.guards, h.nextId, h.registered, h.lastUsed, h.count, h.pinned⟩

theorem leaseOnly_unregister (s : State) (id : DatabaseId) : LeaseOnly s (s.unregister id) :=
  ⟨rfl, rfl, rfl, fun _ h => (List.mem_filter.mp h).1, fun _ => rfl, fun _ _ => rfl,
    fun _ h => .inl h⟩

theorem leaseOnly_setLease {lease : Option Lease}
    (hp : lease.any Lease.debugPinned = true → (s.entry id).debugPinned = true ∨ InUse s id) :
    LeaseOnly s (s.setLease id lease) := by
  have hframe (id' : DatabaseId) : (s.setLease id lease).entry id' =
      if id' = id then { s.entry id with lease } else s.entry id' := by
    simp [State.setLease, State.setEntry, Function.update_apply]
  refine ⟨rfl, rfl, rfl, fun _ h => h, fun id' => ?_, fun id' kind => ?_, fun id' h => ?_⟩
  · rw [hframe]
    split_ifs with hid
    · rw [hid]
    · rfl
  · rw [hframe]
    split_ifs with hid
    · rw [hid]
      cases kind <;> rfl
    · rfl
  · rw [hframe] at h
    split_ifs at h with hid
    · rw [hid]
      exact hp h
    · exact .inl h

theorem leaseOnly_reaperStep {contended : Bool} (h : reaperStep T s contended = some t) :
    LeaseOnly s t := by
  have hclear (id : DatabaseId) : LeaseOnly s (s.setLease id none) :=
    leaseOnly_setLease (fun hp => by simp at hp)
  cases hr : s.reaper with
  | sleeping => simp [reaperStep, hr] at h
  | collecting rest candidates =>
    cases rest <;> simp only [reaperStep, hr, Option.some.injEq] at h <;> subst h <;>
      exact leaseOnly_refl _
  | probing candidates reapable =>
    cases candidates with
    | nil =>
      simp only [reaperStep, hr, Option.some.injEq] at h
      subst h
      exact leaseOnly_refl _
    | cons id candidates =>
      simp only [reaperStep, hr] at h
      cases hd : leaseReapDecision (s.entry id).lease contended <;>
        simp only [hd, Option.some.injEq] at h <;> subst h
      case deadWorker => exact (hclear id).goto _
      all_goals exact leaseOnly_refl _
  | checkingIdle | retiring =>
    simp only [reaperStep, hr, Option.some.injEq] at h
    subst h
    exact leaseOnly_refl _
  | taking reapable expired =>
    cases reapable with
    | nil =>
      simp only [reaperStep, hr, Option.some.injEq] at h
      subst h
      exact leaseOnly_refl _
    | cons r reapable =>
      simp only [reaperStep, hr] at h
      split_ifs at h <;> cases h
      · exact (leaseOnly_unregister s _).goto _
      · exact leaseOnly_refl _
  | closing expired =>
    cases expired with
    | nil =>
      simp only [reaperStep, hr, Option.some.injEq] at h
      subst h
      exact leaseOnly_refl _
    | cons id expired =>
      simp only [reaperStep, hr, Option.some.injEq] at h
      subst h
      exact (hclear id).goto _

theorem setEntry_entry (s : State) (id id' : DatabaseId) (e : Entry) :
    (s.setEntry id e).entry id' = if id' = id then e else s.entry id' := by
  simp [State.setEntry, Function.update_apply]

theorem advances_touch (hs : Consistent s) (g : Guard) (phase : GuardPhase) :
    Advances s ((s.setEntry g.databaseId ((s.entry g.databaseId).touch s.now)).setGuards
      ({ g with phase } :: s.guards.erase g)) where
  now := Nat.le_refl _
  lastUsed id := by
    change _ ≤ ((s.setEntry _ _).entry id).lastUsed
    rw [setEntry_entry]
    split_ifs
    · exact hs.lastUsed_le id
    · exact Nat.le_refl _
  pinned id hp := by
    change ((s.setEntry _ _).entry id).debugPinned = true at hp
    rw [setEntry_entry] at hp
    left
    split_ifs at hp with hid
    · rw [hid]
      exact hp
    · exact hp
  inUse id hin := by
    obtain ⟨g', hg', hid, hphase⟩ := hin
    by_cases heq : g' = g
    · right
      change s.now ≤ ((s.setEntry _ _).entry id).lastUsed
      rw [setEntry_entry, ← hid, heq]
      simp
    · left
      exact ⟨g', List.mem_cons_of_mem _ ((List.mem_erase_of_ne heq).mpr hg'), hid, hphase⟩

theorem advances_give_back {g : Guard} (hphase : g.phase = .touched) :
    Advances s ((s.setEntry g.databaseId ((s.entry g.databaseId).setCount g.kind
      ((s.entry g.databaseId).count g.kind - 1))).setGuards (s.guards.erase g)) where
  now := Nat.le_refl _
  lastUsed id := by
    change _ ≤ ((s.setEntry _ _).entry id).lastUsed
    rw [setEntry_entry]
    split_ifs with hid
    · exact Nat.le_of_eq (by rw [hid, setCount_lastUsed])
    · exact Nat.le_refl _
  pinned id hp := by
    change ((s.setEntry _ _).entry id).debugPinned = true at hp
    rw [setEntry_entry] at hp
    left
    split_ifs at hp with hid
    · rw [hid]
      simpa using hp
    · exact hp
  inUse id hin := by
    obtain ⟨g', hg', hid, huse⟩ := hin
    have hne : g' ≠ g := by
      rintro rfl
      rw [hphase] at huse
      cases huse
    exact .inl ⟨g', (List.mem_erase_of_ne hne).mpr hg', hid, huse⟩

section Guards

variable {g : Guard} (hs : Consistent s) (hg : g ∈ s.guards)
include hs hg

theorem consistent_touch (phase : GuardPhase) :
    Consistent ((s.setEntry g.databaseId ((s.entry g.databaseId).touch s.now)).setGuards
      ({ g with phase } :: s.guards.erase g)) where
  registered_lt := hs.registered_lt
  guards_lt g' hg' := by
    rcases List.mem_cons.mp hg' with rfl | hg'
    · exact hs.guards_lt g hg
    · exact hs.guards_lt g' (List.mem_of_mem_erase hg')
  counts id kind := by
    have hcount := guardCount_erase hg id kind
    have hsame : ((s.setEntry g.databaseId ((s.entry g.databaseId).touch s.now)).entry id).count kind =
        (s.entry id).count kind := by
      rw [setEntry_entry]
      split_ifs with hid
      · rw [hid, touch_count]
      · rfl
    rw [guardCount, State.setGuards, guardCount_cons, ← hcount, hs.counts]
    exact hsame.symm
  lastUsed_le id := by
    change ((s.setEntry _ _).entry id).lastUsed ≤ s.now
    rw [setEntry_entry]
    split_ifs
    · exact Nat.le_refl _
    · exact hs.lastUsed_le id

theorem consistent_give_back :
    Consistent ((s.setEntry g.databaseId ((s.entry g.databaseId).setCount g.kind
      ((s.entry g.databaseId).count g.kind - 1))).setGuards (s.guards.erase g)) where
  registered_lt := hs.registered_lt
  guards_lt g' hg' := hs.guards_lt g' (List.mem_of_mem_erase hg')
  counts id kind := by
    have hcount := guardCount_erase hg id kind
    rw [hs.counts] at hcount
    change List.countP _ (s.guards.erase g) = ((s.setEntry _ _).entry id).count kind
    rw [setEntry_entry]
    by_cases hid : id = g.databaseId
    · rw [if_pos hid, count_setCount]
      by_cases hkind : kind = g.kind
      · simp only [hid, hkind, and_self, if_true] at hcount ⊢
        omega
      · have hkind' : ¬ g.kind = kind := fun h => hkind h.symm
        simp only [hid, hkind', and_false, if_false, hkind] at hcount ⊢
        omega
    · have hid' : ¬ g.databaseId = id := fun h => hid h.symm
      simp only [hid', hid, false_and, if_false] at hcount ⊢
      omega
  lastUsed_le id := by
    change ((s.setEntry _ _).entry id).lastUsed ≤ s.now
    rw [setEntry_entry]
    split_ifs with hid
    · rw [setCount_lastUsed]
      exact hs.lastUsed_le g.databaseId
    · exact hs.lastUsed_le id

end Guards

theorem guardStep_spec (hs : Consistent s) {g : Guard} (h : guardStep s g = some t) :
    Advances s t ∧ Consistent t := by
  unfold guardStep at h
  split_ifs at h with hg
  cases hphase : g.phase with
  | counted | inUse =>
    simp only [hphase, Option.some.injEq] at h
    subst h
    exact ⟨advances_touch hs g _, consistent_touch hs hg _⟩
  | touched =>
    simp only [hphase, Option.some.injEq] at h
    subst h
    exact ⟨advances_give_back hphase, consistent_give_back hs hg⟩

theorem acquire_spec (hs : Consistent s) {kind : GuardKind} (hid : id ∈ s.registered) :
    let t := (s.setEntry id ((s.entry id).setCount kind ((s.entry id).count kind + 1))).setGuards
      (⟨id, kind, .counted⟩ :: s.guards)
    Advances s t ∧ Consistent t := by
  intro t
  have hentry (id' : DatabaseId) : t.entry id' =
      if id' = id then (s.entry id).setCount kind ((s.entry id).count kind + 1) else s.entry id' :=
    setEntry_entry s id id' _
  refine ⟨⟨Nat.le_refl _, fun id' => ?_, fun id' hp => ?_, fun id' hin => ?_⟩,
    ⟨hs.registered_lt, fun g hg => ?_, fun id' kind' => ?_, fun id' => ?_⟩⟩
  · rw [hentry]
    split_ifs with heq
    · exact Nat.le_of_eq (by rw [heq, setCount_lastUsed])
    · exact Nat.le_refl _
  · rw [hentry] at hp
    left
    split_ifs at hp with heq
    · rw [heq]
      simpa using hp
    · exact hp
  · obtain ⟨g, hg, hin⟩ := hin
    exact .inl ⟨g, List.mem_cons_of_mem _ hg, hin⟩
  · rcases List.mem_cons.mp hg with rfl | hg
    · exact hs.registered_lt id hid
    · exact hs.guards_lt g hg
  · have hcounts := hs.counts id' kind'
    change List.countP _ (_ :: s.guards) = _
    rw [hentry, guardCount_cons]
    change guardCount s id' kind' + _ = _
    rw [hcounts]
    by_cases heq : id' = id
    · by_cases hkind : kind' = kind
      · simp [heq, hkind, count_setCount]
      · have hkind' : ¬ kind = kind' := fun h => hkind h.symm
        simp [heq, hkind, hkind', count_setCount]
    · have heq' : ¬ id = id' := fun h => heq h.symm
      simp [heq, heq']
  · rw [hentry]
    split_ifs with heq
    · rw [setCount_lastUsed]
      exact hs.lastUsed_le id
    · exact hs.lastUsed_le id'

theorem insertEntry_advances (hs : Consistent s) (legacy : Bool) (n : ℕ) (guards : List Guard)
    (hguards : ∀ g ∈ s.guards, g ∈ guards) :
    Advances s ((s.insertEntry (newEntry legacy n s.now)).setGuards guards) where
  now := Nat.le_refl _
  lastUsed id := by
    change _ ≤ ((s.setEntry _ _).entry id).lastUsed
    rw [setEntry_entry]
    split_ifs
    · exact hs.lastUsed_le id
    · exact Nat.le_refl _
  pinned id hp := by
    change ((s.setEntry _ _).entry id).debugPinned = true at hp
    rw [setEntry_entry] at hp
    split_ifs at hp
    · simp [newEntry, Entry.debugPinned] at hp
    · exact .inl hp
  inUse id hin := by
    obtain ⟨g, hg, hin⟩ := hin
    exact .inl ⟨g, hguards g hg, hin⟩

theorem guardCount_nextId (hs : Consistent s) (kind : GuardKind) : guardCount s s.nextId kind = 0 := by
  apply List.countP_eq_zero.mpr
  intro g hg
  have hne : g.databaseId ≠ s.nextId := Nat.ne_of_lt (hs.guards_lt g hg)
  simp [hne]

theorem insertEntry_consistent (hs : Consistent s) (legacy : Bool) (n : ℕ) (guards : List Guard)
    (hlt : ∀ g ∈ guards, g.databaseId < s.nextId + 1)
    (hnew : ∀ kind, guards.countP (fun g => decide (g.databaseId = s.nextId ∧ g.kind = kind)) =
      (newEntry legacy n s.now).count kind)
    (hold : ∀ id kind, id ≠ s.nextId →
      guards.countP (fun g => decide (g.databaseId = id ∧ g.kind = kind)) = guardCount s id kind) :
    Consistent ((s.insertEntry (newEntry legacy n s.now)).setGuards guards) where
  registered_lt id hid := by
    change id ∈ s.nextId :: s.registered at hid
    change id < s.nextId + 1
    rcases List.mem_cons.mp hid with rfl | hid
    · exact Nat.lt_succ_self _
    · exact Nat.lt_succ_of_lt (hs.registered_lt id hid)
  guards_lt := hlt
  counts id kind := by
    change List.countP _ guards = ((s.setEntry _ _).entry id).count kind
    rw [setEntry_entry]
    split_ifs with hid
    · rw [hid]
      exact hnew kind
    · rw [← hs.counts]
      exact hold id kind hid
  lastUsed_le id := by
    change ((s.setEntry _ _).entry id).lastUsed ≤ s.now
    rw [setEntry_entry]
    split_ifs
    · exact Nat.le_refl _
    · exact hs.lastUsed_le id

theorem allocateDatabase_spec (hs : Consistent s) :
    let t := (s.insertEntry (newEntry false 1 s.now)).setGuards (⟨s.nextId, .call, .inUse⟩ :: s.guards)
    Advances s t ∧ Consistent t := by
  refine ⟨insertEntry_advances hs _ _ _ fun g hg => List.mem_cons_of_mem _ hg,
    insertEntry_consistent hs _ _ _ (fun g hg => ?_) (fun kind => ?_) (fun id kind hid => ?_)⟩
  · rcases List.mem_cons.mp hg with rfl | hg
    · exact Nat.lt_succ_self _
    · exact Nat.lt_succ_of_lt (hs.guards_lt g hg)
  · rw [guardCount_cons]
    have hzero := guardCount_nextId hs kind
    rw [guardCount] at hzero
    rw [hzero]
    cases kind <;> simp [newEntry, Entry.count]
  · have hid' : ¬ s.nextId = id := fun h => hid h.symm
    rw [guardCount_cons, guardCount]
    simp [hid']

theorem bindLegacy_spec (hs : Consistent s) :
    Advances s (s.insertEntry (newEntry true 0 s.now)) ∧
      Consistent (s.insertEntry (newEntry true 0 s.now)) := by
  refine ⟨insertEntry_advances hs _ _ s.guards fun g hg => hg,
    insertEntry_consistent hs _ _ s.guards (fun g hg => ?_) (fun kind => ?_) fun _ _ _ => rfl⟩
  · exact Nat.lt_succ_of_lt (hs.guards_lt g hg)
  · have hzero := guardCount_nextId hs kind
    rw [guardCount] at hzero
    rw [hzero]
    cases kind <;> rfl

theorem LeaseOnly.spec (h : LeaseOnly s t) (hs : Consistent s) : Advances s t ∧ Consistent t :=
  ⟨h.advances, h.consistent hs⟩

theorem step_spec (hs : Consistent s) {a : Action} (h : step T s a = some t) :
    Advances s t ∧ Consistent t := by
  cases a with
  | tick duration =>
    cases h
    refine ⟨⟨Nat.le_add_right _ _, fun _ => Nat.le_refl _, fun _ hp => .inl hp,
      fun _ hin => .inl hin⟩, ⟨hs.registered_lt, hs.guards_lt, hs.counts, fun id => ?_⟩⟩
    exact Nat.le_trans (hs.lastUsed_le id) (Nat.le_add_right _ _)
  | allocateDatabase =>
    simp only [step] at h
    split_ifs at h
    cases h
    exact allocateDatabase_spec hs
  | bindLegacy =>
    simp only [step] at h
    split_ifs at h
    cases h
    exact bindLegacy_spec hs
  | remove id =>
    simp only [step] at h
    split_ifs at h
    cases h
    exact (leaseOnly_unregister s id).spec hs
  | acquire id kind =>
    simp only [step] at h
    split_ifs at h with hid
    cases h
    exact acquire_spec hs hid.2
  | guardStep g => exact guardStep_spec hs h
  | installLease id workerId generation =>
    cases h
    refine (leaseOnly_setLease fun hp => ?_).spec hs
    simp at hp
  | clearLease id =>
    cases h
    refine (leaseOnly_setLease fun hp => ?_).spec hs
    simp at hp
  | loseWorker id =>
    cases h
    refine (leaseOnly_setLease fun hp => .inl ?_).spec hs
    unfold Entry.debugPinned
    cases hl : (s.entry id).lease with
    | none => simp [hl] at hp
    | some lease => simpa [hl] using hp
  | setDebugPin g workerId generation pinned =>
    simp only [step] at h
    split_ifs at h with hg
    cases h
    refine (leaseOnly_setLease fun _ => .inr ?_).spec hs
    exact ⟨g, hg.1, rfl, hg.2⟩
  | wakeReaper order =>
    simp only [step] at h
    split_ifs at h
    cases h
    exact (leaseOnly_refl _).spec hs
  | reaperStep contended => exact (leaseOnly_reaperStep h).spec hs

def idleProbes : Reaper → List (DatabaseId × ℕ)
  | .sleeping | .collecting _ _ | .closing _ => []
  | .checkingIdle id probedAt _ reapable => (id, probedAt) :: listed reapable
  | .probing _ reapable | .retiring _ _ _ reapable | .taking reapable _ => listed reapable
where
  listed (reapable : List Reapable) : List (DatabaseId × ℕ) :=
    (reapable.filter fun r => r.reason = .idle).map fun r => (r.databaseId, r.probedAt)

theorem listed_append (reapable : List Reapable) (r : Reapable) :
    idleProbes.listed (reapable ++ [r]) = idleProbes.listed reapable ++
      if r.reason = .idle then [(r.databaseId, r.probedAt)] else [] := by
  unfold idleProbes.listed
  rw [List.filter_append, List.map_append]
  split_ifs with hr <;> simp [hr]

theorem idleProbes_reaperStep {contended : Bool} (h : reaperStep T s contended = some t)
    {p : DatabaseId × ℕ} (hp : p ∈ idleProbes t.reaper) :
    p ∈ idleProbes s.reaper ∨ p.2 = s.now ∧ (s.entry p.1).debugPinned = false := by
  cases hr : s.reaper with
  | sleeping => simp [reaperStep, hr] at h
  | collecting rest candidates =>
    cases rest <;> simp only [reaperStep, hr, Option.some.injEq] at h <;> subst h <;>
      simp [State.goto, idleProbes, idleProbes.listed] at hp
  | probing candidates reapable =>
    cases candidates with
    | nil =>
      simp only [reaperStep, hr, Option.some.injEq] at h
      subst h
      exact .inl hp
    | cons id candidates =>
      simp only [reaperStep, hr] at h
      cases hd : leaseReapDecision (s.entry id).lease contended <;>
        simp only [hd, Option.some.injEq] at h <;> subst h
      case noLease =>
        simp only [State.goto, idleProbes, listed_append, reduceCtorEq, if_false,
          List.append_nil] at hp
        exact .inl hp
      case healthyUnpinned =>
        rcases List.mem_cons.mp hp with rfl | hp
        · right
          refine ⟨rfl, ?_⟩
          cases hl : (s.entry id).lease with
          | none => simp [Entry.debugPinned, hl]
          | some lease =>
            cases hpin : lease.debugPinned with
            | false => simp [Entry.debugPinned, hl, hpin]
            | true =>
              rw [hl] at hd
              cases contended <;> cases hu : lease.workerUnavailable <;>
                simp [leaseReapDecision, hpin, hu] at hd
        · exact .inl hp
      all_goals exact .inl hp
  | checkingIdle id probedAt candidates reapable =>
    simp only [reaperStep, hr, Option.some.injEq] at h
    subst h
    left
    simp only [State.goto, idleProbes] at hp ⊢
    split_ifs at hp
    · rw [listed_append] at hp
      rcases List.mem_append.mp hp with hp | hp
      · exact List.mem_cons_of_mem _ hp
      · simp only [if_true, List.mem_singleton] at hp
        rw [hp]
        exact List.mem_cons_self
    · exact List.mem_cons_of_mem _ hp
  | retiring id probedAt candidates reapable =>
    simp only [reaperStep, hr, Option.some.injEq] at h
    subst h
    simp only [State.goto, idleProbes, listed_append, reduceCtorEq, if_false,
      List.append_nil] at hp
    exact .inl hp
  | taking reapable expired =>
    cases reapable with
    | nil =>
      simp only [reaperStep, hr, Option.some.injEq] at h
      subst h
      simp [State.goto, idleProbes] at hp
    | cons r reapable =>
      have hrest : p ∈ idleProbes.listed reapable := by
        simp only [reaperStep, hr] at h
        split_ifs at h <;> cases h <;> exact hp
      left
      change p ∈ idleProbes.listed (r :: reapable)
      rw [idleProbes.listed, List.filter_cons]
      split_ifs
      · exact List.mem_cons_of_mem _ hrest
      · exact hrest
  | closing expired =>
    cases expired <;> simp only [reaperStep, hr, Option.some.injEq] at h <;> subst h <;>
      simp [State.goto, idleProbes] at hp

theorem reaper_frame {a : Action} (ha : ∀ contended, a ≠ .reaperStep contended)
    (h : step T s a = some t) : t.reaper = s.reaper ∨ ∃ order, t.reaper = .collecting order [] := by
  cases a with
  | reaperStep contended => exact (ha contended rfl).elim
  | wakeReaper order =>
    simp only [step] at h
    split_ifs at h
    cases h
    exact .inr ⟨order, rfl⟩
  | guardStep g =>
    left
    simp only [step, guardStep] at h
    split_ifs at h
    cases hphase : g.phase <;> simp only [hphase, Option.some.injEq] at h <;> subst h <;> rfl
  | tick | installLease | clearLease | loseWorker =>
    cases h
    exact .inl rfl
  | allocateDatabase | bindLegacy | remove | acquire | setDebugPin =>
    simp only [step] at h
    split_ifs at h
    cases h
    exact .inl rfl

structure Probed (s : State) : Prop where
  consistent : Consistent s
  used : ∀ p ∈ idleProbes s.reaper, UsedSince s p.1 p.2

theorem probed_init : Probed init where
  consistent :=
    { registered_lt := by simp [init]
      guards_lt := by simp [init]
      counts := fun id kind => by cases kind <;> rfl
      lastUsed_le := fun id => Nat.le_refl _ }
  used := by simp [init, idleProbes]

theorem Probed.step (hs : Probed s) {a : Action} (h : step T s a = some t) : Probed t := by
  obtain ⟨hadvance, hconsistent⟩ := step_spec hs.consistent h
  refine ⟨hconsistent, fun p hp => ?_⟩
  by_cases ha : ∃ contended, a = .reaperStep contended
  · obtain ⟨contended, rfl⟩ := ha
    rcases idleProbes_reaperStep h hp with hp | ⟨hnow, hpin⟩
    · exact (hs.used p hp).advance hadvance
    · have hfresh : UsedSince s p.1 p.2 := by
        refine ⟨Nat.le_of_eq hnow, fun hpinned => ?_⟩
        rw [hpin] at hpinned
        cases hpinned
      exact hfresh.advance hadvance
  · rcases reaper_frame (fun contended hc => ha ⟨contended, hc⟩) h with hr | ⟨order, hr⟩
    · rw [hr] at hp
      exact (hs.used p hp).advance hadvance
    · rw [hr] at hp
      simp [idleProbes] at hp

theorem probed_of_reachable (h : Reachable (step T) init s) : Probed s :=
  invariant_of_reachable (fun _ _ _ hi ht => hi.step ht) probed_init h

theorem removal_eq_some {a : Action} {r : Reapable} (h : removal T s a = some r) :
    ∃ contended reapable expired, s.reaper = .taking (r :: reapable) expired ∧
      stillReapable T s r contended = true := by
  cases a with
  | reaperStep contended =>
    simp only [removal] at h
    split at h
    case h_1 r' reapable expired hr =>
      split_ifs at h with hs
      cases h
      exact ⟨contended, reapable, expired, hr, hs⟩
    case h_2 => cases h
  | _ => cases h

/-- The reaper never removes an entry that a call or a task guards. It removes no entry with a debug
pin as idle when the pass gets from the probe of the entry to its removal within the timeout. -/
theorem removed_entry_unpinned (h : Reachable (step T) init s) {a : Action} {r : Reapable}
    (hr : removal T s a = some r) :
    (s.entry r.databaseId).activeCalls = 0 ∧ (s.entry r.databaseId).pins = 0 ∧
      (r.reason = .idle → s.now < r.probedAt + T → (s.entry r.databaseId).debugPinned = false) := by
  have hinv := probed_of_reachable h
  obtain ⟨contended, reapable, expired, hreaper, hstill⟩ := removal_eq_some hr
  simp only [stillReapable, Bool.and_eq_true] at hstill
  obtain ⟨⟨-, hunguarded⟩, hreason⟩ := hstill
  have hcounts := hunguarded
  simp only [Entry.unguarded, Bool.and_eq_true, beq_iff_eq] at hcounts
  refine ⟨hcounts.1.2, hcounts.2, fun hidle hquick => ?_⟩
  by_contra hpin
  rw [Bool.not_eq_false] at hpin
  have hlisted : (r.databaseId, r.probedAt) ∈ idleProbes s.reaper := by
    simp [hreaper, idleProbes, idleProbes.listed, hidle]
  have hexpired : T ≠ 0 ∧ T ≤ (s.entry r.databaseId).idleFor s.now := by
    rw [hidle] at hreason
    simpa [idleExpired] using hreason
  rcases (hinv.used _ hlisted).2 hpin with hlast | hin
  · simp only [Entry.idleFor] at hexpired
    simp only at hlast
    omega
  · rw [hinv.consistent.guarded_of_inUse hin] at hunguarded
    cases hunguarded

/-- Database 0 is probed, database 1 has lost its worker. While the reaper retires that worker, a
call on database 0 starts a debugger and ends. -/
def longRetirement : List Action :=
  [.allocateDatabase, .installLease 0 0 1, .guardStep ⟨0, .call, .inUse⟩,
    .guardStep ⟨0, .call, .touched⟩,
    .allocateDatabase, .installLease 1 1 1, .guardStep ⟨1, .call, .inUse⟩,
    .guardStep ⟨1, .call, .touched⟩, .loseWorker 1,
    .tick 5, .wakeReaper [0, 1], .reaperStep false, .reaperStep false, .reaperStep false,
    .reaperStep false, .reaperStep false, .reaperStep false,
    .acquire 0 .call, .guardStep ⟨0, .call, .counted⟩, .setDebugPin ⟨0, .call, .inUse⟩ 0 1 true,
    .guardStep ⟨0, .call, .inUse⟩, .guardStep ⟨0, .call, .touched⟩]

theorem removed_entry_unpinned_quick :
    ∃ s a r, Reachable (step 5) init s ∧ removal 5 s a = some r ∧ r.reason = .idle ∧
      (s.entry r.databaseId).debugPinned = false := by
  let actions : List Action := longRetirement.take 17 ++ [.reaperStep false, .reaperStep false]
  have hrun : (run (step 5) init actions).map (fun s =>
      (removal 5 s (.reaperStep false), s.now)) = some (some ⟨0, .idle, 5⟩, 5) := by decide
  obtain ⟨s, hs, hpair⟩ := Option.map_eq_some_iff.mp hrun
  obtain ⟨hr, hnow⟩ := Prod.mk.inj hpair
  have hreach : Reachable (step 5) init s := ⟨actions, hs⟩
  refine ⟨s, _, _, hreach, hr, rfl, (removed_entry_unpinned hreach hr).2.2 rfl ?_⟩
  simp [hnow]

/-- The pass takes the timeout to come back, and then removes the pinned database 0 as idle. -/
theorem pinned_entry_removed_idle :
    ∃ s a r, Reachable (step 5) init s ∧ removal 5 s a = some r ∧ r.reason = .idle ∧
      (s.entry r.databaseId).debugPinned = true := by
  let actions : List Action := longRetirement ++ [.tick 5, .reaperStep false, .reaperStep false]
  have hrun : (run (step 5) init actions).map (fun s =>
      (removal 5 s (.reaperStep false), (s.entry 0).debugPinned)) =
        some (some ⟨0, .idle, 5⟩, true) := by decide
  obtain ⟨s, hs, hpair⟩ := Option.map_eq_some_iff.mp hrun
  obtain ⟨hr, hpinned⟩ := Prod.mk.inj hpair
  exact ⟨s, _, _, ⟨actions, hs⟩, hr, rfl, hpinned⟩

end IdaMcp.Registry
