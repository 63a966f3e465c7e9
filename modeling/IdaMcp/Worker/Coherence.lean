import IdaMcp.Foundation.Machine
import IdaMcp.Worker.Turn

namespace IdaMcp.Worker

namespace Loop

variable {s t : Loop} {v : Option Holding} {answers : Answers} {request : Request}

structure History (s : Loop) : Prop where
  issued : ∀ i g, .opened i g ∈ s.log → g ≤ s.nextDatabaseGeneration ∧ i < s.nextIdb
  current : ∀ db g, s.idb = some db → s.databaseGeneration = some g → .opened db.id g ∈ s.log
  one_database : ∀ i j g, .opened i g ∈ s.log → .opened j g ∈ s.log → i = j
  one_generation : ∀ i g g', .opened i g ∈ s.log → .opened i g' ∈ s.log → g = g'

theorem History.of_events {events : List Event} (h : s.History)
    (hlog : t.log = events ++ s.log) (hevents : ∀ i g, .opened i g ∉ events)
    (hnext : t.nextDatabaseGeneration = s.nextDatabaseGeneration) (hid : s.nextIdb ≤ t.nextIdb)
    (hidb : t.idb = none ∨ t.idb = s.idb ∧ t.databaseGeneration = s.databaseGeneration) :
    t.History := by
  have hmem : ∀ i g, .opened i g ∈ t.log → .opened i g ∈ s.log := by
    intro i g hi
    rw [hlog] at hi
    exact (List.mem_append.mp hi).resolve_left (hevents i g)
  refine ⟨?_, ?_, ?_, ?_⟩
  · intro i g hi
    have hissued := h.issued i g (hmem i g hi)
    exact ⟨by omega, by omega⟩
  · intro db g hdb hg
    obtain hnone | ⟨hsome, hgeneration⟩ := hidb
    · simp [hnone] at hdb
    · rw [hlog]
      exact List.mem_append_right _ (h.current db g (hsome ▸ hdb) (hgeneration ▸ hg))
  · intro i j g hi hj
    exact h.one_database i j g (hmem i g hi) (hmem j g hj)
  · intro i g g' hi hi'
    exact h.one_generation i g g' (hmem i g hi) (hmem i g' hi')

theorem History.opening {db : Idb} {lock : String} (h : s.History) (hid : db.id = s.nextIdb) :
    (s.opening db lock).History := by
  have hold : ∀ i g, .opened i g ∈ s.log → g ≤ s.nextDatabaseGeneration ∧ i < db.id :=
    fun i g hi => hid ▸ h.issued i g hi
  have hmem : ∀ i g, .opened i g ∈ (s.opening db lock).log ↔
      i = db.id ∧ g = s.nextDatabaseGeneration + 1 ∨ .opened i g ∈ s.log := by
    intro i g
    simp [Loop.opening]
  refine ⟨?_, ?_, ?_, ?_⟩
  · intro i g hi
    change g ≤ s.nextDatabaseGeneration + 1 ∧ i < db.id + 1
    obtain ⟨rfl, rfl⟩ | hi := (hmem i g).mp hi
    · omega
    · have := hold i g hi
      omega
  · rintro _ _ ⟨⟩ ⟨⟩
    exact List.mem_cons_self
  · intro i j g hi hj
    obtain ⟨rfl, rfl⟩ | hi := (hmem i g).mp hi <;> obtain ⟨rfl, hg⟩ | hj := (hmem j _).mp hj
    · rfl
    · have := hold j _ hj
      omega
    · have := hold i g hi
      omega
    · exact h.one_database i j g hi hj
  · intro i g g' hi hi'
    obtain ⟨rfl, rfl⟩ | hi := (hmem i g).mp hi <;> obtain ⟨hg, rfl⟩ | hi' := (hmem _ g').mp hi'
    · rfl
    · have := hold _ g' hi'
      omega
    · have := hold _ g hi
      omega
    · exact h.one_generation i g g' hi hi'

theorem History.answered {db : Idb} {generation : ℕ} (h : s.History) (hdb : s.idb = some db)
    (hgeneration : s.databaseGeneration = some generation) :
    (s.record (.opened db.id generation)).History := by
  have hcurrent := h.current db generation hdb hgeneration
  have hmem : ∀ i g, .opened i g ∈ (s.record (.opened db.id generation)).log →
      .opened i g ∈ s.log := by
    intro i g hi
    obtain hi | hi := List.mem_cons.mp hi
    · cases hi
      exact hcurrent
    · exact hi
  refine ⟨?_, ?_, ?_, ?_⟩
  · intro i g hi
    exact h.issued i g (hmem i g hi)
  · intro db' g hdb' hg
    exact List.mem_cons_of_mem _ (h.current db' g hdb' hg)
  · intro i j g hi hj
    exact h.one_database i j g (hmem i g hi) (hmem j g hj)
  · intro i g g' hi hi'
    exact h.one_generation i g g' (hmem i g hi) (hmem i g' hi')

def Coherent (s : Loop) : Prop := (∃ v, s.Holds v) ∧ s.History

theorem Coherent.mk (events : List Event) (hv : t.Holds v) (h : s.History)
    (hlog : t.log = events ++ s.log) (hevents : ∀ i g, .opened i g ∉ events)
    (hnext : t.nextDatabaseGeneration = s.nextDatabaseGeneration) (hid : s.nextIdb ≤ t.nextIdb)
    (hidb : t.idb = none ∨ t.idb = s.idb ∧ t.databaseGeneration = s.databaseGeneration) :
    t.Coherent :=
  ⟨⟨v, hv⟩, h.of_events hlog hevents hnext hid hidb⟩

theorem Coherent.finished (h : s.Coherent) : Coherent { s.emptied true with
    debugSession := none, crashedOperation := none, running := false } := by
  have hnone := Holds.emptied (s := s) true
  refine .mk _ (hnone.congr rfl rfl rfl rfl rfl rfl rfl) h.2 rfl ?_ rfl le_rfl (.inl rfl)
  intro i g
  cases s.idb <;> simp

theorem coherent_kept : Kept Coherent where
  holds h := h.1
  taken {s} request answers := by
    rintro ⟨⟨v, hv⟩, h⟩
    obtain ⟨hu, -⟩ | ⟨d, -, hu⟩ := dequeue_cases hv request answers <;> rw [hu]
    · exact .mk [.handled request] (hv.congr rfl rfl rfl rfl rfl rfl rfl) h rfl (by simp) rfl
        le_rfl (.inr ⟨rfl, rfl⟩)
    · have hnone := Holds.emptied (s := s) false
      refine .mk (.handled request :: (s.idb.map fun db => Event.closed db.id false).toList)
        (hnone.congr rfl rfl rfl rfl rfl rfl rfl) h rfl ?_ rfl le_rfl (.inl rfl)
      intro i g
      cases s.idb <;> simp
  library l m := by
    rintro ⟨⟨v, hv⟩, h⟩
    exact .mk [] (hv.congr rfl rfl rfl rfl rfl rfl rfl) h rfl (by simp) rfl le_rfl
      (.inr ⟨rfl, rfl⟩)
  session d := by
    rintro ⟨⟨v, hv⟩, h⟩
    exact .mk [] (hv.congr rfl rfl rfl rfl rfl rfl rfl) h rfl (by simp) rfl le_rfl
      (.inr ⟨rfl, rfl⟩)
  quiet := by
    rintro s t ⟨⟨v, hv⟩, h⟩ - hq
    have ht := hv.quiet hq
    obtain ⟨n, events, hn, hevents, rfl⟩ := hq
    refine .mk events ht h rfl ?_ rfl hn (.inr ⟨rfl, rfl⟩)
    intro i g hi
    obtain ⟨id, saved, he, -⟩ := hevents _ hi
    cases he
  opening lock := by
    rintro ⟨-, h⟩ - - hid hsave
    exact ⟨⟨_, .opening lock hsave⟩, h.opening hid⟩
  answered {s db generation} := by
    rintro ⟨⟨v, hv⟩, h⟩ - hdb hgeneration
    exact ⟨⟨v, hv.congr rfl rfl rfl rfl rfl rfl rfl⟩, h.answered hdb hgeneration⟩
  emptied {s} := by
    rintro ⟨-, h⟩ -
    refine .mk _ (.emptied true) h rfl ?_ rfl le_rfl (.inl rfl)
    intro i g
    cases s.idb <;> simp
  performed {s} operation answers := by
    rintro ⟨⟨v, hv⟩, h⟩ - -
    obtain ⟨d, c, events, ht, hevents⟩ := perform_eq s operation answers
    rw [ht]
    refine .mk _ (hv.congr rfl rfl rfl rfl rfl rfl rfl) h (List.append_assoc ..).symm ?_ rfl le_rfl
      (.inr ⟨rfl, rfl⟩)
    intro i g
    obtain ⟨-, rfl⟩ | ⟨-, rfl⟩ := hevents <;> cases s.idb <;> simp
  finished h _ := h.finished

theorem lock_kept (id : ℕ) (lock : String) : Kept fun s =>
    s.Coherent ∧ id < s.nextIdb ∧ ∀ db, s.idb = some db → db.id = id → s.lockFile = some lock where
  holds h := h.1.1
  taken {s} request answers := by
    rintro ⟨h, hid, hlock⟩
    obtain ⟨v, hv⟩ := h.1
    refine ⟨coherent_kept.taken request answers h, ?_⟩
    obtain ⟨hu, -⟩ | ⟨d, -, hu⟩ := dequeue_cases hv request answers <;> rw [hu]
    · exact ⟨hid, hlock⟩
    · exact ⟨hid, by rintro db ⟨⟩⟩
  library l m := by
    rintro ⟨h, hid, hlock⟩
    exact ⟨coherent_kept.library l m h, hid, hlock⟩
  session d := by
    rintro ⟨h, hid, hlock⟩
    exact ⟨coherent_kept.session d h, hid, hlock⟩
  quiet := by
    rintro s t ⟨h, hid, hlock⟩ hc hq
    refine ⟨coherent_kept.quiet h hc hq, ?_⟩
    obtain ⟨n, events, hn, -, rfl⟩ := hq
    exact ⟨hid.trans_le hn, hlock⟩
  opening {s db} lock := by
    rintro ⟨h, hid, -⟩ hc hnone hdb hsave
    refine ⟨coherent_kept.opening lock h hc hnone hdb hsave, ?_, ?_⟩
    · change id < db.id + 1
      omega
    · rintro _ ⟨⟩ rfl
      omega
  answered := by
    rintro s db generation ⟨h, hid, hlock⟩ hc hdb hgeneration
    exact ⟨coherent_kept.answered h hc hdb hgeneration, hid, hlock⟩
  emptied := by
    rintro s ⟨h, hid, -⟩ hc
    exact ⟨coherent_kept.emptied h hc, hid, by rintro db ⟨⟩⟩
  performed {s} operation answers := by
    rintro ⟨h, hid, hlock⟩ hrun hc
    refine ⟨coherent_kept.performed operation answers h hrun hc, ?_⟩
    obtain ⟨d, c, events, ht, -⟩ := perform_eq s operation answers
    rw [ht]
    exact ⟨hid, hlock⟩
  finished := by
    rintro s ⟨h, hid, -⟩ hc
    exact ⟨h.finished, hid, by rintro db ⟨⟩⟩

end Loop

def Request.boundTo : Request → Option ℕ
  | .closeIfGeneration generation => some generation
  | .operation op expected => if op.arm.bound then expected else none
  | _ => none

def Loop.Current (s : Loop) (generation : ℕ) : Prop :=
  ∃ db, s.idb = some db ∧ .opened db.id generation ∈ s.log

theorem Arm.generation_of_check {arm : Arm} {generation : ℕ} {current : Option ℕ}
    {answers : Answers} {u : Unit} (h : arm.check (some generation) current answers = .ok u)
    (hbound : arm.bound = true) : current = some generation := by
  by_contra hcurrent
  have hrefused : requireGeneration (some generation) current = .error .databaseReplaced :=
    if_neg hcurrent
  unfold Arm.check at h
  rw [hbound, hrefused] at h
  cases harm : arm.admits <;> cases hadmission : answers.admission <;>
    simp [harm, hadmission, bind, Except.bind] at h

structure Loop.Together (s : Loop) : Prop where
  generation : s.databaseGeneration.isSome = s.idb.isSome
  path : s.effectiveDatabasePath.isSome = s.idb.isSome
  lockFile : s.lockFile.isSome = s.idb.isSome
  lockPath : s.lockPath = s.lockFile
  heldLocks : s.heldLocks = s.lockFile.toList
  openIdbs : s.openIdbs = (s.idb.map Idb.id).toList

structure Loop.TurnCoherent (s : Loop) (request : Request) (answers : Answers) : Prop where
  installs : ∀ r info generation, request = .open r → (s.dequeue request answers).idb = none →
    (s.turn request answers).1 = some (.opened info generation) →
    (s.turn request answers).2.Current generation ∧
      (s.turn request answers).2.databaseGeneration = some generation ∧
      (s.turn request answers).2.lockFile =
        some (mcpLockPath (lockTargetPath r answers.database)) ∧
      ∀ i g, .opened i g ∈ s.log → g < generation
  keeps : ∀ r info generation db, request = .open r → (s.dequeue request answers).idb = some db →
    (s.turn request answers).1 = some (.opened info generation) →
    (s.turn request answers).2.idb = some db ∧
      (s.dequeue request answers).databaseGeneration = some generation ∧
      (s.turn request answers).2.databaseGeneration = some generation
  fails : ∀ r error, request = .open r → (s.turn request answers).1 = some (.error error) →
    (s.turn request answers).2.idb = (s.dequeue request answers).idb ∧
      (s.turn request answers).2.databaseGeneration =
        (s.dequeue request answers).databaseGeneration
  stale : ∀ generation, request.boundTo = some generation →
    ¬(s.dequeue request answers).Current generation →
    (s.turn request answers).2 = { s.dequeue request answers with
      libInitialized := (s.turn request answers).2.libInitialized
      versionMismatch := (s.turn request answers).2.versionMismatch }
  lock : ∀ db, s.idb = some db → (s.turn request answers).2.idb = some db →
    (s.turn request answers).2.lockFile = s.lockFile

namespace Loop

variable {s t : Loop} {v : Option Holding} {answers : Answers} {request : Request}

theorem Holds.together (h : s.Holds v) : s.Together := by
  refine ⟨?_, ?_, ?_, ?_, ?_, ?_⟩
  · rw [h.generation, h.isSome, Option.isSome_map]
  · rw [h.path, h.isSome, Option.isSome_map]
  · rw [h.lockFile, h.isSome, Option.isSome_map]
  · rw [h.lockPath, h.lockFile]
  · rw [h.heldLocks, h.lockFile]
  · rw [h.openIdbs, h.idb, Option.map_map]
    rfl

theorem Coherent.current_iff (h : s.Coherent) (generation : ℕ) :
    s.Current generation ↔ s.databaseGeneration = some generation := by
  obtain ⟨⟨v, hv⟩, hhistory⟩ := h
  cases v with
  | none => simp [Current, hv.idb, hv.generation]
  | some v =>
    have hcurrent := hhistory.current v.idb v.generation hv.idb hv.generation
    simp only [Current, hv.idb, hv.generation, Option.map_some, Option.some.injEq, exists_eq_left']
    constructor
    · intro hopened
      exact hhistory.one_generation _ _ _ hcurrent hopened
    · rintro rfl
      exact hcurrent

theorem handle_stale {generation : ℕ} (answers : Answers) (hbound : request.boundTo = some generation)
    (hstale : s.databaseGeneration ≠ some generation) : (s.handle request answers).2 = s := by
  cases request with
  | «open» request => cases hbound
  | close => cases hbound
  | shutdown => cases hbound
  | closeIfGeneration g =>
    obtain rfl : g = generation := Option.some.inj hbound
    simp [handle, hstale]
  | operation operation expected =>
    obtain ⟨harm, rfl⟩ : operation.arm.bound = true ∧ expected = some generation := by
      simpa [Request.boundTo] using hbound
    change (s.runOperation operation (some generation) answers).2 = s
    unfold runOperation
    split
    · rfl
    next hchecked => exact absurd (Arm.generation_of_check hchecked harm) hstale

theorem dequeue_nextDatabaseGeneration (h : s.Holds v) (request : Request) (answers : Answers) :
    (s.dequeue request answers).nextDatabaseGeneration = s.nextDatabaseGeneration := by
  obtain ⟨hu, -⟩ | ⟨d, -, hu⟩ := dequeue_cases h request answers <;> rw [hu]
  · rfl
  · rfl

theorem turn_open (s : Loop) (request : OpenRequest) (answers : Answers) : ∃ l m,
    (∃ error, s.turn (.open request) answers = (some (.error error),
      { s.dequeue (.open request) answers with libInitialized := l, versionMismatch := m })) ∨
    s.turn (.open request) answers =
      ({ s.dequeue (.open request) answers with libInitialized := l, versionMismatch := m }.runOpen
        request answers).map some id :=
  turn_eq s (.open request) answers

theorem Coherent.turnCoherent (h : s.Coherent) (hrun : s.running = true) (request : Request)
    (answers : Answers) : s.TurnCoherent request answers := by
  obtain ⟨v₀, hv₀⟩ := h.1
  have hu := coherent_kept.taken request answers h
  have hnext := dequeue_nextDatabaseGeneration hv₀ request answers
  refine ⟨?_, ?_, ?_, ?_, ?_⟩
  · rintro r info generation rfl hidb hreply
    obtain ⟨l, m, ⟨error, hturn⟩ | hturn⟩ := turn_open s r answers
    · rw [hturn] at hreply
      cases hreply
    · obtain ⟨v, hv⟩ := (coherent_kept.library l m hu).1
      have hnone := hv.of_none hidb
      obtain ⟨error, t, -, hopen⟩ | ⟨t, db, hquiet, -, -, -, hopen⟩ :=
        runOpen_none hnone r answers
      · rw [hturn, hopen] at hreply
        cases hreply
      · rw [hturn, hopen] at hreply ⊢
        obtain ⟨rfl, rfl⟩ := Response.opened.inj (Option.some.inj hreply)
        refine ⟨⟨db, rfl, List.mem_cons_self⟩, rfl, rfl, ?_⟩
        intro i g hi
        have hissued := (h.2.issued i g hi).1
        obtain ⟨n, events, -, -, rfl⟩ := hquiet
        change g < (s.dequeue (.open r) answers).nextDatabaseGeneration + 1
        omega
  · rintro r info generation db rfl hidb hreply
    obtain ⟨l, m, ⟨error, hturn⟩ | hturn⟩ := turn_open s r answers
    · rw [hturn] at hreply
      cases hreply
    · obtain ⟨v, hv⟩ := (coherent_kept.library l m hu).1
      obtain ⟨v, rfl, hv⟩ := hv.of_some hidb
      obtain ⟨error, hopen⟩ | ⟨info', hopen⟩ := runOpen_some hv r answers
      · rw [hturn, hopen] at hreply
        cases hreply
      · rw [hturn, hopen] at hreply ⊢
        obtain ⟨-, rfl⟩ := Response.opened.inj (Option.some.inj hreply)
        exact ⟨hidb, hv.generation, hv.generation⟩
  · rintro r error rfl hreply
    obtain ⟨l, m, ⟨error', hturn⟩ | hturn⟩ := turn_open s r answers
    · rw [hturn]
      exact ⟨rfl, rfl⟩
    · obtain ⟨v, hv⟩ := (coherent_kept.library l m hu).1
      cases v with
      | none =>
        obtain ⟨error', t, hquiet, hopen⟩ | ⟨t, db, -, -, -, -, hopen⟩ :=
          runOpen_none hv r answers
        · rw [hturn, hopen]
          obtain ⟨n, events, -, -, rfl⟩ := hquiet
          exact ⟨rfl, rfl⟩
        · rw [hturn, hopen] at hreply
          cases hreply
      | some v =>
        obtain ⟨error', hopen⟩ | ⟨info, hopen⟩ := runOpen_some hv r answers
        · rw [hturn, hopen]
          exact ⟨rfl, rfl⟩
        · rw [hturn, hopen] at hreply
          cases hreply
  · intro generation hbound hstale
    have hother : (s.dequeue request answers).databaseGeneration ≠ some generation :=
      fun hg => hstale ((hu.current_iff generation).mpr hg)
    obtain ⟨l, m, ⟨error, hturn⟩ | hturn⟩ := turn_eq s request answers
    · rw [hturn]
    · have hsame := handle_stale answers hbound
        (s := { s.dequeue request answers with libInitialized := l, versionMismatch := m }) hother
      rw [hturn, hsame]
  · intro db hidb hturn
    obtain ⟨v, rfl, hv⟩ := hv₀.of_some hidb
    have hid : v.idb.id < s.nextIdb :=
      (h.2.issued _ _ (h.2.current _ _ hidb hv.generation)).2
    have hlock := (lock_kept v.idb.id v.lock).turn request answers
      ⟨h, hid, fun _ _ _ => hv.lockFile⟩ hrun
    rw [hlock.2.2 _ hturn rfl]
    exact hv.lockFile.symm

theorem Coherent.step {action : Action} (h : s.Coherent) (hstep : step s action = some t) :
    t.Coherent := by
  unfold Loop.step at hstep
  split at hstep
  next hrun =>
    cases action with
    | receive request answers =>
      obtain rfl := Option.some.inj hstep
      exact coherent_kept.turn request answers h hrun
    | disconnect =>
      obtain rfl := Option.some.inj hstep
      obtain ⟨v, hv⟩ := h.1
      rw [finish_eq hv]
      exact h.finished
  · cases hstep

theorem initial_coherent (libraryInitialized : Bool) (versionMismatch : Option String) :
    (initial libraryInitialized versionMismatch).Coherent := by
  refine ⟨⟨none, rfl, rfl, rfl, rfl, rfl, rfl, rfl, by simp⟩, ?_⟩
  refine ⟨by simp [initial], ?_, by simp [initial], by simp [initial]⟩
  rintro db g ⟨⟩

end Loop

open Foundation

/-- In every run of the loop the database, its generation, its path and its lock come and go
together, and a generation never stands for two databases. -/
theorem loop_coherence {libraryInitialized : Bool} {versionMismatch : Option String} {s : Loop}
    (h : Reachable Loop.step (Loop.initial libraryInitialized versionMismatch) s) :
    s.Together ∧ (∀ i j g, .opened i g ∈ s.log → .opened j g ∈ s.log → i = j) ∧
      (s.running = true → ∀ request answers, s.TurnCoherent request answers) := by
  have hcoherent : s.Coherent := invariant_of_reachable (fun _ _ _ => Loop.Coherent.step)
    (Loop.initial_coherent libraryInitialized versionMismatch) h
  obtain ⟨v, hv⟩ := hcoherent.1
  exact ⟨hv.together, hcoherent.2.one_database, hcoherent.turnCoherent⟩

theorem loop_coherence_opened :
    let request := Request.open (.ofPath "sample.i64")
    let s := ((Loop.initial false none).turn request .succeeding).2
    s.idb = some ⟨0, "sample.i64", true⟩ ∧ s.databaseGeneration = some 1 ∧
      s.heldLocks = ["sample.imcp"] ∧ s.Together ∧
      s.TurnCoherent (.closeIfGeneration 2) .succeeding := by
  have h := loop_coherence (s := ((Loop.initial false none).turn (.open (.ofPath "sample.i64")) .succeeding).2)
    ⟨[.receive (.open (.ofPath "sample.i64")) .succeeding], rfl⟩
  exact ⟨by decide +kernel, by decide +kernel, by decide +kernel, h.1,
    h.2.2 (by decide +kernel) _ _⟩

end IdaMcp.Worker
