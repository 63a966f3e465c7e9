import IdaMcp.Worker.Loop

namespace IdaMcp.Worker

structure Holding where
  idb : Idb
  generation : ℕ
  path : String
  lock : String

namespace Loop

/-- The locals of the loop, its locks and its databases all say that it holds `v`. -/
structure Holds (s : Loop) (v : Option Holding) : Prop where
  idb : s.idb = v.map Holding.idb
  generation : s.databaseGeneration = v.map Holding.generation
  path : s.effectiveDatabasePath = v.map Holding.path
  lockFile : s.lockFile = v.map Holding.lock
  lockPath : s.lockPath = v.map Holding.lock
  heldLocks : s.heldLocks = (v.map Holding.lock).toList
  openIdbs : s.openIdbs = (v.map fun h => h.idb.id).toList
  saves : ∀ h ∈ v, h.idb.saveOnClose = true

def emptied (s : Loop) (saved : Bool) : Loop :=
  { s with
    idb := none
    effectiveDatabasePath := none
    databaseGeneration := none
    lockFile := none
    lockPath := none
    heldLocks := []
    openIdbs := []
    log := (s.idb.map fun db => Event.closed db.id saved).toList ++ s.log }

def opening (s : Loop) (db : Idb) (lock : String) : Loop :=
  { s with
    idb := some db
    effectiveDatabasePath := some db.path
    databaseGeneration := some (s.nextDatabaseGeneration + 1)
    nextDatabaseGeneration := s.nextDatabaseGeneration + 1
    lockFile := some lock
    lockPath := some lock
    heldLocks := [lock]
    openIdbs := [db.id]
    nextIdb := db.id + 1
    log := .opened db.id (s.nextDatabaseGeneration + 1) :: s.log }

variable {s t : Loop} {v : Option Holding} {answers : Answers} {request : Request}

theorem Holds.isSome (h : s.Holds v) : s.idb.isSome = v.isSome := by
  rw [h.idb, Option.isSome_map]

theorem Holds.of_none (h : s.Holds v) (hidb : s.idb = none) : s.Holds none := by
  cases v with
  | none => exact h
  | some v => exact absurd h.isSome (by simp [hidb])

theorem Holds.of_some {db : Idb} (h : s.Holds v) (hidb : s.idb = some db) :
    ∃ v, v.idb = db ∧ s.Holds (some v) := by
  cases v with
  | none => exact absurd h.isSome (by simp [hidb])
  | some v => exact ⟨v, Option.some.inj (h.idb.symm.trans hidb), h⟩

theorem Holds.emptied (saved : Bool) : (s.emptied saved).Holds none :=
  ⟨rfl, rfl, rfl, rfl, rfl, rfl, rfl, by simp⟩

theorem Holds.quiet (h : s.Holds v) (hq : s.Quiet t) : t.Holds v := by
  obtain ⟨n, events, -, -, rfl⟩ := hq
  exact ⟨h.idb, h.generation, h.path, h.lockFile, h.lockPath, h.heldLocks, h.openIdbs, h.saves⟩

theorem Holds.opening {db : Idb} (lock : String) (hsave : db.saveOnClose = true) :
    (s.opening db lock).Holds (some ⟨db, s.nextDatabaseGeneration + 1, db.path, lock⟩) :=
  ⟨rfl, rfl, rfl, rfl, rfl, rfl, rfl, by rintro _ ⟨⟩; exact hsave⟩

theorem Holds.congr (h : s.Holds v) (hidb : t.idb = s.idb)
    (hgeneration : t.databaseGeneration = s.databaseGeneration)
    (hpath : t.effectiveDatabasePath = s.effectiveDatabasePath) (hfile : t.lockFile = s.lockFile)
    (hlock : t.lockPath = s.lockPath) (hlocks : t.heldLocks = s.heldLocks)
    (hidbs : t.openIdbs = s.openIdbs) : t.Holds v :=
  ⟨hidb.trans h.idb, hgeneration.trans h.generation, hpath.trans h.path, hfile.trans h.lockFile,
    hlock.trans h.lockPath, hlocks.trans h.heldLocks, hidbs.trans h.openIdbs, h.saves⟩

theorem closeSession_snd (s : Loop) (session : SessionAnswers) :
    ∃ d, (s.closeSession session).2 = { s with debugSession := d } := by
  unfold closeSession
  split
  · exact ⟨none, rfl⟩
  · split
    · exact ⟨s.debugSession, rfl⟩
    · exact ⟨none, rfl⟩

theorem closeSession_error {session : SessionAnswers} {error : ToolError}
    (h : s.closeSession session = (.error error, t)) : t = s := by
  unfold closeSession at h
  split at h
  · cases h
  · split at h
    · exact (Prod.mk.inj h).2.symm
    · cases h

theorem closeDatabase_eq (h : s.Holds v) : s.closeDatabase = s.emptied true := by
  obtain ⟨idb, path, generation, next, lockFile, lockPath, lib, mismatch, debug, crashed, running,
    locks, idbs, nextIdb, log⟩ := s
  obtain ⟨hidb, hgeneration, hpath, hfile, hlock, hlocks, hidbs, hsaves⟩ := h
  cases v with
  | none =>
    dsimp only at *
    subst hidb hgeneration hpath hfile hlock hlocks hidbs
    rfl
  | some v =>
    have hsave := hsaves v rfl
    dsimp only at *
    subst hidb hgeneration hpath hfile hlock hlocks hidbs
    simp [closeDatabase, Loop.takeIdb, releaseMcpLock, Loop.emptied, Loop.dropIdb, Loop.unlock, hsave]

theorem finish_eq (h : s.Holds v) :
    s.finish = { s.emptied true with
      debugSession := none
      crashedOperation := none
      running := false } := by
  have hclosed := closeDatabase_eq h
  obtain ⟨idb, path, generation, next, lockFile, lockPath, lib, mismatch, debug, crashed, running,
    locks, idbs, nextIdb, log⟩ := s
  obtain ⟨hidb, hgeneration, hpath, hfile, hlock, hlocks, hidbs, hsaves⟩ := h
  cases v with
  | none =>
    dsimp only at *
    subst hidb hgeneration hpath hfile hlock hlocks hidbs
    rfl
  | some v =>
    have hsave := hsaves v rfl
    dsimp only at *
    subst hidb hgeneration hpath hfile hlock hlocks hidbs
    simp [finish, Loop.takeIdb, releaseMcpLock, Loop.emptied, Loop.dropIdb, Loop.unlock, hsave]

theorem shutdownCleanup_finish (h : s.Holds v) : (s.shutdownCleanup answers).finish = s.finish := by
  obtain ⟨d, hd⟩ := closeSession_snd s answers.session
  unfold shutdownCleanup
  rw [hd]
  obtain ⟨idb, path, generation, next, lockFile, lockPath, lib, mismatch, debug, crashed, running,
    locks, idbs, nextIdb, log⟩ := s
  obtain ⟨hidb, hgeneration, hpath, hfile, hlock, hlocks, hidbs, hsaves⟩ := h
  cases v <;>
  · dsimp only at *
    subst hidb hgeneration hpath hfile hlock hlocks hidbs
    simp [finish, Loop.takeIdb, releaseMcpLock, Loop.dropIdb, Loop.unlock]

theorem takeCrashed_none (h : s.crashedOperation = none) : s.takeCrashed answers = s := by
  simp [takeCrashed, h]

theorem takeCrashed_some (h : s.Holds v) (hc : s.crashedOperation.isSome = true)
    (answers : Answers) :
    ∃ d, s.takeCrashed answers =
      { s.emptied false with debugSession := d, crashedOperation := none } := by
  obtain ⟨d, hd⟩ := closeSession_snd { s with crashedOperation := none } answers.discard
  refine ⟨d, ?_⟩
  unfold takeCrashed discardDatabaseAfterCrash
  rw [if_pos hc]
  dsimp only
  rw [hd]
  obtain ⟨idb, path, generation, next, lockFile, lockPath, lib, mismatch, debug, crashed, running,
    locks, idbs, nextIdb, log⟩ := s
  obtain ⟨hidb, hgeneration, hpath, hfile, hlock, hlocks, hidbs, hsaves⟩ := h
  cases v with
  | none =>
    dsimp only at *
    subst hidb hgeneration hpath hfile hlock hlocks hidbs
    rfl
  | some v =>
    dsimp only at *
    subst hidb hgeneration hpath hfile hlock hlocks hidbs
    cases hcrashes : answers.discardCrashes <;>
    simp [guardRun, releaseMcpLock, Loop.emptied, Loop.dropIdb, Loop.unlock]

theorem runOpen_some {v : Holding} (h : s.Holds (some v)) (request : OpenRequest)
    (answers : Answers) :
    (∃ error, s.runOpen request answers = (.error error, s)) ∨
    ∃ info, s.runOpen request answers =
      (.opened info v.generation, s.record (.opened v.idb.id v.generation)) := by
  have hidb : s.idb = some v.idb := h.idb
  have hgeneration : s.databaseGeneration = some v.generation := h.generation
  have hstate := handleOpen_some request answers.database hidb
  unfold runOpen
  split
  next error _ => exact .inl ⟨error, rfl⟩
  · cases hopen : handleOpen request answers.database s with
    | mk answer t =>
      rw [hopen] at hstate
      obtain rfl : t = s := hstate
      cases answer with
      | error error => exact .inl ⟨error, rfl⟩
      | ok info =>
        refine .inr ⟨info, ?_⟩
        simp [assignGeneration, answerOpen, hidb, hgeneration, record]

theorem assignGeneration_installed {db : Idb} {lock : String} (h : s.Holds none)
    (hlimit : s.nextDatabaseGeneration + 1 < UInt64.size) :
    (s.installed db lock).assignGeneration false ⟨db.path⟩ =
      (.ok (s.nextDatabaseGeneration + 1), { s.opening db lock with log := s.log }) := by
  have hgeneration : s.databaseGeneration = none := h.generation
  have hlocks : s.heldLocks = [] := h.heldLocks
  have hidbs : s.openIdbs = [] := h.openIdbs
  simp [assignGeneration, installed, Loop.openIdb, opening, hgeneration, hlocks,
    hidbs, hlimit]

theorem assignGeneration_exhausted {db : Idb} {lock : String} {info : DbInfo} (h : s.Holds none)
    (hlimit : ¬s.nextDatabaseGeneration + 1 < UInt64.size) :
    (s.installed db lock).assignGeneration false info =
      (.error (.idaError "database generation counter exhausted"), (s.openIdb db).dropIdb db) := by
  have hgeneration : s.databaseGeneration = none := h.generation
  have hfile : s.lockFile = none := h.lockFile
  have hlock : s.lockPath = none := h.lockPath
  have hpath : s.effectiveDatabasePath = none := h.path
  have hidb : s.idb = none := h.idb
  simp [assignGeneration, installed, Loop.openIdb, hgeneration, hlimit, takeIdb,
    releaseMcpLock, Loop.dropIdb, Loop.unlock, hfile, hlock, hpath, hidb]

theorem runOpen_none (h : s.Holds none) (request : OpenRequest) (answers : Answers) :
    (∃ error t, s.Quiet t ∧ s.runOpen request answers = (.error error, t)) ∨
    ∃ m db, s.Quiet m ∧ db.id = m.nextIdb ∧ db.saveOnClose = true ∧
      m.nextDatabaseGeneration + 1 < UInt64.size ∧
      s.runOpen request answers = (.opened ⟨db.path⟩ (m.nextDatabaseGeneration + 1),
        m.opening db (mcpLockPath (lockTargetPath request answers.database))) := by
  have hends := handleOpen_none request answers.database h.idb
  have hidb : s.idb.isSome = false := h.isSome
  unfold runOpen
  split
  next error _ => exact .inl ⟨error, s, .refl s, rfl⟩
  · obtain ⟨error, herror, hquiet⟩ | ⟨m, db, hquiet, hid, hsave, hopen⟩ := hends
    · obtain ⟨t, ht⟩ : ∃ t, handleOpen request answers.database s = (.error error, t) :=
        ⟨_, Prod.ext herror rfl⟩
      rw [ht] at hquiet ⊢
      exact .inl ⟨error, t, hquiet, rfl⟩
    · rw [hopen, hidb]
      have hm := h.quiet hquiet
      dsimp only
      by_cases hlimit : m.nextDatabaseGeneration + 1 < UInt64.size
      · rw [assignGeneration_installed hm hlimit]
        exact .inr ⟨m, db, hquiet, hid, hsave, hlimit, rfl⟩
      · rw [assignGeneration_exhausted hm hlimit]
        exact .inl ⟨_, _, hquiet.trans (openIdb_dropIdb hid), rfl⟩

theorem runOperation_snd (s : Loop) (operation : Operation) (expected : Option ℕ)
    (answers : Answers) :
    (s.runOperation operation expected answers).2 = s ∨
      (s.runOperation operation expected answers).2 = s.perform operation answers := by
  unfold runOperation
  split
  · exact .inl rfl
  · exact .inr rfl

theorem runClose_snd (h : s.Holds v) (answers : Answers) (reply : Response) :
    (s.runClose answers reply).2 = s ∨
      ∃ d, (s.runClose answers reply).2 = { s with debugSession := d }.emptied true := by
  obtain ⟨d, hd⟩ := closeSession_snd s answers.session
  unfold runClose
  split
  next error t hclose => exact .inl (closeSession_error hclose)
  next t hclose =>
    rw [hclose] at hd
    obtain rfl : t = { s with debugSession := d } := hd
    have hs : Holds { s with debugSession := d } v :=
      ⟨h.idb, h.generation, h.path, h.lockFile, h.lockPath, h.heldLocks, h.openIdbs, h.saves⟩
    exact .inr ⟨d, closeDatabase_eq hs⟩

theorem ensureLibrary_snd (s : Loop) (request : Request) (answers : Answers) :
    ∃ l m, (s.ensureLibrary request answers).2 =
      { s with libInitialized := l, versionMismatch := m } := by
  unfold ensureLibrary
  split
  · exact ⟨s.libInitialized, s.versionMismatch, rfl⟩
  · split
    · exact ⟨s.libInitialized, s.versionMismatch, rfl⟩
    · split
      · exact ⟨true, _, rfl⟩
      · exact ⟨s.libInitialized, s.versionMismatch, rfl⟩

theorem turn_eq (s : Loop) (request : Request) (answers : Answers) : ∃ l m,
    (∃ error, s.turn request answers = (rejectWithError request error,
      { s.dequeue request answers with libInitialized := l, versionMismatch := m })) ∨
    s.turn request answers =
      { s.dequeue request answers with libInitialized := l, versionMismatch := m }.handle request
        answers := by
  obtain ⟨l, m, hlib⟩ := ensureLibrary_snd (s.dequeue request answers) request answers
  refine ⟨l, m, ?_⟩
  unfold Loop.turn
  split
  next error w hready =>
    rw [hready] at hlib
    obtain rfl : w = _ := hlib
    exact .inl ⟨error, rfl⟩
  next w hready =>
    rw [hready] at hlib
    obtain rfl : w = _ := hlib
    unfold serve
    split
    · exact .inr rfl
    · split
      · exact .inr rfl
      · exact .inl ⟨_, rfl⟩

structure Kept (I : Loop → Prop) : Prop where
  holds {s : Loop} : I s → ∃ v, s.Holds v
  taken {s : Loop} (request : Request) (answers : Answers) : I s → I (s.dequeue request answers)
  library {s : Loop} (l : Bool) (m : Option String) :
    I s → I { s with libInitialized := l, versionMismatch := m }
  session {s : Loop} (d : Option DebugSessionKind) : I s → I { s with debugSession := d }
  quiet {s t : Loop} : I s → s.crashedOperation = none → s.Quiet t → I t
  opening {s : Loop} {db : Idb} (lock : String) : I s → s.crashedOperation = none → s.Holds none →
    db.id = s.nextIdb → db.saveOnClose = true → I (s.opening db lock)
  answered {s : Loop} {db : Idb} {generation : ℕ} : I s → s.crashedOperation = none →
    s.idb = some db → s.databaseGeneration = some generation →
    I (s.record (.opened db.id generation))
  emptied {s : Loop} : I s → s.crashedOperation = none → I (s.emptied true)
  performed {s : Loop} (operation : Operation) (answers : Answers) : I s → s.running = true →
    s.crashedOperation = none → I (s.perform operation answers)
  finished {s : Loop} : I s → s.crashedOperation = none → I { s.emptied true with
    debugSession := none, crashedOperation := none, running := false }

theorem dequeue_cases (h : s.Holds v) (request : Request) (answers : Answers) :
    s.dequeue request answers = s.record (.handled request) ∧ s.crashedOperation = none ∨
    ∃ d, s.crashedOperation.isSome = true ∧ s.dequeue request answers =
      { s.emptied false with debugSession := d, crashedOperation := none }.record
        (.handled request) := by
  cases hc : s.crashedOperation with
  | none => exact .inl ⟨by rw [dequeue, takeCrashed_none hc], rfl⟩
  | some operation =>
    obtain ⟨d, hd⟩ := takeCrashed_some h (by simp [hc]) answers
    exact .inr ⟨d, rfl, by rw [dequeue, hd]⟩

theorem dequeue_crashedOperation (h : s.Holds v) (request : Request) (answers : Answers) :
    (s.dequeue request answers).crashedOperation = none := by
  obtain ⟨hu, hc⟩ | ⟨d, -, hu⟩ := dequeue_cases h request answers <;> rw [hu]
  · exact hc
  · rfl

theorem dequeue_running (h : s.Holds v) (request : Request) (answers : Answers) :
    (s.dequeue request answers).running = s.running := by
  obtain ⟨hu, -⟩ | ⟨d, -, hu⟩ := dequeue_cases h request answers <;> rw [hu]
  · rfl
  · rfl

theorem Kept.shutdown {I : Loop → Prop} (hI : Kept I) (hs : I s) (hc : s.crashedOperation = none) :
    I (s.shutdownCleanup answers).finish := by
  obtain ⟨v, hv⟩ := hI.holds hs
  rw [shutdownCleanup_finish hv, finish_eq hv]
  exact hI.finished hs hc

theorem Kept.handle {I : Loop → Prop} (hI : Kept I) (hs : I s) (hrun : s.running = true)
    (hc : s.crashedOperation = none) : I (s.handle request answers).2 := by
  obtain ⟨v, hv⟩ := hI.holds hs
  have hclose : ∀ reply, I (s.runClose answers reply).2 := by
    intro reply
    obtain h | ⟨d, h⟩ := runClose_snd hv answers reply
    · rw [h]
      exact hs
    · rw [h]
      exact hI.emptied (hI.session d hs) hc
  cases request with
  | «open» request =>
    change I (s.runOpen request answers).2
    cases v with
    | none =>
      obtain ⟨error, t, hq, h⟩ | ⟨m, db, hq, hid, hsave, -, h⟩ := runOpen_none hv request answers
      · rw [h]
        exact hI.quiet hs hc hq
      · have hmc : m.crashedOperation = none := by
          obtain ⟨n, events, -, -, rfl⟩ := hq
          exact hc
        rw [h]
        exact hI.opening _ (hI.quiet hs hc hq) hmc (hv.quiet hq) hid hsave
    | some v =>
      obtain ⟨error, h⟩ | ⟨info, h⟩ := runOpen_some hv request answers
      · rw [h]
        exact hs
      · rw [h]
        exact hI.answered hs hc hv.idb hv.generation
  | close => exact hclose _
  | closeIfGeneration generation =>
    unfold Loop.handle
    dsimp only
    split
    · exact hclose _
    · exact hs
  | operation operation expected =>
    change I (s.runOperation operation expected answers).2
    obtain h | h := runOperation_snd s operation expected answers
    · rw [h]
      exact hs
    · rw [h]
      exact hI.performed operation answers hs hrun hc
  | shutdown => exact hI.shutdown hs hc

theorem Kept.turn {I : Loop → Prop} (hI : Kept I) (request : Request) (answers : Answers)
    (hs : I s) (hrun : s.running = true) :
    I (s.turn request answers).2 := by
  obtain ⟨v, hv⟩ := hI.holds hs
  have hrun' := (dequeue_running hv request answers).trans hrun
  have hc := dequeue_crashedOperation hv request answers
  obtain ⟨l, m, ⟨error, hturn⟩ | hturn⟩ := turn_eq s request answers
  · rw [hturn]
    exact hI.library l m (hI.taken request answers hs)
  · rw [hturn]
    exact hI.handle (hI.library l m (hI.taken request answers hs)) hrun' hc

theorem perform_eq (s : Loop) (operation : Operation) (answers : Answers) : ∃ d c events,
    s.perform operation answers = { s with
      debugSession := d
      crashedOperation := c
      log := events ++ ((s.idb.map fun db => Event.used db.id operation).toList ++ s.log) } ∧
    (c = s.crashedOperation ∧ events = [] ∨
      c.isSome = true ∧ events = (s.idb.map fun db => Event.crashed db.id).toList) := by
  unfold perform
  dsimp only
  split
  next label _ =>
    unfold guardRun
    split
    · exact ⟨_, some label, _, rfl, .inr ⟨rfl, rfl⟩⟩
    · exact ⟨_, s.crashedOperation, [], rfl, .inl ⟨rfl, rfl⟩⟩
  · exact ⟨_, s.crashedOperation, [], rfl, .inl ⟨rfl, rfl⟩⟩

end Loop

end IdaMcp.Worker
