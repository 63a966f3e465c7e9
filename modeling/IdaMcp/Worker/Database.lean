import IdaMcp.Worker.Request

namespace IdaMcp.Worker

structure Idb where
  id : ℕ
  path : String
  saveOnClose : Bool
deriving DecidableEq, Repr

inductive DebugSessionKind
  | launched
  | attached
deriving DecidableEq, Repr

inductive Event
  /-- An Open answers with the generation. -/
  | opened (idb generation : ℕ)
  | closed (idb : ℕ) (saved : Bool)
  | used (idb : ℕ) (operation : Operation)
  | crashed (idb : ℕ)
  /-- The request is dequeued; any crash before it is dealt with. -/
  | handled (request : Request)

/-- The locals of the loop, and what they stand for outside: the MCP locks that are held, the
databases that IDA has open, and the events so far, the last one first. -/
structure Loop where
  idb : Option Idb
  effectiveDatabasePath : Option String
  databaseGeneration : Option ℕ
  nextDatabaseGeneration : ℕ
  /-- the file, by the path at which it was locked -/
  lockFile : Option String
  lockPath : Option String
  libInitialized : Bool
  versionMismatch : Option String
  debugSession : Option DebugSessionKind
  crashedOperation : Option String
  running : Bool
  heldLocks : List String
  openIdbs : List ℕ
  nextIdb : ℕ
  log : List Event

namespace Loop

def nextOpened (s : Loop) (path : String) (save : Bool) : Idb := ⟨s.nextIdb, path, save⟩

def openIdb (s : Loop) (db : Idb) : Loop :=
  { s with openIdbs := db.id :: s.openIdbs, nextIdb := db.id + 1 }

def dropIdb (s : Loop) (db : Idb) : Loop :=
  { s with openIdbs := s.openIdbs.erase db.id, log := .closed db.id db.saveOnClose :: s.log }

def lock (s : Loop) (path : String) : Loop := { s with heldLocks := path :: s.heldLocks }

def unlock (s : Loop) (path : String) : Loop := { s with heldLocks := s.heldLocks.erase path }

def takeIdb (s : Loop) : Loop :=
  match s.idb with
  | some db => { s.dropIdb db with idb := none }
  | none => s

def releaseMcpLock (s : Loop) : Loop :=
  match s.lockFile with
  | some file => { s.unlock file with lockFile := none, lockPath := none }
  | none => { s with lockPath := none }

end Loop

def setExtension (path extension : String) : String :=
  let fromEnd := dropTrailing path.toList.reverse
  let name := fromEnd.takeWhile (· != '/')
  if name.all (· == '.') && name.length ≤ 2 then path
  else
    let directory := fromEnd.drop name.length
    String.ofList ((fileStem name ++ directory).reverse) ++ "." ++ extension
where
  /-- Separators, and components that are only `.`, after the file name. -/
  dropTrailing : List Char → List Char
    | '/' :: rest => dropTrailing rest
    | '.' :: '/' :: rest => dropTrailing ('/' :: rest)
    | name => name
  /-- A dot that begins the name does not begin an extension. -/
  fileStem (name : List Char) : List Char :=
    match name.dropWhile (· != '.') with
    | '.' :: stem@(_ :: _) => stem
    | _ => name

def mcpLockPath (database : String) : String := setExtension database "imcp"

example : mcpLockPath "/tmp/a.b/sample.i64" = "/tmp/a.b/sample.imcp" := by decide +kernel

structure DbInfo where
  path : String

/-- What the file system, IDA and the cancellation token answer during `handle_open`. -/
structure OpenAnswers where
  /-- the checks of the cancellation token, in order -/
  cancelled : ℕ → Bool
  expandPath : String → String
  hasIdaDatabaseExtension : String → Bool
  sameDatabase : Except ToolError Bool
  idaDatabaseOutputExists : String → Bool
  validateRawIdbOutput : Except ToolError Unit
  acquireMcpLock : Except ToolError Unit
  /-- the path that was opened, or IDA's error with what `detect_db_lock` makes of it -/
  openCandidate : Except (Option String × String) String
  recordedHash : List UInt8
  inputHash : Except ToolError (List UInt8)
  pathMatches : Bool
  baseAddressAccepted : Except String Unit
  openDatabase : Except (Option String × String) String
  configureRawBitness : Except ToolError Unit
  configureRawEntryPoint : Except ToolError Unit
  autoWait : Bool
  materializeRawEntryPoint : Except ToolError Unit
  hasDsym : Bool

inductive ExistingRawIdbAction
  | reuse
  | rebuild
deriving DecidableEq, Repr

def existingRawIdbAction (rebuild : Bool) (recordedHash inputHash : List UInt8)
    (recordedPathMatches : Bool) : Option ExistingRawIdbAction :=
  let recordedHashAvailable := recordedHash.any (· != 0)
  let hashMatches := recordedHashAvailable && recordedHash == inputHash
  if !rebuild && hashMatches then some .reuse
  else if rebuild && (hashMatches || recordedPathMatches) then some .rebuild
  else none

def refusal (rebuild : Bool) (recordedHash : List UInt8) (pathMatches : Bool)
    (candidatePath expanded : String) : String :=
  if !rebuild && pathMatches then
    if recordedHash.any (· != 0) then
      candidatePath ++ " was created from this input path, but its recorded SHA-256 does not " ++
        "match the current file; open that database path directly to preserve its analysis, " ++
        "choose a different idb_out, or retry with rebuild=true to replace stale analysis"
    else
      candidatePath ++ " has no recorded input SHA-256 and cannot be reused automatically; open " ++
        "that database path directly to preserve its analysis, choose a different idb_out, or " ++
        "retry with rebuild=true to replace it because its recorded input path matches"
  else
    "refusing to " ++ (if rebuild then "overwrite" else "reuse") ++ " " ++ candidatePath ++
      " because it is not provenance-matched to " ++ expanded ++
      "; choose a different idb_out or remove the candidate after verifying it"

def ensureNotCancelled (cancelled : Bool) : Except ToolError Unit :=
  if cancelled then .error (.cancelled "Operation cancelled by client") else .ok ()

section

variable (request : OpenRequest) (answers : OpenAnswers)

def expanded : String := answers.expandPath request.path

def isIdb : Bool := answers.hasIdaDatabaseExtension (expanded request answers)

/-- The path whose MCP lock the open takes: the database, or the output of a raw input. -/
def lockTargetPath : String :=
  if isIdb request answers then expanded request answers
  else (request.idbOut.map answers.expandPath).getD (expanded request answers ++ ".i64")

def checkTarget (hasDatabase : Bool) : Except ToolError Unit := do
  ensureNotCancelled (answers.cancelled 0)
  if isIdb request answers && (request.idbOut.isSome || !request.rawTarget.isEmpty) then
    throw (.invalidParams ("processor, bitness, base_address, entry_point, and idb_out apply only " ++
      "to a raw input"))
  if let some baseAddress := request.rawTarget.baseAddress then
    if baseAddress % 16 != 0 then
      throw (.invalidParams ("raw base address 0x" ++ ToolError.lowerHex baseAddress ++
        " must be 16-byte aligned"))
  if hasDatabase && !request.rawTarget.isEmpty then
    throw (.invalidParams ("raw target options only apply while creating a database; close the " ++
      "open database before retrying with processor, bitness, base_address, or entry_point"))

def checkInput : Except ToolError (Option String) := do
  if !answers.idaDatabaseOutputExists (expanded request answers) then
    throw (.invalidPath ("File not found: " ++ expanded request answers))
  if isIdb request answers then return none
  answers.validateRawIdbOutput
  let outPath := lockTargetPath request answers
  if answers.idaDatabaseOutputExists outPath then
    if !request.rebuild && !request.rawTarget.isEmpty then
      throw (.invalidParams ("raw target options cannot change an existing database; set " ++
        "rebuild=true to recreate it"))
    return some outPath
  return none

def openCandidate (s : Loop) (mcpLock candidatePath : String) :
    Except ToolError (Option Idb) × Loop :=
  match answers.openCandidate with
  | .error (some lockMessage, _) => (.error (.databaseLocked lockMessage), s.unlock mcpLock)
  | .error (none, error) =>
    (.error (.openFailed ("refusing to reuse or overwrite " ++ candidatePath ++
      " because its input provenance could not be read: " ++ error)), s.unlock mcpLock)
  | .ok openedPath =>
    let candidate := s.nextOpened openedPath false
    let s := s.openIdb candidate
    match ensureNotCancelled (answers.cancelled 1) with
    | .error error => (.error error, (s.dropIdb candidate).unlock mcpLock)
    | .ok _ =>
      match answers.inputHash with
      | .error error => (.error error, (s.dropIdb candidate).unlock mcpLock)
      | .ok inputHash =>
        match existingRawIdbAction request.rebuild answers.recordedHash inputHash
          answers.pathMatches with
        | some .reuse => (.ok (some { candidate with saveOnClose := true }), s)
        | some .rebuild => (.ok none, s.dropIdb candidate)
        | none =>
          (.error (.invalidParams (refusal request.rebuild answers.recordedHash answers.pathMatches
            candidatePath (expanded request answers))), (s.dropIdb candidate).unlock mcpLock)

def openDatabase (s : Loop) (mcpLock : String) : Except ToolError Idb × Loop :=
  let refused : Except String Unit :=
    if request.rawTarget.baseAddress.isSome && !isIdb request answers then
      answers.baseAddressAccepted
    else .ok ()
  match refused with
  | .error error => (.error (.invalidParams error), s.unlock mcpLock)
  | .ok _ =>
    match answers.openDatabase with
    | .error (some lockMessage, _) => (.error (.databaseLocked lockMessage), s.unlock mcpLock)
    | .error (none, error) =>
      (.error (.openFailed (lockTargetPath request answers ++ ": " ++ error)), s.unlock mcpLock)
    | .ok openedPath =>
      let path := if isIdb request answers then openedPath else lockTargetPath request answers
      let db := s.nextOpened path true
      (.ok db, s.openIdb db)

def configure (hasCandidate : Bool) : Except ToolError Unit := do
  if request.rawTarget.bitness.isSome then answers.configureRawBitness
  if request.rawTarget.entryPoint.isSome then answers.configureRawEntryPoint
  if request.autoAnalyse && (request.rawTarget.bitness.isSome || request.rawTarget.entryPoint.isSome) &&
      !answers.autoWait then
    throw (.openFailed "IDA auto-analysis did not complete after raw target configuration")
  if request.rawTarget.entryPoint.isSome then answers.materializeRawEntryPoint
  ensureNotCancelled (answers.cancelled 2)
  if request.loadDebugInfo || !isIdb request answers && !hasCandidate && answers.hasDsym then
    ensureNotCancelled (answers.cancelled 3)
  ensureNotCancelled (answers.cancelled 4)

def finishOpen (s : Loop) (mcpLock : String) (hasCandidate : Bool) (db : Idb) :
    Except ToolError DbInfo × Loop :=
  match configure request answers hasCandidate with
  | .error error => (.error error, (s.dropIdb db).unlock mcpLock)
  | .ok _ =>
    (.ok ⟨db.path⟩, { s with lockFile := some mcpLock, lockPath := some mcpLock, idb := some db })

def existingRawIdb (s : Loop) (mcpLock : String) (candidate : Option String) :
    Except ToolError (Option Idb) × Loop :=
  match candidate with
  | some candidatePath => openCandidate request answers s mcpLock candidatePath
  | none => (.ok none, s)

def openLocked (s : Loop) (candidate : Option String) : Except ToolError DbInfo × Loop :=
  let mcpLock := mcpLockPath (lockTargetPath request answers)
  match existingRawIdb request answers (s.lock mcpLock) mcpLock candidate with
  | (.error error, s) => (.error error, s)
  | (.ok (some db), s) => finishOpen request answers s mcpLock candidate.isSome db
  | (.ok none, s) =>
    match openDatabase request answers s mcpLock with
    | (.error error, s) => (.error error, s)
    | (.ok db, s) => finishOpen request answers s mcpLock candidate.isSome db

def handleOpen (s : Loop) : Except ToolError DbInfo × Loop :=
  match checkTarget request answers s.idb.isSome with
  | .error error => (.error error, s)
  | .ok _ =>
    match s.idb with
    | some db =>
      let currentPath := s.effectiveDatabasePath.getD db.path
      match answers.sameDatabase with
      | .error error => (.error error, s)
      | .ok true => (.ok ⟨currentPath⟩, s)
      | .ok false => (.error (.databaseAlreadyOpen currentPath), s)
    | none =>
      match checkInput request answers with
      | .error error => (.error error, s)
      | .ok candidate =>
        match answers.acquireMcpLock with
        | .error error => (.error error, s)
        | .ok _ => openLocked request answers s candidate

end

namespace Loop

/-- `t` is `s` but for databases that were opened and closed again in between. -/
def Quiet (s t : Loop) : Prop :=
  ∃ n events, s.nextIdb ≤ n ∧
    (∀ e ∈ events, ∃ id saved, e = .closed id saved ∧ s.nextIdb ≤ id ∧ id < n) ∧
    t = { s with nextIdb := n, log := events ++ s.log }

def installed (s : Loop) (db : Idb) (lock : String) : Loop :=
  { s.openIdb db with
    heldLocks := lock :: s.heldLocks
    lockFile := some lock
    lockPath := some lock
    idb := some db }

theorem Quiet.refl (s : Loop) : s.Quiet s := ⟨s.nextIdb, [], le_rfl, by simp, rfl⟩

theorem Quiet.trans {s t u : Loop} (hst : s.Quiet t) (htu : t.Quiet u) : s.Quiet u := by
  obtain ⟨n, events, hn, hevents, rfl⟩ := hst
  obtain ⟨n', events', hn', hevents', rfl⟩ := htu
  refine ⟨n', events' ++ events, hn.trans hn', ?_, by simp⟩
  intro e he
  rcases List.mem_append.mp he with he | he
  · obtain ⟨id, saved, rfl, hlow, hhigh⟩ := hevents' e he
    exact ⟨id, saved, rfl, hn.trans hlow, hhigh⟩
  · obtain ⟨id, saved, rfl, hlow, hhigh⟩ := hevents e he
    exact ⟨id, saved, rfl, hlow, hhigh.trans_le hn'⟩

theorem Quiet.unlock {s t : Loop} (h : s.Quiet t) (path : String) :
    (s.unlock path).Quiet (t.unlock path) := by
  obtain ⟨n, events, hn, hevents, rfl⟩ := h
  exact ⟨n, events, hn, hevents, rfl⟩

@[simp] theorem unlock_lock (s : Loop) (path : String) : (s.lock path).unlock path = s := by
  simp [Loop.lock, Loop.unlock]

theorem openIdb_dropIdb {s : Loop} {db : Idb} (h : db.id = s.nextIdb) :
    s.Quiet ((s.openIdb db).dropIdb db) := by
  refine ⟨db.id + 1, [.closed db.id db.saveOnClose], by omega, ?_, by simp [openIdb, dropIdb]⟩
  intro e he
  exact ⟨db.id, db.saveOnClose, List.mem_singleton.mp he, by omega, by omega⟩

end Loop

section

variable {request : OpenRequest} {answers : OpenAnswers} {s t : Loop} {lock candidatePath : String}
  {error : ToolError}

theorem openCandidate_error
    (h : openCandidate request answers s lock candidatePath = (.error error, t)) :
    (s.unlock lock).Quiet t := by
  have hdropped : ∀ path, (s.unlock lock).Quiet
      (((s.openIdb (s.nextOpened path false)).dropIdb (s.nextOpened path false)).unlock lock) :=
    fun path => (Loop.openIdb_dropIdb rfl).unlock lock
  unfold openCandidate at h
  split at h
  · obtain ⟨-, rfl⟩ := Prod.mk.inj h
    exact .refl _
  · obtain ⟨-, rfl⟩ := Prod.mk.inj h
    exact .refl _
  · dsimp only at h
    split at h
    · obtain ⟨-, rfl⟩ := Prod.mk.inj h
      exact hdropped _
    · split at h
      · obtain ⟨-, rfl⟩ := Prod.mk.inj h
        exact hdropped _
      · split at h
        · cases h
        · cases h
        · obtain ⟨-, rfl⟩ := Prod.mk.inj h
          exact hdropped _

theorem openCandidate_ok {reused : Option Idb}
    (h : openCandidate request answers s lock candidatePath = (.ok reused, t)) :
    match reused with
    | none => s.Quiet t
    | some db => db.id = s.nextIdb ∧ db.saveOnClose = true ∧ t = s.openIdb db := by
  unfold openCandidate at h
  split at h
  · cases h
  · cases h
  · dsimp only at h
    split at h
    · cases h
    · split at h
      · cases h
      · split at h
        · obtain ⟨hdb, rfl⟩ := Prod.mk.inj h
          cases hdb
          exact ⟨rfl, rfl, rfl⟩
        · obtain ⟨hdb, rfl⟩ := Prod.mk.inj h
          cases hdb
          exact Loop.openIdb_dropIdb rfl
        · cases h

theorem openDatabase_error (h : openDatabase request answers s lock = (.error error, t)) :
    t = s.unlock lock := by
  unfold openDatabase at h
  dsimp only at h
  split at h
  · exact (Prod.mk.inj h).2.symm
  · split at h
    · exact (Prod.mk.inj h).2.symm
    · exact (Prod.mk.inj h).2.symm
    · cases h

theorem openDatabase_ok {db : Idb} (h : openDatabase request answers s lock = (.ok db, t)) :
    db.id = s.nextIdb ∧ db.saveOnClose = true ∧ t = s.openIdb db := by
  unfold openDatabase at h
  dsimp only at h
  split at h
  · cases h
  · split at h
    · cases h
    · cases h
    · obtain ⟨hdb, rfl⟩ := Prod.mk.inj h
      cases hdb
      exact ⟨rfl, rfl, rfl⟩

theorem existingRawIdb_cases {candidate : Option String} {existing : Except ToolError (Option Idb)}
    (h : existingRawIdb request answers s lock candidate = (existing, t)) :
    match existing with
    | .error _ => (s.unlock lock).Quiet t
    | .ok none => s.Quiet t
    | .ok (some db) => db.id = s.nextIdb ∧ db.saveOnClose = true ∧ t = s.openIdb db := by
  cases candidate with
  | none =>
    obtain ⟨rfl, rfl⟩ := Prod.mk.inj h
    exact .refl _
  | some candidatePath =>
    cases existing with
    | error error => exact openCandidate_error h
    | ok reused =>
      have hreused := openCandidate_ok h
      cases reused with
      | none => exact hreused
      | some db => exact hreused

def OpenEnds (s : Loop) (lock : String) (answer : Except ToolError DbInfo × Loop) : Prop :=
  (∃ error, answer.1 = .error error ∧ s.Quiet answer.2) ∨
    ∃ m db, s.Quiet m ∧ db.id = m.nextIdb ∧ db.saveOnClose = true ∧
      answer = (.ok ⟨db.path⟩, m.installed db lock)

theorem finishOpen_ends {hasCandidate : Bool} {m : Loop} {db : Idb} (hm : (s.lock lock).Quiet m)
    (hid : db.id = m.nextIdb) (hsave : db.saveOnClose = true) :
    OpenEnds s lock (finishOpen request answers (m.openIdb db) lock hasCandidate db) := by
  have hunlocked := hm.unlock lock
  rw [Loop.unlock_lock] at hunlocked
  unfold finishOpen
  split
  next error _ =>
    exact .inl ⟨error, rfl, hunlocked.trans ((Loop.openIdb_dropIdb hid).unlock lock)⟩
  · refine .inr ⟨m.unlock lock, db, hunlocked, hid, hsave, ?_⟩
    obtain ⟨n, events, -, -, rfl⟩ := hm
    simp [Loop.installed, Loop.openIdb, Loop.unlock, Loop.lock]

theorem openLocked_ends (candidate : Option String) :
    OpenEnds s (mcpLockPath (lockTargetPath request answers))
      (openLocked request answers s candidate) := by
  unfold openLocked
  dsimp only
  generalize mcpLockPath (lockTargetPath request answers) = lock
  split
  next error t hexisting =>
    have ht := existingRawIdb_cases hexisting
    rw [Loop.unlock_lock] at ht
    exact .inl ⟨error, rfl, ht⟩
  next db t hexisting =>
    obtain ⟨hid, hsave, rfl⟩ := existingRawIdb_cases hexisting
    exact finishOpen_ends (.refl _) hid hsave
  next t hexisting =>
    have ht : (s.lock lock).Quiet t := existingRawIdb_cases hexisting
    split
    next error u hopen =>
      obtain rfl := openDatabase_error hopen
      have hu := ht.unlock lock
      rw [Loop.unlock_lock] at hu
      exact .inl ⟨error, rfl, hu⟩
    next db u hopen =>
      obtain ⟨hid, hsave, rfl⟩ := openDatabase_ok hopen
      exact finishOpen_ends ht hid hsave

theorem handleOpen_none (request : OpenRequest) (answers : OpenAnswers) (hs : s.idb = none) :
    OpenEnds s (mcpLockPath (lockTargetPath request answers)) (handleOpen request answers s) := by
  unfold handleOpen
  split
  next error _ => exact .inl ⟨error, rfl, .refl s⟩
  · rw [hs]
    dsimp only
    split
    next error _ => exact .inl ⟨error, rfl, .refl s⟩
    · split
      next error _ => exact .inl ⟨error, rfl, .refl s⟩
      · exact openLocked_ends _

theorem handleOpen_some {db : Idb} (request : OpenRequest) (answers : OpenAnswers)
    (hs : s.idb = some db) : (handleOpen request answers s).2 = s := by
  unfold handleOpen
  split
  · rfl
  · rw [hs]
    dsimp only
    split <;> rfl

end

end IdaMcp.Worker
