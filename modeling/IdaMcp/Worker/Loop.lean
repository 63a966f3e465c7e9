import IdaMcp.Worker.Database

namespace IdaMcp.Worker

structure SessionAnswers where
  noProcess : Bool
  teardown : Except String Unit

/-- What a turn of the loop meets outside of it. -/
structure Answers where
  discard : SessionAnswers
  /-- closing the database after a crash crashes again -/
  discardCrashes : Bool
  /-- the cancellation token of the request, before the deferred initialization and in its arm -/
  initCancelled : Bool
  cancelled : Bool
  /-- the SDK version mismatch that a successful initialization reports -/
  initLibrary : Except String (Option String)
  admission : Except ToolError Unit
  database : OpenAnswers
  session : SessionAnswers
  /-- what the handler of an operation returns -/
  result : Except ToolError Unit
  /-- the session that a debugger handler leaves -/
  debugSession : Option DebugSessionKind

inductive ConditionalCloseResult
  | closed
  | notCurrent
deriving DecidableEq, Repr

inductive Response
  | opened (info : DbInfo) (generation : ℕ)
  | closed
  | conditionallyClosed (result : ConditionalCloseResult)
  | performed
  | error (error : ToolError)

def Request.hasCancelToken : Request → Bool
  | .open _ | .operation .analyzeFuncs _ | .operation .runScript _ => true
  | _ => false

namespace Loop

def record (s : Loop) (event : Event) : Loop := { s with log := event :: s.log }

def closeSession (s : Loop) (answers : SessionAnswers) : Except ToolError Unit × Loop :=
  if s.idb.isNone || s.debugSession.isNone || answers.noProcess then
    (.ok (), { s with debugSession := none })
  else
    match answers.teardown with
    | .error error => (.error (.debuggerTeardown error), s)
    | .ok _ => (.ok (), { s with debugSession := none })

def guardRun (s : Loop) (operation : String) (result : Except ToolError Unit) : Loop :=
  match result with
  | .error (.sdkCrashed _) =>
    { s with
      crashedOperation := some operation
      log := (s.idb.map fun db => Event.crashed db.id).toList ++ s.log }
  | _ => s

def discardDatabaseAfterCrash (s : Loop) (answers : Answers) : Loop :=
  let s := (s.closeSession answers.discard).2
  match s.idb with
  | some db =>
    let s := { s.dropIdb { db with saveOnClose := false } with idb := none }
    let closed := if answers.discardCrashes then .error (.sdkCrashed "discard_database") else .ok ()
    { s.guardRun "discard_database" closed with crashedOperation := none }
  | none => s

def takeCrashed (s : Loop) (answers : Answers) : Loop :=
  if s.crashedOperation.isSome then
    let s := { s with crashedOperation := none }.discardDatabaseAfterCrash answers
    { s with effectiveDatabasePath := none, databaseGeneration := none }.releaseMcpLock
  else s

def closeDatabase (s : Loop) : Loop :=
  { s.takeIdb with effectiveDatabasePath := none, databaseGeneration := none }.releaseMcpLock

def shutdownCleanup (s : Loop) (answers : Answers) : Loop :=
  (s.closeSession answers.session).2.takeIdb.releaseMcpLock

def finish (s : Loop) : Loop :=
  { s.releaseMcpLock.takeIdb with
    effectiveDatabasePath := none
    databaseGeneration := none
    debugSession := none
    crashedOperation := none
    running := false }

def ensureLibrary (s : Loop) (request : Request) (answers : Answers) :
    Except ToolError Unit × Loop :=
  if s.libInitialized then (.ok (), s)
  else
    match ensureNotCancelled (request.hasCancelToken && answers.initCancelled) with
    | .error error => (.error error, s)
    | .ok _ =>
      match answers.initLibrary with
      | .ok versionMismatch =>
        (.ok (), { s with libInitialized := true, versionMismatch := versionMismatch })
      | .error error =>
        (.error (.idaError ("failed to initialize IDA on the main thread: " ++ error)), s)

/-- The generation that an Open answers with, which installs a database unless it had one. -/
def assignGeneration (s : Loop) (hadOpenDatabase : Bool) (info : DbInfo) :
    Except ToolError ℕ × Loop :=
  match s.databaseGeneration, hadOpenDatabase with
  | some generation, true => (.ok generation, s)
  | _, _ =>
    if s.nextDatabaseGeneration + 1 < UInt64.size then
      let next := s.nextDatabaseGeneration + 1
      let s := { s with nextDatabaseGeneration := next, databaseGeneration := some next }
      (.ok next,
        if hadOpenDatabase then s else { s with effectiveDatabasePath := some info.path })
    else
      (.error (.idaError "database generation counter exhausted"),
        { s.takeIdb with effectiveDatabasePath := none }.releaseMcpLock)

def answerOpen (s : Loop) (info : DbInfo) (generation : ℕ) : Response × Loop :=
  (.opened info generation,
    { s with log := (s.idb.map fun db => Event.opened db.id generation).toList ++ s.log })

def runOpen (s : Loop) (request : OpenRequest) (answers : Answers) : Response × Loop :=
  match ensureNotCancelled answers.cancelled with
  | .error error => (.error error, s)
  | .ok _ =>
    let hadOpenDatabase := s.idb.isSome
    match handleOpen request answers.database s with
    | (.error error, s) => (.error error, s)
    | (.ok info, s) =>
      match s.assignGeneration hadOpenDatabase info with
      | (.error error, s) => (.error error, s)
      | (.ok generation, s) => s.answerOpen info generation

def runClose (s : Loop) (answers : Answers) (reply : Response) : Response × Loop :=
  match s.closeSession answers.session with
  | (.error error, s) => (.error error, s)
  | (.ok _, s) => (reply, s.closeDatabase)

end Loop

def requireGeneration (expected current : Option ℕ) : Except ToolError Unit :=
  match expected with
  | none => .ok ()
  | some generation =>
    if current = some generation then .ok () else .error .databaseReplaced

def Arm.check (arm : Arm) (expected current : Option ℕ) (answers : Answers) :
    Except ToolError Unit := do
  if arm.admits then answers.admission
  if arm.bound then requireGeneration expected current
  if arm.cancellable then ensureNotCancelled answers.cancelled

namespace Loop

def perform (s : Loop) (operation : Operation) (answers : Answers) : Loop :=
  let s :=
    { s with
      debugSession := if operation.debugs then answers.debugSession else s.debugSession
      log := (s.idb.map fun db => Event.used db.id operation).toList ++ s.log }
  match operation.arm.guard with
  | some label => s.guardRun label answers.result
  | none => s

def runOperation (s : Loop) (operation : Operation) (expected : Option ℕ) (answers : Answers) :
    Response × Loop :=
  match operation.arm.check expected s.databaseGeneration answers with
  | .error error => (.error error, s)
  | .ok _ =>
    (match answers.result with
      | .ok _ => .performed
      | .error error => .error error,
      s.perform operation answers)

end Loop

def rejectWithError (request : Request) (error : ToolError) : Option Response :=
  match request with
  | .shutdown => none
  | _ => some (.error error)

def Loop.handle (s : Loop) (request : Request) (answers : Answers) : Option Response × Loop :=
  match request with
  | .open request => (s.runOpen request answers).map some id
  | .close => (s.runClose answers .closed).map some id
  | .closeIfGeneration generation =>
    if s.databaseGeneration = some generation then
      (s.runClose answers (.conditionallyClosed .closed)).map some id
    else (some (.conditionallyClosed .notCurrent), s)
  | .operation operation expected => (s.runOperation operation expected answers).map some id
  | .shutdown => (none, (s.shutdownCleanup answers).finish)

namespace Loop

def dequeue (s : Loop) (request : Request) (answers : Answers) : Loop :=
  (s.takeCrashed answers).record (.handled request)

/-- With a version mismatch every request but a Shutdown is refused. -/
def serve (s : Loop) (request : Request) (answers : Answers) : Option Response × Loop :=
  match s.versionMismatch with
  | none => s.handle request answers
  | some message =>
    match request with
    | .shutdown => (none, (s.shutdownCleanup answers).finish)
    | other => (rejectWithError other (.sdkVersionMismatch message), s)

def turn (s : Loop) (request : Request) (answers : Answers) : Option Response × Loop :=
  match (s.dequeue request answers).ensureLibrary request answers with
  | (.error error, s) => (rejectWithError request error, s)
  | (.ok _, s) => s.serve request answers

end Loop

def OpenAnswers.succeeding : OpenAnswers where
  cancelled _ := false
  expandPath path := path
  hasIdaDatabaseExtension _ := true
  sameDatabase := .ok true
  idaDatabaseOutputExists _ := true
  validateRawIdbOutput := .ok ()
  acquireMcpLock := .ok ()
  openCandidate := .ok "sample.i64"
  recordedHash := []
  inputHash := .ok []
  pathMatches := false
  baseAddressAccepted := .ok ()
  openDatabase := .ok "sample.i64"
  configureRawBitness := .ok ()
  configureRawEntryPoint := .ok ()
  autoWait := true
  materializeRawEntryPoint := .ok ()
  hasDsym := false

def Answers.succeeding : Answers where
  discard := ⟨false, .ok ()⟩
  discardCrashes := false
  initCancelled := false
  cancelled := false
  initLibrary := .ok none
  admission := .ok ()
  database := .succeeding
  session := ⟨false, .ok ()⟩
  result := .ok ()
  debugSession := none

def OpenRequest.ofPath (path : String) : OpenRequest where
  path := path
  loadDebugInfo := false
  force := false
  rebuild := false
  autoAnalyse := false
  rawTarget := ⟨none, none, none, none⟩
  idbOut := none

inductive Loop.Action
  | receive (request : Request) (answers : Answers)
  /-- every sender of the channel is gone -/
  | disconnect

def Loop.step (s : Loop) (action : Action) : Option Loop :=
  if s.running then
    match action with
    | .receive request answers => some (s.turn request answers).2
    | .disconnect => some s.finish
  else none

def Loop.initial (libraryInitialized : Bool) (versionMismatch : Option String) : Loop where
  idb := none
  effectiveDatabasePath := none
  databaseGeneration := none
  nextDatabaseGeneration := 0
  lockFile := none
  lockPath := none
  libInitialized := libraryInitialized
  versionMismatch := versionMismatch
  debugSession := none
  crashedOperation := none
  running := true
  heldLocks := []
  openIdbs := []
  nextIdb := 0
  log := []

end IdaMcp.Worker
