import IdaMcp.Error
import IdaMcp.Foundation.Text

namespace IdaMcp.Debugger

open Foundation Text

inductive Platform
  | macos
  | linux
  | windows
  | other
deriving DecidableEq

inductive SessionKind
  | launched
  | attached
deriving DecidableEq

inductive ProcessState
  | suspended
  | noProcess
  | running
  | unknown (value : ℤ)
deriving DecidableEq

inductive StopAction
  | auto
  | detach
  | terminate
deriving DecidableEq

inductive Architecture
  | arm
  | aarch64
  | x86
  | x86_64
deriving DecidableEq

inductive FileType
  | macho
  | elf
  | pe
  | other (name : String)
deriving DecidableEq

structure Database where
  isArm : Bool
  is386 : Bool
  is64bit : Bool
  shortName : String
  fileType : FileType

structure Module where
  path : String
  base : ℕ
  size : ℕ
  rebaseTo : ℕ

inductive HelperError
  | notFound (detail : String)
  | failed (detail : String)

def HelperError.toolError : HelperError → ToolError
  | notFound detail => .invalidParams detail
  | failed detail => .idaError detail

/-- How IDA and the operating system answer during one call. -/
structure Answers where
  /-- The signed helper of macOS, and whether one had to take the place of another. -/
  helper : Except HelperError Unit
  helperReplaced : Bool
  load : Except String Unit
  start : Except String ℤ
  terminate : Except String ℤ
  detach : Except String ℤ
  modules : Except String (List Module)
  /-- The state that the call acts on, and the one its result reports. -/
  processState : ProcessState
  reportedState : ProcessState

inductive SdkCall
  | start (kind : SessionKind) (answer : Except String ℤ)
  | terminate (answer : Except String ℤ)
  | detach (answer : Except String ℤ)
  | observe (state : ProcessState)

inductive Reply
  | started (backend : String) (eventCode : ℤ) (processState : String) (sessionRetained : Bool)
  | userActionRequired (backend processState : String) (sessionRetained : Bool) (message error : String)
  | modules (backend processState : String) (modules : List Module)
  | stopped (backend : String) (eventCode : ℤ) (processState action : String) (alreadyStopped : Bool)
  | closed

structure DebuggerRuntime where
  backendLoaded : Bool := false
  session : Option SessionKind := none
deriving DecidableEq

structure Outcome where
  runtime : DebuggerRuntime
  result : Except ToolError Reply
  sdk : List SdkCall

/-! Backends. -/

def FileType.debug : FileType → String
  | macho => "MACHO"
  | elf => "ELF"
  | pe => "PE"
  | other name => name

def Architecture.debug : Architecture → String
  | arm => "Arm"
  | aarch64 => "Aarch64"
  | x86 => "X86"
  | x86_64 => "X86_64"

def targetArchitecture (database : Database) : Except ToolError Architecture :=
  if database.isArm then .ok (if database.is64bit then .aarch64 else .arm)
  else if database.is386 then .ok (if database.is64bit then .x86_64 else .x86)
  else .error (.notSupported ("no debugger backend for target processor " ++ database.shortName))

def debuggerBackendForTarget : Platform → FileType → Architecture → Except String String
  | .macos, .macho, .aarch64 => .ok "arm_mac"
  | .macos, .macho, .x86 | .macos, .macho, .x86_64 => .ok "mac"
  | .macos, .macho, .arm => .error "32-bit ARM Mach-O debugging is unsupported"
  | .macos, _, _ => .error "target is not a supported macOS executable"
  | .linux, .elf, .x86 | .linux, .elf, .x86_64 => .ok "linux"
  | .linux, .elf, .arm | .linux, .elf, .aarch64 =>
    .error "the ARM Linux debugger is remote-only and remote configuration is not exposed"
  | .linux, _, _ => .error "target is not a supported Linux executable"
  | .windows, .pe, .x86 | .windows, .pe, .x86_64 => .ok "win32"
  | .windows, .pe, .arm | .windows, .pe, .aarch64 =>
    .error "the IDA SDK does not provide a Windows-on-ARM user debugger"
  | .windows, _, _ => .error "target is not a supported Windows executable"
  | .other, _, _ => .error "debugger support is unavailable on this platform"

def debuggerBackend (platform : Platform) (database : Database) :
    Except ToolError (String × Architecture) :=
  match targetArchitecture database with
  | .error e => .error e
  | .ok architecture =>
    match debuggerBackendForTarget platform database.fileType architecture with
    | .ok backend => .ok (backend, architecture)
    | .error reason => .error (.notSupported ("no debugger backend for target " ++
        database.fileType.debug ++ "/" ++ architecture.debug ++ ": " ++ reason))

def macosHelperForTarget : Architecture → Except String String
  | .aarch64 => .ok "mac_server_arm"
  | .x86 | .x86_64 => .ok "mac_server"
  | .arm => .error "32-bit ARM macOS debugging is unsupported"

def debuggerError (error : String) : ToolError := .idaError ("IDA debugger operation failed: " ++ error)

def loadBackend (runtime : DebuggerRuntime) (backend : String) (answers : Answers) :
    DebuggerRuntime × Except ToolError String :=
  if runtime.backendLoaded then (runtime, .ok backend)
  else match answers.load with
    | .ok () => ({ runtime with backendLoaded := true }, .ok backend)
    | .error e => (runtime, .error (debuggerError e))

def ensureBackend (platform : Platform) (runtime : DebuggerRuntime) (database : Database)
    (answers : Answers) : DebuggerRuntime × Except ToolError String :=
  match debuggerBackend platform database with
  | .error e => (runtime, .error e)
  | .ok (backend, architecture) =>
    match platform with
    | .macos =>
      match macosHelperForTarget architecture with
      | .error reason => (runtime, .error (.notSupported
          ("no signed macOS debugger helper for target " ++ architecture.debug ++ ": " ++ reason)))
      | .ok _ =>
        let runtime := if answers.helperReplaced then { runtime with backendLoaded := false } else runtime
        match answers.helper with
        | .error e => (runtime, .error e.toolError)
        | .ok () => loadBackend runtime backend answers
    | .linux | .windows => loadBackend runtime backend answers
    | .other => (runtime, .error (.invalidParams "debugger support is unavailable on this platform"))

/-! The operations. -/

def ProcessState.name : ProcessState → String
  | suspended => "suspended"
  | noProcess => "no_process"
  | running => "running"
  | unknown value => "unknown_" ++ toString value

def StopAction.asStr : StopAction → String
  | auto => "auto"
  | detach => "detach"
  | terminate => "terminate"

def validateTimeout (timeoutSeconds : ℕ) : Except ToolError Unit :=
  if timeoutSeconds = 0 ∨ 120 < timeoutSeconds then
    .error (.invalidParams "debugger timeout must be between 1 and 120 seconds")
  else .ok ()

def DebuggerRuntime.ensureStartAllowed (runtime : DebuggerRuntime) : Except ToolError Unit :=
  if runtime.session.isSome then .error (.invalidParams
    "a debugger session is already active; call debug_stop before starting another")
  else .ok ()

def DebuggerRuntime.sessionKind (runtime : DebuggerRuntime) : Except ToolError SessionKind :=
  match runtime.session with
  | some kind => .ok kind
  | none => .error (.invalidParams
      "no active debugger session; call debug_launch or debug_attach first")

def DebuggerRuntime.clearSession (_ : DebuggerRuntime) : DebuggerRuntime where
  backendLoaded := false
  session := none

def DebuggerRuntime.retainSessionAfterStartError (runtime : DebuggerRuntime) (session : SessionKind)
    (processState : ProcessState) : DebuggerRuntime × Bool :=
  let retained : Bool := processState ≠ .noProcess
  (if retained ∧ runtime.session.isNone then { runtime with session := some session } else runtime,
    retained)

def startError (error : String) (sessionRetained : Bool) : ToolError :=
  if sessionRetained then .debuggerStartRetained (debuggerError error).display else debuggerError error

def macosAuthorizationFailure (message : String) : Bool :=
  let message := (trim message.toList).map Char.toLower
  let mentions (text : String) : Bool := text.toList <:+: message
  mentions "task_for_pid" || mentions "take control" ||
    (mentions "authorization" && (mentions "denied" || mentions "failed" || mentions "required" ||
      mentions "cancelled" || mentions "canceled")) ||
    ["debug launch was cancelled", "debug launch was canceled", "debug attach was cancelled",
      "debug attach was canceled"].any fun text => text.toList = message

def startDebugSession (platform : Platform) (runtime : DebuggerRuntime) (idb : Option Database)
    (session : SessionKind) (timeoutSeconds : ℕ) (denialMessage : String) (answers : Answers) : Outcome :=
  match validateTimeout timeoutSeconds, idb, runtime.ensureStartAllowed with
  | .error e, _, _ => ⟨runtime, .error e, []⟩
  | _, none, _ => ⟨runtime, .error .noDatabaseOpen, []⟩
  | _, _, .error e => ⟨runtime, .error e, []⟩
  | .ok (), some database, .ok () =>
    match ensureBackend platform runtime database answers with
    | (runtime, .error e) => ⟨runtime, .error e, []⟩
    | (runtime, .ok backend) =>
      match answers.start with
      | .ok eventCode =>
        ⟨{ runtime with session := some session },
          .ok (.started backend eventCode answers.reportedState.name true),
          [.start session (.ok eventCode), .observe answers.reportedState]⟩
      | .error error =>
        let (runtime, retained) := runtime.retainSessionAfterStartError session answers.processState
        let sdk := [.start session (.error error), .observe answers.processState]
        if platform = .macos ∧ macosAuthorizationFailure error = true then
          ⟨runtime, .ok (.userActionRequired backend answers.processState.name retained denialMessage error),
            sdk⟩
        else ⟨runtime, .error (startError error retained), sdk⟩

def launch (platform : Platform) (runtime : DebuggerRuntime) (idb : Option Database) (timeoutSeconds : ℕ)
    (answers : Answers) : Outcome :=
  startDebugSession platform runtime idb .launched timeoutSeconds
    ("macOS denied or cancelled task control. Complete IDA's Take Control authorization for this " ++
      "login, then retry. ida-mcp will not request root, disable SIP, change authorizationdb, or " ++
      "re-sign binaries.") answers

def attach (platform : Platform) (runtime : DebuggerRuntime) (idb : Option Database) (timeoutSeconds : ℕ)
    (answers : Answers) : Outcome :=
  startDebugSession platform runtime idb .attached timeoutSeconds
    ("macOS denied task attachment. Complete IDA's Take Control authorization for this login, " ++
      "then retry.") answers

def modules (platform : Platform) (runtime : DebuggerRuntime) (idb : Option Database)
    (answers : Answers) : Outcome :=
  match idb, runtime.sessionKind with
  | none, _ => ⟨runtime, .error .noDatabaseOpen, []⟩
  | _, .error e => ⟨runtime, .error e, []⟩
  | some database, .ok _ =>
    match ensureBackend platform runtime database answers with
    | (runtime, .error e) => ⟨runtime, .error e, []⟩
    | (runtime, .ok backend) =>
      match answers.modules with
      | .error e => ⟨runtime, .error (debuggerError e), []⟩
      | .ok modules =>
        ⟨runtime, .ok (.modules backend answers.reportedState.name modules),
          [.observe answers.reportedState]⟩

def StopAction.resolve (action : StopAction) (session : SessionKind) : StopAction :=
  match action, session with
  | .auto, .launched => .terminate
  | .auto, .attached => .detach
  | explicit, _ => explicit

def teardown (runtime : DebuggerRuntime) (backend : String) (resolved : StopAction) (answer : Except String ℤ)
    (call : Except String ℤ → SdkCall) (answers : Answers) : Outcome :=
  match answer with
  | .error e => ⟨runtime, .error (debuggerError e), [.observe answers.processState, call answer]⟩
  | .ok eventCode =>
    ⟨runtime.clearSession,
      .ok (.stopped backend eventCode answers.reportedState.name resolved.asStr false),
      [.observe answers.processState, call answer, .observe answers.reportedState]⟩

def stop (platform : Platform) (runtime : DebuggerRuntime) (idb : Option Database) (action : StopAction)
    (timeoutSeconds : ℕ) (answers : Answers) : Outcome :=
  match validateTimeout timeoutSeconds, idb, runtime.sessionKind with
  | .error e, _, _ => ⟨runtime, .error e, []⟩
  | _, none, _ => ⟨runtime, .error .noDatabaseOpen, []⟩
  | _, _, .error e => ⟨runtime, .error e, []⟩
  | .ok (), some database, .ok session =>
    let resolved := action.resolve session
    if answers.processState = .noProcess then
      match debuggerBackend platform database with
      | .error e => ⟨runtime, .error e, [.observe .noProcess]⟩
      | .ok (backend, _) =>
        ⟨runtime.clearSession,
          .ok (.stopped backend 0 answers.reportedState.name resolved.asStr true),
          [.observe .noProcess, .observe answers.reportedState]⟩
    else
      match ensureBackend platform runtime database answers with
      | (runtime, .error e) => ⟨runtime, .error e, [.observe answers.processState]⟩
      | (runtime, .ok backend) =>
        match resolved with
        | .detach => teardown runtime backend resolved answers.detach .detach answers
        | .terminate => teardown runtime backend resolved answers.terminate .terminate answers
        | .auto => ⟨runtime, .error (.idaError "internal debugger stop policy was not resolved"),
            [.observe answers.processState]⟩

def closeTeardown (runtime : DebuggerRuntime) (answer : Except String ℤ) (call : Except String ℤ → SdkCall)
    (answers : Answers) : Outcome :=
  match answer with
  | .error e => ⟨runtime, .error (.debuggerTeardown e), [.observe answers.processState, call answer]⟩
  | .ok _ => ⟨runtime.clearSession, .ok .closed, [.observe answers.processState, call answer]⟩

def closeSession (runtime : DebuggerRuntime) (idb : Option Database) (answers : Answers) : Outcome :=
  match idb, runtime.session with
  | none, _ | some _, none => ⟨runtime.clearSession, .ok .closed, []⟩
  | some _, some session =>
    if answers.processState = .noProcess then ⟨runtime.clearSession, .ok .closed, [.observe .noProcess]⟩
    else match session with
      | .launched => closeTeardown runtime answers.terminate .terminate answers
      | .attached => closeTeardown runtime answers.detach .detach answers

end IdaMcp.Debugger
