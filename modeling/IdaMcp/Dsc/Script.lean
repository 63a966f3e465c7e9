import IdaMcp.Dsc.Idat
import IdaMcp.Foundation.Directory
import IdaMcp.Tasks.Registry
import Mathlib.Data.List.Infix

namespace IdaMcp.Dsc

open Foundation

def escapeChar : Char → List Char
  | '\\' => ['\\', '\\']
  | '"' => ['\\', '"']
  | '\n' => ['\\', 'n']
  | '\r' => ['\\', 'r']
  | c => [c]

def escapePythonString (s : String) : String := String.ofList (s.toList.flatMap escapeChar)

def loadFramework (framework : String) : String :=
  "\nprint(\"[ida-mcp] loading framework: " ++ escapePythonString framework ++ "\")\n" ++
    "dscu_load_module(\"" ++ escapePythonString framework ++ "\")\n"

def objcPasses : String :=
  "\n# ObjC type analysis\n" ++
  "print(\"[ida-mcp] analyzing objc types\")\n" ++
  "load_and_run_plugin(\"objc\", 1)\n" ++
  "print(\"[ida-mcp] analyzing NSConcreteGlobalBlock objects\")\n" ++
  "load_and_run_plugin(\"objc\", 4)\n\n" ++
  "# Auto-analysis\n" ++
  "print(\"[ida-mcp] performing auto-analysis...\")\n" ++
  "auto_mark_range(0, BADADDR, AU_FINAL)\n" ++
  "auto_wait()\n\n" ++
  "# Stack block analysis\n" ++
  "print(\"[ida-mcp] analyzing NSConcreteStackBlock objects\")\n" ++
  "load_and_run_plugin(\"objc\", 5)\n\n" ++
  "print(\"[ida-mcp] DSC module loading complete\")\n"

def dscLoadScript (helpers moduleName : String) (frameworks : List String) : String :=
  "import idaapi\n\tfrom idc import *\n\n\t" ++ helpers ++ "\n\t" ++
  "\n# Load primary module\n" ++
  "print(\"[ida-mcp] loading module: " ++ escapePythonString moduleName ++ "\")\n" ++
  "dsc_backend = dscu_load_module(\"" ++ escapePythonString moduleName ++ "\")\n" ++
  "print(f\"[ida-mcp] dsc backend: \x7bdsc_backend\x7d\")\n" ++
  String.join (frameworks.map loadFramework) ++ objcPasses

structure Request where
  owner : Tasks.TaskOwner
  scriptDir : String
  /-- The DSC file, less its directory and its extension. -/
  stem : String
  moduleName : String
  frameworks : List String
  logPath : Option String
deriving DecidableEq, Repr

def Request.out (r : Request) : String := r.scriptDir ++ "/" ++ r.stem

def Request.scriptPath (r : Request) : String := r.scriptDir ++ "/ida_mcp_dsc_load.py"

def Request.script (helpers : String) (r : Request) : List Char :=
  (dscLoadScript helpers r.moduleName r.frameworks).toList

def dscTaskKey (out : String) : String := out ++ "." ++ Artifact.i64.extension

inductive Answer
  | direct
  | alreadyRunning
  | error (error : ToolError)

inductive Stage
  | findIdat
  | openScript
  | writeScript (file : Inode)
  | checkLogPath
  | createKeyed
  | task (run : Run)
  | ended
  | answered (answer : Answer)

structure Call where
  request : Request
  stage : Stage

structure State where
  dir : Directory String Char
  call : ℕ → Option Call
  nextCall : ℕ
  /-- What the idat processes have read, each for the call that spawned it. -/
  reads : List (ℕ × Option (List Char))
  written : List Inode

inductive Action
  /-- A call comes in, on an SDK before 9.4, and looks for the database `output` of its DSC file. -/
  | start (request : Request) (output : Output)
  | advance (u : ℕ)
  | fails (u : ℕ) (error : String)
  | registryFull (u max : ℕ)
  | run (u : ℕ) (action : RunAction)
  | disk (u : ℕ) (artifact : Artifact) (present : Bool)
  | read (u : ℕ)
  | finish (u : ℕ)
  | foreign (path : String) (bytes : List Char)

def initial : State where
  dir := .empty
  call := fun _ => none
  nextCall := 0
  reads := []
  written := []

def idatNotFound : String :=
  "Cannot find idat binary. Set IDADIR environment variable to your IDA installation directory."

def logPathTraversal : String := "log_path must not contain '..' path traversal"

def hasTraversal (path : String) : Bool := decide ("..".toList <:+: path.toList)

def Stage.isRunning : Stage → Bool
  | .task r =>
    match r.position with
    | .done _ => false
    | _ => true
  | _ => false

namespace State

variable (s : State)

def setCall (u : ℕ) (c : Call) : State := { s with call := Function.update s.call u (some c) }

def goto (u : ℕ) (c : Call) (stage : Stage) : State := s.setCall u { c with stage }

def runs (key : String) (v : ℕ) : Bool :=
  match s.call v with
  | some c => c.stage.isRunning && dscTaskKey c.request.out == key
  | none => false

def existing (key : String) : Option ℕ := (List.range s.nextCall).find? (s.runs key)

end State

section Steps

variable (helpers : String) (s : State) (u : ℕ) (c : Call)

def openScript : State :=
  let file := s.dir.opened c.request.scriptPath
  { s.goto u c (.writeScript file) with
    dir := s.dir.openTruncate c.request.scriptPath
    written := file :: s.written }

def writeScript (file : Inode) : State :=
  { s.goto u c .checkLogPath with dir := s.dir.append file (c.request.script helpers) }

def duplicate (v : ℕ) : Answer :=
  match s.call v with
  | some existing =>
    if c.request.owner ≠ .runtime ∧ existing.request.owner = c.request.owner then .alreadyRunning
    else .error .backgroundTaskHandlePrivate
  | none => .error .backgroundTaskHandlePrivate

def createKeyed : State :=
  match s.existing (dscTaskKey c.request.out) with
  | some v => s.goto u c (.answered (duplicate s c v))
  | none =>
    s.goto u c (.task (.start c.request.out (fun _ => false) (c.request.logPath.map fun _ => [])))

/-- `open_dsc` on its legacy path, up to the start of its task. -/
def advance : Option State :=
  match c.stage with
  | .findIdat => some (s.goto u c .openScript)
  | .openScript => some (openScript s u c)
  | .writeScript file => some (writeScript helpers s u c file)
  | .checkLogPath =>
    if c.request.logPath.any hasTraversal then
      some (s.goto u c (.answered (.error (.invalidParams logPathTraversal))))
    else some (s.goto u c .createKeyed)
  | .createKeyed => some (createKeyed s u c)
  | _ => none

def fails (error : String) : Option State :=
  match c.stage with
  | .findIdat => some (s.goto u c (.answered (.error (.invalidParams idatNotFound))))
  | .openScript | .writeScript _ =>
    some (s.goto u c (.answered (.error (.invalidParams ("Failed to write DSC load script: " ++ error)))))
  | _ => none

/-- A step of the task, whose guard removes the script when it goes off. -/
def runTask (action : RunAction) : Option State :=
  match c.stage with
  | .task r =>
    match r.step action with
    | some r' =>
      some { s.goto u c (.task r') with
        dir := if r.scriptCleanup && !r'.scriptCleanup then s.dir.unlink c.request.scriptPath else s.dir }
    | none => none
  | _ => none

def readScript : Option State :=
  match c.stage with
  | .task r =>
    if r.idat = .running then
      some { s with reads := (u, (s.dir.entry c.request.scriptPath).map s.dir.content) :: s.reads }
    else none
  | _ => none

end Steps

def step (helpers : String) (s : State) : Action → Option State
  | .start request output =>
    some { s.setCall s.nextCall
        ⟨request, if idaDatabaseOutputExists output then .answered .direct else .findIdat⟩ with
      nextCall := s.nextCall + 1 }
  | .advance u => (s.call u).bind (advance helpers s u)
  | .fails u error => (s.call u).bind fun c => fails s u c error
  | .registryFull u max =>
    (s.call u).bind fun c =>
      match c.stage with
      | .createKeyed => some (s.goto u c (.answered (.error (.backgroundTaskRegistryFull max))))
      | _ => none
  | .run u action => (s.call u).bind fun c => runTask s u c action
  | .disk u artifact present =>
    (s.call u).bind fun c =>
      match c.stage with
      | .task r => some (s.goto u c (.task { r with output := Function.update r.output artifact present }))
      | _ => none
  | .read u => (s.call u).bind (readScript s u)
  | .finish u =>
    (s.call u).bind fun c =>
      match c.stage with
      | .task r => if r.position = .openDatabase then some (s.goto u c .ended) else none
      | _ => none
  | .foreign path bytes => (s.dir.createNew path bytes).map fun dir => { s with dir }

end IdaMcp.Dsc
