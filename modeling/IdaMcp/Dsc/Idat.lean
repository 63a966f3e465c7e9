import IdaMcp.Error
import IdaMcp.Foundation.Machine

namespace IdaMcp.Dsc

open Foundation

inductive DscOpenPlan
  | directExistingI64
  | backgroundDirectRawDsc
  | legacyIdatBackground
deriving DecidableEq, Repr

def dscOpenPlan (sdkVersion : ℤ × ℤ) (i64Exists : Bool) : DscOpenPlan :=
  if i64Exists then .directExistingI64
  else if 9 < sdkVersion.1 ∨ sdkVersion.1 = 9 ∧ 4 ≤ sdkVersion.2 then .backgroundDirectRawDsc
  else .legacyIdatBackground

inductive Artifact
  | i64
  | id0
  | id1
  | id2
  | nam
  | til
deriving DecidableEq, Repr

def Artifact.extension : Artifact → String
  | i64 => "i64"
  | id0 => "id0"
  | id1 => "id1"
  | id2 => "id2"
  | nam => "nam"
  | til => "til"

abbrev Output := Artifact → Bool

def idaDatabaseOutputExists (output : Output) : Bool := output .i64 || output .id0

def orphanedArtifacts : List Artifact := [.id1, .id2, .nam, .til]

def partialArtifacts : List Artifact := [.i64, .id0, .id1, .id2, .nam, .til]

inductive Idat
  | unspawned
  | running
  | exited (code : Option ℤ) (stderr : String)
deriving DecidableEq, Repr

inductive Outcome
  | cancelled (message : String)
  | failed (message : String)
  | completed (error : ToolError)
deriving DecidableEq, Repr

/-- What a run tells the registry at its end: `finish_cancelled`, `fail`, or
`complete_background_tool_error` with an error that is not fatal. -/
inductive Settlement
  | finishCancelled (message : String)
  | fail (error : String)
  | toolError (error : ToolError) (cancelMessage : String)
deriving DecidableEq, Repr

inductive Position
  | begin
  | checkOutput
  | acquireLock
  | recheckOutput
  | removeOrphaned (rest : List Artifact)
  | spawn
  | wait
  | startKill (settlement : Settlement)
  | reap (settlement : Settlement)
  | removePartial (rest : List Artifact) (settlement : Settlement)
  | settled (exitCode : ℤ) (stderr : String)
  | checkExit (exitCode : ℤ) (stderr : String)
  | openDatabase
  | done (outcome : Outcome)
deriving DecidableEq, Repr

structure Run where
  out : String
  position : Position
  idat : Idat
  output : Output
  /-- The lines of the log file, if there is one to read. -/
  log : Option (List String)
  cancelToken : Bool
  cancelRequested : Option String
  /-- The guard that removes the load script is armed. -/
  scriptCleanup : Bool

inductive RunAction
  | advance
  | fails (error : String)
  | lockFails (error : ToolError)
  | stop
  | requestCancel (message : String)
  | cancel
  | write (artifact : Artifact)
  | erase (artifact : Artifact)
  | log (line : String)
  | exit (code : Option ℤ) (stderr : String)
deriving DecidableEq, Repr

def Run.start (out : String) (output : Output) (log : Option (List String)) : Run where
  out
  position := .begin
  idat := .unspawned
  output
  log
  cancelToken := false
  cancelRequested := none
  scriptCleanup := false

def preparingCancelled : String := "Cancelled while preparing the DSC output"

def settledCancelled : String := "Cancelled after the idat subprocess settled"

def killedCancelled : String :=
  "Cancelled; the idat subprocess was killed and its partial output removed"

def outputAppeared (out : String) : ToolError :=
  .databaseLocked (out ++ "." ++ Artifact.i64.extension ++
    " appeared while preparing DSC generation; retry open_dsc to reuse it")

def orphanRemovalFailed (out : String) (artifact : Artifact) (error : String) : ToolError :=
  .openFailed ("failed to remove orphaned DSC database artifact " ++ out ++ "." ++ artifact.extension ++
    ": " ++ error)

def logTail (lines : List String) : String := "\n".intercalate (lines.drop (lines.length - 20))

def exitMessage (exitCode : ℤ) (stderr : String) (log : Option (List String)) : String :=
  "idat exited with code " ++ toString exitCode ++ ".\nstderr: " ++ stderr ++
    match log with
    | some lines => "\nlog (last 20 lines):\n" ++ logTail lines
    | none => ""

namespace Run

def goto (r : Run) (position : Position) : Run := { r with position }

def remove (r : Run) (artifact : Artifact) : Run :=
  { r with output := Function.update r.output artifact false }

/-- What the registry makes of a settlement: a cancellation that is requested by then wins over a
failure, and over a completion the cancelled token does too. -/
def outcome (r : Run) : Settlement → Outcome
  | .finishCancelled message => .cancelled message
  | .fail error =>
    match r.cancelRequested with
    | some message => .cancelled message
    | none => .failed error
  | .toolError error cancelMessage =>
    if r.cancelToken then .cancelled cancelMessage
    else
      match r.cancelRequested with
      | some message => .cancelled message
      | none => .completed error

def settle (r : Run) (settlement : Settlement) : Run := r.goto (.done (r.outcome settlement))

/-- `run_dsc_background` on its legacy path, up to the opening of the database. -/
def advance (r : Run) : Option Run :=
  match r.position with
  | .begin =>
    if r.cancelToken then some (r.settle (.finishCancelled "Cancelled by session shutdown"))
    else some { r with position := .checkOutput, scriptCleanup := true }
  | .checkOutput =>
    if idaDatabaseOutputExists r.output then
      some (r.settle (.toolError (outputAppeared r.out) preparingCancelled))
    else some (r.goto .acquireLock)
  | .acquireLock => some (r.goto .recheckOutput)
  | .recheckOutput =>
    if idaDatabaseOutputExists r.output then
      some (r.settle (.toolError (outputAppeared r.out) preparingCancelled))
    else some (r.goto (.removeOrphaned orphanedArtifacts))
  | .removeOrphaned (artifact :: rest) => some ((r.remove artifact).goto (.removeOrphaned rest))
  | .removeOrphaned [] => some (r.goto .spawn)
  | .spawn => some { r with position := .wait, idat := .running }
  | .wait =>
    match r.idat with
    | .exited code stderr => some (r.goto (.settled (code.getD (-1)) stderr))
    | _ => none
  | .startKill settlement => some (r.goto (.reap settlement))
  | .reap settlement =>
    match r.idat with
    | .exited _ _ => some (r.goto (.removePartial partialArtifacts settlement))
    | _ => none
  | .removePartial (artifact :: rest) settlement =>
    some ((r.remove artifact).goto (.removePartial rest settlement))
  | .removePartial [] settlement => some (r.settle settlement)
  | .settled exitCode stderr =>
    if r.cancelToken then some (r.settle (.finishCancelled settledCancelled))
    else some { r with position := .checkExit exitCode stderr, scriptCleanup := false }
  | .checkExit exitCode stderr =>
    if exitCode ≠ 0 ∨ r.output .i64 = false then
      some (r.goto (.removePartial partialArtifacts
        (.toolError (.openFailed (exitMessage exitCode stderr r.log)) settledCancelled)))
    else some (r.goto .openDatabase)
  | .openDatabase => none
  | .done _ => if r.scriptCleanup then some { r with scriptCleanup := false } else none

def fails (r : Run) (error : String) : Option Run :=
  match r.position with
  | .removeOrphaned (artifact :: _) =>
    some (r.settle (.toolError (orphanRemovalFailed r.out artifact error) preparingCancelled))
  | .spawn => some (r.goto (.settled (-1) ("Failed to spawn idat: " ++ error)))
  | .wait => some (r.goto (.startKill (.fail ("failed to wait for idat: " ++ error))))
  | .reap settlement => some (r.goto (.removePartial partialArtifacts settlement))
  | _ => none

/-- The task and its idat process take steps in any order; a killed process still runs until it has
exited. -/
def step (r : Run) : RunAction → Option Run
  | .advance => r.advance
  | .fails error => r.fails error
  | .lockFails error =>
    if r.position = .acquireLock then some (r.settle (.toolError error preparingCancelled)) else none
  | .stop =>
    if r.position = .wait ∧ r.cancelToken then
      some (r.goto (.startKill (.finishCancelled killedCancelled)))
    else none
  | .requestCancel message =>
    if r.cancelRequested = none then some { r with cancelRequested := some message } else none
  | .cancel => some { r with cancelToken := true }
  | .write artifact =>
    if r.idat = .running then some { r with output := Function.update r.output artifact true } else none
  | .erase artifact => if r.idat = .running then some (r.remove artifact) else none
  | .log line =>
    if r.idat = .running then some { r with log := r.log.map (· ++ [line]) } else none
  | .exit code stderr => if r.idat = .running then some { r with idat := .exited code stderr } else none

theorem not_running_of_unspawned {r : Run} (h : r.idat = .unspawned) : r.idat ≠ .running := by
  rw [h]
  exact Idat.noConfusion

theorem not_running_of_exited {r : Run} {code : Option ℤ} {stderr : String}
    (h : r.idat = .exited code stderr) : r.idat ≠ .running := by
  rw [h]
  exact Idat.noConfusion

end Run

end IdaMcp.Dsc
