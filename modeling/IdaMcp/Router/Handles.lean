import IdaMcp.Router.Attach
import IdaMcp.Foundation.Machine

namespace IdaMcp.Router

open Foundation

/-- Where a call stands that opens a database under an id of its own (`open_idb` and `open_dsc`, or
`debug_open_module`), or closes one. -/
inductive Call
  | opening (id : String)
  | answering (id : String) (response : Except ErrorData CallToolResponse)
  | opened (id : String) (response : Except ErrorData CallToolResponse)
  | openingModule (id : String)
  | droppingModule (id : String)
  | moduleDone (id : String)
  | closing (id : String)
  | releasing (id : String)
  | deciding (id : String) (found : Bool) (result : Except ToolError Unit)
  | removing (id : String) (found running remove : Bool)
  | closed (id : String) (found running : Bool)

structure State where
  registered : List String
  drawn : List String
  /-- The databases with a lease. -/
  leased : String → Bool
  /-- The databases of the running tasks of `open_dsc`, one for each task. -/
  openTasks : List String
  /-- The ids that a close or the reaper has removed. -/
  taken : List String
  call : ℕ → Option Call
  nextCall : ℕ

inductive Action
  | allocateDatabase (uuid : String) (isModule : Bool)
  | bindWorkspaceOpen (u : ℕ)
  | answer (u : ℕ) (response : Except ErrorData CallToolResponse)
  | finish (u : ℕ)
  | moduleOpened (u : ℕ) (ok : Bool)
  | closeModule (u : ℕ)
  | closeIdb (id : String)
  | takeHandle (u : ℕ)
  | release (u : ℕ) (result : Except ToolError Unit)
  | decide (u : ℕ)
  | remove (u : ℕ)
  | setLease (id : String) (leased : Bool)
  | settleTask (id : String)
  | reap (id : String)

def initial : State where
  registered := []
  drawn := []
  leased := fun _ => false
  openTasks := []
  taken := []
  call := fun _ => none
  nextCall := 0

def Call.id : Call → String
  | opening id | answering id _ | opened id _ | openingModule id | droppingModule id | moduleDone id
  | closing id | releasing id | deciding id _ _ | removing id _ _ _ | closed id _ _ => id

def Call.guards (id : String) : Option Call → Bool
  | some (.opening d) | some (.openingModule d) | some (.closing d) | some (.releasing d)
  | some (.deciding d _ _) | some (.removing d _ _ _) => d == id
  | _ => false

def Call.isOpening (id : String) : Option Call → Bool
  | some (.opening d) | some (.openingModule d) => d == id
  | _ => false

def workspaceCloseShouldRemoveEntry (result : Except ToolError Unit) (running : Bool) : Bool :=
  match result with
  | .error .noDatabaseOpen => !running
  | _ => true

namespace State

variable (s : State)

def setCall (u : ℕ) (c : Call) : State := { s with call := Function.update s.call u (some c) }

def addCall (c : Call) : State := { s.setCall s.nextCall c with nextCall := s.nextCall + 1 }

def unregister (id : String) : State := { s with registered := s.registered.filter (· ≠ id) }

/-- A removal by another than the call that has opened the database. -/
def take (id : String) : State := { s.unregister id with taken := id :: s.taken }

def hasRunningWorkspaceOpen (id : String) : Bool := s.openTasks.contains id

end State

section Steps

variable (j : Serde) (s : State) (u : ℕ)

/-- The handler answers, and its lease of the entry is dropped. The answer does not name the id, which
the router alone knows. -/
def answer (response : Except ErrorData CallToolResponse) : Option State :=
  match s.call u, response with
  | some (.opening id), .ok r =>
    if carries j r id then none else some (s.setCall u (.answering id (.ok r)))
  | some (.opening id), .error e => some (s.setCall u (.answering id (.error e)))
  | _, _ => none

def finish : Option State :=
  match s.call u with
  | some (.answering id (.error e)) => some ((s.unregister id).setCall u (.opened id (.error e)))
  | some (.answering id (.ok r)) =>
    let attached := attachWorkspaceDatabaseId j r id
    some ((if attached.2 then s else s.unregister id).setCall u (.opened id (.ok attached.1)))
  | _ => none

def takeHandle : Option State :=
  match s.call u with
  | some (.closing id) =>
    if s.leased id then
      some ({ s with leased := Function.update s.leased id false }.setCall u (.releasing id))
    else some (s.setCall u (.deciding id false (.error .noDatabaseOpen)))
  | _ => none

def release (result : Except ToolError Unit) : Option State :=
  match s.call u, result with
  | some (.releasing _), .error .noDatabaseOpen => none
  | some (.releasing id), result => some (s.setCall u (.deciding id true result))
  | _, _ => none

end Steps

def step (j : Serde) (s : State) : Action → Option State
  | .allocateDatabase uuid isModule =>
    if uuid ∈ s.drawn then none
    else some ({ s with registered := uuid :: s.registered, drawn := uuid :: s.drawn }.addCall
      (if isModule then .openingModule uuid else .opening uuid))
  | .bindWorkspaceOpen u =>
    match s.call u with
    | some (.opening id) => some { s with openTasks := id :: s.openTasks }
    | _ => none
  | .answer u response => answer j s u response
  | .finish u => finish j s u
  | .moduleOpened u ok =>
    match s.call u with
    | some (.openingModule id) => some (s.setCall u (if ok then .moduleDone id else .droppingModule id))
    | _ => none
  | .closeModule u =>
    match s.call u with
    | some (.droppingModule id) => some ((s.unregister id).setCall u (.moduleDone id))
    | _ => none
  | .closeIdb id => if id ∈ s.registered then some (s.addCall (.closing id)) else none
  | .takeHandle u => takeHandle s u
  | .release u result => release s u result
  | .decide u =>
    match s.call u with
    | some (.deciding id found result) =>
      let running := s.hasRunningWorkspaceOpen id
      some (s.setCall u (.removing id found running (workspaceCloseShouldRemoveEntry result running)))
    | _ => none
  | .remove u =>
    match s.call u with
    | some (.removing id found running remove) =>
      some ((if remove then s.take id else s).setCall u (.closed id found running))
    | _ => none
  | .setLease id leased =>
    if leased = false ∨ id ∈ s.openTasks ∨ (∃ u < s.nextCall, Call.isOpening id (s.call u) = true) then
      some { s with leased := Function.update s.leased id leased }
    else none
  | .settleTask id => if id ∈ s.openTasks then some { s with openTasks := s.openTasks.erase id } else none
  | .reap id =>
    if id ∈ s.registered ∧ id ∉ s.openTasks ∧ (∀ u < s.nextCall, Call.guards id (s.call u) = false) then
      some (s.take id)
    else none

end IdaMcp.Router
