import IdaMcp.Handle.CloseToken
import IdaMcp.Pool.State
import Mathlib.Algebra.Ring.Nat

namespace IdaMcp.Handle

open Pool

abbrev CallId := ℕ

structure PooledDatabaseLease where
  handle : PooledWorkerHandle
  generation : ℕ
  closeToken : CloseTokenState
  debugPinned : Bool
deriving DecidableEq, Repr

structure Served where
  handle : PooledWorkerHandle
  generation : ℕ
deriving DecidableEq, Repr

def PooledDatabaseLease.served (lease : PooledDatabaseLease) : Served := ⟨lease.handle, lease.generation⟩

/-- `lock` is the call that holds the mutex of `handle` from one step to the next. -/
structure WorkspaceDatabase where
  sharedHttp : Bool
  lock : Option CallId
  handle : Option PooledDatabaseLease
  nextDatabaseGeneration : ℕ
deriving DecidableEq, Repr

namespace WorkspaceDatabase

variable (db : WorkspaceDatabase)

def isServed (served : Served) : Bool :=
  db.handle.any fun lease =>
    lease.handle.workerId == served.handle.workerId && lease.generation == served.generation

def setDebugPinForLease (served : Served) (pinned : Bool) : WorkspaceDatabase × Bool :=
  if db.isServed served then
    ({ db with handle := db.handle.map fun lease => { lease with debugPinned := pinned } }, true)
  else (db, false)

def nextGeneration : Except ToolError ℕ :=
  if db.nextDatabaseGeneration + 1 < 2 ^ 64 then .ok (db.nextDatabaseGeneration + 1)
  else .error (.idaError "database generation counter exhausted")

def install (handle : PooledWorkerHandle) (generation : ℕ) : WorkspaceDatabase :=
  { db with handle := some {
      handle := { handle with preserveOnCancel := db.sharedHttp }
      generation, closeToken := none, debugPinned := false } }

def requiredHandleForGeneration (expected : Option ℕ) : Except ToolError Served :=
  match db.handle with
  | none => .error .noDatabaseOpen
  | some lease =>
    if expected.all (· = lease.generation) then .ok lease.served else .error .databaseReplaced

/-- Whether the lease that it clears held a debug pin. -/
def clearHandleIfLease (served : Served) : WorkspaceDatabase × Bool :=
  if db.isServed served then ({ db with handle := none }, db.handle.any (·.debugPinned)) else (db, false)

def issueCloseToken (sessionId : String) (generation : ℕ) (fresh : String) :
    WorkspaceDatabase × Option (Except String CloseTokenGrant) :=
  match db.handle with
  | some lease =>
    if lease.generation = generation then
      let issued := lease.closeToken.issueForSession sessionId fresh
      ({ db with handle := some { lease with closeToken := issued.1 } }, some issued.2)
    else (db, none)
  | none => (db, none)

def closeAuthorized (sessionId : String) (token : Option String) (force : Bool) :
    WorkspaceDatabase × Except ToolError (CloseAuthorization × Option PooledDatabaseLease) :=
  match db.handle with
  | none => (db, .error .noDatabaseOpen)
  | some lease =>
    match lease.closeToken.authorizeClose sessionId token force with
    | .denied owner => (db, .ok (.denied owner, none))
    | authorization => ({ db with handle := none }, .ok (authorization, some lease))

/-- `close_if_generation`, or without a generation `take_handle`. -/
def takeHandle (expected : Option ℕ) : WorkspaceDatabase × Option PooledDatabaseLease :=
  match db.handle with
  | some lease =>
    if expected.all (· = lease.generation) then ({ db with handle := none }, some lease) else (db, none)
  | none => (db, none)

theorem isServed_iff {served : Served} : db.isServed served = true ↔
    ∃ lease, db.handle = some lease ∧ lease.handle.workerId = served.handle.workerId ∧
      lease.generation = served.generation := by
  rw [isServed, Option.any_eq_true]
  simp only [Bool.and_eq_true, beq_iff_eq]

variable {db}

theorem setDebugPinForLease_true {served : Served} {pinned : Bool}
    (h : (db.setDebugPinForLease served pinned).2 = true) : ∃ lease, db.handle = some lease ∧
      lease.handle.workerId = served.handle.workerId ∧ lease.generation = served.generation ∧
      (db.setDebugPinForLease served pinned).1.handle = some { lease with debugPinned := pinned } := by
  unfold setDebugPinForLease at h ⊢
  split_ifs at h ⊢ with hserved
  obtain ⟨lease, hlease, hworker, hgeneration⟩ := db.isServed_iff.mp hserved
  refine ⟨lease, hlease, hworker, hgeneration, ?_⟩
  rw [hlease, Option.map_some]

theorem nextGeneration_ok {generation : ℕ} (h : db.nextGeneration = .ok generation) :
    generation = db.nextDatabaseGeneration + 1 := by
  unfold nextGeneration at h
  split_ifs at h
  cases h
  rfl

theorem requiredHandle_ok {expected : Option ℕ} {served : Served}
    (h : db.requiredHandleForGeneration expected = .ok served) :
    db.handle.map PooledDatabaseLease.served = some served := by
  unfold requiredHandleForGeneration at h
  split at h
  · cases h
  · next lease hlease =>
    split_ifs at h
    cases h
    rw [hlease, Option.map_some]

theorem takeHandle_some {expected : Option ℕ} {lease : PooledDatabaseLease}
    (h : (db.takeHandle expected).2 = some lease) : db.handle = some lease ∧
      expected.all (· = lease.generation) = true ∧ (db.takeHandle expected).1 = { db with handle := none } := by
  unfold takeHandle at h ⊢
  split at h
  · next lease' hlease =>
    split_ifs at h with hexpected
    cases h
    rw [hlease]
    exact ⟨rfl, hexpected, if_pos hexpected ▸ rfl⟩
  · cases h

theorem closeAuthorized_some {sessionId : String} {token : Option String} {force : Bool}
    {authorization : CloseAuthorization} {lease : PooledDatabaseLease}
    (h : (db.closeAuthorized sessionId token force).2 = .ok (authorization, some lease)) :
    db.handle = some lease ∧ lease.closeToken.authorizeClose sessionId token force = authorization ∧
      (∀ owner, authorization ≠ .denied owner) ∧
      (db.closeAuthorized sessionId token force).1 = { db with handle := none } := by
  unfold closeAuthorized at h ⊢
  cases hhandle : db.handle with
  | none =>
    rw [hhandle] at h
    cases h
  | some lease' =>
    rw [hhandle] at h
    dsimp only at h ⊢
    cases hauthorized : lease'.closeToken.authorizeClose sessionId token force with
    | denied owner =>
      rw [hauthorized] at h
      cases h
    | granted | grantedByOverride =>
      rw [hauthorized] at h
      cases h
      exact ⟨rfl, hauthorized, fun owner => CloseAuthorization.noConfusion, rfl⟩

theorem setDebugPinForLease_next {served : Served} {pinned : Bool} :
    (db.setDebugPinForLease served pinned).1.nextDatabaseGeneration = db.nextDatabaseGeneration := by
  unfold setDebugPinForLease
  split_ifs <;> rfl

end WorkspaceDatabase

end IdaMcp.Handle
