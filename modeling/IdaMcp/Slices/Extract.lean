import IdaMcp.Error
import IdaMcp.Foundation.Directory
import IdaMcp.Foundation.Machine

namespace IdaMcp.Slices

open Foundation

structure FatSlice where
  arch : String
  offset : ℕ
  size : ℕ

inductive SliceFile
  | created
  | reused
deriving DecidableEq, Repr

/-- A call of `extract_slice`: `bytes` is what its input holds, `uuid` what it draws for the name of
its partial file. -/
structure Request where
  input : String
  bytes : List UInt8
  slice : FatSlice
  uuid : String

inductive Position
  | metadata
  | createPartial
  | writeSlice (file : Inode) (copied : ℕ)
  | syncAll (file : Inode)
  | link (file : Inode)
  | existingSlice
  | openExisting
  | sliceMatches (file : Inode) (compared : ℕ)
  | removeFile (result : Except ToolError SliceFile)
  | done (result : Except ToolError SliceFile)

structure Call where
  request : Request
  position : Position
  /-- The partial file that the call has created. -/
  owned : Option (String × Inode)
  /-- The removal of the partial file has failed. -/
  abandoned : Bool

structure State where
  dir : Directory String UInt8
  foreign : List Inode
  call : ℕ → Option Call
  nextCall : ℕ

inductive Choice
  | proceed
  | fails (error : String)
  | chunk (length : ℕ)

inductive Action
  | start (request : Request)
  | run (u : ℕ) (choice : Choice)
  | foreign (path : String) (bytes : List UInt8)

def initial : State where
  dir := .empty
  foreign := []
  call := fun _ => none
  nextCall := 0

def Request.sliceBytes (r : Request) : List UInt8 := (r.bytes.drop r.slice.offset).take r.slice.size

def partialPath (dest : String) (r : Request) : String := dest ++ ".partial-" ++ r.uuid

def sliceIoError (action : String) (r : Request) (path error : String) : ToolError :=
  .openFailed (action ++ " " ++ r.slice.arch ++ " slice of " ++ r.input ++ " at " ++ path ++ ": " ++ error)

def linkError (r : Request) (dest error : String) : ToolError :=
  .openFailed ("cannot publish the " ++ r.slice.arch ++ " slice of " ++ r.input ++ " at " ++ dest ++
    ": the filesystem refused a hard link (" ++ error ++ "); choose an idb_out directory on a " ++
    "filesystem that supports hard links")

def differsError (r : Request) (dest : String) : ToolError :=
  .invalidParams (dest ++ " already exists and differs from the " ++ r.slice.arch ++ " slice of " ++
    r.input ++ "; delete it or choose an idb_out in another directory")

def inputEnded (r : Request) (copied : ℕ) : String :=
  "input ended after " ++ toString copied ++ " of " ++ toString r.slice.size ++ " slice bytes"

def notFound : String := "No such file or directory (os error 2)"

def fileExists : String := "File exists (os error 17)"

def shortRead : String := "failed to fill whole buffer"

namespace Call

def goto (c : Call) (position : Position) : Call := { c with position }

/-- Goes on with what `existing_slice` has returned: a call with a partial file removes it first. -/
def settle (c : Call) (result : Except ToolError SliceFile) : Call :=
  c.goto (if c.owned.isSome then .removeFile result else .done result)

end Call

@[simp] theorem Call.goto_request (c : Call) (position : Position) :
    (c.goto position).request = c.request := rfl

def State.setCall (s : State) (u : ℕ) (c : Call) : State :=
  { s with call := Function.update s.call u (some c) }

def State.setDir (s : State) (dir : Directory String UInt8) : State := { s with dir }

theorem State.setCall_self (s : State) (u : ℕ) (c : Call) : (s.setCall u c).call u = some c :=
  Function.update_self ..

theorem State.setCall_of_ne {u v : ℕ} (h : v ≠ u) (s : State) (c : Call) :
    (s.setCall u c).call v = s.call v :=
  Function.update_of_ne h ..

section Steps

variable (dest : String) (s : State) (u : ℕ) (c : Call)

def createPartial : State :=
  match s.dir.createNew (partialPath dest c.request) [] with
  | some dir =>
    (s.setDir dir).setCall u { c with
      position := .writeSlice s.dir.next 0
      owned := some (partialPath dest c.request, s.dir.next) }
  | none =>
    s.setCall u (c.goto (.done (.error
      (sliceIoError "creating" c.request (partialPath dest c.request) fileExists))))

def writeSlice (file : Inode) (copied : ℕ) (choice : Choice) : Option State :=
  let rest := c.request.sliceBytes.drop copied
  match choice with
  | .chunk n =>
    if n ≠ 0 ∧ rest ≠ [] then
      some ((s.setDir (s.dir.append file (rest.take n))).setCall u
        (c.goto (.writeSlice file (copied + (rest.take n).length))))
    else none
  | .proceed =>
    if rest = [] then
      if copied = c.request.slice.size then some (s.setCall u (c.goto (.syncAll file)))
      else
        some (s.setCall u (c.goto (.removeFile (.error (sliceIoError "writing" c.request
          (partialPath dest c.request) (inputEnded c.request copied))))))
    else none
  | .fails error =>
    some (s.setCall u (c.goto (.removeFile (.error (sliceIoError "writing" c.request
      (partialPath dest c.request) error)))))

def link : State :=
  match s.dir.hardLink (partialPath dest c.request) dest with
  | some dir => (s.setDir dir).setCall u (c.goto (.removeFile (.ok .created)))
  | none =>
    if (s.dir.entry dest).isSome then s.setCall u (c.goto .existingSlice)
    else s.setCall u (c.goto (.removeFile (.error (linkError c.request dest notFound))))

def existingSlice : State :=
  match s.dir.entry dest with
  | some file =>
    if (s.dir.content file).length = c.request.slice.size then s.setCall u (c.goto .openExisting)
    else s.setCall u (c.settle (.error (differsError c.request dest)))
  | none => s.setCall u (c.settle (.error (sliceIoError "comparing" c.request dest notFound)))

def openExisting : State :=
  match s.dir.entry dest with
  | some file => s.setCall u (c.goto (.sliceMatches file 0))
  | none => s.setCall u (c.settle (.error (sliceIoError "comparing" c.request dest notFound)))

def sliceMatches (file : Inode) (compared : ℕ) (choice : Choice) : Option State :=
  let rest := c.request.sliceBytes.drop compared
  match choice with
  | .chunk n =>
    if n ≠ 0 ∧ rest ≠ [] then
      let left := rest.take n
      let right := ((s.dir.content file).drop compared).take left.length
      if right.length < left.length then
        some (s.setCall u (c.settle (.error (sliceIoError "comparing" c.request dest shortRead))))
      else if left = right then
        some (s.setCall u (c.goto (.sliceMatches file (compared + left.length))))
      else some (s.setCall u (c.settle (.error (differsError c.request dest))))
    else none
  | .proceed => if rest = [] then some (s.setCall u (c.settle (.ok .reused))) else none
  | .fails error =>
    some (s.setCall u (c.settle (.error (sliceIoError "comparing" c.request dest error))))

def next (choice : Choice) : Option State :=
  match c.position, choice with
  | .metadata, .proceed =>
    if (s.dir.entry dest).isSome then some (s.setCall u (c.goto .existingSlice))
    else some (s.setCall u (c.goto .createPartial))
  | .metadata, .fails error =>
    some (s.setCall u (c.goto (.done (.error (sliceIoError "inspecting" c.request dest error)))))
  | .createPartial, .proceed => some (createPartial dest s u c)
  | .createPartial, .fails error =>
    some (s.setCall u (c.goto (.done (.error
      (sliceIoError "creating" c.request (partialPath dest c.request) error)))))
  | .writeSlice file copied, choice => writeSlice dest s u c file copied choice
  | .syncAll file, .proceed => some (s.setCall u (c.goto (.link file)))
  | .syncAll _, .fails error =>
    some (s.setCall u (c.goto (.removeFile (.error (sliceIoError "writing" c.request
      (partialPath dest c.request) error)))))
  | .link _, .proceed => some (link dest s u c)
  | .link _, .fails error =>
    some (s.setCall u (c.goto (.removeFile (.error (linkError c.request dest error)))))
  | .existingSlice, .proceed => some (existingSlice dest s u c)
  | .existingSlice, .fails error | .openExisting, .fails error =>
    some (s.setCall u (c.settle (.error (sliceIoError "comparing" c.request dest error))))
  | .openExisting, .proceed => some (openExisting dest s u c)
  | .sliceMatches file compared, choice => sliceMatches dest s u c file compared choice
  | .removeFile result, .proceed =>
    some ((s.setDir (s.dir.unlink (partialPath dest c.request))).setCall u (c.goto (.done result)))
  | .removeFile result, .fails _ =>
    some (s.setCall u { c with position := .done result, abandoned := true })
  | _, _ => none

end Steps

/-- The calls publish to one `dest`, where other processes create files too. -/
def step (dest : String) (s : State) : Action → Option State
  | .start request =>
    some { s.setCall s.nextCall ⟨request, .metadata, none, false⟩ with nextCall := s.nextCall + 1 }
  | .run u choice =>
    match s.call u with
    | some c => next dest s u c choice
    | none => none
  | .foreign path bytes =>
    (s.dir.createNew path bytes).map fun dir => { s with dir, foreign := s.dir.next :: s.foreign }

end IdaMcp.Slices
