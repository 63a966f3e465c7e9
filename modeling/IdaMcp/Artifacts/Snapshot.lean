import IdaMcp.Foundation.Text
import IdaMcp.Foundation.UnixPath
import IdaMcp.Worker.Database

namespace IdaMcp.Artifacts

open Foundation Worker

abbrev Path := String

structure Identity where
  len : ℕ
  modified : Option ℕ
deriving DecidableEq, Repr

abbrev Files := Path → Option Identity

structure OpenRequest where
  path : String
  idbOut : Option String
  rebuild : Bool

structure ArtifactSnapshot where
  path : Path
  before : Option Identity
deriving DecidableEq

structure RawOpenArtifactCleanup where
  output : Path
  artifacts : List ArtifactSnapshot
deriving DecidableEq

def join (base path : String) : String :=
  if path.toList.head? = some '/' then path
  else if base.toList.getLast?.all (· == '/') then base ++ path
  else base ++ "/" ++ path

def expandPath (home : Option String) (path : String) : Path :=
  match path.toList, home with
  | '~' :: '/' :: stripped, some home => join home (String.ofList stripped)
  | _, _ => path

/-- `Path::extension`: a dot that begins the name does not begin an extension. -/
def extension (path : Path) : Option (List Char) :=
  (UnixPath.fileName path.toList).bind fun name =>
    match name.reverse.dropWhile (· != '.') with
    | '.' :: _ :: _ => some (name.reverse.takeWhile (· != '.')).reverse
    | _ => none

def hasIdaDatabaseExtension (path : Path) : Bool :=
  (extension path).any fun ext =>
    ["i64".toList, "idb".toList, "id0".toList].contains (ext.map Char.toLower)

def unpackedId0Path (path : Path) : Option Path :=
  (extension path).bind fun ext =>
    if Text.eqIgnoreAsciiCase ext "i64".toList || Text.eqIgnoreAsciiCase ext "idb".toList then
      some (setExtension path "id0")
    else none

def idbPathForRawBinary (path : Path) : Path := path ++ ".i64"

def databasePathForOpenRequest (home : Option String) (request : OpenRequest) : Path :=
  let input := expandPath home request.path
  if hasIdaDatabaseExtension input then input
  else (request.idbOut.map (expandPath home)).getD (idbPathForRawBinary input)

def idaDatabaseOutputExists (files : Files) (output : Path) : Bool :=
  (files output).isSome || (unpackedId0Path output).any fun id0 => (files id0).isSome

def databaseArtifactPaths (output : Path) : List Path :=
  output :: ["id0", "id1", "id2", "nam", "til"].map (setExtension output)

def snapshotDatabaseArtifacts (files : Files) (output : Path) : List ArtifactSnapshot :=
  (databaseArtifactPaths output).map fun path => { path, before := files path }

def forRequest (home : Option String) (files : Files) (request : OpenRequest) :
    Option RawOpenArtifactCleanup :=
  if hasIdaDatabaseExtension (expandPath home request.path) then none
  else
    let output := databasePathForOpenRequest home request
    if !request.rebuild && idaDatabaseOutputExists files output then none
    else some { output, artifacts := snapshotDatabaseArtifacts files output }

/-- What `remove_new_database_artifacts` asks before it removes an artifact. -/
def touchedByThisCall (files : Files) (artifact : ArtifactSnapshot) : Bool :=
  match artifact.before, files artifact.path with
  | _, none => false
  | none, some _ => true
  | some before, some now => before != now

theorem touchedByThisCall_iff {files : Files} {artifact : ArtifactSnapshot} :
    touchedByThisCall files artifact = true ↔
      files artifact.path ≠ none ∧ files artifact.path ≠ artifact.before := by
  rw [touchedByThisCall]
  generalize files artifact.path = now
  cases now with
  | none => simp
  | some now =>
    cases artifact.before with
    | none => simp
    | some before => simp [ne_comm]

def Current (files : Files) (artifact : ArtifactSnapshot) : Prop :=
  files artifact.path = none ∨ files artifact.path = artifact.before

instance (files : Files) (artifact : ArtifactSnapshot) : Decidable (Current files artifact) :=
  inferInstanceAs (Decidable (_ ∨ _))

theorem current_iff {files : Files} {artifact : ArtifactSnapshot} :
    Current files artifact ↔ touchedByThisCall files artifact = false := by
  rw [Bool.eq_false_iff, ne_eq, touchedByThisCall_iff, Current]
  tauto

end IdaMcp.Artifacts
