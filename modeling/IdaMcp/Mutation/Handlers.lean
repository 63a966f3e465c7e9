import Mathlib.Algebra.Ring.Int.Defs
import IdaMcp.Foundation.OneEffect
import IdaMcp.Mutation.Resolve
import IdaMcp.Params.Addresses
import IdaMcp.Params.ValueToBytes

namespace IdaMcp.Mutation

open Foundation Text Callgraph Lookup Target Params

/-- The calls of the SDK that change a database. A local or a pseudocode comment is that of the function that
was decompiled. -/
inductive Edit
  | setCmt (address : Address) (comment : String)
  | setCmtWith (address : Address) (comment : String) (repeatable : Bool)
  | setName (address : Address) (name : String)
  | setNameWithFlags (address : Address) (name : String) (flags : ℤ)
  | patchBytes (address : Address) (bytes : List UInt8)
  | setStackVarType (func : Address) (name : Option String) (offset : ℤ) (useOffset : Bool) (decl : String)
    (relaxed strict : Bool)
  | applyDeclType (address : Address) (decl : String) (relaxed delay strict : Bool)
  | applyNamedType (address : Address) (typeName : String)
  | defineStackVar (func : Address) (name : Option String) (offset : ℤ) (decl : String) (relaxed : Bool)
  | deleteStackVar (func : Address) (name : Option String) (offset : ℤ) (useOffset : Bool)
  | renameLocalVariable (func : Address) (index : ℕ) (name : String)
  | setLocalVariableType (func : Address) (index : ℕ) (decl : String)
  | setPseudocodeComment (func : Address) (locator comment : String)
  | pull (func : Address) (apply force : Bool)

structure StackVar where
  name : String
  offset : ℤ
  code : ℤ

inductive PullStatus
  | badPattern
  | notFound
  | error
  | ok
  | added
  | unknown (code : ℤ)

structure Pulled where
  status : PullStatus
  name : Option String
  size : ℕ
  frequency : ℕ
  score : ℤ
  metadataKeys : List String
  applied : Bool
  backupCreated : Bool
  error : Option String

namespace Edit

def address : Edit → Address
  | setCmt address _ | setCmtWith address _ _ | setName address _ | setNameWithFlags address _ _ => address
  | patchBytes address _ | applyDeclType address _ _ _ _ | applyNamedType address _ => address
  | setStackVarType func _ _ _ _ _ _ | defineStackVar func _ _ _ _ | deleteStackVar func _ _ _ => func
  | renameLocalVariable func _ _ | setLocalVariableType func _ _ | setPseudocodeComment func _ _ | pull func _ _ => func

def Out : Edit → Type
  | setStackVarType .. | defineStackVar .. | deleteStackVar .. => StackVar
  | applyDeclType .. | applyNamedType .. => Bool
  | setLocalVariableType .. => String
  | pull .. => Pulled
  | _ => Unit

end Edit

structure Env where
  json : JsonTexts
  debug : String → String
  texts : Texts
  allowLumina : Bool
  database : Option String

structure LocalVariableInfo where
  name : String
  typeName : String
  location : String
  locator : Option String
  definitionAddress : Option String
  size : Option ℕ
  isArgument : Bool
  hasUserName : Bool
  hasUserType : Bool

structure PullReport where
  address : String
  status : String
  pulled : Pulled
  force : Bool
  previousName : Option String
  currentName : Option String

inductive Report
  | comments (address : String) (repeatable : Bool) (comment : String) (target : MutationTarget)
  | rename (address name : String) (flags : ℤ) (target : MutationTarget)
  | patchBytes (address : String) (length : ℕ) (target : MutationTarget)
  | patchAsm (address line : String) (length : ℕ) (bytes : String) (target : MutationTarget)
  | applyType (address : String) (applied : Bool) (source : String) (target : MutationTarget)
  | stackVar (func name : String) (offset code : ℤ) (status : String) (target : MutationTarget)
  | renameLvar (target : MutationTarget) (variableInfo : LocalVariableInfo) (newName : String) (renamed : Bool)
  | setLvarType (target : MutationTarget) (variableInfo : LocalVariableInfo) (typeName : String) (applied : Bool)
  | setPseudocodeComment (target : MutationTarget) (commentLocator : String) (deleted : Bool)
  | pull (report : PullReport) (target : Option MutationTarget)

inductive LocalVariableSelector
  | name (name : String)
  | locator (locator : String)

abbrev Sdk (σ : Type) := World ToolError σ Edit Edit.Out

abbrev Run (σ α : Type) := Prog ToolError σ α

/-! What is checked and shown. -/

def checkedText (value field : String) (max : ℕ) : Except ToolError Unit :=
  if value = "" ∨ max < value.utf8ByteSize ∨ '\x00' ∈ value.toList then
    .error (.invalidParams (field ++ " must contain 1–" ++ toString max ++ " bytes and no NUL"))
  else .ok ()

def maxCommentLocatorBytes : ℕ := 128

def maxCommentBytes : ℕ := 16384

def maxLocals : ℕ := 100000

def maxNameBytes : ℕ := 1024

def maxDeclBytes : ℕ := 16384

def maxLocatorBytes : ℕ := 16384

def checkPseudocodeComment (locator comment : String) : Except ToolError Unit := do
  checkedText locator "comment_locator" maxCommentLocatorBytes
  if maxCommentBytes < comment.utf8ByteSize ∨ '\x00' ∈ comment.toList then
    .error (.invalidParams ("comment must contain at most " ++ toString maxCommentBytes ++ " bytes and no NUL"))
  else .ok ()

def localSelector (name locator : Option String) : Except ToolError LocalVariableSelector :=
  match name, locator with
  | some name, none => do
    checkedText name "lvar_name" maxNameBytes
    pure (.name name)
  | none, some locator => do
    checkedText locator "lvar_locator" maxLocatorBytes
    pure (.locator locator)
  | none, none | some _, some _ => .error (.invalidParams "pass exactly one of lvar_name or lvar_locator")

def parseOptional (type : String) (least past : ℤ) (value : Option ℤ) (name : String) :
    Except ToolError (Option ℤ) :=
  match value with
  | some v =>
    if least ≤ v ∧ v < past then .ok (some v)
    else .error (.invalidParams (name ++ " (" ++ toString v ++ ") is out of range for " ++ type))
  | none => .ok none

def decompilerTimeout (value : Option ℤ) : Except ToolError ℤ := do
  let seconds := (← parseOptional "u64" 0 (2 ^ 64) value "timeout_secs").getD 120
  if 1 ≤ seconds ∧ seconds ≤ 600 then pure seconds
  else throw (.invalidParams "timeout_secs must be between 1 and 600")

def hexByte (byte : UInt8) : String :=
  String.ofList [(byte.toNat / 16).digitChar, (byte.toNat % 16).digitChar]

def statusName : PullStatus → String
  | .badPattern => "bad_pattern"
  | .notFound => "not_found"
  | .error => "error"
  | .ok => "ok"
  | .added => "added"
  | .unknown code => "unknown_" ++ toString code

def variableInfo (var : LocalVariable) : LocalVariableInfo where
  name := var.name
  typeName := var.typeName
  location := var.location
  locator := var.locator
  definitionAddress := var.definitionAddress.map fun address => hexText address
  size := if 0 ≤ var.width ∧ var.width < 2 ^ 32 then some var.width.toNat else none
  isArgument := var.isArgument
  hasUserName := var.hasUserName
  hasUserType := var.hasUserType

def stackReport (func : Address) (result : StackVar) (target : MutationTarget) : Report :=
  .stackVar (hexText func) result.name result.offset result.code (if result.code = 0 then "ok" else "error") target

def CFunction.fetch (cfunc : CFunction) (index : ℕ) : Except ToolError LocalVariable := do
  match ← cfunc.localVariable index with
  | some var => pure var
  | none => throw (.idaError "decompiler local disappeared before the edit")

def selectedLocal (texts : Texts) (cfunc : CFunction) (selector : LocalVariableSelector) :
    Except ToolError (ℕ × LocalVariableInfo) := do
  let count ← cfunc.localVariableCount
  let vars := (List.range count).map fun index => (cfunc.fetch index).map fun var => (index, var)
  let index ← (match selector with
    | .name name => exactLocalIndex texts name (vars.map (·.map fun entry => (entry.1, entry.2.name)))
    | .locator locator => exactLocatorIndex locator (vars.map (·.map fun entry => (entry.1, entry.2.locator))))
  pure (index, variableInfo (← cfunc.fetch index))

/-! The handlers. -/

section Handlers

variable {σ : Type} (sdk : Sdk σ) (idb : σ → Option EditDb) (env : Env)

def openDb (s : σ) : Except ToolError EditDb :=
  match idb s with
  | some db => .ok db
  | none => .error .noDatabaseOpen

def handleSetComments (target : TargetSpec) (comment : String) (repeatable : Bool) : Run σ Report := do
  let db ← Prog.look (openDb idb)
  let (addr, target) ← resolveMutationTarget db env.database target
  if repeatable then
    let _ ← sdk.perform (.setCmtWith addr comment true)
    pure (.comments (hexText addr) repeatable comment target)
  else
    let _ ← sdk.perform (.setCmt addr comment)
    pure (.comments (hexText addr) repeatable comment target)

def handleRename (target : TargetSpec) (name : String) (flags : ℤ) : Run σ Report := do
  let db ← Prog.look (openDb idb)
  let (addr, target) ← resolveMutationTarget db env.database target
  if flags = 0 then
    let _ ← sdk.perform (.setName addr name)
    pure (.rename (hexText addr) name flags target)
  else
    let _ ← sdk.perform (.setNameWithFlags addr name flags)
    pure (.rename (hexText addr) name flags target)

def handlePatchBytes (target : TargetSpec) (bytes : List UInt8) : Run σ Report := do
  let db ← Prog.look (openDb idb)
  let (addr, target) ← resolveMutationTarget db env.database target
  let _ ← sdk.perform (.patchBytes addr bytes)
  pure (.patchBytes (hexText addr) bytes.length target)

def handlePatchAsm (target : TargetSpec) (line : String) : Run σ Report := do
  let db ← Prog.look (openDb idb)
  let (addr, target) ← resolveMutationTarget db env.database target
  let bytes ← (db.assembleLine addr line).mapError ToolError.idaError
  let _ ← sdk.perform (.patchBytes addr bytes)
  pure (.patchAsm (hexText addr) line bytes.length (" ".intercalate (bytes.map hexByte)) target)

def handleApplyTypes (target : TargetSpec) (stackOffset : Option ℤ) (stackName decl typeName : Option String)
    (relaxed delay strict : Bool) : Run σ Report := do
  let db ← Prog.look (openDb idb)
  let (address, target) ← resolveMutationTarget db env.database target
  if stackOffset.isSome || stackName.isSome then
    match decl with
    | none => (.error (.invalidParams "apply_types for stack var requires decl") : Except ToolError Report)
    | some decl =>
      let result ← sdk.perform
        (.setStackVarType address stackName (stackOffset.getD 0) stackOffset.isSome decl relaxed strict)
      pure (stackReport address result target)
  else
    match decl, typeName with
    | some decl, _ =>
      let applied ← sdk.perform (.applyDeclType address decl relaxed delay strict)
      pure (.applyType (hexText address) applied "decl" target)
    | none, some typeName =>
      let applied ← sdk.perform (.applyNamedType address typeName)
      pure (.applyType (hexText address) applied "named" target)
    | none, none => (.error (.invalidParams "apply_types requires decl or type_name") : Except ToolError Report)

def handleDeclareStack (func : TargetSpec) (offset : ℤ) (varName : Option String) (decl : String)
    (relaxed : Bool) : Run σ Report := do
  let db ← Prog.look (openDb idb)
  let (funcAddr, target) ← resolveMutationTarget db env.database { func with offset := 0 }
  let result ← sdk.perform (.defineStackVar funcAddr varName offset decl relaxed)
  pure (stackReport funcAddr result target)

def handleDeleteStack (func : TargetSpec) (offset : Option ℤ) (varName : Option String) : Run σ Report := do
  let db ← Prog.look (openDb idb)
  if offset.isNone && varName.isNone then
    (.error (.invalidParams "delete_stack requires offset or name") : Except ToolError Report)
  else
    let (funcAddr, target) ← resolveMutationTarget db env.database { func with offset := 0 }
    let result ← sdk.perform (.deleteStackVar funcAddr varName (offset.getD 0) offset.isSome)
    pure (stackReport funcAddr result target)

def handleSetPseudocodeComment (target : TargetSpec) (locator comment : String) : Run σ Report := do
  let (func, _, target) ← Prog.look fun s => decompileMutationTarget (idb s) env.database target
  let _ ← sdk.perform (.setPseudocodeComment func.startAddress locator comment)
  pure (.setPseudocodeComment target locator (comment = ""))

def decompileTarget (idb : Option EditDb) (database : Option String) (target : TargetSpec) :
    Except ToolError (Func × CFunction × MutationTarget) := do
  let (func, cfunc, target) ← decompileMutationTarget idb database target
  if maxLocals < (← cfunc.localVariableCount) then
    throw (.idaError ("function has more than " ++ toString maxLocals ++ " decompiler locals"))
  pure (func, cfunc, target)

def handleRenameLvar (target : TargetSpec) (selector : LocalVariableSelector) (newName : String) :
    Run σ Report := do
  checkedText newName "new_name" maxNameBytes
  let (func, cfunc, target) ← Prog.look fun s => decompileTarget (idb s) env.database target
  let (index, var) ← selectedLocal env.texts cfunc selector
  let _ ← sdk.perform (.renameLocalVariable func.startAddress index newName)
  pure (.renameLvar target var newName true)

def handleSetLvarType (target : TargetSpec) (selector : LocalVariableSelector) (decl : String) :
    Run σ Report := do
  checkedText decl "decl" maxDeclBytes
  let (func, cfunc, target) ← Prog.look fun s => decompileTarget (idb s) env.database target
  let (index, var) ← selectedLocal env.texts cfunc selector
  let typeName ← sdk.perform (.setLocalVariableType func.startAddress index decl)
  pure (.setLvarType target var typeName true)

def resolveAddress (db : EditDb) (spec : TargetSpec) : Except ToolError Address := do
  let base ← (match spec.addr, spec.name with
    | some addr, _ => .ok addr
    | none, some name => resolveAddressByName (some db.toNameDb) name
    | none, none => .error (.invalidParams "expected address or name"))
  match checkedAddSigned base spec.offset with
  | some address => .ok address
  | none => .error (offsetError base spec.offset)

/-- The address to pull for, and the target to report; a lookup resolves names loosely. -/
def pullTarget (db : EditDb) (target : TargetSpec) (apply : Bool) :
    Except ToolError (Func × Option MutationTarget) := do
  let (requested, resolved) ← (if apply then
      (resolveMutationTarget db env.database target).map fun found => (found.1, some found.2)
    else (resolveAddress db target).map fun address => (address, none))
  match db.functionAt requested with
  | some func => pure (func, resolved)
  | none => throw (.functionNotFound (UInt64.ofNat requested))

def handlePull (target : TargetSpec) (apply force : Bool) : Run σ Report := do
  if ¬ env.allowLumina then
    (.error (.invalidParams ("Lumina access is disabled; restart ida-mcp with --allow-lumina or " ++
      "IDA_MCP_ALLOW_LUMINA=true")) : Except ToolError Report)
  else
    let db ← Prog.look (openDb idb)
    let (func, resolved) ← pullTarget env db target apply
    let result ← sdk.perform (.pull func.startAddress apply force)
    let currentName ← Prog.look fun s =>
      .ok (((idb s).bind fun db => db.functionAt func.startAddress).bind Func.name)
    pure (.pull ⟨hexText func.startAddress, statusName result.status, result, force, func.name, currentName⟩
      (resolved.map (actingAt · func.startAddress)))

end Handlers

end IdaMcp.Mutation
