import IdaMcp.Mutation.Handlers

namespace IdaMcp.Mutation

open Foundation Text Callgraph Lookup Target Params

structure Selection where
  address : Option Params.Value
  name : Option String

inductive ToolRequest
  | rename (name : String) (flags : Option ℤ)
  | patch (bytes : Params.Value) (offset : Option ℤ)
  | patchAsm (line : String) (offset : Option ℤ)
  | setComments (comment : String) (repeatable : Option Bool) (offset : Option ℤ)
  | applyTypes (offset stackOffset : Option ℤ) (stackName decl typeName : Option String)
    (relaxed delay strict : Option Bool)
  | declareStack (offset : ℤ) (varName : Option String) (decl : String) (relaxed : Option Bool)
  | deleteStack (offset : Option ℤ) (varName : Option String)
  | renameLvar (lvarName lvarLocator : Option String) (newName : String) (timeoutSecs : Option ℤ)
  | setLvarType (lvarName lvarLocator : Option String) (decl : String) (timeoutSecs : Option ℤ)
  | setPseudocodeComment (commentLocator comment : String) (timeoutSecs : Option ℤ)
  | luminaApply (offset : Option ℤ) (force : Option Bool) (timeoutSecs : Option ℤ)

namespace ToolRequest

def nameField : ToolRequest → String
  | rename .. => "current_name"
  | _ => "target_name"

def offset : ToolRequest → ℤ
  | patch _ offset | patchAsm _ offset | setComments _ _ offset | applyTypes offset _ _ _ _ _ _ _ |
    luminaApply offset _ _ => offset.getD 0
  | _ => 0

end ToolRequest

section Call

variable {σ : Type} (sdk : Sdk σ) (idb : σ → Option EditDb) (env : Env)

def rename (sel : Selection) (name : String) (flags : Option ℤ) : Run σ Report := do
  let addr ← mutationTargetAddress env.json env.debug sel.address sel.name "current_name"
  let flags ← parseOptional "i32" (-2 ^ 31) (2 ^ 31) flags "flags"
  handleRename sdk idb env ⟨addr, sel.name, 0⟩ name (flags.getD 0)

def patch (sel : Selection) (bytes : Params.Value) (offset : Option ℤ) : Run σ Report := do
  let addr ← mutationTargetAddress env.json env.debug sel.address sel.name "target_name"
  let bytes ← valueToBytes env.debug bytes
  handlePatchBytes sdk idb env ⟨addr, sel.name, offset.getD 0⟩ bytes

def patchAsm (sel : Selection) (line : String) (offset : Option ℤ) : Run σ Report := do
  let addr ← mutationTargetAddress env.json env.debug sel.address sel.name "target_name"
  handlePatchAsm sdk idb env ⟨addr, sel.name, offset.getD 0⟩ line

def setComments (sel : Selection) (comment : String) (repeatable : Option Bool) (offset : Option ℤ) :
    Run σ Report := do
  let addr ← mutationTargetAddress env.json env.debug sel.address sel.name "target_name"
  handleSetComments sdk idb env ⟨addr, sel.name, offset.getD 0⟩ comment (repeatable.getD false)

def applyTypes (sel : Selection) (offset stackOffset : Option ℤ) (stackName decl typeName : Option String)
    (relaxed delay strict : Option Bool) : Run σ Report := do
  let addr ← mutationTargetAddress env.json env.debug sel.address sel.name "target_name"
  handleApplyTypes sdk idb env ⟨addr, sel.name, offset.getD 0⟩ stackOffset stackName decl typeName
    (relaxed.getD false) (delay.getD false) (strict.getD false)

def declareStack (sel : Selection) (offset : ℤ) (varName : Option String) (decl : String)
    (relaxed : Option Bool) : Run σ Report := do
  let addr ← mutationTargetAddress env.json env.debug sel.address sel.name "target_name"
  handleDeclareStack sdk idb env ⟨addr, sel.name, offset⟩ offset varName decl (relaxed.getD false)

def deleteStack (sel : Selection) (offset : Option ℤ) (varName : Option String) : Run σ Report := do
  let addr ← mutationTargetAddress env.json env.debug sel.address sel.name "target_name"
  handleDeleteStack sdk idb env ⟨addr, sel.name, 0⟩ offset varName

def renameLvar (sel : Selection) (lvarName lvarLocator : Option String) (newName : String)
    (timeoutSecs : Option ℤ) : Run σ Report := do
  let addr ← mutationTargetAddress env.json env.debug sel.address sel.name "target_name"
  let _ ← decompilerTimeout timeoutSecs
  let selector ← localSelector lvarName lvarLocator
  handleRenameLvar sdk idb env ⟨addr, sel.name, 0⟩ selector newName

def setLvarType (sel : Selection) (lvarName lvarLocator : Option String) (decl : String)
    (timeoutSecs : Option ℤ) : Run σ Report := do
  let addr ← mutationTargetAddress env.json env.debug sel.address sel.name "target_name"
  let _ ← decompilerTimeout timeoutSecs
  let selector ← localSelector lvarName lvarLocator
  handleSetLvarType sdk idb env ⟨addr, sel.name, 0⟩ selector decl

def setPseudocodeComment (sel : Selection) (commentLocator comment : String) (timeoutSecs : Option ℤ) :
    Run σ Report := do
  let addr ← mutationTargetAddress env.json env.debug sel.address sel.name "target_name"
  checkPseudocodeComment commentLocator comment
  let _ ← decompilerTimeout timeoutSecs
  handleSetPseudocodeComment sdk idb env ⟨addr, sel.name, 0⟩ commentLocator comment

def luminaApply (sel : Selection) (offset : Option ℤ) (force : Option Bool) (timeoutSecs : Option ℤ) :
    Run σ Report := do
  let _ ← parseOptional "u64" 0 (2 ^ 64) timeoutSecs "timeout_secs"
  let addr ← mutationTargetAddress env.json env.debug sel.address sel.name "target_name"
  handlePull sdk idb env ⟨addr, sel.name, offset.getD 0⟩ true (force.getD false)

def call (sel : Selection) : ToolRequest → Run σ Report
  | .rename name flags => rename sdk idb env sel name flags
  | .patch bytes offset => patch sdk idb env sel bytes offset
  | .patchAsm line offset => patchAsm sdk idb env sel line offset
  | .setComments comment repeatable offset => setComments sdk idb env sel comment repeatable offset
  | .applyTypes offset stackOffset stackName decl typeName relaxed delay strict =>
    applyTypes sdk idb env sel offset stackOffset stackName decl typeName relaxed delay strict
  | .declareStack offset varName decl relaxed => declareStack sdk idb env sel offset varName decl relaxed
  | .deleteStack offset varName => deleteStack sdk idb env sel offset varName
  | .renameLvar lvarName lvarLocator newName timeoutSecs =>
    renameLvar sdk idb env sel lvarName lvarLocator newName timeoutSecs
  | .setLvarType lvarName lvarLocator decl timeoutSecs =>
    setLvarType sdk idb env sel lvarName lvarLocator decl timeoutSecs
  | .setPseudocodeComment commentLocator comment timeoutSecs =>
    setPseudocodeComment sdk idb env sel commentLocator comment timeoutSecs
  | .luminaApply offset force timeoutSecs => luminaApply sdk idb env sel offset force timeoutSecs

end Call

/-! What a request asks for. -/

/-- The base that the arguments select, and how it is reported. -/
inductive Chooses (env : Env) (db : EditDb) : Selection → TargetSelector → ℕ → Option String → Prop
  | given {value : Params.Value} {a : Address} (h : Names env.json value [a]) :
    Chooses env db ⟨some value, none⟩ .address a (listedNameAt db a)
  | named {query : String} {base : ℕ} (hne : query ≠ "") (h : ∀ address, db.Bears query address ↔ address = base) :
    Chooses env db ⟨none, some query⟩ .name base (some query)

def Bounded (text : String) (max : ℕ) : Prop := text ≠ "" ∧ text.utf8ByteSize ≤ max ∧ '\x00' ∉ text.toList

inductive SelectorOf : Option String → Option String → LocalVariableSelector → Prop
  | name {name : String} (h : Bounded name maxNameBytes) : SelectorOf (some name) none (.name name)
  | locator {locator : String} (h : Bounded locator maxLocatorBytes) : SelectorOf none (some locator) (.locator locator)

def Chosen (selector : LocalVariableSelector) (var : LocalVariable) : Prop :=
  match selector with
  | .name name => var.name = name
  | .locator locator => var.locator = some locator

def Locals (cfunc : CFunction) (vars : List LocalVariable) : Prop :=
  cfunc.localVariableCount = .ok vars.length ∧
    ∀ index (h : index < vars.length), cfunc.localVariable index = .ok (some vars[index])

def Picks (selector : LocalVariableSelector) (vars : List LocalVariable) (index : ℕ) : Prop :=
  ∃ h : index < vars.length, Chosen selector vars[index] ∧
    ∀ other (hother : other < vars.length), Chosen selector vars[other] → other = index

def Decompiles (db : EditDb) (a : Address) (func : Func) (cfunc : CFunction) : Prop :=
  db.decompilerAvailable = true ∧ db.functionAt a = some func ∧ db.decompile func = .ok cfunc

def LocalAt (db : EditDb) (a : Address) (selector : LocalVariableSelector) (func : Func) (index : ℕ) : Prop :=
  ∃ cfunc vars, Decompiles db a func cfunc ∧ Locals cfunc vars ∧ vars.length ≤ maxLocals ∧ Picks selector vars index

def ValidTimeout (timeoutSecs : Option ℤ) : Prop := ∀ secs, timeoutSecs = some secs → 1 ≤ secs ∧ secs ≤ 600

inductive Acts (env : Env) (db : EditDb) : ToolRequest → Address → Edit → Prop
  | setName {a : Address} {name : String} {flags : Option ℤ} (h : flags.getD 0 = 0) :
    Acts env db (.rename name flags) a (.setName a name)
  | setNameWithFlags {a : Address} {name : String} {flags : ℤ} (hne : flags ≠ 0)
    (h : -2 ^ 31 ≤ flags ∧ flags < 2 ^ 31) : Acts env db (.rename name (some flags)) a (.setNameWithFlags a name flags)
  | patch {a : Address} {value : Params.Value} {bytes : List UInt8} {offset : Option ℤ}
    (h : valueToBytes env.debug value = .ok bytes) : Acts env db (.patch value offset) a (.patchBytes a bytes)
  | patchAsm {a : Address} {line : String} {bytes : List UInt8} {offset : Option ℤ}
    (h : db.assembleLine a line = .ok bytes) : Acts env db (.patchAsm line offset) a (.patchBytes a bytes)
  | setCmt {a : Address} {comment : String} {repeatable : Option Bool} {offset : Option ℤ}
    (h : repeatable ≠ some true) : Acts env db (.setComments comment repeatable offset) a (.setCmt a comment)
  | setCmtWith {a : Address} {comment : String} {offset : Option ℤ} :
    Acts env db (.setComments comment (some true) offset) a (.setCmtWith a comment true)
  | stackVarType {a : Address} {offset stackOffset : Option ℤ} {stackName typeName : Option String} {decl : String}
    {relaxed delay strict : Option Bool} (h : stackOffset ≠ none ∨ stackName ≠ none) :
    Acts env db (.applyTypes offset stackOffset stackName (some decl) typeName relaxed delay strict) a
      (.setStackVarType a stackName (stackOffset.getD 0) stackOffset.isSome decl (relaxed.getD false)
        (strict.getD false))
  | declType {a : Address} {offset : Option ℤ} {typeName : Option String} {decl : String}
    {relaxed delay strict : Option Bool} :
    Acts env db (.applyTypes offset none none (some decl) typeName relaxed delay strict) a
      (.applyDeclType a decl (relaxed.getD false) (delay.getD false) (strict.getD false))
  | namedType {a : Address} {offset : Option ℤ} {typeName : String} {relaxed delay strict : Option Bool} :
    Acts env db (.applyTypes offset none none none (some typeName) relaxed delay strict) a (.applyNamedType a typeName)
  | declareStack {a : Address} {offset : ℤ} {varName : Option String} {decl : String} {relaxed : Option Bool} :
    Acts env db (.declareStack offset varName decl relaxed) a
      (.defineStackVar a varName offset decl (relaxed.getD false))
  | deleteStack {a : Address} {offset : Option ℤ} {varName : Option String} (h : offset ≠ none ∨ varName ≠ none) :
    Acts env db (.deleteStack offset varName) a (.deleteStackVar a varName (offset.getD 0) offset.isSome)
  | renameLvar {a : Address} {lvarName lvarLocator : Option String} {newName : String} {timeoutSecs : Option ℤ}
    {selector : LocalVariableSelector} {func : Func} {index : ℕ} (hselector : SelectorOf lvarName lvarLocator selector)
    (hname : Bounded newName maxNameBytes) (htimeout : ValidTimeout timeoutSecs)
    (h : LocalAt db a selector func index) : Acts env db (.renameLvar lvarName lvarLocator newName timeoutSecs) a
      (.renameLocalVariable func.startAddress index newName)
  | setLvarType {a : Address} {lvarName lvarLocator : Option String} {decl : String} {timeoutSecs : Option ℤ}
    {selector : LocalVariableSelector} {func : Func} {index : ℕ} (hselector : SelectorOf lvarName lvarLocator selector)
    (hdecl : Bounded decl maxDeclBytes) (htimeout : ValidTimeout timeoutSecs)
    (h : LocalAt db a selector func index) : Acts env db (.setLvarType lvarName lvarLocator decl timeoutSecs) a
      (.setLocalVariableType func.startAddress index decl)
  | setPseudocodeComment {a : Address} {locator comment : String} {timeoutSecs : Option ℤ} {func : Func}
    {cfunc : CFunction} (hlocator : Bounded locator maxCommentLocatorBytes)
    (hcomment : comment.utf8ByteSize ≤ maxCommentBytes ∧ '\x00' ∉ comment.toList)
    (htimeout : ValidTimeout timeoutSecs) (h : Decompiles db a func cfunc) :
    Acts env db (.setPseudocodeComment locator comment timeoutSecs) a
      (.setPseudocodeComment func.startAddress locator comment)
  | pull {a : Address} {offset : Option ℤ} {force : Option Bool} {timeoutSecs : Option ℤ} {func : Func}
    (hallow : env.allowLumina = true) (htimeout : ∀ secs, timeoutSecs = some secs → 0 ≤ secs ∧ secs < 2 ^ 64)
    (h : db.functionAt a = some func) :
    Acts env db (.luminaApply offset force timeoutSecs) a (.pull func.startAddress true (force.getD false))

/-- The edit that a request asks for in a state, and the target to report with it. -/
def Aims {σ : Type} (idb : σ → Option EditDb) (env : Env) (sel : Selection) (request : ToolRequest) (s : σ)
    (edit : Edit) (target : MutationTarget) : Prop :=
  ∃ db selector base symbol, ∃ a : Address, idb s = some db ∧ Chooses env db sel selector base symbol ∧
    (a : ℤ) = base + request.offset ∧ Acts env db request a edit ∧
    target = ⟨env.database, selector, symbol, hexText base, hexText a, hexText edit.address⟩

namespace Report

def target : Report → Option MutationTarget
  | comments _ _ _ target | rename _ _ _ target | patchBytes _ _ target | patchAsm _ _ _ _ target |
    applyType _ _ _ target | stackVar _ _ _ _ _ target | renameLvar target _ _ _ | setLvarType target _ _ _ |
    setPseudocodeComment target _ _ => some target
  | pull _ target => target

def address : Report → Option String
  | comments address _ _ _ | rename address _ _ _ | patchBytes address _ _ | patchAsm address _ _ _ _ |
    applyType address _ _ _ | stackVar address _ _ _ _ _ => some address
  | pull report _ => some report.address
  | renameLvar .. | setLvarType .. | setPseudocodeComment .. => none

end Report

def Truthful (edit : Edit) (target : MutationTarget) (_ : edit.Out) (report : Report) : Prop :=
  report.target = some target ∧ ∀ address, report.address = some address → address = target.address

end IdaMcp.Mutation
