import IdaMcp.Lookup.ResolveName
import IdaMcp.Target.Locals

namespace IdaMcp.Mutation

open Foundation Text Callgraph Lookup Target

structure LocalVariable where
  name : String
  typeName : String
  location : String
  locator : Option String
  definitionAddress : Option Address
  width : ℤ
  isArgument : Bool
  hasUserName : Bool
  hasUserType : Bool

structure CommentLocation where
  locator : String
  address : Address
  lineNumber : ℕ
  text : String
  comment : String

structure CFunction where
  localVariableCount : Except ToolError ℕ
  localVariable : ℕ → Except ToolError (Option LocalVariable)
  pseudocodeCommentLocations : Except ToolError (List CommentLocation)

structure EditDb extends NameDb where
  hasName : Address → Bool
  closestByAddress : Address → Option NamedItem
  decompilerAvailable : Bool
  decompile : Func → Except ToolError CFunction
  assembleLine : Address → String → Except String (List UInt8)

structure TargetSpec where
  addr : Option Address
  name : Option String
  offset : ℤ

inductive TargetSelector
  | address
  | name
deriving DecidableEq, Repr

structure MutationTarget where
  database : Option String
  selector : TargetSelector
  symbol : Option String
  base : String
  requestedAddress : String
  address : String
deriving DecidableEq, Repr

def describe (names : List (ℕ × String)) : String :=
  ", ".intercalate (names.map fun entry => "\"" ++ entry.2 ++ "\" at " ++ hexText entry.1)

def missingNameError (query : String) (suggestions : List (ℕ × String)) : ToolError :=
  let hint := if suggestions = [] then "use lookup_funcs or list_functions to find the exact name"
    else "similar names: " ++ describe suggestions
  .invalidParams ("no symbol is named exactly \"" ++ query ++ "\"; " ++ hint ++
    ". Mutating tools act only on an exact, case-sensitive name or an address")

def listedNameAt (db : EditDb) (address : Address) : Option String :=
  if db.hasName address then
    ((db.closestByAddress address).filter (·.address = address)).map NamedItem.name
  else none

def EditDb.candidates (db : EditDb) : List (ℕ × String) :=
  (db.functions.filterMap fun func => func.name.map fun name => ((func.startAddress : ℕ), name)) ++
    db.names.map fun item => ((item.address : ℕ), item.name)

def resolveExactName (db : EditDb) (query : String) : Except ToolError (ℕ × String) :=
  match matchName query db.candidates with
  | .unique address name => .ok (address, name)
  | .missing suggestions => .error (missingNameError query suggestions)
  | .ambiguous listed more => .error (.invalidParams ("\"" ++ query ++ "\" names more than one address (" ++
      describe listed ++ (if more then ", and others" else "") ++ "); pass the address instead"))

def checkedAddSigned (base : ℕ) (offset : ℤ) : Option Address :=
  if h : (base + offset).toNat < 2 ^ 64 ∧ 0 ≤ base + offset then some ⟨(base + offset).toNat, h.1⟩ else none

def offsetError (base : ℕ) (offset : ℤ) : ToolError :=
  .invalidParams ("offset " ++ toString offset ++ " produces an out-of-range address from base " ++ hexText base)

def resolveMutationTarget (db : EditDb) (database : Option String) (spec : TargetSpec) :
    Except ToolError (Address × MutationTarget) := do
  let (selector, base, symbol) ← (match spec.addr, spec.name with
    | some _, some _ => .error (.invalidParams "pass either an address or a name for the target, not both")
    | none, none => .error (.invalidParams "pass an address or an exact name for the target")
    | some address, none => .ok (.address, (address : ℕ), listedNameAt db address)
    | none, some query => do
      let (address, name) ← resolveExactName db query
      pure (.name, address, some name) : Except ToolError (TargetSelector × ℕ × Option String))
  match checkedAddSigned base spec.offset with
  | none => .error (offsetError base spec.offset)
  | some address => .ok (address, ⟨database, selector, symbol, hexText base, hexText address, hexText address⟩)

def actingAt (target : MutationTarget) (address : Address) : MutationTarget :=
  { target with address := hexText address }

def decompileMutationTarget (idb : Option EditDb) (database : Option String) (spec : TargetSpec) :
    Except ToolError (Func × CFunction × MutationTarget) := do
  let some db := idb | throw .noDatabaseOpen
  let (address, target) ← resolveMutationTarget db database spec
  if ¬ db.decompilerAvailable then throw .decompilerUnavailable
  let some func := db.functionAt address | throw (.functionNotFound (UInt64.ofNat address))
  let cfunc ← db.decompile func
  pure (func, cfunc, actingAt target func.startAddress)

/-! What a target is. -/

def EditDb.Bears (db : EditDb) (query : String) (address : ℕ) : Prop :=
  (∃ func ∈ db.functions, func.name = some query ∧ (func.startAddress : ℕ) = address) ∨
    ∃ item ∈ db.names, item.name = query ∧ (item.address : ℕ) = address

inductive Selects (db : EditDb) : Option Address → Option String → TargetSelector → ℕ → Option String → Prop
  | given (a : Address) : Selects db (some a) none .address a (listedNameAt db a)
  | named {query : String} {base : ℕ} (h : ∀ address, db.Bears query address ↔ address = base) :
    Selects db none (some query) .name base (some query)

theorem mem_candidates {db : EditDb} {query : String} {address : ℕ} :
    (address, query) ∈ db.candidates ↔ db.Bears query address := by
  simp only [EditDb.candidates, EditDb.Bears, List.mem_append, List.mem_filterMap, List.mem_map,
    Option.map_eq_some_iff, Prod.mk.injEq]
  apply or_congr
  · constructor
    · rintro ⟨func, hfunc, name, hname, haddress, rfl⟩
      exact ⟨func, hfunc, hname, haddress⟩
    · rintro ⟨func, hfunc, hname, haddress⟩
      exact ⟨func, hfunc, query, hname, haddress, rfl⟩
  · simp only [and_comm]

theorem resolveExactName_eq_ok {db : EditDb} {query name : String} {base : ℕ} :
    resolveExactName db query = .ok (base, name) ↔
      name = query ∧ ∀ address, db.Bears query address ↔ address = base := by
  have hunique := matchName_eq_unique query db.candidates base name
  rw [exactAddresses_eq_singleton] at hunique
  simp only [mem_candidates] at hunique
  rw [← hunique, resolveExactName]
  cases matchName query db.candidates with
  | unique address found => simp
  | missing | ambiguous => simp

theorem checkedAddSigned_eq_some {base : ℕ} {offset : ℤ} {a : Address} :
    checkedAddSigned base offset = some a ↔ (a : ℤ) = base + offset := by
  have hlt := a.isLt
  unfold checkedAddSigned
  split_ifs with h
  · rw [Option.some_inj, Fin.ext_iff]
    dsimp only
    omega
  · apply iff_of_false
    · rintro ⟨⟩
    · intro heq
      apply h
      omega

theorem resolveMutationTarget_eq_ok {db : EditDb} {database : Option String} {spec : TargetSpec} {a : Address}
    {target : MutationTarget} : resolveMutationTarget db database spec = .ok (a, target) ↔
      ∃ selector base symbol, Selects db spec.addr spec.name selector base symbol ∧ (a : ℤ) = base + spec.offset ∧
        target = ⟨database, selector, symbol, hexText base, hexText a, hexText a⟩ := by
  have hadd (selector : TargetSelector) (base : ℕ) (symbol : Option String) :
      (match checkedAddSigned base spec.offset with
        | none => Except.error (offsetError base spec.offset)
        | some address => .ok (address, MutationTarget.mk database selector symbol (hexText base)
            (hexText address) (hexText address))) = .ok (a, target) ↔
        (a : ℤ) = base + spec.offset ∧
          target = ⟨database, selector, symbol, hexText base, hexText a, hexText a⟩ := by
    rw [← checkedAddSigned_eq_some]
    cases checkedAddSigned base spec.offset with
    | none => simp
    | some address =>
      simp only [Except.ok.injEq, Prod.mk.injEq, Option.some_inj]
      constructor
      · rintro ⟨rfl, rfl⟩
        exact ⟨rfl, rfl⟩
      · rintro ⟨rfl, rfl⟩
        exact ⟨rfl, rfl⟩
  obtain ⟨addr, name, offset⟩ := spec
  unfold resolveMutationTarget
  match addr, name with
  | some _, some _ | none, none =>
    apply iff_of_false
    · rintro ⟨⟩
    · rintro ⟨selector, base, symbol, ⟨⟩, -⟩
  | some address, none =>
    refine (hadd _ _ _).trans ?_
    constructor
    · exact fun h => ⟨_, _, _, .given address, h⟩
    · rintro ⟨selector, base, symbol, ⟨⟩, h⟩
      exact h
  | none, some query =>
    cases hresolve : resolveExactName db query with
    | error e =>
      apply iff_of_false
      · simp [hresolve, bind, Except.bind]
      · rintro ⟨selector, base, symbol, ⟨⟩, -⟩
        rename_i h
        have := resolveExactName_eq_ok.mpr ⟨rfl, h⟩
        simp [hresolve] at this
    | ok found =>
      obtain ⟨base, name⟩ := found
      obtain ⟨rfl, hbase⟩ := resolveExactName_eq_ok.mp hresolve
      simp only [hresolve, bind, Except.bind, pure, Except.pure]
      refine (hadd _ _ _).trans ?_
      constructor
      · exact fun h => ⟨_, _, _, .named hbase, h⟩
      · rintro ⟨selector, base', symbol, ⟨⟩, h⟩
        rename_i hbase'
        obtain rfl := (hbase' base).mp ((hbase base).mpr rfl)
        exact h

end IdaMcp.Mutation
