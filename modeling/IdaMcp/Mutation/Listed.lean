import IdaMcp.Listing.Paging
import IdaMcp.Mutation.Exact

namespace IdaMcp.Mutation

open Foundation Text Callgraph Lookup Params Window

structure Listing (β : Type) where
  target : MutationTarget
  items : List β
  total : ℕ
  nextOffset : Option ℕ

structure PseudocodeCommentInfo where
  locator : String
  address : String
  lineNumber : ℕ
  text : String
  comment : String

def commentInfo (location : CommentLocation) : PseudocodeCommentInfo where
  locator := location.locator
  address := hexText location.address
  lineNumber := location.lineNumber
  text := location.text
  comment := location.comment

def listLocals (cfunc : CFunction) (offset limit : ℕ) :
    List ℕ → ℕ → List LocalVariableInfo → Except ToolError (ℕ × List LocalVariableInfo)
  | [], total, lvars => .ok (total, lvars)
  | index :: rest, total, lvars =>
    match cfunc.localVariable index with
    | .error e => .error e
    | .ok none => .error (.idaError "decompiler local disappeared while listing")
    | .ok (some var) =>
      if var.name = "" then listLocals cfunc offset limit rest total lvars
      else if offset ≤ total ∧ lvars.length < limit then
        listLocals cfunc offset limit rest (total + 1) (lvars ++ [variableInfo var])
      else listLocals cfunc offset limit rest (total + 1) lvars

def nextOffset (offset listed total : ℕ) : Option ℕ :=
  if offset + listed < total then some (offset + listed) else none

def handleListLvars (idb : Option EditDb) (database : Option String) (target : TargetSpec) (offset limit : ℕ) :
    Except ToolError (Listing LocalVariableInfo) := do
  let (_, cfunc, target) ← decompileTarget idb database target
  let count ← cfunc.localVariableCount
  let (total, lvars) ← listLocals cfunc offset limit (List.range count) 0 []
  pure ⟨target, lvars, total, nextOffset offset lvars.length total⟩

def handleListPseudocodeComments (idb : Option EditDb) (database : Option String) (target : TargetSpec)
    (offset limit : ℕ) : Except ToolError (Listing PseudocodeCommentInfo) := do
  let (_, cfunc, target) ← decompileMutationTarget idb database target
  let all ← cfunc.pseudocodeCommentLocations
  let locations := ((all.drop offset).take limit).map commentInfo
  pure ⟨target, locations, all.length, nextOffset offset locations.length all.length⟩

structure ListRequest where
  offset : Option ℤ
  limit : Option ℤ
  timeoutSecs : Option ℤ

section Tools

variable {σ : Type} (idb : σ → Option EditDb) (env : Env)

def listTool {β : Type} (handle : Option EditDb → Option String → TargetSpec → ℕ → ℕ → Except ToolError (Listing β))
    (sel : Selection) (req : ListRequest) : Run σ (Listing β) := do
  let addr ← mutationTargetAddress env.json env.debug sel.address sel.name "target_name"
  let offset ← Listing.parseOptionalUnsigned req.offset "offset"
  let limit ← Listing.parseOptionalUnsigned req.limit "limit"
  if 1 ≤ limit.getD 100 ∧ limit.getD 100 ≤ 1000 then
    let _ ← decompilerTimeout req.timeoutSecs
    Prog.look fun s => handle (idb s) env.database ⟨addr, sel.name, 0⟩ (offset.getD 0) (limit.getD 100)
  else
    (.error (.invalidParams "limit must be between 1 and 1000") : Except ToolError (Listing β))

def listLvars : Selection → ListRequest → Run σ (Listing LocalVariableInfo) := listTool idb env handleListLvars

def listPseudocodeComments : Selection → ListRequest → Run σ (Listing PseudocodeCommentInfo) :=
  listTool idb env handleListPseudocodeComments

end Tools

def Listing.page {β : Type} (listing : Listing β) : Page β := ⟨listing.items, listing.nextOffset⟩

/-! What a client lists. -/

def Decompiled (env : Env) (db : EditDb) (sel : Selection) (func : Func) (cfunc : CFunction) : Prop :=
  ∃ selector base symbol, ∃ a : Address, Chooses env db sel selector base symbol ∧ (a : ℕ) = base ∧
    Decompiles db a func cfunc

def isNamed (var : LocalVariable) : Bool := var.name ≠ ""

theorem listLocals_eq {cfunc : CFunction} {offset limit : ℕ} {indexes : List ℕ} {vars : List LocalVariable}
    (h : List.Forall₂ (fun index var => cfunc.localVariable index = .ok (some var)) indexes vars) (total : ℕ)
    (lvars : List LocalVariableInfo) : listLocals cfunc offset limit indexes total lvars =
      .ok (scan isNamed variableInfo offset limit vars total lvars).swap := by
  induction h generalizing total lvars with
  | nil => rfl
  | @cons index var _ _ hvar _ ih =>
    rw [listLocals, hvar, scan]
    dsimp only
    by_cases hname : var.name = ""
    · rw [if_pos hname, if_pos (by simp [isNamed, hname])]
      exact ih total lvars
    · have hkeep : ¬ isNamed var = false := by
        simp [isNamed, hname]
      rw [if_neg hname, if_neg hkeep]
      by_cases htaken : offset ≤ total ∧ lvars.length < limit
      · rw [if_pos htaken, if_neg (by omega), if_neg (by omega)]
        exact ih (total + 1) _
      · rw [if_neg htaken, ih (total + 1) lvars]
        split_ifs
        · rfl
        · rfl
        · omega

theorem locals_forall₂ {cfunc : CFunction} {vars : List LocalVariable} (h : Locals cfunc vars) :
    List.Forall₂ (fun index var => cfunc.localVariable index = .ok (some var)) (List.range vars.length) vars := by
  rw [List.forall₂_iff_get]
  refine ⟨List.length_range, ?_⟩
  intro i _ hi
  rw [List.get_eq_getElem, List.get_eq_getElem, List.getElem_range]
  exact h.2 i hi

theorem handleListLvars_page {idb : Option EditDb} {database : Option String} {spec : TargetSpec} {func : Func}
    {cfunc : CFunction} {target : MutationTarget} {vars : List LocalVariable}
    (h : decompileTarget idb database spec = .ok (func, cfunc, target)) (hvars : Locals cfunc vars) (offset limit : ℕ) :
    (handleListLvars idb database spec offset limit).map Listing.page =
      .ok (window ((vars.filter isNamed).map variableInfo) limit offset) := by
  have hloop : listLocals cfunc offset limit (List.range vars.length) 0 [] = _ :=
    listLocals_eq (locals_forall₂ hvars) 0 []
  rw [scan_eq, List.nil_append, List.length_nil, Nat.sub_zero, Nat.sub_zero, Nat.zero_add] at hloop
  rw [handleListLvars, h]
  simp only [bind, Except.bind, hvars.1, hloop]
  rw [window, List.length_map]
  rfl

variable {σ : Type} {sdk : Sdk σ} {idb : σ → Option EditDb} {env : Env} {s : σ}

def pageRequest (limit : Option ℕ) (timeoutSecs : Option ℤ) (offset : ℕ) : ListRequest where
  offset := some offset
  limit := limit.map Int.ofNat
  timeoutSecs := timeoutSecs

theorem listTool_page {β : Type} {handle : Option EditDb → Option String → TargetSpec → ℕ → ℕ → Except ToolError (Listing β)}
    (hfloat : PrintsFloats env.json) {db : EditDb} {sel : Selection} {func : Func} {cfunc : CFunction} {all : List β}
    (hdb : idb s = some db) (hdecompiled : Decompiled env db sel func cfunc)
    (hhandle : ∀ spec target, decompileMutationTarget (some db) env.database spec = .ok (func, cfunc, target) →
      ∀ offset limit, (handle (some db) env.database spec offset limit).map Listing.page = .ok (window all limit offset))
    {limit : Option ℕ} (hlimit : 1 ≤ limit.getD 100 ∧ limit.getD 100 ≤ 1000) {timeoutSecs : Option ℤ}
    (htimeout : ValidTimeout timeoutSecs) (offset : ℕ) :
    ((listTool idb env handle sel (pageRequest limit timeoutSecs offset) s).1).map Listing.page =
      .ok (window all (limit.getD 100) offset) := by
  obtain ⟨selector, base, symbol, a, hchooses, hbase, hdecompiles⟩ := hdecompiled
  obtain ⟨secs, hsecs⟩ := (decompilerTimeout_ok timeoutSecs).mpr htimeout
  obtain ⟨addr, haddr, hselects⟩ : ∃ addr, mutationTargetAddress env.json env.debug sel.address sel.name "target_name" =
      .ok addr ∧ Selects db addr sel.name selector base symbol := by
    cases hchooses with
    | given hnames => exact ⟨_, (target_named hfloat _ _ _ _).mpr (.inl ⟨_, _, rfl, rfl, rfl, hnames⟩), .given _⟩
    | named hne hbears => exact ⟨_, (target_named hfloat _ _ _ _).mpr (.inr ⟨rfl, rfl, _, rfl, hne⟩), .named hbears⟩
  have hresolve : resolveMutationTarget db env.database ⟨addr, sel.name, 0⟩ = .ok (a, _) :=
    resolveMutationTarget_eq_ok.mpr ⟨_, _, _, hselects, by simp [hbase], rfl⟩
  have hfound := decompileMutationTarget_eq_ok.mpr ⟨db, rfl, _, hresolve, hdecompiles, rfl⟩
  have hpage := hhandle _ _ hfound offset (limit.getD 100)
  have hoffset : Listing.parseOptionalUnsigned (some (offset : ℤ)) "offset" = .ok (some offset) :=
    Listing.parse_natural (some offset) "offset"
  have hlimits := Listing.parse_natural limit "limit"
  have hrun : listTool idb env handle sel (pageRequest limit timeoutSecs offset) s =
      (handle (some db) env.database ⟨addr, sel.name, 0⟩ offset (limit.getD 100), s) := by
    rw [listTool, haddr]
    simp only [pageRequest, hoffset, hlimits, Prog.lift_ok_bind, if_pos hlimit, hsecs, Option.getD_some]
    rw [← hdb]
    rfl
  rw [hrun]
  exact hpage

theorem listTool_unchanged {β : Type}
    {handle : Option EditDb → Option String → TargetSpec → ℕ → ℕ → Except ToolError (Listing β)} (sel : Selection)
    (req : ListRequest) (s : σ) : (listTool idb env handle sel req s).2 = s := by
  unfold listTool
  apply Prog.lift_bind_state
  intro addr
  apply Prog.lift_bind_state
  intro offset
  apply Prog.lift_bind_state
  intro limit
  by_cases hlimit : 1 ≤ limit.getD 100 ∧ limit.getD 100 ≤ 1000
  · rw [if_pos hlimit]
    exact Prog.lift_bind_state fun _ => rfl
  · rw [if_neg hlimit]
    rfl

structure ListedExact (idb : σ → Option EditDb) (env : Env) : Prop where
  unchanged : ∀ sel req s, (listLvars idb env sel req s).2 = s ∧ (listPseudocodeComments idb env sel req s).2 = s
  lvars : ∀ s db sel func cfunc vars limit timeoutSecs, idb s = some db → Decompiled env db sel func cfunc →
    Locals cfunc vars → vars.length ≤ maxLocals → 1 ≤ limit.getD 100 ∧ limit.getD 100 ≤ 1000 → ValidTimeout timeoutSecs →
    Paged (fun offset => (listLvars idb env sel (pageRequest limit timeoutSecs offset) s).1.map Listing.page)
      ((vars.filter isNamed).map variableInfo)
  comments : ∀ s db sel func cfunc all limit timeoutSecs, idb s = some db → Decompiled env db sel func cfunc →
    cfunc.pseudocodeCommentLocations = .ok all → 1 ≤ limit.getD 100 ∧ limit.getD 100 ≤ 1000 → ValidTimeout timeoutSecs →
    Paged (fun offset => (listPseudocodeComments idb env sel (pageRequest limit timeoutSecs offset) s).1.map Listing.page)
      (all.map commentInfo)
  editable : ∀ s db sel func cfunc vars timeoutSecs newName, idb s = some db → Decompiled env db sel func cfunc →
    Locals cfunc vars → vars.length ≤ maxLocals → ValidTimeout timeoutSecs → Bounded newName maxNameBytes →
    ∀ index (h : index < vars.length) locator, vars[index].locator = some locator → Bounded locator maxLocatorBytes →
      (∀ other (hother : other < vars.length), vars[other].locator = some locator → other = index) →
      ∃ target, Aims idb env sel (.renameLvar none (some locator) newName timeoutSecs) s
        (.renameLocalVariable func.startAddress index newName) target

theorem listed_exact (hfloat : PrintsFloats env.json) : ListedExact idb env where
  unchanged := fun sel req s => ⟨listTool_unchanged sel req s, listTool_unchanged sel req s⟩
  lvars := by
    intro s db sel func cfunc vars limit timeoutSecs hdb hdecompiled hvars hfew hlimit htimeout
    refine (paged_iff fun offset => ?_).mpr (.inl (by omega : 0 < limit.getD 100))
    refine listTool_page hfloat hdb hdecompiled ?_ hlimit htimeout offset
    intro spec target hfound offset limit
    exact handleListLvars_page (decompileTarget_eq_ok.mpr ⟨hfound, _, hvars.1, hfew⟩) hvars offset limit
  comments := by
    intro s db sel func cfunc all limit timeoutSecs hdb hdecompiled hall hlimit htimeout
    refine (paged_iff fun offset => ?_).mpr (.inl (by omega : 0 < limit.getD 100))
    refine listTool_page hfloat hdb hdecompiled ?_ hlimit htimeout offset
    intro spec target hfound offset limit
    rw [handleListPseudocodeComments, hfound]
    simp only [bind, Except.bind, hall]
    simp only [window, ← List.map_drop, ← List.map_take, List.length_map]
    rfl
  editable := by
    intro s db sel func cfunc vars timeoutSecs newName hdb hdecompiled hvars hfew htimeout hname index h locator hlocator
      hbounded honly
    obtain ⟨selector, base, symbol, a, hchooses, hbase, hdecompiles⟩ := hdecompiled
    have hlocal : LocalAt db a (.locator locator) func index := ⟨cfunc, vars, hdecompiles, hvars, hfew, h, hlocator, honly⟩
    refine ⟨_, db, selector, base, symbol, a, hdb, hchooses, ?_, .renameLvar (.locator hbounded) hname htimeout hlocal, rfl⟩
    simp [ToolRequest.offset, hbase]

def plainLocal (name locator : String) : LocalVariable where
  name := name
  typeName := "int"
  location := "eax"
  locator := some locator
  definitionAddress := none
  width := 4
  isArgument := false
  hasUserName := false
  hasUserType := false

def threeLocals : List LocalVariable := [plainLocal "v1" "a", plainLocal "" "b", plainLocal "v2" "c"]

def decompiledMain : EditDb :=
  { twoNames with
    functionAt := fun a => if a = 0x1000 then twoNames.functions.head? else none
    decompilerAvailable := true
    decompile := fun _ => .ok ⟨.ok threeLocals.length, fun index => .ok threeLocals[index]?, .ok []⟩ }

theorem listed_exact_main : ListedExact (fun _ : Unit => some decompiledMain) plainEnv ∧
    (listLvars (fun _ : Unit => some decompiledMain) plainEnv ⟨none, some "main"⟩ ⟨some 1, some 1, none⟩ ()).1.map
      Listing.page = .ok ⟨[variableInfo (plainLocal "v2" "c")], none⟩ :=
  ⟨listed_exact plainJson_floats, rfl⟩

end IdaMcp.Mutation
