import IdaMcp.ControlFlow.Calls

namespace IdaMcp.Lookup

open Foundation Text Callgraph

structure NamedItem where
  address : Address
  name : String

structure NameDb where
  functions : List Func
  functionAt : Address → Option Func
  names : List NamedItem

def isHit (query name : String) : Bool := name = query || query.toList <:+: name.toList

def hitByName (query : String) (func : Func) : Option (String × Func) :=
  (func.name.filter (isHit query)).map fun name => (name, func)

def resolveFunction (idb : Option NameDb) (name : String) : Except ToolError FunctionInfo :=
  match idb with
  | none => .error .noDatabaseOpen
  | some db =>
    match db.functions.findSome? (hitByName name) with
    | some (funcName, func) =>
      .ok { address := hexText func.startAddress, name := funcName, size := func.len }
    | none => .error (.functionNameNotFound name)

def lookupEntry (db : NameDb) (query : String) : Option FunctionInfo :=
  match parseAddressStr query with
  | .ok addr => (db.functionAt addr).map Func.info
  | .error _ => (db.functions.map Func.info).find? fun info => isHit query info.name

def lookupFuncs (idb : Option NameDb) (queries : List String) :
    Except ToolError (List (String × Option FunctionInfo)) :=
  match idb with
  | none => .error .noDatabaseOpen
  | some db => .ok (queries.map fun query => (query, lookupEntry db query))

inductive Target
  | function (func : Func)
  | item (named : NamedItem)

def Target.address : Target → Address
  | function func => func.startAddress
  | item named => named.address

def Target.name : Target → Option String
  | function func => func.name
  | item named => some named.name

def resolveTarget (idb : Option NameDb) (name : String) : Except ToolError Target :=
  match idb with
  | none => .error .noDatabaseOpen
  | some db =>
    match db.functions.findSome? (hitByName name) with
    | some (_, func) => .ok (.function func)
    | none =>
      match db.names.find? fun item => isHit name item.name with
      | some item => .ok (.item item)
      | none => .error (.functionNameNotFound name)

def resolveAddressByName (idb : Option NameDb) (name : String) : Except ToolError Address :=
  (resolveTarget idb name).map Target.address

/-! Exact names before partial matches. -/

/-- A name that merely contains the query stands before every name that is the query. -/
def Overtaken (query : String) (names : List String) : Prop :=
  ∃ before name after, names = before ++ name :: after ∧ query ∉ before ∧
    query.toList <:+: name.toList ∧ name ≠ query ∧ query ∈ after

def NameDb.ownNames (db : NameDb) : List String :=
  db.functions.filterMap Func.name ++ db.names.map NamedItem.name

def NameDb.shownNames (db : NameDb) : List String :=
  db.functions.map (fun func => func.info.name) ++ db.names.map NamedItem.name

structure ExactFirst (db : NameDb) (query : String) : Prop where
  resolve : ∀ func ∈ db.functions, func.name = some query →
    ∃ found ∈ db.functions, found.name = some query ∧ resolveFunction (some db) query = .ok found.info
  entry : ∀ func ∈ db.functions, func.info.name = query →
    ∃ found ∈ db.functions, found.info.name = query ∧ lookupEntry db query = some found.info
  target : ∀ func ∈ db.functions, func.name = some query →
    ∃ found ∈ db.functions, found.name = some query ∧ resolveTarget (some db) query = .ok (.function found)
  item : query ∉ db.functions.filterMap Func.name → ∀ item ∈ db.names, item.name = query →
    ∃ found ∈ db.names, found.name = query ∧ resolveTarget (some db) query = .ok (.item found)
  partialResolve : ∀ info, resolveFunction (some db) query = .ok info → info.name ≠ query →
    query ∉ db.ownNames
  partialEntry : ∀ info, lookupEntry db query = some info → info.name ≠ query →
    query ∉ db.shownNames
  partialTarget : ∀ target, resolveTarget (some db) query = .ok target → target.name ≠ some query →
    query ∉ db.ownNames

theorem isHit_self (query : String) : isHit query query = true := by
  simp [isHit]

theorem overtaken_iff (query : String) (names : List String) : Overtaken query names ↔
    ∃ name, names.find? (isHit query) = some name ∧ name ≠ query ∧ query ∈ names := by
  constructor
  · rintro ⟨before, name, after, rfl, hbefore, hpart, hname, hafter⟩
    have hhit : isHit query name = true := by simp [isHit, hpart]
    have hfound : ((before ++ name :: after).find? (isHit query)).isSome :=
      List.find?_isSome.mpr ⟨name, by simp, hhit⟩
    obtain ⟨first, hfirst⟩ := Option.isSome_iff_exists.mp hfound
    refine ⟨first, hfirst, ?_, by simp [hafter]⟩
    rw [List.find?_append] at hfirst
    cases hfind : before.find? (isHit query) with
    | none =>
      rw [hfind, Option.none_or, List.find?_cons_of_pos hhit, Option.some_inj] at hfirst
      rwa [← hfirst]
    | some other =>
      rw [hfind, Option.some_or, Option.some_inj] at hfirst
      rintro rfl
      exact hbefore (hfirst ▸ List.mem_of_find?_eq_some hfind)
  · rintro ⟨name, hfind, hname, hmem⟩
    obtain ⟨hhit, before, after, rfl, hbefore⟩ := List.find?_eq_some_iff_append.mp hfind
    have hnot : query ∉ before := by
      intro hmem
      have hnone := hbefore query hmem
      rw [isHit_self] at hnone
      contradiction
    refine ⟨before, name, after, rfl, hnot, by simpa [isHit, hname] using hhit, hname, ?_⟩
    simpa [hnot, Ne.symm hname] using hmem

/-! What the lookups find. -/

theorem hitByName_eq_some {query name : String} {func found : Func} :
    hitByName query func = some (name, found) ↔
      found = func ∧ func.name = some name ∧ isHit query name = true := by
  unfold hitByName
  cases hname : func.name with
  | none => simp
  | some name' => by_cases hhit : isHit query name' = true <;> simp [hhit] <;> grind

theorem find_functions (query : String) (functions : List Func) :
    (functions.filterMap Func.name).find? (isHit query) =
      (functions.findSome? (hitByName query)).map Prod.fst := by
  induction functions with
  | nil => rfl
  | cons func functions ih =>
    rw [List.findSome?_cons]
    cases hname : func.name with
    | none =>
      rw [List.filterMap_cons_none hname, ih, hitByName, hname]
      rfl
    | some name =>
      rw [List.filterMap_cons_some hname, List.find?_cons, hitByName, hname]
      by_cases hhit : isHit query name = true
      · rw [Option.filter_some_pos hhit, hhit]
        rfl
      · rw [Option.filter_some_neg (Bool.eq_false_iff.mpr hhit), Bool.eq_false_iff.mpr hhit, ih]
        rfl

theorem find_ownNames (db : NameDb) (query : String) : db.ownNames.find? (isHit query) =
    (resolveTarget (some db) query).toOption.bind Target.name := by
  rw [NameDb.ownNames, List.find?_append, find_functions, List.find?_map]
  unfold resolveTarget
  dsimp only
  cases hfunc : db.functions.findSome? (hitByName query) with
  | some found =>
    obtain ⟨name, func⟩ := found
    obtain ⟨before, func', after, -, hhit, -⟩ := List.findSome?_eq_some_iff.mp hfunc
    obtain ⟨rfl, hname, -⟩ := hitByName_eq_some.mp hhit
    exact hname.symm
  | none =>
    rw [show (isHit query ∘ NamedItem.name) = fun item => isHit query item.name from rfl]
    cases db.names.find? fun item => isHit query item.name <;> rfl

theorem resolveTarget_of_function {db : NameDb} {query name : String} {func : Func}
    (h : db.functions.findSome? (hitByName query) = some (name, func)) :
    resolveTarget (some db) query = .ok (.function func) ∧
      resolveFunction (some db) query = .ok func.info ∧ func ∈ db.functions ∧ func.name = some name := by
  obtain ⟨before, func', after, hsplit, hhit, -⟩ := List.findSome?_eq_some_iff.mp h
  obtain ⟨rfl, hname, -⟩ := hitByName_eq_some.mp hhit
  refine ⟨?_, ?_, ?_, hname⟩
  · unfold resolveTarget
    dsimp only
    rw [h]
  · unfold resolveFunction
    dsimp only
    rw [h, Func.info, hname]
    rfl
  · rw [hsplit]
    simp

theorem exists_hit {functions : List Func} {query : String} {func : Func} (hmem : func ∈ functions)
    (hname : func.name = some query) :
    ∃ name found, functions.findSome? (hitByName query) = some (name, found) := by
  have hsome : (functions.findSome? (hitByName query)).isSome := by
    refine List.findSome?_isSome_iff.mpr ⟨func, hmem, ?_⟩
    rw [hitByName_eq_some.mpr ⟨rfl, hname, isHit_self query⟩]
    rfl
  obtain ⟨⟨name, found⟩, hfound⟩ := Option.isSome_iff_exists.mp hsome
  exact ⟨name, found, hfound⟩

theorem exact_of_first {names : List String} {query name : String} (h : ¬ Overtaken query names)
    (hfind : names.find? (isHit query) = some name) (hmem : query ∈ names) : name = query := by
  by_contra hname
  exact h ((overtaken_iff query names).mpr ⟨name, hfind, hname, hmem⟩)

theorem lookupEntry_eq {db : NameDb} {query : String} (hquery : ∀ a, parseAddressStr query ≠ .ok a) :
    lookupEntry db query = (db.functions.map Func.info).find? fun info => isHit query info.name := by
  unfold lookupEntry
  split
  · exact absurd ‹_› (hquery _)
  · rfl

theorem find_shown {db : NameDb} {query : String} (hquery : ∀ a, parseAddressStr query ≠ .ok a) :
    db.shownNames.find? (isHit query) = ((lookupEntry db query).map FunctionInfo.name).or
      ((db.names.map NamedItem.name).find? (isHit query)) := by
  have hshown : db.functions.map (fun func => func.info.name) =
      (db.functions.map Func.info).map FunctionInfo.name := List.map_map.symm
  rw [lookupEntry_eq hquery, NameDb.shownNames, List.find?_append, hshown, List.find?_map]
  rfl

theorem lookupEntry_mem {db : NameDb} {query : String} {info : FunctionInfo}
    (hquery : ∀ a, parseAddressStr query ≠ .ok a) (h : lookupEntry db query = some info) :
    ∃ func ∈ db.functions, func.info = info := by
  rw [lookupEntry_eq hquery] at h
  exact List.mem_map.mp (List.mem_of_find?_eq_some h)

theorem shown_of_own {db : NameDb} {name : String} (h : name ∈ db.functions.filterMap Func.name) :
    name ∈ (db.functions.map Func.info).map FunctionInfo.name := by
  obtain ⟨func, hmem, hname⟩ := List.mem_filterMap.mp h
  refine List.mem_map.mpr ⟨func.info, List.mem_map_of_mem hmem, ?_⟩
  rw [Func.info, hname]
  rfl

theorem ExactFirst.not_overtaken_own {db : NameDb} {query : String} (h : ExactFirst db query) :
    ¬ Overtaken query db.ownNames := by
  intro hover
  obtain ⟨name, hfind, hname, hmem⟩ := (overtaken_iff _ _).mp hover
  rw [find_ownNames] at hfind
  obtain ⟨target, htarget, hsame⟩ := Option.bind_eq_some_iff.mp hfind
  cases hresolve : resolveTarget (some db) query with
  | error e =>
    rw [hresolve] at htarget
    cases htarget
  | ok target' =>
    rw [hresolve] at htarget
    cases htarget
    exact h.partialTarget target hresolve (by rw [hsame]; simpa using hname) hmem

theorem ExactFirst.not_overtaken_shown {db : NameDb} {query : String}
    (hquery : ∀ a, parseAddressStr query ≠ .ok a) (h : ExactFirst db query) :
    ¬ Overtaken query db.shownNames := by
  intro hover
  obtain ⟨name, hfind, hname, hmem⟩ := (overtaken_iff _ _).mp hover
  rw [find_shown hquery] at hfind
  cases hentry : lookupEntry db query with
  | some info =>
    rw [hentry, Option.map_some, Option.some_or, Option.some_inj] at hfind
    exact h.partialEntry info hentry (hfind ▸ hname) hmem
  | none =>
    -- no function is hit at all, so the items alone are overtaken
    rw [hentry, Option.map_none, Option.none_or] at hfind
    rw [lookupEntry_eq hquery, List.find?_eq_none] at hentry
    have hshown : ∀ shown ∈ (db.functions.map Func.info).map FunctionInfo.name,
        isHit query shown = false := by
      intro shown hshown
      obtain ⟨info, hinfo, rfl⟩ := List.mem_map.mp hshown
      exact Bool.eq_false_iff.mpr (hentry info hinfo)
    have hown : (db.functions.filterMap Func.name).find? (isHit query) = none := by
      rw [List.find?_eq_none]
      intro own hmem
      rw [hshown own (shown_of_own hmem)]
      exact Bool.false_ne_true
    apply h.not_overtaken_own
    refine (overtaken_iff _ _).mpr ⟨name, ?_, hname, ?_⟩
    · rw [NameDb.ownNames, List.find?_append, hown, Option.none_or, hfind]
    · rcases List.mem_append.mp hmem with hmem | hmem
      · have hnone := hshown query (by rwa [List.map_map])
        rw [isHit_self] at hnone
        contradiction
      · exact List.mem_append_right _ hmem

theorem exactFirst_of_not_overtaken {db : NameDb} {query : String}
    (hquery : ∀ a, parseAddressStr query ≠ .ok a) (hown : ¬ Overtaken query db.ownNames)
    (hshown : ¬ Overtaken query db.shownNames) : ExactFirst db query := by
  have htarget (target : Target) (h : resolveTarget (some db) query = .ok target)
      (hmem : query ∈ db.ownNames) : target.name = some query := by
    have hfind := find_ownNames db query
    rw [h] at hfind
    cases hname : target.name with
    | none =>
      rw [Except.toOption, Option.bind_some, hname, List.find?_eq_none] at hfind
      exact absurd (isHit_self query) (hfind query hmem)
    | some name => rw [exact_of_first hown (hfind.trans hname) hmem]
  have hentry (info : FunctionInfo) (h : lookupEntry db query = some info)
      (hmem : query ∈ db.shownNames) : info.name = query := by
    apply exact_of_first hshown _ hmem
    rw [find_shown hquery, h]
    rfl
  have hfunction (func : Func) (hmem : func ∈ db.functions) (hname : func.name = some query) :
      ∃ found ∈ db.functions, found.name = some query ∧
        resolveTarget (some db) query = .ok (.function found) ∧
        resolveFunction (some db) query = .ok found.info := by
    obtain ⟨name, found, hfirst⟩ := exists_hit hmem hname
    obtain ⟨hresolved, hinfo, hfound, -⟩ := resolveTarget_of_function hfirst
    have hlisted : query ∈ db.ownNames :=
      List.mem_append_left _ (List.mem_filterMap.mpr ⟨func, hmem, hname⟩)
    exact ⟨found, hfound, htarget _ hresolved hlisted, hresolved, hinfo⟩
  constructor
  · intro func hmem hname
    obtain ⟨found, hfound, hexact, -, hinfo⟩ := hfunction func hmem hname
    exact ⟨found, hfound, hexact, hinfo⟩
  · intro func hmem hname
    have hlisted : query ∈ db.shownNames :=
      List.mem_append_left _ (List.mem_map.mpr ⟨func, hmem, hname⟩)
    have hsome : (lookupEntry db query).isSome := by
      rw [lookupEntry_eq hquery, List.find?_isSome]
      exact ⟨func.info, List.mem_map_of_mem hmem, by rw [hname, isHit_self]⟩
    obtain ⟨info, hinfo⟩ := Option.isSome_iff_exists.mp hsome
    obtain ⟨found, hfound, rfl⟩ := lookupEntry_mem hquery hinfo
    exact ⟨found, hfound, hentry _ hinfo hlisted, hinfo⟩
  · intro func hmem hname
    obtain ⟨found, hfound, hexact, hresolved, -⟩ := hfunction func hmem hname
    exact ⟨found, hfound, hexact, hresolved⟩
  · intro hnone item hmem hname
    have hlisted : query ∈ db.ownNames :=
      List.mem_append_right _ (List.mem_map.mpr ⟨item, hmem, hname⟩)
    cases hfirst : db.functions.findSome? (hitByName query) with
    | some hit =>
      obtain ⟨hresolved, -, hfound, -⟩ := resolveTarget_of_function hfirst
      have hexact := htarget _ hresolved hlisted
      exact absurd (List.mem_filterMap.mpr ⟨_, hfound, hexact⟩) hnone
    | none =>
      have hsome : (db.names.find? fun item => isHit query item.name).isSome :=
        List.find?_isSome.mpr ⟨item, hmem, by rw [hname, isHit_self]⟩
      obtain ⟨found, hfound⟩ := Option.isSome_iff_exists.mp hsome
      have hresolved : resolveTarget (some db) query = .ok (.item found) := by
        unfold resolveTarget
        dsimp only
        rw [hfirst, hfound]
      have hexact := htarget _ hresolved hlisted
      exact ⟨found, List.mem_of_find?_eq_some hfound, Option.some_inj.mp hexact, hresolved⟩
  · intro info hinfo hname hlisted
    cases hfirst : db.functions.findSome? (hitByName query) with
    | some hit =>
      obtain ⟨hresolved, hinfo', -, hfound⟩ := resolveTarget_of_function hfirst
      have hexact : hit.2.name = some query := htarget _ hresolved hlisted
      rw [hinfo'] at hinfo
      cases hinfo
      apply hname
      rw [Func.info, hexact]
      rfl
    | none =>
      unfold resolveFunction at hinfo
      dsimp only at hinfo
      rw [hfirst] at hinfo
      cases hinfo
  · exact fun info hinfo hname hlisted => hname (hentry info hinfo hlisted)
  · exact fun target hresolved hname hlisted => hname (htarget target hresolved hlisted)

/-- The lookups put exact names first where no partial match stands before them. -/
theorem exactFirst_iff {db : NameDb} {query : String} (hquery : ∀ a, parseAddressStr query ≠ .ok a) :
    ExactFirst db query ↔ ¬ Overtaken query db.ownNames ∧ ¬ Overtaken query db.shownNames :=
  ⟨fun h => ⟨h.not_overtaken_own, h.not_overtaken_shown hquery⟩,
    fun h => exactFirst_of_not_overtaken hquery h.1 h.2⟩

def twoMains : NameDb where
  functions := [⟨0x1000, 0x1010, some "main_helper", 16⟩, ⟨0x1010, 0x1020, some "main", 16⟩]
  functionAt _ := none
  names := []

theorem exactFirst_main_helper : ExactFirst twoMains "main_helper" ↔
    ¬ Overtaken "main_helper" twoMains.ownNames ∧ ¬ Overtaken "main_helper" twoMains.shownNames :=
  exactFirst_iff fun _ h => nomatch h

/-- The lookups of `main` all return the other function. -/
theorem main_overtaken :
    resolveFunction (some twoMains) "main" = .ok ⟨"0x1000", "main_helper", 16⟩ ∧
      lookupFuncs (some twoMains) ["main"] = .ok [("main", some ⟨"0x1000", "main_helper", 16⟩)] ∧
      resolveAddressByName (some twoMains) "main" = .ok 0x1000 ∧ ¬ ExactFirst twoMains "main" := by
  have hreached : resolveAddressByName (some twoMains) "main" = .ok 0x1000 := by decide
  refine ⟨by decide, by decide, hreached, fun h => ?_⟩
  obtain ⟨found, hmem, hname, hresolved⟩ := h.target _ (List.mem_cons_of_mem _ List.mem_cons_self) rfl
  rw [resolveAddressByName, hresolved] at hreached
  have haddress : found.startAddress = 0x1000 := Except.ok.inj hreached
  simp only [twoMains, List.mem_cons, List.not_mem_nil, or_false] at hmem
  rcases hmem with rfl | rfl
  · exact absurd hname (by decide)
  · exact absurd haddress (by decide)

end IdaMcp.Lookup
