import IdaMcp.ControlFlow.Calls
import IdaMcp.Foundation.Window

namespace IdaMcp.Listing

open Foundation Text Window
open Callgraph (Address Func FunctionInfo)

structure Name where
  address : Address
  name : String
  isPublic : Bool
  isWeak : Bool

structure UdtInfo where
  ordinal : ℕ
  name : String
  size : ℕ
  isUnion : Bool
  memberCount : ℕ

structure XRef where
  source : Address
  target : Address
  /-- The `{:?}` text of its type. -/
  type : String
  isCode : Bool

structure ListDb where
  functions : List Func
  functionAt : Address → Option Func
  strings : List (Address × String)
  names : List Name
  udtOrdinalLimit : ℕ
  udtInfo : ℕ → Option UdtInfo
  /-- `first_xref_to` and what `next_to` leads to. -/
  xrefsTo : Address → List XRef
  /-- `first_xref_from` and what `next_from` leads to. -/
  xrefsFrom : Address → List XRef

structure StringInfo where
  address : String
  content : String
  length : ℕ

structure StringXrefInfo extends StringInfo where
  xrefs : List String
  xrefCount : ℕ

structure GlobalInfo where
  address : String
  name : String
  isPublic : Bool
  isWeak : Option Bool

structure XRefInfo where
  source : String
  target : String
  type : String
  isCode : Bool

structure ListResult (β : Type) where
  items : List β
  total : ℕ
  nextOffset : Option ℕ

structure XRefListResult where
  xrefs : List XRefInfo
  truncated : Bool
  nextOffset : Option ℕ

/-- The sum of the offset and the page saturates nowhere: an offset is an `i64`, and a page short. -/
def countedList {α β : Type} (keep : α → Bool) (render : α → β) (xs : List α) (offset limit : ℕ) :
    ListResult β :=
  let (items, total) := scan keep render offset limit xs 0 []
  { items := items
    total := total
    nextOffset := if offset + items.length < total then some (offset + items.length) else none }

/-! The handlers, with the lower-case mapping of Unicode. -/

section Handlers

variable (lower : String → String)

def passes (filter : Option String) (text : String) : Bool :=
  match filter.map lower with
  | some f => f.toList <:+: (lower text).toList
  | none => true

def matchesQuery (query : String) (exact caseInsensitive : Bool) (content : String) : Bool :=
  let queryNorm := if caseInsensitive then lower query else query
  let hay := if caseInsensitive then lower content else content
  if exact then hay = queryNorm else queryNorm.toList <:+: hay.toList

def handleListFunctions (db : ListDb) (filter : Option String) : ℕ → ℕ → ListResult FunctionInfo :=
  countedList (fun func => passes lower filter func.info.name) Func.info db.functions

def stringInfo (entry : Address × String) : StringInfo where
  address := hexText entry.1
  content := entry.2
  length := entry.2.utf8ByteSize

def handleStrings (db : ListDb) (filter : Option String) : ℕ → ℕ → ListResult StringInfo :=
  countedList (fun entry => passes lower filter entry.2) stringInfo db.strings

def stringXrefInfo (db : ListDb) (maxXrefs : ℕ) (entry : Address × String) : StringXrefInfo :=
  let xrefs := ((db.xrefsTo entry.1).take maxXrefs).map fun xref => hexText xref.source
  { stringInfo entry with
    xrefs := xrefs
    xrefCount := xrefs.length }

def handleAnalyzeStrings (db : ListDb) (query : Option String) : ℕ → ℕ → ListResult StringXrefInfo :=
  countedList (fun entry => passes lower query entry.2) (stringXrefInfo db 64) db.strings

def handleFindString (db : ListDb) (query : String) (exact caseInsensitive : Bool) :
    ℕ → ℕ → ListResult StringInfo :=
  countedList (fun entry => matchesQuery lower query exact caseInsensitive entry.2) stringInfo db.strings

def handleXrefsToString (db : ListDb) (query : String) (exact caseInsensitive : Bool) (maxXrefs : ℕ) :
    ℕ → ℕ → ListResult StringXrefInfo :=
  countedList (fun entry => matchesQuery lower query exact caseInsensitive entry.2)
    (stringXrefInfo db (min (max maxXrefs 1) 1024)) db.strings

def globalInfo (name : Name) : GlobalInfo where
  address := hexText name.address
  name := name.name
  isPublic := name.isPublic
  isWeak := some name.isWeak

def handleListGlobals (db : ListDb) (query : Option String) : ℕ → ℕ → ListResult GlobalInfo :=
  countedList (fun name => passes lower query name.name && (db.functionAt name.address).isNone)
    globalInfo db.names

def udts (db : ListDb) : List UdtInfo := (List.range' 1 (db.udtOrdinalLimit - 1)).filterMap db.udtInfo

def handleStructs (db : ListDb) (filter : Option String) : ℕ → ℕ → ListResult UdtInfo :=
  countedList (fun info => passes lower filter info.name) id (udts db)

end Handlers

def toXrefInfo (xref : XRef) : XRefInfo where
  source := hexText xref.source
  target := hexText xref.target
  type := xref.type
  isCode := xref.isCode

def collectWindow (chain : List XRef) (offset limit : ℕ) : XRefListResult :=
  let taken := takeWindow (fun item : Link XRef => link item.2) limit offset (link chain)
  let xrefs := taken.items.map fun item => toXrefInfo item.1
  { xrefs := xrefs
    truncated := taken.truncated
    nextOffset := if taken.truncated then some (offset + xrefs.length) else none }

def handleXrefsTo (db : ListDb) (addr : Address) : ℕ → ℕ → XRefListResult := collectWindow (db.xrefsTo addr)

def handleXrefsFrom (db : ListDb) (addr : Address) : ℕ → ℕ → XRefListResult :=
  collectWindow (db.xrefsFrom addr)

/-! The tools, as they read a request. -/

structure PageRequest where
  offset : Option ℤ
  limit : Option ℤ

def parseOptionalUnsigned (value : Option ℤ) (name : String) : Except ToolError (Option ℕ) :=
  match value with
  | some v =>
    if v < 0 then .error (.invalidParams (name ++ " (" ++ toString v ++ ") is out of range for usize"))
    else .ok (some v.toNat)
  | none => .ok none

def parsePaging (req : PageRequest) : Except ToolError (ℕ × ℕ) := do
  let limit ← parseOptionalUnsigned req.limit "limit"
  let offset ← parseOptionalUnsigned req.offset "offset"
  pure (offset.getD 0, min (limit.getD 100) 10000)

def parseXrefsPaging (req : PageRequest) : Except ToolError (ℕ × ℕ) := do
  let limit ← parseOptionalUnsigned req.limit "limit"
  let offset ← parseOptionalUnsigned req.offset "offset"
  pure (offset.getD 0, min (max (limit.getD 1000) 1) 10000)

inductive Item
  | function (info : FunctionInfo)
  | string (info : StringInfo)
  | stringXrefs (info : StringXrefInfo)
  | global (info : GlobalInfo)
  | struct (info : UdtInfo)
  | xref (info : XRefInfo)

def ListResult.page {β : Type} (result : ListResult β) (item : β → Item) : Page Item where
  items := result.items.map item
  nextOffset := result.nextOffset

def XRefListResult.page (result : XRefListResult) : Page Item where
  items := result.xrefs.map .xref
  nextOffset := result.nextOffset

/-- A call of a list tool but for its paging; the xref tools answer so for each address. -/
inductive Call
  | listFunctions (filter : Option String)
  | strings (filter : Option String)
  | findString (query : String) (exact caseInsensitive : Option Bool)
  | xrefsToString (query : String) (exact caseInsensitive : Option Bool) (maxXrefs : Option ℕ)
  | analyzeStrings (query : Option String)
  | listGlobals (query : Option String)
  | structs (filter : Option String)
  | xrefsTo (addr : Address)
  | xrefsFrom (addr : Address)

section Tools

variable (lower : String → String) (db : ListDb)

def Call.paging : Call → PageRequest → Except ToolError (ℕ × ℕ)
  | .xrefsTo _ | .xrefsFrom _ => parseXrefsPaging
  | _ => parsePaging

def Call.handle : Call → ℕ → ℕ → Page Item
  | .listFunctions filter, offset, limit => (handleListFunctions lower db filter offset limit).page .function
  | .strings filter, offset, limit => (handleStrings lower db filter offset limit).page .string
  | .findString query exact caseInsensitive, offset, limit =>
    (handleFindString lower db query (exact.getD false) (caseInsensitive.getD true) offset limit).page .string
  | .xrefsToString query exact caseInsensitive maxXrefs, offset, limit =>
    (handleXrefsToString lower db query (exact.getD false) (caseInsensitive.getD true)
      (maxXrefs.getD 64) offset limit).page .stringXrefs
  | .analyzeStrings query, offset, limit =>
    (handleAnalyzeStrings lower db query offset limit).page .stringXrefs
  | .listGlobals query, offset, limit => (handleListGlobals lower db query offset limit).page .global
  | .structs filter, offset, limit => (handleStructs lower db filter offset limit).page .struct
  | .xrefsTo addr, offset, limit => (handleXrefsTo db addr offset limit).page
  | .xrefsFrom addr, offset, limit => (handleXrefsFrom db addr offset limit).page

def Call.answer (call : Call) (idb : Option ListDb) (req : PageRequest) : Except ToolError (Page Item) := do
  let (offset, limit) ← call.paging req
  match idb with
  | none => .error .noDatabaseOpen
  | some db => pure (call.handle lower db offset limit)

def Call.listed : Call → List Item
  | .listFunctions filter =>
    (db.functions.filter fun func => passes lower filter func.info.name).map fun func => .function func.info
  | .strings filter =>
    (db.strings.filter fun entry => passes lower filter entry.2).map fun entry => .string (stringInfo entry)
  | .findString query exact caseInsensitive =>
    (db.strings.filter fun entry =>
      matchesQuery lower query (exact.getD false) (caseInsensitive.getD true) entry.2).map
      fun entry => .string (stringInfo entry)
  | .xrefsToString query exact caseInsensitive maxXrefs =>
    (db.strings.filter fun entry =>
      matchesQuery lower query (exact.getD false) (caseInsensitive.getD true) entry.2).map
      fun entry => .stringXrefs (stringXrefInfo db (min (max (maxXrefs.getD 64) 1) 1024) entry)
  | .analyzeStrings query =>
    (db.strings.filter fun entry => passes lower query entry.2).map
      fun entry => .stringXrefs (stringXrefInfo db 64 entry)
  | .listGlobals query =>
    (db.names.filter fun name => passes lower query name.name && (db.functionAt name.address).isNone).map
      fun name => .global (globalInfo name)
  | .structs filter => ((udts db).filter fun info => passes lower filter info.name).map .struct
  | .xrefsTo addr => (db.xrefsTo addr).map fun xref => .xref (toXrefInfo xref)
  | .xrefsFrom addr => (db.xrefsFrom addr).map fun xref => .xref (toXrefInfo xref)

end Tools

/-! Every tool answers a window of its list. -/

theorem countedList_page {α β : Type} (keep : α → Bool) (render : α → β) (item : β → Item)
    (xs : List α) (offset limit : ℕ) :
    (countedList keep render xs offset limit).page item =
      window ((xs.filter keep).map fun x => item (render x)) limit offset := by
  have hmap : (xs.filter keep).map (fun x => item (render x)) =
      ((xs.filter keep).map render).map item := List.map_map.symm
  rw [countedList, scan_eq, ListResult.page, window, hmap]
  simp

theorem collectWindow_page (chain : List XRef) (offset limit : ℕ) :
    (collectWindow chain offset limit).page =
      window (chain.map fun xref => .xref (toXrefInfo xref)) limit offset := by
  obtain ⟨hitems, htruncated⟩ := takeWindow_link limit offset chain
  have hxrefs : (collectWindow chain offset limit).xrefs = ((chain.drop offset).take limit).map toXrefInfo := by
    rw [← hitems, List.map_map]
    rfl
  have hpage : (collectWindow chain offset limit).page.items =
      (window (chain.map fun xref => .xref (toXrefInfo xref)) limit offset).items := by
    rw [XRefListResult.page, hxrefs, window, ← List.map_drop, ← List.map_take, List.map_map]
    rfl
  have hnext : (collectWindow chain offset limit).nextOffset =
      (window (chain.map fun xref => Item.xref (toXrefInfo xref)) limit offset).nextOffset := by
    have hlength : (collectWindow chain offset limit).xrefs.length = min limit (chain.length - offset) := by
      rw [hxrefs, List.length_map, List.length_take, List.length_drop]
    change (if _ then some (offset + (collectWindow chain offset limit).xrefs.length) else none) = _
    rw [htruncated, hlength, window]
    dsimp only
    rw [List.length_take, List.length_drop, List.length_map]
    by_cases hmore : offset + limit < chain.length
    · rw [if_pos (by simpa using hmore), if_pos (by omega)]
    · rw [if_neg (by simpa using hmore), if_neg (by omega)]
  exact congrArg₂ Page.mk hpage hnext

theorem handle_eq_window (lower : String → String) (db : ListDb) (call : Call) (offset limit : ℕ) :
    call.handle lower db offset limit = window (call.listed lower db) limit offset := by
  cases call
  case xrefsTo | xrefsFrom => exact collectWindow_page _ _ _
  all_goals exact countedList_page _ _ _ _ _ _

/-! The limit of a call. -/

/-- The xref tools raise a limit of zero. -/
def Call.raises : Call → Bool
  | .xrefsTo _ | .xrefsFrom _ => true
  | _ => false

/-- A request that the schema admits, which has neither offset nor limit below zero. -/
def request (limit : Option ℕ) (offset : ℕ) : PageRequest where
  offset := some offset
  limit := limit.map Int.ofNat

theorem parse_natural (value : Option ℕ) (name : String) :
    parseOptionalUnsigned (value.map Int.ofNat) name = .ok value := by
  cases value with
  | none => rfl
  | some n =>
    rw [Option.map_some, parseOptionalUnsigned, if_neg (by simp)]
    rfl

def Call.limit (call : Call) (limit : Option ℕ) : ℕ :=
  if call.raises then min (max (limit.getD 1000) 1) 10000 else min (limit.getD 100) 10000

theorem answer_eq_window (lower : String → String) (db : ListDb) (call : Call) (limit : Option ℕ)
    (offset : ℕ) : call.answer lower (some db) (request limit offset) =
      .ok (window (call.listed lower db) (call.limit limit) offset) := by
  have hpaging : call.paging (request limit offset) = .ok (offset, call.limit limit) := by
    have hlimit := parse_natural limit "limit"
    have hoffset := parse_natural (some offset) "offset"
    cases call <;>
    · simp only [Call.paging, parsePaging, parseXrefsPaging, request, hlimit]
      rw [show some (offset : ℤ) = (some offset).map Int.ofNat from rfl, hoffset]
      rfl
  rw [Call.answer, hpaging, ← handle_eq_window]
  rfl

theorem limit_pos (call : Call) (limit : Option ℕ) :
    0 < call.limit limit ↔ call.raises = true ∨ limit ≠ some 0 := by
  unfold Call.limit
  cases limit with
  | none => split_ifs <;> simp
  | some n =>
    by_cases hraises : call.raises = true
    · rw [if_pos hraises]
      simp [hraises]
    · rw [if_neg hraises]
      simp [hraises, Nat.pos_iff_ne_zero]

/-- A tool pages its list unless the limit is zero, and no window is walked past its end. -/
theorem lists_paged_iff (lower : String → String) (db : ListDb) :
    (∀ (call : Call) (limit : Option ℕ),
      Paged (fun offset => call.answer lower (some db) (request limit offset)) (call.listed lower db) ↔
        call.raises = true ∨ limit ≠ some 0 ∨ call.listed lower db = []) ∧
    ∀ {τ : Type} (advance : τ → Option τ) (limit offset : ℕ) (first : Option τ),
      (takeWindow advance limit offset first).advanced ≤ offset + limit := by
  constructor
  · intro call limit
    rw [paged_iff (answer_eq_window lower db call limit), limit_pos, or_assoc]
  · exact fun advance limit offset first => advanced_takeWindow_le advance limit offset first

def oneFunction : ListDb where
  functions := [⟨0x1000, 0x1010, some "main", 16⟩]
  functionAt _ := none
  strings := []
  names := []
  udtOrdinalLimit := 1
  udtInfo _ := none
  xrefsTo _ := []
  xrefsFrom _ := []

/-- A limit of zero, which the schema admits, returns the offset it was asked for. -/
theorem zero_limit_stuck : ¬ Paged (fun offset => (Call.listFunctions none).answer id (some oneFunction)
    (request (some 0) offset)) ((Call.listFunctions none).listed id oneFunction) := by
  intro h
  obtain ⟨page, hpage, hprogress, -⟩ := h.answers 0
  rw [answer_eq_window, Except.ok.injEq] at hpage
  exact absurd (hprogress 0 (by rw [← hpage]; rfl)) (by omega)

end IdaMcp.Listing
