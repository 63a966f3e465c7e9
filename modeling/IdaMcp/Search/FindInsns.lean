import Mathlib.Data.List.Chain
import Mathlib.Logic.Relation
import IdaMcp.Listing.RenderRange

namespace IdaMcp.Search

open Foundation Text Listing

variable {α : Type}

structure CodeSegment where
  startAddress : ℕ
  endAddress : ℕ

structure InsnDb extends CodeDb where
  segments : List CodeSegment

def stripComment (line : Chars) : Chars := line.takeWhile (· ≠ ';')

structure SplitLine where
  mnemonic : Chars
  operands : Chars
  line : Chars

def splitDisasmLine (line : String) : SplitLine :=
  let trimmed := trim (stripComment line.toList)
  if trimmed = [] then ⟨[], [], []⟩
  else
    { mnemonic := trim (trimmed.takeWhile fun c => !isWhitespace c)
      operands := trim (trimmed.dropWhile fun c => !isWhitespace c).tail
      line := trimmed }

def saturatingAdd (a b : ℕ) : ℕ := min (a + b) (2 ^ 64 - 1)

def nextAddr (db : InsnDb) (current : ℕ) : Option ℕ :=
  match db.insnLen current with
  | some len => if len = 0 then none else some (saturatingAdd current len)
  | none => (db.nextHead current).filter fun next => current < next

def lowered (caseInsensitive : Bool) (text : Chars) : Chars :=
  if caseInsensitive then text.map Char.toLower else text

/-- A pattern with a blank or a comma is looked for in the line, another one in the mnemonic. -/
def matchesInsn (caseInsensitive : Bool) (pat : Chars) (split : SplitLine) : Bool :=
  if ' ' ∈ pat ∨ ',' ∈ pat then decide (pat <:+: lowered caseInsensitive split.line)
  else decide (pat <:+: lowered caseInsensitive split.mnemonic)

structure InsnMatch where
  address : String
  mnemonic : String
  operands : Option String
  line : String
  sequence : Option (List String)
deriving DecidableEq

def followSequence (db : InsnDb) (segEnd : ℕ) (caseInsensitive : Bool) :
    List Chars → ℕ → List ℕ → Option (List ℕ)
  | [], _, seqAddrs => some seqAddrs
  | pat :: pats, current, seqAddrs =>
    match (nextAddr db current).filter fun next => next < segEnd with
    | none => none
    | some next =>
      match db.generateDisasmLine next with
      | none => none
      | some line =>
        let split := splitDisasmLine line
        if split.mnemonic = [] then none
        else if matchesInsn caseInsensitive pat split then
          followSequence db segEnd caseInsensitive pats next (seqAddrs ++ [next])
        else none

def insnAt (db : InsnDb) (segEnd : ℕ) (caseInsensitive : Bool) (patternsNorm : List Chars) (addr : ℕ) :
    Option InsnMatch :=
  match db.generateDisasmLine addr with
  | none => none
  | some line =>
    let split := splitDisasmLine line
    if split.mnemonic = [] then none
    else
      match patternsNorm with
      | [] => none
      | firstPat :: rest =>
        if matchesInsn caseInsensitive firstPat split then
          match rest with
          | [] => some ⟨hexText addr, String.ofList split.mnemonic, none, String.ofList split.line, none⟩
          | _ :: _ =>
            (followSequence db segEnd caseInsensitive rest addr [addr]).map fun seqAddrs =>
              ⟨hexText addr, String.ofList split.mnemonic, none, String.ofList split.line,
                some (seqAddrs.map hexText)⟩
        else none

def operandsAt (db : InsnDb) (caseInsensitive : Bool) (patternsNorm : List Chars) (addr : ℕ) :
    Option InsnMatch :=
  match db.generateDisasmLine addr with
  | none => none
  | some line =>
    let split := splitDisasmLine line
    if split.mnemonic = [] then none
    else if patternsNorm.any fun pat => pat <:+: lowered caseInsensitive split.operands then
      some ⟨hexText addr, String.ofList split.mnemonic, some (String.ofList split.operands),
        String.ofList split.line, none⟩
    else none

def nextItem (db : InsnDb) (addr : ℕ) : Option ℕ := (nextAddr db addr).filter fun next => addr < next

theorem lt_of_nextItem {db : InsnDb} {addr next : ℕ} (h : nextItem db addr = some next) : addr < next :=
  of_decide_eq_true (Option.filter_eq_some_iff.mp h).2

def searchItems (db : InsnDb) (found : ℕ → Option α) (segEnd maxResults addr : ℕ) (results : List α) :
    List α :=
  if addr < segEnd ∧ results.length < maxResults then
    match _ : nextItem db addr with
    | none => results ++ (found addr).toList
    | some next => searchItems db found segEnd maxResults next (results ++ (found addr).toList)
  else results
termination_by segEnd - addr
decreasing_by
  have hlt := lt_of_nextItem ‹_›
  omega

def searchAll (db : InsnDb) (found : ℕ → ℕ → Option α) (maxResults : ℕ) :
    List CodeSegment → List α → List α
  | [], results => results
  | seg :: segs, results =>
    let results := searchItems db (found seg.endAddress) seg.endAddress maxResults seg.startAddress results
    if maxResults ≤ results.length then results else searchAll db found maxResults segs results

structure FoundInsns where
  patterns : List String
  caseInsensitive : Bool
  results : List InsnMatch
  count : ℕ

def searchInsns (idb : Option InsnDb) (patterns : List String) (maxResults : ℕ) (caseInsensitive : Bool)
    (found : InsnDb → List Chars → ℕ → ℕ → Option InsnMatch) : Except ToolError FoundInsns := do
  let db ← idb.elim (.error .noDatabaseOpen) .ok
  if patterns = [] then throw (.invalidParams "empty patterns")
  let patternsNorm := patterns.map fun pat => lowered caseInsensitive pat.toList
  let results := searchAll db (found db patternsNorm) maxResults db.segments []
  pure ⟨patterns, caseInsensitive, results, results.length⟩

def handleFindInsns (idb : Option InsnDb) (patterns : List String) (maxResults : ℕ)
    (caseInsensitive : Bool) : Except ToolError FoundInsns :=
  searchInsns idb patterns maxResults caseInsensitive fun db patternsNorm segEnd addr =>
    insnAt db segEnd caseInsensitive patternsNorm addr

def handleFindInsnOperands (idb : Option InsnDb) (patterns : List String) (maxResults : ℕ)
    (caseInsensitive : Bool) : Except ToolError FoundInsns :=
  searchInsns idb patterns maxResults caseInsensitive fun db patternsNorm _ addr =>
    operandsAt db caseInsensitive patternsNorm addr

/-! What the loops visit and find. -/

def walk (db : InsnDb) (segEnd addr : ℕ) : List ℕ :=
  if addr < segEnd then
    addr :: match _ : nextItem db addr with
      | none => []
      | some next => walk db segEnd next
  else []
termination_by segEnd - addr
decreasing_by
  have hlt := lt_of_nextItem ‹_›
  omega

def InsnAt (db : InsnDb) (caseInsensitive : Bool) (pat : String) (addr : ℕ) : Prop :=
  ∃ line, db.generateDisasmLine addr = some line ∧ (splitDisasmLine line).mnemonic ≠ [] ∧
    (if ' ' ∈ pat.toList ∨ ',' ∈ pat.toList then
      lowered caseInsensitive pat.toList <:+: lowered caseInsensitive (splitDisasmLine line).line
    else lowered caseInsensitive pat.toList <:+: lowered caseInsensitive (splitDisasmLine line).mnemonic)

def Follows (db : InsnDb) (segEnd : ℕ) (caseInsensitive : Bool) (patterns : List String)
    (addrs : List ℕ) : Prop :=
  List.Forall₂ (InsnAt db caseInsensitive) patterns addrs ∧
    addrs.IsChain fun a b => nextAddr db a = some b ∧ b < segEnd

variable {db : InsnDb} {found : ℕ → Option α} {segEnd maxResults addr : ℕ} {results : List α}

theorem walk_stop (h : ¬addr < segEnd) : walk db segEnd addr = [] := by
  rw [walk, if_neg h]

theorem walk_last (h : addr < segEnd) (hnext : nextItem db addr = none) : walk db segEnd addr = [addr] := by
  rw [walk, if_pos h]
  split <;> simp_all

theorem walk_next {next : ℕ} (h : addr < segEnd) (hnext : nextItem db addr = some next) :
    walk db segEnd addr = addr :: walk db segEnd next := by
  rw [walk, if_pos h]
  split <;> simp_all

theorem searchItems_stop (h : ¬(addr < segEnd ∧ results.length < maxResults)) :
    searchItems db found segEnd maxResults addr results = results := by
  rw [searchItems, if_neg h]

theorem searchItems_last (h : addr < segEnd ∧ results.length < maxResults) (hnext : nextItem db addr = none) :
    searchItems db found segEnd maxResults addr results = results ++ (found addr).toList := by
  rw [searchItems, if_pos h]
  split <;> simp_all

theorem searchItems_next {next : ℕ} (h : addr < segEnd ∧ results.length < maxResults)
    (hnext : nextItem db addr = some next) : searchItems db found segEnd maxResults addr results =
      searchItems db found segEnd maxResults next (results ++ (found addr).toList) := by
  rw [searchItems, if_pos h]
  split <;> simp_all

theorem take_append_of_full {xs ys : List α} (hle : xs.length ≤ maxResults) (h : ¬xs.length < maxResults) :
    (xs ++ ys).take maxResults = xs := by
  have hlength : xs.length = maxResults := by omega
  rw [← hlength, List.take_left']
  rfl

theorem searchItems_eq (hle : results.length ≤ maxResults) :
    searchItems db found segEnd maxResults addr results =
      (results ++ (walk db segEnd addr).filterMap found).take maxResults := by
  induction hleft : segEnd - addr using Nat.strongRecOn generalizing addr results with
  | ind left ih =>
    by_cases hlt : addr < segEnd
    · by_cases hroom : results.length < maxResults
      · have hgrown : (results ++ (found addr).toList).length ≤ maxResults := by
          rw [List.length_append]
          have hone : (found addr).toList.length ≤ 1 := by cases found addr <;> simp
          omega
        have hcons (addrs : List ℕ) : (addr :: addrs).filterMap found =
            (found addr).toList ++ addrs.filterMap found := by
          cases hfound : found addr <;> simp [hfound]
        cases hnext : nextItem db addr with
        | none =>
          rw [searchItems_last ⟨hlt, hroom⟩ hnext, walk_last hlt hnext, hcons, List.filterMap_nil,
            List.append_nil, List.take_of_length_le hgrown]
        | some next =>
          have hrest := lt_of_nextItem hnext
          rw [searchItems_next ⟨hlt, hroom⟩ hnext, walk_next hlt hnext, hcons, ← List.append_assoc]
          exact ih (segEnd - next) (by omega) hgrown rfl
      · rw [searchItems_stop (fun h => hroom h.2), take_append_of_full hle hroom]
    · rw [searchItems_stop (fun h => hlt h.1), walk_stop hlt, List.filterMap_nil, List.append_nil,
        List.take_of_length_le hle]

theorem searchAll_eq {found : ℕ → ℕ → Option α} {segs : List CodeSegment} (hle : results.length ≤ maxResults) :
    searchAll db found maxResults segs results =
      (results ++ segs.flatMap fun seg =>
        (walk db seg.endAddress seg.startAddress).filterMap (found seg.endAddress)).take maxResults := by
  induction segs generalizing results with
  | nil => rw [searchAll, List.flatMap_nil, List.append_nil, List.take_of_length_le hle]
  | cons seg segs ih =>
    rw [searchAll, searchItems_eq hle, List.flatMap_cons, ← List.append_assoc]
    generalize results ++ (walk db seg.endAddress seg.startAddress).filterMap (found seg.endAddress) = sofar
    split_ifs with hfull
    · rw [List.length_take] at hfull
      rw [List.take_append_of_le_length (by omega)]
    · rw [List.length_take] at hfull
      have hshort : sofar.take maxResults = sofar := List.take_of_length_le (by omega)
      rw [ih (List.length_take_le _ _), hshort]

theorem toLower_eq_iff {c d : Char} (hd : d.toNat < 65) : c.toLower = d ↔ c = d := by
  unfold Char.toLower
  split_ifs with hupper
  · have hlow : 65 ≤ c.toNat := hupper.1
    have hhigh : c.toNat ≤ 90 := hupper.2
    have hsum : (c.val + ('a'.val - 'A'.val)).toNat = c.toNat + 32 := by
      rw [UInt32.toNat_add]
      change (c.toNat + 32) % 2 ^ 32 = c.toNat + 32
      omega
    constructor
    · rintro rfl
      change (c.val + ('a'.val - 'A'.val)).toNat < 65 at hd
      omega
    · rintro rfl
      omega
  · rfl

theorem mem_lowered {caseInsensitive : Bool} {text : Chars} {d : Char} (hd : d.toNat < 65) :
    d ∈ lowered caseInsensitive text ↔ d ∈ text := by
  unfold lowered
  split_ifs
  · simp [List.mem_map, toLower_eq_iff hd]
  · rfl

variable {caseInsensitive : Bool} {pat : String} {patterns : List String}

theorem insnAt_iff_matches {line : String} (hline : db.generateDisasmLine addr = some line) :
    InsnAt db caseInsensitive pat addr ↔ (splitDisasmLine line).mnemonic ≠ [] ∧
      matchesInsn caseInsensitive (lowered caseInsensitive pat.toList) (splitDisasmLine line) = true := by
  have hblank : ' ' ∈ lowered caseInsensitive pat.toList ↔ ' ' ∈ pat.toList := mem_lowered (by decide)
  have hcomma : ',' ∈ lowered caseInsensitive pat.toList ↔ ',' ∈ pat.toList := mem_lowered (by decide)
  unfold InsnAt matchesInsn
  simp only [hline, Option.some.injEq, exists_eq_left', hblank, hcomma]
  split_ifs <;> simp

theorem not_insnAt (hline : db.generateDisasmLine addr = none) : ¬InsnAt db caseInsensitive pat addr := by
  rintro ⟨line, hsome, -⟩
  rw [hline] at hsome
  cases hsome

theorem followSequence_eq_some {seqAddrs out : List ℕ} :
    followSequence db segEnd caseInsensitive (patterns.map fun pat => lowered caseInsensitive pat.toList)
        addr seqAddrs = some out ↔
      ∃ addrs, out = seqAddrs ++ addrs ∧ List.Forall₂ (InsnAt db caseInsensitive) patterns addrs ∧
        (addr :: addrs).IsChain fun a b => nextAddr db a = some b ∧ b < segEnd := by
  induction patterns generalizing addr seqAddrs with
  | nil =>
    simp only [List.map_nil, followSequence, Option.some.injEq, List.forall₂_nil_left_iff]
    constructor
    · rintro rfl
      exact ⟨[], (List.append_nil _).symm, rfl, List.isChain_singleton _⟩
    · rintro ⟨addrs, rfl, rfl, -⟩
      exact (List.append_nil _).symm
  | cons pat patterns ih =>
    rw [List.map_cons, followSequence]
    cases hnext : (nextAddr db addr).filter fun next => next < segEnd with
    | none =>
      constructor
      · rintro ⟨⟩
      · rintro ⟨addrs, -, hall, hchain⟩
        obtain ⟨b, rest, -, -, rfl⟩ := List.forall₂_cons_left_iff.mp hall
        obtain ⟨⟨hb, hlt⟩, -⟩ := List.isChain_cons_cons.mp hchain
        rw [hb, Option.filter_some, if_pos (decide_eq_true hlt)] at hnext
        cases hnext
    | some next =>
      obtain ⟨haddr, hlt⟩ := Option.filter_eq_some_iff.mp hnext
      have hstep (b : ℕ) : nextAddr db addr = some b ∧ b < segEnd ↔ b = next := by
        rw [haddr, Option.some_inj]
        exact ⟨fun h => h.1.symm, fun h => ⟨h.symm, h ▸ of_decide_eq_true hlt⟩⟩
      have hrest : (∃ addrs, out = seqAddrs ++ addrs ∧
            List.Forall₂ (InsnAt db caseInsensitive) (pat :: patterns) addrs ∧
            (addr :: addrs).IsChain fun a b => nextAddr db a = some b ∧ b < segEnd) ↔
          InsnAt db caseInsensitive pat next ∧ ∃ addrs, out = seqAddrs ++ [next] ++ addrs ∧
            List.Forall₂ (InsnAt db caseInsensitive) patterns addrs ∧
            (next :: addrs).IsChain fun a b => nextAddr db a = some b ∧ b < segEnd := by
        constructor
        · rintro ⟨addrs, rfl, hall, hchain⟩
          obtain ⟨b, rest, hpat, hrest, rfl⟩ := List.forall₂_cons_left_iff.mp hall
          obtain ⟨hb, hchain⟩ := List.isChain_cons_cons.mp hchain
          obtain rfl := (hstep b).mp hb
          exact ⟨hpat, rest, by rw [List.append_assoc, List.singleton_append], hrest, hchain⟩
        · rintro ⟨hpat, rest, rfl, hall, hchain⟩
          exact ⟨next :: rest, by rw [List.append_assoc, List.singleton_append], .cons hpat hall,
            List.isChain_cons_cons.mpr ⟨(hstep next).mpr rfl, hchain⟩⟩
      rw [hrest]
      dsimp only
      cases hline : db.generateDisasmLine next with
      | none =>
        constructor
        · rintro ⟨⟩
        · exact fun h => absurd h.1 (not_insnAt hline)
      | some line =>
        rw [insnAt_iff_matches hline]
        by_cases hne : (splitDisasmLine line).mnemonic = []
        · simp [hne]
        · cases hmatch : matchesInsn caseInsensitive (lowered caseInsensitive pat.toList) (splitDisasmLine line) with
          | false => simp [hne, hmatch]
          | true =>
            dsimp only
            rw [if_neg hne, if_pos hmatch, ih]
            exact ⟨fun h => ⟨⟨hne, rfl⟩, h⟩, And.right⟩

/-- What a match says of the instructions found; a single pattern needs no sequence. -/
def describe (line : String) (patterns : List String) (addrs : List ℕ) : InsnMatch where
  address := hexText (addrs.headD 0)
  mnemonic := String.ofList (splitDisasmLine line).mnemonic
  operands := none
  line := String.ofList (splitDisasmLine line).line
  sequence := if patterns.length = 1 then none else some (addrs.map hexText)

def FoundInsn (db : InsnDb) (caseInsensitive : Bool) (patterns : List String) (segEnd addr : ℕ)
    (m : InsnMatch) : Prop :=
  ∃ line, db.generateDisasmLine addr = some line ∧ ∃ addrs,
    Follows db segEnd caseInsensitive patterns (addr :: addrs) ∧ m = describe line patterns (addr :: addrs)

def FoundOperands (db : InsnDb) (caseInsensitive : Bool) (patterns : List String) (addr : ℕ)
    (m : InsnMatch) : Prop :=
  ∃ line, db.generateDisasmLine addr = some line ∧ (splitDisasmLine line).mnemonic ≠ [] ∧
    (∃ pat ∈ patterns, lowered caseInsensitive pat.toList <:+:
      lowered caseInsensitive (splitDisasmLine line).operands) ∧
    m = { describe line [""] [addr] with
      operands := some (String.ofList (splitDisasmLine line).operands) }

theorem insnAt_eq_some {m : InsnMatch} (hpatterns : patterns ≠ []) :
    insnAt db segEnd caseInsensitive (patterns.map fun pat => lowered caseInsensitive pat.toList) addr = some m ↔
      FoundInsn db caseInsensitive patterns segEnd addr m := by
  obtain ⟨pat, patterns, rfl⟩ := List.exists_cons_of_ne_nil hpatterns
  unfold insnAt FoundInsn Follows
  cases hline : db.generateDisasmLine addr with
  | none => simp
  | some line =>
    simp only [List.map_cons, Option.some.injEq, exists_eq_left', List.forall₂_cons, insnAt_iff_matches hline]
    by_cases hne : (splitDisasmLine line).mnemonic = []
    · simp [hne]
    · cases hmatch : matchesInsn caseInsensitive (lowered caseInsensitive pat.toList) (splitDisasmLine line) with
      | false => simp [hne]
      | true =>
        rw [if_neg hne, if_pos rfl]
        cases patterns with
        | nil =>
          simp only [List.map_nil, List.forall₂_nil_left_iff, Option.some.injEq]
          constructor
          · rintro rfl
            exact ⟨[], ⟨⟨⟨hne, trivial⟩, rfl⟩, List.isChain_singleton _⟩, rfl⟩
          · rintro ⟨addrs, ⟨⟨-, rfl⟩, -⟩, rfl⟩
            rfl
        | cons pat' patterns =>
          simp only [List.map_cons, Option.map_eq_some_iff]
          rw [← List.map_cons (f := fun pat : String => lowered caseInsensitive pat.toList)]
          constructor
          · rintro ⟨out, hout, rfl⟩
            obtain ⟨addrs, rfl, hall, hchain⟩ := followSequence_eq_some.mp hout
            exact ⟨addrs, ⟨⟨⟨hne, trivial⟩, hall⟩, hchain⟩, by simp [describe]⟩
          · rintro ⟨addrs, ⟨⟨-, hall⟩, hchain⟩, rfl⟩
            exact ⟨addr :: addrs, followSequence_eq_some.mpr ⟨addrs, rfl, hall, hchain⟩, by simp [describe]⟩

theorem operandsAt_eq_some {m : InsnMatch} :
    operandsAt db caseInsensitive (patterns.map fun pat => lowered caseInsensitive pat.toList) addr = some m ↔
      FoundOperands db caseInsensitive patterns addr m := by
  unfold operandsAt FoundOperands
  cases hline : db.generateDisasmLine addr with
  | none => simp
  | some line =>
    simp only [Option.some.injEq, exists_eq_left', List.any_map, List.any_eq_true, Function.comp_apply,
      decide_eq_true_eq]
    split_ifs with hne hpat
    · simp [hne]
    · simp [hne, hpat, describe, eq_comm]
    · simp [hpat]

theorem mem_walk {a : ℕ} : a ∈ walk db segEnd addr ↔ addr < segEnd ∧
    Relation.ReflTransGen (fun x y => nextItem db x = some y ∧ y < segEnd) addr a := by
  induction hleft : segEnd - addr using Nat.strongRecOn generalizing addr with
  | ind left ih =>
    by_cases hlt : addr < segEnd
    · rw [and_iff_right hlt, Relation.ReflTransGen.cases_head_iff]
      cases hnext : nextItem db addr with
      | none =>
        rw [walk_last hlt hnext, List.mem_singleton]
        simp [eq_comm]
      | some next =>
        have hrest := lt_of_nextItem hnext
        rw [walk_next hlt hnext, List.mem_cons, ih (segEnd - next) (by omega) rfl, eq_comm]
        simp [and_assoc]
    · simp [walk_stop hlt, hlt]

theorem walk_ascending : (walk db segEnd addr).Pairwise (· < ·) ∧ ∀ a ∈ walk db segEnd addr, addr ≤ a := by
  induction hleft : segEnd - addr using Nat.strongRecOn generalizing addr with
  | ind left ih =>
    by_cases hlt : addr < segEnd
    · cases hnext : nextItem db addr with
      | none => simp [walk_last hlt hnext]
      | some next =>
        have hrest := lt_of_nextItem hnext
        obtain ⟨hpair, hlow⟩ := ih (segEnd - next) (by omega) rfl
        rw [walk_next hlt hnext]
        refine ⟨List.pairwise_cons.mpr ⟨fun a ha => Nat.lt_of_lt_of_le hrest (hlow a ha), hpair⟩, ?_⟩
        intro a ha
        rcases List.mem_cons.mp ha with rfl | ha
        · exact Nat.le_refl a
        · exact Nat.le_trans (Nat.le_of_lt hrest) (hlow a ha)
    · simp [walk_stop hlt]

def Gathers (db : InsnDb) (Found : ℕ → ℕ → InsnMatch → Prop) (all : List InsnMatch) : Prop :=
  ∃ found : ℕ → ℕ → Option InsnMatch, (∀ segEnd addr m, found segEnd addr = some m ↔ Found segEnd addr m) ∧
    all = db.segments.flatMap fun seg =>
      (walk db seg.endAddress seg.startAddress).filterMap (found seg.endAddress)

theorem searchInsns_eq (hpatterns : patterns ≠ []) (maxResults : ℕ)
    (found : InsnDb → List Chars → ℕ → ℕ → Option InsnMatch) :
    searchInsns (some db) patterns maxResults caseInsensitive found =
      let all := db.segments.flatMap fun seg => (walk db seg.endAddress seg.startAddress).filterMap
        (found db (patterns.map fun pat => lowered caseInsensitive pat.toList) seg.endAddress)
      .ok ⟨patterns, caseInsensitive, all.take maxResults, (all.take maxResults).length⟩ := by
  have hall : searchAll db (found db (patterns.map fun pat : String => lowered caseInsensitive pat.toList)) maxResults
      db.segments [] = ([] ++ db.segments.flatMap fun seg : CodeSegment =>
        (walk db seg.endAddress seg.startAddress).filterMap (found db
          (patterns.map fun pat : String => lowered caseInsensitive pat.toList) seg.endAddress)).take maxResults :=
    searchAll_eq (Nat.zero_le _)
  rw [List.nil_append] at hall
  rw [searchInsns, Option.elim_some]
  simp [hpatterns, hall, bind, Except.bind, pure, Except.pure]

/-- Both searches return the first matches, in the order of the segments and of the items in them, and
no others. A walk goes over the items of its segment once, upwards. -/
theorem insn_search_exact (db : InsnDb) (patterns : List String) (hpatterns : patterns ≠ [])
    (maxResults : ℕ) (caseInsensitive : Bool) :
    (∃ all, Gathers db (FoundInsn db caseInsensitive patterns) all ∧
      handleFindInsns (some db) patterns maxResults caseInsensitive =
        .ok ⟨patterns, caseInsensitive, all.take maxResults, (all.take maxResults).length⟩) ∧
    (∃ all, Gathers db (fun _ => FoundOperands db caseInsensitive patterns) all ∧
      handleFindInsnOperands (some db) patterns maxResults caseInsensitive =
        .ok ⟨patterns, caseInsensitive, all.take maxResults, (all.take maxResults).length⟩) ∧
    ∀ segEnd addr, (walk db segEnd addr).Pairwise (· < ·) ∧ ∀ a, a ∈ walk db segEnd addr ↔
      addr < segEnd ∧ Relation.ReflTransGen (fun x y => nextItem db x = some y ∧ y < segEnd) addr a := by
  refine ⟨⟨_, ⟨_, fun segEnd addr m => insnAt_eq_some hpatterns, rfl⟩, ?_⟩,
    ⟨_, ⟨_, fun segEnd addr m => operandsAt_eq_some, rfl⟩, ?_⟩, fun segEnd addr => ⟨walk_ascending.1, ?_⟩⟩
  · exact searchInsns_eq hpatterns maxResults _
  · exact searchInsns_eq hpatterns maxResults _
  · exact fun a => mem_walk

def sampleDb : InsnDb where
  insnLen addr := if addr < 2 then some 1 else none
  nextHead _ := none
  nextHeadWith _ _ := none
  generateDisasmLine addr := if addr = 0 then some "mov eax, 1 ; set" else if addr = 1 then some "ret" else none
  segments := [⟨0, 4⟩]

theorem insn_search_exact_sample : ∃ all, Gathers sampleDb (FoundInsn sampleDb true ["MOV", "ret"]) all ∧
    handleFindInsns (some sampleDb) ["MOV", "ret"] 5 true =
      .ok ⟨["MOV", "ret"], true, all.take 5, (all.take 5).length⟩ :=
  (insn_search_exact sampleDb ["MOV", "ret"] (List.cons_ne_nil _ _) 5 true).1

end IdaMcp.Search
