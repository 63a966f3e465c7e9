import IdaMcp.Error
import IdaMcp.Target.MatchName

namespace IdaMcp.Target

open Foundation

structure Texts where
  toLowercase : String → String
  debug : String → String
  debugList : List String → String

structure LocalScan where
  found : Option ℕ
  similar : List String

def scanLocals (texts : Texts) (query : String) :
    List (Except ToolError (ℕ × String)) → LocalScan → Except ToolError LocalScan
  | [], scan => .ok scan
  | .error e :: _, _ => .error e
  | .ok (index, name) :: rest, scan =>
    if name = query then
      if scan.found.isSome then
        .error (.invalidParams ("more than one decompiler local is named exactly " ++
          texts.debug query ++ "; no change was made"))
      else scanLocals texts query rest { scan with found := some index }
    else if scan.similar.length < 8 ∧
        (texts.toLowercase query).toList <:+: (texts.toLowercase name).toList then
      scanLocals texts query rest { scan with similar := scan.similar ++ [name] }
    else scanLocals texts query rest scan

def exactLocalIndex (texts : Texts) (query : String)
    (names : List (Except ToolError (ℕ × String))) : Except ToolError ℕ := do
  let scan ← scanLocals texts query names ⟨none, []⟩
  match scan.found with
  | some index => pure index
  | none =>
    let hint := if scan.similar = [] then "use list_lvars to find its exact name"
      else "similar names: " ++ texts.debugList scan.similar
    throw (.invalidParams ("no decompiler local is named exactly " ++ texts.debug query ++ "; " ++
      hint ++ ". No change was made"))

def scanLocators (query : String) :
    List (Except ToolError (ℕ × Option String)) → Option ℕ → Except ToolError (Option ℕ)
  | [], found => .ok found
  | .error e :: _, _ => .error e
  | .ok (index, locator) :: rest, found =>
    if locator = some query then
      if found.isSome then
        .error (.invalidParams "lvar_locator matches multiple current locals; no change was made")
      else scanLocators query rest (some index)
    else scanLocators query rest found

def exactLocatorIndex (query : String) (locators : List (Except ToolError (ℕ × Option String))) :
    Except ToolError ℕ := do
  match ← scanLocators query locators none with
  | some index => pure index
  | none =>
    throw (.invalidParams ("lvar_locator is stale or does not belong to this function; " ++
      "use list_lvars again. No change was made"))

/-! The only entry. -/

def hits {β : Type} [DecidableEq β] (value : β) (entries : List (ℕ × β)) : List ℕ :=
  (entries.filter (·.2 = value)).map Prod.fst

def IsOnly {β : Type} (value : β) (entries : List (ℕ × β)) (index : ℕ) : Prop :=
  ∃ before after, entries = before ++ (index, value) :: after ∧
    ∀ entry ∈ before ++ after, entry.2 ≠ value

theorem hits_eq_singleton {β : Type} [DecidableEq β] {value : β} {entries : List (ℕ × β)}
    {index : ℕ} : hits value entries = [index] ↔ IsOnly value entries index := by
  constructor
  · intro h
    obtain ⟨entry, hentry, hindex⟩ := List.map_eq_singleton_iff.mp h
    obtain ⟨before, after, rfl, hbefore, htest, hafter⟩ := List.filter_eq_cons_iff.mp hentry
    rw [List.filter_eq_nil_iff] at hafter
    refine ⟨before, after, ?_, ?_⟩
    · rw [← hindex, ← of_decide_eq_true htest]
    · intro other hother hvalue
      rcases List.mem_append.mp hother with hother | hother
      · exact hbefore other hother (decide_eq_true hvalue)
      · exact hafter other hother (decide_eq_true hvalue)
  · rintro ⟨before, after, rfl, hothers⟩
    have hnone (l : List (ℕ × β)) (hl : ∀ entry ∈ l, entry.2 ≠ value) :
        l.filter (·.2 = value) = [] :=
      List.filter_eq_nil_iff.mpr fun entry hentry => by simpa using hl entry hentry
    have hbefore := hnone before fun e he => hothers e (List.mem_append_left _ he)
    have hafter := hnone after fun e he => hothers e (List.mem_append_right _ he)
    simp [hits, hbefore, hafter]

def pick : List ℕ → Option ℕ → Option (Option ℕ)
  | [], found => some found
  | index :: rest, found => if found.isSome then none else pick rest (some index)

theorem pick_eq_some {indexes : List ℕ} {index : ℕ} :
    pick indexes none = some (some index) ↔ indexes = [index] := by
  cases indexes with
  | nil => simp [pick]
  | cons first rest =>
    cases rest with
    | nil => simp [pick]
    | cons second rest => simp [pick]

theorem scanLocals_found (texts : Texts) (query : String) (entries : List (ℕ × String))
    (scan : LocalScan) :
    (scanLocals texts query (entries.map .ok) scan).toOption.map LocalScan.found =
      pick (hits query entries) scan.found := by
  induction entries generalizing scan with
  | nil => rfl
  | cons entry entries ih =>
    rw [List.map_cons, scanLocals]
    by_cases hname : entry.2 = query
    · have hhits : hits query (entry :: entries) = entry.1 :: hits query entries := by
        simp [hits, hname]
      rw [if_pos hname, hhits, pick]
      split_ifs
      · rfl
      · exact ih _
    · have hhits : hits query (entry :: entries) = hits query entries := by
        simp [hits, hname]
      rw [if_neg hname, hhits]
      split_ifs
      · exact ih _
      · exact ih _

theorem scanLocators_found (query : String) (entries : List (ℕ × Option String))
    (found : Option ℕ) : (scanLocators query (entries.map .ok) found).toOption =
      pick (hits (some query) entries) found := by
  induction entries generalizing found with
  | nil => rfl
  | cons entry entries ih =>
    rw [List.map_cons, scanLocators]
    by_cases hlocator : entry.2 = some query
    · have hhits : hits (some query) (entry :: entries) = entry.1 :: hits (some query) entries := by
        simp [hits, hlocator]
      rw [if_pos hlocator, hhits, pick]
      split_ifs
      · rfl
      · exact ih _
    · have hhits : hits (some query) (entry :: entries) = hits (some query) entries := by
        simp [hits, hlocator]
      rw [if_neg hlocator, hhits]
      exact ih _

theorem exactLocalIndex_eq_ok (texts : Texts) (query : String) (entries : List (ℕ × String))
    (index : ℕ) :
    exactLocalIndex texts query (entries.map .ok) = .ok index ↔ IsOnly query entries index := by
  have hscan := scanLocals_found texts query entries ⟨none, []⟩
  rw [← hits_eq_singleton, ← pick_eq_some, ← hscan, exactLocalIndex]
  cases scanLocals texts query (entries.map .ok) ⟨none, []⟩ with
  | error e =>
    constructor
    · exact fun h => nomatch h
    · exact fun h => nomatch h
  | ok scan =>
    cases hfound : scan.found with
    | none =>
      simp only [Except.toOption, Option.map_some, hfound, Option.some_inj, reduceCtorEq, iff_false]
      intro h
      simp only [hfound, bind, Except.bind] at h
      exact nomatch h
    | some found =>
      simp [Except.toOption, hfound, bind, Except.bind, pure, Except.pure]

theorem exactLocatorIndex_eq_ok (query : String) (entries : List (ℕ × Option String))
    (index : ℕ) :
    exactLocatorIndex query (entries.map .ok) = .ok index ↔ IsOnly (some query) entries index := by
  have hscan := scanLocators_found query entries none
  rw [← hits_eq_singleton, ← pick_eq_some, ← hscan, exactLocatorIndex]
  cases scanLocators query (entries.map .ok) none with
  | error e =>
    constructor
    · exact fun h => nomatch h
    · exact fun h => nomatch h
  | ok found =>
    cases found with
    | none =>
      constructor
      · exact fun h => nomatch h
      · exact fun h => nomatch h
    | some found => simp [Except.toOption, bind, Except.bind, pure, Except.pure]

/-- A mutation has one target or none, and the bounded sets that are kept during the scan do not
decide which. -/
theorem mutation_target_exact (query : String) (candidates : List (ℕ × String)) :
    (∀ address name, matchName query candidates = .unique address name ↔
      name = query ∧ ∀ other, (other, query) ∈ candidates ↔ other = address) ∧
    (∀ listed more, matchName query candidates = .ambiguous listed more ↔
      1 < (exactAddresses query candidates).card ∧
        listed = (((exactAddresses query candidates).sort (· ≤ ·)).take 8).map (·, query) ∧
        more = decide (8 < (exactAddresses query candidates).card)) ∧
    (∀ names, matchName query candidates = .missing names ↔
      (∀ address, (address, query) ∉ candidates) ∧
        names = (((similarNames query candidates).sort (· ≤ ·)).take 8).map
          fun item => ofLex (ofLex item).2) ∧
    (∀ candidates', (∀ candidate, candidate ∈ candidates ↔ candidate ∈ candidates') →
      matchName query candidates = matchName query candidates') ∧
    (∀ texts entries index, exactLocalIndex texts query (entries.map .ok) = .ok index ↔
      IsOnly query entries index) ∧
    ∀ entries index, exactLocatorIndex query (entries.map .ok) = .ok index ↔
      IsOnly (some query) entries index := by
  refine ⟨?_, matchName_eq_ambiguous query candidates, ?_,
    fun candidates' => matchName_congr query,
    fun texts => exactLocalIndex_eq_ok texts query, exactLocatorIndex_eq_ok query⟩
  · intro address name
    rw [matchName_eq_unique, exactAddresses_eq_singleton]
  · intro names
    rw [matchName_eq_missing, exactAddresses_eq_empty]

end IdaMcp.Target
