import Mathlib.Data.List.Infix
import Mathlib.Data.Prod.Lex
import Mathlib.Data.String.Basic
import IdaMcp.Foundation.SortedSet
import IdaMcp.Foundation.Text

namespace IdaMcp.Target

open Foundation Text

def maxSuggestions : ℕ := 8

def maxAmbiguousListed : ℕ := 8

inductive NameMatch
  | unique (address : ℕ) (name : String)
  | ambiguous (listed : List (ℕ × String)) (more : Bool)
  | missing (names : List (ℕ × String))
deriving DecidableEq

def trimUnderscores (s : String) : Chars := s.toList.dropWhile (· = '_')

def asciiLower (s : String) : Chars := s.toList.map Char.toLower

/-- The bytes of two texts contain each other where their characters do. -/
def suggestionRank (query name : String) : Option ℕ :=
  if trimUnderscores name = trimUnderscores query then some 0
  else if eqIgnoreAsciiCase name.toList query.toList then some 1
  else if query.toList <:+: name.toList then some 2
  else if asciiLower query <:+: asciiLower name then some 3
  else none

/-- Whether an item had to be dropped is returned with the set. -/
def keepSmallest {α : Type*} [LinearOrder α] (set : SortedSet α) (item : α) (limit : ℕ) :
    SortedSet α × Bool :=
  let set := set.insert item
  if limit < set.length then (set.popLast.2, set.popLast.1.isSome) else (set, false)

structure Scan where
  exact : SortedSet (ℕ ×ₗ String)
  moreExact : Bool
  similar : SortedSet (ℕ ×ₗ ℕ ×ₗ String)

def Scan.start : Scan := ⟨SortedSet.empty, false, SortedSet.empty⟩

def scanCandidate (query : String) (scan : Scan) (candidate : ℕ × String) : Scan :=
  if candidate.2 = query then
    let kept := keepSmallest scan.exact (toLex candidate) maxAmbiguousListed
    { scan with exact := kept.1, moreExact := scan.moreExact || kept.2 }
  else
    match suggestionRank query candidate.2 with
    | some rank =>
      { scan with
        similar := (keepSmallest scan.similar (toLex (rank, toLex candidate)) maxSuggestions).1 }
    | none => scan

def matchName (query : String) (candidates : List (ℕ × String)) : NameMatch :=
  let scan := candidates.foldl (scanCandidate query) Scan.start
  if 1 < scan.exact.length then .ambiguous (scan.exact.elems.map ofLex) scan.moreExact
  else
    match scan.exact.popFirst with
    | some found => .unique (ofLex found).1 (ofLex found).2
    | none => .missing (scan.similar.elems.map fun item => ofLex (ofLex item).2)

example : matchName "main" [(0x300, "MAIN"), (0x80, "domain_check"), (0x100, "_main"), (0x400, "x")] =
    .missing [(0x100, "_main"), (0x300, "MAIN"), (0x80, "domain_check")] := by decide

/-! What is to be found, as sets. -/

def exactAddresses (query : String) (candidates : List (ℕ × String)) : Finset ℕ :=
  ((candidates.filter (·.2 = query)).map Prod.fst).toFinset

def ranked (query : String) (candidate : ℕ × String) : Option (ℕ ×ₗ ℕ ×ₗ String) :=
  if candidate.2 = query then none
  else (suggestionRank query candidate.2).map fun rank => toLex (rank, toLex candidate)

def similarNames (query : String) (candidates : List (ℕ × String)) : Finset (ℕ ×ₗ ℕ ×ₗ String) :=
  (candidates.filterMap (ranked query)).toFinset

theorem mem_exactAddresses {query : String} {candidates : List (ℕ × String)} {address : ℕ} :
    address ∈ exactAddresses query candidates ↔ (address, query) ∈ candidates := by
  simp [exactAddresses]

theorem keepSmallest_smallest {α : Type*} [LinearOrder α] (s : SortedSet α) (x : α) (limit : ℕ) :
    keepSmallest (s.smallest limit) x limit =
      ((s.insert x).smallest limit, decide (limit < ((s.smallest limit).insert x).length)) := by
  have htake : ((s.smallest limit).insert x).smallest limit = (s.insert x).smallest limit :=
    SortedSet.ext_elems (SortedSet.insertSorted_take x s.elems limit)
  have hlength : ((s.smallest limit).insert x).length ≤ limit + 1 := by
    have hle := (SortedSet.length_insertSorted_le x (s.elems.take limit)).1
    exact hle.trans (Nat.succ_le_succ (List.length_take_le limit s.elems))
  rw [keepSmallest, ← htake]
  generalize (s.smallest limit).insert x = t at *
  by_cases hfull : limit < t.length
  · have hdrop : t.popLast.2 = t.smallest limit := by
      apply SortedSet.ext_elems
      change t.elems.dropLast = t.elems.take limit
      rw [List.dropLast_eq_take]
      congr 1
      exact Nat.sub_eq_of_eq_add (Nat.le_antisymm hlength hfull)
    have hsome : t.popLast.1.isSome = true := by
      rw [SortedSet.popLast, List.getLast?_isSome]
      exact List.ne_nil_of_length_pos (Nat.lt_of_le_of_lt (Nat.zero_le limit) hfull)
    rw [if_pos hfull, hdrop, hsome, decide_eq_true hfull]
  · have hall : t.smallest limit = t :=
      SortedSet.ext_elems (List.take_of_length_le (Nat.le_of_not_lt hfull))
    rw [if_neg hfull, hall, decide_eq_false hfull]

/-! The scan. -/

def exacts (query : String) (candidates : List (ℕ × String)) : List (ℕ ×ₗ String) :=
  (candidates.filter (·.2 = query)).map toLex

theorem scan_eq (query : String) (candidates : List (ℕ × String)) :
    candidates.foldl (scanCandidate query) Scan.start =
      ⟨(SortedSet.ofList (exacts query candidates)).smallest maxAmbiguousListed,
        decide (maxAmbiguousListed < (SortedSet.ofList (exacts query candidates)).length),
        (SortedSet.ofList (candidates.filterMap (ranked query))).smallest maxSuggestions⟩ := by
  induction candidates using List.reverseRecOn with
  | nil => rfl
  | append_singleton candidates candidate ih =>
    rw [List.foldl_append, ih, List.foldl_cons, List.foldl_nil, List.filterMap_append]
    by_cases hexact : candidate.2 = query
    · have hmore := SortedSet.lt_length_insert (SortedSet.ofList (exacts query candidates))
        (toLex candidate) maxAmbiguousListed
      have hexacts : exacts query (candidates ++ [candidate]) =
          exacts query candidates ++ [toLex candidate] := by
        simp [exacts, hexact]
      have hranked : [candidate].filterMap (ranked query) = [] := by
        simp [ranked, hexact]
      rw [hexacts, SortedSet.ofList_append_singleton, hranked, List.append_nil]
      simp only [scanCandidate, hexact, if_true, keepSmallest_smallest, hmore, Bool.decide_or]
    · have hexacts : exacts query (candidates ++ [candidate]) = exacts query candidates := by
        simp [exacts, hexact]
      rw [hexacts]
      simp only [scanCandidate, hexact, if_false]
      cases hrank : suggestionRank query candidate.2 with
      | none =>
        have hranked : [candidate].filterMap (ranked query) = [] := by
          simp [ranked, hexact, hrank]
        rw [hranked, List.append_nil]
      | some rank =>
        have hranked : [candidate].filterMap (ranked query) = [toLex (rank, toLex candidate)] := by
          simp [ranked, hexact, hrank]
        rw [hranked, SortedSet.ofList_append_singleton]
        simp only [keepSmallest_smallest]

theorem elems_exacts (query : String) (candidates : List (ℕ × String)) :
    (SortedSet.ofList (exacts query candidates)).elems =
      ((exactAddresses query candidates).sort (· ≤ ·)).map fun address => toLex (address, query) := by
  rw [exactAddresses, ← SortedSet.elems_ofList]
  generalize haddresses : SortedSet.ofList ((candidates.filter (·.2 = query)).map Prod.fst) = t
  have hsorted : (t.elems.map fun address => toLex (address, query)).Pairwise (· < ·) := by
    rw [List.pairwise_map]
    exact t.sorted.imp fun h => Prod.Lex.toLex_lt_toLex.mpr (.inl h)
  refine congrArg SortedSet.elems (SortedSet.ext_of_mem (t := ⟨_, hsorted⟩) ?_)
  intro item
  rw [SortedSet.mem_ofList]
  constructor
  · intro hitem
    obtain ⟨candidate, hcandidate, rfl⟩ := List.mem_map.mp hitem
    obtain ⟨hmem, hname⟩ := List.mem_filter.mp hcandidate
    refine List.mem_map.mpr ⟨candidate.1, ?_, by rw [← of_decide_eq_true hname]⟩
    rw [← haddresses]
    exact SortedSet.mem_ofList.mpr (List.mem_map_of_mem hcandidate)
  · intro hitem
    obtain ⟨address, haddress, rfl⟩ := List.mem_map.mp hitem
    rw [← haddresses] at haddress
    obtain ⟨candidate, hcandidate, rfl⟩ := List.mem_map.mp (SortedSet.mem_ofList.mp haddress)
    have hname := of_decide_eq_true (List.mem_filter.mp hcandidate).2
    exact List.mem_map.mpr ⟨candidate, hcandidate, by rw [← hname]⟩

theorem matchName_eq (query : String) (candidates : List (ℕ × String)) :
    matchName query candidates =
      if 1 < (exactAddresses query candidates).card then
        .ambiguous ((((exactAddresses query candidates).sort (· ≤ ·)).take 8).map (·, query))
          (8 < (exactAddresses query candidates).card)
      else
        match ((exactAddresses query candidates).sort (· ≤ ·)).head? with
        | some address => .unique address query
        | none => .missing ((((similarNames query candidates).sort (· ≤ ·)).take 8).map
            fun item => ofLex (ofLex item).2) := by
  have hcard : (SortedSet.ofList (exacts query candidates)).length =
      (exactAddresses query candidates).card := by
    rw [SortedSet.length, elems_exacts, List.length_map, Finset.length_sort]
  have hkept : ((SortedSet.ofList (exacts query candidates)).smallest maxAmbiguousListed).elems =
      (((exactAddresses query candidates).sort (· ≤ ·)).take 8).map
        fun address => toLex (address, query) := by
    rw [SortedSet.elems_smallest, elems_exacts, ← List.map_take]
    rfl
  have hlength : ((SortedSet.ofList (exacts query candidates)).smallest maxAmbiguousListed).length =
      min 8 (exactAddresses query candidates).card := by
    rw [SortedSet.length, hkept, List.length_map, List.length_take, Finset.length_sort]
  have hsimilar : ((SortedSet.ofList (candidates.filterMap (ranked query))).smallest
      maxSuggestions).elems = ((similarNames query candidates).sort (· ≤ ·)).take 8 := by
    rw [SortedSet.elems_smallest, SortedSet.elems_ofList]
    rfl
  simp only [matchName, scan_eq, hlength, hcard, hkept, hsimilar, SortedSet.popFirst]
  by_cases hmany : 1 < (exactAddresses query candidates).card
  · rw [if_pos hmany, if_pos (by omega), List.map_map]
    rfl
  · rw [if_neg hmany, if_neg (by omega)]
    cases (exactAddresses query candidates).sort (· ≤ ·) with
    | nil => rfl
    | cons address rest => rfl

theorem matchName_many {query : String} {candidates : List (ℕ × String)}
    (h : 1 < (exactAddresses query candidates).card) : matchName query candidates =
      .ambiguous ((((exactAddresses query candidates).sort (· ≤ ·)).take 8).map (·, query))
        (8 < (exactAddresses query candidates).card) := by
  rw [matchName_eq, if_pos h]

theorem matchName_one {query : String} {candidates : List (ℕ × String)} {address : ℕ}
    (h : exactAddresses query candidates = {address}) :
    matchName query candidates = .unique address query := by
  rw [matchName_eq, h, Finset.card_singleton, if_neg (lt_irrefl 1), Finset.sort_singleton]
  rfl

theorem matchName_none {query : String} {candidates : List (ℕ × String)}
    (h : exactAddresses query candidates = ∅) : matchName query candidates =
      .missing ((((similarNames query candidates).sort (· ≤ ·)).take 8).map
        fun item => ofLex (ofLex item).2) := by
  rw [matchName_eq, h, Finset.card_empty, if_neg (Nat.not_lt_zero 1), Finset.sort_empty]
  rfl

theorem card_cases (addresses : Finset ℕ) :
    1 < addresses.card ∨ (∃ address, addresses = {address}) ∨ addresses = ∅ := by
  rcases Nat.lt_trichotomy addresses.card 1 with h | h | h
  · exact .inr (.inr (Finset.card_eq_zero.mp (Nat.lt_one_iff.mp h)))
  · exact .inr (.inl (Finset.card_eq_one.mp h))
  · exact .inl h

theorem exactAddresses_eq_singleton {query : String} {candidates : List (ℕ × String)}
    {address : ℕ} : exactAddresses query candidates = {address} ↔
      ∀ other, (other, query) ∈ candidates ↔ other = address := by
  simp only [Finset.ext_iff, mem_exactAddresses, Finset.mem_singleton]

theorem exactAddresses_eq_empty {query : String} {candidates : List (ℕ × String)} :
    exactAddresses query candidates = ∅ ↔ ∀ address, (address, query) ∉ candidates := by
  simp only [Finset.eq_empty_iff_forall_notMem, mem_exactAddresses]

theorem matchName_eq_unique (query : String) (candidates : List (ℕ × String)) (address : ℕ)
    (name : String) : matchName query candidates = .unique address name ↔
      name = query ∧ exactAddresses query candidates = {address} := by
  rcases card_cases (exactAddresses query candidates) with hmany | ⟨found, hone⟩ | hnone
  · rw [matchName_many hmany]
    constructor
    · exact fun h => nomatch h
    · rintro ⟨-, hone⟩
      rw [hone, Finset.card_singleton] at hmany
      exact absurd hmany (lt_irrefl 1)
  · rw [matchName_one hone, hone, NameMatch.unique.injEq, Finset.singleton_inj]
    tauto
  · rw [matchName_none hnone, hnone]
    constructor
    · exact fun h => nomatch h
    · exact fun h => absurd h.2.symm (Finset.singleton_ne_empty address)

theorem matchName_eq_ambiguous (query : String) (candidates : List (ℕ × String))
    (listed : List (ℕ × String)) (more : Bool) :
    matchName query candidates = .ambiguous listed more ↔
      1 < (exactAddresses query candidates).card ∧
        listed = (((exactAddresses query candidates).sort (· ≤ ·)).take 8).map (·, query) ∧
        more = decide (8 < (exactAddresses query candidates).card) := by
  rcases card_cases (exactAddresses query candidates) with hmany | ⟨found, hone⟩ | hnone
  · rw [matchName_many hmany, NameMatch.ambiguous.injEq]
    tauto
  · rw [matchName_one hone, hone, Finset.card_singleton]
    constructor
    · exact fun h => nomatch h
    · exact fun h => absurd h.1 (lt_irrefl 1)
  · rw [matchName_none hnone, hnone, Finset.card_empty]
    constructor
    · exact fun h => nomatch h
    · exact fun h => absurd h.1 (Nat.not_lt_zero 1)

theorem matchName_eq_missing (query : String) (candidates names : List (ℕ × String)) :
    matchName query candidates = .missing names ↔ exactAddresses query candidates = ∅ ∧
      names = (((similarNames query candidates).sort (· ≤ ·)).take 8).map
        fun item => ofLex (ofLex item).2 := by
  rcases card_cases (exactAddresses query candidates) with hmany | ⟨found, hone⟩ | hnone
  · rw [matchName_many hmany]
    constructor
    · exact fun h => nomatch h
    · rintro ⟨hnone, -⟩
      rw [hnone, Finset.card_empty] at hmany
      exact absurd hmany (Nat.not_lt_zero 1)
  · rw [matchName_one hone, hone]
    constructor
    · exact fun h => nomatch h
    · exact fun h => absurd h.1 (Finset.singleton_ne_empty found)
  · rw [matchName_none hnone, NameMatch.missing.injEq]
    tauto

theorem matchName_congr (query : String) {candidates candidates' : List (ℕ × String)}
    (h : ∀ candidate, candidate ∈ candidates ↔ candidate ∈ candidates') :
    matchName query candidates = matchName query candidates' := by
  have hexact : exactAddresses query candidates = exactAddresses query candidates' := by
    ext address
    rw [mem_exactAddresses, mem_exactAddresses, h]
  have hsimilar : similarNames query candidates = similarNames query candidates' := by
    ext item
    simp only [similarNames, List.mem_toFinset, List.mem_filterMap, h]
  rw [matchName_eq, matchName_eq, hexact, hsimilar]

end IdaMcp.Target
