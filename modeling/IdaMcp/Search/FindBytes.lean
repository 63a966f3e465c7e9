import IdaMcp.Search.Pattern

namespace IdaMcp.Search

open Foundation Text

structure Segment where
  startAddress : ℕ
  len : ℕ
  fits : startAddress + len < 2 ^ 64

structure IDB where
  segments : List Segment
  getBytes : ℕ → ℕ → List UInt8

def chunkSize : ℕ := 1024 * 1024

theorem chunkSize_pos : 0 < chunkSize := by decide

def matchesAt (pat : List (Option UInt8)) (bytes : List UInt8) (i : ℕ) : Bool :=
  pat.zipIdx.all fun (pb, j) => pb.all fun b => bytes[i + j]? == some b

def scan (pat : List (Option UInt8)) (bytes : List UInt8) (base maxResults : ℕ) :
    List ℕ → List String → List String
  | [], found => found
  | i :: is, found =>
    if maxResults ≤ found.length then found
    else
      scan pat bytes base maxResults is
        (if matchesAt pat bytes i then found ++ [hexText (base + i)] else found)

def searchSegment (db : IDB) (pat : List (Option UInt8)) (maxResults : ℕ) (seg : Segment)
    (offset : ℕ) (found : List String) : List String :=
  if offset < seg.len ∧ found.length < maxResults then
    let remaining := seg.len - offset
    let readLen := min remaining (chunkSize + (pat.length - 1))
    let bytes := db.getBytes (seg.startAddress + offset) readLen
    if bytes.length < pat.length then found
    else
      let found := scan pat bytes (seg.startAddress + offset) maxResults
        (List.range (bytes.length - pat.length + 1)) found
      if remaining ≤ chunkSize then found
      else searchSegment db pat maxResults seg (offset + chunkSize) found
  else found
termination_by seg.len - offset
decreasing_by
  have := chunkSize_pos
  omega

def searchSegments (db : IDB) (pat : List (Option UInt8)) (maxResults : ℕ) :
    List Segment → List String → List String
  | [], found => found
  | seg :: segs, found =>
    let found := searchSegment db pat maxResults seg 0 found
    if maxResults ≤ found.length then found else searchSegments db pat maxResults segs found

structure FindBytes where
  pattern : String
  results : List String
  count : ℕ
deriving DecidableEq

def handleFindBytes (idb : Option IDB) (pattern : String) (maxResults : ℕ) :
    Except ToolError FindBytes := do
  let db ← idb.elim (.error .noDatabaseOpen) .ok
  let pat ← parsePattern pattern
  if pat = [] then throw (.idaError "empty pattern")
  let results := searchSegments db pat maxResults db.segments []
  pure ⟨pattern, results, results.length⟩

/-! The plain scan. -/

def MatchesAt (memory : ℕ → UInt8) (pat : List (Option UInt8)) (address : ℕ) : Prop :=
  ∀ j b, pat[j]? = some (some b) → memory (address + j) = b

instance (memory : ℕ → UInt8) (pat : List (Option UInt8)) (address : ℕ) :
    Decidable (MatchesAt memory pat address) :=
  decidable_of_iff ((pat.zipIdx.all fun p => p.1.all fun b => memory (address + p.2) == b) = true) (by
    simp only [MatchesAt, List.all_eq_true, Prod.forall, List.mk_mem_zipIdx_iff_getElem?,
      Option.all_eq_true, beq_iff_eq]
    exact ⟨fun h j b hj => h (some b) j hj b rfl,
      fun h pb j hj b hb => h j b (hb ▸ hj)⟩)

def hits (memory : ℕ → UInt8) (pat : List (Option UInt8)) (start i n : ℕ) : List ℕ :=
  ((List.range' i n).filter fun i => MatchesAt memory pat (start + i)).map (start + ·)

def plainScan (memory : ℕ → UInt8) (pat : List (Option UInt8)) (seg : Segment) : List ℕ :=
  hits memory pat seg.startAddress 0 (seg.len + 1 - pat.length)

theorem hits_append (memory : ℕ → UInt8) (pat : List (Option UInt8)) (start i m n : ℕ) :
    hits memory pat start i (m + n) = hits memory pat start i m ++ hits memory pat start (i + m) n := by
  rw [hits, ← List.range'_append_1, List.filter_append, List.map_append]
  rfl

theorem hits_zero (memory : ℕ → UInt8) (pat : List (Option UInt8)) (start i : ℕ) :
    hits memory pat start i 0 = [] := rfl

theorem hits_ascending (memory : ℕ → UInt8) (pat : List (Option UInt8)) (start i n : ℕ) :
    (hits memory pat start i n).Pairwise (· < ·) := by
  have hrange : (List.range' i n).Pairwise (· < ·) := List.pairwise_lt_range'
  rw [hits, List.pairwise_map]
  exact (hrange.filter _).imp fun h => Nat.add_lt_add_left h start

theorem mem_plainScan (memory : ℕ → UInt8) (pat : List (Option UInt8)) (hpat : pat ≠ [])
    (seg : Segment) (address : ℕ) : address ∈ plainScan memory pat seg ↔
      ∃ i, i + pat.length ≤ seg.len ∧ address = seg.startAddress + i ∧
        MatchesAt memory pat address := by
  have hpos := List.length_pos_of_ne_nil hpat
  simp only [plainScan, hits, List.mem_map, List.mem_filter, List.mem_range'_1, decide_eq_true_eq]
  constructor
  · rintro ⟨i, ⟨hi, hmatch⟩, rfl⟩
    exact ⟨i, by omega, rfl, hmatch⟩
  · rintro ⟨i, hi, rfl, hmatch⟩
    exact ⟨i, ⟨by omega, hmatch⟩, rfl⟩

theorem matchesAt_iff (memory : ℕ → UInt8) (pat : List (Option UInt8)) (base n i : ℕ)
    (hi : i + pat.length ≤ n) :
    matchesAt pat ((List.range n).map fun j => memory (base + j)) i = true ↔
      MatchesAt memory pat (base + i) := by
  have hbyte (j : ℕ) (pb : Option UInt8) (hj : pat[j]? = some pb) :
      ((List.range n).map fun j => memory (base + j))[i + j]? = some (memory (base + i + j)) := by
    have hlt : j < pat.length := (List.getElem?_eq_some_iff.mp hj).1
    rw [List.getElem?_map, List.getElem?_range (by omega), Option.map_some, Nat.add_assoc]
  simp only [matchesAt, List.all_eq_true, Prod.forall, List.mk_mem_zipIdx_iff_getElem?,
    Option.all_eq_true, beq_iff_eq, MatchesAt]
  constructor
  · intro h j b hj
    exact Option.some_inj.mp ((hbyte j _ hj).symm.trans (h _ j hj b rfl))
  · rintro h pb j hj b rfl
    rw [hbyte j _ hj, h j b hj]

theorem scan_eq (pat : List (Option UInt8)) (bytes : List UInt8) (base maxResults : ℕ)
    (is : List ℕ) (prev : List String) :
    scan pat bytes base maxResults is (prev.take maxResults) =
      (prev ++ (is.filter (matchesAt pat bytes)).map fun i => hexText (base + i)).take
        maxResults := by
  induction is generalizing prev with
  | nil => simp [scan]
  | cons i is ih =>
    rw [scan, List.length_take]
    by_cases hfull : maxResults ≤ prev.length
    · rw [if_pos (by omega), List.take_append_of_le_length hfull]
    · have hroom : prev.take maxResults = prev := List.take_of_length_le (by omega)
      rw [if_neg (by omega), hroom]
      by_cases hmatch : matchesAt pat bytes i = true
      · have hnext : (prev ++ [hexText (base + i)]).take maxResults =
            prev ++ [hexText (base + i)] :=
          List.take_of_length_le (by simp only [List.length_append, List.length_singleton]; omega)
        have hrest := ih (prev ++ [hexText (base + i)])
        rw [hnext, List.append_assoc] at hrest
        rw [if_pos hmatch, hrest, List.filter_cons_of_pos hmatch]
        rfl
      · have hrest := ih prev
        rw [hroom] at hrest
        rw [if_neg hmatch, hrest, List.filter_cons_of_neg hmatch]

theorem scan_chunk_eq (memory : ℕ → UInt8) (pat : List (Option UInt8)) (start offset n : ℕ)
    (hn : pat.length ≤ n) (maxResults : ℕ) (prev : List String) :
    scan pat ((List.range n).map fun j => memory (start + offset + j)) (start + offset) maxResults
        (List.range (n - pat.length + 1)) (prev.take maxResults) =
      (prev ++ (hits memory pat start offset (n - pat.length + 1)).map hexText).take
        maxResults := by
  have hsame : ∀ i ∈ List.range (n - pat.length + 1),
      matchesAt pat ((List.range n).map fun j => memory (start + offset + j)) i =
        decide (MatchesAt memory pat (start + (offset + i))) := by
    intro i hi
    have hi := List.mem_range.mp hi
    have hmatch := matchesAt_iff memory pat (start + offset) n i (by omega)
    rw [← Nat.add_assoc, Bool.eq_iff_iff, hmatch, decide_eq_true_iff]
  rw [scan_eq, hits, List.range'_eq_map_range, List.filter_map, List.map_map, List.map_map,
    List.filter_congr hsame]
  simp only [Function.comp_def, Nat.add_assoc]

def Reads (db : IDB) (memory : ℕ → UInt8) (seg : Segment) : Prop :=
  ∀ address n, seg.startAddress ≤ address → address + n ≤ seg.startAddress + seg.len →
    db.getBytes address n = (List.range n).map fun i => memory (address + i)

theorem searchSegment_eq (db : IDB) (memory : ℕ → UInt8) (pat : List (Option UInt8))
    (hpat : pat ≠ []) (maxResults : ℕ) (seg : Segment) (hreads : Reads db memory seg) (offset : ℕ)
    (prev : List String) :
    searchSegment db pat maxResults seg offset (prev.take maxResults) =
      (prev ++ (hits memory pat seg.startAddress offset
        (seg.len + 1 - pat.length - offset)).map hexText).take maxResults := by
  have hpos := List.length_pos_of_ne_nil hpat
  have hchunk := chunkSize_pos
  induction hleft : seg.len - offset using Nat.strong_induction_on generalizing offset prev with
  | _ left ih =>
    have hnone (n : ℕ) (hn : n = 0) : (prev ++ (hits memory pat seg.startAddress offset n).map
        hexText).take maxResults = prev.take maxResults := by
      rw [hn, hits_zero, List.map_nil, List.append_nil]
    rw [searchSegment]
    by_cases hgo : offset < seg.len ∧ (prev.take maxResults).length < maxResults
    · have hbytes := hreads (seg.startAddress + offset)
        (min (seg.len - offset) (chunkSize + (pat.length - 1))) (by omega) (by omega)
      rw [if_pos hgo]
      simp only [hbytes, List.length_map, List.length_range]
      by_cases hshort : min (seg.len - offset) (chunkSize + (pat.length - 1)) < pat.length
      · rw [if_pos hshort, hnone _ (by omega)]
      · rw [if_neg hshort, scan_chunk_eq _ _ _ _ _ (by omega)]
        by_cases hlast : seg.len - offset ≤ chunkSize
        · have hcount : min (seg.len - offset) (chunkSize + (pat.length - 1)) - pat.length + 1 =
              seg.len + 1 - pat.length - offset := by omega
          rw [if_pos hlast, hcount]
        · rw [if_neg hlast, ih (seg.len - (offset + chunkSize)) (by omega) _ _ rfl,
            List.append_assoc, ← List.map_append]
          congr 3
          by_cases hfull : chunkSize + (pat.length - 1) ≤ seg.len - offset
          · have hcount : min (seg.len - offset) (chunkSize + (pat.length - 1)) - pat.length + 1 =
                chunkSize := by omega
            have hall : seg.len + 1 - pat.length - offset =
                chunkSize + (seg.len + 1 - pat.length - (offset + chunkSize)) := by omega
            rw [hcount, hall, hits_append]
          · -- The overlap has reached the end, so the next chunk is too short for a match.
            have hcount : min (seg.len - offset) (chunkSize + (pat.length - 1)) - pat.length + 1 =
                seg.len + 1 - pat.length - offset := by omega
            have hrest : seg.len + 1 - pat.length - (offset + chunkSize) = 0 := by omega
            rw [hcount, hrest, hits_zero, List.append_nil]
    · rw [if_neg hgo]
      by_cases hend : offset < seg.len
      · -- The limit is reached.
        have hfull : maxResults ≤ prev.length := by
          rw [List.length_take] at hgo
          omega
        rw [List.take_append_of_le_length hfull]
      · rw [hnone _ (by omega)]

theorem searchSegments_eq (db : IDB) (memory : ℕ → UInt8) (pat : List (Option UInt8))
    (hpat : pat ≠ []) (maxResults : ℕ) (segs : List Segment)
    (hsegs : ∀ seg ∈ segs, Reads db memory seg) (prev : List String) :
    searchSegments db pat maxResults segs (prev.take maxResults) =
      (prev ++ (segs.flatMap (plainScan memory pat)).map hexText).take maxResults := by
  induction segs generalizing prev with
  | nil => simp [searchSegments]
  | cons seg segs ih =>
    have hseg := searchSegment_eq db memory pat hpat maxResults seg (hsegs seg List.mem_cons_self) 0
      prev
    rw [Nat.sub_zero] at hseg
    simp only [searchSegments, hseg]
    rw [List.flatMap_cons, List.map_append, ← List.append_assoc]
    change (if maxResults ≤ ((prev ++ (plainScan memory pat seg).map hexText).take
      maxResults).length then _ else _) = _
    split_ifs with hfull
    · have hlength : maxResults ≤ (prev ++ (plainScan memory pat seg).map hexText).length := by
        rw [List.length_take] at hfull
        omega
      exact (List.take_append_of_le_length hlength).symm
    · exact ih (fun seg h => hsegs seg (List.mem_cons_of_mem _ h)) _

/-- The segments are read in chunks, and the answer is that of the plain scan up to the limit. -/
theorem find_bytes_is_plain_scan (db : IDB) (memory : ℕ → UInt8)
    (hreads : ∀ seg ∈ db.segments, Reads db memory seg)
    (pattern : String) (pat : List (Option UInt8)) (hpattern : parsePattern pattern = .ok pat)
    (hpat : pat ≠ []) (maxResults : ℕ) :
    ∃ found, handleFindBytes (some db) pattern maxResults = .ok ⟨pattern, found, found.length⟩ ∧
      found = ((db.segments.flatMap (plainScan memory pat)).take maxResults).map hexText ∧
      ∀ seg ∈ db.segments, (plainScan memory pat seg).Pairwise (· < ·) ∧
        ∀ address, address ∈ plainScan memory pat seg ↔
          ∃ i, i + pat.length ≤ seg.len ∧ address = seg.startAddress + i ∧
            MatchesAt memory pat address := by
  refine ⟨searchSegments db pat maxResults db.segments [], ?_, ?_, ?_⟩
  · simp only [handleFindBytes, hpattern, Option.elim_some]
    change (if pat = [] then _ else _) = _
    rw [if_neg hpat]
    rfl
  · have hsearch := searchSegments_eq db memory pat hpat maxResults db.segments hreads []
    rw [List.take_nil, List.nil_append, ← List.map_take] at hsearch
    exact hsearch
  · exact fun seg _ => ⟨hits_ascending _ _ _ _ _, mem_plainScan memory pat hpat seg⟩

def countingBytes : IDB where
  segments := [⟨0x1000, 3, by decide⟩]
  getBytes address n := (List.range n).map fun i => UInt8.ofNat (address + i)

theorem find_bytes_is_plain_scan_counting :
    handleFindBytes (some countingBytes) "01 ??" 5 = .ok ⟨"01 ??", ["0x1001"], 1⟩ := by
  obtain ⟨found, hresult, hfound, -⟩ := find_bytes_is_plain_scan countingBytes UInt8.ofNat
    (fun _ _ _ _ _ _ => rfl) "01 ??" [some 1, none] (by decide) (by decide) 5
  have hfound : found = ["0x1001"] := hfound.trans (by decide)
  rw [hresult, hfound]
  rfl

end IdaMcp.Search
