import IdaMcp.Foundation.Text
import Mathlib.Algebra.Ring.Int.Defs
import Mathlib.Data.List.SplitBy

namespace IdaMcp.Listing

open Foundation Text

structure PatchedByte where
  address : ℕ
  fileOffset : ℤ
  originalValue : ℕ
  patchedValue : ℕ
  address_lt : address < 2 ^ 64
  offset_ge : -2 ^ 63 ≤ fileOffset
  offset_lt : fileOffset < 2 ^ 63

def u64Max : ℕ := 2 ^ 64 - 1

def i64Max : ℤ := 2 ^ 63 - 1

def nextAddress (address : ℕ) : ℕ := min (address + 1) u64Max

def nextOffset (offset : ℤ) : ℤ := min (offset + 1) i64Max

structure PatchRange where
  start : String
  stop : String
  length : ℕ
  fileOffset : Option ℤ
  originalValues : List ℕ
  patchedValues : List ℕ
  originalHex : String
  patchedHex : String
deriving DecidableEq

def hexByte (value : ℕ) : String :=
  let digits := Nat.toDigits 16 value
  String.ofList (if digits.length < 2 then '0' :: digits else digits)

def formatPatchValues (values : List ℕ) : String := " ".intercalate (values.map hexByte)

def touches (previous current : PatchedByte) : Bool :=
  let addressesTouch := current.address = nextAddress previous.address
  let offsetsTouch :=
    if previous.fileOffset < 0 ∨ current.fileOffset < 0 then
      previous.fileOffset < 0 ∧ current.fileOffset < 0
    else current.fileOffset = nextOffset previous.fileOffset
  addressesTouch && offsetsTouch

def extent (previous : PatchedByte) : List PatchedByte → ℕ
  | [] => 0
  | current :: rest => if touches previous current then extent current rest + 1 else 0

def patchRange (first : PatchedByte) (others : List PatchedByte) : PatchRange :=
  let bytes := first :: others
  let last := others.getLastD first
  { start := hexText first.address
    stop := hexText (nextAddress last.address)
    length := bytes.length
    fileOffset := if 0 ≤ first.fileOffset then some first.fileOffset else none
    originalValues := bytes.map PatchedByte.originalValue
    patchedValues := bytes.map PatchedByte.patchedValue
    originalHex := formatPatchValues (bytes.map PatchedByte.originalValue)
    patchedHex := formatPatchValues (bytes.map PatchedByte.patchedValue) }

def coalescePatchedBytes : List PatchedByte → List PatchRange
  | [] => []
  | first :: rest =>
    patchRange first (rest.take (extent first rest)) ::
      coalescePatchedBytes (rest.drop (extent first rest))
termination_by bytes => bytes.length
decreasing_by
  simp only [List.length_cons, List.length_drop]
  omega

/-! The runs of the bytes. -/

theorem isChain_extent (previous : PatchedByte) (rest : List PatchedByte) :
    (previous :: rest.take (extent previous rest)).IsChain fun x y => touches x y = true := by
  induction rest generalizing previous with
  | nil => exact List.isChain_singleton _
  | cons current rest ih =>
    by_cases htouches : touches previous current = true
    · rw [extent, if_pos htouches, List.take_succ_cons]
      exact List.isChain_cons_cons.mpr ⟨htouches, ih current⟩
    · rw [extent, if_neg htouches]
      exact List.isChain_singleton _

theorem extent_stops (previous : PatchedByte) (rest : List PatchedByte) :
    ∀ x ∈ (previous :: rest.take (extent previous rest)).getLast?,
      ∀ y ∈ (rest.drop (extent previous rest)).head?, touches x y = false := by
  induction rest generalizing previous with
  | nil => simp
  | cons current rest ih =>
    by_cases htouches : touches previous current = true
    · rw [extent, if_pos htouches, List.take_succ_cons, List.drop_succ_cons,
        List.getLast?_cons_cons]
      exact ih current
    · rw [extent, if_neg htouches]
      simpa using htouches

theorem coalesce_eq_splitBy (bytes : List PatchedByte) :
    coalescePatchedBytes bytes = (bytes.splitBy touches).filterMap fun
      | [] => none
      | first :: others => some (patchRange first others) := by
  induction bytes using coalescePatchedBytes.induct with
  | case1 => simp [coalescePatchedBytes]
  | case2 first rest ih =>
    have hsplit : first :: rest =
        (first :: rest.take (extent first rest)) ++ rest.drop (extent first rest) := by
      rw [List.cons_append, List.take_append_drop]
    rw [coalescePatchedBytes, ih]
    conv_rhs => rw [hsplit, List.splitBy_append (extent_stops first rest),
      List.splitBy_of_isChain (List.cons_ne_nil _ _) (isChain_extent first rest)]
    rfl

/-! What the ranges are for. -/

structure Describes (stop : PatchedByte → ℕ) (bytes : List PatchedByte) (range : PatchRange) :
    Prop where
  start : ∃ first, bytes.head? = some first ∧ range.start = hexText first.address ∧
    range.fileOffset = if 0 ≤ first.fileOffset then some first.fileOffset else none
  stop : ∃ last, bytes.getLast? = some last ∧ range.stop = hexText (stop last)
  length : range.length = bytes.length
  originalValues : range.originalValues = bytes.map PatchedByte.originalValue
  patchedValues : range.patchedValues = bytes.map PatchedByte.patchedValue
  originalHex : range.originalHex = formatPatchValues range.originalValues
  patchedHex : range.patchedHex = formatPatchValues range.patchedValues

/-- The ranges partition the bytes into the longest runs of which each byte follows the one before. -/
structure Partitions (follows : PatchedByte → PatchedByte → Prop) (stop : PatchedByte → ℕ)
    (bytes : List PatchedByte) (ranges : List PatchRange) (runs : List (List PatchedByte)) : Prop where
  flatten : runs.flatten = bytes
  describes : List.Forall₂ (Describes stop) runs ranges
  chains : ∀ run ∈ runs, run.IsChain follows
  longest : runs.IsChain fun run run' =>
    ∀ x ∈ run.getLast?, ∀ y ∈ run'.head?, ¬ follows x y
  empty : ranges = [] ↔ bytes = []

def Follows (x y : PatchedByte) : Prop :=
  y.address = x.address + 1 ∧
    (x.fileOffset < 0 ∧ y.fileOffset < 0 ∨
      0 ≤ x.fileOffset ∧ 0 ≤ y.fileOffset ∧ y.fileOffset = x.fileOffset + 1)

/-- Neighbours whose file offsets are both the greatest. -/
def AtLastOffset (x y : PatchedByte) : Prop :=
  y.address = x.address + 1 ∧ x.fileOffset = i64Max ∧ y.fileOffset = i64Max

structure ShortOfTheEnds (bytes : List PatchedByte) : Prop where
  address : ∀ byte ∈ bytes, byte.address ≠ u64Max
  offset : bytes.IsChain fun x y => ¬ AtLastOffset x y

theorem touches_iff (x y : PatchedByte) : touches x y = true ↔
    y.address = nextAddress x.address ∧
      (x.fileOffset < 0 ∧ y.fileOffset < 0 ∨
        0 ≤ x.fileOffset ∧ 0 ≤ y.fileOffset ∧ y.fileOffset = nextOffset x.fileOffset) := by
  unfold touches
  dsimp only
  rw [Bool.and_eq_true, decide_eq_true_eq, decide_eq_true_eq]
  apply and_congr_right'
  by_cases hnegative : x.fileOffset < 0 ∨ y.fileOffset < 0
  · rw [if_pos hnegative]
    omega
  · rw [if_neg hnegative]
    omega

theorem Follows.touches {x y : PatchedByte} (h : Follows x y) : touches x y = true := by
  have haddress := y.address_lt
  have hoffset := y.offset_lt
  obtain ⟨hnext, hoffsets⟩ := h
  rw [touches_iff]
  unfold nextAddress nextOffset u64Max i64Max
  omega

theorem follows_of_touches {x y : PatchedByte} (h : touches x y = true)
    (haddress : x.address ≠ u64Max) (hoffset : ¬ AtLastOffset x y) : Follows x y := by
  have hlt := x.address_lt
  have hlt' := x.offset_lt
  rw [touches_iff] at h
  unfold nextAddress nextOffset at h
  unfold AtLastOffset at hoffset
  unfold u64Max i64Max at *
  unfold Follows
  omega

theorem Follows.not_atLastOffset {x y : PatchedByte} (h : Follows x y) : ¬ AtLastOffset x y := by
  unfold Follows at h
  unfold AtLastOffset i64Max
  omega

theorem AtLastOffset.touches {x y : PatchedByte} (h : AtLastOffset x y) : touches x y = true := by
  have hlt := y.address_lt
  obtain ⟨haddress, hoffset, hoffset'⟩ := h
  rw [touches_iff]
  unfold nextAddress nextOffset
  unfold u64Max i64Max at *
  omega

/-! The ranges beside the runs. -/

theorem describes_patchRange (first : PatchedByte) (others : List PatchedByte) :
    Describes (fun last => nextAddress last.address) (first :: others) (patchRange first others) where
  start := ⟨first, rfl, rfl, rfl⟩
  stop := ⟨others.getLastD first, by rw [List.getLast?_cons, List.getLastD_eq_getLast?], rfl⟩
  length := rfl
  originalValues := rfl
  patchedValues := rfl
  originalHex := rfl
  patchedHex := rfl

theorem describes_filterMap (runs : List (List PatchedByte)) (hruns : [] ∉ runs) :
    List.Forall₂ (Describes fun last => nextAddress last.address) runs
      (runs.filterMap fun
        | [] => none
        | first :: others => some (patchRange first others)) := by
  induction runs with
  | nil => exact .nil
  | cons run runs ih =>
    rw [List.mem_cons, not_or] at hruns
    cases run with
    | nil => exact absurd rfl hruns.1
    | cons first others =>
      exact .cons (describes_patchRange first others) (ih hruns.2)

theorem describes_splitBy (bytes : List PatchedByte) :
    List.Forall₂ (Describes fun last => nextAddress last.address) (bytes.splitBy touches)
      (coalescePatchedBytes bytes) := by
  rw [coalesce_eq_splitBy]
  exact describes_filterMap _ (List.nil_notMem_splitBy _ _)

theorem lengths_of_describes {stop : PatchedByte → ℕ} {runs : List (List PatchedByte)}
    {ranges : List PatchRange} (h : List.Forall₂ (Describes stop) runs ranges) :
    runs.map List.length = ranges.map PatchRange.length := by
  induction h with
  | nil => rfl
  | cons hdescribes _ ih => rw [List.map_cons, List.map_cons, ih, hdescribes.length]

theorem coalesce_eq_nil (bytes : List PatchedByte) :
    coalescePatchedBytes bytes = [] ↔ bytes = [] := by
  have hlengths := congrArg List.length (lengths_of_describes (describes_splitBy bytes))
  rw [List.length_map, List.length_map] at hlengths
  rw [← List.length_eq_zero_iff, ← hlengths, List.length_eq_zero_iff, List.splitBy_eq_nil]

theorem runs_eq_splitBy {stop : PatchedByte → ℕ} {bytes : List PatchedByte}
    {runs : List (List PatchedByte)} (hflatten : runs.flatten = bytes)
    (hdescribes : List.Forall₂ (Describes stop) runs (coalescePatchedBytes bytes)) :
    runs = bytes.splitBy touches := by
  apply List.eq_iff_flatten_eq.mpr
  constructor
  · rw [hflatten, List.flatten_splitBy]
  · rw [lengths_of_describes hdescribes, lengths_of_describes (describes_splitBy bytes)]

theorem breaks_splitBy (bytes : List PatchedByte) :
    (bytes.splitBy touches).IsChain fun run run' =>
      ∀ x ∈ run.getLast?, ∀ y ∈ run'.head?, touches x y = false := by
  apply (List.isChain_getLast_head_splitBy touches bytes).imp
  rintro run run' ⟨hrun, hrun', hbreak⟩ x hx y hy
  rw [List.getLast?_eq_some_getLast hrun, Option.mem_some_iff] at hx
  rw [List.head?_eq_some_head hrun', Option.mem_some_iff] at hy
  rwa [← hx, ← hy]

theorem ShortOfTheEnds.chain_of_mem {bytes run : List PatchedByte} (h : ShortOfTheEnds bytes)
    (hrun : run ∈ bytes.splitBy touches) : run.IsChain Follows := by
  have hinside : run <:+: bytes := by
    have := List.infix_of_mem_flatten hrun
    rwa [List.flatten_splitBy] at this
  have hoffset := h.offset.infix hinside
  have htouch := List.isChain_of_mem_splitBy hrun
  rw [List.isChain_iff_getElem] at hoffset htouch ⊢
  intro i hi
  exact follows_of_touches (htouch i hi)
    (h.address _ (hinside.subset (List.getElem_mem _))) (hoffset i hi)

theorem partitions_of_shortOfTheEnds {bytes : List PatchedByte} (h : ShortOfTheEnds bytes) :
    Partitions Follows (fun last => last.address + 1) bytes (coalescePatchedBytes bytes)
      (bytes.splitBy touches) where
  flatten := List.flatten_splitBy _ _
  describes := by
    have hlast : ∀ run ∈ bytes.splitBy touches, ∀ last ∈ run.getLast?,
        nextAddress last.address = last.address + 1 := by
      intro run hrun last hlast
      have hmem : last ∈ bytes := by
        rw [← List.flatten_splitBy touches bytes]
        exact List.mem_flatten.mpr ⟨run, hrun, List.mem_of_getLast? hlast⟩
      have hlt := last.address_lt
      have hne := h.address last hmem
      unfold nextAddress u64Max at *
      omega
    apply List.Forall₂.imp _ ((List.forall₂_and_left _ _).mpr ⟨hlast, describes_splitBy bytes⟩)
    rintro run range ⟨hnext, hdescribes⟩
    obtain ⟨last, hmem, hstop⟩ := hdescribes.stop
    exact { hdescribes with stop := ⟨last, hmem, by rw [hstop, hnext last hmem]⟩ }
  chains := fun run hrun => h.chain_of_mem hrun
  longest := (breaks_splitBy bytes).imp fun run run' hbreak x hx y hy hfollows => by
    have := hbreak x hx y hy
    rw [hfollows.touches] at this
    contradiction
  empty := coalesce_eq_nil bytes

theorem Partitions.address {bytes : List PatchedByte} {runs : List (List PatchedByte)}
    (h : Partitions Follows (fun last => last.address + 1) bytes (coalescePatchedBytes bytes) runs) :
    ∀ byte ∈ bytes, byte.address ≠ u64Max := by
  intro byte hbyte hmax
  rw [← h.flatten] at hbyte
  obtain ⟨run, hrun, hmem⟩ := List.mem_flatten.mp hbyte
  have hends : run.getLast? = some byte := by
    obtain ⟨before, after, rfl⟩ := List.append_of_mem hmem
    cases after with
    | nil => simp
    | cons next after =>
      have hfollows := (List.isChain_append_cons_cons.mp (h.chains _ hrun)).2.1
      have hlt := next.address_lt
      rw [hfollows.1, hmax, u64Max] at hlt
      omega
  obtain ⟨i, hi, rfl⟩ := List.getElem_of_mem hrun
  have hcode := runs_eq_splitBy h.flatten h.describes ▸ describes_splitBy bytes
  rw [List.forall₂_iff_get] at hcode
  have hclaim := (List.forall₂_iff_get.mp h.describes).2 i hi (by omega)
  obtain ⟨last, hlast, hstop⟩ := hclaim.stop
  obtain ⟨last', hlast', hstop'⟩ := (hcode.2 i hi (by omega)).stop
  rw [List.get_eq_getElem] at hlast hlast'
  rw [hends, Option.some_inj] at hlast hlast'
  rw [hstop, ← hlast, ← hlast'] at hstop'
  have hnext := hexText_injective hstop'
  rw [hmax, nextAddress, u64Max] at hnext
  omega

theorem Partitions.offset {stop : PatchedByte → ℕ} {bytes : List PatchedByte}
    {runs : List (List PatchedByte)}
    (h : Partitions Follows stop bytes (coalescePatchedBytes bytes) runs) :
    bytes.IsChain fun x y => ¬ AtLastOffset x y := by
  have hruns := runs_eq_splitBy h.flatten h.describes
  have hchains := h.chains
  rw [← List.flatten_splitBy touches bytes, List.isChain_flatten (List.nil_notMem_splitBy _ _)]
  constructor
  · intro run hrun
    exact (hchains run (hruns ▸ hrun)).imp fun x y hfollows => hfollows.not_atLastOffset
  · apply (breaks_splitBy bytes).imp
    intro run run' hbreak x hx y hy hlast
    have hapart := hbreak x hx y hy
    rw [hlast.touches] at hapart
    contradiction

/-- The ranges partition the patched bytes exactly where no saturation hides the next value. -/
theorem coalesce_partitions_iff (bytes : List PatchedByte) :
    (∃ runs, Partitions Follows (fun last => last.address + 1) bytes
      (coalescePatchedBytes bytes) runs) ↔ ShortOfTheEnds bytes := by
  constructor
  · rintro ⟨runs, h⟩
    exact ⟨h.address, h.offset⟩
  · intro h
    exact ⟨_, partitions_of_shortOfTheEnds h⟩

def lastByte : PatchedByte where
  address := u64Max
  fileOffset := -1
  originalValue := 0
  patchedValue := 1
  address_lt := by decide
  offset_ge := by decide
  offset_lt := by decide

/-- Two bytes at the greatest address are taken for neighbours. -/
theorem lastByte_merged : ¬ ∃ runs, Partitions Follows (fun last => last.address + 1)
    [lastByte, lastByte] (coalescePatchedBytes [lastByte, lastByte]) runs := by
  have hmerged : (coalescePatchedBytes [lastByte, lastByte]).map PatchRange.length = [2] := by
    have hextent : extent lastByte [lastByte] = 1 := by decide
    rw [coalescePatchedBytes, hextent, List.drop_one, List.tail_cons, coalescePatchedBytes]
    rfl
  rintro ⟨runs, h⟩
  have hlengths := lengths_of_describes h.describes
  rw [hmerged] at hlengths
  obtain ⟨run, rfl, hlength⟩ := List.map_eq_singleton_iff.mp hlengths
  have hflatten := h.flatten
  rw [List.flatten_singleton] at hflatten
  have hchain := h.chains run (List.mem_singleton_self run)
  rw [hflatten] at hchain
  exact absurd (List.isChain_pair.mp hchain).1 (by decide)

end IdaMcp.Listing
