import IdaMcp.Foundation.ShortReads
import IdaMcp.Slices.Extract

namespace IdaMcp.Slices.Existing

open Foundation ShortReads

def bufferBytes : ℕ := 65536

def offsetLimit : ℕ := 9223372036854775808

structure Call where
  request : Request
  bounded : request.bytes.length < offsetLimit
  dest : String
  existing : List UInt8

structure Reads where
  source : ℕ → ℕ
  existing : ℕ → ℕ → ℕ

def compareRest (reads : Reads) (k : ℕ) (source existing : List UInt8) : Except String Bool :=
  let left := read (reads.source k) bufferBytes source
  if _hleft : left = [] then .ok true
  else
    match readExact (reads.existing k) 0 left.length existing with
    | none => .error shortRead
    | some right =>
      if left ≠ right then .ok false
      else compareRest reads (k + 1) (source.drop left.length) (existing.drop left.length)
termination_by source.length
decreasing_by exact drop_read_lt _hleft

def sliceMatches (reads : Reads) (c : Call) : Except String Bool :=
  if c.request.slice.offset < offsetLimit then compareRest reads 0 c.request.sliceBytes c.existing
  else .error "Invalid argument (os error 22)"

def verdict (r : Request) (dest : String) : Except String Bool → Except ToolError SliceFile
  | .ok true => .ok .reused
  | .ok false => .error (differsError r dest)
  | .error e => .error (sliceIoError "comparing" r dest e)

def existingSlice (reads : Reads) (c : Call) : Except ToolError SliceFile :=
  verdict c.request c.dest
    (if c.existing.length = c.request.slice.size then sliceMatches reads c else .ok false)

variable {reads : Reads} {k : ℕ} {source existing : List UInt8} {c : Call}

theorem compareRest_eq_true (reads : Reads) (k : ℕ) (source existing : List UInt8) :
    compareRest reads k source existing = .ok true ↔ source <+: existing := by
  fun_induction compareRest reads k source existing with
  | case1 k source existing left hleft =>
    have hsource : source = [] := (read_eq_nil (by decide)).mp hleft
    simp [hsource]
  | case2 k source existing left hleft hright =>
    have hread : source <+: existing ↔ existing.take left.length = left ∧ _ := begins_iff_read
    have hshort : existing.length < left.length := by
      rw [readExact_eq, ite_eq_right_iff] at hright
      by_contra hlong
      cases hright (Nat.not_lt.mp hlong)
    apply iff_of_false (by simp)
    intro h
    have hlength := congrArg List.length (hread.mp h).1
    rw [List.length_take] at hlength
    omega
  | case3 k source existing left hleft right hright hne =>
    have hread : source <+: existing ↔ existing.take left.length = left ∧ _ := begins_iff_read
    rw [readExact_eq, Option.ite_none_right_eq_some, Option.some_inj] at hright
    apply iff_of_false (by simp)
    intro h
    exact hne ((hread.mp h).1.symm.trans hright.2)
  | case4 k source existing left hleft right hright heq ih =>
    have hread : source <+: existing ↔ existing.take left.length = left ∧ _ := begins_iff_read
    rw [readExact_eq, Option.ite_none_right_eq_some, Option.some_inj] at hright
    rw [ih, hread]
    exact (and_iff_right (hright.2.trans (not_not.mp heq).symm)).symm

theorem verdict_eq_reused {r : Request} {dest : String} {comparison : Except String Bool} :
    verdict r dest comparison = .ok .reused ↔ comparison = .ok true := by
  match comparison with
  | .ok true => simp [verdict]
  | .ok false => simp [verdict]
  | .error _ => simp [verdict]

theorem verdict_eq_error {r : Request} {dest : String} {comparison : Except String Bool}
    (h : comparison ≠ .ok true) : ∃ e, verdict r dest comparison = .error e := by
  match comparison with
  | .ok true => exact absurd rfl h
  | .ok false => exact ⟨_, rfl⟩
  | .error _ => exact ⟨_, rfl⟩

def Identical (c : Call) : Prop :=
  c.request.slice.offset + c.request.slice.size ≤ c.request.bytes.length ∧
    c.existing = (c.request.bytes.drop c.request.slice.offset).take c.request.slice.size

/-- The input ends inside the slice, and `dest` is as long as the slice and begins with what the
input has of it. -/
def EndsInside (c : Call) : Prop :=
  c.request.bytes.length < c.request.slice.offset + c.request.slice.size ∧
    c.request.slice.offset < offsetLimit ∧ c.existing.length = c.request.slice.size ∧
      (c.request.bytes.drop c.request.slice.offset).take c.request.slice.size <+: c.existing

theorem existingSlice_reused (reads : Reads) (c : Call) :
    existingSlice reads c = .ok .reused ↔
      c.existing.length = c.request.slice.size ∧ c.request.slice.offset < offsetLimit ∧
        c.request.sliceBytes <+: c.existing := by
  rw [existingSlice, verdict_eq_reused]
  by_cases hsize : c.existing.length = c.request.slice.size
  · rw [if_pos hsize, and_iff_right hsize, sliceMatches]
    by_cases hseek : c.request.slice.offset < offsetLimit
    · rw [if_pos hseek, and_iff_right hseek, compareRest_eq_true]
    · simp [hseek]
  · simp [hsize]

theorem identical_iff (hwhole : c.request.slice.offset + c.request.slice.size ≤ c.request.bytes.length) :
    Identical c ↔ c.existing.length = c.request.slice.size ∧ c.request.slice.offset < offsetLimit ∧
      c.request.sliceBytes <+: c.existing := by
  have hlength : c.request.sliceBytes.length = c.request.slice.size := by
    rw [Request.sliceBytes, List.length_take, List.length_drop]
    omega
  have hseek : c.request.slice.offset < offsetLimit := by
    have hbounded := c.bounded
    omega
  rw [Identical, and_iff_right hwhole, and_iff_right hseek]
  constructor
  · intro h
    rw [h]
    exact ⟨hlength, List.prefix_rfl⟩
  · rintro ⟨hsize, hbegins⟩
    exact (hbegins.eq_of_length (hlength.trans hsize.symm)).symm

/-- A `dest` is reused where it is identical, and refused elsewhere, exactly if the input does not end
inside the slice with a `dest` that goes on from there. -/
theorem reused_identical_iff (reads : Reads) (c : Call) :
    ((existingSlice reads c = .ok .reused ↔ Identical c) ∧
      (¬Identical c → ∃ e, existingSlice reads c = .error e)) ↔ ¬EndsInside c := by
  have hrefused (h : existingSlice reads c ≠ .ok .reused) : ∃ e, existingSlice reads c = .error e :=
    verdict_eq_error (mt verdict_eq_reused.mpr h)
  by_cases hwhole : c.request.slice.offset + c.request.slice.size ≤ c.request.bytes.length
  · have hreused : existingSlice reads c = .ok .reused ↔ Identical c := by
      rw [existingSlice_reused, identical_iff hwhole]
    have hinside : ¬EndsInside c := fun h => Nat.not_lt.mpr hwhole h.1
    exact iff_of_true ⟨hreused, fun h => hrefused (mt hreused.mp h)⟩ hinside
  · have hdifferent : ¬Identical c := fun h => hwhole h.1
    have hinside : EndsInside c ↔ existingSlice reads c = .ok .reused := by
      rw [existingSlice_reused, EndsInside, and_iff_right (Nat.not_le.mp hwhole), Request.sliceBytes]
      exact and_left_comm
    rw [hinside, iff_false_right hdifferent]
    exact and_iff_left_of_imp fun h _ => hrefused h

/-- A `dest` that goes on with other bytes where the input ends is reused. -/
theorem truncated_input_reused :
    let c : Call := ⟨⟨"fat", [1], ⟨"arm64", 0, 2⟩, "u"⟩, by decide, "fat.arm64", [1, 9]⟩
    existingSlice ⟨fun _ => 0, fun _ _ => 0⟩ c = .ok .reused ∧ ¬Identical c := by
  intro c
  constructor
  · exact (existingSlice_reused _ c).mpr ⟨rfl, by decide, by decide⟩
  · exact fun h => absurd h.1 (by decide)

/-! The steps of `extract_slice` come to what the loop comes to. -/

section Machine

variable {dest : String} {s : State} {u : ℕ}

/-- Some choices of the file system take the call to its settling with `result`. -/
def Comes (dest : String) (s : State) (u : ℕ) (c : Slices.Call) (result : Except ToolError SliceFile) :
    Prop :=
  ∃ choices : List Choice,
    run (step dest) s (choices.map (.run u)) = some (s.setCall u (c.settle result))

theorem State.setCall_setCall (c c' : Slices.Call) : (s.setCall u c).setCall u c' = s.setCall u c' := by
  simp [State.setCall]

theorem Comes.last {c : Slices.Call} (choice : Choice) {result : Except ToolError SliceFile}
    (hcall : s.call u = some c)
    (hnext : next dest s u c choice = some (s.setCall u (c.settle result))) :
    Comes dest s u c result := by
  refine ⟨[choice], run_cons_eq_some.mpr ⟨_, ?_, rfl⟩⟩
  simp only [step, hcall, hnext]

theorem Comes.later {c : Slices.Call} (position : Position) (choice : Choice)
    {result : Except ToolError SliceFile} (hcall : s.call u = some c)
    (hnext : next dest s u c choice = some (s.setCall u (c.goto position)))
    (h : Comes dest (s.setCall u (c.goto position)) u (c.goto position) result) :
    Comes dest s u c result := by
  obtain ⟨choices, hrun⟩ := h
  refine ⟨choice :: choices, run_cons_eq_some.mpr ⟨s.setCall u (c.goto position), ?_, ?_⟩⟩
  · simp only [step, hcall, hnext]
  · rw [hrun, State.setCall_setCall]
    rfl

theorem take_read {α : Type} {wish room : ℕ} {rest : List α} (h : read wish room rest ≠ []) :
    (read wish room rest).length ≠ 0 ∧ rest ≠ [] := by
  refine ⟨by simpa using h, ?_⟩
  rintro rfl
  simp [ShortReads.read] at h

theorem comes_compareRest (reads : Reads) (k : ℕ) (source existing : List UInt8) :
    ∀ (s : State) (c : Slices.Call) (file : Inode) (compared : ℕ), s.call u = some c →
      c.position = .sliceMatches file compared → c.request.sliceBytes.drop compared = source →
        (s.dir.content file).drop compared = existing →
          Comes dest s u c (verdict c.request dest (compareRest reads k source existing)) := by
  fun_induction compareRest reads k source existing with
  | case1 k source existing left hleft =>
    intro s c file compared hcall hposition hsource hexisting
    have hnil : source = [] := (read_eq_nil (by decide)).mp hleft
    apply Comes.last .proceed hcall
    simp only [next, hposition, Slices.sliceMatches, hsource, hnil, if_true]
    rfl
  | case2 k source existing left hleft hright =>
    intro s c file compared hcall hposition hsource hexisting
    have hchunk : left.length ≠ 0 ∧ source ≠ [] := take_read hleft
    have htake : source.take left.length = left := read_eq_take
    have hshort : (existing.take left.length).length < left.length := by
      rw [readExact_eq, ite_eq_right_iff] at hright
      by_contra hlong
      rw [List.length_take] at hlong
      cases hright (by omega)
    apply Comes.last (.chunk left.length) hcall
    simp only [next, hposition, Slices.sliceMatches, hsource, hexisting, if_pos hchunk, htake,
      if_pos hshort]
    rfl
  | case3 k source existing left hleft right hright hne =>
    intro s c file compared hcall hposition hsource hexisting
    have hchunk : left.length ≠ 0 ∧ source ≠ [] := take_read hleft
    have htake : source.take left.length = left := read_eq_take
    rw [readExact_eq, Option.ite_none_right_eq_some, Option.some_inj] at hright
    have hlong : ¬(existing.take left.length).length < left.length := by
      rw [List.length_take]
      omega
    apply Comes.last (.chunk left.length) hcall
    simp only [next, hposition, Slices.sliceMatches, hsource, hexisting, if_pos hchunk, htake,
      hright.2, if_neg (hright.2 ▸ hlong), if_neg hne]
    rfl
  | case4 k source existing left hleft right hright heq ih =>
    intro s c file compared hcall hposition hsource hexisting
    have hchunk : left.length ≠ 0 ∧ source ≠ [] := take_read hleft
    have htake : source.take left.length = left := read_eq_take
    rw [readExact_eq, Option.ite_none_right_eq_some, Option.some_inj] at hright
    have hlong : ¬(existing.take left.length).length < left.length := by
      rw [List.length_take]
      omega
    have hright' : left = existing.take left.length := (not_not.mp heq).trans hright.2.symm
    apply Comes.later (.sliceMatches file (compared + left.length)) (.chunk left.length) hcall
    · simp only [next, hposition, Slices.sliceMatches, hsource, hexisting, if_pos hchunk, htake,
        if_neg hlong, if_pos hright']
    · apply ih _ _ _ _ (State.setCall_self ..) rfl
      · rw [← hsource, List.drop_drop]
        rfl
      · rw [← hexisting, List.drop_drop]
        rfl

theorem comes_existingSlice (reads : Reads) (e : Call) {c : Slices.Call} {file : Inode}
    (hcall : s.call u = some c) (hposition : c.position = .existingSlice)
    (hrequest : c.request = e.request) (hentry : s.dir.entry e.dest = some file)
    (hcontent : s.dir.content file = e.existing) : Comes e.dest s u c (existingSlice reads e) := by
  rw [existingSlice, ← hrequest, ← hcontent]
  by_cases hsize : (s.dir.content file).length = c.request.slice.size
  · rw [if_pos hsize, sliceMatches]
    apply Comes.later .openExisting .proceed hcall
    · simp only [next, hposition, Slices.existingSlice, hentry, if_pos hsize]
    · have hopening : (s.setCall u (c.goto .openExisting)).call u = some _ := State.setCall_self ..
      by_cases hseek : e.request.slice.offset < offsetLimit
      · rw [if_pos hseek]
        apply Comes.later (.sliceMatches file 0) .proceed hopening
        · simp only [next, Call.goto, openExisting, State.setCall, hentry]
        · apply comes_compareRest reads 0 _ _ _ _ file 0 (State.setCall_self ..) rfl
          · rw [List.drop_zero, ← hrequest]
            rfl
          · exact hcontent
      · rw [if_neg hseek]
        apply Comes.last (.fails "Invalid argument (os error 22)") hopening
        rfl
  · rw [if_neg hsize]
    apply Comes.last .proceed hcall
    simp only [next, hposition, Slices.existingSlice, hentry, if_neg hsize]
    rfl

end Machine

end IdaMcp.Slices.Existing
