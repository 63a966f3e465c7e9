import IdaMcp.Error
import IdaMcp.Foundation.Text
import IdaMcp.Foundation.U64

namespace IdaMcp.Listing

open Foundation Text

structure CodeDb where
  /-- The length of `insn_at`. -/
  insnLen : ℕ → Option ℕ
  nextHead : ℕ → Option ℕ
  nextHeadWith : (current limit : ℕ) → Option ℕ
  generateDisasmLine : ℕ → Option String

def nextDisasmAddress (db : CodeDb) (current : ℕ) (limit : Option ℕ) : Option ℕ :=
  let next := match db.insnLen current with
    | some len => U64.add current len
    | none => match limit with
      | some limit => db.nextHeadWith current limit
      | none => db.nextHead current
  next.filter fun next => current < next

def disasmLine (current : ℕ) (line : String) : String := hexText current ++ ":\t" ++ line

def nextInRange (db : CodeDb) (stop current : ℕ) : Option ℕ :=
  (nextDisasmAddress db current (some stop)).filter fun next => next < stop ∧ current < next

theorem lt_of_nextInRange {db : CodeDb} {stop current next : ℕ}
    (h : nextInRange db stop current = some next) : current < next ∧ next < stop := by
  have hguard := (Option.filter_eq_some_iff.mp h).2
  rw [decide_eq_true_eq] at hguard
  exact hguard.symm

structure Rendered where
  lines : List String
  current : ℕ
  nextAddress : Option ℕ

/-- The loop of a walk; no limit stands for one it never reaches. -/
def renderLoop (db : CodeDb) (stop : ℕ) (limit : Option ℕ) (lines : List String) (current : ℕ) :
    Rendered :=
  let rendered := match db.generateDisasmLine current with
    | some line => lines ++ [disasmLine current line]
    | none => lines
  let full := (db.generateDisasmLine current).isSome &&
    limit.any fun maxLines => maxLines ≤ rendered.length
  match _ : nextInRange db stop current with
  | none => { lines := rendered, current := stop, nextAddress := none }
  | some next =>
    if full then { lines := rendered, current := current, nextAddress := some next }
    else renderLoop db stop limit rendered next
termination_by stop - current
decreasing_by
  have hlt := lt_of_nextInRange ‹_›
  omega

structure RenderedRange where
  start : String
  stop : String
  renderedUntil : String
  truncated : Bool
  nextAddress : Option String
  lineCount : ℕ
  lines : List String
  text : String
deriving DecidableEq

/-- `handle_render_range` with the limit on the lines it clamps `max_lines` to. -/
def renderRange (idb : Option CodeDb) (start stop : ℕ) (limit : Option ℕ) :
    Except ToolError RenderedRange :=
  match idb with
  | none => .error .noDatabaseOpen
  | some db =>
    if stop ≤ start then .error (.invalidParams "end must be greater than start")
    else if 0x10000 < stop - start then
      .error (.invalidParams "render_range is limited to 65536 bytes per call")
    else
      let walk := renderLoop db stop limit [] start
      if walk.lines = [] then .error (.addressOutOfRange (UInt64.ofNat start))
      else .ok {
        start := hexText start
        stop := hexText stop
        renderedUntil := hexText (walk.nextAddress.getD (min walk.current stop))
        truncated := walk.nextAddress.isSome
        nextAddress := walk.nextAddress.map hexText
        lineCount := walk.lines.length
        lines := walk.lines
        text := "\n".intercalate walk.lines }

def clampLines (maxLines : ℕ) : ℕ := min (max maxLines 1) 4096

def handleRenderRange (idb : Option CodeDb) (start stop maxLines : ℕ) :
    Except ToolError RenderedRange :=
  renderRange idb start stop (some (clampLines maxLines))

/-! The items of a range and the lines they have. -/

def items (db : CodeDb) (stop current : ℕ) : List ℕ :=
  current :: match _ : nextInRange db stop current with
    | none => []
    | some next => items db stop next
termination_by stop - current
decreasing_by
  have hlt := lt_of_nextInRange ‹_›
  omega

def itemLines (db : CodeDb) (addresses : List ℕ) : List String :=
  addresses.filterMap fun address => (db.generateDisasmLine address).map (disasmLine address)

theorem items_last {db : CodeDb} {stop current : ℕ} (h : nextInRange db stop current = none) :
    items db stop current = [current] := by
  rw [items]
  split <;> simp_all

theorem items_next {db : CodeDb} {stop current next : ℕ}
    (h : nextInRange db stop current = some next) :
    items db stop current = current :: items db stop next := by
  rw [items]
  split <;> simp_all

def withItem (db : CodeDb) (lines : List String) (current : ℕ) : List String :=
  lines ++ itemLines db [current]

theorem withItem_items {db : CodeDb} {stop current next : ℕ} (lines : List String)
    (h : nextInRange db stop current = some next) :
    withItem db lines current ++ itemLines db (items db stop next) =
      lines ++ itemLines db (items db stop current) := by
  rw [items_next h, withItem, itemLines, itemLines, itemLines, List.append_assoc, ← List.filterMap_append]
  rfl

theorem renderLoop_last {db : CodeDb} {stop current : ℕ} {limit : Option ℕ} {lines : List String}
    (h : nextInRange db stop current = none) :
    renderLoop db stop limit lines current =
      { lines := withItem db lines current, current := stop, nextAddress := none } := by
  rw [renderLoop]
  split
  · cases hline : db.generateDisasmLine current <;> simp [withItem, itemLines, hline]
  · simp_all

theorem renderLoop_next {db : CodeDb} {stop current next : ℕ} {limit : Option ℕ}
    {lines : List String} (h : nextInRange db stop current = some next) :
    renderLoop db stop limit lines current =
      if (db.generateDisasmLine current).isSome &&
          limit.any fun maxLines => maxLines ≤ (withItem db lines current).length then
        { lines := withItem db lines current, current := current, nextAddress := some next }
      else renderLoop db stop limit (withItem db lines current) next := by
  rw [renderLoop]
  split
  · simp_all
  · rename_i next' hnext
    rw [h] at hnext
    cases hnext
    cases hline : db.generateDisasmLine current <;> simp [withItem, itemLines, hline]

theorem renderLoop_unlimited (db : CodeDb) (stop current : ℕ) (lines : List String) :
    renderLoop db stop none lines current =
      { lines := lines ++ itemLines db (items db stop current), current := stop,
        nextAddress := none } := by
  induction current using items.induct db stop generalizing lines with
  | case1 current ih =>
    cases hnext : nextInRange db stop current with
    | none => rw [renderLoop_last hnext, items_last hnext, withItem]
    | some next =>
      rw [renderLoop_next hnext, if_neg (by simp), ih next hnext, withItem_items lines hnext]

def EndsWithLine (db : CodeDb) (addresses : List ℕ) : Prop :=
  ∃ address ∈ addresses.getLast?, (db.generateDisasmLine address).isSome

/-- A walk that has lines already reaches the end of the range, or its limit before another item. -/
inductive Stops (db : CodeDb) (stop maxLines current : ℕ) (lines : List String) : Rendered → Prop
  | atEnd (hcount : (lines ++ itemLines db (items db stop current)).length < maxLines ∨
      (lines ++ itemLines db (items db stop current)).length = maxLines ∧
        EndsWithLine db (items db stop current)) :
      Stops db stop maxLines current lines
        { lines := lines ++ itemLines db (items db stop current), current := stop, nextAddress := none }
  | atLimit (front : List ℕ) (last next : ℕ)
      (hsplit : items db stop current = front ++ items db stop next)
      (hcurrent : current < next) (hnext : next < stop)
      (hcount : (lines ++ itemLines db front).length = maxLines) :
      Stops db stop maxLines current lines
        { lines := lines ++ itemLines db front, current := last, nextAddress := some next }

theorem EndsWithLine.cons {db : CodeDb} {stop current next : ℕ}
    (h : nextInRange db stop current = some next) :
    EndsWithLine db (items db stop current) ↔ EndsWithLine db (items db stop next) := by
  have hitems : items db stop next ≠ [] := by
    rw [items]
    exact List.cons_ne_nil _ _
  obtain ⟨first, rest, hcons⟩ := List.exists_cons_of_ne_nil hitems
  rw [items_next h, EndsWithLine, EndsWithLine, hcons, List.getLast?_cons_cons]

theorem renderLoop_limited (db : CodeDb) (stop maxLines current : ℕ) (lines : List String)
    (hroom : lines.length < maxLines) :
    Stops db stop maxLines current lines (renderLoop db stop (some maxLines) lines current) := by
  induction current using items.induct db stop generalizing lines with
  | case1 current ih =>
    cases hnext : nextInRange db stop current with
    | none =>
      rw [renderLoop_last hnext, withItem, ← items_last hnext]
      apply Stops.atEnd
      rw [items_last hnext, EndsWithLine]
      cases hline : db.generateDisasmLine current with
      | none =>
        left
        simpa [itemLines, hline] using hroom
      | some line =>
        have hlength : (lines ++ itemLines db [current]).length = lines.length + 1 := by
          simp [itemLines, hline]
        rw [hlength]
        rcases Nat.lt_or_eq_of_le (Nat.succ_le_of_lt hroom) with hlt | heq
        · exact .inl hlt
        · exact .inr ⟨heq, current, rfl, by rw [hline]; rfl⟩
    | some next =>
      have hlt := lt_of_nextInRange hnext
      rw [renderLoop_next hnext]
      split_ifs with hfull
      · rw [Bool.and_eq_true, Option.any_some, decide_eq_true_eq] at hfull
        obtain ⟨line, hline⟩ := Option.isSome_iff_exists.mp hfull.1
        apply Stops.atLimit [current] current next (items_next hnext) hlt.1 hlt.2
        have hlength : (lines ++ itemLines db [current]).length = lines.length + 1 := by
          simp [itemLines, hline]
        rw [withItem] at hfull
        omega
      · have hroom' : (withItem db lines current).length < maxLines := by
          rw [Bool.and_eq_true, Option.any_some, decide_eq_true_eq, not_and] at hfull
          cases hline : db.generateDisasmLine current with
          | none => simpa [withItem, itemLines, hline] using hroom
          | some line => exact Nat.lt_of_not_le (hfull (by rw [hline]; rfl))
        have hstops := ih next hnext _ hroom'
        generalize renderLoop db stop (some maxLines) (withItem db lines current) next = walk at hstops
        cases hstops with
        | atEnd hcount =>
          rw [withItem_items lines hnext] at hcount ⊢
          rw [← EndsWithLine.cons hnext] at hcount
          exact .atEnd hcount
        | atLimit front last next' hsplit hcurrent hnext' hcount =>
          have hfront : withItem db lines current ++ itemLines db front =
              lines ++ itemLines db (current :: front) := by
            rw [withItem, itemLines, itemLines, itemLines, List.append_assoc, ← List.filterMap_append]
            rfl
          rw [hfront] at hcount ⊢
          exact .atLimit (current :: front) last next' (by rw [items_next hnext, hsplit]; rfl)
            (by omega) hnext' hcount

/-! Paging. -/

inductive Pages (idb : Option CodeDb) (stop maxLines : ℕ) : ℕ → List RenderedRange → Prop
  | last {start : ℕ} {page : RenderedRange} (hpage : handleRenderRange idb start stop maxLines = .ok page)
      (hend : page.nextAddress = none) : Pages idb stop maxLines start [page]
  | more {start next : ℕ} {page : RenderedRange} {pages : List RenderedRange}
      (hpage : handleRenderRange idb start stop maxLines = .ok page)
      (hnext : page.nextAddress = some (hexText next)) (hlt : start < next)
      (hpages : Pages idb stop maxLines next pages) : Pages idb stop maxLines start (page :: pages)

theorem clampLines_pos (maxLines : ℕ) : 0 < clampLines maxLines := by
  unfold clampLines
  omega

theorem renderRange_eq {db : CodeDb} {start stop : ℕ} {limit : Option ℕ} (hlt : start < stop)
    (hsize : stop - start ≤ 0x10000) (walk : Rendered)
    (hwalk : renderLoop db stop limit [] start = walk) :
    (walk.lines = [] ∧ ∃ error, renderRange (some db) start stop limit = .error error) ∨
      walk.lines ≠ [] ∧ ∃ page, renderRange (some db) start stop limit = .ok page ∧
        page.lines = walk.lines ∧ page.nextAddress = walk.nextAddress.map hexText := by
  unfold renderRange
  dsimp only
  rw [if_neg (by omega), if_neg (by omega), hwalk]
  by_cases hempty : walk.lines = []
  · rw [if_pos hempty]
    exact .inl ⟨hempty, _, rfl⟩
  · rw [if_neg hempty]
    exact .inr ⟨hempty, _, rfl, rfl, rfl⟩

/-- The lines fill whole pages, and items without a line follow the last of them. -/
def Stranded (db : CodeDb) (start stop maxLines : ℕ) : Prop :=
  clampLines maxLines ∣ (itemLines db (items db stop start)).length ∧
    ¬ EndsWithLine db (items db stop start)

theorem exists_pages_next {idb : Option CodeDb} {start next stop maxLines : ℕ} {page : RenderedRange}
    (hpage : handleRenderRange idb start stop maxLines = .ok page)
    (hnext : page.nextAddress = some (hexText next)) (hlt : start < next) (rest : List String) :
    (∃ pages, Pages idb stop maxLines start pages ∧
      pages.flatMap RenderedRange.lines = page.lines ++ rest) ↔
      ∃ pages, Pages idb stop maxLines next pages ∧ pages.flatMap RenderedRange.lines = rest := by
  constructor
  · rintro ⟨pages, hpages, hlines⟩
    cases hpages with
    | last hpage' hend =>
      rw [hpage] at hpage'
      cases hpage'
      rw [hend] at hnext
      cases hnext
    | more hpage' hnext' hlt' hpages =>
      rw [hpage] at hpage'
      cases hpage'
      rw [hnext, Option.some_inj] at hnext'
      cases hexText_injective hnext'
      rw [List.flatMap_cons, List.append_cancel_left_eq] at hlines
      exact ⟨_, hpages, hlines⟩
  · rintro ⟨pages, hpages, hlines⟩
    exact ⟨page :: pages, .more hpage hnext hlt hpages, by rw [List.flatMap_cons, hlines]⟩

theorem no_pages_of_no_lines {db : CodeDb} {start stop maxLines : ℕ} (hlt : start < stop)
    (hsize : stop - start ≤ 0x10000) (hlines : itemLines db (items db stop start) = []) :
    ¬ ∃ pages, Pages (some db) stop maxLines start pages := by
  have hpos := clampLines_pos maxLines
  have hstops := renderLoop_limited db stop (clampLines maxLines) start [] hpos
  have herror : ∃ error, handleRenderRange (some db) start stop maxLines = .error error := by
    obtain ⟨-, herror⟩ | ⟨hne, -⟩ := renderRange_eq hlt hsize _ rfl
    · exact herror
    · generalize renderLoop db stop (some (clampLines maxLines)) [] start = walk at hstops hne
      cases hstops with
      | atEnd hcount => exact absurd hlines hne
      | atLimit front last next hsplit hcurrent hnext hcount =>
        rw [hsplit, itemLines, List.filterMap_append, List.append_eq_nil_iff] at hlines
        exact absurd hlines.1 hne
  obtain ⟨error, herror⟩ := herror
  rintro ⟨pages, hpages⟩
  cases hpages with
  | last hpage => rw [herror] at hpage; cases hpage
  | more hpage => rw [herror] at hpage; cases hpage

theorem EndsWithLine.lines_ne_nil {db : CodeDb} {addresses : List ℕ} (h : EndsWithLine db addresses) :
    itemLines db addresses ≠ [] := by
  obtain ⟨address, hlast, hline⟩ := h
  obtain ⟨line, hline⟩ := Option.isSome_iff_exists.mp hline
  apply List.ne_nil_of_mem (a := disasmLine address line)
  exact List.mem_filterMap.mpr ⟨address, List.mem_of_getLast? hlast, by rw [hline]; rfl⟩

theorem endsWithLine_append {db : CodeDb} {stop next : ℕ} (front : List ℕ) :
    EndsWithLine db (front ++ items db stop next) ↔ EndsWithLine db (items db stop next) := by
  have hitems : items db stop next ≠ [] := by
    rw [items]
    exact List.cons_ne_nil _ _
  rw [EndsWithLine, EndsWithLine, List.getLast?_append_of_ne_nil _ hitems]

theorem pages_of_limit {db : CodeDb} {start stop maxLines : ℕ} (hlt : start < stop)
    (hsize : stop - start ≤ 0x10000) (hlines : itemLines db (items db stop start) ≠ []) :
    (∃ pages, Pages (some db) stop maxLines start pages ∧
      pages.flatMap RenderedRange.lines = itemLines db (items db stop start)) ↔
      ¬ Stranded db start stop maxLines := by
  induction hmeasure : stop - start using Nat.strong_induction_on generalizing start with
  | _ size ih =>
    subst hmeasure
    have hpos := clampLines_pos maxLines
    have hstops := renderLoop_limited db stop (clampLines maxLines) start [] hpos
    generalize hwalk : renderLoop db stop (some (clampLines maxLines)) [] start = walk at hstops
    obtain ⟨hempty, -⟩ | ⟨-, page, hpage, hpageLines, hpageNext⟩ := renderRange_eq hlt hsize walk hwalk
    · cases hstops with
      | atEnd hcount => exact absurd hempty hlines
      | atLimit front last next hsplit hcurrent hnext hcount =>
        rw [show ([] ++ itemLines db front : List String) = [] from hempty, List.length_nil] at hcount
        omega
    · cases hstops with
      | atEnd hcount =>
        refine iff_of_true ⟨[page], .last hpage hpageNext, by simpa using hpageLines⟩ ?_
        rintro ⟨hdvd, hends⟩
        rcases hcount with hcount | ⟨-, hline⟩
        · exact hlines (List.length_eq_zero_iff.mp (Nat.eq_zero_of_dvd_of_lt hdvd hcount))
        · exact hends hline
      | atLimit front last next hsplit hcurrent hnext hcount =>
        have hrest : itemLines db (items db stop start) =
            itemLines db front ++ itemLines db (items db stop next) := by
          rw [hsplit, itemLines, List.filterMap_append]
          rfl
        rw [List.nil_append] at hpageLines hcount
        have hpages := exists_pages_next hpage hpageNext hcurrent (itemLines db (items db stop next))
        rw [hpageLines, ← hrest] at hpages
        have hstranded : Stranded db start stop maxLines ↔ Stranded db next stop maxLines := by
          rw [Stranded, Stranded, hrest, List.length_append, hcount, Nat.dvd_add_right (Nat.dvd_refl _),
            hsplit, endsWithLine_append]
        rw [hpages, hstranded]
        by_cases hempty : itemLines db (items db stop next) = []
        · apply iff_of_false
          · rintro ⟨pages, hpages, -⟩
            exact no_pages_of_no_lines hnext (by omega) hempty ⟨pages, hpages⟩
          · rw [not_not]
            exact ⟨by rw [hempty]; exact Nat.dvd_zero _, fun hends => hends.lines_ne_nil hempty⟩
        · exact ih (stop - next) (by omega) hnext (by omega) hempty rfl

/-- Where the unlimited call succeeds, its lines come in pages unless the last page is stranded. -/
theorem renderRange_pages_iff {db : CodeDb} {start stop maxLines : ℕ} {whole : RenderedRange}
    (h : renderRange (some db) start stop none = .ok whole) :
    (∃ pages, Pages (some db) stop maxLines start pages ∧
      pages.flatMap RenderedRange.lines = whole.lines) ↔ ¬ Stranded db start stop maxLines := by
  have hrange : start < stop ∧ stop - start ≤ 0x10000 := by
    unfold renderRange at h
    dsimp only at h
    split_ifs at h
    omega
  have hwalk := renderLoop_unlimited db stop start []
  obtain ⟨-, error, herror⟩ | ⟨hne, page, hpage, hlines, -⟩ := renderRange_eq hrange.1 hrange.2 _ hwalk
  · rw [h] at herror
    cases herror
  · rw [h] at hpage
    cases hpage
    rw [hlines]
    exact pages_of_limit hrange.1 hrange.2 hne

def paddedDb : CodeDb where
  insnLen _ := none
  nextHead current := some (current + 1)
  nextHeadWith current _ := some (current + 1)
  generateDisasmLine address := if address = 0 then some "nop" else none

theorem items_paddedDb : items paddedDb 2 0 = [0, 1] := by
  rw [items_next (show nextInRange paddedDb 2 0 = some 1 by decide), items_last (by decide)]

def paddedRange : RenderedRange where
  start := hexText 0
  stop := hexText 2
  renderedUntil := hexText 2
  truncated := false
  nextAddress := none
  lineCount := 1
  lines := [disasmLine 0 "nop"]
  text := disasmLine 0 "nop"

theorem renderRange_paddedDb : renderRange (some paddedDb) 0 2 none = .ok paddedRange := by
  unfold renderRange
  dsimp only
  rw [renderLoop_unlimited, items_paddedDb]
  rfl

theorem renderRange_pages_padded : (∃ pages, Pages (some paddedDb) 2 2 0 pages ∧
    pages.flatMap RenderedRange.lines = paddedRange.lines) ↔ ¬ Stranded paddedDb 0 2 2 :=
  renderRange_pages_iff renderRange_paddedDb

/-- The page of the last line points at items that have none. -/
theorem paddedDb_stranded : renderRange (some paddedDb) 0 2 none = .ok paddedRange ∧
    ¬ ∃ pages, Pages (some paddedDb) 2 1 0 pages := by
  refine ⟨renderRange_paddedDb, ?_⟩
  have hwalk : renderLoop paddedDb 2 (some 1) [] 0 =
      { lines := [disasmLine 0 "nop"], current := 0, nextAddress := some 1 } := by
    rw [renderLoop_next (show nextInRange paddedDb 2 0 = some 1 by decide)]
    rfl
  have hrest : itemLines paddedDb (items paddedDb 2 1) = [] := by
    rw [items_last (by decide)]
    rfl
  obtain ⟨hempty, -⟩ | ⟨-, page, hpage, -, hnext⟩ :=
    renderRange_eq (show 0 < 2 by decide) (by decide) _ hwalk
  · cases hempty
  rintro ⟨pages, hpages⟩
  cases hpages with
  | last hpage' hend =>
    rw [handleRenderRange, show clampLines 1 = 1 from rfl, hpage] at hpage'
    cases hpage'
    rw [hend] at hnext
    cases hnext
  | more hpage' hnext' hlt hpages =>
    rw [handleRenderRange, show clampLines 1 = 1 from rfl, hpage] at hpage'
    cases hpage'
    rw [hnext, Option.map_some, Option.some_inj] at hnext'
    cases hexText_injective hnext'
    exact no_pages_of_no_lines (by decide) (by decide) hrest ⟨_, hpages⟩

end IdaMcp.Listing
