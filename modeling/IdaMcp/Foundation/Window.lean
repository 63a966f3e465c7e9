import Mathlib.Data.List.Basic

/-! Windows of a list, and the pages of a client that follows them. -/

namespace IdaMcp.Foundation.Window

variable {α β ε : Type}

structure Page (β : Type) where
  items : List β
  nextOffset : Option ℕ

def window (all : List β) (limit offset : ℕ) : Page β :=
  let items := (all.drop offset).take limit
  { items := items
    nextOffset := if offset + items.length < all.length then some (offset + items.length) else none }

inductive Follows (call : ℕ → Except ε (Page β)) : ℕ → List (Page β) → Prop
  | last {offset : ℕ} {page : Page β} (hpage : call offset = .ok page)
      (hend : page.nextOffset = none) : Follows call offset [page]
  | more {offset next : ℕ} {page : Page β} {pages : List (Page β)} (hpage : call offset = .ok page)
      (hnext : page.nextOffset = some next) (hpages : Follows call next pages) :
      Follows call offset (page :: pages)

structure Paged (call : ℕ → Except ε (Page β)) (all : List β) : Prop where
  answers : ∀ offset, ∃ page, call offset = .ok page ∧ (∀ next ∈ page.nextOffset, offset < next) ∧
    (page.nextOffset = none ↔ all.length ≤ offset + page.items.length)
  followed : ∃ pages, Follows call 0 pages ∧ pages.flatMap Page.items = all

theorem window_nextOffset_none {all : List β} {limit offset : ℕ} :
    (window all limit offset).nextOffset = none ↔
      all.length ≤ offset + (window all limit offset).items.length := by
  unfold window
  dsimp only
  split_ifs with h
  · simpa using h
  · simpa using h

theorem window_progress {all : List β} {limit offset next : ℕ} (hlimit : 0 < limit)
    (h : (window all limit offset).nextOffset = some next) :
    offset < next ∧ next ≤ all.length ∧ next = offset + (window all limit offset).items.length := by
  unfold window at h ⊢
  dsimp only at h ⊢
  split_ifs at h with hlt
  rw [Option.some_inj] at h
  subst h
  refine ⟨?_, Nat.le_of_lt hlt, rfl⟩
  rw [List.length_take, List.length_drop] at hlt ⊢
  omega

variable {call : ℕ → Except ε (Page β)} {all : List β} {limit : ℕ}

theorem follows_window (hcall : ∀ offset, call offset = .ok (window all limit offset))
    (hlimit : 0 < limit) (offset : ℕ) :
    ∃ pages, Follows call offset pages ∧ pages.flatMap Page.items = all.drop offset := by
  induction hleft : all.length - offset using Nat.strongRecOn generalizing offset with
  | ind left ih =>
    subst hleft
    cases hnext : (window all limit offset).nextOffset with
    | none =>
      refine ⟨[window all limit offset], .last (hcall offset) hnext, ?_⟩
      have hend := window_nextOffset_none.mp hnext
      simp only [window, List.length_take, List.length_drop] at hend
      rw [List.flatMap_cons, List.flatMap_nil, List.append_nil, window]
      exact List.take_of_length_le (by rw [List.length_drop]; omega)
    | some next =>
      obtain ⟨hlt, hle, hsum⟩ := window_progress hlimit hnext
      obtain ⟨pages, hpages, hitems⟩ := ih (all.length - next) (by omega) next rfl
      refine ⟨_, .more (hcall offset) hnext hpages, ?_⟩
      rw [List.flatMap_cons, hitems, hsum, ← List.drop_drop]
      exact List.prefix_iff_eq_append.mp (List.take_prefix _ _)

theorem paged_iff (hcall : ∀ offset, call offset = .ok (window all limit offset)) :
    Paged call all ↔ 0 < limit ∨ all = [] := by
  constructor
  · intro h
    by_contra hnot
    obtain ⟨hlimit, hne⟩ := not_or.mp hnot
    obtain ⟨page, hpage, hprogress, -⟩ := h.answers 0
    rw [hcall 0, Except.ok.injEq] at hpage
    have hpos : 0 < all.length := List.length_pos_of_ne_nil hne
    have hstuck : (window all limit 0).nextOffset = some 0 := by
      have hzero : limit = 0 := by omega
      simp [window, hzero, hpos]
    exact absurd (hprogress 0 (by rw [← hpage, hstuck]; rfl)) (by omega)
  · intro h
    have hanswers (offset : ℕ) (hprogress : ∀ next ∈ (window all limit offset).nextOffset, offset < next) :
        ∃ page, call offset = .ok page ∧ (∀ next ∈ page.nextOffset, offset < next) ∧
          (page.nextOffset = none ↔ all.length ≤ offset + page.items.length) :=
      ⟨_, hcall offset, hprogress, window_nextOffset_none⟩
    rcases h with hlimit | rfl
    · refine ⟨fun offset => hanswers offset fun next hnext => (window_progress hlimit hnext).1, ?_⟩
      simpa using follows_window hcall hlimit 0
    · have hlast (offset : ℕ) : (window ([] : List β) limit offset).nextOffset = none := by
        simp [window]
      refine ⟨fun offset => hanswers offset fun next hnext => ?_, [_], .last (hcall 0) (hlast 0), ?_⟩
      · rw [hlast] at hnext
        cases hnext
      · simp [window]

/-! A loop that counts what it keeps, and collects the items from `offset` on. -/

def scan (keep : α → Bool) (render : α → β) (offset limit : ℕ) :
    List α → ℕ → List β → List β × ℕ
  | [], total, out => (out, total)
  | x :: xs, total, out =>
    if keep x = false then scan keep render offset limit xs total out
    else if total + 1 ≤ offset then scan keep render offset limit xs (total + 1) out
    else if limit ≤ out.length then scan keep render offset limit xs (total + 1) out
    else scan keep render offset limit xs (total + 1) (out ++ [render x])

theorem scan_eq (keep : α → Bool) (render : α → β) (offset limit : ℕ) (xs : List α) (total : ℕ)
    (out : List β) : scan keep render offset limit xs total out =
      (out ++ (((xs.filter keep).map render).drop (offset - total)).take (limit - out.length),
        total + (xs.filter keep).length) := by
  induction xs generalizing total out with
  | nil => simp [scan]
  | cons x xs ih =>
    rw [scan]
    by_cases hkeep : keep x = true
    · rw [if_neg (by rw [hkeep]; exact Bool.noConfusion), List.filter_cons_of_pos hkeep,
        List.map_cons, List.length_cons]
      split_ifs with hskip hfull
      · have hoffset : offset - total = (offset - (total + 1)) + 1 := by omega
        rw [ih, hoffset, List.drop_succ_cons, Nat.add_assoc, Nat.add_comm 1]
      · have hlimit : limit - out.length = 0 := by omega
        rw [ih, hlimit, List.take_zero, List.take_zero, Nat.add_assoc, Nat.add_comm 1]
      · have hoffset : offset - total = 0 := by omega
        have hoffset' : offset - (total + 1) = 0 := by omega
        have hlimit : limit - out.length = (limit - (out ++ [render x]).length) + 1 := by
          rw [List.length_append, List.length_singleton]
          omega
        rw [ih, hoffset, hoffset', List.drop_zero, List.drop_zero, hlimit, List.take_succ_cons,
          List.append_assoc, Nat.add_assoc, Nat.add_comm 1]
        rfl
    · rw [if_pos (Bool.eq_false_iff.mpr hkeep), ih, List.filter_cons_of_neg hkeep]

/-! A walk along a chain of links. -/

structure Taken (τ : Type) where
  items : List τ
  truncated : Bool
  advanced : ℕ

def take {τ : Type} (advance : τ → Option τ) : ℕ → Option τ → Taken τ
  | _, none => { items := [], truncated := false, advanced := 0 }
  | 0, some _ => { items := [], truncated := true, advanced := 0 }
  | limit + 1, some item =>
    let rest := take advance limit (advance item)
    { items := item :: rest.items, truncated := rest.truncated, advanced := rest.advanced + 1 }

/-- The walk, which skips `offset` links before it collects. -/
def takeWindow {τ : Type} (advance : τ → Option τ) (limit : ℕ) : ℕ → Option τ → Taken τ
  | _, none => { items := [], truncated := false, advanced := 0 }
  | 0, some item => take advance limit (some item)
  | offset + 1, some item =>
    let rest := takeWindow advance limit offset (advance item)
    { rest with advanced := rest.advanced + 1 }

theorem advanced_take_le {τ : Type} (advance : τ → Option τ) (limit : ℕ) (current : Option τ) :
    (take advance limit current).advanced ≤ limit := by
  induction limit generalizing current with
  | zero => cases current <;> exact Nat.le_refl 0
  | succ limit ih =>
    cases current with
    | none => exact Nat.zero_le _
    | some item => exact Nat.succ_le_succ (ih (advance item))

theorem advanced_takeWindow_le {τ : Type} (advance : τ → Option τ) (limit offset : ℕ)
    (current : Option τ) : (takeWindow advance limit offset current).advanced ≤ offset + limit := by
  induction offset generalizing current with
  | zero =>
    cases current with
    | none => exact Nat.zero_le _
    | some item =>
      rw [Nat.zero_add]
      exact advanced_take_le advance limit (some item)
  | succ offset ih =>
    cases current with
    | none => exact Nat.zero_le _
    | some item =>
      have hrest := ih (advance item)
      rw [takeWindow]
      dsimp only
      omega

abbrev Link (α : Type) : Type := α × List α

def link : List α → Option (Link α)
  | [] => none
  | x :: xs => some (x, xs)

theorem take_link (limit : ℕ) (xs : List α) :
    ((take (fun item : Link α => link item.2) limit (link xs)).items.map Prod.fst = xs.take limit) ∧
      (take (fun item : Link α => link item.2) limit (link xs)).truncated =
        decide (limit < xs.length) := by
  induction limit generalizing xs with
  | zero => cases xs <;> simp [take, link]
  | succ limit ih =>
    cases xs with
    | nil => simp [take, link]
    | cons x xs =>
      obtain ⟨hitems, htruncated⟩ := ih xs
      rw [link, take, List.map_cons, List.take_succ_cons, List.length_cons]
      dsimp only
      rw [hitems, htruncated, decide_eq_decide]
      exact ⟨rfl, (Nat.add_lt_add_iff_right).symm⟩

theorem takeWindow_link (limit offset : ℕ) (xs : List α) :
    ((takeWindow (fun item : Link α => link item.2) limit offset (link xs)).items.map Prod.fst =
      (xs.drop offset).take limit) ∧
      (takeWindow (fun item : Link α => link item.2) limit offset (link xs)).truncated =
        decide (offset + limit < xs.length) := by
  induction offset generalizing xs with
  | zero =>
    cases xs with
    | nil => simp [takeWindow, link]
    | cons x xs =>
      rw [List.drop_zero, Nat.zero_add]
      exact take_link limit (x :: xs)
  | succ offset ih =>
    cases xs with
    | nil => simp [takeWindow, link]
    | cons x xs =>
      obtain ⟨hitems, htruncated⟩ := ih xs
      rw [link, takeWindow, List.drop_succ_cons, List.length_cons]
      refine ⟨hitems, ?_⟩
      dsimp only
      rw [htruncated, decide_eq_decide]
      omega

end IdaMcp.Foundation.Window
