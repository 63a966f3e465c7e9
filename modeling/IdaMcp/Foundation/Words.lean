import Mathlib.Data.List.Basic
import Mathlib.Tactic.TypeStar

/-! The words of a text, between runs of separators. -/

namespace IdaMcp.Foundation.Words

variable {α : Type*} {apart : α → Bool} {word : List α}

def words (apart : α → Bool) (text : List α) : List (List α) := text.splitOnP apart

theorem not_mem_words_nil (hword : word ≠ []) : word ∉ words apart [] := by
  simp [words, hword]

theorem mem_words_skip (hword : word ≠ []) {run : List α} (hrun : run.all apart = true) (text : List α) :
    word ∈ words apart (run ++ text) ↔ word ∈ words apart text := by
  induction run with
  | nil => rfl
  | cons c run ih =>
    rw [List.all_cons, Bool.and_eq_true] at hrun
    rw [← ih hrun.2, words, words, List.cons_append, ← List.nil_append (c :: _),
      List.splitOnP_append_cons [] _ hrun.1]
    simp [hword]

theorem mem_words_append (hword : word ≠ []) {run : List α} (hne : run ≠ []) (hrun : run.all apart = true)
    (s t : List α) : word ∈ words apart (s ++ run ++ t) ↔ word ∈ words apart s ∨ word ∈ words apart t := by
  obtain ⟨c, run, rfl⟩ := List.exists_cons_of_ne_nil hne
  rw [List.all_cons, Bool.and_eq_true] at hrun
  rw [← mem_words_skip hword hrun.2 t, words, words, words, List.append_assoc, List.cons_append,
    List.splitOnP_append_cons _ _ hrun.1, List.mem_append]

theorem mem_words_intercalate (hword : word ≠ []) {run : List α} (hne : run ≠ []) (hrun : run.all apart = true)
    (texts : List (List α)) :
    word ∈ words apart (run.intercalate texts) ↔ ∃ text ∈ texts, word ∈ words apart text := by
  induction texts with
  | nil => exact iff_of_false (not_mem_words_nil hword) (by simp)
  | cons text texts ih =>
    cases texts with
    | nil => simp
    | cons next texts =>
      rw [List.intercalate_cons_cons, mem_words_append hword hne hrun, ih]
      simp

end IdaMcp.Foundation.Words
