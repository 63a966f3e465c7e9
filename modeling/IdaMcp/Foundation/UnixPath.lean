import Mathlib.Data.List.Basic

/-! The last component of a Unix path. -/

namespace IdaMcp.Foundation.UnixPath

def isSkipped (segment : List Char) : Bool := segment = [] || segment = ['.']

def components (path : List Char) : List (List Char) := (path.splitOn '/').filter (!isSkipped ·)

def isParent (component : List Char) : Bool := component = ['.', '.']

def fileName (path : List Char) : Option (List Char) :=
  (components path).getLast?.filter (!isParent ·)

structure IsName (name : List Char) : Prop where
  noSeparator : '/' ∉ name
  notSkipped : isSkipped name = false
  notParent : isParent name = false

theorem noSeparator_of_mem_splitOn {path segment : List Char} (h : segment ∈ path.splitOn '/') :
    '/' ∉ segment := by
  induction path generalizing segment with
  | nil =>
    rw [List.splitOn_nil, List.mem_singleton] at h
    simp [h]
  | cons c path ih =>
    rw [List.splitOn_cons_eq_if_modifyHead] at h
    obtain ⟨first, rest, hsplit⟩ := List.exists_cons_of_ne_nil (List.splitOn_ne_nil '/' path)
    split_ifs at h with hc
    · rcases List.mem_cons.mp h with rfl | hmem
      · simp
      · exact ih hmem
    · rw [hsplit, List.modifyHead_cons] at h
      rcases List.mem_cons.mp h with rfl | hmem
      · have hfirst : '/' ∉ first := ih (by simp [hsplit])
        simpa [Ne.symm (by simpa using hc)] using hfirst
      · apply ih
        simp [hsplit, hmem]

theorem fileName_eq_some {path name : List Char} (h : fileName path = some name) : IsName name := by
  rw [fileName, Option.filter_eq_some_iff] at h
  obtain ⟨hmem, hskipped⟩ := List.mem_filter.mp (List.mem_of_getLast? h.1)
  exact ⟨noSeparator_of_mem_splitOn hmem, by simpa using hskipped, by simpa using h.2⟩

theorem IsName.fileName_eq {name : List Char} (h : IsName name) : fileName name = some name := by
  rw [fileName, components, List.splitOn_eq_singleton h.noSeparator]
  simp [h.notSkipped, h.notParent]

theorem fileName_eq_none {name : List Char} (hsep : '/' ∉ name) (h : ¬IsName name) :
    fileName name = none := by
  rw [fileName, components, List.splitOn_eq_singleton hsep]
  by_cases hskipped : isSkipped name = true
  · simp [hskipped]
  · have hparent : isParent name = true := by
      by_contra hparent
      exact h ⟨hsep, by simpa using hskipped, by simpa using hparent⟩
    simp [hskipped, hparent]

end IdaMcp.Foundation.UnixPath
