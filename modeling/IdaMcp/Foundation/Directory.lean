import Mathlib.Logic.Function.Basic
import Mathlib.Data.List.Basic

namespace IdaMcp.Foundation

abbrev Inode := ℕ

/-- A directory of files: names refer to inodes, and inodes have a content. -/
structure Directory (ν β : Type*) where
  entry : ν → Option Inode
  content : Inode → List β
  next : Inode
  entry_lt : ∀ name file, entry name = some file → file < next

namespace Directory

variable {ν β : Type*} {dir dir' : Directory ν β} {name name' : ν} {file file' : Inode} {bytes : List β}

def empty : Directory ν β where
  entry := fun _ => none
  content := fun _ => []
  next := 0
  entry_lt := by intro name file h; cases h

def append (dir : Directory ν β) (file : Inode) (bytes : List β) : Directory ν β :=
  { dir with content := Function.update dir.content file (dir.content file ++ bytes) }

@[simp] theorem append_entry : (dir.append file bytes).entry = dir.entry := rfl

theorem append_content_of_ne (h : file' ≠ file) :
    (dir.append file bytes).content file' = dir.content file' :=
  Function.update_of_ne h ..

theorem append_content_self : (dir.append file bytes).content file = dir.content file ++ bytes :=
  Function.update_self ..

def Keeps (dir dir' : Directory ν β) (name : ν) : Prop :=
  ∀ file, dir.entry name = some file → dir'.entry name = some file ∧ dir'.content file = dir.content file

theorem Keeps.refl : Keeps dir dir name := fun _ h => ⟨h, rfl⟩

theorem keeps_append (h : dir.entry name ≠ some file) : Keeps dir (dir.append file bytes) name := by
  intro file' hfile
  refine ⟨hfile, append_content_of_ne ?_⟩
  rintro rfl
  exact h hfile

def Unshared (dir : Directory ν β) : Prop :=
  ∀ name name' file, dir.entry name = some file → dir.entry name' = some file → name = name'

theorem unshared_empty : (empty : Directory ν β).Unshared := by
  intro name name' file h
  cases h

def opened (dir : Directory ν β) (name : ν) : Inode := (dir.entry name).getD dir.next

theorem Unshared.eq_of_opened (hd : dir.Unshared) (h : dir.entry name' = some (dir.opened name)) :
    name' = name := by
  unfold opened at h
  cases hentry : dir.entry name with
  | none =>
    rw [hentry, Option.getD_none] at h
    exact absurd (dir.entry_lt name' _ h) (Nat.lt_irrefl _)
  | some file =>
    rw [hentry, Option.getD_some] at h
    exact hd name' name file h hentry

variable [DecidableEq ν]

def createNew (dir : Directory ν β) (name : ν) (bytes : List β) : Option (Directory ν β) :=
  if dir.entry name = none then
    some {
      entry := Function.update dir.entry name (some dir.next)
      content := Function.update dir.content dir.next bytes
      next := dir.next + 1
      entry_lt := by
        intro name' file h
        by_cases hn : name' = name
        · subst hn
          rw [Function.update_self, Option.some.injEq] at h
          exact h ▸ Nat.lt_succ_self dir.next
        · rw [Function.update_of_ne hn] at h
          exact Nat.lt_succ_of_lt (dir.entry_lt name' file h) }
  else none

def hardLink (dir : Directory ν β) (original link : ν) : Option (Directory ν β) :=
  if dir.entry link = none ∧ (dir.entry original).isSome then
    some { dir with
      entry := Function.update dir.entry link (dir.entry original)
      entry_lt := by
        intro name file h
        by_cases hn : name = link
        · subst hn
          rw [Function.update_self] at h
          exact dir.entry_lt _ file h
        · rw [Function.update_of_ne hn] at h
          exact dir.entry_lt name file h }
  else none

def unlink (dir : Directory ν β) (name : ν) : Directory ν β :=
  { dir with
    entry := Function.update dir.entry name none
    entry_lt := by
      intro name' file h
      by_cases hn : name' = name
      · subst hn
        rw [Function.update_self] at h
        cases h
      · rw [Function.update_of_ne hn] at h
        exact dir.entry_lt name' file h }

def openTruncate (dir : Directory ν β) (name : ν) : Directory ν β where
  entry := Function.update dir.entry name (some (dir.opened name))
  content := Function.update dir.content (dir.opened name) []
  next := max dir.next (dir.opened name + 1)
  entry_lt := by
    intro name' file h
    by_cases hn : name' = name
    · subst hn
      rw [Function.update_self, Option.some.injEq] at h
      rw [← h]
      exact Nat.lt_of_lt_of_le (Nat.lt_succ_self _) (Nat.le_max_right ..)
    · rw [Function.update_of_ne hn] at h
      exact Nat.lt_of_lt_of_le (dir.entry_lt name' file h) (Nat.le_max_left ..)

theorem createNew_spec (h : dir.createNew name bytes = some dir') :
    dir.entry name = none ∧ dir'.entry = Function.update dir.entry name (some dir.next) ∧
      dir'.content = Function.update dir.content dir.next bytes ∧ dir'.next = dir.next + 1 := by
  unfold createNew at h
  split_ifs at h with hn
  cases h
  exact ⟨hn, rfl, rfl, rfl⟩

theorem hardLink_spec (h : dir.hardLink name name' = some dir') :
    dir.entry name' = none ∧ (∃ file, dir.entry name = some file ∧
      dir'.entry = Function.update dir.entry name' (some file)) ∧ dir'.content = dir.content ∧
      dir'.next = dir.next := by
  unfold hardLink at h
  split_ifs at h with hn
  obtain ⟨file, hfile⟩ := Option.isSome_iff_exists.mp hn.2
  cases h
  exact ⟨hn.1, ⟨file, hfile, by rw [← hfile]⟩, rfl, rfl⟩

@[simp] theorem unlink_content : (dir.unlink name).content = dir.content := rfl

theorem unlink_entry_of_ne (h : name' ≠ name) : (dir.unlink name).entry name' = dir.entry name' :=
  Function.update_of_ne h ..

theorem unlink_entry_self : (dir.unlink name).entry name = none := Function.update_self ..

theorem keeps_createNew (h : dir.createNew name bytes = some dir') (name' : ν) : Keeps dir dir' name' := by
  obtain ⟨hnone, hentry, hcontent, -⟩ := createNew_spec h
  intro file hfile
  have hname : name' ≠ name := by
    rintro rfl
    rw [hnone] at hfile
    cases hfile
  have hne : file ≠ dir.next := Nat.ne_of_lt (dir.entry_lt name' file hfile)
  rw [hentry, hcontent, Function.update_of_ne hname, Function.update_of_ne hne]
  exact ⟨hfile, rfl⟩

theorem keeps_hardLink (h : dir.hardLink name name' = some dir') (name'' : ν) : Keeps dir dir' name'' := by
  obtain ⟨hnone, ⟨original, -, hentry⟩, hcontent, -⟩ := hardLink_spec h
  intro file hfile
  have hname : name'' ≠ name' := by
    rintro rfl
    rw [hnone] at hfile
    cases hfile
  rw [hentry, hcontent, Function.update_of_ne hname]
  exact ⟨hfile, rfl⟩

theorem keeps_unlink (h : name' ≠ name) : Keeps dir (dir.unlink name) name' := by
  intro file hfile
  rw [unlink_entry_of_ne h]
  exact ⟨hfile, rfl⟩

theorem Unshared.update (hd : dir.Unshared) {entry : ν → Option Inode}
    (hfile : ∀ name', dir.entry name' = some file → name' = name)
    (hentry : entry = Function.update dir.entry name (some file)) (name₁ name₂ : ν) (file' : Inode)
    (h₁ : entry name₁ = some file') (h₂ : entry name₂ = some file') : name₁ = name₂ := by
  rw [hentry] at h₁ h₂
  by_cases hn₁ : name₁ = name
  · by_cases hn₂ : name₂ = name
    · rw [hn₁, hn₂]
    · rw [hn₁, Function.update_self, Option.some.injEq] at h₁
      rw [Function.update_of_ne hn₂, ← h₁] at h₂
      exact absurd (hfile name₂ h₂) hn₂
  · rw [Function.update_of_ne hn₁] at h₁
    by_cases hn₂ : name₂ = name
    · rw [hn₂, Function.update_self, Option.some.injEq] at h₂
      rw [← h₂] at h₁
      exact absurd (hfile name₁ h₁) hn₁
    · rw [Function.update_of_ne hn₂] at h₂
      exact hd name₁ name₂ file' h₁ h₂

theorem Unshared.openTruncate (hd : dir.Unshared) (name : ν) : (dir.openTruncate name).Unshared :=
  hd.update (fun _ h => hd.eq_of_opened h) rfl

theorem Unshared.createNew (hd : dir.Unshared) (h : dir.createNew name bytes = some dir') : dir'.Unshared := by
  apply hd.update _ (createNew_spec h).2.1
  intro name' hentry
  exact absurd (dir.entry_lt name' _ hentry) (Nat.lt_irrefl _)

theorem Unshared.unlink (hd : dir.Unshared) (name : ν) : (dir.unlink name).Unshared := by
  intro name₁ name₂ file h₁ h₂
  by_cases hn₁ : name₁ = name
  · rw [hn₁, unlink_entry_self] at h₁
    cases h₁
  · by_cases hn₂ : name₂ = name
    · rw [hn₂, unlink_entry_self] at h₂
      cases h₂
    · rw [unlink_entry_of_ne hn₁] at h₁
      rw [unlink_entry_of_ne hn₂] at h₂
      exact hd name₁ name₂ file h₁ h₂

theorem keeps_openTruncate (hd : dir.Unshared) (h : name' ≠ name) : Keeps dir (dir.openTruncate name) name' := by
  intro file hfile
  have hne : file ≠ dir.opened name := by
    rintro rfl
    exact h (hd.eq_of_opened hfile)
  exact ⟨(Function.update_of_ne h ..).trans hfile, Function.update_of_ne hne ..⟩

end Directory

end IdaMcp.Foundation
