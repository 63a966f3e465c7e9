import IdaMcp.Slices.Extract

namespace IdaMcp.Slices

open Foundation Directory

variable {dest : String} {s s' : State} {u v : ℕ} {c c' : Call} {a : Action} {choice : Choice}
  {dir dir' : Directory String UInt8} {path path' name : String} {file file' : Inode} {who : Option ℕ}

def Request.holdsSlice (r : Request) : Bool := r.sliceBytes.length = r.slice.size

namespace Position

def isDone : Position → Bool
  | done _ => true
  | _ => false

def result : Position → Option (Except ToolError SliceFile)
  | removeFile result | done result => some result
  | _ => none

def returns (p : Position) (sliceFile : SliceFile) : Bool :=
  match p.result with
  | some (.ok returned) => returned = sliceFile
  | _ => false

end Position

namespace Call

def holds (c : Call) : Option (String × Inode) := if c.position.isDone then none else c.owned

def Published (dest : String) (dir : Directory String UInt8) (c : Call) : Prop :=
  ∃ file, dir.entry dest = some file ∧ dir.content file = c.request.sliceBytes ∧
    c.request.holdsSlice = true

def Returns (dest : String) (dir : Directory String UInt8) (c : Call)
    (result : Except ToolError SliceFile) : Prop :=
  result.isOk = true → c.Published dest dir

def Writes (dest : String) (dir : Directory String UInt8) (c : Call) (file : Inode) : Prop :=
  c.owned = some (partialPath dest c.request, file) ∧ dir.entry dest ≠ some file

/-- What a call has made of the directory when it comes to its position. -/
def Stands (dest : String) (dir : Directory String UInt8) (c : Call) : Prop :=
  match c.position with
  | .metadata | .createPartial => c.owned = none
  | .writeSlice file copied => c.Writes dest dir file ∧
      dir.content file = c.request.sliceBytes.take copied ∧ copied ≤ c.request.sliceBytes.length
  | .syncAll file | .link file => c.Writes dest dir file ∧
      dir.content file = c.request.sliceBytes ∧ c.request.holdsSlice = true
  | .existingSlice => True
  | .openExisting => ∃ file, dir.entry dest = some file ∧
      (dir.content file).length = c.request.slice.size
  | .sliceMatches file compared => dir.entry dest = some file ∧
      (dir.content file).length = c.request.slice.size ∧ compared ≤ c.request.sliceBytes.length ∧
      (dir.content file).take compared = c.request.sliceBytes.take compared
  | .removeFile result => c.owned.isSome = true ∧ c.Returns dest dir result
  | .done result => c.Returns dest dir result

end Call

/-- A call has compared all that its input has of the slice, and that is not the whole slice. -/
def endsEarly (s : State) : Action → Bool
  | .run u .proceed =>
    match s.call u with
    | some ⟨request, .sliceMatches _ compared, _, _⟩ =>
      request.sliceBytes.drop compared = [] && !request.holdsSlice
    | _ => false
  | _ => false

structure Sound (dest : String) (s : State) : Prop where
  fresh : ∀ u, s.nextCall ≤ u → s.call u = none
  stands : ∀ u c, s.call u = some c → c.Stands dest s.dir
  named : ∀ u c path file, s.call u = some c → c.holds = some (path, file) →
    path = partialPath dest c.request ∧ s.dir.entry path = some file
  alone : ∀ u c path file name, s.call u = some c → c.owned = some (path, file) →
    s.dir.entry name = some file →
      name = dest ∨ name = path ∧ (c.position.isDone = true → c.abandoned = true)
  below : ∀ u c path file, s.call u = some c → c.owned = some (path, file) → file < s.dir.next
  apart : ∀ u v c c' path path' file file', s.call u = some c → s.call v = some c' → u ≠ v →
    c.owned = some (path, file) → c'.owned = some (path', file') → file ≠ file'
  once : ∀ u v c c', s.call u = some c → s.call v = some c' → c.position.returns .created = true →
    c'.position.returns .created = true → u = v
  complete : ∀ file, s.dir.entry dest = some file → file ∈ s.foreign ∨
    ∃ u c, s.call u = some c ∧ c.request.holdsSlice = true ∧
      s.dir.content file = c.request.sliceBytes

theorem partialPath_ne (r : Request) : partialPath dest r ≠ dest := by
  intro h
  have hlength := congrArg String.length h
  simp only [partialPath, String.length_append] at hlength
  have htext : (".partial-" : String).length = 9 := rfl
  omega

structure Frame (dest : String) (s : State) (who : Option ℕ) (dir' : Directory String UInt8) : Prop where
  kept : Keeps s.dir dir' dest
  next_le : s.dir.next ≤ dir'.next
  held : ∀ v c path file, some v ≠ who → s.call v = some c → c.holds = some (path, file) →
    dir'.entry path = some file ∧ dir'.content file = s.dir.content file ∧
      (s.dir.entry dest ≠ some file → dir'.entry dest ≠ some file)
  owned : ∀ v c path file name, some v ≠ who → s.call v = some c → c.owned = some (path, file) →
    dir'.entry name = some file → s.dir.entry name = some file

theorem Call.Stands.frame (h : c.Stands dest dir) (hkept : Keeps dir dir' dest)
    (hheld : ∀ path file, c.holds = some (path, file) → dir'.content file = dir.content file ∧
      (dir.entry dest ≠ some file → dir'.entry dest ≠ some file)) : c.Stands dest dir' := by
  obtain ⟨request, position, owned, abandoned⟩ := c
  have hpublished {c : Call} : c.Published dest dir → c.Published dest dir' := by
    rintro ⟨file, hentry, hcontent, hholds⟩
    obtain ⟨hentry', hcontent'⟩ := hkept file hentry
    exact ⟨file, hentry', hcontent'.trans hcontent, hholds⟩
  cases position with
  | metadata | createPartial => exact h
  | existingSlice => trivial
  | writeSlice file copied =>
    obtain ⟨⟨howned, hentry⟩, hcontent, hle⟩ := h
    obtain ⟨hcontent', hentry'⟩ := hheld _ file howned
    exact ⟨⟨howned, hentry' hentry⟩, hcontent'.trans hcontent, hle⟩
  | syncAll file | link file =>
    obtain ⟨⟨howned, hentry⟩, hcontent, hholds⟩ := h
    obtain ⟨hcontent', hentry'⟩ := hheld _ file howned
    exact ⟨⟨howned, hentry' hentry⟩, hcontent'.trans hcontent, hholds⟩
  | openExisting =>
    obtain ⟨file, hentry, hlength⟩ := h
    obtain ⟨hentry', hcontent'⟩ := hkept file hentry
    exact ⟨file, hentry', (congrArg List.length hcontent').trans hlength⟩
  | sliceMatches file compared =>
    obtain ⟨hentry, hlength, hle, htake⟩ := h
    obtain ⟨hentry', hcontent'⟩ := hkept file hentry
    refine ⟨hentry', ?_, hle, ?_⟩
    · rw [hcontent']
      exact hlength
    · rw [hcontent']
      exact htake
  | removeFile result => exact ⟨h.1, fun hok => hpublished (h.2 hok)⟩
  | done result => exact fun hok => hpublished (h hok)

theorem Call.published_of_returns (h : c.Stands dest dir) {sliceFile : SliceFile}
    (hreturns : c.position.returns sliceFile = true) : c.Published dest dir := by
  obtain ⟨request, position, owned, abandoned⟩ := c
  cases position with
  | removeFile result =>
    cases result with
    | error error => cases hreturns
    | ok sliceFile => exact h.2 rfl
  | done result =>
    cases result with
    | error error => cases hreturns
    | ok sliceFile => exact h rfl
  | _ => cases hreturns

theorem Sound.setCall (h : Sound dest s) (hc : s.call u = some c) (hframe : Frame dest s (some u) dir')
    (hrequest : c'.request = c.request) (hstands : c'.Stands dest dir')
    (hnamed : ∀ path file, c'.holds = some (path, file) →
      path = partialPath dest c'.request ∧ dir'.entry path = some file)
    (halone : ∀ path file name, c'.owned = some (path, file) → dir'.entry name = some file →
      name = dest ∨ name = path ∧ (c'.position.isDone = true → c'.abandoned = true))
    (hbelow : ∀ path file, c'.owned = some (path, file) → file < dir'.next)
    (hapart : ∀ v c'' path path' file file', s.call v = some c'' → u ≠ v →
      c'.owned = some (path, file) → c''.owned = some (path', file') → file ≠ file')
    (honce : c'.position.returns .created = true →
      c.position.returns .created = true ∨ s.dir.entry dest = none)
    (hcomplete : ∀ file, dir'.entry dest = some file → s.dir.entry dest = some file ∨
      dir'.content file = c.request.sliceBytes ∧ c.request.holdsSlice = true) :
    Sound dest ((s.setDir dir').setCall u c') := by
  -- a call of the new state is the one that has moved, or another one that has not
  have calls {v : ℕ} {d : Call} (hv : ((s.setDir dir').setCall u c').call v = some d) :
      v = u ∧ d = c' ∨ v ≠ u ∧ s.call v = some d := by
    by_cases hvu : v = u
    · subst hvu
      rw [State.setCall_self] at hv
      exact .inl ⟨rfl, (Option.some.inj hv).symm⟩
    · rw [State.setCall_of_ne hvu] at hv
      exact .inr ⟨hvu, hv⟩
  have other {v : ℕ} (hvu : v ≠ u) : some v ≠ some u := fun heq => hvu (Option.some.inj heq)
  have first {v : ℕ} {d : Call} (hv : s.call v = some d) (hd : d.position.returns .created = true)
      (hc' : c'.position.returns .created = true) : v = u := by
    rcases honce hc' with hcreated | hnone
    · exact h.once v u d c hv hc hd hcreated
    · obtain ⟨file, hentry, -⟩ := Call.published_of_returns (h.stands v d hv) hd
      rw [hnone] at hentry
      cases hentry
  constructor
  · intro v hv
    have hvu : v ≠ u := by
      rintro rfl
      rw [h.fresh v hv] at hc
      cases hc
    rw [State.setCall_of_ne hvu]
    exact h.fresh v hv
  · intro v d hv
    rcases calls hv with ⟨-, rfl⟩ | ⟨hvu, hv⟩
    · exact hstands
    · apply (h.stands v d hv).frame hframe.kept
      intro path file hholds
      exact (hframe.held v d path file (other hvu) hv hholds).2
  · intro v d path file hv hholds
    rcases calls hv with ⟨-, rfl⟩ | ⟨hvu, hv⟩
    · exact hnamed path file hholds
    · exact ⟨(h.named v d path file hv hholds).1, (hframe.held v d path file (other hvu) hv hholds).1⟩
  · intro v d path file name hv howned hname
    rcases calls hv with ⟨-, rfl⟩ | ⟨hvu, hv⟩
    · exact halone path file name howned hname
    · apply h.alone v d path file name hv howned
      exact hframe.owned v d path file name (other hvu) hv howned hname
  · intro v d path file hv howned
    rcases calls hv with ⟨-, rfl⟩ | ⟨hvu, hv⟩
    · exact hbelow path file howned
    · exact Nat.lt_of_lt_of_le (h.below v d path file hv howned) hframe.next_le
  · intro v v' d d' path path' file file' hv hv' hne howned howned'
    rcases calls hv with ⟨rfl, rfl⟩ | ⟨hvu, hold⟩
    · rcases calls hv' with ⟨rfl, rfl⟩ | ⟨hvu', hold'⟩
      · exact (hne rfl).elim
      · exact hapart v' d' path path' file file' hold' hne howned howned'
    · rcases calls hv' with ⟨rfl, rfl⟩ | ⟨hvu', hold'⟩
      · exact (hapart v d path' path file' file hold hne.symm howned' howned).symm
      · exact h.apart v v' d d' path path' file file' hold hold' hne howned howned'
  · intro v v' d d' hv hv' hd hd'
    rcases calls hv with ⟨rfl, rfl⟩ | ⟨hvu, hold⟩
    · rcases calls hv' with ⟨rfl, -⟩ | ⟨hvu', hold'⟩
      · rfl
      · exact (first hold' hd' hd).symm
    · rcases calls hv' with ⟨rfl, rfl⟩ | ⟨hvu', hold'⟩
      · exact first hold hd hd'
      · exact h.once v v' d d' hold hold' hd hd'
  · intro file hentry
    have move {v : ℕ} {d : Call} (hv : s.call v = some d) :
        ∃ v d', ((s.setDir dir').setCall u c').call v = some d' ∧ d'.request = d.request := by
      by_cases hvu : v = u
      · subst hvu
        rw [hc] at hv
        cases hv
        exact ⟨v, c', State.setCall_self .., hrequest⟩
      · exact ⟨v, d, (State.setCall_of_ne hvu ..).trans hv, rfl⟩
    rcases hcomplete file hentry with hold | ⟨hcontent, hholds⟩
    · rcases h.complete file hold with hforeign | ⟨v, d, hv, hholds, hcontent⟩
      · exact .inl hforeign
      · obtain ⟨v', d', hv', hsame⟩ := move hv
        rw [← hsame] at hholds hcontent
        exact .inr ⟨v', d', hv', hholds, (hframe.kept file hold).2.trans hcontent⟩
    · refine .inr ⟨u, c', State.setCall_self .., ?_, ?_⟩
      · rw [hrequest]
        exact hholds
      · rw [hrequest]
        exact hcontent

theorem Sound.frame_refl (h : Sound dest s) : Frame dest s who s.dir where
  kept := .refl
  next_le := Nat.le_refl _
  held v c path file _ hv hholds := ⟨(h.named v c path file hv hholds).2, rfl, id⟩
  owned _ _ _ _ _ _ _ _ hname := hname

theorem Sound.goto (h : Sound dest s) (hc : s.call u = some c) (hgoing : c.position.isDone = false)
    (hrequest : c'.request = c.request) (howned : c'.owned = c.owned) (hstands : c'.Stands dest s.dir)
    (hdone : c'.position.isDone = true → c'.owned = none ∨ c'.abandoned = true)
    (honce : c'.position.returns .created = true → c.position.returns .created = true) :
    Sound dest (s.setCall u c') := by
  have hholds {path : String} {file : Inode} (hc' : c'.holds = some (path, file)) :
      c.holds = some (path, file) := by
    unfold Call.holds at hc' ⊢
    split_ifs at hc' with hnot
    rw [hgoing, ← howned]
    exact hc'
  refine Sound.setCall h hc h.frame_refl hrequest hstands ?_ ?_ ?_ ?_
    (fun hcreated => .inl (honce hcreated)) (fun file hentry => .inl hentry)
  · intro path file hc'
    rw [hrequest]
    exact h.named u c path file hc (hholds hc')
  · intro path file name hc' hname
    rcases h.alone u c path file name hc (howned ▸ hc') hname with hdest | ⟨hpath, -⟩
    · exact .inl hdest
    · refine .inr ⟨hpath, fun hend => ?_⟩
      rcases hdone hend with hnone | habandoned
      · rw [hnone] at hc'
        cases hc'
      · exact habandoned
  · intro path file hc'
    exact h.below u c path file hc (howned ▸ hc')
  · intro v d path path' file file' hv huv hc'
    exact h.apart u v c d path path' file file' hc hv huv (howned ▸ hc')

theorem Call.owned_of_holds (h : c.holds = some (path, file)) : c.owned = some (path, file) := by
  unfold Call.holds at h
  split_ifs at h
  exact h

theorem Sound.frame_createNew (h : Sound dest s) {bytes : List UInt8}
    (hnew : s.dir.createNew name bytes = some dir') : Frame dest s who dir' := by
  obtain ⟨hnone, hentry, hcontent, hnext⟩ := createNew_spec hnew
  constructor
  · exact keeps_createNew hnew dest
  · rw [hnext]
    exact Nat.le_succ _
  · intro v c path file _ hv hholds
    have hold := (h.named v c path file hv hholds).2
    obtain ⟨hkept, hsame⟩ := keeps_createNew hnew path file hold
    refine ⟨hkept, hsame, ?_⟩
    intro hdest hdest'
    by_cases hname : dest = name
    · subst hname
      rw [hentry, Function.update_self, Option.some.injEq] at hdest'
      exact Nat.ne_of_gt (s.dir.entry_lt path file hold) hdest'
    · rw [hentry, Function.update_of_ne hname] at hdest'
      exact hdest hdest'
  · intro v c path file name' _ hv howned hname'
    by_cases hname : name' = name
    · subst hname
      rw [hentry, Function.update_self, Option.some.injEq] at hname'
      exact (Nat.ne_of_gt (h.below v c path file hv howned) hname').elim
    · rwa [hentry, Function.update_of_ne hname] at hname'

theorem Sound.frame_append (h : Sound dest s) (hc : s.call u = some c)
    (howned : c.owned = some (path, file)) (hdest : s.dir.entry dest ≠ some file) (bytes : List UInt8) :
    Frame dest s (some u) (s.dir.append file bytes) := by
  refine ⟨keeps_append hdest, Nat.le_refl _, ?_, fun v c path file name _ _ _ hname => hname⟩
  intro v c' path' file' hv hv' hholds
  have hne : file' ≠ file := by
    apply h.apart v u c' c path' path file' file hv' hc _ (Call.owned_of_holds hholds) howned
    rintro rfl
    exact hv rfl
  exact ⟨(h.named v c' path' file' hv' hholds).2, append_content_of_ne hne, id⟩

theorem Sound.frame_hardLink (h : Sound dest s) (hc : s.call u = some c)
    (hholds : c.holds = some (path, file)) (hlink : s.dir.hardLink path dest = some dir') :
    Frame dest s (some u) dir' := by
  obtain ⟨hnone, ⟨original, horiginal, hentry⟩, hcontent, hnext⟩ := hardLink_spec hlink
  rw [(h.named u c path file hc hholds).2, Option.some.injEq] at horiginal
  subst horiginal
  have hne {v : ℕ} {d : Call} {path' : String} {file' : Inode} (hv : some v ≠ some u)
      (hd : s.call v = some d) (howned : d.owned = some (path', file')) : file ≠ file' := by
    apply h.apart u v c d path path' file file' hc hd _ (Call.owned_of_holds hholds) howned
    rintro rfl
    exact hv rfl
  constructor
  · exact keeps_hardLink hlink dest
  · rw [hnext]
  · intro v d path' file' hv hd hholds'
    obtain ⟨hkept, hsame⟩ := keeps_hardLink hlink path' file' (h.named v d path' file' hd hholds').2
    refine ⟨hkept, hsame, fun _ hdest => ?_⟩
    rw [hentry, Function.update_self, Option.some.injEq] at hdest
    exact hne hv hd (Call.owned_of_holds hholds') hdest
  · intro v d path' file' name hv hd howned hname
    by_cases hdest : name = dest
    · subst hdest
      rw [hentry, Function.update_self, Option.some.injEq] at hname
      exact (hne hv hd howned hname).elim
    · rwa [hentry, Function.update_of_ne hdest] at hname

theorem Sound.frame_unlink (h : Sound dest s) (hc : s.call u = some c)
    (hholds : c.holds = some (path, file)) : Frame dest s (some u) (s.dir.unlink path) := by
  obtain ⟨hpath, hentry⟩ := h.named u c path file hc hholds
  have hdest : dest ≠ path := by
    rw [hpath]
    exact (partialPath_ne _).symm
  refine ⟨keeps_unlink hdest, Nat.le_refl _, ?_, ?_⟩
  · intro v d path' file' hv hd hholds'
    have hentry' := (h.named v d path' file' hd hholds').2
    have hne : path' ≠ path := by
      rintro rfl
      have hsame := Option.some.inj (hentry.symm.trans hentry')
      refine h.apart u v c d _ _ file file' hc hd ?_ (Call.owned_of_holds hholds)
        (Call.owned_of_holds hholds') hsame
      rintro rfl
      exact hv rfl
    refine ⟨(unlink_entry_of_ne hne).trans hentry', rfl, fun hnot => ?_⟩
    rw [unlink_entry_of_ne hdest]
    exact hnot
  · intro v d path' file' name _ _ _ hname
    by_cases hsame : name = path
    · subst hsame
      rw [unlink_entry_self] at hname
      cases hname
    · rwa [unlink_entry_of_ne hsame] at hname

end IdaMcp.Slices
