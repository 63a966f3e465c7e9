import IdaMcp.Slices.WriteOnce

namespace IdaMcp.Slices

open Foundation Directory

variable {dest : String} {s s' : State} {u v : ℕ} {c c' : Call} {a : Action} {choice : Choice}
  {dir' : Directory String UInt8} {path name : String} {file : Inode}
  {result : Except ToolError SliceFile}

theorem take_append_chunk (bytes : List UInt8) (k n : ℕ) :
    bytes.take k ++ (bytes.drop k).take n = bytes.take (k + ((bytes.drop k).take n).length) := by
  rw [List.take_add, List.length_take]
  congr 1
  rcases Nat.le_total n (bytes.drop k).length with hle | hle
  · rw [Nat.min_eq_left hle]
  · rw [Nat.min_eq_right hle, List.take_of_length_le hle, List.take_length]

theorem returns_error {error : ToolError} : c.Returns dest s.dir (.error error) := by
  intro h
  cases h

theorem Sound.fail (h : Sound dest s) (hc : s.call u = some c) (hgoing : c.position.isDone = false)
    (howned : c.owned.isSome = true) (error : ToolError) :
    Sound dest (s.setCall u (c.goto (.removeFile (.error error)))) := by
  refine h.goto hc hgoing rfl rfl ?_ ?_ ?_
  · exact ⟨howned, returns_error⟩
  · intro hdone
    cases hdone
  · intro hcreated
    cases hcreated

theorem Sound.end (h : Sound dest s) (hc : s.call u = some c) (hgoing : c.position.isDone = false)
    (howned : c.owned = none) (hreturns : c.Returns dest s.dir result)
    (hresult : result ≠ .ok .created) : Sound dest (s.setCall u (c.goto (.done result))) := by
  refine h.goto hc hgoing rfl rfl ?_ ?_ ?_
  · exact hreturns
  · intro _
    exact .inl howned
  · intro hcreated
    cases result with
    | error error => cases hcreated
    | ok sliceFile =>
      obtain rfl := of_decide_eq_true hcreated
      exact (hresult rfl).elim

theorem Sound.settle (h : Sound dest s) (hc : s.call u = some c) (hgoing : c.position.isDone = false)
    (hreturns : c.Returns dest s.dir result) (hresult : result ≠ .ok .created) :
    Sound dest (s.setCall u (c.settle result)) := by
  unfold Call.settle
  split_ifs with howned
  · refine h.goto hc hgoing rfl rfl ?_ ?_ ?_
    · exact ⟨howned, hreturns⟩
    · intro hdone
      cases hdone
    · intro hcreated
      cases result with
      | error error => cases hcreated
      | ok sliceFile =>
        obtain rfl := of_decide_eq_true hcreated
        exact (hresult rfl).elim
  · exact h.end hc hgoing (by simpa using howned) hreturns hresult

theorem Sound.createPartial (h : Sound dest s) (hc : s.call u = some c)
    (hposition : c.position = .createPartial) : Sound dest (createPartial dest s u c) := by
  have hstands := h.stands u c hc
  simp only [Call.Stands, hposition] at hstands
  unfold Slices.createPartial
  split
  · rename_i dir' hnew
    obtain ⟨hnone, hentry, hcontent, hnext⟩ := createNew_spec hnew
    have hself : dir'.entry (partialPath dest c.request) = some s.dir.next := by
      rw [hentry, Function.update_self]
    have hother {name : String} (hname : dir'.entry name = some s.dir.next) :
        name = partialPath dest c.request := by
      by_contra hne
      rw [hentry, Function.update_of_ne hne] at hname
      exact Nat.lt_irrefl _ (s.dir.entry_lt name _ hname)
    refine h.setCall hc (h.frame_createNew hnew) rfl ?_ ?_ ?_ ?_ ?_ ?_ ?_
    · refine ⟨⟨rfl, fun hdest => ?_⟩, ?_, Nat.zero_le _⟩
      · exact partialPath_ne _ (hother hdest).symm
      · rw [hcontent, Function.update_self]
        rfl
    · rintro path file hholds
      cases hholds
      exact ⟨rfl, hself⟩
    · rintro path file name howned hname
      cases howned
      exact .inr ⟨hother hname, fun hdone => Bool.noConfusion hdone⟩
    · rintro path file howned
      cases howned
      rw [hnext]
      exact Nat.lt_succ_self _
    · rintro v c' path path' file file' hv huv howned howned'
      cases howned
      exact Nat.ne_of_gt (h.below v c' path' file' hv howned')
    · intro hcreated
      cases hcreated
    · intro file hfile
      rw [hentry, Function.update_of_ne (partialPath_ne _).symm] at hfile
      exact .inl hfile
  · exact h.end hc (by rw [hposition]; rfl) hstands returns_error (by rintro ⟨⟩)

theorem Sound.writeSlice (h : Sound dest s) (hc : s.call u = some c) {copied : ℕ}
    (hposition : c.position = .writeSlice file copied)
    (hnext : writeSlice dest s u c file copied choice = some s') : Sound dest s' := by
  have hstands := h.stands u c hc
  simp only [Call.Stands, hposition] at hstands
  obtain ⟨⟨howned, hdest⟩, hcontent, hle⟩ := hstands
  have hgoing : c.position.isDone = false := by
    rw [hposition]
    rfl
  have hsome : c.owned.isSome = true := by
    rw [howned]
    rfl
  unfold Slices.writeSlice at hnext
  cases choice with
  | chunk n =>
    simp only [Option.ite_none_right_eq_some, Option.some.injEq] at hnext
    obtain ⟨⟨hpos, hrest⟩, rfl⟩ := hnext
    have hholds : c.holds = some (partialPath dest c.request, file) := by
      rw [Call.holds, hgoing]
      exact howned
    refine h.setCall hc (h.frame_append hc howned hdest _) rfl ?_ ?_ ?_ ?_ ?_ ?_ ?_
    · refine ⟨⟨howned, hdest⟩, ?_, ?_⟩
      · rw [append_content_self, hcontent, take_append_chunk]
        rfl
      · rw [List.length_take, List.length_drop, Call.goto_request]
        omega
    · intro path' file' hholds'
      exact h.named u c path' file' hc (hholds.trans (howned.symm.trans hholds'))
    · intro path' file' name howned' hname
      rcases h.alone u c path' file' name hc howned' hname with hname | ⟨hname, -⟩
      · exact .inl hname
      · exact .inr ⟨hname, fun hdone => Bool.noConfusion hdone⟩
    · exact fun path' file' => h.below u c path' file' hc
    · exact fun v c' path path' file file' hv huv => h.apart u v c c' path path' file file' hc hv huv
    · intro hcreated
      cases hcreated
    · exact fun file hfile => .inl hfile
  | proceed =>
    simp only [Option.ite_none_right_eq_some] at hnext
    obtain ⟨hrest, hnext⟩ := hnext
    have hall : c.request.sliceBytes.length ≤ copied := List.drop_eq_nil_iff.mp hrest
    split_ifs at hnext with hsize
    · cases hnext
      refine h.goto hc hgoing rfl rfl ?_ ?_ ?_
      · refine ⟨⟨howned, hdest⟩, ?_, ?_⟩
        · rw [hcontent, List.take_of_length_le hall]
          rfl
        · apply decide_eq_true
          rw [Call.goto_request]
          omega
      · intro hdone
        cases hdone
      · intro hcreated
        cases hcreated
    · cases hnext
      exact h.fail hc hgoing hsome _
  | fails error =>
    cases hnext
    exact h.fail hc hgoing hsome _

theorem Sound.link (h : Sound dest s) (hc : s.call u = some c) (hposition : c.position = .link file) :
    Sound dest (link dest s u c) := by
  have hstands := h.stands u c hc
  simp only [Call.Stands, hposition] at hstands
  obtain ⟨⟨howned, hdest⟩, hcontent, hholds⟩ := hstands
  have hgoing : c.position.isDone = false := by
    rw [hposition]
    rfl
  have hsome : c.owned.isSome = true := by
    rw [howned]
    rfl
  have hheld : c.holds = some (partialPath dest c.request, file) := by
    rw [Call.holds, hgoing]
    exact howned
  have hnamed := (h.named u c _ file hc hheld).2
  unfold Slices.link
  split
  · rename_i dir' hlink
    obtain ⟨hnone, ⟨original, horiginal, hentry⟩, hsame, hnext⟩ := hardLink_spec hlink
    rw [hnamed, Option.some.injEq] at horiginal
    subst horiginal
    have hself : dir'.entry dest = some file := by
      rw [hentry, Function.update_self]
    have hdone : dir'.content file = c.request.sliceBytes := by
      rw [hsame]
      exact hcontent
    refine h.setCall hc (h.frame_hardLink hc hheld hlink) rfl ?_ ?_ ?_ ?_ ?_ ?_ ?_
    · exact ⟨hsome, fun _ => ⟨file, hself, hdone, hholds⟩⟩
    · intro path' file' hholds'
      obtain ⟨hpath, hold⟩ := h.named u c path' file' hc (hheld.trans (howned.symm.trans hholds'))
      exact ⟨hpath, (keeps_hardLink hlink path' file' hold).1⟩
    · intro path' file' name howned' hname
      by_cases heq : name = dest
      · exact .inl heq
      · rw [hentry, Function.update_of_ne heq] at hname
        rcases h.alone u c path' file' name hc howned' hname with hname | ⟨hname, -⟩
        · exact .inl hname
        · exact .inr ⟨hname, fun hend => Bool.noConfusion hend⟩
    · intro path' file' howned'
      rw [hnext]
      exact h.below u c path' file' hc howned'
    · exact fun v c' path path' file file' hv huv => h.apart u v c c' path path' file file' hc hv huv
    · intro _
      exact .inr hnone
    · intro file' hfile'
      rw [hself, Option.some.injEq] at hfile'
      subst hfile'
      exact .inr ⟨hdone, hholds⟩
  · split_ifs
    · refine h.goto hc hgoing rfl rfl trivial ?_ ?_
      · intro hend
        cases hend
      · intro hcreated
        cases hcreated
    · exact h.fail hc hgoing hsome _

theorem Sound.existingSlice (h : Sound dest s) (hc : s.call u = some c)
    (hposition : c.position = .existingSlice) : Sound dest (existingSlice dest s u c) := by
  have hgoing : c.position.isDone = false := by
    rw [hposition]
    rfl
  unfold Slices.existingSlice
  split
  · rename_i file hentry
    split_ifs with hsize
    · refine h.goto hc hgoing rfl rfl ⟨file, hentry, hsize⟩ ?_ ?_
      · intro hend
        cases hend
      · intro hcreated
        cases hcreated
    · exact h.settle hc hgoing returns_error (by rintro ⟨⟩)
  · exact h.settle hc hgoing returns_error (by rintro ⟨⟩)

theorem Sound.openExisting (h : Sound dest s) (hc : s.call u = some c)
    (hposition : c.position = .openExisting) : Sound dest (openExisting dest s u c) := by
  have hstands := h.stands u c hc
  simp only [Call.Stands, hposition] at hstands
  obtain ⟨file, hentry, hsize⟩ := hstands
  have hgoing : c.position.isDone = false := by
    rw [hposition]
    rfl
  unfold Slices.openExisting
  rw [hentry]
  refine h.goto hc hgoing rfl rfl ⟨hentry, hsize, Nat.zero_le _, rfl⟩ ?_ ?_
  · intro hend
    cases hend
  · intro hcreated
    cases hcreated

theorem Sound.sliceMatches (h : Sound dest s) (hc : s.call u = some c) {compared : ℕ}
    (hposition : c.position = .sliceMatches file compared)
    (hok : endsEarly s (.run u choice) = false)
    (hnext : sliceMatches dest s u c file compared choice = some s') : Sound dest s' := by
  have hstands := h.stands u c hc
  simp only [Call.Stands, hposition] at hstands
  obtain ⟨hentry, hsize, hle, htake⟩ := hstands
  have hgoing : c.position.isDone = false := by
    rw [hposition]
    rfl
  unfold Slices.sliceMatches at hnext
  cases choice with
  | chunk n =>
    simp only [Option.ite_none_right_eq_some] at hnext
    obtain ⟨⟨hpos, hrest⟩, hnext⟩ := hnext
    split_ifs at hnext with hshort hsame
    · cases hnext
      exact h.settle hc hgoing returns_error (by rintro ⟨⟩)
    · cases hnext
      refine h.goto hc hgoing rfl rfl ⟨hentry, hsize, ?_, ?_⟩ ?_ ?_
      · rw [List.length_take, List.length_drop, Call.goto_request]
        omega
      · rw [Call.goto_request, List.take_add, htake, ← hsame, take_append_chunk]
      · intro hend
        cases hend
      · intro hcreated
        cases hcreated
    · cases hnext
      exact h.settle hc hgoing returns_error (by rintro ⟨⟩)
  | proceed =>
    simp only [Option.ite_none_right_eq_some, Option.some.injEq] at hnext
    obtain ⟨hrest, rfl⟩ := hnext
    obtain ⟨request, position, owned, abandoned⟩ := c
    subst hposition
    have hholds : request.holdsSlice = true := by
      simpa [endsEarly, hc, hrest] using hok
    apply h.settle hc hgoing
    · intro _
      refine ⟨file, hentry, ?_, hholds⟩
      have hlength : request.sliceBytes.length = request.slice.size := of_decide_eq_true hholds
      have hall : request.sliceBytes.length ≤ compared := List.drop_eq_nil_iff.mp hrest
      change s.dir.content file = request.sliceBytes
      rw [List.take_of_length_le hall, List.take_of_length_le] at htake
      · exact htake
      · rw [hsize]
        exact hlength ▸ hall
    · rintro ⟨⟩
  | fails error =>
    cases hnext
    exact h.settle hc hgoing returns_error (by rintro ⟨⟩)

theorem Sound.removeFile (h : Sound dest s) (hc : s.call u = some c)
    (hposition : c.position = .removeFile result) :
    Sound dest ((s.setDir (s.dir.unlink (partialPath dest c.request))).setCall u
      (c.goto (.done result))) := by
  have hstands := h.stands u c hc
  simp only [Call.Stands, hposition] at hstands
  obtain ⟨hsome, hreturns⟩ := hstands
  have hgoing : c.position.isDone = false := by
    rw [hposition]
    rfl
  obtain ⟨⟨path, file⟩, howned⟩ := Option.isSome_iff_exists.mp hsome
  have hheld : c.holds = some (path, file) := by
    rw [Call.holds, hgoing]
    exact howned
  obtain ⟨hpath, hnamed⟩ := h.named u c path file hc hheld
  have hframe := h.frame_unlink hc hheld
  rw [hpath] at hframe
  refine h.setCall hc hframe rfl ?_ ?_ ?_ ?_ ?_ ?_ ?_
  · intro hok
    obtain ⟨file', hentry, hcontent, hholds⟩ := hreturns hok
    exact ⟨file', (hframe.kept file' hentry).1, hcontent, hholds⟩
  · rintro path' file' ⟨⟩
  · intro path' file' name howned' hname
    by_cases heq : name = partialPath dest c.request
    · subst heq
      rw [unlink_entry_self] at hname
      cases hname
    · rw [unlink_entry_of_ne heq] at hname
      rcases h.alone u c path' file' name hc howned' hname with hdest | ⟨hsame, -⟩
      · exact .inl hdest
      · cases howned.symm.trans howned'
        exact (heq (hsame.trans hpath)).elim
  · exact fun path' file' => h.below u c path' file' hc
  · exact fun v c' path path' file file' hv huv => h.apart u v c c' path path' file file' hc hv huv
  · intro hcreated
    left
    rw [hposition]
    exact hcreated
  · intro file' hfile'
    rw [unlink_entry_of_ne (partialPath_ne _).symm] at hfile'
    exact .inl hfile'

theorem Sound.abandon (h : Sound dest s) (hc : s.call u = some c)
    (hposition : c.position = .removeFile result) :
    Sound dest (s.setCall u { c with position := .done result, abandoned := true }) := by
  have hstands := h.stands u c hc
  simp only [Call.Stands, hposition] at hstands
  refine h.goto hc ?_ rfl rfl hstands.2 (fun _ => .inr rfl) ?_
  · rw [hposition]
    rfl
  · intro hcreated
    rw [hposition]
    exact hcreated

theorem Sound.next (h : Sound dest s) (hc : s.call u = some c)
    (hok : endsEarly s (.run u choice) = false) (hnext : next dest s u c choice = some s') :
    Sound dest s' := by
  have hstands := h.stands u c hc
  cases hposition : c.position with
  | metadata =>
    have hgoing : c.position.isDone = false := by
      rw [hposition]
      rfl
    simp only [Call.Stands, hposition] at hstands
    cases choice with
    | proceed =>
      simp only [Slices.next, hposition] at hnext
      split_ifs at hnext <;> cases hnext
      · refine h.goto hc hgoing rfl rfl trivial ?_ ?_
        · intro hend
          cases hend
        · intro hcreated
          cases hcreated
      · refine h.goto hc hgoing rfl rfl hstands ?_ ?_
        · intro hend
          cases hend
        · intro hcreated
          cases hcreated
    | fails error =>
      simp only [Slices.next, hposition, Option.some.injEq] at hnext
      subst hnext
      exact h.end hc hgoing hstands returns_error (by rintro ⟨⟩)
    | chunk n => simp [Slices.next, hposition] at hnext
  | createPartial =>
    cases choice with
    | proceed =>
      simp only [Slices.next, hposition, Option.some.injEq] at hnext
      subst hnext
      exact h.createPartial hc hposition
    | fails error =>
      simp only [Call.Stands, hposition] at hstands
      simp only [Slices.next, hposition, Option.some.injEq] at hnext
      subst hnext
      exact h.end hc (by rw [hposition]; rfl) hstands returns_error (by rintro ⟨⟩)
    | chunk n => simp [Slices.next, hposition] at hnext
  | writeSlice file copied =>
    simp only [Slices.next, hposition] at hnext
    exact h.writeSlice hc hposition hnext
  | syncAll file =>
    have hgoing : c.position.isDone = false := by
      rw [hposition]
      rfl
    simp only [Call.Stands, hposition] at hstands
    cases choice with
    | proceed =>
      simp only [Slices.next, hposition, Option.some.injEq] at hnext
      subst hnext
      refine h.goto hc hgoing rfl rfl hstands ?_ ?_
      · intro hend
        cases hend
      · intro hcreated
        cases hcreated
    | fails error =>
      simp only [Slices.next, hposition, Option.some.injEq] at hnext
      subst hnext
      exact h.fail hc hgoing (by rw [hstands.1.1]; rfl) _
    | chunk n => simp [Slices.next, hposition] at hnext
  | link file =>
    cases choice with
    | proceed =>
      simp only [Slices.next, hposition, Option.some.injEq] at hnext
      subst hnext
      exact h.link hc hposition
    | fails error =>
      simp only [Call.Stands, hposition] at hstands
      simp only [Slices.next, hposition, Option.some.injEq] at hnext
      subst hnext
      exact h.fail hc (by rw [hposition]; rfl) (by rw [hstands.1.1]; rfl) _
    | chunk n => simp [Slices.next, hposition] at hnext
  | existingSlice =>
    cases choice with
    | proceed =>
      simp only [Slices.next, hposition, Option.some.injEq] at hnext
      subst hnext
      exact h.existingSlice hc hposition
    | fails error =>
      simp only [Slices.next, hposition, Option.some.injEq] at hnext
      subst hnext
      exact h.settle hc (by rw [hposition]; rfl) returns_error (by rintro ⟨⟩)
    | chunk n => simp [Slices.next, hposition] at hnext
  | openExisting =>
    cases choice with
    | proceed =>
      simp only [Slices.next, hposition, Option.some.injEq] at hnext
      subst hnext
      exact h.openExisting hc hposition
    | fails error =>
      simp only [Slices.next, hposition, Option.some.injEq] at hnext
      subst hnext
      exact h.settle hc (by rw [hposition]; rfl) returns_error (by rintro ⟨⟩)
    | chunk n => simp [Slices.next, hposition] at hnext
  | sliceMatches file compared =>
    simp only [Slices.next, hposition] at hnext
    exact h.sliceMatches hc hposition hok hnext
  | removeFile result =>
    cases choice with
    | proceed =>
      simp only [Slices.next, hposition, Option.some.injEq] at hnext
      subst hnext
      exact h.removeFile hc hposition
    | fails error =>
      simp only [Slices.next, hposition, Option.some.injEq] at hnext
      subst hnext
      exact h.abandon hc hposition
    | chunk n => simp [Slices.next, hposition] at hnext
  | done result => simp [Slices.next, hposition] at hnext

theorem Sound.start (h : Sound dest s) (request : Request) : Sound dest
    { s.setCall s.nextCall ⟨request, .metadata, none, false⟩ with nextCall := s.nextCall + 1 } := by
  let c : Call := ⟨request, .metadata, none, false⟩
  have calls {v : ℕ} {d : Call} (hv : (s.setCall s.nextCall c).call v = some d) :
      d = c ∨ s.call v = some d := by
    by_cases hvu : v = s.nextCall
    · subst hvu
      rw [State.setCall_self] at hv
      exact .inl (Option.some.inj hv).symm
    · rw [State.setCall_of_ne hvu] at hv
      exact .inr hv
  have old {v : ℕ} {d : Call} (hv : s.call v = some d) : (s.setCall s.nextCall c).call v = some d := by
    rw [State.setCall_of_ne]
    · exact hv
    · rintro rfl
      rw [h.fresh _ (Nat.le_refl _)] at hv
      cases hv
  constructor
  · intro v hv
    have hle : s.nextCall + 1 ≤ v := hv
    exact (State.setCall_of_ne (by omega) s c).trans (h.fresh v (by omega))
  · intro v d hv
    rcases calls hv with rfl | hv
    · rfl
    · exact h.stands v d hv
  · intro v d path file hv hholds
    rcases calls hv with rfl | hv
    · cases hholds
    · exact h.named v d path file hv hholds
  · intro v d path file name hv howned hname
    rcases calls hv with rfl | hv
    · cases howned
    · exact h.alone v d path file name hv howned hname
  · intro v d path file hv howned
    rcases calls hv with rfl | hv
    · cases howned
    · exact h.below v d path file hv howned
  · intro v v' d d' path path' file file' hv hv' hne howned howned'
    rcases calls hv with rfl | hv
    · cases howned
    · rcases calls hv' with rfl | hv'
      · cases howned'
      · exact h.apart v v' d d' path path' file file' hv hv' hne howned howned'
  · intro v v' d d' hv hv' hd hd'
    rcases calls hv with rfl | hv
    · cases hd
    · rcases calls hv' with rfl | hv'
      · cases hd'
      · exact h.once v v' d d' hv hv' hd hd'
  · intro file hfile
    rcases h.complete file hfile with hforeign | ⟨v, d, hv, hdone⟩
    · exact .inl hforeign
    · exact .inr ⟨v, d, old hv, hdone⟩

theorem Sound.foreign (h : Sound dest s) {bytes : List UInt8}
    (hnew : s.dir.createNew name bytes = some dir') :
    Sound dest { s with dir := dir', foreign := s.dir.next :: s.foreign } := by
  have hframe : Frame dest s none dir' := h.frame_createNew hnew
  obtain ⟨hnone, hentry, -, hnext⟩ := createNew_spec hnew
  have someone (v : ℕ) : some v ≠ none := Option.some_ne_none v
  refine { fresh := h.fresh, stands := ?_, named := ?_, alone := ?_, below := ?_,
           apart := h.apart, once := h.once, complete := ?_ }
  · intro v c hv
    apply (h.stands v c hv).frame hframe.kept
    intro path file hholds
    exact (hframe.held v c path file (someone v) hv hholds).2
  · intro v c path file hv hholds
    exact ⟨(h.named v c path file hv hholds).1, (hframe.held v c path file (someone v) hv hholds).1⟩
  · intro v c path file name hv howned hname
    apply h.alone v c path file name hv howned
    exact hframe.owned v c path file name (someone v) hv howned hname
  · intro v c path file hv howned
    exact Nat.lt_of_lt_of_le (h.below v c path file hv howned) hframe.next_le
  · intro file hfile
    by_cases hname : dest = name
    · subst hname
      change dir'.entry dest = some file at hfile
      rw [hentry, Function.update_self, Option.some.injEq] at hfile
      exact .inl (hfile ▸ List.mem_cons_self)
    · change dir'.entry dest = some file at hfile
      rw [hentry, Function.update_of_ne hname] at hfile
      rcases h.complete file hfile with hforeign | ⟨v, c, hv, hholds, hcontent⟩
      · exact .inl (List.mem_cons_of_mem _ hforeign)
      · exact .inr ⟨v, c, hv, hholds, (hframe.kept file hfile).2.trans hcontent⟩

theorem Sound.step (h : Sound dest s) (hok : endsEarly s a = false) (hstep : step dest s a = some s') :
    Sound dest s' := by
  cases a with
  | start request =>
    cases hstep
    exact h.start request
  | run u choice =>
    cases hc : s.call u with
    | none => simp [Slices.step, hc] at hstep
    | some c =>
      simp only [Slices.step, hc] at hstep
      exact h.next hc hok hstep
  | foreign path bytes =>
    obtain ⟨dir', hnew, rfl⟩ := Option.map_eq_some_iff.mp hstep
    exact h.foreign hnew

theorem sound_initial : Sound dest initial where
  fresh _ _ := rfl
  stands _ _ h := by cases h
  named _ _ _ _ h := by cases h
  alone _ _ _ _ _ h := by cases h
  below _ _ _ _ h := by cases h
  apart _ _ _ _ _ _ _ _ h := by cases h
  once _ _ _ _ h := by cases h
  complete _ h := by cases h

inductive DirStep (dest : String) (s : State) (c : Call) : Directory String UInt8 → Prop
  | same : DirStep dest s c s.dir
  | created {next : Directory String UInt8}
    (hnew : s.dir.createNew (partialPath dest c.request) [] = some next) : DirStep dest s c next
  | wrote {partialFile : Inode} {copied : ℕ} (bytes : List UInt8)
    (hposition : c.position = .writeSlice partialFile copied) :
    DirStep dest s c (s.dir.append partialFile bytes)
  | linked {next : Directory String UInt8}
    (hlink : s.dir.hardLink (partialPath dest c.request) dest = some next) : DirStep dest s c next
  | removed {returned : Except ToolError SliceFile} (hposition : c.position = .removeFile returned) :
    DirStep dest s c (s.dir.unlink (partialPath dest c.request))

theorem dirStep_next (hnext : next dest s u c choice = some s') : DirStep dest s c s'.dir := by
  cases hposition : c.position with
  | metadata =>
    cases choice <;> simp only [next, hposition] at hnext
    · split_ifs at hnext <;> cases hnext <;> exact .same
    · cases hnext
      exact .same
    · cases hnext
  | createPartial =>
    cases choice <;> simp only [next, hposition] at hnext <;> cases hnext
    · unfold createPartial
      split
      · rename_i hnew
        exact .created hnew
      · exact .same
    · exact .same
  | writeSlice file copied =>
    simp only [next, hposition] at hnext
    cases choice <;> simp only [writeSlice] at hnext
    · split_ifs at hnext <;> cases hnext <;> exact .same
    · cases hnext
      exact .same
    · split_ifs at hnext
      cases hnext
      exact .wrote _ hposition
  | syncAll file =>
    cases choice <;> simp only [next, hposition] at hnext <;> cases hnext <;> exact .same
  | link file =>
    cases choice <;> simp only [next, hposition] at hnext <;> cases hnext
    · unfold link
      split
      · rename_i hlink
        exact .linked hlink
      · split_ifs <;> exact .same
    · exact .same
  | existingSlice =>
    cases choice <;> simp only [next, hposition] at hnext <;> cases hnext
    · unfold existingSlice
      split
      · split_ifs <;> exact .same
      · exact .same
    · exact .same
  | openExisting =>
    cases choice <;> simp only [next, hposition] at hnext <;> cases hnext
    · unfold openExisting
      split <;> exact .same
    · exact .same
  | sliceMatches file compared =>
    simp only [next, hposition] at hnext
    cases choice <;> simp only [sliceMatches] at hnext
    · split_ifs at hnext
      cases hnext
      exact .same
    · cases hnext
      exact .same
    · split_ifs at hnext <;> cases hnext <;> exact .same
  | removeFile result =>
    cases choice <;> simp only [next, hposition] at hnext <;> cases hnext
    · exact .removed hposition
    · exact .same
  | done result => cases choice <;> simp [next, hposition] at hnext

structure Intact (dest : String) (s : State) (a : Action) (s' : State) : Prop where
  kept : Keeps s.dir s'.dir dest
  complete : ∀ file, s'.dir.entry dest = some file → file ∈ s'.foreign ∨
    ∃ u c, s'.call u = some c ∧ c.request.holdsSlice = true ∧
      s'.dir.content file = c.request.sliceBytes
  once : ∀ u v c c', s'.call u = some c → s'.call v = some c' →
    c.position.returns .created = true → c'.position.returns .created = true → u = v
  truthful : ∀ u c sliceFile, s'.call u = some c → c.position.returns sliceFile = true →
    c.Published dest s'.dir
  removes : ∀ name file, s.dir.entry name = some file → s'.dir.entry name ≠ some file →
    ∃ u choice c, a = .run u choice ∧ s.call u = some c ∧ c.owned = some (name, file)
  cleaned : ∀ u c path file name, s'.call u = some c → c.position.isDone = true →
    c.abandoned = false → c.owned = some (path, file) → s'.dir.entry name = some file → name = dest

theorem Sound.keeps (h : Sound dest s) (hstep : Slices.step dest s a = some s') (name : String) :
    Keeps s.dir s'.dir dest ∧ ∀ file, s.dir.entry name = some file → s'.dir.entry name = some file ∨
      ∃ u choice c, a = .run u choice ∧ s.call u = some c ∧ c.owned = some (name, file) := by
  have all {dir' : Directory String UInt8} (hall : ∀ name, Keeps s.dir dir' name) :
      Keeps s.dir dir' dest ∧ ∀ file, s.dir.entry name = some file → dir'.entry name = some file ∨
        ∃ u choice c, a = .run u choice ∧ s.call u = some c ∧ c.owned = some (name, file) :=
    ⟨hall dest, fun file hfile => .inl (hall name file hfile).1⟩
  cases a with
  | start request =>
    cases hstep
    exact all fun _ => .refl
  | foreign path bytes =>
    obtain ⟨dir', hnew, rfl⟩ := Option.map_eq_some_iff.mp hstep
    exact all (keeps_createNew hnew)
  | run u choice =>
    cases hc : s.call u with
    | none => simp [Slices.step, hc] at hstep
    | some c =>
      simp only [Slices.step, hc] at hstep
      have hstands := h.stands u c hc
      have hdir := dirStep_next hstep
      revert hdir
      generalize s'.dir = dir'
      intro hdir
      cases hdir with
      | same => exact all fun _ => .refl
      | created hnew => exact all (keeps_createNew hnew)
      | linked hlink => exact all (keeps_hardLink hlink)
      | wrote bytes hposition =>
        simp only [Call.Stands, hposition] at hstands
        exact ⟨keeps_append hstands.1.2, fun file hfile => .inl hfile⟩
      | removed hposition =>
        simp only [Call.Stands, hposition] at hstands
        obtain ⟨⟨path, owned⟩, howned⟩ := Option.isSome_iff_exists.mp hstands.1
        have hheld : c.holds = some (path, owned) := by
          rw [Call.holds, hposition]
          exact howned
        obtain ⟨rfl, hnamed⟩ := h.named u c path owned hc hheld
        refine ⟨keeps_unlink (partialPath_ne _).symm, fun file hfile => ?_⟩
        by_cases hname : name = partialPath dest c.request
        · subst hname
          cases hnamed.symm.trans hfile
          exact .inr ⟨u, choice, c, rfl, hc, howned⟩
        · exact .inl ((unlink_entry_of_ne hname).trans hfile)

/-- However many calls publish to one path, and whatever else appears there, a step publishes as
promised exactly when it does not take the end of an input for the end of the slice. -/
theorem slice_write_once (h : ReachableBy (step dest) (fun s a => endsEarly s a = false) initial s)
    (hstep : step dest s a = some s') : Intact dest s a s' ↔ endsEarly s a = false := by
  have hsound : Sound dest s :=
    invariant_of_meets (fun _ _ _ hs hok ht => hs.step hok ht) sound_initial h
  constructor
  · intro hintact
    rw [← Bool.not_eq_true]
    intro hearly
    cases a with
    | start | foreign => cases hearly
    | run u choice =>
      cases choice with
      | fails | chunk => cases hearly
      | proceed =>
        cases hc : s.call u with
        | none => simp [endsEarly, hc] at hearly
        | some c =>
          obtain ⟨request, position, owned, abandoned⟩ := c
          cases position with
          | sliceMatches file compared =>
            simp only [endsEarly, hc, Bool.and_eq_true, decide_eq_true_eq, Bool.not_eq_true'] at hearly
            obtain ⟨hrest, hshort⟩ := hearly
            simp only [step, hc, next, sliceMatches, hrest, ↓reduceIte, Option.some.injEq] at hstep
            subst hstep
            obtain ⟨-, -, -, hholds⟩ := hintact.truthful u _ .reused (State.setCall_self ..)
              (by simp only [Call.settle]; split_ifs <;> rfl)
            simp only [Call.settle] at hholds
            split_ifs at hholds <;> exact Bool.false_ne_true (hshort.symm.trans hholds)
          | _ => simp [endsEarly, hc] at hearly
  · intro hok
    have hsound' := hsound.step hok hstep
    constructor
    · exact (hsound.keeps hstep dest).1
    · exact hsound'.complete
    · exact hsound'.once
    · intro u c sliceFile hc hreturns
      exact Call.published_of_returns (hsound'.stands u c hc) hreturns
    · intro name file hfile hgone
      exact ((hsound.keeps hstep name).2 file hfile).resolve_left hgone
    · intro u c path file name hc hdone hremoved howned hname
      rcases hsound'.alone u c path file name hc howned hname with hdest | ⟨-, habandoned⟩
      · exact hdest
      · exact (Bool.false_ne_true (hremoved.symm.trans (habandoned hdone))).elim

def shortRequest : Request := ⟨"fat", [9, 1, 2], ⟨"arm64", 1, 4⟩, "0"⟩

/-- Another file of four bytes, whose first two are those of the slice, is taken for the slice. -/
theorem short_slice_reused : ∃ s s' c file, Reachable (step "d") initial s ∧
    step "d" s (.run 0 .proceed) = some s' ∧ endsEarly s (.run 0 .proceed) = true ∧
    s'.call 0 = some c ∧ c.position.returns .reused = true ∧ c.request.sliceBytes = [1, 2] ∧
    s'.dir.entry "d" = some file ∧ s'.dir.content file = [1, 2, 3, 4] := by
  let actions : List Action := [.foreign "d" [1, 2, 3, 4], .start shortRequest, .run 0 .proceed,
    .run 0 .proceed, .run 0 .proceed, .run 0 (.chunk 8)]
  have hrun : (run (step "d") initial actions).any (fun s => endsEarly s (.run 0 .proceed) &&
      (step "d" s (.run 0 .proceed)).any fun s' =>
        (s'.call 0).any (fun c => c.position.returns .reused && c.request.sliceBytes = [1, 2]) &&
          (s'.dir.entry "d").any fun file => s'.dir.content file = [1, 2, 3, 4]) = true := by
    decide +kernel
  obtain ⟨s, hs, hstates⟩ := (Option.any_eq_true ..).mp hrun
  obtain ⟨hearly, hstates⟩ := (Bool.and_eq_true_iff ..).mp hstates
  obtain ⟨s', hs', hstates⟩ := (Option.any_eq_true ..).mp hstates
  obtain ⟨hcall, hfile⟩ := (Bool.and_eq_true_iff ..).mp hstates
  obtain ⟨c, hc, hcall⟩ := (Option.any_eq_true ..).mp hcall
  obtain ⟨hreused, hbytes⟩ := (Bool.and_eq_true_iff ..).mp hcall
  obtain ⟨file, hfile, hcontent⟩ := (Option.any_eq_true ..).mp hfile
  exact ⟨s, s', c, file, ⟨actions, hs⟩, hs', hearly, hc, hreused, of_decide_eq_true hbytes, hfile,
    of_decide_eq_true hcontent⟩

theorem slice_write_once_raced : ∃ s a s',
    (s'.call 1).map (fun c => c.position.returns .reused) = some true ∧ Intact "d" s a s' := by
  let actions : List Action := [.start ⟨"fat", [9, 1, 2], ⟨"arm64", 1, 2⟩, "0"⟩,
    .start ⟨"fat", [9, 1, 2], ⟨"arm64", 1, 2⟩, "1"⟩, .run 0 .proceed, .run 1 .proceed,
    .run 0 .proceed, .run 1 .proceed, .run 0 (.chunk 8), .run 1 (.chunk 1), .run 1 (.chunk 1),
    .run 0 .proceed, .run 1 .proceed, .run 0 .proceed, .run 1 .proceed, .run 0 .proceed,
    .run 1 .proceed, .run 1 .proceed, .run 1 .proceed, .run 1 (.chunk 8)]
  have hmeets : Meets (step "d") (fun s a => endsEarly s a = false) initial actions := by
    decide +kernel
  have hrun : (run (step "d") initial actions).map (fun s => (endsEarly s (.run 1 .proceed),
      (step "d" s (.run 1 .proceed)).map fun s' =>
        (s'.call 1).map fun c => c.position.returns .reused)) = some (false, some (some true)) := by
    decide +kernel
  obtain ⟨s, hs, hstates⟩ := Option.map_eq_some_iff.mp hrun
  simp only [Prod.mk.injEq] at hstates
  obtain ⟨hok, hnext⟩ := hstates
  obtain ⟨s', hs', hreused⟩ := Option.map_eq_some_iff.mp hnext
  exact ⟨s, .run 1 .proceed, s', hreused, (slice_write_once ⟨actions, hmeets, hs⟩ hs').mpr hok⟩

end IdaMcp.Slices
