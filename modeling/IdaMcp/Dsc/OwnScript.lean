import IdaMcp.Dsc.Cleanup
import IdaMcp.Dsc.Script

namespace IdaMcp.Dsc

open Foundation Directory

def Stage.holds : Stage → Bool
  | .writeScript _ | .checkLogPath | .createKeyed => true
  | .task r => r.holds
  | _ => false

def Stage.isOver : Stage → Bool
  | .ended | .answered _ => true
  | .task r =>
    match r.position with
    | .done _ => !r.scriptCleanup
    | _ => false
  | _ => false

def Stage.content (helpers : String) (request : Request) : Stage → List Char
  | .writeScript _ => []
  | _ => request.script helpers

def Call.scriptPath (c : Call) : String := c.request.scriptPath

def State.holder (s : State) (path : String) (v : ℕ) : Bool :=
  match s.call v with
  | some c => c.stage.holds && c.scriptPath == path
  | none => false

/-- No call writes a script that another call of the directory still needs, a call that has written its
script gets its task, and the task begins. -/
def guarded (s : State) : Action → Bool
  | .advance u => (s.call u).all fun c =>
    match c.stage with
    | .openScript => (List.range s.nextCall).all fun v => !s.holder c.scriptPath v
    | .checkLogPath => !c.request.logPath.any hasTraversal
    | .createKeyed => (s.existing (dscTaskKey c.request.out)).isNone
    | _ => true
  | .fails u _ => (s.call u).all fun c =>
    match c.stage with
    | .writeScript _ => false
    | _ => true
  | .registryFull _ _ => false
  | .run u action => (s.call u).all fun c =>
    match c.stage with
    | .task r => r.kept action
    | _ => true
  | _ => true

def Guarded (s : State) (a : Action) : Prop := guarded s a = true

instance (s : State) (a : Action) : Decidable (Guarded s a) := inferInstanceAs (Decidable (_ = true))

structure Holds (s : State) (path : String) (u : ℕ) (c : Call) : Prop where
  call : s.call u = some c
  holds : c.stage.holds = true
  path : c.scriptPath = path

def OnDisk (helpers : String) (dir : Directory String Char) (c : Call) : Prop :=
  ∃ file, dir.entry c.scriptPath = some file ∧ dir.content file = c.stage.content helpers c.request ∧
    ∀ file', c.stage = .writeScript file' → file' = file

structure Sound (helpers : String) (s : State) : Prop where
  lt : ∀ u c, s.call u = some c → u < s.nextCall
  unshared : s.dir.Unshared
  fresh : ∀ file ∈ s.written, file < s.dir.next
  onDisk : ∀ path u c, Holds s path u c → OnDisk helpers s.dir c
  one : ∀ path u v c d, Holds s path u c → Holds s path v d → u = v
  left : ∀ path file, s.dir.entry path = some file → file ∈ s.written → ∃ u c, Holds s path u c
  attended : ∀ u c r, s.call u = some c → c.stage = .task r → r.Attended
  reads : ∀ u content, (u, content) ∈ s.reads →
    ∃ c, s.call u = some c ∧ content = some (c.request.script helpers)

variable {helpers : String} {s s' : State} {u v : ℕ} {c d : Call} {path : String} {stage : Stage}

theorem sound_initial (helpers : String) : Sound helpers initial where
  lt := by intro u c h; cases h
  unshared := unshared_empty
  fresh := by intro file h; cases h
  onDisk := by intro path u c h; cases h.call
  one := by intro path u v c d h; cases h.call
  left := by intro path file h; cases h
  attended := by intro u c r h; cases h
  reads := by intro u content h; cases h

theorem call_update (hcall : s'.call = Function.update s.call u (some c)) (h : s'.call v = some d) :
    v = u ∧ d = c ∨ v ≠ u ∧ s.call v = some d := by
  rw [hcall] at h
  by_cases hv : v = u
  · rw [hv, Function.update_self, Option.some.injEq] at h
    exact .inl ⟨hv, h.symm⟩
  · rw [Function.update_of_ne hv] at h
    exact .inr ⟨hv, h⟩

theorem holds_update (hcall : s'.call = Function.update s.call u (some c)) (h : Holds s' path v d) :
    v = u ∧ d = c ∨ v ≠ u ∧ Holds s path v d := by
  rcases call_update hcall h.call with hu | ⟨hv, hd⟩
  · exact .inl hu
  · exact .inr ⟨hv, hd, h.holds, h.path⟩

theorem OnDisk.keeps {dir dir' : Directory String Char} (h : OnDisk helpers dir c)
    (hkeeps : Keeps dir dir' c.scriptPath) : OnDisk helpers dir' c := by
  obtain ⟨file, hentry, hcontent, hfile⟩ := h
  obtain ⟨hentry', hcontent'⟩ := hkeeps file hentry
  exact ⟨file, hentry', hcontent'.trans hcontent, hfile⟩

theorem Sound.update (hs : Sound helpers s) (hu : s.call u = some c)
    (hcall : s'.call = Function.update s.call u (some { c with stage }))
    (hnext : s'.nextCall = s.nextCall) (hreads : s'.reads = s.reads)
    (hunshared : s'.dir.Unshared) (hfresh : ∀ file ∈ s'.written, file < s'.dir.next)
    (hkeeps : ∀ path v d, v ≠ u → Holds s path v d → Keeps s.dir s'.dir path)
    (hdisk : stage.holds = true → OnDisk helpers s'.dir { c with stage })
    (hone : stage.holds = true → ∀ v d, v ≠ u → ¬Holds s c.scriptPath v d)
    (hleft : ∀ path file, s'.dir.entry path = some file → file ∈ s'.written →
      (stage.holds = true ∧ c.scriptPath = path) ∨ ∃ v d, v ≠ u ∧ Holds s path v d)
    (hattended : ∀ r, stage = .task r → r.Attended) : Sound helpers s' where
  lt := by
    intro v d hd
    rw [hnext]
    rcases call_update hcall hd with ⟨rfl, -⟩ | ⟨-, hd⟩
    · exact hs.lt v c hu
    · exact hs.lt v d hd
  unshared := hunshared
  fresh := hfresh
  onDisk := by
    intro path v d hd
    rcases holds_update hcall hd with ⟨-, rfl⟩ | ⟨hv, hd'⟩
    · exact hdisk hd.holds
    · have hkeep := hkeeps path v d hv hd'
      rw [← hd'.path] at hkeep
      exact (hs.onDisk path v d hd').keeps hkeep
  one := by
    intro path v w d e hd he
    rcases holds_update hcall hd with ⟨rfl, rfl⟩ | ⟨hv, hd'⟩
    · rcases holds_update hcall he with ⟨rfl, -⟩ | ⟨hw, he'⟩
      · rfl
      · have hpath : c.scriptPath = path := hd.path
        rw [← hpath] at he'
        exact absurd he' (hone hd.holds w e hw)
    · rcases holds_update hcall he with ⟨rfl, rfl⟩ | ⟨hw, he'⟩
      · have hpath : c.scriptPath = path := he.path
        rw [← hpath] at hd'
        exact absurd hd' (hone he.holds v d hv)
      · exact hs.one path v w d e hd' he'
  left := by
    intro path file hentry hfile
    rcases hleft path file hentry hfile with ⟨hholds, hpath⟩ | ⟨v, d, hv, hd⟩
    · have hself : s'.call u = some { c with stage } := by
        rw [hcall]
        exact Function.update_self ..
      exact ⟨u, { c with stage }, hself, hholds, hpath⟩
    · have hother : s'.call v = some d := by
        rw [hcall, Function.update_of_ne hv]
        exact hd.call
      exact ⟨v, d, hother, hd.holds, hd.path⟩
  attended := by
    intro v d r hd hstage
    rcases call_update hcall hd with ⟨-, rfl⟩ | ⟨-, hd⟩
    · exact hattended r hstage
    · exact hs.attended v d r hd hstage
  reads := by
    intro v content hread
    rw [hreads] at hread
    obtain ⟨d, hd, hcontent⟩ := hs.reads v content hread
    by_cases hv : v = u
    · subst hv
      obtain rfl := Option.some.inj (hu.symm.trans hd)
      have hself : s'.call v = some { c with stage } := by
        rw [hcall]
        exact Function.update_self ..
      exact ⟨{ c with stage }, hself, hcontent⟩
    · refine ⟨d, ?_, hcontent⟩
      rw [hcall, Function.update_of_ne hv]
      exact hd

theorem Sound.goto (hs : Sound helpers s) (hu : s.call u = some c) (hholds : stage.holds = c.stage.holds)
    (hcontent : stage.content helpers c.request = c.stage.content helpers c.request)
    (hfile : ∀ file, stage ≠ .writeScript file) (hattended : ∀ r, stage = .task r → r.Attended) :
    Sound helpers (s.goto u c stage) := by
  have hown : c.stage.holds = true → Holds s c.scriptPath u c := fun h => ⟨hu, h, rfl⟩
  refine hs.update hu rfl rfl rfl hs.unshared hs.fresh ?_ ?_ ?_ ?_ hattended
  · intro path v d hv hd
    exact Keeps.refl
  · intro hholds'
    obtain ⟨file, hentry, hcontent', -⟩ := hs.onDisk _ u c (hown (hholds ▸ hholds'))
    exact ⟨file, hentry, hcontent'.trans hcontent.symm, fun file' hstage => absurd hstage (hfile file')⟩
  · intro hholds' v d hv hd
    exact hv (hs.one _ v u d c hd (hown (hholds ▸ hholds')))
  · intro path file hentry hmem
    obtain ⟨v, d, hd⟩ := hs.left path file hentry hmem
    by_cases hv : v = u
    · subst hv
      obtain rfl := Option.some.inj (hu.symm.trans hd.call)
      exact .inl ⟨hholds.trans hd.holds, hd.path⟩
    · exact .inr ⟨v, d, hv, hd⟩

theorem Sound.idle (hs : Sound helpers s) (hu : s.call u = some c) (hbefore : c.stage.holds = false)
    (hafter : stage.holds = false) (hattended : ∀ r, stage = .task r → r.Attended) :
    Sound helpers (s.goto u c stage) := by
  refine hs.update hu rfl rfl rfl hs.unshared hs.fresh ?_ ?_ ?_ ?_ hattended
  · intro path v d hv hd
    exact Keeps.refl
  · intro hholds
    rw [hafter] at hholds
    cases hholds
  · intro hholds
    rw [hafter] at hholds
    cases hholds
  · intro path file hentry hmem
    obtain ⟨v, d, hd⟩ := hs.left path file hentry hmem
    refine .inr ⟨v, d, ?_, hd⟩
    rintro rfl
    obtain rfl := Option.some.inj (hu.symm.trans hd.call)
    rw [hd.holds] at hbefore
    cases hbefore

theorem not_held (hfree : ∀ v < s.nextCall, s.holder path v = false) (hs : Sound helpers s) (v : ℕ) (d : Call) :
    ¬Holds s path v d := by
  intro hd
  have hholder := hfree v (hs.lt v d hd.call)
  simp [State.holder, hd.call, hd.holds, hd.path] at hholder

theorem sound_openScript (hs : Sound helpers s) (hu : s.call u = some c) (hstage : c.stage = .openScript)
    (hfree : ∀ v < s.nextCall, s.holder c.scriptPath v = false) : Sound helpers (openScript s u c) := by
  have hnone := not_held hfree hs
  refine hs.update hu rfl rfl rfl (hs.unshared.openTruncate _) ?_ ?_ ?_ ?_ ?_ ?_
  · intro file hfile
    rcases List.mem_cons.mp hfile with rfl | hold
    · exact Nat.lt_of_lt_of_le (Nat.lt_succ_self _) (Nat.le_max_right ..)
    · exact Nat.lt_of_lt_of_le (hs.fresh file hold) (Nat.le_max_left ..)
  · intro path v d hv hd
    apply keeps_openTruncate hs.unshared
    rintro rfl
    exact hnone v d hd
  · intro _
    refine ⟨s.dir.opened c.scriptPath, Function.update_self .., Function.update_self .., ?_⟩
    intro file' hfile
    cases hfile
    rfl
  · intro _ v d hv
    exact hnone v d
  · intro path file hentry hmem
    by_cases hpath : path = c.scriptPath
    · exact .inl ⟨rfl, hpath.symm⟩
    · right
      have hentry' : s.dir.entry path = some file := by
        rw [← hentry]
        exact (Function.update_of_ne hpath ..).symm
      rcases List.mem_cons.mp hmem with rfl | hold
      · exact absurd (hs.unshared.eq_of_opened hentry') hpath
      · obtain ⟨v, d, hd⟩ := hs.left path file hentry' hold
        refine ⟨v, d, ?_, hd⟩
        rintro rfl
        obtain rfl := Option.some.inj (hu.symm.trans hd.call)
        have hholds := hd.holds
        rw [hstage] at hholds
        cases hholds
  · intro r hr
    cases hr

theorem sound_writeScript (hs : Sound helpers s) (hu : s.call u = some c) {file : Inode}
    (hstage : c.stage = .writeScript file) : Sound helpers (writeScript helpers s u c file) := by
  have hown : Holds s c.scriptPath u c := ⟨hu, by rw [hstage]; rfl, rfl⟩
  obtain ⟨file', hentry, hcontent, hfile⟩ := hs.onDisk _ u c hown
  obtain rfl := hfile file hstage
  rw [hstage] at hcontent
  have hempty : s.dir.content file = [] := hcontent
  refine hs.update hu rfl rfl rfl hs.unshared hs.fresh ?_ ?_ ?_ ?_ ?_
  · intro path v d hv hd
    apply keeps_append
    intro hshared
    have hpath := hs.unshared _ _ _ hshared hentry
    rw [hpath] at hd
    exact hv (hs.one _ v u d c hd hown)
  · intro _
    refine ⟨file, hentry, ?_, fun file' hfile' => by cases hfile'⟩
    have happend : (s.dir.append file (c.request.script helpers)).content file =
        s.dir.content file ++ c.request.script helpers := append_content_self
    rw [hempty, List.nil_append] at happend
    exact happend
  · intro _ v d hv hd
    exact hv (hs.one _ v u d c hd hown)
  · intro path file' hentry' hmem
    obtain ⟨v, d, hd⟩ := hs.left path file' hentry' hmem
    by_cases hv : v = u
    · subst hv
      obtain rfl := Option.some.inj (hu.symm.trans hd.call)
      exact .inl ⟨rfl, hd.path⟩
    · exact .inr ⟨v, d, hv, hd⟩
  · intro r hr
    cases hr

theorem sound_remove (hs : Sound helpers s) (hu : s.call u = some c) (hholds : c.stage.holds = true)
    {r : Run} (hr : r.holds = false) (hattended : r.Attended) :
    Sound helpers { s.goto u c (.task r) with dir := s.dir.unlink c.scriptPath } := by
  have hown : Holds s c.scriptPath u c := ⟨hu, hholds, rfl⟩
  have hother : ∀ path v d, v ≠ u → Holds s path v d → path ≠ c.scriptPath := by
    rintro path v d hv hd rfl
    exact hv (hs.one _ v u d c hd hown)
  refine @Sound.update _ _ _ _ _ (.task r) hs hu rfl rfl rfl (hs.unshared.unlink _) hs.fresh ?_ ?_ ?_ ?_ ?_
  · intro path v d hv hd
    exact keeps_unlink (hother path v d hv hd)
  · intro hholds'
    rw [Stage.holds, hr] at hholds'
    cases hholds'
  · intro hholds'
    rw [Stage.holds, hr] at hholds'
    cases hholds'
  · intro path file hentry hmem
    have hpath : path ≠ c.scriptPath := by
      rintro rfl
      have hgone : (s.dir.unlink c.scriptPath).entry c.scriptPath = none := unlink_entry_self
      rw [hgone] at hentry
      cases hentry
    have hentry' : s.dir.entry path = some file := by
      rw [← hentry]
      exact (unlink_entry_of_ne hpath).symm
    obtain ⟨v, d, hd⟩ := hs.left path file hentry' hmem
    refine .inr ⟨v, d, ?_, hd⟩
    rintro rfl
    obtain rfl := Option.some.inj (hu.symm.trans hd.call)
    exact hpath hd.path.symm
  · intro r' hr'
    cases hr'
    exact hattended

theorem sound_advance (hs : Sound helpers s) (hu : s.call u = some c) (hok : Guarded s (.advance u))
    (h : advance helpers s u c = some s') : Sound helpers s' := by
  simp only [Guarded, guarded, hu, Option.all_some] at hok
  unfold advance at h
  split at h
  all_goals try (rename_i hstage; rw [hstage] at hok)
  · cases h
    apply hs.idle hu _ rfl (fun r hr => by cases hr)
    rw [hstage]
    rfl
  · cases h
    apply sound_openScript hs hu hstage
    intro v hv
    have hfree := List.all_eq_true.mp hok v (List.mem_range.mpr hv)
    simpa using hfree
  · cases h
    exact sound_writeScript hs hu hstage
  · rw [Bool.not_eq_true'] at hok
    rw [if_neg (by rw [hok]; exact Bool.false_ne_true)] at h
    cases h
    apply hs.goto hu
    · rw [hstage]
      rfl
    · rw [hstage]
      rfl
    · intro file hfile
      cases hfile
    · intro r hr
      cases hr
  · cases h
    unfold createKeyed
    rw [Option.isNone_iff_eq_none.mp hok]
    apply hs.goto hu
    · rw [hstage]
      rfl
    · rw [hstage]
      rfl
    · intro file hfile
      cases hfile
    · intro r hr
      cases hr
      exact ⟨rfl, rfl⟩
  · cases h

theorem sound_fails (hs : Sound helpers s) (hu : s.call u = some c) {error : String}
    (hok : Guarded s (.fails u error)) (h : fails s u c error = some s') : Sound helpers s' := by
  simp only [Guarded, guarded, hu, Option.all_some] at hok
  unfold fails at h
  split at h
  all_goals try (rename_i hstage; rw [hstage] at hok)
  · cases h
    apply hs.idle hu _ rfl (fun r hr => by cases hr)
    rw [hstage]
    rfl
  · cases h
    apply hs.idle hu _ rfl (fun r hr => by cases hr)
    rw [hstage]
    rfl
  · cases hok
  · cases h

theorem sound_run (hs : Sound helpers s) (hu : s.call u = some c) {action : RunAction}
    (hok : Guarded s (.run u action)) (h : runTask s u c action = some s') : Sound helpers s' := by
  simp only [Guarded, guarded, hu, Option.all_some] at hok
  unfold runTask at h
  cases hstage : c.stage with
  | task r =>
    rw [hstage] at hok h
    dsimp only at hok h
    cases hstep : r.step action with
    | none =>
      rw [hstep] at h
      cases h
    | some r' =>
      rw [hstep] at h
      cases h
      have hr := hs.attended u c r hu hstage
      have hr' := Run.attended_step hr hok hstep
      have htask : ∀ r'', Stage.task r' = .task r'' → r''.Attended := by
        intro r'' heq
        cases heq
        exact hr'
      by_cases hremoves : (r.scriptCleanup && !r'.scriptCleanup) = true
      · simp only [hremoves, if_true]
        apply sound_remove hs hu _ (Run.not_holds_of_removes hr hstep hremoves) hr'
        rw [hstage, Stage.holds, Run.holds, (Bool.and_eq_true_iff.mp hremoves).1, Bool.or_true]
      · rw [if_neg hremoves]
        by_cases hholds : r.holds = true
        · have hholds' := (Run.holds_or_removes hstep hok hholds).resolve_right hremoves
          apply hs.goto hu _ _ _ htask
          · rw [hstage, Stage.holds, Stage.holds, hholds, hholds']
          · rw [hstage]
            rfl
          · intro file hfile
            cases hfile
        · apply hs.idle hu _ _ htask
          · rw [hstage, Stage.holds]
            simpa using hholds
          · by_contra hholds'
            rw [Bool.not_eq_false, Stage.holds] at hholds'
            exact hholds (Run.holds_of_step hstep hholds')
  | _ =>
    rw [hstage] at h
    cases h

theorem sound_start (hs : Sound helpers s) {request : Request} (hstage : stage.holds = false)
    (hattended : ∀ r, stage = .task r → r.Attended) :
    Sound helpers { s.setCall s.nextCall ⟨request, stage⟩ with nextCall := s.nextCall + 1 } := by
  have hnew : ∀ v d, s.call v = some d → v ≠ s.nextCall := fun v d hd => Nat.ne_of_lt (hs.lt v d hd)
  have hkept : ∀ v d, s.call v = some d →
      (s.setCall s.nextCall ⟨request, stage⟩).call v = some d :=
    fun v d hd => (Function.update_of_ne (hnew v d hd) ..).trans hd
  have hold : ∀ path v d, Holds { s.setCall s.nextCall ⟨request, stage⟩ with nextCall := s.nextCall + 1 }
      path v d → Holds s path v d := by
    intro path v d hd
    rcases holds_update rfl hd with ⟨-, rfl⟩ | ⟨-, hd'⟩
    · have hholds := hd.holds
      rw [hstage] at hholds
      cases hholds
    · exact hd'
  constructor
  · intro v d hd
    rcases call_update rfl hd with ⟨rfl, -⟩ | ⟨-, hd⟩
    · exact Nat.lt_succ_self _
    · exact Nat.lt_succ_of_lt (hs.lt v d hd)
  · exact hs.unshared
  · exact hs.fresh
  · intro path v d hd
    exact hs.onDisk path v d (hold path v d hd)
  · intro path v w d e hd he
    exact hs.one path v w d e (hold path v d hd) (hold path w e he)
  · intro path file hentry hmem
    obtain ⟨v, d, hd⟩ := hs.left path file hentry hmem
    exact ⟨v, d, hkept v d hd.call, hd.holds, hd.path⟩
  · intro v d r hd hr
    rcases call_update rfl hd with ⟨-, rfl⟩ | ⟨-, hd⟩
    · exact hattended r hr
    · exact hs.attended v d r hd hr
  · intro v content hread
    obtain ⟨d, hd, hcontent⟩ := hs.reads v content hread
    exact ⟨d, hkept v d hd, hcontent⟩

theorem sound_read (hs : Sound helpers s) (hu : s.call u = some c) (h : readScript s u c = some s') :
    Sound helpers s' := by
  unfold readScript at h
  split at h
  · next r hstage =>
    split_ifs at h with hidat
    cases h
    have hguard := ((hs.attended u c r hu hstage).waiting hidat).2
    have hholds : c.stage.holds = true := by
      rw [hstage, Stage.holds, Run.holds, hguard, Bool.or_true]
    obtain ⟨file, hentry, hcontent, -⟩ := hs.onDisk _ u c ⟨hu, hholds, rfl⟩
    have hcontent' : s.dir.content file = c.request.script helpers := by
      rw [hcontent, hstage]
      rfl
    refine ⟨hs.lt, hs.unshared, hs.fresh, ?_, ?_, ?_, hs.attended, ?_⟩
    · intro path v d hd
      exact hs.onDisk path v d ⟨hd.call, hd.holds, hd.path⟩
    · intro path v w d e hd he
      exact hs.one path v w d e ⟨hd.call, hd.holds, hd.path⟩ ⟨he.call, he.holds, he.path⟩
    · intro path file' hentry' hmem
      obtain ⟨v, d, hd⟩ := hs.left path file' hentry' hmem
      exact ⟨v, d, hd.call, hd.holds, hd.path⟩
    · intro v content hread
      rcases List.mem_cons.mp hread with heq | hread
      · obtain ⟨rfl, rfl⟩ := Prod.mk.inj heq
        refine ⟨c, hu, ?_⟩
        have hentry' : s.dir.entry c.request.scriptPath = some file := hentry
        rw [hentry', Option.map_some, hcontent']
      · exact hs.reads v content hread
  · cases h

theorem sound_foreign (hs : Sound helpers s) {path : String} {bytes : List Char}
    {dir : Directory String Char} (h : s.dir.createNew path bytes = some dir) :
    Sound helpers { s with dir } := by
  obtain ⟨hnone, hentry, -, hnext⟩ := createNew_spec h
  refine ⟨hs.lt, hs.unshared.createNew h, ?_, ?_, ?_, ?_, hs.attended, hs.reads⟩
  · intro file hfile
    rw [hnext]
    exact Nat.lt_succ_of_lt (hs.fresh file hfile)
  · intro path' v d hd
    exact (hs.onDisk path' v d ⟨hd.call, hd.holds, hd.path⟩).keeps (keeps_createNew h _)
  · intro path' v w d e hd he
    exact hs.one path' v w d e ⟨hd.call, hd.holds, hd.path⟩ ⟨he.call, he.holds, he.path⟩
  · intro path' file hentry' hmem
    rw [hentry] at hentry'
    by_cases hpath : path' = path
    · rw [hpath, Function.update_self, Option.some.injEq] at hentry'
      rw [← hentry'] at hmem
      exact absurd (hs.fresh _ hmem) (Nat.lt_irrefl _)
    · rw [Function.update_of_ne hpath] at hentry'
      obtain ⟨v, d, hd⟩ := hs.left path' file hentry' hmem
      exact ⟨v, d, hd.call, hd.holds, hd.path⟩

theorem sound_disk (hs : Sound helpers s) (hu : s.call u = some c) {r : Run} (hstage : c.stage = .task r)
    (output : Output) : Sound helpers (s.goto u c (.task { r with output })) := by
  apply hs.goto hu
  · rw [hstage]
    rfl
  · rw [hstage]
    rfl
  · intro file hfile
    cases hfile
  · intro r' hr'
    cases hr'
    exact (hs.attended u c r hu hstage).of_same rfl rfl rfl

theorem sound_step {a : Action} (hs : Sound helpers s) (hok : Guarded s a) (h : step helpers s a = some s') :
    Sound helpers s' := by
  cases a with
  | start request output =>
    cases h
    apply sound_start hs
    · split_ifs
      · rfl
      · rfl
    · intro r hr
      split_ifs at hr
  | advance u =>
    obtain ⟨c, hu, h⟩ := Option.bind_eq_some_iff.mp h
    exact sound_advance hs hu hok h
  | fails u error =>
    obtain ⟨c, hu, h⟩ := Option.bind_eq_some_iff.mp h
    exact sound_fails hs hu hok h
  | registryFull u max => cases hok
  | run u action =>
    obtain ⟨c, hu, h⟩ := Option.bind_eq_some_iff.mp h
    exact sound_run hs hu hok h
  | disk u artifact present =>
    obtain ⟨c, hu, h⟩ := Option.bind_eq_some_iff.mp h
    split at h
    · next r hstage =>
      cases h
      exact sound_disk hs hu hstage _
    · cases h
  | read u =>
    obtain ⟨c, hu, h⟩ := Option.bind_eq_some_iff.mp h
    exact sound_read hs hu h
  | finish u =>
    obtain ⟨c, hu, h⟩ := Option.bind_eq_some_iff.mp h
    split at h
    · next r hstage =>
      split_ifs at h with hopen
      cases h
      have hr := hs.attended u c r hu hstage
      simp only [Run.Attended, hopen, Position.phase, Run.Attends] at hr
      apply hs.idle hu _ rfl (fun r' hr' => by cases hr')
      rw [hstage, Stage.holds, Run.holds, hr.2, hopen]
      rfl
    · cases h
  | foreign path bytes =>
    obtain ⟨dir, hdir, rfl⟩ := Option.map_eq_some_iff.mp h
    exact sound_foreign hs hdir

theorem sound_of_reachableBy (h : ReachableBy (step helpers) Guarded initial s) : Sound helpers s :=
  invariant_of_meets (fun _ _ _ hs hok hstep => sound_step hs hok hstep) (sound_initial helpers) h

theorem not_holds_of_isOver (h : stage.isOver = true) : stage.holds = false := by
  unfold Stage.isOver at h
  split at h
  · rfl
  · rfl
  · next r =>
    split at h
    · next hdone =>
      rw [Bool.not_eq_true'] at h
      rw [Stage.holds, Run.holds, h, hdone]
      rfl
    · cases h
  · cases h

/-- In a run that keeps to the guard every idat reads the script of the request that spawned it, and a
script that a call has written is on disk only while some call is not over. -/
theorem idat_reads_own_script (h : ReachableBy (step helpers) Guarded initial s) :
    (∀ u content, (u, content) ∈ s.reads →
      ∃ c, s.call u = some c ∧ content = some (c.request.script helpers)) ∧
    ((∀ u c, s.call u = some c → c.stage.isOver = true) →
      ∀ path file, s.dir.entry path = some file → file ∉ s.written) := by
  have hs := sound_of_reachableBy h
  refine ⟨hs.reads, fun hover path file hentry hmem => ?_⟩
  obtain ⟨u, c, hc⟩ := hs.left path file hentry hmem
  have hnot := not_holds_of_isOver (hover u c hc.call)
  rw [hc.holds] at hnot
  cases hnot

def requestFor (moduleName stem : String) : Request where
  owner := .runtime
  scriptDir := "/dsc"
  stem
  moduleName
  frameworks := []
  logPath := none

def spawns (u : ℕ) : List Action :=
  List.replicate 5 (.advance u) ++ List.replicate 10 (.run u .advance)

def exits (u : ℕ) : List Action :=
  ([.read u, .run u (.exit (some 1) "")] : List Action) ++ List.replicate 10 (.run u .advance)

/-- A second call of the directory comes while the idat of the first runs, and writes its script after the
first has removed its own. -/
def inTurn : List Action :=
  ([.start (requestFor "libobjc" "a") fun _ => false] : List Action) ++ spawns 0 ++
    ([.start (requestFor "UIKit" "b") fun _ => false] : List Action) ++ exits 0 ++ spawns 1 ++ exits 1

theorem read_requested {c : Call} {moduleName stem : String}
    (hown : ∀ u content, (u, content) ∈ s.reads →
      ∃ c, s.call u = some c ∧ content = some (c.request.script helpers))
    (hread : (s.reads.any fun p => p.1 == u) = true) (hc : s.call u = some c)
    (hrequest : c.request = requestFor moduleName stem) :
    (u, some ((requestFor moduleName stem).script helpers)) ∈ s.reads := by
  obtain ⟨⟨v, content⟩, hmem, hv⟩ := List.any_eq_true.mp hread
  obtain rfl : v = u := by simpa using hv
  obtain ⟨d, hd, rfl⟩ := hown v content hmem
  obtain rfl := Option.some.inj (hc.symm.trans hd)
  rwa [hrequest] at hmem

theorem idat_reads_own_script_inTurn :
    ∃ s : State, (0, some ((requestFor "libobjc" "a").script "")) ∈ s.reads ∧
      (1, some ((requestFor "UIKit" "b").script "")) ∈ s.reads ∧
      ∀ path file, s.dir.entry path = some file → file ∉ s.written := by
  have hrun : (run (step "") initial inTurn).any (fun s => (s.reads.any fun p => p.1 == 0) &&
      (s.reads.any fun p => p.1 == 1) && s.nextCall == 2 &&
      ((s.call 0).any fun c => c.stage.isOver && c.request == requestFor "libobjc" "a") &&
      (s.call 1).any fun c => c.stage.isOver && c.request == requestFor "UIKit" "b") = true := by
    decide +kernel
  obtain ⟨s, hs, hend⟩ := (Option.any_eq_true ..).mp hrun
  simp only [Bool.and_eq_true, Option.any_eq_true, beq_iff_eq] at hend
  obtain ⟨⟨⟨⟨hread, hread'⟩, hnext⟩, c, hc, hover, hrequest⟩, d, hd, hover', hrequest'⟩ := hend
  have hreach : ReachableBy (step "") Guarded initial s := ⟨inTurn, by decide +kernel, hs⟩
  obtain ⟨hown, hclean⟩ := idat_reads_own_script hreach
  refine ⟨s, read_requested hown hread hc hrequest, read_requested hown hread' hd hrequest',
    hclean fun u e he => ?_⟩
  have hlt := (sound_of_reachableBy hreach).lt u e he
  obtain rfl | rfl : u = 0 ∨ u = 1 := by omega
  · obtain rfl := Option.some.inj (hc.symm.trans he)
    exact hover
  · obtain rfl := Option.some.inj (hd.symm.trans he)
    exact hover'

/-- A second call for another module writes its script over that of the first, and its own idat is not
to be spawned: its guard removes the script before the idat of the first has read it. -/
def overwritten : List Action :=
  ([.start (requestFor "libobjc" "a") fun _ => false] : List Action) ++ spawns 0 ++
    ([.start (requestFor "UIKit" "b") fun _ => false] : List Action) ++
    (List.replicate 5 (.advance 1) : List Action) ++ (List.replicate 9 (.run 1 .advance) : List Action) ++
    ([.run 1 (.fails "")] : List Action) ++ (List.replicate 2 (.run 1 .advance) : List Action) ++
    ([.read 0] : List Action)

theorem idat_reads_no_script : ∃ s content c, Reachable (step "") initial s ∧
    (0, content) ∈ s.reads ∧ s.call 0 = some c ∧ content ≠ some (c.request.script "") := by
  have hrun : (run (step "") initial overwritten).any (fun s =>
      (s.reads.any fun p => p.1 == 0 && p.2.isNone) && (s.call 0).isSome) = true := by
    decide +kernel
  obtain ⟨s, hs, hend⟩ := (Option.any_eq_true ..).mp hrun
  obtain ⟨hread, hcall⟩ := (Bool.and_eq_true_iff ..).mp hend
  obtain ⟨c, hc⟩ := Option.isSome_iff_exists.mp hcall
  obtain ⟨⟨u, content⟩, hmem, hp⟩ := List.any_eq_true.mp hread
  obtain ⟨hu, hnone⟩ := (Bool.and_eq_true_iff ..).mp hp
  obtain rfl : u = 0 := by simpa using hu
  obtain rfl := Option.isNone_iff_eq_none.mp hnone
  exact ⟨s, none, c, ⟨_, hs⟩, hmem, hc, (Option.some_ne_none _).symm⟩

end IdaMcp.Dsc
