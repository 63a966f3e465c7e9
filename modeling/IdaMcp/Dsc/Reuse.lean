import IdaMcp.Dsc.Idat

namespace IdaMcp.Dsc

open Foundation

namespace Run

variable {r r' : Run} {a : RunAction}

def Produced (r : Run) : Prop := (∃ stderr, r.idat = .exited (some 0) stderr) ∧ r.output .i64 = true

/-- Neither step ends the run beside the removal of what it leaves: a run whose cancellation is seen
after the exit has left no database of an incomplete run, and a wait for a killed process does not fail
while the process runs. -/
def guarded (r : Run) (a : RunAction) : Bool :=
  match r.position, a with
  | .settled exitCode _, .advance =>
    decide (r.cancelToken = true → idaDatabaseOutputExists r.output = true →
      exitCode = 0 ∧ r.output .i64 = true)
  | .reap _, .fails _ => decide (r.idat ≠ .running)
  | _, _ => true

def Guarded (r : Run) (a : RunAction) : Prop := r.guarded a = true

instance (r : Run) (a : RunAction) : Decidable (r.Guarded a) := inferInstanceAs (Decidable (_ = true))

def Settled (r : Run) (exitCode : ℤ) : Prop :=
  (r.idat = .unspawned ∧ exitCode ≠ 0 ∧ idaDatabaseOutputExists r.output = false) ∨
    ∃ code stderr, r.idat = .exited code stderr ∧ exitCode = code.getD (-1)

def Holds (r : Run) : Position → Prop
  | .begin | .checkOutput | .acquireLock | .recheckOutput | .removeOrphaned _ | .spawn =>
    r.idat = .unspawned ∧ idaDatabaseOutputExists r.output = false
  | .wait | .startKill _ | .reap _ => r.idat ≠ .unspawned
  | .removePartial rest _ =>
    r.idat ≠ .running ∧ ∀ artifact ∈ partialArtifacts, artifact ∉ rest → r.output artifact = false
  | .settled exitCode _ | .checkExit exitCode _ => r.Settled exitCode
  | .openDatabase => r.idat ≠ .running ∧ r.Produced
  | .done _ => r.idat ≠ .running ∧ (idaDatabaseOutputExists r.output = true → r.Produced)

def Sound (r : Run) : Prop := r.Holds r.position

@[simp] theorem goto_position (position : Position) : (r.goto position).position = position := rfl

theorem output_eq_false :
    idaDatabaseOutputExists r.output = false ↔ r.output .i64 = false ∧ r.output .id0 = false := by
  rw [idaDatabaseOutputExists, Bool.or_eq_false_iff]

theorem Settled.not_running {exitCode : ℤ} (h : r.Settled exitCode) : r.idat ≠ .running := by
  rcases h with ⟨hidat, -⟩ | ⟨code, stderr, hidat, -⟩
  · exact not_running_of_unspawned hidat
  · exact not_running_of_exited hidat

theorem Settled.produced {exitCode : ℤ} (h : r.Settled exitCode) (hcode : exitCode = 0)
    (hi64 : r.output .i64 = true) : r.Produced := by
  rcases h with ⟨-, hne, -⟩ | ⟨code, stderr, hidat, heq⟩
  · exact absurd hcode hne
  · refine ⟨⟨stderr, ?_⟩, hi64⟩
    rw [hidat]
    cases code with
    | none => simp [hcode] at heq
    | some code =>
      have hzero : code = 0 := by simpa [hcode] using heq.symm
      rw [hzero]

theorem sound_settle {settlement : Settlement} (hidat : r.idat ≠ .running)
    (h : idaDatabaseOutputExists r.output = true → r.Produced) : (r.settle settlement).Sound :=
  ⟨hidat, h⟩

theorem sound_settle_of_absent {settlement : Settlement} (hidat : r.idat ≠ .running)
    (h : idaDatabaseOutputExists r.output = false) : (r.settle settlement).Sound := by
  apply sound_settle hidat
  intro hexists
  rw [h] at hexists
  cases hexists

theorem remove_output_of_ne {artifact artifact' : Artifact} (h : artifact' ≠ artifact) :
    (r.remove artifact).output artifact' = r.output artifact' :=
  Function.update_of_ne h ..

theorem remove_output_self (artifact : Artifact) : (r.remove artifact).output artifact = false :=
  Function.update_self ..

theorem remove_absent {artifact artifact' : Artifact} (h : r.output artifact' = false) :
    (r.remove artifact).output artifact' = false := by
  by_cases heq : artifact' = artifact
  · rw [heq]
    exact remove_output_self artifact
  · rw [remove_output_of_ne heq]
    exact h

theorem remove_outputExists {artifact : Artifact} (h : idaDatabaseOutputExists r.output = false) :
    idaDatabaseOutputExists (r.remove artifact).output = false := by
  obtain ⟨hi64, hid0⟩ := output_eq_false.mp h
  exact output_eq_false.mpr ⟨remove_absent hi64, remove_absent hid0⟩

theorem ne_unspawned (h : r.idat = .running) : r.idat ≠ .unspawned := by
  rw [h]
  exact Idat.noConfusion

theorem sound_removePartial {settlement : Settlement} (hidat : r.idat ≠ .running) :
    (r.goto (.removePartial partialArtifacts settlement)).Sound :=
  ⟨hidat, fun _ hmem hnot => absurd hmem hnot⟩

theorem sound_remove {artifact : Artifact} {rest : List Artifact} {settlement : Settlement}
    (h : r.Holds (.removePartial (artifact :: rest) settlement)) :
    ((r.remove artifact).goto (.removePartial rest settlement)).Sound := by
  refine ⟨h.1, fun artifact' hmem hnot => ?_⟩
  by_cases heq : artifact' = artifact
  · rw [heq]
    exact remove_output_self artifact
  · apply remove_absent
    apply h.2 artifact' hmem
    intro hcons
    rcases List.mem_cons.mp hcons with hhead | htail
    · exact heq hhead
    · exact hnot htail

theorem sound_removed {settlement : Settlement} (h : r.Holds (.removePartial [] settlement)) :
    (r.settle settlement).Sound := by
  apply sound_settle_of_absent h.1
  apply output_eq_false.mpr
  constructor
  · exact h.2 .i64 (by decide) List.not_mem_nil
  · exact h.2 .id0 (by decide) List.not_mem_nil

theorem sound_settled {exitCode : ℤ} (hs : r.Settled exitCode)
    (hok : r.cancelToken = true → idaDatabaseOutputExists r.output = true →
      exitCode = 0 ∧ r.output .i64 = true) (hcancel : r.cancelToken = true) :
    (r.settle (.finishCancelled settledCancelled)).Sound := by
  apply sound_settle hs.not_running
  intro hexists
  obtain ⟨hcode, hi64⟩ := hok hcancel hexists
  exact hs.produced hcode hi64

theorem sound_advance (hi : r.Sound) (hok : r.Guarded .advance) (h : r.advance = some r') :
    r'.Sound := by
  unfold Sound at hi
  unfold Guarded guarded at hok
  unfold advance at h
  split at h
  all_goals rename_i hposition; rw [hposition] at hi
  · split_ifs at h
    · cases h
      exact sound_settle_of_absent (not_running_of_unspawned hi.1) hi.2
    · cases h
      exact hi
  · split_ifs at h with hexists
    · cases h
      exact sound_settle_of_absent (not_running_of_unspawned hi.1) hi.2
    · cases h
      exact hi
  · cases h
    exact hi
  · split_ifs at h with hexists
    · cases h
      exact sound_settle_of_absent (not_running_of_unspawned hi.1) hi.2
    · cases h
      exact hi
  · cases h
    exact ⟨hi.1, remove_outputExists hi.2⟩
  · cases h
    exact hi
  · cases h
    exact Idat.noConfusion
  · split at h
    · next code stderr hidat =>
      cases h
      exact .inr ⟨code, stderr, hidat, rfl⟩
    · cases h
  · cases h
    exact hi
  · split at h
    · next code stderr hidat =>
      cases h
      exact sound_removePartial (not_running_of_exited hidat)
    · cases h
  · cases h
    exact sound_remove hi
  · cases h
    exact sound_removed hi
  · rw [hposition] at hok
    split_ifs at h with hcancel
    · cases h
      exact sound_settled hi (of_decide_eq_true hok) hcancel
    · cases h
      exact hi
  · split_ifs at h with hfailed
    · cases h
      exact sound_removePartial (Settled.not_running hi)
    · cases h
      have hcode : ¬_ ∧ ¬_ := not_or.mp hfailed
      refine ⟨Settled.not_running hi, ?_⟩
      apply Settled.produced hi (not_not.mp hcode.1)
      simpa using hcode.2
  · cases h
  · split_ifs at h
    cases h
    unfold Sound
    rw [hposition]
    exact hi

theorem sound_fails {error : String} (hi : r.Sound) (hok : r.Guarded (.fails error))
    (h : r.fails error = some r') : r'.Sound := by
  unfold Sound at hi
  unfold Guarded guarded at hok
  unfold fails at h
  split at h
  all_goals try (rename_i hposition; rw [hposition] at hi)
  · cases h
    exact sound_settle_of_absent (not_running_of_unspawned hi.1) hi.2
  · cases h
    exact .inl ⟨hi.1, by decide, hi.2⟩
  · cases h
    exact hi
  · rw [hposition] at hok
    cases h
    exact sound_removePartial (of_decide_eq_true hok)
  · cases h

theorem waits_of_running (hi : r.Sound) (hidat : r.idat = .running) :
    r.position = .wait ∨ (∃ settlement, r.position = .startKill settlement) ∨
      ∃ settlement, r.position = .reap settlement := by
  unfold Sound at hi
  cases hposition : r.position with
  | begin | checkOutput | acquireLock | recheckOutput | removeOrphaned | spawn =>
    rw [hposition] at hi
    exact absurd hidat (not_running_of_unspawned hi.1)
  | wait => exact .inl rfl
  | startKill settlement => exact .inr (.inl ⟨settlement, rfl⟩)
  | reap settlement => exact .inr (.inr ⟨settlement, rfl⟩)
  | removePartial | openDatabase | done =>
    rw [hposition] at hi
    exact absurd hidat hi.1
  | settled | checkExit =>
    rw [hposition] at hi
    exact absurd hidat (Settled.not_running hi)

theorem sound_of_running (hi : r.Sound) (hidat : r.idat = .running)
    (hposition : r'.position = r.position) (hidat' : r'.idat ≠ .unspawned) : r'.Sound := by
  unfold Sound
  rw [hposition]
  rcases waits_of_running hi hidat with hwait | ⟨settlement, hkill⟩ | ⟨settlement, hreap⟩
  · rw [hwait]
    exact hidat'
  · rw [hkill]
    exact hidat'
  · rw [hreap]
    exact hidat'

theorem sound_of_same (hi : r.Sound) (hposition : r'.position = r.position) (hidat : r'.idat = r.idat)
    (houtput : r'.output = r.output) : r'.Sound := by
  have hholds : ∀ position, r.Holds position → r'.Holds position := by
    intro position h
    cases position <;> simpa only [Holds, Settled, Produced, hidat, houtput] using h
  unfold Sound
  rw [hposition]
  exact hholds _ hi

theorem sound_step (hi : r.Sound) (hok : r.Guarded a) (h : r.step a = some r') : r'.Sound := by
  cases a with
  | advance => exact sound_advance hi hok h
  | fails error => exact sound_fails hi hok h
  | lockFails error =>
    simp only [step] at h
    split_ifs at h with hposition
    cases h
    unfold Sound at hi
    rw [hposition] at hi
    exact sound_settle_of_absent (not_running_of_unspawned hi.1) hi.2
  | stop =>
    simp only [step] at h
    split_ifs at h with hwait
    cases h
    unfold Sound at hi
    rw [hwait.1] at hi
    exact hi
  | requestCancel message =>
    simp only [step] at h
    split_ifs at h
    cases h
    exact sound_of_same hi rfl rfl rfl
  | cancel =>
    cases h
    exact sound_of_same hi rfl rfl rfl
  | write artifact =>
    simp only [step] at h
    split_ifs at h with hidat
    cases h
    exact sound_of_running hi hidat rfl (ne_unspawned hidat)
  | erase artifact =>
    simp only [step] at h
    split_ifs at h with hidat
    cases h
    exact sound_of_running hi hidat rfl (ne_unspawned hidat)
  | log line =>
    simp only [step] at h
    split_ifs at h with hidat
    cases h
    exact sound_of_running hi hidat rfl (ne_unspawned hidat)
  | exit code stderr =>
    simp only [step] at h
    split_ifs at h with hidat
    cases h
    exact sound_of_running hi hidat rfl Idat.noConfusion

/-- Where the guard forbids the task's own step, that step ends the run with an incomplete database. -/
theorem reusable_of_not_guarded (hi : r.Sound) (hnot : ¬r.Guarded .advance)
    (h : r.step .advance = some r') : (∃ outcome, r'.position = .done outcome) ∧ ¬r'.Produced ∧
      idaDatabaseOutputExists r'.output = true := by
  unfold Sound at hi
  unfold Guarded guarded at hnot
  split at hnot
  · next exitCode stderr hposition _ =>
    rw [hposition] at hi
    rw [decide_eq_true_iff, Classical.not_imp, Classical.not_imp] at hnot
    obtain ⟨hcancel, hexists, hincomplete⟩ := hnot
    have hr' : r' = r.settle (.finishCancelled settledCancelled) := by
      simp only [step, advance, hposition, hcancel, if_true, Option.some.injEq] at h
      exact h.symm
    rw [hr']
    refine ⟨⟨_, rfl⟩, ?_, hexists⟩
    rintro ⟨⟨stderr', hidat⟩, hi64⟩
    rcases hi with ⟨-, -, habsent⟩ | ⟨code, stderr'', hidat', hcode⟩
    · rw [hexists] at habsent
      cases habsent
    · have hsame : r.idat = .exited (some 0) stderr' := hidat
      rw [hidat'] at hsame
      cases hsame
      exact hincomplete ⟨hcode, hi64⟩
  · next ha => cases ha
  · exact absurd rfl hnot

theorem sound_start {out : String} {output : Output} {log : Option (List String)}
    (h : idaDatabaseOutputExists output = false) : (start out output log).Sound :=
  ⟨rfl, h⟩

theorem sound_of_reachableBy {out : String} {output : Output} {log : Option (List String)}
    (hplan : idaDatabaseOutputExists output = false)
    (h : ReachableBy step Guarded (start out output log) r) : r.Sound :=
  invariant_of_meets (fun _ _ _ hi hok hstep => sound_step hi hok hstep) (sound_start hplan) h

end Run

theorem outputExists_of_plan {sdkVersion : ℤ × ℤ} {i64Exists : Bool}
    (h : dscOpenPlan sdkVersion i64Exists = .legacyIdatBackground) : i64Exists = false := by
  unfold dscOpenPlan at h
  split_ifs at h with hexists
  simpa using hexists

theorem not_direct {sdkVersion : ℤ × ℤ} {i64Exists : Bool} (h : i64Exists = false) :
    dscOpenPlan sdkVersion i64Exists ≠ .directExistingI64 := by
  unfold dscOpenPlan
  rw [h, if_neg Bool.false_ne_true]
  split_ifs
  · decide
  · decide

/-- A run that keeps to the guard ends with a database at its output path only if its idat exited with
code 0 and produced it; a step of the task that does not keep to it leaves an incomplete one. -/
theorem incomplete_output_not_reused {sdkVersion : ℤ × ℤ} {out : String} {output : Output}
    {log : Option (List String)} {r : Run}
    (hplan : dscOpenPlan sdkVersion (idaDatabaseOutputExists output) = .legacyIdatBackground)
    (h : ReachableBy Run.step Run.Guarded (.start out output log) r) :
    (r.position = .openDatabase → r.Produced) ∧
    (∀ outcome, r.position = .done outcome → ¬r.Produced →
      idaDatabaseOutputExists r.output = false ∧
      ∀ sdkVersion', dscOpenPlan sdkVersion' (idaDatabaseOutputExists r.output) ≠ .directExistingI64) ∧
    (∀ r', ¬r.Guarded .advance → r.step .advance = some r' →
      (∃ outcome, r'.position = .done outcome) ∧ ¬r'.Produced ∧ idaDatabaseOutputExists r'.output = true) := by
  have hsound : r.Holds r.position := Run.sound_of_reachableBy (outputExists_of_plan hplan) h
  refine ⟨?_, ?_, fun r' hnot hstep => Run.reusable_of_not_guarded hsound hnot hstep⟩
  · intro hopen
    rw [hopen] at hsound
    exact hsound.2
  · intro outcome hdone hnot
    rw [hdone] at hsound
    have habsent : idaDatabaseOutputExists r.output = false := by
      by_contra hexists
      rw [Bool.not_eq_false] at hexists
      exact hnot (hsound.2 hexists)
    exact ⟨habsent, fun sdkVersion' => not_direct habsent⟩

def spawned : List RunAction := List.replicate 10 .advance

def killed : List RunAction :=
  spawned ++ ([.write .i64, .cancel, .stop, .advance, .exit none ""] : List RunAction) ++
    (List.replicate 8 .advance : List RunAction)

theorem incomplete_output_not_reused_killed :
    ∃ r : Run, r.position = .done (.cancelled killedCancelled) ∧ idaDatabaseOutputExists r.output = false := by
  have hrun : (run Run.step (.start "dyld" (fun _ => false) none) killed).any (fun r =>
      r.position == .done (.cancelled killedCancelled) && r.idat == .exited none "") = true := by
    decide +kernel
  obtain ⟨r, hr, hend⟩ := (Option.any_eq_true ..).mp hrun
  obtain ⟨hdone, hidat⟩ := (Bool.and_eq_true_iff ..).mp hend
  rw [beq_iff_eq] at hdone hidat
  have hnot : ¬r.Produced := by
    rintro ⟨⟨stderr, hexit⟩, -⟩
    rw [hidat] at hexit
    cases hexit
  refine ⟨r, hdone, ?_⟩
  exact ((@incomplete_output_not_reused (9, 3) _ _ _ _ (by decide)
    ⟨killed, by decide +kernel, hr⟩).2.1 _ hdone hnot).1

def cancelledAfterExit : List RunAction :=
  spawned ++ ([.write .i64, .exit (some 1) "", .advance, .cancel, .advance] : List RunAction)

theorem failed_output_reused : ∃ r : Run,
    Reachable Run.step (.start "dyld" (fun _ => false) none) r ∧
    r.position = .done (.cancelled settledCancelled) ∧ ¬r.Produced ∧
    dscOpenPlan (9, 3) (idaDatabaseOutputExists r.output) = .directExistingI64 := by
  have hrun : (run Run.step (.start "dyld" (fun _ => false) none) cancelledAfterExit).any (fun r =>
      r.position == .done (.cancelled settledCancelled) && r.idat == .exited (some 1) "" &&
        r.output .i64) = true := by
    decide +kernel
  obtain ⟨r, hr, hend⟩ := (Option.any_eq_true ..).mp hrun
  obtain ⟨hend, hi64⟩ := (Bool.and_eq_true_iff ..).mp hend
  obtain ⟨hdone, hidat⟩ := (Bool.and_eq_true_iff ..).mp hend
  rw [beq_iff_eq] at hdone hidat
  refine ⟨r, ⟨_, hr⟩, hdone, ?_, ?_⟩
  · rintro ⟨⟨stderr, hexit⟩, -⟩
    rw [hidat] at hexit
    cases hexit
  · rw [idaDatabaseOutputExists, hi64]
    rfl

end IdaMcp.Dsc
