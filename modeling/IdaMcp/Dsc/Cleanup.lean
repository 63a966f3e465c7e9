import IdaMcp.Dsc.Idat

namespace IdaMcp.Dsc

open Foundation

inductive Phase
  | opening
  | preparing
  | waiting
  | cleaned
  | past

def Position.phase : Position → Phase
  | .begin => .opening
  | .checkOutput | .acquireLock | .recheckOutput | .removeOrphaned _ | .spawn => .preparing
  | .wait | .startKill _ | .reap _ => .waiting
  | .checkExit _ _ | .openDatabase => .cleaned
  | .removePartial _ _ | .settled _ _ | .done _ => .past

namespace Run

variable {r r' : Run} {a : RunAction}

def holds (r : Run) : Bool := r.position == .begin || r.scriptCleanup

/-- The run does not end before its guard is armed, and a wait for a killed process does not fail while
the process runs. -/
def kept (r : Run) (a : RunAction) : Bool :=
  match r.position, a with
  | .begin, .advance => !r.cancelToken
  | .reap _, .fails _ => decide (r.idat ≠ .running)
  | _, _ => true

/-- The guard stays armed for as long as idat may run. -/
def Attends (r : Run) : Phase → Prop
  | .opening => r.idat = .unspawned ∧ r.scriptCleanup = false
  | .preparing => r.idat = .unspawned ∧ r.scriptCleanup = true
  | .waiting => r.idat ≠ .unspawned ∧ r.scriptCleanup = true
  | .cleaned => r.idat ≠ .running ∧ r.scriptCleanup = false
  | .past => r.idat ≠ .running

def Attended (r : Run) : Prop := r.Attends r.position.phase

theorem attended_of_phase {phase : Phase} (hphase : r.position.phase = phase) (h : r.Attends phase) :
    r.Attended := by
  unfold Attended
  rw [hphase]
  exact h

theorem Attended.waiting (hr : r.Attended) (hidat : r.idat = .running) :
    r.position.phase = .waiting ∧ r.scriptCleanup = true := by
  unfold Attended at hr
  cases hphase : r.position.phase with
  | opening | preparing =>
    rw [hphase] at hr
    have hunspawned := hr.1
    rw [hidat] at hunspawned
    cases hunspawned
  | waiting =>
    rw [hphase] at hr
    exact ⟨rfl, hr.2⟩
  | cleaned =>
    rw [hphase] at hr
    exact absurd hidat hr.1
  | past =>
    rw [hphase] at hr
    exact absurd hidat hr

theorem Attended.of_running (hr : r.Attended) (hidat : r.idat = .running) (hposition : r'.position = r.position)
    (hcleanup : r'.scriptCleanup = r.scriptCleanup) (hidat' : r'.idat ≠ .unspawned) : r'.Attended := by
  obtain ⟨hphase, hguard⟩ := hr.waiting hidat
  have hphase' : r'.position.phase = .waiting := by
    rw [hposition]
    exact hphase
  exact attended_of_phase hphase' ⟨hidat', hcleanup.trans hguard⟩

theorem Attended.of_same (hr : r.Attended) (hposition : r'.position = r.position) (hidat : r'.idat = r.idat)
    (hcleanup : r'.scriptCleanup = r.scriptCleanup) : r'.Attended := by
  unfold Attended at hr
  rw [← hposition] at hr
  cases hphase : r'.position.phase with
  | opening | preparing | waiting | cleaned | past =>
    apply attended_of_phase hphase
    rw [hphase] at hr
    unfold Attends at hr ⊢
    simpa only [hidat, hcleanup] using hr

theorem attended_past (hidat : r.idat ≠ .running) {r' : Run} (hphase : r'.position.phase = .past)
    (hidat' : r'.idat = r.idat) : r'.Attended := by
  apply attended_of_phase hphase
  unfold Attends
  rw [hidat']
  exact hidat

theorem attended_advance (hr : r.Attended) (h : r.advance = some r') : r'.Attended := by
  unfold advance at h
  split at h
  all_goals rename_i hposition; simp only [Attended, hposition, Position.phase, Attends] at hr
  · split_ifs at h
    · cases h
      exact attended_past (not_running_of_unspawned hr.1) rfl rfl
    · cases h
      exact ⟨hr.1, rfl⟩
  · split_ifs at h
    · cases h
      exact attended_past (not_running_of_unspawned hr.1) rfl rfl
    · cases h
      exact hr
  · cases h
    exact hr
  · split_ifs at h
    · cases h
      exact attended_past (not_running_of_unspawned hr.1) rfl rfl
    · cases h
      exact hr
  · cases h
    exact hr
  · cases h
    exact hr
  · cases h
    exact ⟨Idat.noConfusion, hr.2⟩
  · split at h
    · next hidat =>
      cases h
      exact attended_past (not_running_of_exited hidat) rfl rfl
    · cases h
  · cases h
    exact hr
  · split at h
    · next hidat =>
      cases h
      exact attended_past (not_running_of_exited hidat) rfl rfl
    · cases h
  · cases h
    exact hr
  · cases h
    exact hr
  · split_ifs at h
    · cases h
      exact hr
    · cases h
      exact ⟨hr, rfl⟩
  · split_ifs at h
    · cases h
      exact attended_past hr.1 rfl rfl
    · cases h
      exact hr
  · cases h
  · split_ifs at h
    cases h
    exact attended_past hr (congrArg Position.phase hposition) rfl

theorem attended_fails {error : String} (hr : r.Attended) (hkept : r.kept (.fails error))
    (h : r.fails error = some r') : r'.Attended := by
  unfold kept at hkept
  unfold fails at h
  split at h
  all_goals try (rename_i hposition; simp only [Attended, hposition, Position.phase, Attends] at hr)
  · cases h
    exact attended_past (not_running_of_unspawned hr.1) rfl rfl
  · cases h
    exact attended_past (not_running_of_unspawned hr.1) rfl rfl
  · cases h
    exact hr
  · rw [hposition] at hkept
    cases h
    exact attended_past (of_decide_eq_true hkept) rfl rfl
  · cases h

theorem attended_step (hr : r.Attended) (hkept : r.kept a) (h : r.step a = some r') : r'.Attended := by
  cases a with
  | advance => exact attended_advance hr h
  | fails error => exact attended_fails hr hkept h
  | lockFails error =>
    simp only [step] at h
    split_ifs at h with hposition
    cases h
    simp only [Attended, hposition, Position.phase, Attends] at hr
    exact attended_past (not_running_of_unspawned hr.1) rfl rfl
  | stop =>
    simp only [step] at h
    split_ifs at h with hwait
    cases h
    simp only [Attended, hwait.1, Position.phase, Attends] at hr
    exact hr
  | requestCancel message =>
    simp only [step] at h
    split_ifs at h
    cases h
    exact hr.of_same rfl rfl rfl
  | cancel =>
    cases h
    exact hr.of_same rfl rfl rfl
  | write artifact | erase artifact | log line =>
    simp only [step] at h
    split_ifs at h with hidat
    cases h
    refine hr.of_running hidat rfl rfl ?_
    change r.idat ≠ .unspawned
    rw [hidat]
    exact Idat.noConfusion
  | exit code stderr =>
    simp only [step] at h
    split_ifs at h with hidat
    cases h
    exact hr.of_running hidat rfl rfl Idat.noConfusion

theorem step_cleanup (h : r.step a = some r') :
    (r.position = .begin ∧ (r'.position = .begin ∨ r'.scriptCleanup = true ∨ r.kept a = false)) ∨
    (r.position ≠ .begin ∧ r'.position ≠ .begin ∧ (r'.scriptCleanup = true → r.scriptCleanup = true)) := by
  have hsame : ∀ r'' : Run, r''.position = r.position → r''.scriptCleanup = r.scriptCleanup →
      (r.position = .begin ∧ (r''.position = .begin ∨ r''.scriptCleanup = true ∨ r.kept a = false)) ∨
      (r.position ≠ .begin ∧ r''.position ≠ .begin ∧
        (r''.scriptCleanup = true → r.scriptCleanup = true)) := by
    intro r'' hposition hcleanup
    by_cases hbegin : r.position = .begin
    · exact .inl ⟨hbegin, .inl (hposition.trans hbegin)⟩
    · exact .inr ⟨hbegin, hposition ▸ hbegin, fun hc => hcleanup ▸ hc⟩
  cases a with
  | advance =>
    simp only [step] at h
    unfold advance at h
    split at h
    all_goals rename_i hposition
    · refine .inl ⟨hposition, .inr ?_⟩
      split_ifs at h with hcancel
      · right
        simp [kept, hposition, hcancel]
      · left
        cases h
        rfl
    all_goals right
    all_goals repeat' split at h
    all_goals cases h
    all_goals simp [goto, settle, remove, hposition]
  | fails error =>
    simp only [step] at h
    unfold fails at h
    split at h
    all_goals cases h
    all_goals right
    all_goals rename_i hposition
    all_goals simp [goto, settle, hposition]
  | lockFails error | stop =>
    simp only [step] at h
    split_ifs at h with hposition
    cases h
    right
    simp [goto, settle, hposition]
  | requestCancel message | write artifact | erase artifact | log line | exit code stderr =>
    simp only [step] at h
    split_ifs at h
    cases h
    exact hsame _ rfl rfl
  | cancel =>
    cases h
    exact hsame _ rfl rfl

theorem holds_of_step (h : r.step a = some r') (hr' : r'.holds = true) : r.holds = true := by
  unfold holds at hr' ⊢
  rw [Bool.or_eq_true, beq_iff_eq] at hr' ⊢
  rcases step_cleanup h with ⟨hbegin, -⟩ | ⟨-, hbegin, hcleanup⟩
  · exact .inl hbegin
  · exact .inr (hcleanup (hr'.resolve_left hbegin))

theorem holds_or_removes (h : r.step a = some r') (hkept : r.kept a = true) (hr : r.holds = true) :
    r'.holds = true ∨ (r.scriptCleanup && !r'.scriptCleanup) = true := by
  unfold holds at hr ⊢
  rw [Bool.or_eq_true, beq_iff_eq] at hr ⊢
  rw [Bool.and_eq_true, Bool.not_eq_true']
  rcases step_cleanup h with ⟨-, hbegin | hcleanup | hlost⟩ | ⟨hbegin, -, -⟩
  · exact .inl (.inl hbegin)
  · exact .inl (.inr hcleanup)
  · rw [hkept] at hlost
    cases hlost
  · cases hcleanup : r'.scriptCleanup with
    | true => exact .inl (.inr rfl)
    | false => exact .inr ⟨hr.resolve_left hbegin, rfl⟩

theorem not_holds_of_removes (hr : r.Attended) (h : r.step a = some r')
    (hremoves : (r.scriptCleanup && !r'.scriptCleanup) = true) : r'.holds = false := by
  rw [Bool.and_eq_true, Bool.not_eq_true'] at hremoves
  have hbegin : r.position ≠ .begin := by
    intro hbegin
    simp only [Attended, hbegin, Position.phase, Attends] at hr
    rw [hr.2] at hremoves
    cases hremoves.1
  rcases step_cleanup h with ⟨hbegin', -⟩ | ⟨-, hbegin', -⟩
  · exact absurd hbegin' hbegin
  · rw [holds, hremoves.2, Bool.or_false, beq_eq_false_iff_ne]
    exact hbegin'

end Run

end IdaMcp.Dsc
