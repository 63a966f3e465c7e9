import IdaMcp.Debugger.Runtime

namespace IdaMcp.Debugger

inductive Request
  | launch (timeoutSeconds : ℕ)
  | attach (timeoutSeconds : ℕ)
  | modules
  | stop (action : StopAction) (timeoutSeconds : ℕ)
  | closeSession

structure Call where
  request : Request
  idb : Option Database
  answers : Answers

def step (platform : Platform) (runtime : DebuggerRuntime) (call : Call) : Outcome :=
  match call.request with
  | .launch timeoutSeconds => launch platform runtime call.idb timeoutSeconds call.answers
  | .attach timeoutSeconds => attach platform runtime call.idb timeoutSeconds call.answers
  | .modules => modules platform runtime call.idb call.answers
  | .stop action timeoutSeconds => stop platform runtime call.idb action timeoutSeconds call.answers
  | .closeSession => closeSession runtime call.idb call.answers

structure Record where
  before : DebuggerRuntime
  call : Call
  outcome : Outcome

def run (platform : Platform) : DebuggerRuntime → List Call → List Record
  | _, [] => []
  | runtime, call :: calls =>
    let outcome := step platform runtime call
    ⟨runtime, call, outcome⟩ :: run platform outcome.runtime calls

def final (platform : Platform) (runtime : DebuggerRuntime) (calls : List Call) : DebuggerRuntime :=
  calls.foldl (fun runtime call => (step platform runtime call).runtime) runtime

/-! Who owns a debuggee, as the calls show it. -/

/-- The start that returned, or failed while a process was observed. -/
def tookOwnership : List SdkCall → Option SessionKind
  | .start kind (.ok _) :: _ => some kind
  | .start kind (.error _) :: .observe state :: _ => if state = .noProcess then none else some kind
  | _ => none

def SdkCall.ends : SdkCall → Bool
  | terminate (.ok _) | detach (.ok _) | observe .noProcess => true
  | _ => false

/-- Every end that a stop or a close has seen. -/
def confirmedEnd (record : Record) : Bool :=
  match record.call.request with
  | .stop _ _ | .closeSession => record.outcome.sdk.any SdkCall.ends
  | _ => false

/-- An end seen by a stop that returns or by a close, or a close without a database. -/
def ended (record : Record) : Bool :=
  match record.call.request with
  | .stop _ _ => record.outcome.result.toBool && record.outcome.sdk.any SdkCall.ends
  | .closeSession => record.call.idb.isNone || record.outcome.sdk.any SdkCall.ends
  | _ => false

def owner (isEnd : Record → Bool) (records : List Record) : Option SessionKind :=
  records.foldl (fun owner record =>
    if isEnd record then none else (tookOwnership record.outcome.sdk).or owner) none

/-! One call. -/

theorem ensureBackend_session {platform : Platform} {runtime runtime' : DebuggerRuntime}
    {database : Database} {answers : Answers} {result : Except ToolError String}
    (h : ensureBackend platform runtime database answers = (runtime', result)) :
    runtime'.session = runtime.session := by
  unfold ensureBackend loadBackend at h
  grind

def reported : Except ToolError Reply → Option Bool
  | .ok (.started _ _ _ sessionRetained) => some sessionRetained
  | .ok (.userActionRequired _ _ sessionRetained _ _) => some sessionRetained
  | .error (.debuggerStartRetained _) => some true
  | _ => none

inductive StartOutcome (runtime : DebuggerRuntime) (kind : SessionKind) : Outcome → Prop
  | rejected {runtime' : DebuggerRuntime} {e : ToolError} (hsession : runtime'.session = runtime.session)
      (hsame : runtime.session.isSome → runtime' = runtime)
      (hreported : reported (.error e) = none) : StartOutcome runtime kind ⟨runtime', .error e, []⟩
  | returned {runtime' : DebuggerRuntime} {reply : Reply} {eventCode : ℤ} {state : ProcessState}
      (hfree : runtime.session = none) (hsession : runtime'.session = some kind)
      (hreported : reported (.ok reply) = some true) :
      StartOutcome runtime kind ⟨runtime', .ok reply, [.start kind (.ok eventCode), .observe state]⟩
  | failed {runtime' : DebuggerRuntime} {result : Except ToolError Reply} {error : String}
      {state : ProcessState} (hfree : runtime.session = none)
      (hsession : runtime'.session = if state = .noProcess then none else some kind)
      (hreported : (reported result).getD false = runtime'.session.isSome) :
      StartOutcome runtime kind ⟨runtime', result, [.start kind (.error error), .observe state]⟩

theorem debuggerBackend_error {platform : Platform} {database : Database} {e : ToolError}
    (h : debuggerBackend platform database = .error e) : ∃ detail, e = .notSupported detail := by
  unfold debuggerBackend targetArchitecture at h
  split at h
  · rename_i e' harchitecture
    split_ifs at harchitecture
    cases harchitecture
    cases h
    exact ⟨_, rfl⟩
  · split at h
    · cases h
    · cases h
      exact ⟨_, rfl⟩

theorem loadBackend_error {runtime : DebuggerRuntime} {backend : String} {answers : Answers}
    {runtime' : DebuggerRuntime} {e : ToolError}
    (h : loadBackend runtime backend answers = (runtime', .error e)) : ∃ detail, e = .idaError detail := by
  unfold loadBackend at h
  split_ifs at h
  · cases h
  · split at h
    · cases h
    · cases h
      exact ⟨_, rfl⟩

theorem ensureBackend_reported {platform : Platform} {runtime runtime' : DebuggerRuntime}
    {database : Database} {answers : Answers} {e : ToolError}
    (h : ensureBackend platform runtime database answers = (runtime', .error e)) :
    reported (.error e) = none := by
  have hload {runtime : DebuggerRuntime} {backend : String}
      (h : loadBackend runtime backend answers = (runtime', .error e)) : reported (.error e) = none := by
    obtain ⟨detail, rfl⟩ := loadBackend_error h
    rfl
  unfold ensureBackend at h
  split at h
  · rename_i e' hbackend
    cases h
    obtain ⟨detail, rfl⟩ := debuggerBackend_error hbackend
    rfl
  · split at h
    · split at h
      · cases h
        rfl
      · dsimp only at h
        split at h
        · rename_i helper hhelper
          cases h
          cases helper <;> rfl
        · exact hload h
    · exact hload h
    · exact hload h
    · cases h
      rfl

theorem start_cases (platform : Platform) (runtime : DebuggerRuntime) (idb : Option Database)
    (kind : SessionKind) (timeoutSeconds : ℕ) (denialMessage : String) (answers : Answers) :
    StartOutcome runtime kind
      (startDebugSession platform runtime idb kind timeoutSeconds denialMessage answers) := by
  unfold startDebugSession
  split
  · rename_i e hinvalid
    refine .rejected rfl (fun _ => rfl) ?_
    unfold validateTimeout at hinvalid
    split_ifs at hinvalid
    cases hinvalid
    rfl
  · exact .rejected rfl (fun _ => rfl) rfl
  · rename_i e hactive hvalid
    refine .rejected rfl (fun _ => rfl) ?_
    unfold DebuggerRuntime.ensureStartAllowed at hactive
    split_ifs at hactive
    cases hactive
    rfl
  · rename_i database hallowed
    have hfree : runtime.session = none := by
      unfold DebuggerRuntime.ensureStartAllowed at hallowed
      split_ifs at hallowed with hsome
      simpa using hsome
    split
    · rename_i runtime' e hbackend
      exact .rejected (ensureBackend_session hbackend) (fun hsome => by simp [hfree] at hsome)
        (ensureBackend_reported hbackend)
    · rename_i runtime' backend hbackend
      have hsession : runtime'.session = none := (ensureBackend_session hbackend).trans hfree
      split
      · exact .returned hfree rfl rfl
      · rename_i error hstart
        unfold DebuggerRuntime.retainSessionAfterStartError
        dsimp only
        by_cases hstate : answers.processState = .noProcess
        · split_ifs <;> exact .failed hfree (by simp_all) (by simp_all [reported, startError, debuggerError])
        · split_ifs <;> exact .failed hfree (by simp_all) (by simp_all [reported, startError, debuggerError])

def teardownCall (kind : SessionKind) (answers : Answers) : SdkCall :=
  match kind with
  | .launched => .terminate answers.terminate
  | .attached => .detach answers.detach

/-- Only a launched target is terminated, and only an attached one detached. -/
def TornDown (runtime : DebuggerRuntime) (sdk : List SdkCall) : Prop :=
  ∀ answer, (.terminate answer ∈ sdk → runtime.session = some .launched) ∧
    (.detach answer ∈ sdk → runtime.session = some .attached)

structure EndOutcome (runtime : DebuggerRuntime) (answers : Answers) (byKind : Prop)
    (outcome : Outcome) : Prop where
  session : outcome.result.toBool = false ∧ outcome.runtime.session = runtime.session ∨
    outcome.result.toBool = true ∧ outcome.runtime.session = none ∧
      (outcome.sdk.any SdkCall.ends = true ∨ runtime.session = none)
  took : tookOwnership outcome.sdk = none
  tornDown : byKind → TornDown runtime outcome.sdk
  teardown : byKind → outcome.result.toBool = true → answers.processState ≠ .noProcess →
    ∀ kind, runtime.session = some kind → teardownCall kind answers ∈ outcome.sdk

theorem tookOwnership_observed {sdk : List SdkCall} (hsdk : ∀ call ∈ sdk, ∃ state, call = .observe state) :
    tookOwnership sdk = none := by
  cases sdk with
  | nil => rfl
  | cons call sdk =>
    obtain ⟨state, rfl⟩ := hsdk call List.mem_cons_self
    rfl

theorem tornDown_observed {sdk : List SdkCall} (runtime : DebuggerRuntime)
    (hsdk : ∀ call ∈ sdk, ∃ state, call = .observe state) : TornDown runtime sdk := by
  intro answer
  constructor
  · intro hmem
    obtain ⟨state, h⟩ := hsdk _ hmem
    cases h
  · intro hmem
    obtain ⟨state, h⟩ := hsdk _ hmem
    cases h

theorem endOutcome_error {runtime runtime' : DebuggerRuntime} {answers : Answers} {byKind : Prop}
    {e : ToolError} {sdk : List SdkCall} (hsession : runtime'.session = runtime.session)
    (hsdk : ∀ call ∈ sdk, ∃ state, call = .observe state) :
    EndOutcome runtime answers byKind ⟨runtime', .error e, sdk⟩ where
  session := .inl ⟨rfl, hsession⟩
  took := tookOwnership_observed hsdk
  tornDown := fun _ => tornDown_observed runtime hsdk
  teardown := fun _ hok => nomatch hok

theorem teardown_outcome {runtime runtime' : DebuggerRuntime} {backend : String} {resolved : StopAction}
    {answers : Answers} {byKind : Prop} (kind : SessionKind) (hsession : runtime'.session = runtime.session)
    (hkind : byKind → runtime.session = some kind) :
    EndOutcome runtime answers byKind
      (match kind with
        | .launched => teardown runtime' backend resolved answers.terminate .terminate answers
        | .attached => teardown runtime' backend resolved answers.detach .detach answers) := by
  have hsame : ∀ kind', byKind → runtime.session = some kind' → kind' = kind := by
    intro kind' hby hsome
    rw [hkind hby] at hsome
    exact (Option.some_inj.mp hsome).symm
  cases kind <;> dsimp only <;> unfold teardown <;> split
  all_goals
    constructor
    · simp_all [Except.toBool, DebuggerRuntime.clearSession, SdkCall.ends]
    · rfl
    · intro hby answer
      simp_all
    · intro hby hok hstate kind' hsome
      cases hsame kind' hby hsome
      simp_all [teardownCall, Except.toBool]

theorem cleared_outcome {runtime runtime' : DebuggerRuntime} {answers : Answers} {byKind : Prop}
    {reply : Reply} {sdk : List SdkCall} (hsdk : ∀ call ∈ sdk, ∃ state, call = .observe state)
    (hends : sdk.any SdkCall.ends = true ∨ runtime.session = none)
    (hstate : runtime.session.isSome → answers.processState = .noProcess) :
    EndOutcome runtime answers byKind ⟨runtime'.clearSession, .ok reply, sdk⟩ where
  session := .inr ⟨rfl, rfl, hends⟩
  took := tookOwnership_observed hsdk
  tornDown := fun _ => tornDown_observed runtime hsdk
  teardown := by
    intro _ _ hprocess kind hkind
    exact absurd (hstate (by rw [hkind]; rfl)) hprocess

theorem stop_outcome (platform : Platform) (runtime : DebuggerRuntime) (idb : Option Database)
    (action : StopAction) (timeoutSeconds : ℕ) (answers : Answers) :
    EndOutcome runtime answers (action = .auto)
      (stop platform runtime idb action timeoutSeconds answers) := by
  have hnone : ∀ call ∈ ([] : List SdkCall), ∃ state, call = SdkCall.observe state := by simp
  unfold stop
  split
  · exact endOutcome_error rfl hnone
  · exact endOutcome_error rfl hnone
  · exact endOutcome_error rfl hnone
  · rename_i database session hvalid hkind
    have hsession : runtime.session = some session := by
      unfold DebuggerRuntime.sessionKind at hkind
      split at hkind
      · cases hkind
        assumption
      · cases hkind
    dsimp only
    split_ifs with hprocess
    · split
      · exact endOutcome_error rfl (by simp)
      · exact cleared_outcome (by simp) (.inl rfl) fun _ => hprocess
    · split
      · rename_i runtime' e hbackend
        exact endOutcome_error (ensureBackend_session hbackend) (by simp)
      · rename_i runtime' backend hbackend
        have hsame := ensureBackend_session hbackend
        cases action with
        | auto =>
          cases session with
          | launched => exact teardown_outcome .launched hsame fun _ => hsession
          | attached => exact teardown_outcome .attached hsame fun _ => hsession
        | detach => exact teardown_outcome .attached hsame fun h => nomatch h
        | terminate => exact teardown_outcome .launched hsame fun h => nomatch h

theorem closeTeardown_outcome {runtime : DebuggerRuntime} {answers : Answers} {kind : SessionKind}
    (hkind : runtime.session = some kind) (hprocess : answers.processState ≠ .noProcess) :
    EndOutcome runtime answers True (match kind with
      | .launched => closeTeardown runtime answers.terminate .terminate answers
      | .attached => closeTeardown runtime answers.detach .detach answers) ∧
      ∀ outcome, outcome = (match kind with
        | .launched => closeTeardown runtime answers.terminate .terminate answers
        | .attached => closeTeardown runtime answers.detach .detach answers) →
        outcome.sdk.any SdkCall.ends = outcome.result.toBool := by
  cases kind <;> dsimp only <;> unfold closeTeardown <;> split
  all_goals
    constructor
    · constructor
      · simp_all [Except.toBool, DebuggerRuntime.clearSession, SdkCall.ends]
      · rfl
      · intro hby answer
        simp_all
      · intro hby hok hstate kind' hsome
        simp_all [teardownCall, Except.toBool]
    · rintro _ rfl
      simp_all [SdkCall.ends, Except.toBool]

theorem closeSession_none (runtime : DebuggerRuntime) (answers : Answers) :
    closeSession runtime none answers = ⟨runtime.clearSession, .ok .closed, []⟩ := by
  unfold closeSession
  cases runtime.session <;> rfl

theorem close_outcome (runtime : DebuggerRuntime) (database : Database) (answers : Answers) :
    EndOutcome runtime answers True (closeSession runtime (some database) answers) ∧
      ((closeSession runtime (some database) answers).sdk.any SdkCall.ends = true →
        (closeSession runtime (some database) answers).result.toBool = true) := by
  unfold closeSession
  cases hsession : runtime.session with
  | none =>
    exact ⟨cleared_outcome (by simp) (.inr hsession) (fun hsome => by simp [hsession] at hsome),
      fun _ => rfl⟩
  | some kind =>
    dsimp only
    split_ifs with hprocess
    · exact ⟨cleared_outcome (by simp) (.inl rfl) fun _ => hprocess, fun _ => rfl⟩
    · have hteardown := closeTeardown_outcome hsession hprocess
      constructor
      · cases kind <;> exact hteardown.1
      · intro hends
        have hresult := hteardown.2 _ rfl
        cases kind <;> exact hresult.symm.trans hends

theorem modules_outcome (platform : Platform) (runtime : DebuggerRuntime) (idb : Option Database)
    (answers : Answers) :
    (modules platform runtime idb answers).runtime.session = runtime.session ∧
      tookOwnership (modules platform runtime idb answers).sdk = none := by
  unfold modules
  split
  · exact ⟨rfl, rfl⟩
  · exact ⟨rfl, rfl⟩
  · split
    · rename_i hbackend
      exact ⟨ensureBackend_session hbackend, rfl⟩
    · rename_i hbackend
      split <;> exact ⟨ensureBackend_session hbackend, rfl⟩

/-! A run of calls. -/

theorem start_session {runtime : DebuggerRuntime} {kind : SessionKind} {outcome : Outcome}
    (h : StartOutcome runtime kind outcome) :
    outcome.runtime.session = (tookOwnership outcome.sdk).or runtime.session := by
  cases h with
  | rejected hsession _ _ => exact hsession
  | returned _ hsession _ => exact hsession
  | @failed _ _ _ state hfree hsession _ =>
    simp only [tookOwnership, hsession, hfree]
    split_ifs <;> rfl

theorem stop_session {runtime : DebuggerRuntime} {answers : Answers} {byKind : Prop} {outcome : Outcome}
    (h : EndOutcome runtime answers byKind outcome) :
    outcome.runtime.session = if outcome.result.toBool && outcome.sdk.any SdkCall.ends then none
      else (tookOwnership outcome.sdk).or runtime.session := by
  rw [h.took, Option.none_or]
  obtain ⟨hfail, hsession⟩ | ⟨hok, hsession, hends⟩ := h.session
  · simp [hfail, hsession]
  · rcases hends with hends | hnone
    · simp [hok, hends, hsession]
    · simp [hsession, hnone]

theorem step_session (platform : Platform) (runtime : DebuggerRuntime) (call : Call) :
    (step platform runtime call).runtime.session =
      if ended ⟨runtime, call, step platform runtime call⟩ then none
      else (tookOwnership (step platform runtime call).sdk).or runtime.session := by
  obtain ⟨request, idb, answers⟩ := call
  cases request with
  | launch timeoutSeconds => exact start_session (start_cases ..)
  | attach timeoutSeconds => exact start_session (start_cases ..)
  | modules =>
    obtain ⟨hsession, htook⟩ := modules_outcome platform runtime idb answers
    simp only [step, ended, htook]
    exact hsession
  | stop action timeoutSeconds => exact stop_session (stop_outcome ..)
  | closeSession =>
    cases idb with
    | none => simp [step, ended, closeSession_none, DebuggerRuntime.clearSession]
    | some database =>
      obtain ⟨houtcome, hends⟩ := close_outcome runtime database answers
      have hsession := stop_session houtcome
      rw [Bool.and_eq_right_iff_imp.mpr hends] at hsession
      simpa [step, ended] using hsession

theorem final_session (platform : Platform) (runtime : DebuggerRuntime) (calls : List Call) :
    (final platform runtime calls).session =
      (run platform runtime calls).foldl (fun owner record =>
        if ended record then none else (tookOwnership record.outcome.sdk).or owner) runtime.session := by
  induction calls generalizing runtime with
  | nil => rfl
  | cons call calls ih =>
    simp only [final, run, List.foldl_cons] at ih ⊢
    rw [ih, step_session]

theorem mem_run {platform : Platform} {runtime : DebuggerRuntime} {calls : List Call} {record : Record}
    (h : record ∈ run platform runtime calls) : record.outcome = step platform record.before record.call := by
  induction calls generalizing runtime with
  | nil => cases h
  | cons call calls ih =>
    obtain rfl | h := List.mem_cons.mp h
    · rfl
    · exact ih h

def Request.isStart : Request → Bool
  | launch _ | attach _ => true
  | _ => false

def Request.isEnd : Request → Bool
  | stop _ _ | closeSession => true
  | _ => false

def Request.byKind : Request → Bool
  | stop .auto _ | closeSession => true
  | _ => false

structure CallRight (record : Record) : Prop where
  /-- A start while a session is active fails, does nothing and changes nothing. -/
  second : record.call.request.isStart → record.before.session.isSome →
    record.outcome.result.toBool = false ∧ record.outcome.sdk = [] ∧ record.outcome.runtime = record.before
  failed : record.call.request.isEnd → record.outcome.result.toBool = false →
    record.outcome.runtime.session = record.before.session
  tornDown : record.call.request.byKind → TornDown record.before record.outcome.sdk
  teardown : record.call.request.byKind → record.call.idb.isSome → record.outcome.result.toBool = true →
    record.call.answers.processState ≠ .noProcess →
    ∀ kind, record.before.session = some kind → teardownCall kind record.call.answers ∈ record.outcome.sdk
  /-- A start reports the ownership that it leaves, and one that is not rejected as the second
  reports it always. -/
  reported : record.call.request.isStart →
    (∀ retained, reported record.outcome.result = some retained →
      retained = record.outcome.runtime.session.isSome) ∧
    (record.before.session = none →
      (reported record.outcome.result).getD false = record.outcome.runtime.session.isSome)

theorem start_right {runtime : DebuggerRuntime} {call : Call} {kind : SessionKind} {outcome : Outcome}
    (hstart : call.request.isStart) (h : StartOutcome runtime kind outcome) :
    CallRight ⟨runtime, call, outcome⟩ where
  second := by
    intro _ hsome
    cases h with
    | rejected _ hsame _ => exact ⟨rfl, rfl, hsame hsome⟩
    | returned hfree _ _ => simp [hfree] at hsome
    | failed hfree _ _ => simp [hfree] at hsome
  failed := by
    intro hend
    cases hrequest : call.request <;> simp_all [Request.isStart, Request.isEnd]
  tornDown := by
    intro hend
    cases hrequest : call.request <;> simp_all [Request.isStart, Request.byKind]
  teardown := by
    intro hend
    cases hrequest : call.request <;> simp_all [Request.isStart, Request.byKind]
  reported := by
    intro _
    cases h with
    | rejected hsession _ hreported =>
      constructor
      · intro retained hretained
        rw [hreported] at hretained
        cases hretained
      · intro hnone
        rw [hreported, hsession, hnone]
        rfl
    | returned _ hsession hreported => simp [hsession, hreported]
    | failed _ _ hreported =>
      constructor
      · intro retained hretained
        rw [← hreported, hretained]
        rfl
      · exact fun _ => hreported

theorem end_right {runtime : DebuggerRuntime} {call : Call} {outcome : Outcome}
    (hend : call.request.isEnd)
    (h : EndOutcome runtime call.answers (call.request.byKind = true) outcome) :
    CallRight ⟨runtime, call, outcome⟩ where
  second := by
    intro hstart
    cases hrequest : call.request <;> simp_all [Request.isStart, Request.isEnd]
  failed := by
    intro _ hfail
    obtain ⟨_, hsession⟩ | ⟨hok, _⟩ := h.session
    · exact hsession
    · rw [hfail] at hok
      cases hok
  tornDown := h.tornDown
  teardown := fun hby _ => h.teardown hby
  reported := by
    intro hstart
    cases hrequest : call.request <;> simp_all [Request.isStart, Request.isEnd]

theorem step_right (platform : Platform) (runtime : DebuggerRuntime) (call : Call) :
    CallRight ⟨runtime, call, step platform runtime call⟩ := by
  obtain ⟨request, idb, answers⟩ := call
  cases request with
  | launch timeoutSeconds => exact start_right rfl (start_cases ..)
  | attach timeoutSeconds => exact start_right rfl (start_cases ..)
  | modules => constructor <;> intro hrequest <;> cases hrequest
  | stop action timeoutSeconds =>
    have h := stop_outcome platform runtime idb action timeoutSeconds answers
    refine end_right rfl ⟨h.session, h.took, fun hby => h.tornDown ?_, fun hby => h.teardown ?_⟩
    all_goals cases action <;> first | rfl | cases hby
  | closeSession =>
    cases idb with
    | none =>
      simp only [step, closeSession_none]
      constructor <;> simp [Request.isStart, Request.isEnd, TornDown, Except.toBool]
    | some database =>
      have h := (close_outcome runtime database answers).1
      exact end_right rfl ⟨h.session, h.took, fun _ => h.tornDown trivial, fun _ => h.teardown trivial⟩

/-- In every run the session is the one that the last start took and nothing has ended, and every
call does what the ownership asks for. -/
theorem ownership_tracked (platform : Platform) (calls : List Call) :
    (final platform {} calls).session = owner ended (run platform {} calls) ∧
      ∀ record ∈ run platform {} calls, CallRight record := by
  constructor
  · exact final_session platform {} calls
  · intro record hmem
    have houtcome := mem_run hmem
    obtain ⟨before, call, outcome⟩ := record
    obtain rfl : outcome = step platform before call := houtcome
    exact step_right platform before call

def elfDatabase : Database where
  isArm := false
  is386 := true
  is64bit := true
  shortName := "metapc"
  fileType := .elf

def runningAnswers : Answers where
  helper := .ok ()
  helperReplaced := false
  load := .ok ()
  start := .ok 1
  terminate := .ok 1
  detach := .ok 1
  modules := .ok []
  processState := .running
  reportedState := .running

/-- A close without a database drops a session that nothing has ended. -/
theorem unopened_close :
    (final .linux {} [⟨.launch 30, some elfDatabase, runningAnswers⟩,
        ⟨.closeSession, none, runningAnswers⟩]).session = none ∧
      owner confirmedEnd (run .linux {} [⟨.launch 30, some elfDatabase, runningAnswers⟩,
        ⟨.closeSession, none, runningAnswers⟩]) = some .launched := by
  decide

end IdaMcp.Debugger
