import IdaMcp.Foreground.Operation
import IdaMcp.Worker.Coherence

namespace IdaMcp.Foreground

open Foundation Worker

inductive Progress
  | sending
  | queued
  | handling (cancelled : Bool)
  | answered (result : Except ToolError ℕ)

/-- An `open_idb` in the process that runs the worker loop, which other clients use too. -/
structure Local where
  loop : Loop
  request : OpenRequest
  progress : Progress
  cancelled : Bool
  dropped : Bool
  /-- The generation that the request has opened. -/
  created : Option ℕ
  joined : List ℕ

namespace Local

inductive Action
  | receive (request : Request) (answers : Answers)
  | send (full : Bool)
  | dequeue
  | answer (answers : Answers)
  | hangUp

def start (loop : Loop) (request : OpenRequest) : Local where
  loop
  request
  progress := .sending
  cancelled := false
  dropped := false
  created := none
  joined := []

def checks (answers : Answers) : List Bool :=
  [answers.initCancelled, answers.cancelled] ++ (List.range 5).map answers.database.cancelled

/-- The checks see a cancellation from before the dequeue, and none that has not happened yet. -/
def reads (early late : Bool) (answers : Answers) : Bool :=
  (!early || (checks answers).all id) && (late || (checks answers).all not)

variable (s : Local)

def reply : Option Response → Except ToolError ℕ
  | some (.opened _ generation) => .ok generation
  | some (.error error) => .error error
  | _ => .error .workerClosed

def observe (request : Request) (answers : Answers) (loop : Loop) : Local :=
  { s with
    loop
    joined :=
      match (s.loop.turn request answers).1 with
      | some (.opened _ generation) => generation :: s.joined
      | _ => s.joined }

def step : Action → Option Local
  | .receive request answers =>
    match s.progress with
    | .handling _ => none
    | _ => (s.loop.step (.receive request answers)).map (observe s request answers)
  | .send full =>
    match s.progress with
    | .sending =>
      if s.dropped then none
      else if s.loop.running = false then some { s with progress := .answered (.error .workerClosed) }
      else if full then some { s with progress := .answered (.error .busy) }
      else some { s with progress := .queued }
    | _ => none
  | .dequeue =>
    match s.progress with
    | .queued => if s.loop.running then some { s with progress := .handling s.cancelled } else none
    | _ => none
  | .answer answers =>
    match s.progress with
    | .handling early =>
      if reads early s.cancelled answers then
        (s.loop.step (.receive (.open s.request) answers)).map fun loop =>
          { s with
            loop
            progress := .answered (reply (s.loop.turn (.open s.request) answers).1)
            created := loop.databaseGeneration.filter fun g => s.loop.databaseGeneration ≠ some g }
      else none
    | _ => none
  | .hangUp =>
    match s.progress with
    | .queued => if s.loop.running then none else some { s with progress := .answered (.error .workerClosed) }
    | _ => none

def result : Option (Except ToolError ℕ) :=
  match s.progress with
  | .answered result => some result
  | _ => none

def backend : Backend Local Action where
  step := step
  result := result
  cancel s := { s with cancelled := true }
  drop s := { s with dropped := true }

end Local

/-- IDA opens nothing, or the token is cancelled when the open looks at it for the last time. -/
def fruitless (answers : OpenAnswers) : Bool :=
  answers.cancelled 4 || !(answers.openDatabase.isOk || answers.openCandidate.isOk)

section

variable {request : OpenRequest} {answers : OpenAnswers} {s : Loop}

theorem error_of_bind {ε α β : Type} {x : Except ε α} {f : α → Except ε β}
    (h : ∀ a, ∃ error, f a = .error error) : ∃ error, (x >>= f) = .error error := by
  cases x with
  | error error => exact ⟨error, rfl⟩
  | ok a => exact h a

theorem configure_cancelled (request : OpenRequest) (h : answers.cancelled 4 = true) (hasCandidate : Bool) :
    ∃ error, configure request answers hasCandidate = .error error := by
  have hlast : ensureNotCancelled (answers.cancelled 4) =
      .error (.cancelled "Operation cancelled by client") := by
    rw [h]
    rfl
  unfold configure
  rw [hlast]
  dsimp only
  repeat' first
    | exact ⟨_, rfl⟩
    | split
    | (apply error_of_bind; intro _)

theorem openLocked_fruitless (h : fruitless answers = true) (candidate : Option String) :
    ∃ error, (openLocked request answers s candidate).1 = .error error := by
  simp only [fruitless, Bool.or_eq_true, Bool.not_eq_true', Bool.or_eq_false_iff] at h
  have finishes (hcancelled : answers.cancelled 4 = true) (s : Loop) (lock : String) (hasCandidate : Bool)
      (db : Idb) : ∃ error, (finishOpen request answers s lock hasCandidate db).1 = .error error := by
    obtain ⟨error, hconfigure⟩ := configure_cancelled request hcancelled hasCandidate
    unfold finishOpen
    rw [hconfigure]
    exact ⟨error, rfl⟩
  unfold openLocked
  dsimp only
  split
  · exact ⟨_, rfl⟩
  · next db t hexisting =>
    rcases h with hcancelled | ⟨-, hcandidate⟩
    · exact finishes hcancelled ..
    · exfalso
      unfold existingRawIdb openCandidate at hexisting
      cases hopened : answers.openCandidate with
      | error error =>
        rw [hopened] at hexisting
        obtain ⟨lockMessage, detail⟩ := error
        cases candidate <;> cases lockMessage <;> cases hexisting
      | ok path =>
        rw [hopened] at hcandidate
        cases hcandidate
  · split
    · exact ⟨_, rfl⟩
    · next db u hopen =>
      rcases h with hcancelled | ⟨hdatabase, -⟩
      · exact finishes hcancelled ..
      · exfalso
        unfold openDatabase at hopen
        dsimp only at hopen
        split at hopen
        · cases hopen
        · cases hopened : answers.openDatabase with
          | error error =>
            rw [hopened] at hopen
            obtain ⟨lockMessage, detail⟩ := error
            cases lockMessage <;> cases hopen
          | ok path =>
            rw [hopened] at hdatabase
            cases hdatabase

theorem handleOpen_fruitless (request : OpenRequest) (h : fruitless answers = true) (hs : s.idb = none) :
    ∃ error, (handleOpen request answers s).1 = .error error := by
  unfold handleOpen
  rw [hs]
  dsimp only
  split
  · exact ⟨_, rfl⟩
  · split
    · exact ⟨_, rfl⟩
    · split
      · exact ⟨_, rfl⟩
      · exact openLocked_fruitless h _

end

namespace Local

/-- Once the open is given up, the loop answers it with nothing that IDA has opened, or with the database
that it had. -/
def condition : Condition Local Action where
  giveUp _ := true
  given s a :=
    match a with
    | .answer answers =>
      fruitless answers.database || (s.loop.dequeue (.open s.request) answers).idb.isSome
    | _ => true
  expire _ := true

variable {s t : Local} {loop : Loop} {g : ℕ} {request : Request} {answers : Answers}

theorem step_turn (h : s.loop.step (.receive request answers) = some loop) :
    s.loop.running = true ∧ loop = (s.loop.turn request answers).2 := by
  unfold Loop.step at h
  rw [Option.ite_none_right_eq_some] at h
  obtain ⟨hrun, h⟩ := h
  exact ⟨hrun, (Option.some.inj h).symm⟩

structure UnderWay (s : Local) : Prop where
  loop : s.loop.Coherent
  created : ∀ g, s.created = some g → ∃ generation, s.progress = .answered (.ok generation)

structure Fruitless (s : Local) : Prop where
  loop : s.loop.Coherent
  created : s.created = none

theorem underWay_start (h : loop.Coherent) (request : OpenRequest) : UnderWay (start loop request) :=
  ⟨h, fun g hg => by cases hg⟩

theorem generation_of_error (h : s.loop.Coherent) (hrun : s.loop.running = true) {r : OpenRequest}
    {error : ToolError} (herror : (s.loop.turn (.open r) answers).1 = some (.error error)) :
    (s.loop.turn (.open r) answers).2.databaseGeneration = s.loop.databaseGeneration ∨
      (s.loop.turn (.open r) answers).2.databaseGeneration = none := by
  obtain ⟨-, hgeneration⟩ := (h.turnCoherent hrun (.open r) answers).fails r error rfl herror
  rw [hgeneration]
  obtain ⟨v, hv⟩ := h.1
  obtain ⟨hu, -⟩ | ⟨d, -, hu⟩ := Loop.dequeue_cases hv (.open r) answers
  · rw [hu]
    exact .inl rfl
  · rw [hu]
    exact .inr rfl

theorem response_of_runOpen (s : Loop) (r : OpenRequest) (answers : Answers) :
    (∃ info generation, (s.runOpen r answers).1 = .opened info generation) ∨
      ∃ error, (s.runOpen r answers).1 = .error error := by
  unfold Loop.runOpen
  split
  · exact .inr ⟨_, rfl⟩
  · dsimp only
    split
    · exact .inr ⟨_, rfl⟩
    · split
      · exact .inr ⟨_, rfl⟩
      · exact .inl ⟨_, _, rfl⟩

theorem response_of_turn (r : OpenRequest) :
    (∃ info generation, (s.loop.turn (.open r) answers).1 = some (.opened info generation)) ∨
      ∃ error, (s.loop.turn (.open r) answers).1 = some (.error error) := by
  obtain ⟨l, m, ⟨error, hturn⟩ | hturn⟩ := Loop.turn_open s.loop r answers
  · rw [hturn]
    exact .inr ⟨error, rfl⟩
  · rw [hturn]
    exact (response_of_runOpen _ r answers).imp
      (fun ⟨info, generation, h⟩ => ⟨info, generation, congrArg some h⟩)
      (fun ⟨error, h⟩ => ⟨error, congrArg some h⟩)

theorem created_of_answer (h : s.loop.Coherent) (hrun : s.loop.running = true) {r : OpenRequest}
    (hg : ((s.loop.turn (.open r) answers).2.databaseGeneration.filter fun g =>
      s.loop.databaseGeneration ≠ some g) = some g) :
    (s.loop.turn (.open r) answers).2.databaseGeneration = some g ∧ s.loop.databaseGeneration ≠ some g ∧
      ∃ info generation, (s.loop.turn (.open r) answers).1 = some (.opened info generation) := by
  obtain ⟨hgeneration, hnew⟩ := Option.filter_eq_some_iff.mp hg
  rw [decide_eq_true_eq] at hnew
  refine ⟨hgeneration, hnew, ?_⟩
  obtain hopened | ⟨error, hresponse⟩ := response_of_turn r
  · exact hopened
  · exfalso
    rcases generation_of_error h hrun hresponse with heq | heq
    · rw [heq] at hgeneration
      exact hnew hgeneration
    · rw [heq] at hgeneration
      cases hgeneration

theorem coherent_step {a : Action} (h : s.loop.Coherent) (hstep : step s a = some t) : t.loop.Coherent := by
  cases a with
  | receive request answers =>
    simp only [step] at hstep
    split at hstep
    · cases hstep
    · obtain ⟨loop, hloop, rfl⟩ := Option.map_eq_some_iff.mp hstep
      obtain ⟨hrun, rfl⟩ := step_turn hloop
      exact Loop.coherent_kept.turn request answers h hrun
  | answer answers =>
    simp only [step] at hstep
    split at hstep
    · split_ifs at hstep
      obtain ⟨loop, hloop, rfl⟩ := Option.map_eq_some_iff.mp hstep
      obtain ⟨hrun, rfl⟩ := step_turn hloop
      exact Loop.coherent_kept.turn (.open s.request) answers h hrun
    · cases hstep
  | send full | dequeue | hangUp =>
    simp only [step] at hstep
    split at hstep
    · split_ifs at hstep <;> cases hstep <;> exact h
    · cases hstep

theorem created_step {a : Action} (hstep : step s a = some t) :
    t.created = s.created ∧ (∀ result, s.progress = .answered result → t.progress = s.progress) ∨
      ∃ answers early, a = .answer answers ∧ s.progress = .handling early ∧ s.loop.running = true ∧
        t.progress = .answered (reply (s.loop.turn (.open s.request) answers).1) ∧
        t.created = (s.loop.turn (.open s.request) answers).2.databaseGeneration.filter
          fun g => s.loop.databaseGeneration ≠ some g := by
  cases a with
  | receive request answers =>
    simp only [step] at hstep
    split at hstep
    · cases hstep
    · obtain ⟨loop, hloop, rfl⟩ := Option.map_eq_some_iff.mp hstep
      exact .inl ⟨rfl, fun _ _ => rfl⟩
  | answer answers =>
    simp only [step] at hstep
    split at hstep
    · next early hprogress =>
      split_ifs at hstep
      obtain ⟨loop, hloop, rfl⟩ := Option.map_eq_some_iff.mp hstep
      obtain ⟨hrun, rfl⟩ := step_turn hloop
      exact .inr ⟨answers, early, rfl, hprogress, hrun, rfl, rfl⟩
    · cases hstep
  | send full | dequeue | hangUp =>
    simp only [step] at hstep
    split at hstep
    · next hprogress =>
      have hunanswered {result : Except ToolError ℕ} : s.progress ≠ .answered result := by
        rw [hprogress]
        rintro ⟨⟩
      split_ifs at hstep <;> cases hstep <;>
        exact .inl ⟨rfl, fun _ hanswered => (hunanswered hanswered).elim⟩
    · cases hstep

theorem underWay_step {a : Action} (hs : UnderWay s) (hstep : step s a = some t) : UnderWay t := by
  refine ⟨coherent_step hs.loop hstep, ?_⟩
  intro g hg
  rcases created_step hstep with ⟨hsame, hprogress⟩ | ⟨answers, early, -, -, hrun, hprogress, hcreated⟩
  · rw [hsame] at hg
    obtain ⟨generation, hanswered⟩ := hs.created g hg
    exact ⟨generation, by rw [hprogress _ hanswered, hanswered]⟩
  · rw [hcreated] at hg
    obtain ⟨-, -, info, generation, hopened⟩ := created_of_answer hs.loop hrun hg
    exact ⟨generation, by rw [hprogress, hopened]; rfl⟩

theorem fruitless_answer (h : s.loop.Coherent) (hrun : s.loop.running = true)
    (hok : condition.given s (.answer answers) = true) :
    ((s.loop.turn (.open s.request) answers).2.databaseGeneration.filter fun g =>
      s.loop.databaseGeneration ≠ some g) = none := by
  by_contra hsome
  obtain ⟨g, hg⟩ := Option.ne_none_iff_exists'.mp hsome
  obtain ⟨hgeneration, hnew, info, generation, hopened⟩ := created_of_answer h hrun hg
  obtain ⟨v, hv⟩ := h.1
  cases hidb : (s.loop.dequeue (.open s.request) answers).idb with
  | some db =>
    -- The database that was open has kept its generation.
    obtain ⟨-, hold, hkept⟩ := (h.turnCoherent hrun (.open s.request) answers).keeps _ info generation db rfl
      hidb hopened
    rw [hgeneration] at hkept
    obtain rfl := Option.some.inj hkept
    rcases Loop.dequeue_cases hv (.open s.request) answers with ⟨hu, -⟩ | ⟨d, -, hu⟩
    · rw [hu] at hold
      exact hnew hold
    · rw [hu] at hold
      cases hold
  | none =>
    simp only [condition, hidb, Option.isSome_none, Bool.or_false] at hok
    obtain ⟨l, m, ⟨error, hturn⟩ | hturn⟩ := Loop.turn_open s.loop s.request answers
    · rw [hturn] at hopened
      cases hopened
    · rw [hturn] at hopened
      unfold Loop.runOpen at hopened
      split at hopened
      · cases hopened
      · obtain ⟨error, hfails⟩ := handleOpen_fruitless s.request
          (s := { s.loop.dequeue (.open s.request) answers with libInitialized := l, versionMismatch := m })
          hok hidb
        dsimp only at hopened
        split at hopened
        · cases hopened
        · next hsucceeds =>
          rw [hsucceeds] at hfails
          cases hfails

theorem fruitless_step {a : Action} (hs : Fruitless s) (hok : condition.given s a = true)
    (hstep : step s a = some t) : Fruitless t := by
  refine ⟨coherent_step hs.loop hstep, ?_⟩
  rcases created_step hstep with ⟨hsame, -⟩ | ⟨answers, early, rfl, -, hrun, -, hcreated⟩
  · rw [hsame, hs.created]
  · rw [hcreated, fruitless_answer hs.loop hrun hok]

theorem fruitless_of_result (hs : UnderWay s) (hresult : ∀ generation, s.result ≠ some (.ok generation)) :
    Fruitless s := by
  refine ⟨hs.loop, ?_⟩
  rw [Option.eq_none_iff_forall_ne_some]
  intro g hg
  obtain ⟨generation, hprogress⟩ := hs.created g hg
  apply hresult generation
  rw [result, hprogress]

theorem lawful : Lawful backend condition UnderWay Fruitless Fruitless where
  step _ _ _ hs hstep := underWay_step hs hstep
  finished _ error hs hresult _ := by
    apply fruitless_of_result hs
    intro generation hok
    change result _ = _ at hresult
    rw [hresult] at hok
    cases hok
  giveUp s hs hresult _ := by
    have hfruitless : Fruitless s := by
      apply fruitless_of_result hs
      intro generation hok
      change result _ = _ at hresult
      rw [hresult] at hok
      cases hok
    exact ⟨hfruitless.loop, hfruitless.created⟩
  given _ _ _ hs hstep hok := fruitless_step hs hok hstep
  settled _ _ hs _ := hs
  dropped _ hs _ _ := ⟨hs.loop, hs.created⟩
  after _ _ _ hs hstep hok := fruitless_step hs hok hstep

end Local

end IdaMcp.Foreground
