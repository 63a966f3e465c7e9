import IdaMcp.OpenIdb.SealedQuestions

namespace IdaMcp.OpenIdb

open Foundation Text Slices

/-! What a call does with its prompts. -/

section Call

variable {V : Type} (serde : Serde V) (codec : List SealedState) (call : Call V)

structure Answer (prompts : OpenPrompts V) (q : Question) (response : ElicitResult V) : Prop where
  opened : ∃ token, prompts.requestState = some token ∧
    openWith codec call.now token q.associatedData = some q.stage.sealBytes
  response : ∃ responses value, prompts.inputResponses = some responses ∧
    responses.lookup q.stage.key = some value ∧ serde.elicitResult value = some response

def OpenPrompts.taken (prompts : OpenPrompts V) : OpenPrompts V :=
  { prompts with requestState := none, inputResponses := none }

inductive Staged (d : Dialogue V) (q : Question) : Dialogue V × Except McpError (MrtrStep V) → Prop
  | failed (d' : Dialogue V) (error : McpError) (hasked : d'.asked = d.asked) (hused : d'.used = d.used) :
    Staged d q (d', .error error)
  | noFormSupport (hcarries : d.prompts.carries = false) : Staged d q (d, .ok .noFormSupport)
  | asked (hcarries : d.prompts.carries = false) :
    Staged d q ({ d with asked := d.asked ++ [q] }, .ok .inputRequired)
  | answered (response : ElicitResult V) (hanswer : Answer serde codec call d.prompts q response) :
    Staged d q ({ d with prompts := d.prompts.taken, used := d.used ++ [q] }, .ok (.answered response))

theorem mrtrFormStage_staged (d : Dialogue V) (q : Question) :
    Staged serde codec call d q (mrtrFormStage serde codec call d q) := by
  unfold mrtrFormStage
  cases hstate : d.prompts.requestState with
  | none =>
    dsimp only
    by_cases hresponses : d.prompts.inputResponses.isSome = true
    · rw [if_pos hresponses]
      exact .failed d _ rfl rfl
    · have hcarries : d.prompts.carries = false := by
        rw [OpenPrompts.carries, hstate]
        simpa using hresponses
      rw [if_neg hresponses]
      by_cases hform : (!d.prompts.formElicitation) = true
      · rw [if_pos hform]
        exact .noFormSupport hcarries
      · rw [if_neg hform]
        exact .asked hcarries
  | some token =>
    dsimp only
    by_cases hform : (!d.prompts.formElicitation) = true
    · rw [if_pos hform]
      exact .failed _ _ rfl rfl
    · rw [if_neg hform]
      cases hopen : openWith codec call.now token q.associatedData with
      | none => exact .failed _ _ rfl rfl
      | some payload =>
        dsimp only
        by_cases hstage : payload ≠ q.stage.sealBytes
        · rw [if_pos hstage]
          exact .failed _ _ rfl rfl
        · rw [if_neg hstage]
          cases hresponse : d.prompts.inputResponses.bind fun responses => responses.lookup q.stage.key with
          | none => exact .failed _ _ rfl rfl
          | some value =>
            dsimp only
            cases hresult : serde.elicitResult value with
            | none => exact .failed _ _ rfl rfl
            | some response =>
              obtain ⟨responses, hresponses, hlookup⟩ := Option.bind_eq_some_iff.mp hresponse
              refine .answered response ⟨⟨token, hstate, ?_⟩, ⟨responses, value, hresponses, hlookup, hresult⟩⟩
              rw [hopen, not_ne_iff.mp hstage]

inductive Concluded (d : Dialogue V) (path : String) (universal : Option UniversalSlice) :
    Dialogue V × Outcome → Prop
  | failed (d' : Dialogue V) (outcome : Outcome) (hasked : d'.asked = d.asked) (hused : d'.used = d.used)
    (herror : outcome.isError = true) : Concluded d path universal (d', outcome)
  | opens (hcarries : d.prompts.carries = false) (autoAnalyse background : Bool) :
    Concluded d path universal
      (d, .opens (universal.elim path UniversalSlice.slicePath) universal autoAnalyse background)
  | asks (hcarries : d.prompts.carries = false) (size : ℕ)
    (hlarge : largeInputSize call d (universal.elim path UniversalSlice.slicePath) = some size)
    (hbackground : universal.bind UniversalSlice.background = none) :
    Concluded d path universal
      ({ d with asked := d.asked ++ [.background (universal.elim path UniversalSlice.slicePath) size] },
        .inputRequired)
  | answers (size : ℕ)
    (hlarge : largeInputSize call d (universal.elim path UniversalSlice.slicePath) = some size)
    (response : ElicitResult V)
    (hanswer : Answer serde codec call d.prompts
      (.background (universal.elim path UniversalSlice.slicePath) size) response)
    (autoAnalyse background : Bool) :
    Concluded d path universal
      ({ d with
          prompts := d.prompts.taken
          used := d.used ++ [.background (universal.elim path UniversalSlice.slicePath) size] },
        .opens (universal.elim path UniversalSlice.slicePath) universal autoAnalyse background)

theorem openResolved_concluded (hmodern : call.speaksMcp2026 = true) (d : Dialogue V) (path : String)
    (universal : Option UniversalSlice)
    (hbackground : universal.bind UniversalSlice.background ≠ none → d.prompts.carries = false) :
    Concluded serde codec call d path universal (openResolved serde codec call d path universal) := by
  unfold openResolved
  dsimp only
  split
  · exact .failed d _ rfl rfl rfl
  cases hlarge : largeInputSize call d (universal.elim path UniversalSlice.slicePath) with
  | none =>
    dsimp only
    by_cases hcarries : d.prompts.carries = true
    · rw [if_pos hcarries]
      exact .failed d _ rfl rfl rfl
    · rw [if_neg hcarries]
      exact .opens (Bool.eq_false_iff.mpr hcarries) _ false
  | some size =>
    cases hanswered : universal.bind UniversalSlice.background with
    | some background => exact .opens (hbackground (by simp [hanswered])) _ background
    | none =>
      dsimp only
      rw [chooseOpenIdbBackground, usesMrtr, if_pos hmodern]
      dsimp only
      cases call.schemaError with
      | some error => exact .failed d _ rfl rfl rfl
      | none =>
        dsimp only
        have hstaged := mrtrFormStage_staged serde codec call d
          (.background (universal.elim path UniversalSlice.slicePath) size)
        generalize mrtrFormStage serde codec call d
          (.background (universal.elim path UniversalSlice.slicePath) size) = result at hstaged
        cases hstaged with
        | failed d' error hasked hused => exact .failed d' _ hasked hused rfl
        | noFormSupport hcarries => exact .opens hcarries _ true
        | asked hcarries => exact .asks hcarries size hlarge hanswered
        | answered response hanswer => exact .answers size hlarge response hanswer _ _

def asksBackground (d : Dialogue V) (slices : List FatSlice) : Bool :=
  d.prompts.backgroundPrompt && slices.any fun slice => exceedsBackgroundThreshold slice.size

def Question.ofSlices (d : Dialogue V) (path : String) (slices : List FatSlice) : Question :=
  .slice path slices (asksBackground d slices)

inductive Asked (d : Dialogue V) (path : String) (slices : List FatSlice) :
    Dialogue V × Except McpError SliceAnswer → Prop
  | failed (d' : Dialogue V) (error : McpError) (hasked : d'.asked = d.asked) (hused : d'.used = d.used) :
    Asked d path slices (d', .error error)
  | unanswered (reason : String) : Asked d path slices (d, .ok (.unanswered reason))
  | asked (hcarries : d.prompts.carries = false) :
    Asked d path slices ({ d with asked := d.asked ++ [.ofSlices d path slices] }, .ok .inputRequired)
  | answered (response : ElicitResult V)
    (hanswer : Answer serde codec call d.prompts (.ofSlices d path slices) response) :
    Asked d path slices
      ({ d with prompts := d.prompts.taken, used := d.used ++ [.ofSlices d path slices] },
        .ok (sliceAnswer serde response slices (asksBackground d slices)))

theorem askForSlice_asked (hmodern : call.speaksMcp2026 = true) (d : Dialogue V) (path : String)
    (slices : List FatSlice) :
    Asked serde codec call d path slices (askForSlice serde codec call d path slices) := by
  unfold askForSlice
  dsimp only
  cases call.schemaError with
  | some error => exact .failed d _ rfl rfl
  | none =>
    dsimp only
    rw [usesMrtr, if_pos hmodern]
    dsimp only
    have hstaged := mrtrFormStage_staged serde codec call d (.ofSlices d path slices)
    unfold Question.ofSlices asksBackground at hstaged
    generalize mrtrFormStage serde codec call d (.slice path slices (d.prompts.backgroundPrompt &&
      slices.any fun slice => exceedsBackgroundThreshold slice.size)) = result at hstaged
    cases hstaged with
    | failed d' error hasked hused => exact .failed d' _ hasked hused
    | noFormSupport hcarries => exact .unanswered _
    | asked hcarries => exact .asked hcarries
    | answered response hanswer => exact .answered response hanswer

def ChosenBy (arch : Option String) (slices : List FatSlice) (slice : FatSlice) : Prop :=
  (∃ name, arch = some name ∧ selectSlice slices name = some slice) ∨ arch = none ∧ slices = [slice]

inductive Resolution (d : Dialogue V) (path : String) (arch idbOut : Option String) :
    Dialogue V × Except McpError UniversalInput → Prop
  | failed (d' : Dialogue V) (error : McpError) (hasked : d'.asked = d.asked) (hused : d'.used = d.used) :
    Resolution d path arch idbOut (d', .error error)
  | rejected (error : ToolError) : Resolution d path arch idbOut (d, .ok (.rejected error))
  | notUniversal (hslices : universalSlices call path arch = .ok none) :
    Resolution d path arch idbOut (d, .ok .notUniversal)
  | asked (hcarries : d.prompts.carries = false) {slices : List FatSlice}
    (hslices : universalSlices call path arch = .ok (some slices)) :
    Resolution d path arch idbOut
      ({ d with asked := d.asked ++ [.ofSlices d path slices] }, .ok .inputRequired)
  | direct {slices : List FatSlice} {slice : FatSlice} (input : UniversalSlice)
    (hslices : universalSlices call path arch = .ok (some slices)) (hchosen : ChosenBy arch slices slice)
    (hinput : resolveSlice call path idbOut slices slice none = .resolved input) :
    Resolution d path arch idbOut (d, .ok (.resolved input))
  | answered {slices : List FatSlice} {response : ElicitResult V} (result : UniversalInput)
    (hslices : universalSlices call path arch = .ok (some slices)) (harch : arch = none)
    (hanswer : Answer serde codec call d.prompts (.ofSlices d path slices) response)
    (hresult : (∃ error, result = .rejected error) ∨ ∃ slice background input, result = .resolved input ∧
      sliceAnswerFrom serde response slices (asksBackground d slices) = .ok (slice, background) ∧
      resolveSlice call path idbOut slices slice background = .resolved input) :
    Resolution d path arch idbOut
      ({ d with prompts := d.prompts.taken, used := d.used ++ [.ofSlices d path slices] }, .ok result)

theorem resolveSlice_cases (path : String) (idbOut : Option String) (slices : List FatSlice)
    (slice : FatSlice) (background : Option Bool) :
    (∃ error, resolveSlice call path idbOut slices slice background = .rejected error) ∨
      ∃ slicePath, call.files.extract (call.files.expandPath path) idbOut slice = .ok slicePath ∧
        resolveSlice call path idbOut slices slice background =
          .resolved ⟨slice.arch, slices.map FatSlice.arch, slicePath, background⟩ := by
  unfold resolveSlice
  cases hextract : call.files.extract (call.files.expandPath path) idbOut slice with
  | error error => exact Or.inl ⟨error, rfl⟩
  | ok slicePath => exact Or.inr ⟨slicePath, rfl, rfl⟩

theorem resolve_asked (hmodern : call.speaksMcp2026 = true) (d : Dialogue V) (path : String)
    (idbOut : Option String) {slices : List FatSlice}
    (hslices : universalSlices call path none = .ok (some slices)) :
    Resolution serde codec call d path none idbOut
      (match askForSlice serde codec call d path slices with
      | (d, .error error) => (d, .error error)
      | (d, .ok (.chosen slice background)) =>
        (d, .ok (resolveSlice call path idbOut slices slice background))
      | (d, .ok .inputRequired) => (d, .ok .inputRequired)
      | (d, .ok (.unanswered reason)) => (d, .ok (.rejected (sliceRequiredError path slices reason)))) := by
  have hasked := askForSlice_asked serde codec call hmodern d path slices
  generalize askForSlice serde codec call d path slices = result at hasked
  cases hasked with
  | failed d' error hasked hused => exact .failed d' error hasked hused
  | unanswered reason => exact .rejected _
  | asked hcarries => exact .asked hcarries hslices
  | answered response hanswer =>
    unfold sliceAnswer
    cases hfrom : sliceAnswerFrom serde response slices (asksBackground d slices) with
    | error reason => exact .answered _ hslices rfl hanswer (Or.inl ⟨_, rfl⟩)
    | ok chosen =>
      obtain ⟨slice, background⟩ := chosen
      dsimp only
      refine .answered _ hslices rfl hanswer ?_
      rcases resolveSlice_cases call path idbOut slices slice background with
        ⟨error, herror⟩ | ⟨slicePath, -, hinput⟩
      · exact Or.inl ⟨error, herror⟩
      · exact Or.inr ⟨slice, background, _, hinput, hfrom, hinput⟩

theorem resolveUniversalInput_resolution (hmodern : call.speaksMcp2026 = true) (d : Dialogue V)
    (path : String) (arch idbOut : Option String) :
    Resolution serde codec call d path arch idbOut
      (resolveUniversalInput serde codec call d path arch idbOut) := by
  unfold resolveUniversalInput
  cases hslices : universalSlices call path arch with
  | error error => exact .rejected error
  | ok found =>
    cases found with
    | none => exact .notUniversal hslices
    | some slices =>
      have hdirect {slice : FatSlice} (hchosen : ChosenBy arch slices slice) : Resolution serde codec call
          d path arch idbOut (d, .ok (resolveSlice call path idbOut slices slice none)) := by
        rcases resolveSlice_cases call path idbOut slices slice none with
          ⟨error, herror⟩ | ⟨slicePath, -, hinput⟩
        · rw [herror]
          exact .rejected error
        · rw [hinput]
          exact .direct _ hslices hchosen hinput
      cases arch with
      | some name =>
        dsimp only
        cases hselect : selectSlice slices name with
        | none => exact .rejected _
        | some slice => exact hdirect (Or.inl ⟨name, rfl, hselect⟩)
      | none =>
        cases slices with
        | nil => exact resolve_asked serde codec call hmodern d path idbOut hslices
        | cons first rest =>
          cases rest with
          | nil => exact hdirect (Or.inr ⟨rfl, rfl⟩)
          | cons second rest => exact resolve_asked serde codec call hmodern d path idbOut hslices

theorem sliceAnswerFrom_eq_ok {response : ElicitResult V} {slices : List FatSlice} {ask : Bool}
    {slice : FatSlice} {background : Option Bool}
    (h : sliceAnswerFrom serde response slices ask = .ok (slice, background)) :
    response.action = .accept ∧ (∃ name, response.content.bind serde.arch = some name ∧
      selectSlice slices name = some slice) ∧ (background = none → ask = false) := by
  unfold sliceAnswerFrom at h
  cases haction : response.action with
  | decline =>
    rw [haction] at h
    exact nomatch h
  | cancel =>
    rw [haction] at h
    exact nomatch h
  | accept =>
    simp only [haction] at h
    cases harch : response.content.bind serde.arch with
    | none =>
      simp only [harch] at h
      exact nomatch h
    | some name =>
      simp only [harch] at h
      cases hselect : selectSlice slices name with
      | none =>
        simp only [hselect] at h
        exact nomatch h
      | some found =>
        simp only [hselect, Except.ok.injEq, Prod.mk.injEq] at h
        obtain ⟨rfl, hbackground⟩ := h
        refine ⟨rfl, ⟨name, rfl, hselect⟩, ?_⟩
        rintro rfl
        cases ask with
        | false => rfl
        | true => exact nomatch hbackground

def Extracts (files : Files) : Prop :=
  ∀ input idbOut slice slicePath, files.extract input idbOut slice = .ok slicePath →
    files.size slicePath = some slice.size

/-- The slice that is opened is the one that was named or the only one, or an accepted answer
names it. -/
def Chosen (path : String) (arch : Option String) (used : List Question) (slices : List FatSlice)
    (slice : FatSlice) : Prop :=
  ChosenBy arch slices slice ∨ arch = none ∧ ∃ ask response name, .slice path slices ask ∈ used ∧
    Answer serde codec call (startDialogue call).prompts (.slice path slices ask) response ∧
    response.action = .accept ∧ response.content.bind serde.arch = some name ∧
    selectSlice slices name = some slice

def Opened (path : String) (arch idbOut : Option String) (used : List Question)
    (input : UniversalSlice) : Prop :=
  ∃ slices slice, universalSlices call path arch = .ok (some slices) ∧
    Chosen serde codec call path arch used slices slice ∧ input.arch = slice.arch ∧
    call.files.extract (call.files.expandPath path) idbOut slice = .ok input.slicePath

/-- The paths that the background question is asked for: the input's, or that of a slice of it. -/
def Resolves (path : String) (arch idbOut : Option String) (resolved : String) : Prop :=
  resolved = path ∨ ∃ slices slice, universalSlices call path arch = .ok (some slices) ∧
    slice ∈ slices ∧ call.files.extract (call.files.expandPath path) idbOut slice = .ok resolved

def Question.IsFor (path : String) (arch idbOut : Option String) : Question → Prop
  | slice asked slices askBackground => asked = path ∧
      universalSlices call path arch = .ok (some slices) ∧
      askBackground = asksBackground (startDialogue call) slices
  | background resolved size => Resolves call path arch idbOut resolved ∧
      inputSizeAboveThreshold call resolved = some size

structure Conduct (path : String) (arch idbOut : Option String) (served : Dialogue V × Outcome) :
    Prop where
  used_answered : ∀ q ∈ served.1.used, q.IsFor call path arch idbOut ∧
    ∃ response, Answer serde codec call (startDialogue call).prompts q response
  asked_for : ∀ q ∈ served.1.asked, q.IsFor call path arch idbOut
  used_le : served.1.used.length ≤ 1
  carried : (startDialogue call).prompts.carries = true →
    served.1.used.length = 1 ∨ served.2.isError = true
  asks : served.1.asked ≠ [] → served.2 = .inputRequired
  once : Extracts call.files → served.1.used ≠ [] → served.1.asked = []
  opened : ∀ opensPath input autoAnalyse background,
    served.2 = .opens opensPath (some input) autoAnalyse background →
    opensPath = input.slicePath ∧ Opened serde codec call path arch idbOut served.1.used input

variable {path : String} {arch idbOut : Option String}

theorem mem_of_chosenBy {slices : List FatSlice} {slice : FatSlice} (h : ChosenBy arch slices slice) :
    slice ∈ slices := by
  rcases h with ⟨name, -, hselect⟩ | ⟨-, rfl⟩
  · exact List.mem_of_find?_eq_some hselect
  · exact List.mem_cons_self

variable {serde codec call} in
theorem Opened.resolves {used : List Question} {input : UniversalSlice}
    (h : Opened serde codec call path arch idbOut used input) :
    Resolves call path arch idbOut input.slicePath := by
  obtain ⟨slices, slice, hslices, hchosen, -, hextract⟩ := h
  refine Or.inr ⟨slices, slice, hslices, ?_, hextract⟩
  rcases hchosen with hchosen | ⟨-, _, _, _, -, -, -, -, hselect⟩
  · exact mem_of_chosenBy hchosen
  · exact List.mem_of_find?_eq_some hselect

variable {call} in
theorem size_of_large {d : Dialogue V} {resolved : String} {size : ℕ}
    (h : largeInputSize call d resolved = some size) :
    inputSizeAboveThreshold call resolved = some size := by
  unfold largeInputSize at h
  split_ifs at h
  exact h

theorem conduct_error (d : Dialogue V) (outcome : Outcome) (hasked : d.asked = [])
    (hused : d.used = []) (herror : outcome.isError = true) :
    Conduct serde codec call path arch idbOut (d, outcome) := by
  refine ⟨?_, ?_, ?_, fun _ => Or.inr herror, fun hne => absurd hasked hne, fun _ _ => hasked, ?_⟩
  · rw [hused]
    exact fun _ hq => absurd hq List.not_mem_nil
  · rw [hasked]
    exact fun _ hq => absurd hq List.not_mem_nil
  · rw [hused]
    exact Nat.zero_le 1
  · rintro opensPath input autoAnalyse background rfl
    exact nomatch herror

theorem conduct_of_start {universal : Option UniversalSlice}
    (huniversal : ∀ input, universal = some input →
      Opened serde codec call path arch idbOut [] input)
    {served : Dialogue V × Outcome}
    (h : Concluded serde codec call (startDialogue call) path universal served) :
    Conduct serde codec call path arch idbOut served := by
  have hmono {used : List Question} {input : UniversalSlice}
      (hopened : Opened serde codec call path arch idbOut [] input) :
      Opened serde codec call path arch idbOut used input := by
    obtain ⟨slices, slice, hslices, hchosen, harch, hextract⟩ := hopened
    refine ⟨slices, slice, hslices, ?_, harch, hextract⟩
    rcases hchosen with hchosen | ⟨-, _, _, _, hmem, -⟩
    · exact Or.inl hchosen
    · exact absurd hmem List.not_mem_nil
  have hposed {d : Dialogue V} {size : ℕ}
      (hlarge : largeInputSize call d (universal.elim path UniversalSlice.slicePath) = some size) :
      (Question.background (universal.elim path UniversalSlice.slicePath) size).IsFor call path arch
        idbOut := by
    refine ⟨?_, size_of_large hlarge⟩
    cases universal with
    | none => exact Or.inl rfl
    | some input => exact (huniversal input rfl).resolves
  cases h with
  | failed d' outcome hasked hused herror => exact conduct_error serde codec call d' outcome hasked hused herror
  | opens hcarries autoAnalyse background =>
    refine ⟨fun _ hq => absurd hq List.not_mem_nil, fun _ hq => absurd hq List.not_mem_nil, Nat.zero_le 1,
      ?_, fun hne => absurd rfl hne, fun _ _ => rfl, ?_⟩
    · intro htrue
      exact nomatch hcarries.symm.trans htrue
    · intro opensPath input _ _ hopens
      obtain ⟨hpath, huni, -, -⟩ := Outcome.opens.inj hopens
      rw [huni] at hpath
      exact ⟨hpath.symm, hmono (huniversal input huni)⟩
  | asks hcarries size hlarge hbackground =>
    refine ⟨fun _ hq => absurd hq List.not_mem_nil, ?_, Nat.zero_le 1, ?_, fun _ => rfl,
      fun _ hne => absurd rfl hne, fun _ _ _ _ hopens => nomatch hopens⟩
    · intro q hq
      rw [List.mem_singleton.mp hq]
      exact hposed hlarge
    · intro htrue
      exact nomatch hcarries.symm.trans htrue
  | answers size hlarge response hanswer autoAnalyse background =>
    refine ⟨?_, fun _ hq => absurd hq List.not_mem_nil, Nat.le_refl 1, fun _ => Or.inl rfl,
      fun hne => absurd rfl hne, fun _ _ => rfl, ?_⟩
    · intro q hq
      rw [List.mem_singleton.mp hq]
      exact ⟨hposed hlarge, response, hanswer⟩
    · intro opensPath input _ _ hopens
      obtain ⟨hpath, huni, -, -⟩ := Outcome.opens.inj hopens
      rw [huni] at hpath
      exact ⟨hpath.symm, hmono (huniversal input huni)⟩

theorem inspect_of_universalSlices {slices : List FatSlice}
    (h : universalSlices call path arch = .ok (some slices)) :
    inspect (call.files.expandPath path) (call.files.file (call.files.expandPath path)) =
      .ok (.universal slices) := by
  unfold universalSlices at h
  cases hinspect : inspect (call.files.expandPath path) (call.files.file (call.files.expandPath path)) with
  | error error =>
    simp only [hinspect] at h
    exact nomatch h
  | ok kind =>
    cases kind with
    | universal found =>
      simp only [hinspect, Except.ok.injEq, Option.some_inj] at h
      rw [h]
    | thin thin =>
      cases arch with
      | none => simp [hinspect] at h
      | some name =>
        simp only [hinspect] at h
        split_ifs at h
        exact nomatch h
    | other => cases arch <;> simp [hinspect] at h

variable {call} in
theorem Question.IsFor.named {q : Question} (h : q.IsFor call path arch idbOut) : q.Named := by
  cases q with
  | slice asked slices askBackground => exact named_of_inspect (inspect_of_universalSlices call h.2.1)
  | background resolved size => trivial

theorem not_large_of_answered {response : ElicitResult V} {slices : List FatSlice} {slice : FatSlice}
    {background : Option Bool} {slicePath : String}
    (hextracts : Extracts call.files)
    (hfrom : sliceAnswerFrom serde response slices (asksBackground (startDialogue call) slices) =
      .ok (slice, background)) (hbackground : background = none)
    (hextract : call.files.extract (call.files.expandPath path) idbOut slice = .ok slicePath)
    {d : Dialogue V} (hprompts : d.prompts = (startDialogue call).prompts.taken) :
    largeInputSize call d slicePath = none := by
  obtain ⟨-, ⟨name, -, hselect⟩, hask⟩ := sliceAnswerFrom_eq_ok serde hfrom
  have hquiet := hask hbackground
  unfold largeInputSize
  rw [hprompts]
  split_ifs with hlarge
  · have hprompt : (startDialogue call).prompts.backgroundPrompt = true :=
      (Bool.and_eq_true_iff.mp hlarge).1
    rw [asksBackground, hprompt, Bool.true_and] at hquiet
    have hsmall := List.any_eq_false.mp hquiet slice (List.mem_of_find?_eq_some hselect)
    rw [inputSizeAboveThreshold, hextracts _ _ _ _ hextract]
    simp [Option.filter, hsmall]
  · rfl

theorem conduct_of_answered {slices : List FatSlice} {response : ElicitResult V} {slice : FatSlice}
    {background : Option Bool} {input : UniversalSlice}
    (hslices : universalSlices call path arch = .ok (some slices)) (harch : arch = none)
    (hanswer : Answer serde codec call (startDialogue call).prompts
      (.ofSlices (startDialogue call) path slices) response)
    (hfrom : sliceAnswerFrom serde response slices (asksBackground (startDialogue call) slices) =
      .ok (slice, background))
    (hinput : resolveSlice call path idbOut slices slice background = .resolved input)
    {served : Dialogue V × Outcome}
    (h : Concluded serde codec call
      { startDialogue call with
        prompts := (startDialogue call).prompts.taken
        used := [.ofSlices (startDialogue call) path slices] } path (some input) served) :
    Conduct serde codec call path arch idbOut served := by
  have hused (q : Question) (hq : q ∈ [Question.ofSlices (startDialogue call) path slices]) :
      q.IsFor call path arch idbOut ∧ ∃ response, Answer serde codec call (startDialogue call).prompts q response := by
    rw [List.mem_singleton.mp hq]
    exact ⟨⟨rfl, hslices, rfl⟩, response, hanswer⟩
  rcases resolveSlice_cases call path idbOut slices slice background with
    ⟨error, herror⟩ | ⟨slicePath, hextract, hresolved⟩
  · exact nomatch hinput.symm.trans herror
  obtain rfl := UniversalInput.resolved.inj (hinput.symm.trans hresolved)
  have hopened : Opened serde codec call path arch idbOut
      [.ofSlices (startDialogue call) path slices]
      ⟨slice.arch, slices.map FatSlice.arch, slicePath, background⟩ := by
    obtain ⟨haction, ⟨name, hname, hselect⟩, -⟩ := sliceAnswerFrom_eq_ok serde hfrom
    exact ⟨slices, slice, hslices, Or.inr ⟨harch, _, response, name, List.mem_cons_self, hanswer,
      haction, hname, hselect⟩, rfl, hextract⟩
  cases h with
  | failed d' outcome hasked hsame herror =>
    refine ⟨?_, ?_, ?_, fun _ => Or.inr herror, fun hne => absurd hasked hne, fun _ _ => hasked, ?_⟩
    · rw [hsame]
      exact hused
    · rw [hasked]
      exact fun _ hq => absurd hq List.not_mem_nil
    · rw [hsame]
      exact Nat.le_refl 1
    · rintro opensPath input autoAnalyse background rfl
      exact nomatch herror
  | opens hcarries autoAnalyse routed =>
    refine ⟨hused, fun _ hq => absurd hq List.not_mem_nil, Nat.le_refl 1, fun _ => Or.inl rfl,
      fun hne => absurd rfl hne, fun _ _ => rfl, ?_⟩
    intro opensPath input' _ _ hopens
    obtain ⟨hpath, huni, -, -⟩ := Outcome.opens.inj hopens
    obtain rfl := Option.some_inj.mp huni
    exact ⟨hpath.symm, hopened⟩
  | asks hcarries size hlarge hbackground =>
    refine ⟨hused, ?_, Nat.le_refl 1, fun _ => Or.inl rfl, fun _ => rfl, ?_,
      fun _ _ _ _ hopens => nomatch hopens⟩
    · intro q hq
      rw [List.mem_singleton.mp hq]
      exact ⟨hopened.resolves, size_of_large hlarge⟩
    · intro hextracts _
      have hnone := not_large_of_answered serde call hextracts hfrom hbackground hextract
        (d := { startDialogue call with
          prompts := (startDialogue call).prompts.taken
          used := [.ofSlices (startDialogue call) path slices] }) rfl
      exact nomatch hnone.symm.trans hlarge
  | answers size hlarge response hanswer autoAnalyse routed =>
    obtain ⟨⟨token, hstate, -⟩, -⟩ := hanswer
    exact nomatch hstate

theorem openIdb_conduct (hmodern : call.speaksMcp2026 = true) :
    Conduct serde codec call (String.ofList (trim call.req.path.toList)) (nonEmptyTrimmed call.req.arch)
      (call.req.effectiveIdbOut call.worker) (openIdb serde codec call) := by
  unfold openIdb
  dsimp only
  have hnone : ∀ input, (none : Option UniversalSlice) = some input →
      Opened serde codec call (String.ofList (trim call.req.path.toList)) (nonEmptyTrimmed call.req.arch)
        (call.req.effectiveIdbOut call.worker) [] input := fun _ h => nomatch h
  have hplain := conduct_of_start serde codec call hnone
    (openResolved_concluded serde codec call hmodern (startDialogue call)
      (String.ofList (trim call.req.path.toList)) none fun h => absurd rfl h)
  split
  · exact conduct_error serde codec call _ _ rfl rfl rfl
  cases call.req.argumentError with
  | some error => exact conduct_error serde codec call _ _ rfl rfl rfl
  | none =>
    dsimp only
    split
    · exact conduct_error serde codec call _ _ rfl rfl rfl
    split
    · exact hplain
    have hresolution := resolveUniversalInput_resolution serde codec call hmodern (startDialogue call)
      (String.ofList (trim call.req.path.toList)) (nonEmptyTrimmed call.req.arch)
      (call.req.effectiveIdbOut call.worker)
    generalize resolveUniversalInput serde codec call (startDialogue call)
      (String.ofList (trim call.req.path.toList)) (nonEmptyTrimmed call.req.arch)
      (call.req.effectiveIdbOut call.worker) = result at hresolution
    cases hresolution with
    | failed d' error hasked hused => exact conduct_error serde codec call d' _ hasked hused rfl
    | rejected error => exact conduct_error serde codec call _ _ rfl rfl rfl
    | notUniversal hslices => exact hplain
    | asked hcarries hslices =>
      refine ⟨fun _ hq => absurd hq List.not_mem_nil, ?_, Nat.zero_le 1, ?_, fun _ => rfl,
        fun _ hne => absurd rfl hne, fun _ _ _ _ hopens => nomatch hopens⟩
      · intro q hq
        rw [List.mem_singleton.mp hq]
        exact ⟨rfl, hslices, rfl⟩
      · intro htrue
        exact nomatch hcarries.symm.trans htrue
    | @direct slices slice input hslices hchosen hinput =>
      dsimp only
      rcases resolveSlice_cases call (String.ofList (trim call.req.path.toList))
          (call.req.effectiveIdbOut call.worker) slices slice none with
        ⟨error, herror⟩ | ⟨slicePath, hextract, hresolved⟩
      · exact nomatch hinput.symm.trans herror
      obtain rfl := UniversalInput.resolved.inj (hinput.symm.trans hresolved)
      refine conduct_of_start serde codec call ?_
        (openResolved_concluded serde codec call hmodern (startDialogue call) _ (some _)
          fun h => absurd rfl h)
      intro input hsame
      obtain rfl := Option.some_inj.mp hsame
      exact ⟨slices, slice, hslices, Or.inl hchosen, rfl, hextract⟩
    | answered result hslices harch hanswer hresult =>
      rcases hresult with ⟨error, rfl⟩ | ⟨slice, background, input, rfl, hfrom, hinput⟩
      · refine ⟨?_, fun _ hq => absurd hq List.not_mem_nil, Nat.le_refl 1, fun _ => Or.inr rfl,
          fun hne => absurd rfl hne, fun _ _ => rfl, fun _ _ _ _ hopens => nomatch hopens⟩
        intro q hq
        rw [List.mem_singleton.mp hq]
        exact ⟨⟨rfl, hslices, rfl⟩, _, hanswer⟩
      · exact conduct_of_answered serde codec call hslices harch hanswer hfrom hinput
          (openResolved_concluded serde codec call hmodern _ _ (some input) fun _ => rfl)

end Call

end IdaMcp.OpenIdb
