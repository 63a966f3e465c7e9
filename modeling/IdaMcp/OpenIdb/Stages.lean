import IdaMcp.Slices.Inspect

namespace IdaMcp.OpenIdb

open Foundation Text Slices

def requestStateTtlSecs : ℕ := 10 * 60

def autoBackgroundThresholdBytes : ℕ := 50 * 1024 * 1024

def exceedsBackgroundThreshold (sizeBytes : ℕ) : Bool := autoBackgroundThresholdBytes < sizeBytes

inductive ElicitationAction
  | accept
  | decline
  | cancel
deriving DecidableEq

structure ElicitResult (V : Type) where
  action : ElicitationAction
  content : Option V

structure Serde (V : Type) where
  elicitResult : V → Option (ElicitResult V)
  arch : V → Option String
  /-- `OpenIdbBackgroundChoice`. -/
  choice : V → Option (Option Bool)

inductive McpError
  | invalidParams (message : String)
  | internalError (message : String)
deriving DecidableEq

structure MrtrStage where
  sealBytes : String
  key : String
deriving DecidableEq

def backgroundStage : MrtrStage := ⟨"open_idb/background-confirmation/v1", "background"⟩

def sliceStage : MrtrStage := ⟨"open_idb/universal-slice/v1", "slice"⟩

inductive Question
  | slice (path : String) (slices : List FatSlice) (askBackground : Bool)
  | background (path : String) (sizeBytes : ℕ)

def sliceLayout (slices : List FatSlice) : String :=
  ",".intercalate (slices.map fun slice =>
    slice.arch ++ "@" ++ hexText slice.offset ++ "+" ++ hexText slice.size)

def toolCall : String := "tools/call:open_idb\x00"

namespace Question

def stage : Question → MrtrStage
  | slice .. => sliceStage
  | background .. => backgroundStage

def associatedData : Question → String
  | slice path slices askBackground =>
    toolCall ++ path ++ "\x00" ++ sliceLayout slices ++ "\x00" ++ toString askBackground
  | background path sizeBytes => toolCall ++ path ++ "\x00" ++ toString sizeBytes

def message : Question → String
  | slice path slices askBackground =>
    "'" ++ path ++ "' is a universal Mach-O with " ++ toString slices.length ++ " slices (" ++
      sliceNames slices ++ "). Which architecture should IDA analyze?" ++
      if askBackground then
        " Slices over " ++ toString (autoBackgroundThresholdBytes / (1024 * 1024)) ++
          " MiB can run auto-analysis as a background task."
      else ""
  | background path sizeBytes =>
    "'" ++ path ++ "' is " ++ toString (sizeBytes / (1024 * 1024)) ++ " MiB (threshold " ++
      toString (autoBackgroundThresholdBytes / (1024 * 1024)) ++
      " MiB). Run auto-analysis as a background task with no timeout? " ++
      "Choosing 'no' runs it inline (capped at the foreground timeout)."

end Question

structure SealedState where
  token : String
  payload : String
  associatedData : String
  expires : ℕ

/-- `open_with`: exactly the unexpired states that were sealed with the same associated data. -/
def openWith (codec : List SealedState) (now : ℕ) (token associatedData : String) : Option String :=
  (codec.find? fun state =>
    state.token = token && state.associatedData = associatedData && now < state.expires).map
    SealedState.payload

structure OpenPrompts (V : Type) where
  requestState : Option String
  inputResponses : Option (List (String × V))
  backgroundPrompt : Bool
  formElicitation : Bool

structure Dialogue (V : Type) where
  prompts : OpenPrompts V
  asked : List Question
  used : List Question

inductive MrtrStep (V : Type)
  | inputRequired
  | answered (response : ElicitResult V)
  | noFormSupport

structure OpenIdbRequest where
  path : String
  arch : Option String
  idbOut : Option String
  workerIdbOut : Option String
  autoAnalyse : Option Bool
  rebuild : Option Bool
  /-- Whether processor, bitness, base_address or entry_point is given. -/
  rawTarget : Bool
  /-- What the checks of timeout_secs and of the raw target's fields say. -/
  argumentError : Option ToolError

def nonEmptyTrimmed (value : Option String) : Option String :=
  value.bind fun text =>
    if trim text.toList = [] then none else some (String.ofList (trim text.toList))

def OpenIdbRequest.effectiveIdbOut (req : OpenIdbRequest) (workerMode : Bool) : Option String :=
  if workerMode then (nonEmptyTrimmed req.workerIdbOut).or (nonEmptyTrimmed req.idbOut)
  else nonEmptyTrimmed req.idbOut

structure Files where
  expandPath : String → String
  validOpenPath : String → Bool
  isDatabasePath : String → Bool
  file : String → Option (Except String Bytes)
  /-- The size of the regular file that a path, trimmed and expanded, leads to. -/
  size : String → Option ℕ
  /-- `extract_universal_slice`: the path that the slice is found at afterwards. -/
  extract : String → Option String → FatSlice → Except ToolError String
  rawBlobDatabaseExists : String → Option String → Bool

/-- A call with its client and its time; the token is the one the codec makes if it seals. -/
structure Call (V : Type) where
  req : OpenIdbRequest
  files : Files
  now : ℕ
  token : String
  worker : Bool
  speaksMcp2026 : Bool
  formElicitation : Bool
  requestState : Option String
  inputResponses : Option (List (String × V))
  /-- What is wrong with the schema of a form. -/
  schemaError : Option String
  /-- What a client that is asked inline answers. -/
  inlineSlice : Except String (ElicitResult V)
  inlineBackground : Except String Bool

inductive SliceAnswer
  | chosen (slice : FatSlice) (background : Option Bool)
  | inputRequired
  | unanswered (reason : String)

structure UniversalSlice where
  arch : String
  slices : List String
  slicePath : String
  background : Option Bool

inductive UniversalInput
  | notUniversal
  | resolved (slice : UniversalSlice)
  | inputRequired
  | rejected (error : ToolError)

inductive BackgroundDecision
  | ready (background : Bool)
  | inputRequired

inductive Outcome
  | protocolError (error : McpError)
  | toolError (error : ToolError)
  | inputRequired
  /-- The worker is told to open the path. -/
  | opens (path : String) (universal : Option UniversalSlice) (autoAnalyse background : Bool)

def Outcome.isError : Outcome → Bool
  | protocolError _ | toolError _ => true
  | _ => false

variable {V : Type} (serde : Serde V) (codec : List SealedState) (call : Call V)

def OpenPrompts.carries (prompts : OpenPrompts V) : Bool :=
  prompts.requestState.isSome || prompts.inputResponses.isSome

/-- Runs the stage of a question: the first call seals its state, the retry opens it. -/
def mrtrFormStage (d : Dialogue V) (question : Question) :
    Dialogue V × Except McpError (MrtrStep V) :=
  match d.prompts.requestState with
  | none =>
    if d.prompts.inputResponses.isSome then
      (d, .error (.invalidParams "inputResponses require a matching requestState"))
    else if !d.prompts.formElicitation then (d, .ok .noFormSupport)
    else ({ d with asked := d.asked ++ [question] }, .ok .inputRequired)
  | some token =>
    let responses := d.prompts.inputResponses
    let taken := { d with prompts := { d.prompts with requestState := none, inputResponses := none } }
    if !d.prompts.formElicitation then
      (taken, .error (.invalidParams "MRTR retry omitted the form elicitation capability"))
    else
      match openWith codec call.now token question.associatedData with
      | none => (taken, .error (.invalidParams "expired, tampered, or unknown requestState"))
      | some payload =>
        if payload ≠ question.stage.sealBytes then
          (taken, .error (.invalidParams "requestState belongs to a different MRTR stage"))
        else
          match responses.bind fun responses => responses.lookup question.stage.key with
          | none => (taken, .error
              (.invalidParams ("missing " ++ question.stage.key ++ " elicitation response")))
          | some response =>
            match serde.elicitResult response with
            | none => (taken, .error
                (.invalidParams ("invalid " ++ question.stage.key ++ " elicitation response action")))
            | some result => ({ taken with used := d.used ++ [question] }, .ok (.answered result))

def usesMrtr (prompts : OpenPrompts V) : Except McpError Bool :=
  if call.speaksMcp2026 then .ok true
  else if prompts.carries then
    .error (.invalidParams "requestState and inputResponses require MCP 2026-07-28")
  else .ok false

def acceptedBackground (content : Option V) : Bool :=
  ((content.bind serde.choice).bind id).getD true

def sliceAnswerFrom (response : ElicitResult V) (slices : List FatSlice) (askBackground : Bool) :
    Except String (FatSlice × Option Bool) :=
  match response.action with
  | .accept =>
    match response.content.bind serde.arch with
    | none => .error "the answer did not name a slice"
    | some arch =>
      match selectSlice slices arch with
      | none => .error ("no " ++ arch ++ " slice")
      | some slice =>
        .ok (slice, if askBackground then some (acceptedBackground serde response.content) else none)
  | .decline | .cancel => .error "the slice prompt was declined"

def sliceAnswer (response : ElicitResult V) (slices : List FatSlice) (askBackground : Bool) :
    SliceAnswer :=
  match sliceAnswerFrom serde response slices askBackground with
  | .ok (slice, background) => .chosen slice background
  | .error reason => .unanswered reason

def noFormSupport : String := "the client cannot show input requests"

def askForSlice (d : Dialogue V) (path : String) (slices : List FatSlice) :
    Dialogue V × Except McpError SliceAnswer :=
  let askBackground := d.prompts.backgroundPrompt &&
    slices.any fun slice => exceedsBackgroundThreshold slice.size
  match call.schemaError with
  | some error => (d, .error (.internalError error))
  | none =>
    match usesMrtr call d.prompts with
    | .error error => (d, .error error)
    | .ok true =>
      match mrtrFormStage serde codec call d (.slice path slices askBackground) with
      | (d, .error error) => (d, .error error)
      | (d, .ok .inputRequired) => (d, .ok .inputRequired)
      | (d, .ok .noFormSupport) => (d, .ok (.unanswered noFormSupport))
      | (d, .ok (.answered response)) => (d, .ok (sliceAnswer serde response slices askBackground))
    | .ok false =>
      match call.inlineSlice with
      | .error reason => (d, .ok (.unanswered reason))
      | .ok response => (d, .ok (sliceAnswer serde response slices askBackground))

def sliceRequiredError (path : String) (slices : List FatSlice) (reason : String) : ToolError :=
  .invalidParams (path ++ " is a universal Mach-O with slices " ++ sliceNames slices ++ "; " ++ reason ++
    ". Pass arch=<slice> to choose one.")

def universalSlices (path : String) (arch : Option String) :
    Except ToolError (Option (List FatSlice)) :=
  match inspect (call.files.expandPath path) (call.files.file (call.files.expandPath path)) with
  | .error error => .error error
  | .ok (.universal slices) => .ok (some slices)
  | .ok (.thin thin) =>
    match arch with
    | some arch =>
      if eqIgnoreAsciiCase arch.toList thin.toList then .ok none
      else .error (.invalidParams (path ++ " is a single-architecture " ++ thin ++ " Mach-O; arch=" ++
        arch ++ " does not match"))
    | none => .ok none
  | .ok .other =>
    match arch with
    | some _ => .error (.invalidParams ("arch applies only to Mach-O inputs; " ++ path ++
        " is not a Mach-O file"))
    | none => .ok none

def resolveSlice (path : String) (idbOut : Option String) (slices : List FatSlice) (slice : FatSlice)
    (background : Option Bool) : UniversalInput :=
  match call.files.extract (call.files.expandPath path) idbOut slice with
  | .error error => .rejected error
  | .ok slicePath => .resolved ⟨slice.arch, slices.map FatSlice.arch, slicePath, background⟩

def resolveUniversalInput (d : Dialogue V) (path : String) (arch idbOut : Option String) :
    Dialogue V × Except McpError UniversalInput :=
  match universalSlices call path arch with
  | .error error => (d, .ok (.rejected error))
  | .ok none => (d, .ok .notUniversal)
  | .ok (some slices) =>
    match arch, slices with
    | some arch, slices =>
      match selectSlice slices arch with
      | some slice => (d, .ok (resolveSlice call path idbOut slices slice none))
      | none => (d, .ok (.rejected (sliceRequiredError path slices ("no " ++ arch ++ " slice"))))
    | none, [only] => (d, .ok (resolveSlice call path idbOut [only] only none))
    | none, slices =>
      match askForSlice serde codec call d path slices with
      | (d, .error error) => (d, .error error)
      | (d, .ok (.chosen slice background)) =>
        (d, .ok (resolveSlice call path idbOut slices slice background))
      | (d, .ok .inputRequired) => (d, .ok .inputRequired)
      | (d, .ok (.unanswered reason)) =>
        (d, .ok (.rejected (sliceRequiredError path slices reason)))

def backgroundAnswer (response : ElicitResult V) : Bool :=
  match response.action with
  | .accept => acceptedBackground serde response.content
  | .decline | .cancel => false

def chooseOpenIdbBackground (d : Dialogue V) (path : String) (sizeBytes : ℕ) :
    Dialogue V × Except McpError BackgroundDecision :=
  match usesMrtr call d.prompts with
  | .error error => (d, .error error)
  | .ok false =>
    match call.inlineBackground with
    | .error error => (d, .error (.internalError error))
    | .ok background => (d, .ok (.ready background))
  | .ok true =>
    match call.schemaError with
    | some error => (d, .error (.internalError error))
    | none =>
      match mrtrFormStage serde codec call d (.background path sizeBytes) with
      | (d, .error error) => (d, .error error)
      | (d, .ok .inputRequired) => (d, .ok .inputRequired)
      | (d, .ok .noFormSupport) => (d, .ok (.ready true))
      | (d, .ok (.answered response)) => (d, .ok (.ready (backgroundAnswer serde response)))

def inputSizeAboveThreshold (path : String) : Option ℕ :=
  (call.files.size path).filter exceedsBackgroundThreshold

def largeInputSize (d : Dialogue V) (path : String) : Option ℕ :=
  if d.prompts.backgroundPrompt && !call.files.isDatabasePath (String.ofList (trim call.req.path.toList)) then
    inputSizeAboveThreshold call path
  else none

def openResolved (d : Dialogue V) (path : String) (universal : Option UniversalSlice) :
    Dialogue V × Outcome :=
  let userAutoAnalyse := call.req.autoAnalyse.getD false
  let path := universal.elim path UniversalSlice.slicePath
  let idbOut := call.req.effectiveIdbOut call.worker
  let opens (background : Bool) := Outcome.opens path universal (userAutoAnalyse && !background) background
  if call.req.rawTarget && !call.req.rebuild.getD false && call.files.rawBlobDatabaseExists path idbOut then
    (d, .toolError (.invalidParams ("raw target options only affect a newly-created database; the output " ++
      "already exists. Set rebuild=true to recreate it, or omit processor/bitness/base_address/entry_point " ++
      "to reuse the verified database.")))
  else
    match largeInputSize call d path, universal.bind UniversalSlice.background with
    | some _, some background => (d, opens background)
    | some size, none =>
      match chooseOpenIdbBackground serde codec call d path size with
      | (d, .error error) => (d, .protocolError error)
      | (d, .ok .inputRequired) => (d, .inputRequired)
      | (d, .ok (.ready background)) => (d, opens background)
    | none, _ =>
      if d.prompts.carries then
        (d, .protocolError (.invalidParams
          "requestState/inputResponses do not match an active open_idb elicitation"))
      else (d, opens false)

def startDialogue : Dialogue V where
  prompts :=
    { requestState := call.requestState
      inputResponses := call.inputResponses
      backgroundPrompt := call.req.autoAnalyse.getD false && !call.worker
      formElicitation := call.formElicitation }
  asked := []
  used := []

def openIdb : Dialogue V × Outcome :=
  let d := startDialogue call
  let path := String.ofList (trim call.req.path.toList)
  let idbOut := call.req.effectiveIdbOut call.worker
  let arch := nonEmptyTrimmed call.req.arch
  let inputIsDatabase := call.files.isDatabasePath path
  if !call.files.validOpenPath path then (d, .toolError (.invalidPath path))
  else
    match call.req.argumentError with
    | some error => (d, .toolError error)
    | none =>
      if inputIsDatabase && (idbOut.isSome || call.req.rawTarget || arch.isSome) then
        (d, .toolError (.invalidParams ("processor, bitness, base_address, entry_point, arch, and idb_out " ++
          "are only valid when opening a raw input")))
      else if inputIsDatabase || call.worker then openResolved serde codec call d path none
      else
        match resolveUniversalInput serde codec call d path arch idbOut with
        | (d, .error error) => (d, .protocolError error)
        | (d, .ok .notUniversal) => openResolved serde codec call d path none
        | (d, .ok (.resolved slice)) => openResolved serde codec call d path (some slice)
        | (d, .ok .inputRequired) => (d, .inputRequired)
        | (d, .ok (.rejected error)) => (d, .toolError error)

def sealedBy : List SealedState :=
  (openIdb serde codec call).1.asked.map fun question =>
    ⟨call.token, question.stage.sealBytes, question.associatedData, call.now + requestStateTtlSecs⟩

def codecAfter (calls : List (Call V)) : List SealedState :=
  calls.foldl (fun codec call => codec ++ sealedBy serde codec call) []

end IdaMcp.OpenIdb
