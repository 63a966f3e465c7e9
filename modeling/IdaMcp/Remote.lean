import IdaMcp.Error

namespace IdaMcp

inductive Value
  | null
  | bool (b : Bool)
  | number (n : Int)
  | string (s : String)
  | array (items : List Value)
  | object (fields : List (String × Value))

inductive Content
  | text (text : String)
  | other

structure CallToolResult where
  content : List Content
  isError : Option Bool
  metadata : Option (List (String × Value))

namespace ToolError

def toToolResult (e : ToolError) : CallToolResult :=
  { content := [.text e.display], isError := some true, metadata := none }

end ToolError

namespace Remote

def notSupportedPrefix : String := "Not supported: "

def sdkCrashedMetaKey : String := "ida-mcp/sdk-crashed"

def isSdkCrash (result : CallToolResult) : Bool :=
  match result.metadata.bind fun fields => fields.lookup sdkCrashedMetaKey with
  | some (.bool true) => true
  | _ => false

def markSdkCrashed (result : CallToolResult) : CallToolResult :=
  { result with metadata := some ((sdkCrashedMetaKey, .bool true) ::
      (result.metadata.getD []).filter fun field => field.1 ≠ sdkCrashedMetaKey) }

@[simp] theorem isSdkCrash_markSdkCrashed (result : CallToolResult) :
    isSdkCrash (markSdkCrashed result) = true := by
  simp [isSdkCrash, markSdkCrashed]

@[simp] theorem isError_markSdkCrashed (result : CallToolResult) :
    (markSdkCrashed result).isError = result.isError := rfl

def resultErrorMessage (result : CallToolResult) (tool : String) : String :=
  match result.content.head? with
  | some (.text text) => text
  | _ => "child tool " ++ tool ++ " returned an error"

def sdkCrash (result : CallToolResult) (tool : String) : Option ToolError :=
  if isSdkCrash result then
    some (.sdkCrashed (if result.isError = some true then resultErrorMessage result tool
      else tool ++ " crashed inside the IDA SDK. The database state can no longer be trusted, " ++
        "so it is closed without saving and changes since the last save_idb are lost. " ++
        "Call open_idb again."))
  else none

def stripPrefix (text pre : String) : Option String :=
  if pre.toList <+: text.toList then some (String.ofList (text.toList.drop pre.length)) else none

def toAsciiLowercase (text : String) : String := text.map Char.toLower

def contains (text phrase : String) : Bool := decide (phrase.toList <:+: text.toList)

/-- The tests of `classify_child_error` after its two prefixes, over what the lowered text has. -/
def classifyByPhrase (has : String → Bool) (message : String) : ToolError :=
  if has "worker channel closed" then .workerClosed
  else if has "timed out after" || has "operation timed out" ||
      has "exceeded worker operation timeout" then .timeoutDetailed message
  else if has "cancelled" || has "canceled" then .cancelled message
  else if has "debugger teardown incomplete" then .debuggerTeardown message
  else .idaError message

def classifyChildError (message : String) : ToolError :=
  match stripPrefix message debuggerStartRetainedPrefix with
  | some detail => .debuggerStartRetained detail
  | none =>
    match stripPrefix message notSupportedPrefix with
    | some detail => .notSupported detail
    | none => classifyByPhrase (contains (toAsciiLowercase message)) message

def resultError (result : CallToolResult) (tool : String) : Option ToolError :=
  if result.isError = some true then some (classifyChildError (resultErrorMessage result tool))
  else none

@[simp] theorem resultError_toToolResult (e : ToolError) (tool : String) :
    resultError e.toToolResult tool = some (classifyChildError e.display) := rfl

@[simp] theorem sdkCrash_toToolResult (e : ToolError) (tool : String) :
    sdkCrash e.toToolResult tool = none := rfl

end Remote

end IdaMcp
