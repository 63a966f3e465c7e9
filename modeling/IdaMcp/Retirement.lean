import IdaMcp.Remote

namespace IdaMcp

open Remote

def releaseErrorRetiresWorker : ToolError → Bool
  | .timeout _ | .timeoutDetailed _ | .cancelled _ | .debuggerTeardown _ | .workerCrashed _ _
  | .sdkCrashed _ | .workerRetired _ | .remoteProtocol _ | .remoteCall _ | .workerClosed => true
  | _ => false

def debuggerTools : List String := ["debug_launch", "debug_attach", "debug_modules", "debug_stop"]

def childToolErrorRetiresWorker (tool : String) : ToolError → Bool
  | .workerClosed | .workerCrashed _ _ | .sdkCrashed _ | .workerRetired _ | .remoteProtocol _ =>
    true
  | .timeout _ | .timeoutDetailed _ => decide (tool ∈ debuggerTools)
  | _ => false

def unsettledOpenErrorRetiresWorker : ToolError → Bool
  | .timeout _ | .timeoutDetailed _ | .cancelled _ | .sdkCrashed _ | .workerRetired _
  | .workerClosed => true
  | _ => false

def openErrorReleasesLease (freshLease : Bool) (err : ToolError) : Bool :=
  if err.wasNeverDispatched then false
  else
    freshLease || match err with
      | .timeout _ | .timeoutDetailed _ | .cancelled _ | .workerCrashed _ _ | .sdkCrashed _
      | .workerRetired _ | .workerClosed | .databaseReplaced => true
      | _ => false

/-- The error a settled reply retires its worker with, as `call_tool_admitted` decides it. -/
def replyRetirement (tool : String) (tracksOpen : Bool) (reply : CallToolResult) :
    Option ToolError :=
  (sdkCrash reply tool).or ((resultError reply tool).filter fun error =>
    (tracksOpen && unsettledOpenErrorRetiresWorker error) || childToolErrorRetiresWorker tool error)

end IdaMcp
