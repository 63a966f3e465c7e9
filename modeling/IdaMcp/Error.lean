import Mathlib.Data.List.Infix

namespace IdaMcp

structure ErrorData where
  code : Int
  message : String
deriving DecidableEq, Repr

def debuggerStartRetainedPrefix : String := "Debugger start incomplete; active session retained: "

inductive ToolError
  | noDatabaseOpen
  | databaseAlreadyOpen (path : String)
  | openFailed (detail : String)
  | databaseLocked (detail : String)
  | invalidAddress (text : String)
  | invalidPath (path : String)
  | invalidParams (detail : String)
  | invalidToolCategory (name : String)
  | invalidToolName (name : String)
  | addressOutOfRange (address : UInt64)
  | functionNotFound (address : UInt64)
  | functionNameNotFound (name : String)
  | decompilerUnavailable
  | timeout (secs : UInt64)
  | timeoutDetailed (detail : String)
  | cancelled (detail : String)
  | busy
  | databaseReplaced
  | backgroundTaskHandlePrivate
  | backgroundTaskRegistryFull (max : ℕ)
  | poolExhausted (active max : ℕ)
  | workerCrashed (workerId : ℕ) (lastOp : String)
  | workerRetired (detail : String)
  | neverDispatched (detail : String)
  | sdkCrashed (detail : String)
  | remoteProtocol (detail : String)
  | remoteCall (error : ErrorData)
  | idaError (detail : String)
  | debuggerTeardown (detail : String)
  | debuggerStartRetained (detail : String)
  | debuggerSessionLost (detail : String)
  | notSupported (detail : String)
  | workerClosed
  | sdkVersionMismatch (detail : String)
deriving DecidableEq, Repr

namespace ToolError

def lowerHex (n : UInt64) : String := String.ofList (Nat.toDigits 16 n.toNat)

def display : ToolError → String
  | noDatabaseOpen => "No database is currently open. If you had one open previously, " ++
      "the server may have restarted — call open_idb again."
  | databaseAlreadyOpen path =>
      "A database is already open: " ++ path ++ ". Use close_idb first."
  | openFailed detail => "Failed to open database: " ++ detail
  | databaseLocked detail => "Database appears to be open in another instance: " ++ detail
  | invalidAddress text => "Invalid address format: " ++ text
  | invalidPath path => "Invalid database path: " ++ path
  | invalidParams detail => "Invalid parameters: " ++ detail
  | invalidToolCategory name => "Invalid tool category: " ++ name
  | invalidToolName name => "Invalid tool name: " ++ name
  | addressOutOfRange address => "Address 0x" ++ lowerHex address ++ " is outside valid range"
  | functionNotFound address => "Function not found at address 0x" ++ lowerHex address
  | functionNameNotFound name => "Function not found: " ++ name
  | decompilerUnavailable => "Decompiler not available"
  | timeout secs => "Operation timed out after " ++ toString secs.toNat ++ " seconds"
  | timeoutDetailed detail => detail
  | cancelled detail => detail
  | busy => "Server is busy (request queue full). Please retry."
  | databaseReplaced => "The database this background operation opened was closed and replaced. " ++
      "Its remaining work was abandoned so it cannot touch the current database."
  | backgroundTaskHandlePrivate => "Matching background work is already running; its task handle " ++
      "stays with the response that started it. Retry after it finishes."
  | backgroundTaskRegistryFull max => "Background task registry is full (" ++ toString max ++
      " retained tasks). Retry after older results expire."
  | poolExhausted active max => "Worker pool exhausted: " ++ toString active ++ "/" ++
      toString max ++ " workers are leased. Close an IDB or retry later."
  | workerCrashed workerId lastOp =>
      "Worker " ++ toString workerId ++ " crashed or disconnected during " ++ lastOp
  | workerRetired detail => detail
  | neverDispatched detail => detail
  | sdkCrashed detail => detail
  | remoteProtocol detail => "Remote worker protocol error: " ++ detail
  | remoteCall error =>
      "Remote worker rejected request (" ++ toString error.code ++ "): " ++ error.message
  | idaError detail => "IDA error: " ++ detail
  | debuggerTeardown detail => "Debugger teardown incomplete: " ++ detail
  | debuggerStartRetained detail => debuggerStartRetainedPrefix ++ detail
  | debuggerSessionLost detail => "Debugger session lost: " ++ detail
  | notSupported detail => "Not supported: " ++ detail
  | workerClosed => "Worker channel closed"
  | sdkVersionMismatch detail => "SDK version mismatch: " ++ detail

def payload : ToolError → String
  | databaseAlreadyOpen s | openFailed s | databaseLocked s | invalidAddress s | invalidPath s
  | invalidParams s | invalidToolCategory s | invalidToolName s | functionNameNotFound s
  | timeoutDetailed s | cancelled s | workerCrashed _ s | workerRetired s | neverDispatched s
  | sdkCrashed s | remoteProtocol s | idaError s | debuggerTeardown s | debuggerStartRetained s
  | debuggerSessionLost s | notSupported s | sdkVersionMismatch s => s
  | remoteCall error => error.message
  | noDatabaseOpen | addressOutOfRange _ | functionNotFound _ | decompilerUnavailable | timeout _
  | busy | databaseReplaced | backgroundTaskHandlePrivate | backgroundTaskRegistryFull _
  | poolExhausted _ _ | workerClosed => ""

def isFatal : ToolError → Bool
  | sdkCrashed _ | debuggerSessionLost _ | workerRetired _ | workerCrashed _ _ => true
  | _ => false

def wasNeverDispatched : ToolError → Bool
  | neverDispatched _ | busy => true
  | _ => false

end ToolError

end IdaMcp
