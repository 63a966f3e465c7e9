import Mathlib.Data.Nat.Digits.Defs
import IdaMcp.Remote
import IdaMcp.Transport.RequestHeader

namespace IdaMcp.Transport

open Foundation Json Remote

structure ErrorData where
  code : Int32
  message : String
  data : Option Value

def ErrorData.internalError (message : String) (data : Option Value) : ErrorData :=
  { code := -32603, message, data }

inductive ServerResult (Payload : Type)
  | callToolResult (result : CallToolResult) (rest : Option Payload)
  | other (result : Payload)

structure JsonRpcResponse (Payload : Type) where
  id : RequestId
  result : ServerResult Payload

structure JsonRpcError where
  id : Option RequestId
  error : ErrorData

inductive ServerMessage (Payload : Type)
  | request (request : Payload)
  | response (response : JsonRpcResponse Payload)
  | notification (notification : Payload)
  | error (error : JsonRpcError)

variable {Payload : Type}

def callToolError (text : String) : CallToolResult :=
  { content := [.text text], isError := some true, metadata := none }

def messageLimitLabel (maxMessageBytes : ℕ) : String :=
  let mib := 1024 * 1024
  if maxMessageBytes % mib = 0 then toString (maxMessageBytes / mib) ++ " MiB"
  else toString maxMessageBytes ++ " bytes"

def largeReplyMessage (maxMessageBytes : ℕ) : String :=
  "The reply exceeds the " ++ messageLimitLabel maxMessageBytes ++ " MCP message limit. " ++
    "The operation may already have changed the database. Request less data, or inspect " ++
    "the database before retrying an edit."

def compactLargeReply : String := "Reply too large; the operation may have changed the database"

def compactReplyError (id : Option RequestId) : ServerMessage Payload :=
  .error ⟨id, .internalError compactLargeReply none⟩

structure FrameBudget where
  remaining : ℕ
  exceeded : Bool

namespace FrameBudget

def write (budget : FrameBudget) (bytes : Bytes) : Except String Unit × FrameBudget :=
  if bytes.length ≤ budget.remaining then
    (.ok (), { budget with remaining := budget.remaining - bytes.length })
  else (.error "MCP frame exceeds its size limit", { budget with exceeded := true })

def writeAll (budget : FrameBudget) : List Bytes → Except String Unit × FrameBudget
  | [] => (.ok (), budget)
  | bytes :: chunks =>
    match budget.write bytes with
    | (.ok _, budget) => budget.writeAll chunks
    | failed => failed

end FrameBudget

/-- The serializer is given by the pieces that it writes for each message. -/
def frameFitsWithLimit (toWriter : ServerMessage Payload → List Bytes) (value : ServerMessage Payload)
    (maxLineLength : ℕ) : Except String Bool :=
  if maxLineLength < 1 then .ok false
  else
    match FrameBudget.writeAll ⟨maxLineLength - 1, false⟩ (toWriter value) with
    | (.ok _, _) => .ok true
    | (.error e, budget) => if budget.exceeded then .ok false else .error e

def responseIdFits (toWriter : ServerMessage Payload → List Bytes) (id : RequestId)
    (maxLineLength : ℕ) : Except String Bool :=
  frameFitsWithLimit toWriter (compactReplyError (some id)) maxLineLength

def replacement (maxMessageBytes : ℕ) (response : JsonRpcResponse Payload) : ServerMessage Payload :=
  let explanation := largeReplyMessage maxMessageBytes
  match response.result with
  | .callToolResult original _ =>
    let result := callToolError explanation
    let result := if isSdkCrash original then markSdkCrashed result else result
    .response ⟨response.id, .callToolResult result none⟩
  | .other _ => .error ⟨some response.id, .internalError explanation none⟩

def ServerMessage.replyId : ServerMessage Payload → Option RequestId
  | response r => some r.id
  | error e => e.id
  | request _ => none
  | notification _ => none

def boundedReply (toWriter : ServerMessage Payload → List Bytes) (maxMessageBytes : ℕ)
    (message : ServerMessage Payload) : Except String (ServerMessage Payload) := do
  if ← frameFitsWithLimit toWriter message maxMessageBytes then return message
  match message with
  | .error original =>
    let original := { original with error.data := none }
    if ← frameFitsWithLimit toWriter (.error original) maxMessageBytes then return .error original
    let original := { original with error.message := "Error response too large" }
    if ← frameFitsWithLimit toWriter (.error original) maxMessageBytes then return .error original
    throw "Response ID exceeds the MCP size limit"
  | .request _ => throw "IDA worker message exceeds the MCP size limit"
  | .notification _ => throw "IDA worker message exceeds the MCP size limit"
  | .response response =>
    let reply := replacement maxMessageBytes response
    if ← frameFitsWithLimit toWriter reply maxMessageBytes then return reply
    let compact := compactReplyError reply.replyId
    if ← frameFitsWithLimit toWriter compact maxMessageBytes then return compact
    throw "Response ID exceeds the MCP size limit"

def hexDigit (n : UInt8) : UInt8 := if n < 10 then 0x30 + n else 0x57 + n

def escape (b : UInt8) : Bytes :=
  if b = 0x22 then [0x5c, 0x22]
  else if b = 0x5c then [0x5c, 0x5c]
  else if b = 0x08 then [0x5c, 0x62]
  else if b = 0x09 then [0x5c, 0x74]
  else if b = 0x0a then [0x5c, 0x6e]
  else if b = 0x0c then [0x5c, 0x66]
  else if b = 0x0d then [0x5c, 0x72]
  else if b < 0x20 then [0x5c, 0x75, 0x30, 0x30, hexDigit (b / 16), hexDigit (b % 16)]
  else [b]

def stringText (s : String) : Bytes :=
  [0x22] ++ s.toUTF8.toList.flatMap escape ++ [0x22]

def naturalText (n : ℕ) : Bytes := (Nat.toDigits 10 n).map fun c => c.toNat.toUInt8

def integerText : ℤ → Bytes
  | .ofNat n => naturalText n
  | .negSucc n => 0x2d :: naturalText (n + 1)

def idText : RequestId → Bytes
  | .number n => integerText n
  | .string s => stringText s

def field (name : String) (text : Bytes) : Bytes := stringText name ++ [0x3a] ++ text

def objectText (fields : List Bytes) : Bytes := [0x7b] ++ [0x2c].intercalate fields ++ [0x7d]

def errorText (id : RequestId) (code : Int32) (message : String) : Bytes :=
  objectText [field "jsonrpc" (stringText "2.0"), field "id" (idText id),
    field "error" (objectText [field "code" (integerText code.toInt),
      field "message" (stringText message)])]

/-- The protocol library serializes an error reply as JSON-RPC has it, leaving absent data out. -/
def WritesErrors (toWriter : ServerMessage Payload → List Bytes) : Prop :=
  ∀ id code message, (toWriter (.error ⟨some id, ⟨code, message, none⟩⟩)).flatten =
    errorText id code message

theorem writeAll_spec (chunks : List Bytes) (budget : FrameBudget) :
    if chunks.flatten.length ≤ budget.remaining then (budget.writeAll chunks).1 = .ok ()
    else (∃ e, (budget.writeAll chunks).1 = .error e) ∧ (budget.writeAll chunks).2.exceeded = true := by
  induction chunks generalizing budget with
  | nil => simp [FrameBudget.writeAll]
  | cons bytes chunks ih =>
    rw [List.flatten_cons, List.length_append, FrameBudget.writeAll, FrameBudget.write]
    by_cases hbytes : bytes.length ≤ budget.remaining
    · have hrest := ih { budget with remaining := budget.remaining - bytes.length }
      have hiff : bytes.length + chunks.flatten.length ≤ budget.remaining ↔
          chunks.flatten.length ≤ budget.remaining - bytes.length := by omega
      rw [if_pos hbytes]
      simp only [hiff]
      exact hrest
    · rw [if_neg hbytes, if_neg (by omega)]
      exact ⟨⟨_, rfl⟩, rfl⟩

variable {toWriter : ServerMessage Payload → List Bytes} {maxMessageBytes : ℕ}

def frameLength (toWriter : ServerMessage Payload → List Bytes) (m : ServerMessage Payload) : ℕ :=
  (toWriter m).flatten.length + 1

theorem frameFits_eq (m : ServerMessage Payload) : frameFitsWithLimit toWriter m maxMessageBytes =
    .ok (decide (frameLength toWriter m ≤ maxMessageBytes)) := by
  unfold frameFitsWithLimit frameLength
  by_cases hzero : maxMessageBytes < 1
  · rw [if_pos hzero, decide_eq_false (by omega)]
  · have hspec := writeAll_spec (toWriter m) ⟨maxMessageBytes - 1, false⟩
    rw [if_neg hzero]
    split_ifs at hspec with hlength
    · rw [decide_eq_true (by dsimp only at hlength; omega)]
      split
      · rfl
      · next e budget hwrite =>
        rw [hwrite] at hspec
        cases hspec
    · obtain ⟨⟨e, hfailed⟩, hexceeded⟩ := hspec
      rw [decide_eq_false (by dsimp only at hlength; omega)]
      split
      · next u budget hwrite =>
        rw [hwrite] at hfailed
        cases hfailed
      · next e' budget hwrite =>
        rw [hwrite] at hexceeded
        rw [if_pos hexceeded]

theorem length_naturalText {n : ℕ} (h : n < 10 ^ 10) : (naturalText n).length ≤ 10 := by
  rw [naturalText, List.length_map]
  exact (Nat.length_toDigits_le_iff (by decide) (by decide)).mpr h

theorem length_codeText (code : Int32) : (integerText code.toInt).length ≤ 11 := by
  have hlow := code.minValue_le_toInt
  have hhigh := code.toInt_lt
  cases hcode : code.toInt with
  | ofNat n =>
    have hn := length_naturalText (n := n) (by rw [hcode] at hhigh; simp at hhigh; omega)
    rw [integerText]
    omega
  | negSucc n =>
    have hn := length_naturalText (n := n + 1) (by rw [hcode] at hlow; simp at hlow; omega)
    rw [integerText, List.length_cons]
    omega

theorem length_errorText (id : RequestId) (code : Int32) (message : String) :
    (errorText id code message).length =
      (idText id).length + (integerText code.toInt).length + (stringText message).length + 52 := by
  have hjsonrpc : (field "jsonrpc" (stringText "2.0")).length = 15 := by decide +kernel
  have hid : (stringText "id").length = 4 := by decide +kernel
  have herror : (stringText "error").length = 7 := by decide +kernel
  have hcode : (stringText "code").length = 6 := by decide +kernel
  have hmessage : (stringText "message").length = 9 := by decide +kernel
  rw [field] at hjsonrpc
  simp only [errorText, objectText, field, List.intercalate, List.intersperse, List.flatten_cons,
    List.flatten_nil, List.length_append, List.length_cons, List.length_nil] at hjsonrpc ⊢
  omega

/-- The text of the last fallback is shorter than the compact reply's by more than any code can be
longer than the compact reply's. -/
theorem length_tooLarge_le (id : RequestId) (code : Int32) :
    (errorText id code "Error response too large").length ≤
      (errorText id (-32603) compactLargeReply).length := by
  have hlarge : (stringText "Error response too large").length = 26 := by decide +kernel
  have hcompact : (stringText compactLargeReply).length = 62 := by decide +kernel
  have hcode := length_codeText code
  rw [length_errorText, length_errorText, hlarge, hcompact]
  omega

section Bounded

variable {i : RequestId}

theorem frameFits_compact
    (hfits : responseIdFits toWriter i maxMessageBytes = .ok true) :
    frameLength toWriter (compactReplyError (some i)) ≤ maxMessageBytes := by
  rw [responseIdFits, frameFits_eq] at hfits
  simpa using hfits

theorem frameFits_tooLarge (hwrites : WritesErrors toWriter)
    (hfits : responseIdFits toWriter i maxMessageBytes = .ok true) (code : Int32) :
    frameLength toWriter (.error ⟨some i, ⟨code, "Error response too large", none⟩⟩) ≤
      maxMessageBytes := by
  have hcompact := frameFits_compact hfits
  have hlength := length_tooLarge_le i code
  unfold frameLength at hcompact ⊢
  rw [compactReplyError, ErrorData.internalError, hwrites] at hcompact
  rw [hwrites]
  omega

end Bounded

def ServerMessage.toolResult : ServerMessage Payload → Option CallToolResult
  | response ⟨_, .callToolResult result _⟩ => some result
  | _ => none

def ServerMessage.IsError : ServerMessage Payload → Prop
  | response ⟨_, .callToolResult result _⟩ => result.isError = some true
  | response ⟨_, .other _⟩ => False
  | error _ => True
  | request _ => False
  | notification _ => False

/-- What `m'` may be when it is sent instead of the reply `m`. -/
structure Bounds (toWriter : ServerMessage Payload → List Bytes) (maxMessageBytes : ℕ)
    (m m' : ServerMessage Payload) : Prop where
  fits : frameFitsWithLimit toWriter m' maxMessageBytes = .ok true
  id : m'.replyId = m.replyId
  unchanged : frameFitsWithLimit toWriter m maxMessageBytes = .ok true → m' = m
  failed : frameFitsWithLimit toWriter m maxMessageBytes = .ok false → m.toolResult.isSome → m'.IsError
  code : ∀ e, m = .error e → ∃ e', m' = .error e' ∧ e'.error.code = e.error.code
  crash : ∀ result', m'.toolResult = some result' →
    ∃ result, m.toolResult = some result ∧ isSdkCrash result' = isSdkCrash result

theorem boundedReply_of_fits {m : ServerMessage Payload}
    (hm : frameLength toWriter m ≤ maxMessageBytes) : boundedReply toWriter maxMessageBytes m = .ok m := by
  simp only [boundedReply, frameFits_eq, decide_eq_true hm]
  rfl

theorem Bounds.refl {m : ServerMessage Payload} (hm : frameLength toWriter m ≤ maxMessageBytes) :
    Bounds toWriter maxMessageBytes m m := by
  have hok : frameFitsWithLimit toWriter m maxMessageBytes = .ok true := by
    rw [frameFits_eq, decide_eq_true hm]
  constructor
  · exact hok
  · rfl
  · intro _
    rfl
  · intro hlarge
    rw [hok] at hlarge
    cases hlarge
  · intro e he
    exact ⟨e, he, rfl⟩
  · intro result' hresult
    exact ⟨result', hresult, rfl⟩

theorem boundedReply_error {e : JsonRpcError} {i : RequestId} (hwrites : WritesErrors toWriter)
    (hid : e.id = some i) (hfits : responseIdFits toWriter i maxMessageBytes = .ok true)
    (hlarge : ¬ frameLength toWriter (.error e) ≤ maxMessageBytes) :
    ∃ message, boundedReply toWriter maxMessageBytes (.error e) =
        .ok (.error ⟨some i, ⟨e.error.code, message, none⟩⟩) ∧
      frameLength toWriter (.error ⟨some i, ⟨e.error.code, message, none⟩⟩) ≤ maxMessageBytes := by
  obtain ⟨id, code, message, data⟩ := e
  subst hid
  have hlast := frameFits_tooLarge hwrites hfits code
  by_cases hbare : frameLength toWriter (.error ⟨some i, ⟨code, message, none⟩⟩) ≤ maxMessageBytes
  · refine ⟨message, ?_, hbare⟩
    simp only [boundedReply, frameFits_eq, decide_eq_false hlarge, decide_eq_true hbare]
    rfl
  · refine ⟨"Error response too large", ?_, hlast⟩
    simp only [boundedReply, frameFits_eq, decide_eq_false hlarge, decide_eq_false hbare,
      decide_eq_true hlast]
    rfl

theorem boundedReply_response {r : JsonRpcResponse Payload}
    (hfits : responseIdFits toWriter r.id maxMessageBytes = .ok true)
    (hlarge : ¬ frameLength toWriter (.response r) ≤ maxMessageBytes) :
    ∃ m', boundedReply toWriter maxMessageBytes (.response r) = .ok m' ∧
      frameLength toWriter m' ≤ maxMessageBytes ∧
      (m' = replacement maxMessageBytes r ∨ m' = compactReplyError (some r.id)) := by
  have hcompact := frameFits_compact hfits
  have hid : (replacement maxMessageBytes r).replyId = some r.id := by
    obtain ⟨id, result | result⟩ := r <;> rfl
  by_cases hreply : frameLength toWriter (replacement maxMessageBytes r) ≤ maxMessageBytes
  · refine ⟨_, ?_, hreply, .inl rfl⟩
    simp only [boundedReply, frameFits_eq, decide_eq_false hlarge, decide_eq_true hreply]
    rfl
  · refine ⟨_, ?_, hcompact, .inr rfl⟩
    simp only [boundedReply, frameFits_eq, decide_eq_false hlarge, decide_eq_false hreply, hid,
      decide_eq_true hcompact]
    rfl

theorem replacement_isError (r : JsonRpcResponse Payload) :
    (replacement maxMessageBytes r).IsError := by
  obtain ⟨id, original | other⟩ := r
  · change (if isSdkCrash original = true then markSdkCrashed _ else _).isError = some true
    split_ifs
    · rfl
    · rfl
  · trivial

theorem replacement_crash {r : JsonRpcResponse Payload} {result' : CallToolResult}
    (h : (replacement maxMessageBytes r).toolResult = some result') :
    ∃ result, (ServerMessage.response r).toolResult = some result ∧
      isSdkCrash result' = isSdkCrash result := by
  obtain ⟨id, original | other⟩ := r
  · refine ⟨original, rfl, ?_⟩
    cases h
    cases hcrash : isSdkCrash original with
    | false => rfl
    | true => exact isSdkCrash_markSdkCrashed _
  · cases h

/-- Every reply whose id was admitted can be sent. -/
theorem boundedReply_bounds (hwrites : WritesErrors toWriter) {m : ServerMessage Payload}
    {i : RequestId} (hid : m.replyId = some i)
    (hfits : responseIdFits toWriter i maxMessageBytes = .ok true) :
    ∃ m', boundedReply toWriter maxMessageBytes m = .ok m' ∧ Bounds toWriter maxMessageBytes m m' := by
  by_cases hm : frameLength toWriter m ≤ maxMessageBytes
  · exact ⟨m, boundedReply_of_fits hm, .refl hm⟩
  have hlarge : frameFitsWithLimit toWriter m maxMessageBytes ≠ .ok true := by
    rw [frameFits_eq, decide_eq_false hm]
    nofun
  have sent {m' : ServerMessage Payload} (hm' : frameLength toWriter m' ≤ maxMessageBytes) :
      frameFitsWithLimit toWriter m' maxMessageBytes = .ok true := by
    rw [frameFits_eq, decide_eq_true hm']
  cases m with
  | request => cases hid
  | notification => cases hid
  | error e =>
    obtain ⟨message, hreply, hsize⟩ := boundedReply_error hwrites hid hfits hm
    refine ⟨_, hreply, ⟨sent hsize, hid.symm, fun h => (hlarge h).elim, fun _ _ => trivial, ?_, ?_⟩⟩
    · intro e' he
      cases he
      exact ⟨_, rfl, rfl⟩
    · intro result' hresult
      cases hresult
  | response r =>
    cases hid
    obtain ⟨m', hreply, hsize, rfl | rfl⟩ := boundedReply_response hfits hm
    · refine ⟨_, hreply, ⟨sent hsize, ?_, fun h => (hlarge h).elim, fun _ _ => replacement_isError r,
        nofun, fun result' h => replacement_crash h⟩⟩
      obtain ⟨id, original | other⟩ := r <;> rfl
    · exact ⟨_, hreply, ⟨sent hsize, rfl, fun h => (hlarge h).elim, fun _ _ => trivial, nofun, nofun⟩⟩

def writeErrors : ServerMessage Payload → List Bytes
  | .error ⟨some id, e⟩ => [errorText id e.code e.message]
  | _ => []

theorem boundedReply_bounds_large : ∃ m' : ServerMessage Unit,
    boundedReply writeErrors (16 * 1024 * 1024)
      (.error ⟨some (.number 7), ⟨-32602, String.ofList (List.replicate (16 * 1024 * 1024) 'x'), none⟩⟩) = .ok m' ∧
    Bounds writeErrors (16 * 1024 * 1024)
      (.error ⟨some (.number 7), ⟨-32602, String.ofList (List.replicate (16 * 1024 * 1024) 'x'), none⟩⟩) m' :=
  boundedReply_bounds (fun _ _ _ => List.append_nil _) rfl (by decide +kernel)

end IdaMcp.Transport
