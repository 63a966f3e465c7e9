import IdaMcp.Foundation.Infix
import IdaMcp.Foundation.Text
import IdaMcp.Retirement

namespace IdaMcp.ErrorText

open Foundation Remote Text

def settlementPhrases : List String :=
  ["worker channel closed", "timed out after", "operation timed out",
    "exceeded worker operation timeout", "cancelled", "canceled"]

def fatalPhrases (tool : String) : List String :=
  if tool = "open_idb" then settlementPhrases else ["worker channel closed"]

/-- A text that `classify_child_error` reads by its prefix, before it looks for phrases. -/
def typedByPrefix (text : String) : Prop :=
  debuggerStartRetainedPrefix.toList <+: text.toList ∨ notSupportedPrefix.toList <+: text.toList

instance (text : String) : Decidable (typedByPrefix text) := inferInstanceAs (Decidable (_ ∨ _))

/-- An error that is not itself a timeout, a cancellation, a closed worker, a crash or a debugger
error. -/
def ordinary : ToolError → Bool
  | .timeout _ | .timeoutDetailed _ | .cancelled _ | .workerClosed | .workerCrashed _ _
  | .sdkCrashed _ | .debuggerTeardown _ | .debuggerStartRetained _ | .debuggerSessionLost _ => false
  | _ => true

theorem fatalPhrases_subset {tool phrase : String} (h : phrase ∈ fatalPhrases tool) :
    phrase ∈ settlementPhrases := by
  unfold fatalPhrases at h
  split_ifs at h
  · exact h
  · simp only [List.mem_singleton] at h
    subst h
    decide

theorem stripPrefix_eq_none {text pre : String} :
    stripPrefix text pre = none ↔ ¬ pre.toList <+: text.toList := by
  simp [stripPrefix]

theorem classifyChildError_of_typed {text : String} (h : typedByPrefix text) :
    (∃ detail, classifyChildError text = .debuggerStartRetained detail) ∨
      ∃ detail, classifyChildError text = .notSupported detail := by
  unfold classifyChildError
  cases hd : stripPrefix text debuggerStartRetainedPrefix with
  | some detail => exact .inl ⟨detail, rfl⟩
  | none =>
    cases hn : stripPrefix text notSupportedPrefix with
    | some detail => exact .inr ⟨detail, rfl⟩
    | none => exact (h.elim (stripPrefix_eq_none.mp hd) (stripPrefix_eq_none.mp hn)).elim

theorem classifyChildError_of_untyped {text : String} (h : ¬ typedByPrefix text) :
    classifyChildError text = classifyByPhrase (contains (toAsciiLowercase text)) text := by
  obtain ⟨hd, hn⟩ := not_or.mp h
  simp only [classifyChildError, stripPrefix_eq_none.mpr hd, stripPrefix_eq_none.mpr hn]

def retires (tool : String) (error : ToolError) : Bool :=
  ((tool == "open_idb") && unsettledOpenErrorRetiresWorker error) ||
    childToolErrorRetiresWorker tool error

theorem replyRetirement_toToolResult (tool : String) (e : ToolError) :
    replyRetirement tool (tool == "open_idb") e.toToolResult = none ↔
      retires tool (classifyChildError e.display) = false := by
  simp [replyRetirement, retires, Option.filter_some]

section

variable (tool message : String)

theorem retires_workerClosed : retires tool .workerClosed = true := Bool.or_true _

theorem retires_timeoutDetailed (htool : tool ∉ debuggerTools) :
    retires tool (.timeoutDetailed message) = (tool == "open_idb") := by
  have hchild : childToolErrorRetiresWorker tool (.timeoutDetailed message) = false :=
    decide_eq_false htool
  rw [retires, hchild, Bool.or_false]
  exact Bool.and_true _

theorem retires_cancelled : retires tool (.cancelled message) = (tool == "open_idb") :=
  (Bool.or_false _).trans (Bool.and_true _)

theorem retires_debuggerTeardown : retires tool (.debuggerTeardown message) = false :=
  (Bool.or_false _).trans (Bool.and_false _)

theorem retires_idaError : retires tool (.idaError message) = false :=
  (Bool.or_false _).trans (Bool.and_false _)

theorem retires_debuggerStartRetained : retires tool (.debuggerStartRetained message) = false :=
  (Bool.or_false _).trans (Bool.and_false _)

theorem retires_notSupported : retires tool (.notSupported message) = false :=
  (Bool.or_false _).trans (Bool.and_false _)

end

theorem retires_classifyByPhrase (has : String → Bool) (tool message : String)
    (htool : tool ∉ debuggerTools) :
    retires tool (classifyByPhrase has message) = false ↔
      ∀ phrase ∈ fatalPhrases tool, has phrase = false := by
  have hclosed : "worker channel closed" ∈ fatalPhrases tool := by
    unfold fatalPhrases settlementPhrases
    split_ifs <;> simp
  unfold classifyByPhrase
  split_ifs with hchannel htimeout hcancelled hteardown
  · rw [retires_workerClosed]
    refine ⟨fun h => absurd h (by simp), fun h => ?_⟩
    rw [h _ hclosed] at hchannel
    cases hchannel
  all_goals
    unfold fatalPhrases
    by_cases hopen : tool = "open_idb"
  · rw [retires_timeoutDetailed tool message htool]
    simp only [hopen, beq_self_eq_true, if_true, settlementPhrases, List.forall_mem_cons]
    grind
  · rw [retires_timeoutDetailed tool message htool]
    simp only [hopen, if_false, List.forall_mem_singleton]
    grind
  · rw [retires_cancelled]
    simp only [hopen, beq_self_eq_true, if_true, settlementPhrases, List.forall_mem_cons]
    grind
  · rw [retires_cancelled]
    simp only [hopen, if_false, List.forall_mem_singleton]
    grind
  · rw [retires_debuggerTeardown]
    simp only [hopen, if_true, settlementPhrases, List.forall_mem_cons]
    grind
  · rw [retires_debuggerTeardown]
    simp only [hopen, if_false, List.forall_mem_singleton]
    grind
  · rw [retires_idaError]
    simp only [hopen, if_true, settlementPhrases, List.forall_mem_cons]
    grind
  · rw [retires_idaError]
    simp only [hopen, if_false, List.forall_mem_singleton]
    grind

theorem keeps_worker_iff_display (tool : String) (e : ToolError) (htool : tool ∉ debuggerTools) :
    replyRetirement tool (tool == "open_idb") e.toToolResult = none ↔
      typedByPrefix e.display ∨
        ∀ phrase ∈ fatalPhrases tool, contains (toAsciiLowercase e.display) phrase = false := by
  rw [replyRetirement_toToolResult]
  by_cases htyped : typedByPrefix e.display
  · simp only [htyped, true_or, iff_true]
    rcases classifyChildError_of_typed htyped with ⟨detail, h⟩ | ⟨detail, h⟩
    · rw [h, retires_debuggerStartRetained]
    · rw [h, retires_notSupported]
  · rw [classifyChildError_of_untyped htyped, retires_classifyByPhrase _ _ _ htool]
    simp only [htyped, false_or]

def labels : List String :=
  ["A database is already open: ", "Failed to open database: ",
    "Database appears to be open in another instance: ", "Invalid address format: ",
    "Invalid database path: ", "Invalid parameters: ", "Invalid tool category: ",
    "Invalid tool name: ", "Address 0x", "Function not found at address 0x",
    "Function not found: ", "Background task registry is full (", "Worker pool exhausted: ",
    "Remote worker protocol error: ", "Remote worker rejected request (", ": ", "IDA error: ",
    "Not supported: ", "SDK version mismatch: "]

def closings : List String :=
  [". Use close_idb first.", " is outside valid range",
    " retained tasks). Retry after older results expire.",
    " workers are leased. Close an IDB or retry later."]

def fixedTexts : List ToolError :=
  [.noDatabaseOpen, .decompilerUnavailable, .busy, .databaseReplaced,
    .backgroundTaskHandlePrivate]

def lowered (text : String) : List Char := text.toList.map Char.toLower

def codes (text : List Char) : List ℕ := text.map Char.toNat

theorem labels_clear : (settlementPhrases.all fun phrase => labels.all fun label =>
    clearOf (codes phrase.toList) (codes (lowered label))) = true := by
  decide +kernel

theorem closings_clear : (settlementPhrases.all fun phrase => closings.all fun closing =>
    clearOf (codes phrase.toList.reverse) (codes (lowered closing).reverse)) = true := by
  decide +kernel

/-- The full stop keeps a phrase from starting at the end of a text. -/
theorem fixedTexts_clear : (settlementPhrases.all fun phrase => fixedTexts.all fun e =>
    clearOf (codes phrase.toList) (codes (lowered e.display ++ ['.']))) = true := by
  decide +kernel

theorem toList_toAsciiLowercase (text : String) :
    (toAsciiLowercase text).toList = lowered text := by
  simp [toAsciiLowercase, lowered]

theorem lowered_append (a b : String) : lowered (a ++ b) = lowered a ++ lowered b := by
  simp [lowered]

theorem settlementPhrases_ne_nil : ∀ phrase ∈ settlementPhrases, phrase.toList ≠ [] := by
  decide

theorem settlementPhrases_letter :
    ∀ phrase ∈ settlementPhrases, 't' ∈ phrase.toList ∨ 'l' ∈ phrase.toList := by
  decide

section Phrase

variable {phrase : String} (hphrase : phrase ∈ settlementPhrases)
include hphrase

theorem infix_label_append {label : String} (hlabel : label ∈ labels) (text : List Char) :
    phrase.toList <:+: lowered label ++ text ↔ phrase.toList <:+: text := by
  refine infix_append_iff_of_clearOf (clearOf_of_map Char.toNat ?_)
    (settlementPhrases_ne_nil phrase hphrase)
  exact List.all_eq_true.mp (List.all_eq_true.mp labels_clear phrase hphrase) label hlabel

theorem infix_append_closing {closing : String} (hclosing : closing ∈ closings)
    (text : List Char) :
    phrase.toList <:+: text ++ lowered closing ↔ phrase.toList <:+: text := by
  refine infix_append_iff_of_clearOf_reverse (clearOf_of_map Char.toNat ?_)
    (settlementPhrases_ne_nil phrase hphrase)
  exact List.all_eq_true.mp (List.all_eq_true.mp closings_clear phrase hphrase) closing hclosing

theorem not_infix_fixedText {e : ToolError} (he : e ∈ fixedTexts) :
    ¬ phrase.toList <:+: lowered e.display := by
  intro h
  refine not_infix_of_clearOf (clearOf_of_map Char.toNat ?_)
    (settlementPhrases_ne_nil phrase hphrase) (h.trans (List.infix_append_left : _ <:+: _ ++ ['.']))
  exact List.all_eq_true.mp (List.all_eq_true.mp fixedTexts_clear phrase hphrase) e he

theorem not_infix_of_letters {text : List Char} (h : ∀ c ∈ text, c ≠ 't' ∧ c ≠ 'l') :
    ¬ phrase.toList <:+: text := by
  rcases settlementPhrases_letter phrase hphrase with ht | hl
  · exact not_infix_of_forall (P := fun c => c ≠ 't' ∧ c ≠ 'l') ht (by simp) h
  · exact not_infix_of_forall (P := fun c => c ≠ 't' ∧ c ≠ 'l') hl (by simp) h

end Phrase

theorem digit_letters {base : ℕ} (n : ℕ) (hb : 1 < base) (hb' : base ≤ 16) :
    ∀ c ∈ (Nat.toDigits base n).map Char.toLower, c ≠ 't' ∧ c ≠ 'l' := by
  have hdigit : ∀ k < 16, k.digitChar.toLower ≠ 't' ∧ k.digitChar.toLower ≠ 'l' := by decide
  intro c hc
  obtain ⟨d, hd, rfl⟩ := List.mem_map.mp hc
  obtain ⟨k, hk, rfl⟩ := exists_digit_of_mem_toDigits hb hd
  exact hdigit k (by omega)

theorem lowered_nat_letters (n : ℕ) : ∀ c ∈ lowered (toString n), c ≠ 't' ∧ c ≠ 'l' := by
  have hdigits := digit_letters n (show 1 < 10 by omega) (by omega)
  simpa [lowered, Nat.toString_eq_repr, Nat.toList_repr] using hdigits

theorem lowered_hex_letters (n : UInt64) :
    ∀ c ∈ lowered (ToolError.lowerHex n), c ≠ 't' ∧ c ≠ 'l' := by
  have hdigits := digit_letters n.toNat (show 1 < 16 by omega) (by omega)
  simpa [lowered, ToolError.lowerHex] using hdigits

theorem lowered_int_letters (n : ℤ) : ∀ c ∈ lowered (toString n), c ≠ 't' ∧ c ≠ 'l' := by
  cases n with
  | ofNat n => exact lowered_nat_letters n
  | negSucc n =>
    have htext : toString (Int.negSucc n) = "-" ++ toString (n + 1) := rfl
    rw [htext, lowered_append]
    intro c hc
    rcases List.mem_append.mp hc with hc | hc
    · have hminus : lowered "-" = ['-'] := by decide
      rw [hminus, List.mem_singleton] at hc
      subst hc
      decide
    · exact lowered_nat_letters (n + 1) c hc

theorem settlementPhrases_no_paren : ∀ phrase ∈ settlementPhrases, ')' ∉ phrase.toList := by
  decide

theorem infix_display_iff {phrase : String} (hphrase : phrase ∈ settlementPhrases) {e : ToolError}
    (he : ordinary e) :
    phrase.toList <:+: lowered e.display ↔ phrase.toList <:+: lowered e.payload := by
  have hempty : ¬ phrase.toList <:+: lowered "" := by
    simpa [lowered] using settlementPhrases_ne_nil phrase hphrase
  have hlabel (label : String) (hl : label ∈ labels) (text : String) :
      phrase.toList <:+: lowered (label ++ text) ↔ phrase.toList <:+: lowered text := by
    rw [lowered_append]
    exact infix_label_append hphrase hl _
  have hclosing (closing : String) (hl : closing ∈ closings) (text : String) :
      phrase.toList <:+: lowered (text ++ closing) ↔ phrase.toList <:+: lowered text := by
    rw [lowered_append]
    exact infix_append_closing hphrase hl _
  cases e with
  | noDatabaseOpen | decompilerUnavailable | busy | databaseReplaced
  | backgroundTaskHandlePrivate =>
    refine iff_of_false (not_infix_fixedText hphrase ?_) hempty
    simp [fixedTexts]
  | timeout | timeoutDetailed | cancelled | workerClosed | workerCrashed | sdkCrashed
  | debuggerTeardown | debuggerStartRetained | debuggerSessionLost => cases he
  | workerRetired | neverDispatched => exact Iff.rfl
  | databaseAlreadyOpen path =>
    exact (hclosing ". Use close_idb first." (by simp [closings]) _).trans
      (hlabel "A database is already open: " (by simp [labels]) path)
  | openFailed s | databaseLocked s | invalidAddress s | invalidPath s | invalidParams s
  | invalidToolCategory s | invalidToolName s | functionNameNotFound s | remoteProtocol s
  | idaError s | notSupported s | sdkVersionMismatch s =>
    exact hlabel _ (by simp [labels]) s
  | addressOutOfRange address =>
    refine iff_of_false (fun h => ?_) hempty
    have haddress := (hlabel "Address 0x" (by simp [labels]) _).mp
      ((hclosing " is outside valid range" (by simp [closings]) _).mp h)
    exact not_infix_of_letters hphrase (lowered_hex_letters address) haddress
  | functionNotFound address =>
    refine iff_of_false (fun h => ?_) hempty
    have haddress := (hlabel "Function not found at address 0x" (by simp [labels]) _).mp h
    exact not_infix_of_letters hphrase (lowered_hex_letters address) haddress
  | backgroundTaskRegistryFull max =>
    refine iff_of_false (fun h => ?_) hempty
    have hmax := (hlabel "Background task registry is full (" (by simp [labels]) _).mp
      ((hclosing " retained tasks). Retry after older results expire." (by simp [closings]) _).mp h)
    exact not_infix_of_letters hphrase (lowered_nat_letters max) hmax
  | poolExhausted active max =>
    have hslash : lowered "/" = ['/'] := by decide
    refine iff_of_false (fun h => ?_) hempty
    have hcounts := (hclosing " workers are leased. Close an IDB or retry later."
      (by simp [closings]) _).mp h
    rw [String.append_assoc, String.append_assoc,
      hlabel "Worker pool exhausted: " (by simp [labels]), lowered_append, lowered_append,
      hslash] at hcounts
    refine not_infix_of_letters hphrase (fun c hc => ?_) hcounts
    rcases List.mem_append.mp hc with hc | hc
    · exact lowered_nat_letters active c hc
    · rcases List.mem_cons.mp hc with rfl | hc
      · decide
      · exact lowered_nat_letters max c hc
  | remoteCall error =>
    have hsplit : lowered "): " = ')' :: lowered ": " := by decide
    have hcode : ¬ phrase.toList <:+: lowered (toString error.code) :=
      not_infix_of_letters hphrase (lowered_int_letters error.code)
    change phrase.toList <:+: lowered ("Remote worker rejected request (" ++ toString error.code ++
      "): " ++ error.message) ↔ phrase.toList <:+: lowered error.message
    rw [lowered_append, lowered_append, hsplit, List.append_assoc, List.cons_append,
      infix_append_cons_iff (settlementPhrases_no_paren phrase hphrase),
      hlabel "Remote worker rejected request (" (by simp [labels]),
      @infix_label_append phrase hphrase ": " (by simp [labels])]
    simp only [hcode, false_or]

/-- The parent keeps the worker on an ordinary error of its child exactly when the payload has none
of the phrases that read as a closed worker or, for an open, as a timeout or a cancellation. -/
theorem keeps_worker_iff_payload (tool : String) (e : ToolError) (htool : tool ∉ debuggerTools)
    (he : ordinary e) :
    replyRetirement tool (tool == "open_idb") e.toToolResult = none ↔
      typedByPrefix e.display ∨
        ∀ phrase ∈ fatalPhrases tool, contains (toAsciiLowercase e.payload) phrase = false := by
  rw [keeps_worker_iff_display tool e htool]
  refine or_congr Iff.rfl (forall₂_congr fun phrase hphrase => ?_)
  simp only [contains, decide_eq_false_iff_not, toList_toAsciiLowercase,
    infix_display_iff (fatalPhrases_subset hphrase) he]

theorem keeps_worker_iff_payload_main :
    replyRetirement "resolve_function" false
      (ToolError.functionNameNotFound "main").toToolResult = none :=
  (keeps_worker_iff_payload "resolve_function" (.functionNameNotFound "main") (by decide)
    (by decide)).mpr (.inr (by decide +kernel))

/-- A symbol that is named like the closed channel kills the worker that does not know it. -/
theorem payload_retires_worker :
    ordinary (.functionNameNotFound "worker channel closed") ∧
      "resolve_function" ∉ debuggerTools ∧
      replyRetirement "resolve_function" false
        (ToolError.functionNameNotFound "worker channel closed").toToolResult ≠ none ∧
      replyRetirement "resolve_function" false
        (ToolError.functionNameNotFound "main").toToolResult = none := by
  decide +kernel

end IdaMcp.ErrorText
