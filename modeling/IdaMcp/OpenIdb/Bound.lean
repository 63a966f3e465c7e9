import IdaMcp.OpenIdb.Conduct

namespace IdaMcp.OpenIdb

open Foundation Text Slices

variable {V : Type} (serde : Serde V)

theorem mem_codecAfter {calls : List (Call V)} {state : SealedState}
    (h : state ∈ codecAfter serde calls) : ∃ pre earlier post, calls = pre ++ earlier :: post ∧
      state ∈ sealedBy serde (codecAfter serde pre) earlier := by
  induction calls using List.reverseRecOn with
  | nil => exact absurd h List.not_mem_nil
  | append_singleton calls call ih =>
    rw [codecAfter, List.foldl_concat, List.mem_append] at h
    rcases h with hbefore | hnow
    · obtain ⟨pre, earlier, post, rfl, hsealed⟩ := ih hbefore
      exact ⟨pre, earlier, post ++ [call], by simp, hsealed⟩
    · exact ⟨calls, call, [], rfl, hnow⟩

/-- The question was asked by an earlier call, whose state the call carries unexpired. -/
def AskedBefore (before : List (Call V)) (call : Call V) (q : Question) : Prop :=
  ∃ pre earlier post, before = pre ++ earlier :: post ∧
    q ∈ (openIdb serde (codecAfter serde pre) earlier).1.asked ∧
    call.requestState = some earlier.token ∧ call.now < earlier.now + requestStateTtlSecs

theorem askedBefore_of_answer {before : List (Call V)} {call : Call V} {q : Question}
    {response : ElicitResult V} (hmodern : ∀ c ∈ before, c.speaksMcp2026 = true) (hq : q.Named)
    (h : Answer serde (codecAfter serde before) call (startDialogue call).prompts q response) :
    AskedBefore serde before call q := by
  obtain ⟨token, htoken, hopens⟩ := h.opened
  obtain ⟨state, hfound, hpayload⟩ := Option.map_eq_some_iff.mp hopens
  have hmatches := List.find?_some hfound
  simp only [Bool.and_eq_true, decide_eq_true_eq] at hmatches
  obtain ⟨⟨hsame, hdata⟩, hunexpired⟩ := hmatches
  obtain ⟨pre, earlier, post, rfl, hsealed⟩ := mem_codecAfter serde (List.mem_of_find?_eq_some hfound)
  obtain ⟨asked, hasked, rfl⟩ := List.mem_map.mp hsealed
  have hearlier : earlier.speaksMcp2026 = true := hmodern earlier (by simp)
  have hnamed : asked.Named :=
    ((openIdb_conduct serde (codecAfter serde pre) earlier hearlier).asked_for asked hasked).named
  obtain rfl : asked = q := Question.eq_of_sealed hnamed hq hpayload hdata
  refine ⟨pre, earlier, post, rfl, hasked, ?_, hunexpired⟩
  rw [← show token = earlier.token from hsame.symm]
  exact htoken

structure AnswersBound (before : List (Call V)) (call : Call V) (path : String)
    (arch idbOut : Option String) (served : Dialogue V × Outcome) : Prop where
  used : ∀ q ∈ served.1.used, q.IsFor call path arch idbOut ∧ AskedBefore serde before call q
  one_stage : served.1.used.length ≤ 1
  carried : call.requestState.isSome ∨ call.inputResponses.isSome →
    served.1.used.length = 1 ∨ served.2.isError = true
  asks : served.1.asked ≠ [] → served.2 = .inputRequired
  once : Extracts call.files → served.1.used ≠ [] → served.1.asked = []
  opened : ∀ opensPath input autoAnalyse background,
    served.2 = .opens opensPath (some input) autoAnalyse background → opensPath = input.slicePath ∧
      Opened serde (codecAfter serde before) call path arch idbOut served.1.used input

theorem open_idb_answers_bound (before : List (Call V)) (call : Call V)
    (hmodern : ∀ c ∈ before ++ [call], c.speaksMcp2026 = true) :
    AnswersBound serde before call (String.ofList (trim call.req.path.toList))
      (nonEmptyTrimmed call.req.arch) (call.req.effectiveIdbOut call.worker)
      (openIdb serde (codecAfter serde before) call) := by
  have hconduct := openIdb_conduct serde (codecAfter serde before) call (hmodern call (by simp))
  refine ⟨?_, hconduct.used_le, ?_, hconduct.asks, hconduct.once, hconduct.opened⟩
  · intro q hq
    obtain ⟨hfor, response, hanswer⟩ := hconduct.used_answered q hq
    refine ⟨hfor, askedBefore_of_answer serde ?_ hfor.named hanswer⟩
    exact fun c hc => hmodern c (List.mem_append_left [call] hc)
  · intro hcarries
    apply hconduct.carried
    rw [OpenPrompts.carries, Bool.or_eq_true_iff]
    exact hcarries

def acceptedArch : Serde (Option String) where
  elicitResult arch := some ⟨.accept, some arch⟩
  arch := id
  choice _ := some none

def largeFile : Files where
  expandPath := id
  validOpenPath _ := true
  isDatabasePath _ := false
  file _ := none
  size _ := some (64 * 1024 * 1024)
  extract _ _ slice := .ok slice.arch
  rawBlobDatabaseExists _ _ := false

def firstCall : Call (Option String) where
  req := { path := "a", arch := none, idbOut := none, workerIdbOut := none, autoAnalyse := some true
           rebuild := none, rawTarget := false, argumentError := none }
  files := largeFile
  now := 0
  token := "t"
  worker := false
  speaksMcp2026 := true
  formElicitation := true
  requestState := none
  inputResponses := none
  schemaError := none
  inlineSlice := .error ""
  inlineBackground := .error ""

def retry : Call (Option String) :=
  { firstCall with
    now := 1
    token := "u"
    requestState := some "t"
    inputResponses := some [("background", none)] }

theorem open_idb_answers_bound_retry :
    AnswersBound acceptedArch [firstCall] retry "a" none none
        (openIdb acceptedArch (codecAfter acceptedArch [firstCall]) retry) ∧
      (openIdb acceptedArch (codecAfter acceptedArch [firstCall]) retry).1.used =
        [.background "a" (64 * 1024 * 1024)] ∧
      (openIdb acceptedArch (codecAfter acceptedArch [firstCall]) retry).2 =
        .opens "a" none false true :=
  ⟨open_idb_answers_bound acceptedArch [firstCall] retry (by decide), rfl, rfl⟩

end IdaMcp.OpenIdb
