import Mathlib.Data.List.Nodup
import IdaMcp.Foundation.History
import IdaMcp.Logging.Step

namespace IdaMcp.Logging

open Foundation

def limit : ℕ := maxEventBytes - truncatedMark.length

def clip (text : List UInt8) : List UInt8 :=
  if text.length ≤ limit then text else text.take limit ++ truncatedMark

def written (i : ℕ) (as : List Action) : List UInt8 :=
  as.flatMap fun
    | .write j bytes => if j = i then bytes else []
    | _ => []

def intoChannel (s : State) : Action → Option (ℕ × List UInt8)
  | .trySend i =>
    match s.lines[i]? with
    | some (.sending event) => if s.accepts then some (i, event) else none
    | _ => none
  | _ => none

def sent (as : List Action) : List (ℕ × List UInt8) := observed step intoChannel start as

def Action.ofGuard : Action → Bool
  | .look | .finishedRecv | .finishedTimeout | .lookAgain | .join => true
  | _ => false

theorem clip_length (text : List UInt8) : (clip text).length ≤ maxEventBytes := by
  unfold clip
  have hmark : truncatedMark.length = 13 := by decide
  split_ifs with h
  · exact Nat.le_trans h (Nat.sub_le _ _)
  · rw [List.length_append, List.length_take, hmark, limit, hmark, maxEventBytes]
    omega

def LogLine.Holds (line : LogLine) (text : List UInt8) : Prop :=
  line.bytes = text.take limit ∧ line.truncated = decide (limit < text.length)

theorem LogLine.Holds.write {line : LogLine} {text : List UInt8} (h : line.Holds text)
    (bytes : List UInt8) : (line.write bytes).Holds (text ++ bytes) := by
  obtain ⟨hbytes, htruncated⟩ := h
  have hlength : line.bytes.length = min limit text.length := by rw [hbytes, List.length_take]
  have hroom : maxEventBytes - truncatedMark.length - line.bytes.length = limit - text.length := by
    have hlimit : limit = maxEventBytes - truncatedMark.length := rfl
    omega
  constructor
  · have hkept : bytes.take (min bytes.length (limit - text.length)) = bytes.take (limit - text.length) := by
      rw [List.take_eq_take_iff]
      omega
    rw [LogLine.write]
    dsimp only
    rw [hroom, hkept, hbytes, List.take_append]
  · simp only [LogLine.write, hroom, htruncated, List.length_append]
    rw [Bool.eq_iff_iff]
    simp only [Bool.or_eq_true, decide_eq_true_eq]
    omega

theorem LogLine.Holds.event {line : LogLine} {text : List UInt8} (h : line.Holds text) :
    line.event = clip text := by
  obtain ⟨hbytes, htruncated⟩ := h
  unfold LogLine.event clip
  rw [htruncated, hbytes]
  by_cases hlong : limit < text.length
  · rw [if_pos (decide_eq_true hlong), if_neg (Nat.not_le.mpr hlong)]
  · have hshort : text.length ≤ limit := Nat.le_of_not_lt hlong
    rw [if_neg (by simpa using hlong), if_pos hshort, List.take_of_length_le hshort]

theorem LogLine.Holds.empty : LogLine.Holds ⟨[], false⟩ [] := ⟨rfl, rfl⟩

inductive LineStep (s : State) : Action → State → Prop
  | made {s' : State} (hlines : s'.lines = s.lines ++ [.opened ⟨[], false⟩]) (hqueue : s'.queue = s.queue) :
    LineStep s .makeWriter s'
  | wrote {s' : State} {i : ℕ} {line : LogLine} (bytes : List UInt8) (hi : s.lines[i]? = some (.opened line))
    (hlines : s'.lines = s.lines.set i (.opened (line.write bytes))) (hqueue : s'.queue = s.queue) :
    LineStep s (.write i bytes) s'
  | silenced {s' : State} {i : ℕ} {line : LogLine} (hi : s.lines[i]? = some (.opened line))
    (hwhy : line.bytes = [] ∨ s.closed = true)
    (hlines : s'.lines = s.lines.set i .dropped) (hqueue : s'.queue = s.queue) : LineStep s (.dropLine i) s'
  | readied {s' : State} {i : ℕ} {line : LogLine} (hi : s.lines[i]? = some (.opened line))
    (hne : line.bytes ≠ []) (hlines : s'.lines = s.lines.set i (.sending line.event))
    (hqueue : s'.queue = s.queue) : LineStep s (.dropLine i) s'
  | accepted {s' : State} {i : ℕ} {event : List UInt8} (hi : s.lines[i]? = some (.sending event))
    (haccepts : s.accepts = true) (hlines : s'.lines = s.lines.set i .dropped)
    (hqueue : s'.queue = s.queue ++ [event]) : LineStep s (.trySend i) s'
  | lost {s' : State} {i : ℕ} {event : List UInt8} (hi : s.lines[i]? = some (.sending event))
    (hrefuses : s.accepts = false) (hlines : s'.lines = s.lines.set i .dropped)
    (hqueue : s'.queue = s.queue) : LineStep s (.trySend i) s'
  | taken {s' : State} {event : List UInt8} (hlines : s'.lines = s.lines) (hqueue : s.queue = event :: s'.queue) :
    LineStep s .recv s'
  | other {a : Action} {s' : State} (hwrite : ∀ i, written i [a] = []) (haccepted : intoChannel s a = none)
    (hlines : s'.lines = s.lines) (hqueue : s'.queue = s.queue) : LineStep s a s'

variable {s s' : State} {a : Action} {as : List Action} {i : ℕ}

theorem lineStep_of_line {line : LineState} (hi : s.lines[i]? = some line)
    (ha : a = .dropLine i ∨ a = .trySend i ∨ ∃ bytes, a = .write i bytes)
    (h : stepLine s i a line = some s') : LineStep s a s' := by
  obtain rfl | rfl | ⟨bytes, rfl⟩ := ha
  · cases line with
    | opened line =>
      rw [stepLine] at h
      split_ifs at h with hempty
      · obtain rfl := Option.some.inj h
        exact .silenced hi hempty rfl rfl
      · obtain rfl := Option.some.inj h
        exact .readied hi (fun hnil => hempty (.inl hnil)) rfl rfl
    | sending | dropped => cases h
  · cases line with
    | sending event =>
      rw [stepLine, sendTo] at h
      obtain rfl := Option.some.inj h
      cases haccepts : s.accepts with
      | true => exact .accepted hi haccepts rfl rfl
      | false => exact .lost hi haccepts rfl rfl
    | opened | dropped => cases h
  · cases line with
    | opened line =>
      obtain rfl := Option.some.inj h
      exact .wrote bytes hi rfl rfl
    | sending | dropped => cases h

theorem stepWorker_cases {w : WorkerState} (h : stepWorker s a w = some s') :
    s'.lines = s.lines ∧ s'.writer = s.writer ∧ s'.closed = s.closed ∧ s'.handle = s.handle ∧
      s'.guard = s.guard ∧ (s'.queue = s.queue ∨ a = .recv ∧ ∃ event, s.queue = event :: s'.queue) := by
  unfold stepWorker at h
  split at h <;> grind

theorem stepGuard_frame {g : GuardState} (h : stepGuard s a g = some s') :
    s'.lines = s.lines ∧ s'.writer = s.writer ∧ s'.queue = s.queue ∧ s'.output = s.output ∧
      s'.worker = s.worker := by
  unfold stepGuard at h
  split at h <;> grind

theorem LineStep.of_frame (hwrite : ∀ i, written i [a] = []) (haccepted : intoChannel s a = none)
    (hlines : s'.lines = s.lines) (hqueue : s'.queue = s.queue ∨ a = .recv ∧ ∃ event, s.queue = event :: s'.queue) :
    LineStep s a s' := by
  rcases hqueue with hqueue | ⟨rfl, event, hqueue⟩
  · exact .other hwrite haccepted hlines hqueue
  · exact .taken hlines hqueue

theorem lineStep_of_step (h : step s a = some s') : LineStep s a s' := by
  cases a with
  | makeWriter =>
    rw [step, Option.ite_none_right_eq_some] at h
    obtain ⟨-, h⟩ := h
    obtain rfl := Option.some.inj h
    exact .made rfl rfl
  | dropWriter =>
    obtain rfl := Option.some.inj h
    exact .other (fun _ => rfl) rfl rfl rfl
  | write i bytes =>
    obtain ⟨line, hi, h⟩ := Option.bind_eq_some_iff.mp h
    exact lineStep_of_line hi (.inr (.inr ⟨bytes, rfl⟩)) h
  | dropLine i =>
    obtain ⟨line, hi, h⟩ := Option.bind_eq_some_iff.mp h
    exact lineStep_of_line hi (.inl rfl) h
  | trySend i =>
    obtain ⟨line, hi, h⟩ := Option.bind_eq_some_iff.mp h
    exact lineStep_of_line hi (.inr (.inl rfl)) h
  | recv | timeout | disconnected | loadClosed | put | flush | fail | exit =>
    obtain ⟨hlines, -, -, -, -, hqueue⟩ := stepWorker_cases h
    exact .of_frame (fun _ => rfl) rfl hlines hqueue
  | shutdown | look | finishedRecv | finishedTimeout | lookAgain | join =>
    obtain ⟨hlines, -, hqueue, -, -⟩ := stepGuard_frame h
    exact .of_frame (fun _ => rfl) rfl hlines (.inl hqueue)

theorem written_append (i : ℕ) (as bs : List Action) : written i (as ++ bs) = written i as ++ written i bs :=
  List.flatMap_append

structure Sound (s : State) (as : List Action) (events : List (ℕ × List UInt8)) : Prop where
  opened : ∀ i line, s.lines[i]? = some (.opened line) → line.Holds (written i as) ∧ i ∉ events.map Prod.fst
  sending : ∀ i event, s.lines[i]? = some (.sending event) →
    event = clip (written i as) ∧ event ≠ [] ∧ i ∉ events.map Prod.fst
  unmade : ∀ i, s.lines[i]? = none → written i as = [] ∧ i ∉ events.map Prod.fst
  accepted : ∀ p ∈ events, p.2 = clip (written p.1 as) ∧ p.2 ≠ []
  once : (events.map Prod.fst).Nodup
  bounded : s.queue.length ≤ queuedEvents

variable {events : List (ℕ × List UInt8)}

theorem sound_start : Sound start [] [] where
  opened i line hi := by simp [start] at hi
  sending i event hi := by simp [start] at hi
  unmade i _ := ⟨rfl, List.not_mem_nil⟩
  accepted p hp := by cases hp
  once := List.nodup_nil
  bounded := Nat.zero_le _

theorem written_other {j : ℕ} (h : ∀ i, written i [a] = []) : written j (as ++ [a]) = written j as := by
  rw [written_append, h, List.append_nil]

theorem Sound.setLine (h : Sound s as events) (hwrite : ∀ i, written i [a] = []) {line : LineState}
    (hlines : s'.lines = s.lines.set i line) (hqueue : s'.queue.length ≤ queuedEvents)
    (hi : ∃ old, s.lines[i]? = some old)
    (hopened : ∀ l, line = .opened l → l.Holds (written i as) ∧ i ∉ events.map Prod.fst)
    (hsending : ∀ e, line = .sending e → e = clip (written i as) ∧ e ≠ [] ∧ i ∉ events.map Prod.fst) :
    Sound s' (as ++ [a]) events := by
  have hget (j : ℕ) : s'.lines[j]? = if i = j then some line else s.lines[j]? := by
    obtain ⟨old, hold⟩ := hi
    rw [hlines, List.getElem?_set]
    split_ifs with hij hlt
    · rfl
    · exact absurd (List.getElem?_eq_some_iff.mp hold).1 hlt
    · rfl
  constructor
  · intro j l hl
    rw [written_other hwrite]
    rw [hget] at hl
    split_ifs at hl with hij
    · subst hij
      exact hopened l (Option.some.inj hl)
    · exact h.opened j l hl
  · intro j e he
    rw [written_other hwrite]
    rw [hget] at he
    split_ifs at he with hij
    · subst hij
      exact hsending e (Option.some.inj he)
    · exact h.sending j e he
  · intro j hj
    rw [written_other hwrite]
    rw [hget] at hj
    split_ifs at hj with hij
    exact h.unmade j hj
  · intro p hp
    rw [written_other hwrite]
    exact h.accepted p hp
  · exact h.once
  · exact hqueue

theorem Sound.extend {event : List UInt8} (h : Sound s as events) (hi : s.lines[i]? = some .dropped)
    (hfresh : i ∉ events.map Prod.fst) (hevent : event = clip (written i as)) (hne : event ≠ []) :
    Sound s as (events ++ [(i, event)]) := by
  have hnot {j : ℕ} (hj : j ∉ events.map Prod.fst) (hline : s.lines[j]? ≠ some .dropped) :
      j ∉ (events ++ [(i, event)]).map Prod.fst := by
    rw [List.map_append, List.mem_append, List.map_singleton, List.mem_singleton]
    rintro (hmem | rfl)
    · exact hj hmem
    · exact hline hi
  constructor
  · intro j line hj
    obtain ⟨hholds, hout⟩ := h.opened j line hj
    exact ⟨hholds, hnot hout (by rw [hj]; simp)⟩
  · intro j e hj
    obtain ⟨hclip, hfull, hout⟩ := h.sending j e hj
    exact ⟨hclip, hfull, hnot hout (by rw [hj]; simp)⟩
  · intro j hj
    obtain ⟨hwritten, hout⟩ := h.unmade j hj
    exact ⟨hwritten, hnot hout (by rw [hj]; simp)⟩
  · intro p hp
    rcases List.mem_append.mp hp with hp | hp
    · exact h.accepted p hp
    · obtain rfl := List.mem_singleton.mp hp
      exact ⟨hevent, hne⟩
  · rw [List.map_append, List.map_singleton]
    refine List.nodup_append.mpr ⟨h.once, List.nodup_singleton i, ?_⟩
    rintro j hj j' hj' rfl
    obtain rfl : j = i := List.mem_singleton.mp hj'
    exact hfresh hj
  · exact h.bounded

theorem Sound.wrote {line : LogLine} (h : Sound s as events) (bytes : List UInt8)
    (hi : s.lines[i]? = some (.opened line))
    (hlines : s'.lines = s.lines.set i (.opened (line.write bytes))) (hqueue : s'.queue = s.queue) :
    Sound s' (as ++ [.write i bytes]) events := by
  have hlt := (List.getElem?_eq_some_iff.mp hi).1
  have hself : written i (as ++ [.write i bytes]) = written i as ++ bytes := by
    rw [written_append]
    simp [written]
  have hother {j : ℕ} (hij : i ≠ j) : written j (as ++ [.write i bytes]) = written j as := by
    rw [written_append]
    simp [written, hij]
  have hget (j : ℕ) : s'.lines[j]? = if i = j then some (.opened (line.write bytes)) else s.lines[j]? := by
    rw [hlines, List.getElem?_set]
    split_ifs <;> rfl
  obtain ⟨hholds, hout⟩ := h.opened i line hi
  constructor
  · intro j l hl
    rw [hget] at hl
    split_ifs at hl with hij
    · subst hij
      obtain rfl := LineState.opened.inj (Option.some.inj hl)
      exact ⟨hself ▸ hholds.write bytes, hout⟩
    · rw [hother hij]
      exact h.opened j l hl
  · intro j e he
    rw [hget] at he
    split_ifs at he with hij
    · cases he
    · rw [hother hij]
      exact h.sending j e he
  · intro j hj
    rw [hget] at hj
    split_ifs at hj with hij
    rw [hother hij]
    exact h.unmade j hj
  · intro p hp
    have hne : i ≠ p.1 := by
      rintro rfl
      exact hout (List.mem_map_of_mem hp)
    rw [hother hne]
    exact h.accepted p hp
  · exact h.once
  · exact hqueue ▸ h.bounded

theorem Sound.frame (h : Sound s as events) (hwrite : ∀ i, written i [a] = [])
    (hlines : s'.lines = s.lines) (hqueue : s'.queue.length ≤ queuedEvents) :
    Sound s' (as ++ [a]) events where
  opened j line hj := by
    rw [written_other hwrite]
    exact h.opened j line (hlines ▸ hj)
  sending j e hj := by
    rw [written_other hwrite]
    exact h.sending j e (hlines ▸ hj)
  unmade j hj := by
    rw [written_other hwrite]
    exact h.unmade j (hlines ▸ hj)
  accepted p hp := by
    rw [written_other hwrite]
    exact h.accepted p hp
  once := h.once
  bounded := hqueue

theorem Sound.made (h : Sound s as events) (hlines : s'.lines = s.lines ++ [.opened ⟨[], false⟩])
    (hqueue : s'.queue = s.queue) : Sound s' (as ++ [.makeWriter]) events := by
  have hwrite (i : ℕ) : written i [.makeWriter] = [] := rfl
  have hget (j : ℕ) : s'.lines[j]? = if j = s.lines.length then some (.opened ⟨[], false⟩) else s.lines[j]? := by
    rw [hlines, List.getElem?_append]
    split_ifs with hlt heq heq
    · omega
    · rfl
    · rw [heq, Nat.sub_self]
      rfl
    · rw [List.getElem?_eq_none (by simp; omega), List.getElem?_eq_none (by omega)]
  constructor
  · intro j line hj
    rw [written_other hwrite]
    rw [hget] at hj
    split_ifs at hj with heq
    · obtain ⟨hwritten, hout⟩ := h.unmade j (List.getElem?_eq_none (by omega))
      obtain rfl := LineState.opened.inj (Option.some.inj hj)
      exact ⟨hwritten ▸ LogLine.Holds.empty, hout⟩
    · exact h.opened j line hj
  · intro j e hj
    rw [written_other hwrite]
    rw [hget] at hj
    split_ifs at hj with heq
    · cases hj
    · exact h.sending j e hj
  · intro j hj
    rw [written_other hwrite]
    rw [hget] at hj
    split_ifs at hj with heq
    exact h.unmade j hj
  · intro p hp
    rw [written_other hwrite]
    exact h.accepted p hp
  · exact h.once
  · exact hqueue ▸ h.bounded

theorem Sound.step (h : Sound s as events) (hstep : LineStep s a s') :
    Sound s' (as ++ [a]) (events ++ (intoChannel s a).toList) := by
  cases hstep with
  | made hlines hqueue =>
    rw [show intoChannel s .makeWriter = none from rfl, Option.toList_none, List.append_nil]
    exact h.made hlines hqueue
  | wrote bytes hi hlines hqueue =>
    rw [show intoChannel s (.write _ bytes) = none from rfl, Option.toList_none, List.append_nil]
    exact h.wrote bytes hi hlines hqueue
  | @silenced _ i line hi hwhy hlines hqueue =>
    rw [show intoChannel s (.dropLine i) = none from rfl, Option.toList_none, List.append_nil]
    exact h.setLine (fun _ => rfl) hlines (hqueue ▸ h.bounded) ⟨_, hi⟩ (fun _ h => by cases h)
      (fun _ h => by cases h)
  | @readied _ i line hi hne hlines hqueue =>
    rw [show intoChannel s (.dropLine i) = none from rfl, Option.toList_none, List.append_nil]
    obtain ⟨hholds, hout⟩ := h.opened i line hi
    refine h.setLine (fun _ => rfl) hlines (hqueue ▸ h.bounded) ⟨_, hi⟩ (fun _ h => by cases h) ?_
    rintro e he
    obtain rfl := LineState.sending.inj he
    refine ⟨hholds.event, ?_, hout⟩
    unfold LogLine.event
    split_ifs
    · exact fun hnil => hne (List.append_eq_nil_iff.mp hnil).1
    · exact hne
  | @accepted _ i event hi haccepts hlines hqueue =>
    have haccepted : intoChannel s (.trySend i) = some (i, event) := by
      simp [intoChannel, hi, haccepts]
    obtain ⟨hclip, hne, hout⟩ := h.sending i event hi
    have hroom : s.queue.length < queuedEvents := by
      rw [State.accepts, Bool.and_eq_true] at haccepts
      exact of_decide_eq_true haccepts.1
    have hset : Sound s' (as ++ [.trySend i]) events :=
      h.setLine (fun _ => rfl) hlines (by rw [hqueue, List.length_append]; exact hroom) ⟨_, hi⟩
        (fun _ h => by cases h) (fun _ h => by cases h)
    rw [haccepted, Option.toList_some]
    refine hset.extend ?_ hout ?_ hne
    · rw [hlines, List.getElem?_set_self (List.getElem?_eq_some_iff.mp hi).1]
    · rw [written_other fun _ => rfl]
      exact hclip
  | @lost _ i event hi hrefuses hlines hqueue =>
    have haccepted : intoChannel s (.trySend i) = none := by
      simp [intoChannel, hi, hrefuses]
    rw [haccepted, Option.toList_none, List.append_nil]
    exact h.setLine (fun _ => rfl) hlines (hqueue ▸ h.bounded) ⟨_, hi⟩ (fun _ h => by cases h)
      (fun _ h => by cases h)
  | taken hlines hqueue =>
    rw [show intoChannel s .recv = none from rfl, Option.toList_none, List.append_nil]
    refine h.frame (fun _ => rfl) hlines ?_
    have hbounded := h.bounded
    rw [hqueue, List.length_cons] at hbounded
    omega
  | other hwrite haccepted hlines hqueue =>
    rw [haccepted, Option.toList_none, List.append_nil]
    exact h.frame hwrite hlines (hqueue ▸ h.bounded)

def WorkerState.rest : WorkerState → Option (List UInt8)
  | .receiving | .timedOut | .flushing | .leaving .ok | .exited .ok => some []
  | .writing rest => some rest
  | .leaving _ | .exited _ => none

/-- The output, the bytes in hand and the channel are the events in order. -/
structure Flow (s : State) (events : List (List UInt8)) : Prop where
  intact : ∀ rest, s.worker.rest = some rest → events.flatten = s.output ++ rest ++ s.queue.flatten
  begun : s.output <+: events.flatten

variable {texts : List (List UInt8)}

theorem rest_writeAll (bytes : List UInt8) : (writeAll bytes).rest = some bytes := by
  cases bytes <;> rfl

theorem Flow.worker {w : WorkerState} (h : Flow s texts) (hw : s.worker = w)
    (hstep : stepWorker s a w = some s') : Flow s' texts := by
  have hbegun := h.begun
  unfold stepWorker at hstep
  split at hstep
  · split at hstep
    · rename_i event rest hqueue
      obtain rfl := Option.some.inj hstep
      refine ⟨fun r hr => ?_, hbegun⟩
      obtain rfl := Option.some.inj ((rest_writeAll event).symm.trans hr)
      have hall := h.intact [] (by rw [hw]; rfl)
      rw [hqueue, List.append_nil, List.flatten_cons, ← List.append_assoc] at hall
      exact hall
    · cases hstep
  · split_ifs at hstep
    obtain rfl := Option.some.inj hstep
    exact ⟨fun r hr => h.intact r (hw ▸ hr), hbegun⟩
  · split_ifs at hstep
    obtain rfl := Option.some.inj hstep
    exact ⟨fun r hr => h.intact r (hw ▸ hr), hbegun⟩
  · obtain rfl := Option.some.inj hstep
    refine ⟨fun r hr => h.intact r ?_, hbegun⟩
    rw [← hr, hw]
    dsimp only
    split_ifs <;> rfl
  · rename_i n rest
    split_ifs at hstep with hn
    obtain rfl := Option.some.inj hstep
    have hall := h.intact rest (by rw [hw]; rfl)
    have hsplit : texts.flatten = s.output ++ rest.take n ++ rest.drop n ++ s.queue.flatten := by
      rw [List.append_assoc s.output, List.take_append_drop]
      exact hall
    refine ⟨fun r hr => ?_, ?_⟩
    · obtain rfl := Option.some.inj ((rest_writeAll _).symm.trans hr)
      exact hsplit
    · rw [hsplit, List.append_assoc (s.output ++ rest.take n)]
      exact List.prefix_append _ _
  · obtain rfl := Option.some.inj hstep
    exact ⟨fun r hr => h.intact r (hw ▸ hr), hbegun⟩
  · rename_i outcome rest
    split_ifs at hstep with hok
    obtain rfl := Option.some.inj hstep
    refine ⟨fun r hr => ?_, hbegun⟩
    cases outcome <;> first | exact absurd rfl hok | cases hr
  · rename_i outcome
    split_ifs at hstep with hok
    obtain rfl := Option.some.inj hstep
    refine ⟨fun r hr => ?_, hbegun⟩
    cases outcome <;> first | exact absurd rfl hok | cases hr
  · rename_i outcome
    obtain rfl := Option.some.inj hstep
    refine ⟨fun r hr => h.intact r ?_, hbegun⟩
    rw [← hr, hw]
    cases outcome <;> rfl
  · cases hstep

theorem Flow.frame (h : Flow s texts) (houtput : s'.output = s.output) (hworker : s'.worker = s.worker)
    {more : List (List UInt8)} (hqueue : s'.queue = s.queue ++ more) : Flow s' (texts ++ more) where
  intact rest hrest := by
    rw [hworker] at hrest
    rw [List.flatten_append, h.intact rest hrest, houtput, hqueue, List.flatten_append, List.append_assoc]
  begun := by
    rw [houtput, List.flatten_append]
    exact h.begun.trans (List.prefix_append _ _)


structure Aside (s s' : State) : Prop where
  output : s'.output = s.output
  worker : s'.worker = s.worker
  handle : s'.handle = s.handle
  guard : s'.guard = s.guard
  finished : s'.finished = s.finished

inductive Party (s : State) (a : Action) (s' : State) : Prop
  | aside (hframe : Aside s s') (ha : a ≠ .recv) (hguard : a.ofGuard = false)
  | worker (hstep : stepWorker s a s.worker = some s') (haccepted : intoChannel s a = none)
    (hguard : a.ofGuard = false)
  | guard (hstep : stepGuard s a s.guard = some s') (ha : a ≠ .recv)

theorem stepLine_frame {line : LineState} (h : stepLine s i a line = some s') : Aside s s' := by
  unfold stepLine sendTo at h
  constructor <;> split at h <;> grind [State.setLine]

theorem party_of_step (h : step s a = some s') : Party s a s' := by
  cases a with
  | makeWriter =>
    rw [step, Option.ite_none_right_eq_some] at h
    obtain ⟨-, h⟩ := h
    obtain rfl := Option.some.inj h
    exact .aside ⟨rfl, rfl, rfl, rfl, rfl⟩ (by simp) rfl
  | dropWriter =>
    obtain rfl := Option.some.inj h
    exact .aside ⟨rfl, rfl, rfl, rfl, rfl⟩ (by simp) rfl
  | write | dropLine | trySend =>
    obtain ⟨line, -, hline⟩ := Option.bind_eq_some_iff.mp h
    exact .aside (stepLine_frame hline) (by simp) rfl
  | recv | timeout | disconnected | loadClosed | put | flush | fail | exit => exact .worker h rfl rfl
  | shutdown | look | finishedRecv | finishedTimeout | lookAgain | join => exact .guard h (by simp)

theorem LineStep.queue_eq (h : LineStep s a s') (ha : a ≠ .recv) :
    s'.queue = s.queue ++ (intoChannel s a).toList.map Prod.snd := by
  cases h with
  | made _ hqueue | wrote _ _ _ hqueue | silenced _ _ _ hqueue | readied _ _ _ hqueue =>
    rw [hqueue]
    simp [intoChannel]
  | accepted hi haccepts hlines hqueue =>
    rw [hqueue]
    simp [intoChannel, hi, haccepts]
  | lost hi hrefuses hlines hqueue =>
    rw [hqueue]
    simp [intoChannel, hi, hrefuses]
  | taken => exact absurd rfl ha
  | other hwrite haccepted hlines hqueue =>
    rw [hqueue, haccepted]
    simp

theorem Flow.step (h : Flow s (events.map Prod.snd)) (hstep : step s a = some s') :
    Flow s' ((events ++ (intoChannel s a).toList).map Prod.snd) := by
  cases party_of_step hstep with
  | aside hframe ha =>
    rw [List.map_append]
    exact h.frame hframe.output hframe.worker ((lineStep_of_step hstep).queue_eq ha)
  | worker hworker haccepted =>
    rw [haccepted, Option.toList_none, List.append_nil]
    exact h.worker rfl hworker
  | guard hguard ha =>
    obtain ⟨-, -, -, houtput, hworker⟩ := stepGuard_frame hguard
    rw [List.map_append]
    exact h.frame houtput hworker ((lineStep_of_step hstep).queue_eq ha)

/-- A line that a run drops with text and does not send: the end of the log had begun, or the channel was full. -/
def Excused (i : ℕ) (as : List Action) : Prop :=
  ∃ before a after t, as = before ++ a :: after ∧ run step start before = some t ∧
    (a = .dropLine i ∧ t.closed = true ∨ a = .trySend i ∧ t.accepts = false)

theorem Excused.more (h : Excused i as) (bs : List Action) : Excused i (as ++ bs) := by
  obtain ⟨before, b, after, t, rfl, hrun, hwhy⟩ := h
  exact ⟨before, b, after ++ bs, t, by simp, hrun, hwhy⟩

def Told (s : State) (as : List Action) (events : List (ℕ × List UInt8)) : Prop :=
  ∀ i, s.lines[i]? = some .dropped → written i as = [] ∨ i ∈ events.map Prod.fst ∨ Excused i as

theorem limit_pos : 0 < limit := by decide

theorem LogLine.Holds.of_empty {line : LogLine} {text : List UInt8} (h : line.Holds text)
    (hempty : line.bytes = []) : text = [] := by
  rw [h.1, List.take_eq_nil_iff] at hempty
  exact hempty.resolve_left (Nat.pos_iff_ne_zero.mp limit_pos)

theorem Told.step (h : Told s as events) (hsound : Sound s as events) (hrun : run step start as = some s)
    (hstep : LineStep s a s') : Told s' (as ++ [a]) (events ++ (intoChannel s a).toList) := by
  have hold {j : ℕ} (hj : s.lines[j]? = some .dropped) (hwrite : written j [a] = []) :
      written j (as ++ [a]) = [] ∨ j ∈ (events ++ (intoChannel s a).toList).map Prod.fst ∨
        Excused j (as ++ [a]) := by
    rw [written_append, hwrite, List.append_nil, List.map_append, List.mem_append]
    obtain hj | hj | hj := h j hj
    · exact .inl hj
    · exact .inr (.inl (.inl hj))
    · exact .inr (.inr (hj.more _))
  intro j hj
  cases hstep with
  | made hlines hqueue =>
    rw [hlines, List.getElem?_append] at hj
    split_ifs at hj with hlt
    · exact hold hj rfl
    · rw [List.getElem?_singleton] at hj
      split_ifs at hj
      cases hj
  | @wrote _ i line bytes hi hlines hqueue =>
    rw [hlines, List.getElem?_set] at hj
    split_ifs at hj with hij
    · cases hj
    · exact hold hj (by simp [written, hij])
  | @silenced _ i line hi hwhy hlines hqueue =>
    by_cases hij : i = j
    · subst hij
      obtain hempty | hclosed := hwhy
      · apply Or.inl
        rw [written_other fun _ => rfl]
        exact (hsound.opened i line hi).1.of_empty hempty
      · exact .inr (.inr ⟨as, .dropLine i, [], s, rfl, hrun, .inl ⟨rfl, hclosed⟩⟩)
    · rw [hlines, List.getElem?_set_ne hij] at hj
      exact hold hj rfl
  | @readied _ i line hi hne hlines hqueue =>
    rw [hlines, List.getElem?_set] at hj
    split_ifs at hj
    · cases hj
    · exact hold hj rfl
  | @accepted _ i event hi haccepts hlines hqueue =>
    by_cases hij : i = j
    · subst hij
      apply Or.inr
      apply Or.inl
      simp [intoChannel, hi, haccepts]
    · rw [hlines, List.getElem?_set_ne hij] at hj
      exact hold hj rfl
  | @lost _ i event hi hrefuses hlines hqueue =>
    by_cases hij : i = j
    · subst hij
      exact .inr (.inr ⟨as, .trySend i, [], s, rfl, hrun, .inr ⟨rfl, hrefuses⟩⟩)
    · rw [hlines, List.getElem?_set_ne hij] at hj
      exact hold hj rfl
  | taken hlines hqueue => exact hold (hlines ▸ hj) rfl
  | other hwrite haccepted hlines hqueue => exact hold (hlines ▸ hj) (hwrite j)

theorem sent_snoc (hrun : run step start as = some s) (hstep : step s a = some s') :
    sent (as ++ [a]) = sent as ++ (intoChannel s a).toList :=
  observed_snoc hrun hstep

theorem sound_run (h : run step start as = some s) : Sound s as (sent as) ∧ Told s as (sent as) := by
  apply run_induction (P := fun as s => Sound s as (sent as) ∧ Told s as (sent as)) _ _ h
  · refine ⟨sound_start, fun i hi => ?_⟩
    simp [start] at hi
  · intro as a t u hrun ⟨hsound, htold⟩ hstep
    rw [sent_snoc hrun hstep]
    have hline := lineStep_of_step hstep
    exact ⟨hsound.step hline, htold.step hsound hrun hline⟩

theorem flow_run (h : run step start as = some s) : Flow s ((sent as).map Prod.snd) := by
  apply run_induction (P := fun as s => Flow s ((sent as).map Prod.snd)) _ _ h
  · exact ⟨fun rest hrest => by cases hrest; rfl, List.prefix_rfl⟩
  · intro as a t u hrun hflow hstep
    rw [sent_snoc hrun hstep]
    exact hflow.step hstep

structure Faithful (s : State) (as : List Action) (events : List (ℕ × List UInt8)) : Prop where
  begun : s.output <+: (events.map Prod.snd).flatten
  intact : ∀ rest, s.worker.rest = some rest →
    (events.map Prod.snd).flatten = s.output ++ rest ++ s.queue.flatten
  texts : ∀ p ∈ events, p.2 = clip (written p.1 as) ∧ p.2 ≠ [] ∧ p.2.length ≤ maxEventBytes
  once : (events.map Prod.fst).Nodup
  told : ∀ i, s.lines[i]? = some .dropped →
    written i as = [] ∨ i ∈ events.map Prod.fst ∨ Excused i as
  bounded : s.queue.length ≤ queuedEvents

theorem log_faithful (h : run step start as = some s) : Faithful s as (sent as) := by
  obtain ⟨hsound, htold⟩ := sound_run h
  have hflow := flow_run h
  refine ⟨hflow.begun, hflow.intact, fun p hp => ?_, hsound.once, htold, hsound.bounded⟩
  obtain ⟨hclip, hne⟩ := hsound.accepted p hp
  exact ⟨hclip, hne, hclip ▸ clip_length _⟩

def exchange : List Action :=
  [.makeWriter, .makeWriter, .write 1 [104], .write 0 [33], .write 1 [105], .dropLine 1, .trySend 1, .recv,
    .put 1, .dropLine 0, .trySend 0, .put 1]

theorem log_faithful_exchange :
    ∃ s, run step start exchange = some s ∧ s.output = [104, 105] ∧ Faithful s exchange (sent exchange) := by
  have hrun : (run step start exchange).map State.output = some [104, 105] := by decide
  obtain ⟨s, hs, houtput⟩ := Option.map_eq_some_iff.mp hrun
  exact ⟨s, hs, houtput, log_faithful hs⟩

end IdaMcp.Logging
