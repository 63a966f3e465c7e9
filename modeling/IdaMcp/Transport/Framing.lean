import IdaMcp.Transport.RequestHeader

namespace IdaMcp.Transport

open Foundation Json

inductive Arrival
  | chunk (first : UInt8) (rest : Bytes)
  | cancelled

inductive LineRead
  | complete
  | oversized (id : Option RequestId)
  | eof

inductive ReadStep
  | more
  | complete
  | oversized (ended : Bool)
  | endDiscard

structure PublicTransport where
  /-- What the buffered reader holds. -/
  read : Bytes
  line : Bytes
  maxLineLength : ℕ
  discarding : Bool

def newline : UInt8 := 0x0a

namespace PublicTransport

def new (maxLineLength : ℕ) : PublicTransport :=
  { read := [], line := [], maxLineLength, discarding := false }

/-- What one turn of `read_line` makes of the bytes available: the line, how many bytes are
consumed, and the step. -/
def readStep (t : PublicTransport) (available : Bytes) : Bytes × ℕ × ReadStep :=
  let found := available.idxOf? newline
  let take := (found.map (· + 1)).getD available.length
  if t.discarding then
    (t.line, take, if found.isSome then .endDiscard else .more)
  else if t.maxLineLength < t.line.length + take then
    let append := min (t.maxLineLength - t.line.length) take
    (t.line ++ available.take append, take, .oversized found.isSome)
  else
    (t.line ++ available.take take, take, if found.isSome then .complete else .more)

end PublicTransport

inductive Filled
  | available (first : UInt8) (rest : Bytes) (arrivals : List Arrival)
  | cancelled (arrivals : List Arrival)
  | eof

def fillBuf : Bytes → List Arrival → Filled
  | b :: bs, arrivals => .available b bs arrivals
  | [], .chunk b bs :: arrivals => .available b bs arrivals
  | [], .cancelled :: arrivals => .cancelled arrivals
  | [], [] => .eof

def toArrive : List Arrival → ℕ
  | [] => 0
  | .chunk _ rest :: arrivals => rest.length + 2 + toArrive arrivals
  | .cancelled :: arrivals => 1 + toArrive arrivals

theorem toArrive_fillBuf {read : Bytes} {arrivals arrivals' : List Arrival} {b : UInt8} {bs : Bytes}
    (h : fillBuf read arrivals = .available b bs arrivals') :
    bs.length + toArrive arrivals' < read.length + toArrive arrivals := by
  unfold fillBuf at h
  split at h
  · cases h
    rw [List.length_cons]
    omega
  · cases h
    rw [toArrive, List.length_nil]
    omega
  · cases h
  · cases h

theorem readStep_pos (t : PublicTransport) (b : UInt8) (bs : Bytes) :
    0 < (t.readStep (b :: bs)).2.1 := by
  have htake : 0 < (((b :: bs).idxOf? newline).map (· + 1)).getD (b :: bs).length := by
    cases (b :: bs).idxOf? newline with
    | none => exact Nat.succ_pos _
    | some i => exact Nat.succ_pos i
  unfold PublicTransport.readStep
  dsimp only
  split_ifs <;> exact htake

/-- `read_line`; nothing, when it is cancelled while it waits. -/
def readLine (serde : Serde) (t : PublicTransport) (arrivals : List Arrival) :
    Option LineRead × PublicTransport × List Arrival :=
  match _h : fillBuf t.read arrivals with
  | .eof => (some .eof, t, [])
  | .cancelled arrivals => (none, t, arrivals)
  | .available b bs arrivals =>
    let turn := t.readStep (b :: bs)
    let t' := { t with line := turn.1, read := (b :: bs).drop turn.2.1 }
    match turn.2.2 with
    | .more => readLine serde t' arrivals
    | .complete => (some .complete, t', arrivals)
    | .endDiscard => readLine serde { t' with discarding := false } arrivals
    | .oversized ended =>
      (some (.oversized (requestIdFromPrefix serde t'.line)),
        { t' with discarding := !ended, line := [] }, arrivals)
termination_by t.read.length + toArrive arrivals
decreasing_by
  all_goals
    have hpos := readStep_pos t b bs
    have hless := toArrive_fillBuf _h
    simp only [List.length_cons, List.length_drop]
    omega

theorem toArrive_cancelled {read : Bytes} {arrivals arrivals' : List Arrival}
    (h : fillBuf read arrivals = .cancelled arrivals') :
    read.length + toArrive arrivals' < read.length + toArrive arrivals := by
  unfold fillBuf at h
  split at h
  · cases h
  · cases h
  · cases h
    rw [toArrive]
    omega
  · cases h

theorem toArrive_turn {t : PublicTransport} {read : Bytes} {arrivals arrivals' : List Arrival} {b : UInt8}
    {bs : Bytes} (h : fillBuf read arrivals = .available b bs arrivals') :
    ((b :: bs).drop (t.readStep (b :: bs)).2.1).length + toArrive arrivals' <
      read.length + toArrive arrivals := by
  have hpos := readStep_pos t b bs
  have hless := toArrive_fillBuf h
  rw [List.length_drop, List.length_cons]
  omega

theorem toArrive_readLine {serde : Serde} {t t' : PublicTransport} {arrivals arrivals' : List Arrival}
    {result : Option LineRead} (h : readLine serde t arrivals = (result, t', arrivals'))
    (hresult : result ≠ some .eof) :
    t'.read.length + toArrive arrivals' < t.read.length + toArrive arrivals := by
  fun_induction readLine serde t arrivals with
  | case1 =>
    cases h
    exact (hresult rfl).elim
  | case2 t arrivals arrivals₁ hfill =>
    cases h
    exact toArrive_cancelled hfill
  | case3 t arrivals b bs arrivals₁ hfill turn t₁ hstep ih | case5 t arrivals b bs arrivals₁ hfill turn t₁ hstep ih =>
    have hlt := ih h
    have hturn := toArrive_turn (t := t) hfill
    exact Nat.lt_trans hlt hturn
  | case4 t arrivals b bs arrivals₁ hfill | case6 t arrivals b bs arrivals₁ hfill =>
    have hend := Prod.mk.inj (Prod.mk.inj h).2
    rw [← hend.1, ← hend.2]
    exact toArrive_turn hfill

inductive Frame
  | complete (line : Bytes)
  | oversized (id : Option RequestId)
  | eof

def receiveAll (serde : Serde) (t : PublicTransport) (arrivals : List Arrival) : List Frame :=
  match _h : readLine serde t arrivals with
  | (none, t', arrivals') => receiveAll serde t' arrivals'
  | (some .eof, _, _) => [.eof]
  | (some .complete, t', arrivals') =>
    .complete t'.line :: receiveAll serde { t' with line := [] } arrivals'
  | (some (.oversized id), t', arrivals') => .oversized id :: receiveAll serde t' arrivals'
termination_by t.read.length + toArrive arrivals
decreasing_by
  all_goals
    apply toArrive_readLine _h
    simp

def splitLines : Bytes → List Bytes × Bytes
  | [] => ([], [])
  | b :: bs =>
    let (lines, last) := splitLines bs
    if b = newline then ([b] :: lines, last)
    else
      match lines with
      | [] => ([], b :: last)
      | line :: lines => ((b :: line) :: lines, last)

def frameOf (serde : Serde) (maxLineLength : ℕ) (line : Bytes) : Frame :=
  if line.length ≤ maxLineLength then .complete line
  else .oversized (requestIdFromPrefix serde (line.take maxLineLength))

/-- One frame for each line, and one for the end; before it one for an unterminated line that is
too long already. -/
def frames (serde : Serde) (maxLineLength : ℕ) (stream : Bytes) : List Frame :=
  let (lines, last) := splitLines stream
  lines.map (frameOf serde maxLineLength) ++
    if maxLineLength < last.length then [frameOf serde maxLineLength last, .eof] else [.eof]

def stream : List Arrival → Bytes
  | [] => []
  | .chunk b bs :: arrivals => b :: bs ++ stream arrivals
  | .cancelled :: arrivals => stream arrivals

theorem idxOf?_newline {a rest : Bytes} (ha : newline ∉ a) :
    (a ++ newline :: rest).idxOf? newline = some a.length := by
  induction a with
  | nil => simp [List.idxOf?_cons]
  | cons b a ih =>
    obtain ⟨hb, ha⟩ := List.ne_and_not_mem_of_not_mem_cons ha
    rw [List.cons_append, List.idxOf?_cons, ih ha]
    simp [hb.symm]

theorem splitLines_of_not_mem {a : Bytes} (ha : newline ∉ a) : splitLines a = ([], a) := by
  induction a with
  | nil => rfl
  | cons b a ih =>
    obtain ⟨hb, ha⟩ := List.ne_and_not_mem_of_not_mem_cons ha
    simp [splitLines, ih ha, hb.symm]

theorem splitLines_newline {a rest : Bytes} (ha : newline ∉ a) :
    splitLines (a ++ newline :: rest) =
      ((a ++ [newline]) :: (splitLines rest).1, (splitLines rest).2) := by
  induction a with
  | nil => simp [splitLines]
  | cons b a ih =>
    obtain ⟨hb, ha⟩ := List.ne_and_not_mem_of_not_mem_cons ha
    simp [splitLines, ih ha, hb.symm]

variable {serde : Serde} {t : PublicTransport} {maxLineLength : ℕ}

theorem frames_newline {a rest : Bytes} (ha : newline ∉ a) :
    frames serde maxLineLength (a ++ newline :: rest) =
      frameOf serde maxLineLength (a ++ [newline]) :: frames serde maxLineLength rest := by
  simp [frames, splitLines_newline ha]

theorem frames_of_not_mem {a : Bytes} (ha : newline ∉ a) : frames serde maxLineLength a =
    if maxLineLength < a.length then [frameOf serde maxLineLength a, .eof] else [.eof] := by
  simp [frames, splitLines_of_not_mem ha]

def afterLine : Bytes → Bytes
  | [] => []
  | b :: bs => if b = newline then bs else afterLine bs

theorem afterLine_of_not_mem {a : Bytes} (ha : newline ∉ a) (rest : Bytes) :
    afterLine (a ++ rest) = afterLine rest := by
  induction a with
  | nil => rfl
  | cons b a ih =>
    obtain ⟨hb, ha⟩ := List.ne_and_not_mem_of_not_mem_cons ha
    simp [afterLine, ih ha, hb.symm]

theorem afterLine_newline {a rest : Bytes} (ha : newline ∉ a) :
    afterLine (a ++ newline :: rest) = rest := by
  rw [afterLine_of_not_mem ha]
  simp [afterLine]

theorem newline_cases (bytes : Bytes) : newline ∉ bytes ∨
    ∃ a rest, bytes = a ++ newline :: rest ∧ newline ∉ a := by
  by_cases h : newline ∈ bytes
  · obtain ⟨a, rest, hsplit, ha⟩ := List.eq_append_cons_of_mem h
    exact .inr ⟨a, rest, hsplit, ha⟩
  · exact .inl h

theorem frames_oversized {a rest : Bytes} (ha : newline ∉ a) (hlong : maxLineLength < a.length) :
    frames serde maxLineLength (a ++ rest) =
      .oversized (requestIdFromPrefix serde (a.take maxLineLength)) ::
        frames serde maxLineLength (afterLine rest) := by
  have long {b : Bytes} (hb : newline ∉ b) (c : Bytes) :
      frameOf serde maxLineLength (a ++ b ++ c) =
        .oversized (requestIdFromPrefix serde (a.take maxLineLength)) := by
    rw [frameOf, if_neg (by simp only [List.length_append]; omega), List.append_assoc,
      List.take_append_of_le_length (Nat.le_of_lt hlong)]
  have apart {b : Bytes} (hb : newline ∉ b) : newline ∉ a ++ b :=
    fun h => (List.mem_append.mp h).elim ha hb
  rcases newline_cases rest with hrest | ⟨b, rest', rfl, hb⟩
  · have hframe := long hrest []
    rw [List.append_nil] at hframe
    have hafter := afterLine_of_not_mem hrest []
    rw [List.append_nil] at hafter
    rw [frames_of_not_mem (apart hrest), if_pos (by rw [List.length_append]; omega), hframe, hafter]
    simp [afterLine, frames, splitLines]
  · rw [afterLine_newline hb, ← List.append_assoc, frames_newline (apart hb), long hb]

namespace PublicTransport

structure Framed (t : PublicTransport) : Prop where
  bounded : t.line.length ≤ t.maxLineLength
  unended : newline ∉ t.line
  discarded : t.discarding = true → t.line = []

def owed (serde : Serde) (t : PublicTransport) (rest : Bytes) : List Frame :=
  if t.discarding then frames serde t.maxLineLength (afterLine rest)
  else frames serde t.maxLineLength (t.line ++ rest)

theorem readStep_of_not_mem {a : Bytes} (ha : newline ∉ a) (hline : t.line.length ≤ t.maxLineLength) :
    t.readStep a =
      if t.discarding then (t.line, a.length, .more)
      else if t.maxLineLength < t.line.length + a.length then
        ((t.line ++ a).take t.maxLineLength, a.length, .oversized false)
      else (t.line ++ a, a.length, .more) := by
  have hfound : a.idxOf? newline = none := List.idxOf?_eq_none_iff.mpr ha
  simp only [readStep, hfound, Option.map_none, Option.getD_none, Option.isSome_none,
    Bool.false_eq_true, ↓reduceIte]
  split_ifs with hdiscarding hlong
  · rfl
  · rw [Nat.min_eq_left (by omega), List.take_append, List.take_of_length_le hline]
  · rw [List.take_length]

theorem readStep_newline {a : Bytes} (ha : newline ∉ a)
    (hline : t.line.length ≤ t.maxLineLength) (rest : Bytes) :
    t.readStep (a ++ newline :: rest) =
      if t.discarding then (t.line, a.length + 1, .endDiscard)
      else if t.maxLineLength < t.line.length + (a.length + 1) then
        ((t.line ++ (a ++ [newline])).take t.maxLineLength, a.length + 1, .oversized true)
      else (t.line ++ (a ++ [newline]), a.length + 1, .complete) := by
  have htake : (a ++ newline :: rest).take (a.length + 1) = a ++ [newline] := by
    rw [List.append_cons, List.take_left' (by simp)]
  simp only [readStep, idxOf?_newline ha, Option.map_some, Option.getD_some, Option.isSome_some,
    ↓reduceIte]
  split_ifs with hdiscarding hlong
  · rfl
  · have hmin : min (t.maxLineLength - t.line.length) (a.length + 1) =
        t.maxLineLength - t.line.length := Nat.min_eq_left (by omega)
    have hcut : (a ++ newline :: rest).take (t.maxLineLength - t.line.length) =
        (a ++ [newline]).take (t.maxLineLength - t.line.length) := by
      rw [← htake, List.take_take, hmin]
    rw [hmin, hcut, @List.take_append _ t.line, List.take_of_length_le hline]
  · rw [htake]

def turned (t : PublicTransport) (available : Bytes) : PublicTransport :=
  { t with line := (t.readStep available).1, read := available.drop (t.readStep available).2.1 }

theorem turn_spec (serde : Serde) (h : t.Framed) (available rest : Bytes) :
    match (t.readStep available).2.2 with
    | .more => (t.turned available).Framed ∧
      t.owed serde (available ++ rest) =
        (t.turned available).owed serde ((t.turned available).read ++ rest)
    | .complete => t.owed serde (available ++ rest) = .complete (t.turned available).line ::
        { t.turned available with line := [] }.owed serde ((t.turned available).read ++ rest)
    | .endDiscard => { t.turned available with discarding := false }.Framed ∧
      t.owed serde (available ++ rest) =
        { t.turned available with discarding := false }.owed serde ((t.turned available).read ++ rest)
    | .oversized ended => t.owed serde (available ++ rest) =
        .oversized (requestIdFromPrefix serde (t.turned available).line) ::
          { t.turned available with discarding := !ended, line := [] }.owed serde
            ((t.turned available).read ++ rest) := by
  have hline := h.bounded
  have apart {a : Bytes} (ha : newline ∉ a) : newline ∉ t.line ++ a :=
    fun hmem => (List.mem_append.mp hmem).elim h.unended ha
  rcases newline_cases available with ha | ⟨a, after, rfl, ha⟩
  · have hstep := readStep_of_not_mem (t := t) ha hline
    split_ifs at hstep with hdiscarding hlong
    · simp only [turned, hstep, owed, hdiscarding, ↓reduceIte, List.drop_length]
      refine ⟨⟨hline, h.unended, fun _ => h.discarded hdiscarding⟩, ?_⟩
      rw [afterLine_of_not_mem ha, List.nil_append]
    · rw [Bool.not_eq_true] at hdiscarding
      have hlong' : t.maxLineLength < (t.line ++ available).length := by rwa [List.length_append]
      simp only [turned, hstep, owed, hdiscarding, Bool.false_eq_true, ↓reduceIte, List.drop_length,
        Bool.not_false]
      rw [← List.append_assoc, frames_oversized (apart ha) hlong', List.nil_append]
    · rw [Bool.not_eq_true] at hdiscarding
      simp only [turned, hstep, owed, hdiscarding, Bool.false_eq_true, ↓reduceIte, List.drop_length]
      refine ⟨⟨?_, apart ha, nofun⟩, ?_⟩
      · change (t.line ++ available).length ≤ t.maxLineLength
        rw [List.length_append]
        omega
      · rw [List.append_assoc, List.nil_append]
  · have hstep := readStep_newline (t := t) ha hline after
    have hdrop : (a ++ newline :: after).drop (a.length + 1) = after := by
      rw [List.append_cons, List.drop_left' (by simp)]
    have hstream : t.line ++ (a ++ newline :: after ++ rest) =
        (t.line ++ a) ++ newline :: (after ++ rest) := by simp
    split_ifs at hstep with hdiscarding hlong
    · simp only [turned, hstep, owed, hdiscarding, ↓reduceIte, hdrop]
      refine ⟨⟨hline, h.unended, nofun⟩, ?_⟩
      rw [List.append_assoc, List.cons_append, afterLine_newline ha]
      simp [h.discarded hdiscarding]
    · rw [Bool.not_eq_true] at hdiscarding
      simp only [turned, hstep, owed, hdiscarding, Bool.false_eq_true, ↓reduceIte, hdrop, Bool.not_true]
      rw [hstream, frames_newline (apart ha), frameOf, if_neg (by simp; omega)]
      simp
    · rw [Bool.not_eq_true] at hdiscarding
      simp only [turned, hstep, owed, hdiscarding, Bool.false_eq_true, ↓reduceIte, hdrop]
      rw [hstream, frames_newline (apart ha), frameOf, if_pos (by simp; omega)]
      simp

theorem stream_fillBuf {read : Bytes} {arrivals arrivals' : List Arrival} {b : UInt8} {bs : Bytes}
    (h : fillBuf read arrivals = .available b bs arrivals') :
    read ++ stream arrivals = b :: bs ++ stream arrivals' := by
  unfold fillBuf at h
  split at h <;> cases h <;> rfl

theorem stream_cancelled {read : Bytes} {arrivals arrivals' : List Arrival}
    (h : fillBuf read arrivals = .cancelled arrivals') :
    read ++ stream arrivals = read ++ stream arrivals' := by
  unfold fillBuf at h
  split at h <;> cases h
  rfl

theorem stream_eof {read : Bytes} {arrivals : List Arrival} (h : fillBuf read arrivals = .eof) :
    read ++ stream arrivals = [] := by
  unfold fillBuf at h
  split at h <;> cases h
  rfl

theorem owed_nil (h : t.Framed) : t.owed serde [] = [.eof] := by
  unfold owed
  split_ifs
  · simp [afterLine, frames, splitLines]
  · rw [List.append_nil, frames_of_not_mem h.unended, if_neg (Nat.not_lt.mpr h.bounded)]

theorem framed_clear {t : PublicTransport} : { t with line := [] }.Framed :=
  ⟨Nat.zero_le _, List.not_mem_nil, fun _ => rfl⟩

theorem readLine_spec (serde : Serde) (arrivals : List Arrival) (h : t.Framed) :
    match readLine serde t arrivals with
    | (none, t', arrivals') => t'.Framed ∧ t.owed serde (t.read ++ stream arrivals) =
        t'.owed serde (t'.read ++ stream arrivals')
    | (some .eof, _, _) => t.owed serde (t.read ++ stream arrivals) = [.eof]
    | (some .complete, t', arrivals') => t.owed serde (t.read ++ stream arrivals) =
        .complete t'.line :: { t' with line := [] }.owed serde (t'.read ++ stream arrivals')
    | (some (.oversized id), t', arrivals') => t'.Framed ∧ t.owed serde (t.read ++ stream arrivals) =
        .oversized id :: t'.owed serde (t'.read ++ stream arrivals') := by
  fun_induction readLine serde t arrivals with
  | case1 t arrivals hfill =>
    rw [stream_eof hfill]
    exact owed_nil h
  | case2 t arrivals arrivals₁ hfill =>
    exact ⟨h, by rw [stream_cancelled hfill]⟩
  | case3 t arrivals b bs arrivals₁ hfill turn t₁ hstep ih | case5 t arrivals b bs arrivals₁ hfill turn t₁ hstep ih =>
    have hturn := turn_spec serde h (b :: bs) (stream arrivals₁)
    rw [show (t.readStep (b :: bs)).2.2 = _ from hstep] at hturn
    obtain ⟨hframed, howed⟩ := hturn
    rw [stream_fillBuf hfill, howed]
    exact ih hframed
  | case4 t arrivals b bs arrivals₁ hfill turn t₁ hstep =>
    have hturn := turn_spec serde h (b :: bs) (stream arrivals₁)
    rw [show (t.readStep (b :: bs)).2.2 = _ from hstep] at hturn
    rw [stream_fillBuf hfill]
    exact hturn
  | case6 t arrivals b bs arrivals₁ hfill turn t₁ ended hstep =>
    have hturn := turn_spec serde h (b :: bs) (stream arrivals₁)
    rw [show (t.readStep (b :: bs)).2.2 = _ from hstep] at hturn
    rw [stream_fillBuf hfill]
    exact ⟨framed_clear (t := { t₁ with discarding := !ended }), hturn⟩

end PublicTransport

theorem receiveAll_spec {arrivals : List Arrival} (h : t.Framed) :
    receiveAll serde t arrivals = t.owed serde (t.read ++ stream arrivals) := by
  fun_induction receiveAll serde t arrivals with
  | case1 t arrivals t' arrivals' hread ih =>
    have hspec := PublicTransport.readLine_spec serde arrivals h
    rw [hread] at hspec
    rw [hspec.2]
    exact ih hspec.1
  | case2 t arrivals t' arrivals' hread =>
    have hspec := PublicTransport.readLine_spec serde arrivals h
    rw [hread] at hspec
    exact hspec.symm
  | case3 t arrivals t' arrivals' hread ih =>
    have hspec := PublicTransport.readLine_spec serde arrivals h
    rw [hread] at hspec
    rw [hspec, ih PublicTransport.framed_clear]
  | case4 t arrivals id t' arrivals' hread ih =>
    have hspec := PublicTransport.readLine_spec serde arrivals h
    rw [hread] at hspec
    rw [hspec.2, ih hspec.1]

/-- However the stream is cut into chunks and wherever `receive` is cancelled, it gets one frame for
each line. -/
theorem receiveAll_eq_frames (serde : Serde) (maxLineLength : ℕ) (arrivals : List Arrival) :
    receiveAll serde (.new maxLineLength) arrivals = frames serde maxLineLength (stream arrivals) := by
  rw [receiveAll_spec (t := .new maxLineLength) ⟨Nat.zero_le _, List.not_mem_nil, nofun⟩]
  rfl

end IdaMcp.Transport
