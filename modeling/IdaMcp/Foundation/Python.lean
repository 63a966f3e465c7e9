import IdaMcp.Foundation.Text

/-! What Python reads of a source text: words, symbols and string literals. The words and the symbols
are finer than Python's own tokens and determine them, white space and line ends included. -/

namespace IdaMcp.Foundation.Python

open Text

def universalNewlines : Chars → Chars
  | [] => []
  | ['\r'] => ['\n']
  | '\r' :: '\n' :: s => '\n' :: universalNewlines s
  | '\r' :: c :: s => '\n' :: universalNewlines (c :: s)
  | c :: s => c :: universalNewlines s

def isWordChar (c : Char) : Bool := c.isAlphanum || c == '_' || 128 ≤ c.toNat

def isStringPrefix (word : Chars) : Bool :=
  word.map Char.toLower ∈ [['r'], ['u'], ['b'], ['f'], ['t'], ['b', 'r'], ['r', 'b'], ['f', 'r'],
    ['r', 'f'], ['t', 'r'], ['r', 't']]

inductive Item
  | word (text : Chars)
  | symbol (c : Char)
  | literal (pre raw : Chars)
deriving DecidableEq

inductive Mode
  | code (word : Chars)
  | comment
  | opened (pre : Chars) (quote : Char)
  /-- After two quotes: an empty literal, or the start of a long one. -/
  | twice (pre : Chars) (quote : Char)
  | short (pre : Chars) (quote : Char) (raw : Chars)
  | shortEscape (pre : Chars) (quote : Char) (raw : Chars)
  | long (pre : Chars) (quote : Char) (raw : Chars) (quotes : ℕ)
  | longEscape (pre : Chars) (quote : Char) (raw : Chars)
  | refused
deriving DecidableEq

def flush (word : Chars) : List Item := if word = [] then [] else [.word word]

def nextCode (word : Chars) (c : Char) : Mode × List Item :=
  if isWordChar c then (.code (word ++ [c]), [])
  else if c = '"' ∨ c = '\'' then
    if isStringPrefix word then (.opened word c, []) else (.opened [] c, flush word)
  else if c = '#' then (.comment, flush word)
  else (.code [], flush word ++ [.symbol c])

def nextShort (pre : Chars) (quote : Char) (raw : Chars) (c : Char) : Mode × List Item :=
  if c = quote then (.code [], [.literal pre raw])
  else if c = '\\' then (.shortEscape pre quote raw, [])
  else if c = '\n' then (.refused, [])
  else (.short pre quote (raw ++ [c]), [])

def nextLong (pre : Chars) (quote : Char) (raw : Chars) (quotes : ℕ) (c : Char) : Mode × List Item :=
  let before := raw ++ List.replicate quotes quote
  if c = quote then
    if quotes = 2 then (.code [], [.literal pre raw]) else (.long pre quote raw (quotes + 1), [])
  else if c = '\\' then (.longEscape pre quote before, [])
  else (.long pre quote (before ++ [c]) 0, [])

/-- One character, with the items that it ends. A source with a NUL is not read at all, and no CR is
left in it. -/
def next (mode : Mode) (c : Char) : Mode × List Item :=
  if c = '\x00' ∨ c = '\r' then (.refused, [])
  else match mode with
    | .code word => nextCode word c
    | .comment => if c = '\n' then (.code [], [.symbol c]) else (.comment, [])
    | .opened pre quote => if c = quote then (.twice pre quote, []) else nextShort pre quote [] c
    | .twice pre quote =>
      if c = quote then (.long pre quote [] 0, [])
      else ((nextCode [] c).1, .literal pre [] :: (nextCode [] c).2)
    | .short pre quote raw => nextShort pre quote raw c
    | .shortEscape pre quote raw => (.short pre quote (raw ++ ['\\', c]), [])
    | .long pre quote raw quotes => nextLong pre quote raw quotes c
    | .longEscape pre quote raw => (.long pre quote (raw ++ ['\\', c]) 0, [])
    | .refused => (.refused, [])

def scan : Mode → Chars → Mode × List Item
  | mode, [] => (mode, [])
  | mode, c :: s => ((scan (next mode c).1 s).1, (next mode c).2 ++ (scan (next mode c).1 s).2)

def finish : Mode → Option (List Item)
  | .code word => some (flush word)
  | .comment => some []
  | .twice pre _ => some [.literal pre []]
  | _ => none

def lex (s : Chars) : Option (List Item) :=
  let (mode, items) := scan (.code []) (universalNewlines s)
  (finish mode).map (items ++ ·)

/-! The value of a literal. -/

inductive Escape
  | plain
  | backslash
  | octal (left value : ℕ)
  | hex (left value : ℕ)
  | brace
  | name (text : Chars)

def escapeValue : Char → Option (List ℕ)
  | '\n' => some []
  | '\\' => some [92]
  | '\'' => some [39]
  | '"' => some [34]
  | 'a' => some [7]
  | 'b' => some [8]
  | 't' => some [9]
  | 'n' => some [10]
  | 'v' => some [11]
  | 'f' => some [12]
  | 'r' => some [13]
  | _ => none

def octalDigit (c : Char) : Option ℕ := (hexDigit c).filter (· < 8)

/-- The code points of a literal that is neither raw, nor of bytes, nor formatted; `names` is the
table behind `\N`. -/
def decode (names : Chars → Option ℕ) : Escape → Chars → Option (List ℕ)
  | .plain, [] => some []
  | .octal _ value, [] => some [value]
  | _, [] => none
  | .plain, c :: s =>
    if c = '\\' then decode names .backslash s else (decode names .plain s).map (c.toNat :: ·)
  | .backslash, c :: s =>
    match escapeValue c, octalDigit c with
    | some values, _ => (decode names .plain s).map (values ++ ·)
    | none, some d => decode names (.octal 2 d) s
    | none, none =>
      if c = 'x' then decode names (.hex 2 0) s
      else if c = 'u' then decode names (.hex 4 0) s
      else if c = 'U' then decode names (.hex 8 0) s
      else if c = 'N' then decode names .brace s
      else (decode names .plain s).map ([92, c.toNat] ++ ·)
  | .octal left value, c :: s =>
    match if 0 < left then octalDigit c else none with
    | some d => decode names (.octal (left - 1) (value * 8 + d)) s
    | none =>
      if c = '\\' then (decode names .backslash s).map (value :: ·)
      else (decode names .plain s).map ([value, c.toNat] ++ ·)
  | .hex left value, c :: s =>
    match hexDigit c with
    | none => none
    | some d =>
      if 1 < left then decode names (.hex (left - 1) (value * 16 + d)) s
      else if value * 16 + d < 0x110000 then (decode names .plain s).map ((value * 16 + d) :: ·)
      else none
  | .brace, c :: s => if c = '\x7b' then decode names (.name []) s else none
  | .name text, c :: s =>
    if c = '\x7d' then (names text).bind fun value => (decode names .plain s).map (value :: ·)
    else decode names (.name (text ++ [c])) s

/-! The source without the values of its literals. -/

inductive Shape
  | word (text : Chars)
  | symbol (c : Char)
  | number
  | text
  /-- A literal that is formatted, raw or of bytes, or that has no value. -/
  | other (pre raw : Chars)
deriving DecidableEq

def isDecimal (word : Chars) : Bool :=
  word ≠ [] && word.all Char.isDigit && (word.head? ≠ some '0' || word.all (· == '0'))

variable (names : Chars → Option ℕ)

def Item.shape : Item → Shape
  | word text => if isDecimal text then .number else .word text
  | symbol c => .symbol c
  | literal pre raw =>
    if pre ∈ [[], ['u'], ['U']] ∧ (decode names .plain raw).isSome then .text else .other pre raw

def shapes (s : Chars) : Option (List Shape) := (lex s).map (List.map (Item.shape names))

variable {names}

/-! A text in pieces. -/

theorem scan_append (mode : Mode) (s t : Chars) :
    scan mode (s ++ t) = ((scan (scan mode s).1 t).1, (scan mode s).2 ++ (scan (scan mode s).1 t).2) := by
  induction s generalizing mode with
  | nil => rfl
  | cons c s ih => simp only [List.cons_append, scan, ih, List.append_assoc]

theorem scan_refused (s : Chars) : (scan .refused s).1 = .refused := by
  induction s with
  | nil => rfl
  | cons c s ih =>
    have hnext : (next .refused c).1 = .refused := by
      unfold next
      split_ifs <;> rfl
    rw [scan, hnext]
    exact ih

theorem scan_illegal (mode : Mode) {s : Chars} {c : Char} (hc : c = '\x00' ∨ c = '\r') (h : c ∈ s) :
    (scan mode s).1 = .refused := by
  obtain ⟨a, b, rfl⟩ := List.append_of_mem h
  have hnext : (next (scan mode a).1 c).1 = .refused := by
    unfold next
    rw [if_pos hc]
  rw [scan_append, scan, hnext]
  exact scan_refused b

theorem universalNewlines_eq_self {s : Chars} (h : '\r' ∉ s) : universalNewlines s = s := by
  induction s with
  | nil => rfl
  | cons c s ih =>
    obtain ⟨hc, hs⟩ := List.ne_and_not_mem_of_not_mem_cons h
    rw [universalNewlines, ih hs]
    all_goals
      intros
      exact absurd ‹_› hc.symm

theorem mem_universalNewlines {s : Chars} (h : '\x00' ∈ s) : '\x00' ∈ universalNewlines s := by
  induction s using universalNewlines.induct with
  | case1 => exact h
  | case2 => simp at h
  | case3 s ih => simp_all [universalNewlines]
  | case4 c s hc ih => simp_all [universalNewlines]
  | case5 c s hlast hcr hmid ih =>
    rw [universalNewlines]
    · exact List.mem_cons.mpr ((List.mem_cons.mp h).imp id ih)
    · assumption
    · assumption
    · assumption

theorem lex_nul {s : Chars} (h : '\x00' ∈ s) : lex s = none := by
  unfold lex
  dsimp only
  rw [scan_illegal _ (.inl rfl) (mem_universalNewlines h)]
  rfl

theorem lex_of_scan {s : Chars} {items ends : List Item} {mode : Mode}
    (h : scan (.code []) s = (mode, items)) (hfinish : finish mode = some ends) :
    lex s = some (items ++ ends) := by
  have hcr : '\r' ∉ s := by
    intro hcr
    have hrefused := scan_illegal (.code []) (.inr rfl) hcr
    rw [h] at hrefused
    cases hrefused
    cases hfinish
  rw [lex, universalNewlines_eq_self hcr, h]
  dsimp only
  rw [hfinish]
  rfl

theorem scan_word (word : Chars) {s : Chars} (hs : ∀ c ∈ s, isWordChar c = true) :
    scan (.code word) s = (.code (word ++ s), []) := by
  induction s generalizing word with
  | nil => simp [scan]
  | cons c s ih =>
    obtain ⟨hc, hs⟩ := List.forall_mem_cons.mp hs
    have hlegal : ¬ (c = '\x00' ∨ c = '\r') := by
      rintro (rfl | rfl) <;> cases hc
    have hnext : next (.code word) c = (.code (word ++ [c]), []) := by
      unfold next nextCode
      rw [if_neg hlegal]
      exact if_pos hc
    rw [scan, hnext]
    simp [ih _ hs]

theorem isDecimal_toDigits (n : ℕ) : isDecimal (Nat.toDigits 10 n) = true := by
  have hdigit : ∀ c ∈ Nat.toDigits 10 n, c.isDigit = true := by
    intro c hc
    have hall : ∀ d < 10, (Nat.digitChar d).isDigit = true := by decide
    obtain ⟨d, hd, rfl⟩ := exists_digit_of_mem_toDigits (by decide) hc
    exact hall d hd
  have hhead (n : ℕ) (hn : n ≠ 0) : (Nat.toDigits 10 n).head? ≠ some '0' := by
    have hall : ∀ d < 10, d ≠ 0 → Nat.digitChar d ≠ '0' := by decide
    induction n using Nat.strongRecOn with
    | ind n ih =>
      rw [Nat.toDigits_eq_if (by decide)]
      split_ifs with hsmall
      · simpa using hall n hsmall hn
      · rw [List.head?_append_of_ne_nil _ Nat.toDigits_ne_nil]
        exact ih (n / 10) (by omega) (by omega)
  unfold isDecimal
  by_cases hn : n = 0
  · subst hn
    decide
  · simp [Nat.toDigits_ne_nil, hhead n hn, List.all_eq_true.mpr hdigit]

/-! Two sources that differ in what their literals say. -/

structure Alike (names : Chars → Option ℕ) (x y : Mode × List Item) : Prop where
  left : x.1 = .code []
  right : y.1 = .code []
  shape : x.2.map (Item.shape names) = y.2.map (Item.shape names)

theorem Alike.of_code {s : Chars} (h : (scan (.code []) s).1 = .code []) :
    Alike names (scan (.code []) s) (scan (.code []) s) := ⟨h, h, rfl⟩

theorem Alike.text {mode mode' : Mode} {t s s' : Chars} (ht : (scan mode t).1 = mode')
    (h : Alike names (scan mode' s) (scan mode' s')) :
    Alike names (scan mode (t ++ s)) (scan mode (t ++ s')) := by
  rw [scan_append, scan_append, ht]
  exact ⟨h.left, h.right, by rw [List.map_append, List.map_append, h.shape]⟩

theorem Alike.number {c : Char} (hc : ∀ word, next (.code word) c = (.code [], flush word ++ [.symbol c]))
    (n n' : ℕ) {s s' : Chars} (h : Alike names (scan (.code []) s) (scan (.code []) s')) :
    Alike names (scan (.code []) (Nat.toDigits 10 n ++ c :: s))
      (scan (.code []) (Nat.toDigits 10 n' ++ c :: s')) := by
  have hscan (n : ℕ) (s : Chars) : scan (.code []) (Nat.toDigits 10 n ++ c :: s) =
      ((scan (.code []) s).1, .word (Nat.toDigits 10 n) :: .symbol c :: (scan (.code []) s).2) := by
    have hword : ∀ c ∈ Nat.toDigits 10 n, isWordChar c = true := by
      have hall : ∀ d < 10, isWordChar (Nat.digitChar d) = true := by decide
      intro c hc
      obtain ⟨d, hd, rfl⟩ := exists_digit_of_mem_toDigits (by decide) hc
      exact hall d hd
    rw [scan_append, scan_word [] hword, scan, hc]
    simp [flush, Nat.toDigits_ne_nil]
  rw [hscan, hscan]
  exact ⟨h.left, h.right, by simp [Item.shape, isDecimal_toDigits, h.shape]⟩

theorem Alike.shapes {s s' : Chars} (h : Alike names (scan (.code []) s) (scan (.code []) s')) :
    shapes names s = shapes names s' ∧ (shapes names s').isSome := by
  have hlex {s : Chars} (hmode : (scan (.code []) s).1 = .code []) :
      lex s = some ((scan (.code []) s).2 ++ []) :=
    lex_of_scan (Prod.ext hmode rfl) rfl
  unfold Python.shapes
  rw [hlex h.left, hlex h.right]
  simp [h.shape]

end IdaMcp.Foundation.Python
