import IdaMcp.Foundation.Reader

namespace IdaMcp.Foundation.Json

open Reader

abbrev Bytes := List UInt8

def isSpace (b : UInt8) : Bool := b == 0x20 || b == 0x09 || b == 0x0a || b == 0x0d

def isDigit (b : UInt8) : Bool := 0x30 ≤ b && b ≤ 0x39

def space : Reader UInt8 Bytes := span isSpace

def byte (b : UInt8) : Reader UInt8 Unit := do
  let b' ← next
  if b' = b then pure () else fail

def raw : Reader UInt8 Bytes
  | [] => none
  | 0x22 :: rest => some ([], rest)
  | 0x5c :: b :: rest => (raw rest).map fun (s, r) => (0x5c :: b :: s, r)
  | b :: rest => if b < 0x20 then none else (raw rest).map fun (s, r) => (b :: s, r)

def hexValue (b : UInt8) : Option ℕ :=
  if 0x30 ≤ b && b ≤ 0x39 then some (b.toNat - 0x30)
  else if 0x61 ≤ b && b ≤ 0x66 then some (b.toNat - 0x61 + 10)
  else if 0x41 ≤ b && b ≤ 0x46 then some (b.toNat - 0x41 + 10)
  else none

def hex (a b c d : UInt8) : Option ℕ := do
  let a ← hexValue a
  let b ← hexValue b
  let c ← hexValue c
  let d ← hexValue d
  pure (((a * 16 + b) * 16 + c) * 16 + d)

def escaped (b : UInt8) : Option UInt8 :=
  match b with
  | 0x22 => some 0x22
  | 0x5c => some 0x5c
  | 0x2f => some 0x2f
  | 0x62 => some 0x08
  | 0x66 => some 0x0c
  | 0x6e => some 0x0a
  | 0x72 => some 0x0d
  | 0x74 => some 0x09
  | _ => none

def escapesValid : Bytes → Bool
  | [] => true
  | 0x5c :: 0x75 :: a :: b :: c :: d :: rest => (hex a b c d).isSome && escapesValid rest
  | 0x5c :: b :: rest => (escaped b).isSome && escapesValid rest
  | _ :: rest => escapesValid rest

/-- The UTF-8 bytes of a string, after an escape `high` of the first half of a surrogate pair. -/
def unescape (high : Option ℕ) : Bytes → Option Bytes
  | [] => if high.isNone then some [] else none
  | 0x5c :: 0x75 :: a :: b :: c :: d :: rest => do
    let code ← hex a b c d
    match high with
    | some high =>
      if 0xdc00 ≤ code ∧ code < 0xe000 then
        let tail ← unescape none rest
        pure (String.utf8EncodeChar (Char.ofNat
          (0x10000 + (high - 0xd800) * 0x400 + (code - 0xdc00))) ++ tail)
      else none
    | none =>
      if 0xd800 ≤ code ∧ code < 0xdc00 then unescape (some code) rest
      else if 0xdc00 ≤ code ∧ code < 0xe000 then none
      else
        let tail ← unescape none rest
        pure (String.utf8EncodeChar (Char.ofNat code) ++ tail)
  | 0x5c :: b :: rest => do
    let b ← escaped b
    let tail ← unescape none rest
    if high.isNone then pure (b :: tail) else none
  | b :: rest => do
    let tail ← unescape none rest
    if high.isNone then pure (b :: tail) else none

def text (raw : Bytes) : Option String := do
  let bytes ← unescape none raw
  String.fromUTF8? ⟨bytes.toArray⟩

def string : Reader UInt8 Bytes := do
  byte 0x22
  raw

def skipString : Reader UInt8 Unit := do
  let s ← string
  if escapesValid s then pure () else fail

def digits : Reader UInt8 Bytes := do
  let ds ← span isDigit
  if ds = [] then fail else pure ds

def sign : Reader UInt8 Bytes := do
  let b ← peek
  if b = some 0x2d then
    byte 0x2d
    pure [0x2d]
  else pure []

def integer : Reader UInt8 Bytes := do
  let b ← next
  if b = 0x30 then
    let d ← peek
    if d.any isDigit then fail else pure [b]
  else if isDigit b then
    let ds ← span isDigit
    pure (b :: ds)
  else fail

def fraction : Reader UInt8 Bytes := do
  let b ← peek
  if b = some 0x2e then
    byte 0x2e
    let ds ← digits
    pure (0x2e :: ds)
  else pure []

def exponent : Reader UInt8 Bytes := do
  let b ← peek
  if b = some 0x65 ∨ b = some 0x45 then
    let e ← next
    let plus ← peek
    if plus = some 0x2b ∨ plus = some 0x2d then
      let s ← next
      let ds ← digits
      pure (e :: s :: ds)
    else
      let ds ← digits
      pure (e :: ds)
  else pure []

def number : Reader UInt8 Bytes := do
  let s ← sign
  let int ← integer
  let frac ← fraction
  let exp ← exponent
  pure (s ++ int ++ frac ++ exp)

def word : Bytes → Reader UInt8 Unit
  | [] => pure ()
  | b :: bs => do
    byte b
    word bs

mutual

def skipValue : ℕ → Reader UInt8 Unit
  | 0 => fail
  | n + 1 => do
    let _ ← space
    let b ← peek
    match b with
    | some 0x22 => skipString
    | some 0x5b =>
      byte 0x5b
      let _ ← space
      let e ← peek
      if e = some 0x5d then byte 0x5d else skipItems n
    | some 0x7b =>
      byte 0x7b
      let _ ← space
      let e ← peek
      if e = some 0x7d then byte 0x7d else skipMembers n
    | some 0x6e => word [0x6e, 0x75, 0x6c, 0x6c]
    | some 0x74 => word [0x74, 0x72, 0x75, 0x65]
    | some 0x66 => word [0x66, 0x61, 0x6c, 0x73, 0x65]
    | _ =>
      let _ ← number
      pure ()

def skipItems : ℕ → Reader UInt8 Unit
  | 0 => fail
  | n + 1 => do
    skipValue n
    let _ ← space
    let b ← peek
    if b = some 0x2c then
      byte 0x2c
      skipItems n
    else byte 0x5d

def skipMembers : ℕ → Reader UInt8 Unit
  | 0 => fail
  | n + 1 => do
    let _ ← space
    skipString
    let _ ← space
    byte 0x3a
    skipValue n
    let _ ← space
    let b ← peek
    if b = some 0x2c then
      byte 0x2c
      skipMembers n
    else byte 0x7d

end

/-- Each level of a value and each of its items takes a byte and two steps. -/
def skip : Reader UInt8 Unit := fun input => skipValue (2 * input.length + 1) input

def isInteger (token : Bytes) : Bool := token.all fun b => b == 0x2d || isDigit b

inductive Value
  | string (raw : Bytes)
  | number (token : Bytes)
  | other
deriving DecidableEq, Repr

def value : Reader UInt8 Value := do
  let b ← peek
  if b = some 0x22 then
    let s ← string
    if escapesValid s then pure (.string s) else fail
  else if b = some 0x2d ∨ b.any isDigit then
    let token ← number
    pure (.number token)
  else
    skip
    pure .other

def nextName (first : Bool) : Reader UInt8 (Option Bytes) := do
  let _ ← space
  let b ← peek
  if b = some 0x7d then pure none
  else if first then
    let name ← string
    pure (some name)
  else
    byte 0x2c
    let _ ← space
    let name ← string
    pure (some name)

def colon : Reader UInt8 Unit := do
  let _ ← space
  byte 0x3a
  let _ ← space

structure Member where
  name : Bytes
  value : Value
  input : Bytes
deriving DecidableEq, Repr

def Member.key (m : Member) : Option String := text m.name

def members : ℕ → Bool → Reader UInt8 (List Member)
  | 0, _ => fail
  | n + 1, first => do
    let name ← nextName first
    match name with
    | none =>
      byte 0x7d
      pure []
    | some name =>
      colon
      let input ← get
      let v ← value
      let ms ← members n false
      if escapesValid name then pure (⟨name, v, input⟩ :: ms) else fail

def openObject : Reader UInt8 Unit := do
  let _ ← space
  byte 0x7b

def object (input : Bytes) : Option (List Member) := do
  let (_, rest) ← openObject input
  let (ms, rest) ← members (rest.length + 1) true rest
  if rest.all isSpace then some ms else none

theorem incremental_space : Incremental space := incremental_span isSpace

theorem incremental_byte (b : UInt8) : Incremental (byte b) := by
  apply incremental_next.bind
  intro b'
  split_ifs
  · exact incremental_pure ()
  · exact incremental_fail

theorem raw_suffix {p s r : Bytes} (h : raw p = some (s, r)) : r <:+ p ∧ r.length < p.length := by
  fun_induction raw p generalizing s r with
  | case1 => cases h
  | case2 rest =>
    cases h
    exact ⟨List.suffix_cons .., Nat.lt_succ_self _⟩
  | case3 b rest ih =>
    obtain ⟨⟨s', r'⟩, hrest, hs⟩ := Option.map_eq_some_iff.mp h
    cases hs
    obtain ⟨hsuffix, hlength⟩ := ih hrest
    refine ⟨hsuffix.trans ((List.suffix_cons ..).trans (List.suffix_cons ..)), ?_⟩
    simp only [List.length_cons]
    omega
  | case4 => cases h
  | case5 b rest _ _ _ ih =>
    obtain ⟨⟨s', r'⟩, hrest, hs⟩ := Option.map_eq_some_iff.mp h
    cases hs
    obtain ⟨hsuffix, hlength⟩ := ih hrest
    exact ⟨hsuffix.trans (List.suffix_cons ..), Nat.lt_succ_of_lt hlength⟩

theorem raw_append {p q s r : Bytes} : raw p = some (s, r) ↔ raw (p ++ q) = some (s, r ++ q) := by
  fun_induction raw p generalizing s r with
  | case1 =>
    constructor
    · intro h
      cases h
    · intro h
      have hlength := (raw_suffix h).2
      simp only [List.nil_append, List.length_append] at hlength
      omega
  | case2 rest => simp [raw]
  | case3 b rest ih =>
    simp only [List.cons_append, raw, Option.map_eq_some_iff, Prod.exists, Prod.mk.injEq]
    constructor
    · rintro ⟨s', r', hrest, rfl, rfl⟩
      exact ⟨s', r' ++ q, ih.mp hrest, rfl, rfl⟩
    · rintro ⟨s', r', hrest, rfl, rfl⟩
      exact ⟨s', r, ih.mpr hrest, rfl, rfl⟩
  | case4 b rest hquote hescape hcontrol =>
    have hb : b ≠ 0x5c := by
      rintro rfl
      exact absurd hcontrol (by decide)
    rw [List.cons_append, raw.eq_4 b (rest ++ q) hquote (fun _ _ h => absurd h hb), if_pos hcontrol]
    simp
  | case5 b rest hquote hescape hcontrol ih =>
    by_cases hb : b = 0x5c
    · subst hb
      have hrest : rest = [] := by
        cases rest with
        | nil => rfl
        | cons b' rest => exact (hescape b' rest rfl rfl).elim
      subst hrest
      cases q with
      | nil => simp [raw]
      | cons b' q =>
        simp only [raw, Option.map_none, List.cons_append, List.nil_append, Option.map_eq_some_iff,
          Prod.exists, Prod.mk.injEq, reduceCtorEq, false_iff, not_exists, not_and]
        rintro s' r' hrest - rfl
        have hlength := (raw_suffix hrest).2
        simp only [List.length_append, List.length_cons] at hlength
        omega
    · rw [List.cons_append, raw.eq_4 b (rest ++ q) hquote (fun _ _ h => absurd h hb), if_neg hcontrol]
      simp only [Option.map_eq_some_iff, Prod.exists, Prod.mk.injEq]
      constructor
      · rintro ⟨s', r', hrest, rfl, rfl⟩
        exact ⟨s', r' ++ q, ih.mp hrest, rfl, rfl⟩
      · rintro ⟨s', r', hrest, rfl, rfl⟩
        exact ⟨s', r, ih.mpr hrest, rfl, rfl⟩

theorem incremental_raw : Incremental raw where
  suffix h := (raw_suffix h).1
  extend _ := raw_append

theorem incremental_string : Incremental string :=
  (incremental_byte 0x22).bind fun _ => incremental_raw

theorem delimited_string : Delimited string := by
  apply (incremental_byte 0x22).bind_delimited
  · intro _ p q v r h
    exact raw_append.mp h
  · intro _ v r h
    cases h

theorem incremental_skipString : Incremental skipString := by
  apply incremental_string.bind
  intro s
  split_ifs
  · exact incremental_pure ()
  · exact incremental_fail

theorem incremental_digits : Incremental digits := by
  apply (incremental_span isDigit).bind
  intro ds
  split_ifs
  · exact incremental_fail
  · exact incremental_pure ds

theorem incremental_sign : Incremental sign := by
  apply incremental_peek.bind
  intro b
  split_ifs
  · exact (incremental_byte _).bind fun _ => incremental_pure _
  · exact incremental_pure _

theorem incremental_integer : Incremental integer := by
  apply incremental_next.bind
  intro b
  split_ifs
  · apply incremental_peek.bind
    intro d
    split_ifs
    · exact incremental_fail
    · exact incremental_pure _
  · exact (incremental_span isDigit).bind fun _ => incremental_pure _
  · exact incremental_fail

theorem incremental_fraction : Incremental fraction := by
  apply incremental_peek.bind
  intro b
  split_ifs
  · exact (incremental_byte _).bind fun _ => incremental_digits.bind fun _ => incremental_pure _
  · exact incremental_pure _

theorem incremental_exponent : Incremental exponent := by
  apply incremental_peek.bind
  intro b
  split_ifs
  · apply incremental_next.bind
    intro e
    apply incremental_peek.bind
    intro plus
    split_ifs
    · exact incremental_next.bind fun _ => incremental_digits.bind fun _ => incremental_pure _
    · exact incremental_digits.bind fun _ => incremental_pure _
  · exact incremental_pure _

theorem incremental_number : Incremental number :=
  incremental_sign.bind fun _ => incremental_integer.bind fun _ => incremental_fraction.bind fun _ =>
    incremental_exponent.bind fun _ => incremental_pure _

theorem incremental_word (bs : Bytes) : Incremental (word bs) := by
  induction bs with
  | nil => exact incremental_pure ()
  | cons b bs ih => exact (incremental_byte b).bind fun _ => ih

theorem incremental_skip_steps (n : ℕ) :
    Incremental (skipValue n) ∧ Incremental (skipItems n) ∧ Incremental (skipMembers n) := by
  induction n with
  | zero => exact ⟨incremental_fail, incremental_fail, incremental_fail⟩
  | succ n ih =>
    obtain ⟨hvalue, hitems, hmembers⟩ := ih
    have opens (b e : UInt8) {f : Reader UInt8 Unit} (hf : Incremental f) :
        Incremental (do
          byte b
          let _ ← space
          let e' ← peek
          if e' = some e then byte e else f) := by
      refine (incremental_byte b).bind fun _ => incremental_space.bind fun _ => ?_
      apply incremental_peek.bind
      intro e'
      split_ifs
      · exact incremental_byte e
      · exact hf
    have goes (e : UInt8) {f : Reader UInt8 Unit} (hf : Incremental f) :
        Incremental (do
          skipValue n
          let _ ← space
          let b ← peek
          if b = some 0x2c then
            byte 0x2c
            f
          else byte e) := by
      refine hvalue.bind fun _ => incremental_space.bind fun _ => ?_
      apply incremental_peek.bind
      intro b
      split_ifs
      · exact (incremental_byte _).bind fun _ => hf
      · exact incremental_byte e
    refine ⟨?_, goes 0x5d hitems, ?_⟩
    · refine incremental_space.bind fun _ => incremental_peek.bind fun b => ?_
      split
      · exact incremental_skipString
      · exact opens 0x5b 0x5d hitems
      · exact opens 0x7b 0x7d hmembers
      · exact incremental_word _
      · exact incremental_word _
      · exact incremental_word _
      · exact incremental_number.bind fun _ => incremental_pure ()
    · exact incremental_space.bind fun _ => incremental_skipString.bind fun _ =>
        incremental_space.bind fun _ => (incremental_byte _).bind fun _ => goes 0x7d hmembers

theorem byte_eq_some {b : UInt8} {p r : Bytes} {v : Unit} : byte b p = some (v, r) ↔ p = b :: r := by
  unfold byte
  rw [bind_eq_some]
  constructor
  · rintro ⟨b', s, hnext, hbyte⟩
    cases p with
    | nil => cases hnext
    | cons b'' p =>
      cases hnext
      split_ifs at hbyte with hb
      · cases hbyte
        rw [hb]
      · cases hbyte
  · rintro rfl
    refine ⟨b, r, rfl, ?_⟩
    rw [if_pos rfl]
    rfl

theorem mono_of_byte {α : Type} {b : UInt8} {g g' : Unit → Reader UInt8 α} {p : Bytes} {x : α × Bytes}
    (h : ∀ s, s.length < p.length → g () s = some x → g' () s = some x)
    (hp : (byte b >>= g) p = some x) : (byte b >>= g') p = some x := by
  obtain ⟨a, s, hbyte, hg⟩ := bind_eq_some.mp hp
  refine bind_eq_some.mpr ⟨a, s, hbyte, h s ?_ hg⟩
  rw [byte_eq_some.mp hbyte]
  exact Nat.lt_succ_self _

theorem skip_enough (m : ℕ) : (∀ n p x, skipValue m p = some x → 2 * p.length + 1 ≤ n →
      skipValue n p = some x) ∧
    (∀ n p x, skipItems m p = some x → 2 * p.length + 2 ≤ n → skipItems n p = some x) ∧
      ∀ n p x, skipMembers m p = some x → 2 * p.length + 2 ≤ n → skipMembers n p = some x := by
  induction m with
  | zero => exact ⟨nofun, nofun, nofun⟩
  | succ m ih =>
    obtain ⟨hvalue, hitems, hmembers⟩ := ih
    have opens {n : ℕ} {b e : UInt8} {f f' : Reader UInt8 Unit} {p : Bytes} {x : Unit × Bytes}
        (hn : 2 * p.length + 1 ≤ n + 1)
        (hf : ∀ s, 2 * s.length + 2 ≤ n → f s = some x → f' s = some x) :
        (do
          byte b
          let _ ← space
          let e' ← peek
          if e' = some e then byte e else f) p = some x →
        (do
          byte b
          let _ ← space
          let e' ← peek
          if e' = some e then byte e else f') p = some x := by
      apply mono_of_byte
      intro s hs
      apply incremental_space.mono
      intro _ s' hs'
      apply incremental_peek.mono
      intro e' s'' hs'' h
      split_ifs at h ⊢
      · exact h
      · exact hf s'' (by omega) h
    have goes {n : ℕ} {e : UInt8} {f f' : Reader UInt8 Unit} {p : Bytes} {x : Unit × Bytes}
        (hn : 2 * p.length + 1 ≤ n)
        (hf : ∀ s, 2 * s.length + 2 ≤ n → f s = some x → f' s = some x) :
        (do
          skipValue m
          let _ ← space
          let b ← peek
          if b = some 0x2c then
            byte 0x2c
            f
          else byte e) p = some x →
        (do
          skipValue n
          let _ ← space
          let b ← peek
          if b = some 0x2c then
            byte 0x2c
            f'
          else byte e) p = some x := by
      intro h
      obtain ⟨v, r, hv, hr⟩ := bind_eq_some.mp h
      refine bind_eq_some.mpr ⟨v, r, hvalue n p (v, r) hv hn, ?_⟩
      have hle := ((incremental_skip_steps m).1.suffix hv).length_le
      revert hr
      apply incremental_space.mono
      intro _ s hs
      apply incremental_peek.mono
      intro b s' hs' h
      split_ifs at h ⊢
      · revert h
        apply mono_of_byte
        intro s'' hs''
        exact hf s'' (by omega)
      · exact h
    refine ⟨?_, ?_, ?_⟩
    · intro n p x h hn
      cases n with
      | zero => omega
      | succ n =>
        revert h
        apply incremental_space.mono
        intro _ s hs
        apply incremental_peek.mono
        intro b s' hs' h
        split at h
        · exact h
        · exact opens (by omega) (fun s' hs' h => hitems n s' x h hs') h
        · exact opens (by omega) (fun s' hs' h => hmembers n s' x h hs') h
        · exact h
        · exact h
        · exact h
        · exact h
    · intro n p x h hn
      cases n with
      | zero => omega
      | succ n => exact goes (by omega) (fun s' hs' h => hitems n s' x h hs') h
    · intro n p x h hn
      cases n with
      | zero => omega
      | succ n =>
        revert h
        apply incremental_space.mono
        intro _ s hs
        apply incremental_skipString.mono
        intro _ s' hs'
        apply incremental_space.mono
        intro _ s'' hs''
        apply mono_of_byte
        intro s''' hs'''
        exact goes (by omega) (fun s' hs' h => hmembers n s' x h hs')

theorem incremental_skip : Incremental skip where
  suffix h := (incremental_skip_steps _).1.suffix h
  extend {p q v r} hr := by
    unfold skip
    rw [(incremental_skip_steps _).1.extend hr (q := q)]
    constructor
    · intro h
      exact (skip_enough _).1 _ _ _ h (Nat.le_refl _)
    · intro h
      have hp := ((incremental_skip_steps _).1.extend hr).mpr h
      exact ((incremental_skip_steps _).1.extend hr).mp ((skip_enough _).1 _ _ _ hp (Nat.le_refl _))

theorem incremental_value : Incremental value := by
  apply incremental_peek.bind
  intro b
  split_ifs
  · apply incremental_string.bind
    intro s
    split_ifs
    · exact incremental_pure _
    · exact incremental_fail
  · exact incremental_number.bind fun _ => incremental_pure _
  · exact incremental_skip.bind fun _ => incremental_pure _

theorem incremental_nextName (first : Bool) : Incremental (nextName first) := by
  refine incremental_space.bind fun _ => incremental_peek.bind fun b => ?_
  split_ifs
  · exact incremental_pure _
  · exact incremental_string.bind fun _ => incremental_pure _
  · exact (incremental_byte _).bind fun _ => incremental_space.bind fun _ =>
      incremental_string.bind fun _ => incremental_pure _

theorem incremental_colon : Incremental colon :=
  incremental_space.bind fun _ => (incremental_byte _).bind fun _ => incremental_space.bind fun _ =>
    incremental_pure _

theorem incremental_openObject : Incremental openObject :=
  incremental_space.bind fun _ => incremental_byte _

theorem space_of_head {p : Bytes} (h : ∀ b, p.head? = some b → isSpace b = false) :
    space p = some ([], p) := by
  cases p with
  | nil => rfl
  | cons b p =>
    have hb := h b rfl
    simp [space, span, hb]

theorem skip_of_quote {p : Bytes} (hb : p.head? = some 0x22) : skip p = skipString p := by
  have hspace : space p = some ([], p) := by
    apply space_of_head
    intro b hb'
    rw [hb] at hb'
    cases hb'
    rfl
  unfold skip skipValue
  rw [bind_of_eq hspace, bind_of_eq (a := p.head?) (s := p) rfl, hb]
  rfl

theorem skip_of_number {p token r : Bytes} {b : UInt8} (hb : p.head? = some b)
    (hnumber : b = 0x2d ∨ isDigit b = true) (h : number p = some (token, r)) :
    skip p = some ((), r) := by
  have other (b' : UInt8) (hb' : b' ≠ 0x2d ∧ isDigit b' = false) : b ≠ b' := by
    rintro rfl
    rcases hnumber with hminus | hdigit
    · exact hb'.1 hminus
    · rw [hb'.2] at hdigit
      cases hdigit
  have hspace : space p = some ([], p) := by
    apply space_of_head
    intro b' hb'
    rw [hb] at hb'
    cases hb'
    simp [isSpace, other 0x20 (by decide), other 0x09 (by decide), other 0x0a (by decide),
      other 0x0d (by decide)]
  unfold skip skipValue
  rw [bind_of_eq hspace, bind_of_eq (a := p.head?) (s := p) rfl]
  have ne (b' : UInt8) (hb' : b' ≠ 0x2d ∧ isDigit b' = false) : p.head? ≠ some b' := by
    rw [hb]
    exact fun h => other b' hb' (Option.some.inj h)
  refine (congrFun (?_ : _ = (number >>= fun _ => pure () : Reader UInt8 Unit)) p).trans ?_
  · split
    · exact (ne 0x22 (by decide) ‹_›).elim
    · exact (ne 0x5b (by decide) ‹_›).elim
    · exact (ne 0x7b (by decide) ‹_›).elim
    · exact (ne 0x6e (by decide) ‹_›).elim
    · exact (ne 0x74 (by decide) ‹_›).elim
    · exact (ne 0x66 (by decide) ‹_›).elim
    · rfl
  · rw [bind_of_eq h]
    rfl

theorem skip_of_value {p r : Bytes} {v : Value} (h : value p = some (v, r)) :
    skip p = some ((), r) := by
  unfold value at h
  rw [bind_of_eq (a := p.head?) (s := p) rfl] at h
  split_ifs at h with hquote hnumber
  · obtain ⟨s, r', hs, h⟩ := bind_eq_some.mp h
    split_ifs at h with hvalid
    · cases h
      rw [skip_of_quote hquote]
      unfold skipString
      rw [bind_of_eq hs, if_pos hvalid]
      rfl
    · cases h
  · obtain ⟨token, r', htoken, h⟩ := bind_eq_some.mp h
    cases h
    cases hhead : p.head? with
    | none => simp [hhead] at hnumber
    | some b => exact skip_of_number hhead (by simpa [hhead] using hnumber) htoken
  · obtain ⟨_, r', hskip, h⟩ := bind_eq_some.mp h
    cases h
    exact hskip

theorem colon_length {p r : Bytes} {v : Unit} (h : colon p = some (v, r)) : r.length < p.length := by
  unfold colon at h
  obtain ⟨_, r₁, hspace, h⟩ := bind_eq_some.mp h
  obtain ⟨_, r₂, hbyte, h⟩ := bind_eq_some.mp h
  obtain ⟨_, r₃, hspace', h⟩ := bind_eq_some.mp h
  cases h
  have h₁ := (incremental_space.suffix hspace).length_le
  have h₃ := (incremental_space.suffix hspace').length_le
  rw [byte_eq_some.mp hbyte, List.length_cons] at h₁
  omega

theorem members_cons {n : ℕ} {first : Bool} {p r : Bytes} {ms : List Member}
    (h : members (n + 1) first p = some (ms, r)) :
    (∃ s, nextName first p = some (none, s) ∧ ms = []) ∨
      ∃ name s₁ s₂ v s₃ ms', nextName first p = some (some name, s₁) ∧ colon s₁ = some ((), s₂) ∧
        value s₂ = some (v, s₃) ∧ members n false s₃ = some (ms', r) ∧ ms = ⟨name, v, s₂⟩ :: ms' := by
  unfold members at h
  obtain ⟨name, s₁, hname, h⟩ := bind_eq_some.mp h
  cases name with
  | none =>
    obtain ⟨_, s₂, -, h⟩ := bind_eq_some.mp h
    cases h
    exact .inl ⟨s₁, hname, rfl⟩
  | some name =>
    obtain ⟨⟨⟩, s₂, hcolon, h⟩ := bind_eq_some.mp h
    obtain ⟨input, s, hget, h⟩ := bind_eq_some.mp h
    cases hget
    obtain ⟨v, s₃, hvalue, h⟩ := bind_eq_some.mp h
    obtain ⟨ms', s₄, hmembers, h⟩ := bind_eq_some.mp h
    split_ifs at h
    · cases h
      exact .inr ⟨name, s₁, s₂, v, s₃, ms', hname, hcolon, hvalue, hmembers, rfl⟩
    · cases h

theorem members_input {n : ℕ} {first : Bool} {p r : Bytes} {ms : List Member}
    (h : members n first p = some (ms, r)) : ∀ m ∈ ms, m.input.length < p.length := by
  induction n generalizing first p ms with
  | zero => cases h
  | succ n ih =>
    rcases members_cons h with ⟨s, -, rfl⟩ | ⟨name, s₁, s₂, v, s₃, ms', hname, hcolon, hvalue, hmembers, rfl⟩
    · simp
    · have h₁ := ((incremental_nextName first).suffix hname).length_le
      have h₂ := colon_length hcolon
      have h₃ := (incremental_value.suffix hvalue).length_le
      intro m hm
      rcases List.mem_cons.mp hm with rfl | hm
      · change s₂.length < p.length
        omega
      · have hlt := ih hmembers m hm
        omega

theorem members_value {n : ℕ} {first : Bool} {p r : Bytes} {ms : List Member}
    (h : members n first p = some (ms, r)) : ∀ m ∈ ms, ∃ s, value m.input = some (m.value, s) := by
  induction n generalizing first p ms with
  | zero => cases h
  | succ n ih =>
    rcases members_cons h with ⟨s, -, rfl⟩ | ⟨name, s₁, s₂, v, s₃, ms', -, -, hvalue, hmembers, rfl⟩
    · simp
    · intro m hm
      rcases List.mem_cons.mp hm with rfl | hm
      · exact ⟨s₃, hvalue⟩
      · exact ih hmembers m hm

end IdaMcp.Foundation.Json
