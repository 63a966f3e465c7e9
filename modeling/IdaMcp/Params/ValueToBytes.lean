import IdaMcp.Params.ParseAddress

namespace IdaMcp.Params

open Foundation Text Callgraph

inductive Number
  | posInt (n : UInt64)
  | negInt (n : Int64)
  | float (bits : UInt64)

def Number.asU64 : Number → Option ℕ
  | posInt n => some n.toNat
  | _ => none

inductive Value
  | null
  | bool (b : Bool)
  | number (n : Number)
  | string (s : String)
  | array (items : List Value)
  | object (fields : List (String × Value))

def isAsciiWhitespace (c : Char) : Bool :=
  c = ' ' || c = '\t' || c = '\n' || c = '\x0c' || c = '\r'

def isSeparator (c : Char) : Bool :=
  isAsciiWhitespace c || c = ',' || c = '_' || c = ':' || c = '-'

def isHexdigit (c : Char) : Bool := (hexDigit c).isSome

def cleanHex : Chars → Except ToolError Chars
  | [] => .ok []
  | c :: rest =>
    if isHexdigit c then (cleanHex rest).map (c :: ·)
    else if isSeparator c || c = 'x' || c = 'X' then cleanHex rest
    else .error (.invalidParams ("invalid hex character: " ++ String.singleton c))

def pairToByte (pair : Chars) : Except ToolError UInt8 :=
  match u8FromHex pair with
  | some byte => .ok byte
  | none => .error (.invalidParams "invalid hex byte")

def hexToBytes (s : Chars) : Except ToolError (List UInt8) := do
  let cleaned ← cleanHex s
  if cleaned = [] then .error (.invalidParams "no bytes provided")
  else if cleaned.length % 2 ≠ 0 then .error (.invalidParams "hex string has odd length")
  else (pairs cleaned).mapM pairToByte

def byteInRange (n : ℕ) : Except ToolError UInt8 :=
  if 255 < n then .error (.invalidParams "byte value out of range") else .ok (UInt8.ofNat n)

def numberToByte (n : Number) : Except ToolError UInt8 :=
  match n.asU64 with
  | none => .error (.invalidParams "invalid byte")
  | some n => byteInRange n

def elementToByte (debug : String → String) : Value → Except ToolError UInt8
  | .number n => numberToByte n
  | .string s => do
    let val ← parseAddress debug s
    byteInRange val
  | _ => .error (.invalidParams "bytes must be numbers or strings")

def valueToBytes (debug : String → String) : Value → Except ToolError (List UInt8)
  | .string s => hexToBytes s.toList
  | .array items => do
    let out ← items.mapM (elementToByte debug)
    if out = [] then .error (.invalidParams "no bytes provided") else .ok out
  | .number n => do
    let byte ← numberToByte n
    pure [byte]
  | _ => .error (.invalidParams "expected hex string or array of bytes")

/-! The renderings of bytes. -/

structure Token where
  mark : Chars
  digits : Chars
  mark_mem : mark ∈ [[], ['0', 'x'], ['0', 'X']]
  length : digits.length = 1 ∨ digits.length = 2
  isHex : IsHex digits

def Token.text (token : Token) : Chars := token.mark ++ token.digits

def Token.byte (token : Token) : UInt8 := UInt8.ofNat (hexValue token.digits)

inductive Tokens : Chars → List Token → Prop
  | one (token : Token) : Tokens token.text [token]
  | more (token : Token) {separators rest : Chars} {tokens : List Token} (hne : separators ≠ [])
      (hseparators : ∀ c ∈ separators, isSeparator c = true) (hrest : Tokens rest tokens) :
      Tokens (token.text ++ separators ++ rest) (token :: tokens)

structure Compact (s : Chars) : Prop where
  ne_nil : s ≠ []
  isHex : IsHex s
  even : s.length % 2 = 0

def compactBytes (s : Chars) : List UInt8 := (pairs s).map fun pair => UInt8.ofNat (hexValue pair)

inductive RendersByte : Value → UInt8 → Prop
  | number {n : Number} {byte : UInt8} (h : n.asU64 = some byte.toNat) : RendersByte (.number n) byte
  | string {s : String} {byte : UInt8} (h : IsAddress (trim s.toList) byte.toNat) :
      RendersByte (.string s) byte

inductive Renders : Value → List UInt8 → Prop
  | array {items : List Value} {bytes : List UInt8} (h : List.Forall₂ RendersByte items bytes) :
      Renders (.array items) bytes
  | compact {s : String} (h : Compact s.toList) : Renders (.string s) (compactBytes s.toList)
  | tokens {s : String} {tokens : List Token} (h : Tokens s.toList tokens) :
      Renders (.string s) (tokens.map Token.byte)

/-! What the parser makes of a string. -/

def IsLegal (c : Char) : Prop := isHexdigit c ∨ isSeparator c ∨ c = 'x' ∨ c = 'X'

theorem cleanHex_legal {s : Chars} (h : ∀ c ∈ s, IsLegal c) :
    cleanHex s = .ok (s.filter isHexdigit) := by
  induction s with
  | nil => rfl
  | cons c s ih =>
    rw [List.forall_mem_cons] at h
    rw [cleanHex, ih h.2]
    by_cases hdigit : isHexdigit c = true
    · rw [if_pos hdigit, List.filter_cons_of_pos hdigit]
      rfl
    · have hskip : (isSeparator c || c = 'x' || c = 'X') = true := by
        simpa [or_assoc] using h.1.resolve_left hdigit
      rw [if_neg hdigit, if_pos hskip, List.filter_cons_of_neg hdigit]

theorem cleanHex_illegal {s : Chars} (h : ¬ ∀ c ∈ s, IsLegal c) : ∃ e, cleanHex s = .error e := by
  induction s with
  | nil => simp at h
  | cons c s ih =>
    rw [cleanHex]
    split_ifs with hdigit hskip
    · obtain ⟨e, he⟩ := ih fun hs => h (List.forall_mem_cons.mpr ⟨.inl hdigit, hs⟩)
      exact ⟨e, by rw [he]; rfl⟩
    · have hlegal : IsLegal c := .inr (by simpa [or_assoc] using hskip)
      exact ih fun hs => h (List.forall_mem_cons.mpr ⟨hlegal, hs⟩)
    · exact ⟨_, rfl⟩

theorem pairToByte_eq {pair : Chars} (hlength : pair.length = 2) (hhex : IsHex pair) :
    pairToByte pair = .ok (UInt8.ofNat (hexValue pair)) := by
  have hne : pair ≠ [] := List.ne_nil_of_length_pos (by omega)
  have hsign : ([] : Chars) = [] ∨ ([] : Chars) = ['+'] := .inl rfl
  have hread := u8FromHex_number hsign hne hhex (hexValue_lt (.inr hlength))
  rw [List.nil_append] at hread
  rw [pairToByte, hread]

theorem mapM_pairs {s : Chars} (hhex : IsHex s) (heven : s.length % 2 = 0) :
    (pairs s).mapM pairToByte = .ok (compactBytes s) := by
  rw [mapM_eq_ok, compactBytes, List.forall₂_map_right_iff, List.forall₂_same]
  intro pair hpair
  induction s using pairs.induct with
  | case1 a b rest ih =>
    rcases List.mem_cons.mp hpair with rfl | hpair
    · apply pairToByte_eq rfl
      intro c hc
      apply hhex
      simp only [List.mem_cons, List.not_mem_nil, or_false] at hc ⊢
      tauto
    · apply ih _ _ hpair
      · exact fun c hc => hhex c (by simp [hc])
      · simp only [List.length_cons] at heven
        omega
  | case2 a => simp at heven
  | case3 => simp [pairs] at hpair

theorem hexToBytes_eq_ok {s : Chars} {out : List UInt8} : hexToBytes s = .ok out ↔
    (∀ c ∈ s, IsLegal c) ∧ s.filter isHexdigit ≠ [] ∧ (s.filter isHexdigit).length % 2 = 0 ∧
      compactBytes (s.filter isHexdigit) = out := by
  have hhex : IsHex (s.filter isHexdigit) := fun c hc => (List.mem_filter.mp hc).2
  by_cases hlegal : ∀ c ∈ s, IsLegal c
  · unfold hexToBytes
    rw [cleanHex_legal hlegal]
    simp only [Bind.bind, Except.bind]
    split_ifs with hne hodd
    · exact iff_of_false (fun h => nomatch h) fun h => h.2.1 hne
    · exact iff_of_false (fun h => nomatch h) fun h => hodd h.2.2.1
    · rw [not_not] at hodd
      rw [mapM_pairs hhex hodd, Except.ok.injEq]
      exact ⟨fun h => ⟨hlegal, hne, hodd, h⟩, fun h => h.2.2.2⟩
  · obtain ⟨e, he⟩ := cleanHex_illegal hlegal
    unfold hexToBytes
    rw [he]
    apply iff_of_false
    · exact fun h => nomatch h
    · exact fun h => hlegal h.1

/-! The digits the parser keeps of a text of tokens. -/

/-- What a hex digit of a text of tokens belongs to. -/
inductive Place
  | mark (token : ℕ)
  | digit (token : ℕ)

/-- The hex digits of the tokens from the `i`-th on, those of the prefixes with them. -/
def kept (i : ℕ) : List Token → List (Char × Place)
  | [] => []
  | token :: tokens =>
    (token.mark.filter isHexdigit).map (fun c => (c, .mark i)) ++
      token.digits.map (fun c => (c, .digit i)) ++ kept (i + 1) tokens

/-- Each byte is read off two digits of one token, neither of them its prefix's. -/
inductive ReadOff : List (Char × Place) → List UInt8 → Prop
  | nil : ReadOff [] []
  | byte (c d : Char) (token : ℕ) {rest : List (Char × Place)} {bytes : List UInt8}
      (hrest : ReadOff rest bytes) :
      ReadOff ((c, .digit token) :: (d, .digit token) :: rest)
        (UInt8.ofNat (hexValue [c, d]) :: bytes)

def Token.Plain (token : Token) : Prop := token.mark = [] ∧ token.digits.length = 2

theorem not_hexdigit_of_separator {c : Char} (h : isSeparator c = true) : isHexdigit c = false := by
  simp only [isSeparator, isAsciiWhitespace, Bool.or_eq_true, decide_eq_true_eq, or_assoc] at h
  obtain rfl | rfl | rfl | rfl | rfl | rfl | rfl | rfl | rfl := h <;> rfl

theorem filter_hexdigits {s : Chars} (h : IsHex s) : s.filter isHexdigit = s :=
  List.filter_eq_self.mpr h

theorem Token.filter_text (token : Token) :
    token.text.filter isHexdigit = token.mark.filter isHexdigit ++ token.digits := by
  rw [Token.text, List.filter_append, filter_hexdigits token.isHex]

theorem Tokens.filter {s : Chars} {tokens : List Token} (h : Tokens s tokens) (i : ℕ) :
    s.filter isHexdigit = (kept i tokens).map Prod.fst := by
  induction h generalizing i with
  | one token => simp [kept, token.filter_text, Function.comp_def]
  | @more token separators rest tokens hne hseparators hrest ih =>
    have hnone : separators.filter isHexdigit = [] := by
      rw [List.filter_eq_nil_iff]
      intro c hc
      rw [not_hexdigit_of_separator (hseparators c hc)]
      exact Bool.false_ne_true
    rw [List.filter_append, List.filter_append, hnone, List.append_nil, token.filter_text,
      ih (i + 1), kept]
    simp [Function.comp_def]

theorem Token.legal (token : Token) : ∀ c ∈ token.text, IsLegal c := by
  intro c hc
  rcases List.mem_append.mp hc with hc | hc
  · have hmark := token.mark_mem
    simp only [List.mem_cons, List.not_mem_nil, or_false] at hmark
    obtain h | h | h := hmark
    · rw [h] at hc
      exact absurd hc List.not_mem_nil
    · rw [h] at hc
      obtain rfl | rfl : c = '0' ∨ c = 'x' := by simpa using hc
      · exact .inl rfl
      · exact .inr (.inr (.inl rfl))
    · rw [h] at hc
      obtain rfl | rfl : c = '0' ∨ c = 'X' := by simpa using hc
      · exact .inl rfl
      · exact .inr (.inr (.inr rfl))
  · exact .inl (token.isHex c hc)

theorem Tokens.legal {s : Chars} {tokens : List Token} (h : Tokens s tokens) :
    ∀ c ∈ s, IsLegal c := by
  induction h with
  | one token => exact token.legal
  | more token hne hseparators hrest ih =>
    simp only [List.forall_mem_append]
    exact ⟨⟨token.legal, fun c hc => .inr (.inl (hseparators c hc))⟩, ih⟩

theorem Tokens.cleanHex {s : Chars} {tokens : List Token} (h : Tokens s tokens) :
    Params.cleanHex s = .ok ((kept 0 tokens).map Prod.fst) := by
  rw [cleanHex_legal h.legal, h.filter 0]

theorem ReadOff.eq_compactBytes {digits : List (Char × Place)} {bytes : List UInt8}
    (h : ReadOff digits bytes) : bytes = compactBytes (digits.map Prod.fst) := by
  induction h with
  | nil => rfl
  | byte c d token hrest ih => rw [ih, compactBytes, compactBytes, List.map_cons, List.map_cons,
      pairs, List.map_cons]

theorem readOff_plain {tokens : List Token} (h : ∀ token ∈ tokens, token.Plain) (i : ℕ) :
    ReadOff (kept i tokens) (tokens.map Token.byte) := by
  induction tokens generalizing i with
  | nil => exact .nil
  | cons token tokens ih =>
    obtain ⟨hplain, hrest⟩ := List.forall_mem_cons.mp h
    obtain ⟨hmark, hlength⟩ := hplain
    obtain ⟨c, d, hdigits⟩ := List.length_eq_two.mp hlength
    have hbyte : token.byte = UInt8.ofNat (hexValue [c, d]) := by rw [Token.byte, hdigits]
    change ReadOff _ (token.byte :: tokens.map Token.byte)
    rw [kept, hmark, hdigits, hbyte]
    exact .byte c d i (ih hrest (i + 1))

theorem Token.mark_kept (token : Token) :
    token.mark = [] ∨ token.mark.filter isHexdigit = ['0'] := by
  have hmark := token.mark_mem
  simp only [List.mem_cons, List.not_mem_nil, or_false] at hmark
  obtain h | h | h := hmark
  · exact .inl h
  · exact .inr (by rw [h]; rfl)
  · exact .inr (by rw [h]; rfl)

theorem kept_head {tokens : List Token} {i : ℕ} {c : Char} {place : Place}
    {rest : List (Char × Place)} (h : kept i tokens = (c, place) :: rest) :
    place = .mark i ∨ place = .digit i := by
  cases tokens with
  | nil => exact nomatch h
  | cons token tokens =>
    rw [kept] at h
    rcases token.mark_kept with hmark | hmark
    · rw [hmark] at h
      rcases token.length with hlength | hlength
      · obtain ⟨d, hd⟩ := List.length_eq_one_iff.mp hlength
        simp only [hd, List.filter_nil, List.map_nil, List.map_cons, List.nil_append,
          List.cons_append, List.cons.injEq, Prod.mk.injEq] at h
        exact .inr h.1.2.symm
      · obtain ⟨d, e, hd⟩ := List.length_eq_two.mp hlength
        simp only [hd, List.filter_nil, List.map_nil, List.map_cons, List.nil_append,
          List.cons_append, List.cons.injEq, Prod.mk.injEq] at h
        exact .inr h.1.2.symm
    · simp only [hmark, List.map_nil, List.map_cons, List.cons_append, List.cons.injEq,
        Prod.mk.injEq] at h
      exact .inl h.1.2.symm

theorem plain_of_readOff {tokens : List Token} {bytes : List UInt8} {i : ℕ}
    (h : ReadOff (kept i tokens) bytes) : ∀ token ∈ tokens, token.Plain := by
  induction tokens generalizing i bytes with
  | nil => simp
  | cons token tokens ih =>
    rw [kept] at h
    rcases token.mark_kept with hmark | hmark
    · rw [hmark, List.filter_nil, List.map_nil, List.nil_append] at h
      rcases token.length with hlength | hlength
      · -- the digit of the next token would have to be this one's second
        obtain ⟨c, hdigits⟩ := List.length_eq_one_iff.mp hlength
        rw [hdigits, List.map_singleton, List.singleton_append] at h
        generalize hnext : kept (i + 1) tokens = next at h
        cases h with
        | byte _ d _ hrest =>
          rcases kept_head hnext with hplace | hplace
          · exact nomatch hplace
          · rw [Place.digit.injEq] at hplace
            omega
      · obtain ⟨c, d, hdigits⟩ := List.length_eq_two.mp hlength
        rw [hdigits] at h
        cases h with
        | byte _ _ _ hrest => exact List.forall_mem_cons.mpr ⟨⟨hmark, hlength⟩, ih hrest⟩
    · rw [hmark] at h
      exact nomatch h

/-! What of the renderings is read right. -/

def Refused (s : Chars) : Prop :=
  (¬ ∀ c ∈ s, IsLegal c) ∨ s.filter isHexdigit = [] ∨ (s.filter isHexdigit).length % 2 ≠ 0

/-- The string is refused, or it is a rendering whose tokens are all of two digits and no prefix. -/
def WellPaired (s : Chars) : Prop :=
  Refused s ∨ (Compact s ∨ ∃ tokens, Tokens s tokens) ∧
    ∀ tokens, Tokens s tokens → ∀ token ∈ tokens, token.Plain

/-- Renderings are read as their bytes, a string that is none is rejected, and what is left of a
text of tokens for pairing gives each byte two digits of one token. -/
structure Exact (debug : String → String) (value : Value) : Prop where
  exact : ∀ bytes, bytes ≠ [] → Renders value bytes →
    ∀ out, valueToBytes debug value = .ok out → out = bytes
  strict : ∀ s, value = .string s → (¬ ∃ bytes, Renders value bytes) →
    ∃ e, valueToBytes debug value = .error e
  own : ∀ s tokens, value = .string s → Tokens s.toList tokens →
    ∀ out, valueToBytes debug value = .ok out →
      cleanHex s.toList = .ok ((kept 0 tokens).map Prod.fst) ∧ ReadOff (kept 0 tokens) out

theorem refused_error {s : Chars} (h : Refused s) : ∃ e, hexToBytes s = .error e := by
  cases hread : hexToBytes s with
  | error e => exact ⟨e, rfl⟩
  | ok out =>
    obtain ⟨hlegal, hne, heven, -⟩ := hexToBytes_eq_ok.mp hread
    rcases h with h | h | h
    · exact absurd hlegal h
    · exact absurd h hne
    · exact absurd heven h

theorem exact_string_iff (debug : String → String) (s : String) :
    Exact debug (.string s) ↔ WellPaired s.toList := by
  constructor
  · intro h
    by_cases hrefused : Refused s.toList
    · exact .inl hrefused
    · right
      rw [Refused, not_or, not_or, not_not, not_not] at hrefused
      obtain ⟨hlegal, hne, heven⟩ := hrefused
      have hread : valueToBytes debug (.string s) = .ok (compactBytes (s.toList.filter isHexdigit)) :=
        hexToBytes_eq_ok.mpr ⟨hlegal, hne, heven, rfl⟩
      constructor
      · by_contra hnone
        obtain ⟨e, he⟩ := h.strict s rfl fun hrenders => by
          obtain ⟨bytes, hrenders⟩ := hrenders
          cases hrenders with
          | compact hcompact => exact hnone (.inl hcompact)
          | tokens htokens => exact hnone (.inr ⟨_, htokens⟩)
        rw [hread] at he
        cases he
      · intro tokens htokens
        exact plain_of_readOff (h.own s tokens rfl htokens _ hread).2
  · rintro (hrefused | ⟨hgrammar, hplain⟩)
    · obtain ⟨e, he⟩ := refused_error hrefused
      have herror : valueToBytes debug (.string s) = .error e := he
      refine ⟨fun bytes _ _ out hout => ?_, fun _ _ _ => ⟨e, herror⟩, fun _ _ _ _ out hout => ?_⟩
      · rw [herror] at hout
        cases hout
      · rw [herror] at hout
        cases hout
    · have hown {tokens : List Token} (htokens : Tokens s.toList tokens) {out : List UInt8}
          (hout : valueToBytes debug (.string s) = .ok out) :
          ReadOff (kept 0 tokens) out ∧ out = tokens.map Token.byte := by
        obtain ⟨-, -, -, hread⟩ := hexToBytes_eq_ok.mp hout
        have hplain := readOff_plain (hplain tokens htokens) 0
        have hbytes : out = tokens.map Token.byte := by
          rw [← hread, hplain.eq_compactBytes, htokens.filter 0]
        exact ⟨hbytes ▸ hplain, hbytes⟩
      refine ⟨?_, ?_, ?_⟩
      · intro bytes _ hrenders out hout
        cases hrenders with
        | compact hcompact =>
          obtain ⟨-, -, -, rfl⟩ := hexToBytes_eq_ok.mp hout
          rw [filter_hexdigits hcompact.isHex]
        | tokens htokens => exact (hown htokens hout).2
      · intro _ _ hnone
        apply absurd _ hnone
        rcases hgrammar with hcompact | ⟨tokens, htokens⟩
        · exact ⟨_, .compact hcompact⟩
        · exact ⟨_, .tokens htokens⟩
      · intro _ tokens hs htokens out hout
        cases hs
        exact ⟨htokens.cleanHex, (hown htokens hout).1⟩

theorem byteInRange_toNat (byte : UInt8) : byteInRange byte.toNat = .ok byte := by
  have hlt := byte.toNat_lt
  rw [byteInRange, if_neg (by omega), UInt8.ofNat_toNat]

theorem RendersByte.element {debug : String → String} {value : Value} {byte : UInt8}
    (h : RendersByte value byte) : elementToByte debug value = .ok byte := by
  cases h with
  | number h =>
    rw [elementToByte, numberToByte, h]
    exact byteInRange_toNat byte
  | @string s byte h =>
    have hlt := byte.toNat_lt
    have hvalue : ((Fin.ofNat _ byte.toNat : Address) : ℕ) = byte.toNat :=
      Nat.mod_eq_of_lt (by omega)
    have hread : parseAddress debug s = .ok (Fin.ofNat _ byte.toNat) := by
      rw [parseAddress_eq_ok, hvalue]
      exact h.bare
    rw [elementToByte, hread]
    change byteInRange ((Fin.ofNat _ byte.toNat : Address) : ℕ) = .ok byte
    rw [hvalue, byteInRange_toNat]

/-- The bytes read are those written, and each off its own token, where no prefix and no single
digit shifts the pairs. -/
theorem bytes_exact_iff (debug : String → String) (value : Value) :
    Exact debug value ↔ ∀ s, value = .string s → WellPaired s.toList := by
  cases value with
  | string s =>
    rw [exact_string_iff]
    exact ⟨fun h s' hs => by cases hs; exact h, fun h => h s rfl⟩
  | array items =>
    refine iff_of_true ⟨?_, fun _ hs => (nomatch hs), fun _ _ hs => (nomatch hs)⟩
      fun _ hs => (nomatch hs)
    intro bytes hne hrenders out hout
    cases hrenders with
    | array hitems =>
      have hread : items.mapM (elementToByte debug) = .ok bytes :=
        mapM_eq_ok.mpr (hitems.imp fun _ _ h => h.element)
      simp only [valueToBytes, hread, Bind.bind, Except.bind, if_neg hne, Except.ok.injEq] at hout
      exact hout.symm
  | null | bool | number | object =>
    exact iff_of_true
      ⟨fun _ _ hrenders => (nomatch hrenders), fun _ hs => (nomatch hs), fun _ _ hs => (nomatch hs)⟩
      fun _ hs => (nomatch hs)

def prefixed (high low : Char) (hhigh : isHexdigit high = true) (hlow : isHexdigit low = true) : Token where
  mark := ['0', 'x']
  digits := [high, low]
  mark_mem := by simp
  length := .inr rfl
  isHex := by
    intro c hc
    simp only [List.mem_cons, List.not_mem_nil, or_false] at hc
    rcases hc with rfl | rfl
    · exact hhigh
    · exact hlow

/-- The zeros of two prefixes are taken for digits. -/
theorem prefixes_misread : valueToBytes id (.string "0x41 0x42") = .ok [0x04, 0x10, 0x42] ∧
    Renders (.string "0x41 0x42") [0x41, 0x42] ∧ ¬ Exact id (.string "0x41 0x42") := by
  have hread : valueToBytes id (.string "0x41 0x42") = .ok [0x04, 0x10, 0x42] := by decide
  have hspace : ∀ c ∈ [' '], isSeparator c = true := by
    intro c hc
    rw [List.mem_singleton.mp hc]
    rfl
  have htokens : Tokens "0x41 0x42".toList [prefixed '4' '1' rfl rfl, prefixed '4' '2' rfl rfl] := by
    have hmore := Tokens.more (prefixed '4' '1' rfl rfl) (List.cons_ne_nil _ _) hspace
      (.one (prefixed '4' '2' rfl rfl))
    simpa [prefixed, Token.text] using hmore
  have hrenders : Renders (.string "0x41 0x42") [0x41, 0x42] := .tokens htokens
  refine ⟨hread, hrenders, fun h => ?_⟩
  exact absurd (h.exact _ (by decide) hrenders _ hread) (by decide)

end IdaMcp.Params
