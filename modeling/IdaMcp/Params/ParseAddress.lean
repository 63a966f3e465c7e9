import IdaMcp.ControlFlow.Calls

namespace IdaMcp.Params

open Foundation Text Radix Callgraph

def describeBadAddress (debug : String → String) (original : Chars) : String :=
  let looksLikeSymbol := original.head?.any (fun c => c.isAlpha || c = '_') &&
    !(['0', 'x'].isPrefixOf original) && !(['0', 'X'].isPrefixOf original)
  if looksLikeSymbol then
    debug (String.ofList original) ++ " is a symbol name, not an address; pass a hex address such as " ++
      "0x100000660, or give the name to a tool's target_name/name parameter, or " ++
      "resolve it first with resolve_function"
  else debug (String.ofList original) ++
    " is not a hex (0x...), decimal, octal (0o...), or binary (0b...) address"

/-- The parser of the server, where `parse_address_str` is that of the handlers. -/
def parseAddress (debug : String → String) (s : String) : Except ToolError Address :=
  let original := trim s.toList
  let digits := original.filter (· ≠ '_')
  match fromStrRadix (splitRadix digits).1 (2 ^ 64) (splitRadix digits).2 with
  | some n => .ok (Fin.ofNat _ n)
  | none => .error (.invalidAddress (describeBadAddress debug original))

/-! What an address is. -/

structure IsSeparated (radix : ℕ) (text : Chars) (n : ℕ) : Prop where
  first : text.head? ≠ some '_'
  last : text.getLast? ≠ some '_'
  digits : IsNumeral radix (2 ^ 64) (text.filter (· ≠ '_')) n

inductive IsAddress : Chars → ℕ → Prop
  | hex {x : Char} {digits : Chars} {n : ℕ} (hx : x = 'x' ∨ x = 'X')
      (h : IsSeparated 16 digits n) : IsAddress ('0' :: x :: digits) n
  | binary {b : Char} {digits : Chars} {n : ℕ} (hb : b = 'b' ∨ b = 'B')
      (h : IsSeparated 2 digits n) : IsAddress ('0' :: b :: digits) n
  | octal {o : Char} {digits : Chars} {n : ℕ} (ho : o = 'o' ∨ o = 'O')
      (h : IsSeparated 8 digits n) : IsAddress ('0' :: o :: digits) n
  | decimal {digits : Chars} {n : ℕ} (h : IsSeparated 10 digits n) : IsAddress digits n

def bare (text : Chars) : ℕ × Chars :=
  let split := splitRadix (text.filter (· ≠ '_'))
  (split.1, dropPlus split.2)

/-- There is no underscore, and no plus sign before the digits. -/
def Unadorned (text : Chars) : Prop :=
  '_' ∉ text ∧ (splitRadix text).2.head? ≠ some '+'

def IsBareNumeral (text : Chars) (n : ℕ) : Prop := IsNumeral (bare text).1 (2 ^ 64) (bare text).2 n

theorem splitRadix_cases (text : Chars) :
    (∃ x, (x = 'x' ∨ x = 'X') ∧ text = '0' :: x :: (splitRadix text).2 ∧ (splitRadix text).1 = 16) ∨
    (∃ b, (b = 'b' ∨ b = 'B') ∧ text = '0' :: b :: (splitRadix text).2 ∧ (splitRadix text).1 = 2) ∨
    (∃ o, (o = 'o' ∨ o = 'O') ∧ text = '0' :: o :: (splitRadix text).2 ∧ (splitRadix text).1 = 8) ∨
    splitRadix text = (10, text) := by
  unfold splitRadix
  split
  all_goals simp

theorem not_decimal {c : Char} (h : c ∈ ['x', 'X', 'b', 'B', 'o', 'O']) :
    (digit 10 c).isSome = false := by
  have hletters : ∀ c ∈ ['x', 'X', 'b', 'B', 'o', 'O'], (digit 10 c).isSome = false := by
    simp [digit, hexDigit]
  exact hletters c h

theorem splitRadix_decimal {text : Chars} (h : ∀ c ∈ text, (digit 10 c).isSome) :
    splitRadix text = (10, text) := by
  have hnot (c : Char) (rest : Chars) (hc : c ∈ ['x', 'X', 'b', 'B', 'o', 'O'])
      (htext : text = '0' :: c :: rest) : False := by
    have hsome := h c (htext ▸ List.mem_cons_of_mem _ List.mem_cons_self)
    rw [not_decimal hc] at hsome
    contradiction
  obtain ⟨x, hx, htext, -⟩ | ⟨b, hb, htext, -⟩ | ⟨o, ho, htext, -⟩ | hdecimal := splitRadix_cases text
  · rcases hx with rfl | rfl <;> exact (hnot _ _ (by simp) htext).elim
  · rcases hb with rfl | rfl <;> exact (hnot _ _ (by simp) htext).elim
  · rcases ho with rfl | rfl <;> exact (hnot _ _ (by simp) htext).elim
  · exact hdecimal

theorem digit_ne {radix : ℕ} {c : Char} (h : (digit radix c).isSome) : c ≠ '_' ∧ c ≠ '+' ∧ c ≠ '-' := by
  refine ⟨?_, ?_, ?_⟩ <;>
  · rintro rfl
    exact absurd h (by rw [digit, show hexDigit _ = none from rfl]; simp)

theorem splitRadix_pos (text : Chars) : 0 < (splitRadix text).1 := by
  obtain ⟨_, _, _, h⟩ | ⟨_, _, _, h⟩ | ⟨_, _, _, h⟩ | h := splitRadix_cases text <;> simp [h]

theorem mem_splitRadix {text : Chars} {c : Char} (h : c ∈ (splitRadix text).2) : c ∈ text := by
  obtain ⟨_, _, htext, _⟩ | ⟨_, _, htext, _⟩ | ⟨_, _, htext, _⟩ | htext := splitRadix_cases text
  · rw [htext]
    simp [h]
  · rw [htext]
    simp [h]
  · rw [htext]
    simp [h]
  · rwa [htext] at h

theorem filter_eq_self {text : Chars} (h : '_' ∉ text) : text.filter (· ≠ '_') = text := by
  rw [List.filter_eq_self]
  intro c hc
  simpa using fun heq : c = '_' => h (heq ▸ hc)

theorem dropPlus_numeral {radix limit n : ℕ} {digits : Chars} (h : IsNumeral radix limit digits n) :
    dropPlus digits = digits := by
  apply dropPlus_eq_self
  intro hhead
  exact (digit_ne (h.isSome _ (List.mem_of_mem_head? hhead))).2.1 rfl

theorem IsSeparated.of_numeral {radix n : ℕ} {digits : Chars} (hplain : '_' ∉ digits)
    (h : IsNumeral radix (2 ^ 64) digits n) : IsSeparated radix digits n where
  first := fun hfirst => hplain (List.mem_of_mem_head? hfirst)
  last := fun hlast => hplain (List.mem_of_mem_getLast? hlast)
  digits := by rwa [filter_eq_self hplain]

theorem IsSeparated.unsigned {radix n : ℕ} {digits : Chars} (h : IsSeparated radix digits n) :
    ∀ c ∈ digits, c ≠ '+' ∧ c ≠ '-' := by
  intro c hc
  by_cases hunderscore : c = '_'
  · rw [hunderscore]
    decide
  · exact (digit_ne (h.digits.isSome c (List.mem_filter.mpr ⟨hc, by simpa using hunderscore⟩))).2

theorem IsAddress.unsigned {text : Chars} {n : ℕ} (h : IsAddress text n) :
    ∀ c ∈ text, c ≠ '+' ∧ c ≠ '-' := by
  have hmarked (m : Char) (digits : Chars) (hm : m ≠ '+' ∧ m ≠ '-')
      (hdigits : ∀ c ∈ digits, c ≠ '+' ∧ c ≠ '-') : ∀ c ∈ '0' :: m :: digits, c ≠ '+' ∧ c ≠ '-' := by
    intro c hc
    obtain rfl | rfl | hc := by simpa using hc
    · decide
    · exact hm
    · exact hdigits c hc
  cases h with
  | hex hx h => exact hmarked _ _ (by rcases hx with rfl | rfl <;> decide) h.unsigned
  | binary hb h => exact hmarked _ _ (by rcases hb with rfl | rfl <;> decide) h.unsigned
  | octal ho h => exact hmarked _ _ (by rcases ho with rfl | rfl <;> decide) h.unsigned
  | decimal h => exact h.unsigned

theorem IsAddress.bare {text : Chars} {n : ℕ} (h : IsAddress text n) : IsBareNumeral text n := by
  have hprefixed (m : Char) (digits : Chars) (radix : ℕ) (hseparated : IsSeparated radix digits n)
      (hm : m ≠ '_') (hsplit : ∀ rest, splitRadix ('0' :: m :: rest) = (radix, rest)) :
      IsBareNumeral ('0' :: m :: digits) n := by
    have hfilter : ('0' :: m :: digits).filter (· ≠ '_') = '0' :: m :: digits.filter (· ≠ '_') := by
      simp [hm]
    rw [IsBareNumeral, Params.bare, hfilter, hsplit]
    dsimp only
    rw [dropPlus_numeral hseparated.digits]
    exact hseparated.digits
  cases h with
  | hex hx h => rcases hx with rfl | rfl <;> exact hprefixed _ _ _ h (by decide) fun _ => rfl
  | binary hb h => rcases hb with rfl | rfl <;> exact hprefixed _ _ _ h (by decide) fun _ => rfl
  | octal ho h => rcases ho with rfl | rfl <;> exact hprefixed _ _ _ h (by decide) fun _ => rfl
  | decimal h =>
    rw [IsBareNumeral, Params.bare, splitRadix_decimal h.digits.isSome]
    dsimp only
    rw [dropPlus_numeral h.digits]
    exact h.digits

theorem Unadorned.bare_eq {text : Chars} (h : Unadorned text) : bare text = splitRadix text := by
  rw [bare, filter_eq_self h.1, dropPlus_eq_self h.2]

theorem Unadorned.isAddress {text : Chars} {n : ℕ} (h : Unadorned text)
    (hnumeral : IsBareNumeral text n) : IsAddress text n := by
  rw [IsBareNumeral, h.bare_eq] at hnumeral
  have hplain : '_' ∉ (splitRadix text).2 := fun hmem => h.1 (mem_splitRadix hmem)
  have hseparated := IsSeparated.of_numeral hplain hnumeral
  obtain ⟨x, hx, htext, hradix⟩ | ⟨b, hb, htext, hradix⟩ | ⟨o, ho, htext, hradix⟩ | htext :=
    splitRadix_cases text
  · rw [htext]
    exact .hex hx (hradix ▸ hseparated)
  · rw [htext]
    exact .binary hb (hradix ▸ hseparated)
  · rw [htext]
    exact .octal ho (hradix ▸ hseparated)
  · rw [htext] at hseparated
    exact .decimal hseparated

theorem underscore_mem {text : Chars} (h : '_' ∈ text) : '_' ∈ dropPlus (splitRadix text).2 := by
  have hdigits : '_' ∈ (splitRadix text).2 := by
    obtain ⟨_, hm, htext, _⟩ | ⟨_, hm, htext, _⟩ | ⟨_, hm, htext, _⟩ | htext := splitRadix_cases text
    · rw [htext] at h
      rcases hm with rfl | rfl <;> simpa using h
    · rw [htext] at h
      rcases hm with rfl | rfl <;> simpa using h
    · rw [htext] at h
      rcases hm with rfl | rfl <;> simpa using h
    · rwa [htext]
  unfold dropPlus
  split
  · rename_i hplus
    rw [hplus] at hdigits
    simpa using hdigits
  · exact hdigits

/-! What the parsers read. -/

theorem ofNat_eq_ok {n : ℕ} (hn : n < 2 ^ 64) {a : Address} :
    (Except.ok (Fin.ofNat _ n) : Except ToolError Address) = .ok a ↔ n = a := by
  rw [Except.ok.injEq, Fin.ext_iff, Fin.val_ofNat, Nat.mod_eq_of_lt hn]

theorem parseAddress_eq_ok {debug : String → String} {s : String} {a : Address} :
    parseAddress debug s = .ok a ↔ IsBareNumeral (trim s.toList) a := by
  have hlimit : 0 < 2 ^ 64 := by decide
  unfold parseAddress
  dsimp only
  rw [IsBareNumeral, bare]
  dsimp only
  rw [← fromStrRadix_eq_some (splitRadix_pos _) hlimit]
  split
  · rename_i n hread
    have hlt := ((fromStrRadix_eq_some (splitRadix_pos _) hlimit).mp hread).lt
    rw [ofNat_eq_ok hlt, hread, Option.some_inj]
  · rename_i hread
    rw [hread]
    simp

theorem parseAddressStr_eq_ok {s : String} {a : Address} :
    parseAddressStr s = .ok a ↔ '_' ∉ trim s.toList ∧ IsBareNumeral (trim s.toList) a := by
  have hlimit : 0 < 2 ^ 64 := by decide
  have hread : parseAddressStr s = .ok a ↔ IsNumeral (splitRadix (trim s.toList)).1 (2 ^ 64)
      (dropPlus (splitRadix (trim s.toList)).2) a := by
    unfold parseAddressStr
    dsimp only
    rw [← fromStrRadix_eq_some (splitRadix_pos _) hlimit]
    split
    · rename_i n hread
      have hlt := ((fromStrRadix_eq_some (splitRadix_pos _) hlimit).mp hread).lt
      rw [ofNat_eq_ok hlt, hread, Option.some_inj]
    · rename_i hread
      rw [hread]
      simp
  rw [hread]
  by_cases hplain : '_' ∈ trim s.toList
  · apply iff_of_false
    · intro hnumeral
      exact (digit_ne (hnumeral.isSome _ (underscore_mem hplain))).1 rfl
    · exact fun h => h.1 hplain
  · rw [IsBareNumeral, bare, filter_eq_self hplain]
    exact ⟨fun h => ⟨hplain, h⟩, fun h => h.2⟩

structure ParsedExactly (debug : String → String) (s : String) : Prop where
  alike : ∀ a, parseAddress debug s = .ok a ↔ parseAddressStr s = .ok a
  server : ∀ a : Address, parseAddress debug s = .ok a ↔ IsAddress (trim s.toList) a
  handlers : ∀ a : Address, parseAddressStr s = .ok a ↔ IsAddress (trim s.toList) a
  unsigned : (∃ a, parseAddress debug s = .ok a) → ∀ c ∈ trim s.toList, c ≠ '+' ∧ c ≠ '-'

theorem parsedExactly_iff (debug : String → String) (s : String) : ParsedExactly debug s ↔
    Unadorned (trim s.toList) ∨ ¬ ∃ n, IsBareNumeral (trim s.toList) n := by
  constructor
  · intro h
    by_contra hcondition
    rw [not_or, not_not] at hcondition
    obtain ⟨hadorned, n, hnumeral⟩ := hcondition
    have hvalue : ((Fin.ofNat _ n : Address) : ℕ) = n := Nat.mod_eq_of_lt hnumeral.lt
    have hserver : parseAddress debug s = .ok (Fin.ofNat _ n) := by
      rwa [parseAddress_eq_ok, hvalue]
    have hplain := (parseAddressStr_eq_ok.mp ((h.alike _).mp hserver)).1
    apply hadorned
    refine ⟨hplain, fun hplus => ?_⟩
    have hmem := mem_splitRadix (List.mem_of_mem_head? hplus)
    exact (h.unsigned ⟨_, hserver⟩ _ hmem).1 rfl
  · intro hcondition
    have hserver (a : Address) : parseAddress debug s = .ok a ↔ IsAddress (trim s.toList) a := by
      rw [parseAddress_eq_ok]
      constructor
      · intro hnumeral
        rcases hcondition with hplain | hnone
        · exact hplain.isAddress hnumeral
        · exact absurd ⟨_, hnumeral⟩ hnone
      · exact fun haddress => haddress.bare
    have halike (a : Address) : parseAddress debug s = .ok a ↔ parseAddressStr s = .ok a := by
      rw [parseAddress_eq_ok, parseAddressStr_eq_ok]
      constructor
      · intro hnumeral
        rcases hcondition with hplain | hnone
        · exact ⟨hplain.1, hnumeral⟩
        · exact absurd ⟨_, hnumeral⟩ hnone
      · exact fun h => h.2
    refine ⟨halike, hserver, fun a => (halike a).symm.trans (hserver a), ?_⟩
    rintro ⟨a, ha⟩
    exact ((hserver a).mp ha).unsigned

/-! What the tools print. -/

def renderings (a : ℕ) : List String :=
  [hexText a, String.ofList (Nat.toDigits 10 a), "0o" ++ String.ofList (Nat.toDigits 8 a),
    "0b" ++ String.ofList (Nat.toDigits 2 a)]

theorem isNumeral_toDigits {base : ℕ} (hbase : 1 < base) (h16 : base ≤ 16) (a : Address) :
    IsNumeral base (2 ^ 64) (Nat.toDigits base a) a := by
  have hlimit : 0 < 2 ^ 64 := by decide
  rw [← dropPlus_toDigits hbase h16, ← fromStrRadix_eq_some (by omega) hlimit,
    fromStrRadix_toDigits hbase h16, if_pos a.isLt]

theorem read_back {debug : String → String} {s : String} {base : ℕ} {a : Address} (mark : Chars)
    (hbase : 1 < base) (h16 : base ≤ 16) (hs : s.toList = mark ++ Nat.toDigits base a)
    (hmark : IsPlain mark) (hunderscore : '_' ∉ mark)
    (hsplit : splitRadix (mark ++ Nat.toDigits base a) = (base, Nat.toDigits base a)) :
    parseAddress debug s = .ok a ∧ parseAddressStr s = .ok a := by
  have hnumeral := isNumeral_toDigits hbase h16 a
  have htrim : trim s.toList = mark ++ Nat.toDigits base a := by
    rw [hs]
    exact (hmark.append (isPlain_toDigits hbase h16 a)).trim_eq
  have hplain : '_' ∉ trim s.toList := by
    rw [htrim, List.mem_append, not_or]
    exact ⟨hunderscore, fun hmem => (digit_ne (hnumeral.isSome _ hmem)).1 rfl⟩
  have hbare : IsBareNumeral (trim s.toList) a := by
    rw [IsBareNumeral, bare, filter_eq_self hplain, htrim, hsplit]
    dsimp only
    rwa [dropPlus_numeral hnumeral]
  exact ⟨parseAddress_eq_ok.mpr hbare, parseAddressStr_eq_ok.mpr ⟨hplain, hbare⟩⟩

theorem renderings_read_back (debug : String → String) (a : Address) :
    ∀ s ∈ renderings a, parseAddress debug s = .ok a ∧ parseAddressStr s = .ok a := by
  intro s hs
  simp only [renderings, List.mem_cons, List.not_mem_nil, or_false] at hs
  rcases hs with rfl | rfl | rfl | rfl
  · apply read_back ['0', 'x'] (show 1 < 16 by decide) (by decide) _ (by decide) (by decide) rfl
    simp [hexText]
  · apply read_back [] (show 1 < 10 by decide) (by decide) _ (by decide) (by decide)
    · exact splitRadix_decimal (isNumeral_toDigits (by decide) (by decide) a).isSome
    · simp
  · apply read_back ['0', 'o'] (show 1 < 8 by decide) (by decide) _ (by decide) (by decide) rfl
    simp
  · apply read_back ['0', 'b'] (show 1 < 2 by decide) (by decide) _ (by decide) (by decide) rfl
    simp

/-- The parsers are exact where nothing adorns a number, and read back every printed address. -/
theorem addresses_parsed (debug : String → String) :
    (∀ s, ParsedExactly debug s ↔
      Unadorned (trim s.toList) ∨ ¬ ∃ n, IsBareNumeral (trim s.toList) n) ∧
    ∀ a : Address, ∀ s ∈ renderings a, parseAddress debug s = .ok a ∧ parseAddressStr s = .ok a :=
  ⟨parsedExactly_iff debug, renderings_read_back debug⟩

/-- Only the server takes separators, and both take a plus sign. -/
theorem separated_and_signed :
    ¬ ParsedExactly id "0x1000_0660" ∧ ¬ ParsedExactly id "+5" := by
  constructor
  · intro h
    have hserver : parseAddress id "0x1000_0660" = .ok 0x10000660 := by decide
    exact absurd ((h.alike _).mp hserver) (by decide)
  · intro h
    have hserver : parseAddress id "+5" = .ok 5 := by decide
    exact (h.unsigned ⟨5, hserver⟩ '+' (by decide)).1 rfl

end IdaMcp.Params
