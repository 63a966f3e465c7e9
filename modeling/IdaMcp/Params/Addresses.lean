import IdaMcp.Foundation.Delimited
import IdaMcp.Params.Fields
import IdaMcp.Params.ParseAddress

namespace IdaMcp.Params

open Foundation Text Radix Callgraph

structure JsonTexts where
  read : String → Option Value
  float : UInt64 → String

def JsonTexts.number (json : JsonTexts) : Number → String
  | .posInt n => String.ofList (Nat.toDigits 10 n.toNat)
  | .negInt n => String.ofList ('-' :: Nat.toDigits 10 n.toInt.natAbs)
  | .float bits => json.float bits

variable (json : JsonTexts) (debug : String → String)

def elementToString : Value → Except ToolError String
  | .string s => .ok s
  | .number n => .ok (json.number n)
  | _ => .error (.idaError "expected string or number")

def jsonArray (trimmed : Chars) : Option (List Value) :=
  if trimmed.head? = some '[' then (json.read (String.ofList trimmed)).bind Value.asArray else none

def commaList (trimmed : Chars) : List Chars := ((trimmed.splitOn ',').map trim).filter (· ≠ [])

def stringToStrings (trimmed : Chars) : Except ToolError (List String) :=
  match jsonArray json trimmed with
  | some items => items.mapM (elementToString json)
  | none =>
    if ',' ∈ trimmed then .ok ((commaList trimmed).map String.ofList)
    else if trimmed = [] then .error (.idaError "empty string")
    else .ok [String.ofList trimmed]

def valueToStrings : Value → Except ToolError (List String)
  | .string s => stringToStrings json (trim s.toList)
  | .number n => .ok [json.number n]
  | .array items => items.mapM (elementToString json)
  | _ => .error (.idaError "expected string, number, or array")

def valueToAddresses (value : Value) : Except ToolError (List Address) := do
  let strings ← valueToStrings json value
  if strings = [] then .error (.invalidAddress "no addresses provided")
  else strings.mapM (parseAddress debug)

def valueToExactlyOneAddress (value : Value) (fieldName : String) : Except ToolError Address := do
  match ← valueToAddresses json debug value with
  | [address] => pure address
  | many => throw (.invalidParams (fieldName ++ " must contain exactly one address, got " ++ toString many.length ++
      "; this tool handles one address per call"))

def mutationTargetAddress (address : Option Value) (name : Option String) (nameField : String) :
    Except ToolError (Option Address) :=
  match address, name with
  | some _, some _ => .error (.invalidParams ("pass either address or " ++ nameField ++ " for the target, not both"))
  | none, none => .error (.invalidParams ("pass address or " ++ nameField ++ " for the target"))
  | some value, none => (valueToExactlyOneAddress json debug value "address").map some
  | none, some name => if name = "" then .error (.invalidParams (nameField ++ " must not be empty")) else .ok none

/-! What the values name. -/

inductive NamesOne : Value → Address → Prop
  | number {n : UInt64} {a : Address} (h : (a : ℕ) = n.toNat) : NamesOne (.number (.posInt n)) a
  | string {s : String} {a : Address} (h : IsBareNumeral (trim s.toList) a) : NamesOne (.string s) a

inductive Names : Value → List Address → Prop
  | number {n : UInt64} {a : Address} (h : (a : ℕ) = n.toNat) : Names (.number (.posInt n)) [a]
  | array {items : List Value} {as : List Address} (hne : as ≠ []) (h : List.Forall₂ NamesOne items as) :
    Names (.array items) as
  | json {s : String} {items : List Value} {as : List Address} (hread : jsonArray json (trim s.toList) = some items)
    (hne : as ≠ []) (h : List.Forall₂ NamesOne items as) : Names (.string s) as
  | list {s : String} {as : List Address} (hread : jsonArray json (trim s.toList) = none)
    (hcomma : ',' ∈ trim s.toList) (hne : as ≠ [])
    (h : List.Forall₂ (fun entry (a : Address) => IsBareNumeral entry a) (commaList (trim s.toList)) as) :
    Names (.string s) as
  | single {s : String} {a : Address} (hread : jsonArray json (trim s.toList) = none)
    (hcomma : ',' ∉ trim s.toList) (h : IsBareNumeral (trim s.toList) a) : Names (.string s) [a]

/-- Floats are printed with a point or an exponent. -/
def PrintsFloats : Prop :=
  ∀ bits, (∀ c ∈ (json.float bits).toList, (digit 10 c).isSome ∨ c ∈ ['-', '+', '.', 'e']) ∧
    ∃ c ∈ (json.float bits).toList, c = '.' ∨ c = 'e'

variable {json debug}

/-! Texts that are no numbers. -/

theorem mem_dropPlus {s : Chars} {c : Char} (hc : c ∈ s) (hplus : c ≠ '+') : c ∈ dropPlus s := by
  unfold dropPlus
  split
  · exact (List.mem_cons.mp hc).resolve_left hplus
  · exact hc

theorem not_bare {t : Chars} (hplain : ∀ c ∈ t, c ∉ ['x', 'X', 'b', 'B', 'o', 'O'] ∧ isWhitespace c = false)
    {c : Char} (hc : c ∈ t) (hdigit : digit 10 c = none) (hplus : c ≠ '+' ∧ c ≠ '_') (n : ℕ) :
    ¬ IsBareNumeral (trim t) n := by
  have htrim : trim t = t := by
    apply trim_eq_self
    · exact fun c hc => (hplain c (List.mem_of_mem_head? hc)).2
    · exact fun c hc => (hplain c (List.mem_of_mem_getLast? hc)).2
  have hkept : c ∈ t.filter (· ≠ '_') := List.mem_filter.mpr ⟨hc, decide_eq_true hplus.2⟩
  intro h
  rw [IsBareNumeral, bare, htrim] at h
  dsimp only at h
  have hfree (x : Char) (hx : x ∈ ['x', 'X', 'b', 'B', 'o', 'O']) (rest : Chars) :
      t.filter (· ≠ '_') ≠ '0' :: x :: rest := by
    intro heq
    have hmem : x ∈ t.filter (· ≠ '_') := by
      rw [heq]
      simp
    exact (hplain x (List.mem_filter.mp hmem).1).1 hx
  obtain ⟨x, hx, heq, -⟩ | ⟨x, hx, heq, -⟩ | ⟨x, hx, heq, -⟩ | heq := splitRadix_cases (t.filter (· ≠ '_'))
  · exact hfree x (by obtain rfl | rfl := hx <;> simp) _ heq
  · exact hfree x (by obtain rfl | rfl := hx <;> simp) _ heq
  · exact hfree x (by obtain rfl | rfl := hx <;> simp) _ heq
  · rw [heq] at h
    have hsome := h.isSome c (mem_dropPlus hkept hplus.1)
    rw [hdigit] at hsome
    cases hsome

theorem decimal_bounds {c : Char} (h : (digit 10 c).isSome) : 48 ≤ c.toNat ∧ c.toNat ≤ 57 := by
  have hle (a b : Char) : a ≤ b ↔ a.toNat ≤ b.toNat := Iff.rfl
  have h0 : '0'.toNat = 48 := rfl
  have h9 : '9'.toNat = 57 := rfl
  rw [digit, hexDigit] at h
  split_ifs at h with hdecimal
  · rwa [hle, hle, h0, h9] at hdecimal
  all_goals simp at h

theorem decimal_plain {c : Char} (h : (digit 10 c).isSome) :
    c ∉ ['x', 'X', 'b', 'B', 'o', 'O'] ∧ isWhitespace c = false := by
  constructor
  · intro hmem
    rw [not_decimal hmem] at h
    cases h
  · have hbounds := decimal_bounds h
    simp only [isWhitespace, Bool.or_eq_false_iff, Bool.and_eq_false_iff, decide_eq_false_iff_not, beq_eq_false_iff_ne]
    omega

theorem parse_number (n : UInt64) (a : Address) :
    parseAddress debug (json.number (.posInt n)) = .ok a ↔ (a : ℕ) = n.toNat := by
  have hmem : json.number (.posInt n) ∈ renderings (⟨n.toNat, n.toNat_lt⟩ : Address) := by
    simp [renderings, JsonTexts.number]
  rw [(renderings_read_back debug ⟨n.toNat, n.toNat_lt⟩ _ hmem).1, Except.ok.injEq, Fin.ext_iff]
  exact eq_comm

theorem decimal_toDigits {n : ℕ} {c : Char} (hc : c ∈ Nat.toDigits 10 n) : (digit 10 c).isSome := by
  obtain ⟨d, hd, rfl⟩ := exists_digit_of_mem_toDigits (by decide) hc
  rw [digit_digitChar (by decide) hd]
  rfl

theorem parse_signed (hfloat : PrintsFloats json) {n : Number} (hn : n.asU64 = none) (a : Address) :
    parseAddress debug (json.number n) ≠ .ok a := by
  rw [Ne, parseAddress_eq_ok]
  cases n with
  | posInt n => cases hn
  | negInt n =>
    have htext : (json.number (.negInt n)).toList = '-' :: Nat.toDigits 10 n.toInt.natAbs := by
      simp [JsonTexts.number]
    rw [htext]
    apply not_bare (c := '-') _ List.mem_cons_self rfl (by decide)
    intro c hc
    obtain rfl | hc := List.mem_cons.mp hc
    · decide
    · exact decimal_plain (decimal_toDigits hc)
  | float bits =>
    obtain ⟨hchars, c, hc, hmark⟩ := hfloat bits
    have hdigit : digit 10 c = none ∧ c ≠ '+' ∧ c ≠ '_' := by
      obtain rfl | rfl := hmark <;> decide
    apply not_bare _ hc hdigit.1 hdigit.2
    have hmarks : ∀ c ∈ ['-', '+', '.', 'e'], c ∉ ['x', 'X', 'b', 'B', 'o', 'O'] ∧ isWhitespace c = false := by
      intro c hc
      simp only [List.mem_cons, List.not_mem_nil, or_false] at hc
      obtain rfl | rfl | rfl | rfl := hc <;> decide
    exact fun c hc => (hchars c hc).elim decimal_plain (hmarks c)

theorem parse_element (hfloat : PrintsFloats json) (value : Value) (a : Address) :
    (∃ s, elementToString json value = .ok s ∧ parseAddress debug s = .ok a) ↔ NamesOne value a := by
  cases value with
  | string s =>
    rw [show elementToString json (.string s) = .ok s from rfl]
    constructor
    · rintro ⟨s, hs, h⟩
      obtain rfl := Except.ok.inj hs
      exact .string (parseAddress_eq_ok.mp h)
    · rintro ⟨⟩
      rename_i h
      exact ⟨s, rfl, parseAddress_eq_ok.mpr h⟩
  | number n =>
    rw [show elementToString json (.number n) = .ok (json.number n) from rfl]
    constructor
    · rintro ⟨s, hs, h⟩
      obtain rfl := Except.ok.inj hs
      cases n with
      | posInt n => exact .number ((parse_number n a).mp h)
      | negInt n => exact absurd h (parse_signed hfloat rfl a)
      | float bits => exact absurd h (parse_signed hfloat rfl a)
    · rintro ⟨⟩
      rename_i n h
      exact ⟨_, rfl, (parse_number n a).mpr h⟩
  | null | bool | array | object =>
    constructor
    · rintro ⟨s, hs, -⟩
      cases hs
    · rintro ⟨⟩

theorem forall₂_compose {α β γ : Type} {R : α → β → Prop} {S : β → γ → Prop} {xs : List α} {zs : List γ} :
    (∃ ys, List.Forall₂ R xs ys ∧ List.Forall₂ S ys zs) ↔ List.Forall₂ (fun x z => ∃ y, R x y ∧ S y z) xs zs := by
  constructor
  · rintro ⟨ys, hxs, hys⟩
    induction hxs generalizing zs with
    | nil =>
      cases hys
      exact .nil
    | cons hx _ ih =>
      cases hys with
      | cons hy hrest => exact .cons ⟨_, hx, hy⟩ (ih hrest)
  · intro h
    induction h with
    | nil => exact ⟨[], .nil, .nil⟩
    | cons hx _ ih =>
      obtain ⟨y, hxy, hyz⟩ := hx
      obtain ⟨ys, hxs, hys⟩ := ih
      exact ⟨y :: ys, .cons hxy hxs, .cons hyz hys⟩

theorem addresses_of_texts {value : Value} {as : List Address} : valueToAddresses json debug value = .ok as ↔
    as ≠ [] ∧ ∃ ss, valueToStrings json value = .ok ss ∧
      List.Forall₂ (fun s a => parseAddress debug s = .ok a) ss as := by
  unfold valueToAddresses
  cases valueToStrings json value with
  | error e =>
    apply iff_of_false
    · rintro ⟨⟩
    · rintro ⟨-, ss, ⟨⟩, -⟩
  | ok ss =>
    change (if ss = [] then _ else ss.mapM (parseAddress debug)) = _ ↔ _
    split_ifs with hempty
    · apply iff_of_false
      · rintro ⟨⟩
      · rintro ⟨hne, ss', hss, h⟩
        obtain rfl := Except.ok.inj hss
        rw [hempty] at h
        cases h
        exact hne rfl
    · rw [mapM_eq_ok]
      constructor
      · intro h
        refine ⟨?_, ss, rfl, h⟩
        rintro rfl
        cases h
        exact hempty rfl
      · rintro ⟨-, ss', hss, h⟩
        obtain rfl := Except.ok.inj hss
        exact h

theorem elements_name (hfloat : PrintsFloats json) {items : List Value} {as : List Address} :
    (∃ ss, items.mapM (elementToString json) = .ok ss ∧
      List.Forall₂ (fun s a => parseAddress debug s = .ok a) ss as) ↔ List.Forall₂ NamesOne items as := by
  simp only [mapM_eq_ok]
  rw [forall₂_compose]
  simp only [parse_element hfloat]

theorem trim_entry {s entry : Chars} (h : entry ∈ commaList s) : trim entry = entry := by
  obtain ⟨t, -, rfl⟩ := List.mem_map.mp (List.mem_filter.mp h).1
  exact trim_trim t

theorem entries_name {s : Chars} {as : List Address} :
    List.Forall₂ (fun s a => parseAddress debug s = .ok a) ((commaList s).map String.ofList) as ↔
      List.Forall₂ (fun entry (a : Address) => IsBareNumeral entry a) (commaList s) as := by
  have htrim : (commaList s).map trim = commaList s := by
    rw [List.map_congr_left fun entry hentry => trim_entry hentry, List.map_id']
  rw [List.forall₂_map_left_iff]
  simp only [parseAddress_eq_ok, String.toList_ofList]
  rw [← List.forall₂_map_left_iff (f := trim) (R := fun entry (a : Address) => IsBareNumeral entry a), htrim]

theorem not_bare_nil {n : ℕ} : ¬ IsBareNumeral [] n := fun h => h.ne_nil rfl

theorem string_names (hfloat : PrintsFloats json) {s : String} {as : List Address} :
    valueToAddresses json debug (.string s) = .ok as ↔ Names json (.string s) as := by
  rw [addresses_of_texts, show valueToStrings json (.string s) = stringToStrings json (trim s.toList) from rfl,
    stringToStrings]
  cases hread : jsonArray json (trim s.toList) with
  | some items =>
    dsimp only
    rw [elements_name hfloat]
    constructor
    · exact fun h => .json hread h.1 h.2
    · intro h
      cases h with
      | json hread' hne h =>
        obtain rfl := Option.some.inj (hread.symm.trans hread')
        exact ⟨hne, h⟩
      | list hread' | single hread' => simp [hread] at hread'
  | none =>
    dsimp only
    split_ifs with hcomma hempty
    · simp only [Except.ok.injEq, exists_eq_left']
      rw [entries_name]
      constructor
      · exact fun h => .list hread hcomma h.1 h.2
      · intro h
        cases h with
        | list _ _ hne h => exact ⟨hne, h⟩
        | single _ hcomma' => exact absurd hcomma hcomma'
        | json hread' => simp [hread] at hread'
    · apply iff_of_false
      · rintro ⟨-, ss, ⟨⟩, -⟩
      · intro h
        cases h with
        | single _ _ h => exact not_bare_nil (hempty ▸ h)
        | list _ hcomma' => exact hcomma hcomma'
        | json hread' => simp [hread] at hread'
    · simp only [Except.ok.injEq, exists_eq_left']
      constructor
      · rintro ⟨-, h⟩
        cases h with
        | cons h hrest =>
          cases hrest
          rw [parseAddress_eq_ok, String.toList_ofList, trim_trim] at h
          exact .single hread hcomma h
      · intro h
        cases h with
        | single _ _ h =>
          refine ⟨List.cons_ne_nil _ _, .cons ?_ .nil⟩
          rw [parseAddress_eq_ok, String.toList_ofList, trim_trim]
          exact h
        | list _ hcomma' => exact absurd hcomma' hcomma
        | json hread' => simp [hread] at hread'

theorem value_names (hfloat : PrintsFloats json) (value : Value) (as : List Address) :
    valueToAddresses json debug value = .ok as ↔ Names json value as := by
  cases value with
  | string s => exact string_names hfloat
  | array items =>
    rw [addresses_of_texts, show valueToStrings json (.array items) = items.mapM (elementToString json) from rfl,
      elements_name hfloat]
    constructor
    · exact fun h => .array h.1 h.2
    · rintro ⟨⟩
      rename_i hne h
      exact ⟨hne, h⟩
  | number n =>
    rw [addresses_of_texts, show valueToStrings json (.number n) = .ok [json.number n] from rfl]
    simp only [Except.ok.injEq, exists_eq_left']
    constructor
    · rintro ⟨-, h⟩
      cases h with
      | cons h hrest =>
        cases hrest
        cases n with
        | posInt n => exact .number ((parse_number n _).mp h)
        | negInt n => exact absurd h (parse_signed hfloat rfl _)
        | float bits => exact absurd h (parse_signed hfloat rfl _)
    · rintro ⟨⟩
      rename_i n a h
      exact ⟨List.cons_ne_nil _ _, .cons ((parse_number n a).mpr h) .nil⟩
  | null | bool | object =>
    apply iff_of_false
    · rintro ⟨⟩
    · rintro ⟨⟩

theorem one_named (hfloat : PrintsFloats json) (value : Value) (fieldName : String) (a : Address) :
    valueToExactlyOneAddress json debug value fieldName = .ok a ↔ Names json value [a] := by
  rw [← @value_names json debug hfloat]
  unfold valueToExactlyOneAddress
  cases hvalue : valueToAddresses json debug value with
  | error e =>
    apply iff_of_false
    · rintro ⟨⟩
    · rintro ⟨⟩
  | ok as =>
    rw [Except.ok.injEq]
    match as with
    | [] => exact iff_of_false (by rintro ⟨⟩) (by rintro ⟨⟩)
    | [b] =>
      rw [List.singleton_inj]
      constructor
      · exact fun h => Except.ok.inj h
      · rintro rfl
        rfl
    | b :: c :: rest => exact iff_of_false (by rintro ⟨⟩) (by rintro ⟨⟩)

theorem target_named (hfloat : PrintsFloats json) (address : Option Value) (name : Option String)
    (nameField : String) (target : Option Address) :
    mutationTargetAddress json debug address name nameField = .ok target ↔
      (∃ value a, address = some value ∧ name = none ∧ target = some a ∧ Names json value [a]) ∨
        address = none ∧ target = none ∧ ∃ query, name = some query ∧ query ≠ "" := by
  match address, name with
  | some value, some query | none, none => simp [mutationTargetAddress]
  | some value, none =>
    have hmap : mutationTargetAddress json debug (some value) none nameField = .ok target ↔
        ∃ a, valueToExactlyOneAddress json debug value "address" = .ok a ∧ some a = target := by
      rw [mutationTargetAddress]
      cases valueToExactlyOneAddress json debug value "address" <;> simp [Except.map]
    rw [hmap]
    constructor
    · rintro ⟨a, ha, rfl⟩
      exact .inl ⟨value, a, rfl, rfl, rfl, (one_named hfloat value _ a).mp ha⟩
    · rintro (⟨_, a, heq, -, rfl, hnames⟩ | ⟨⟨⟩, -⟩)
      obtain rfl := Option.some.inj heq
      exact ⟨a, (one_named hfloat value _ a).mpr hnames, rfl⟩
  | none, some query =>
    rw [mutationTargetAddress]
    split_ifs with hempty <;> simp [hempty, eq_comm]

/-! What is printed is read back. -/

def IsClear (text : Chars) : Prop := ∀ c ∈ text, isWhitespace c = false ∧ c ≠ ',' ∧ c ≠ '['

instance (text : Chars) : Decidable (IsClear text) := List.decidableBAll _ text

theorem IsClear.append {mark rest : Chars} (hmark : IsClear mark) (hrest : IsClear rest) : IsClear (mark ++ rest) :=
  fun c hc => (List.mem_append.mp hc).elim (hmark c) (hrest c)

theorem clear_digits {base : ℕ} (hbase : 1 < base) (h16 : base ≤ 16) (n : ℕ) : IsClear (Nat.toDigits base n) := by
  have hdigit : ∀ k < 16, isWhitespace k.digitChar = false ∧ k.digitChar ≠ ',' ∧ k.digitChar ≠ '[' := by decide
  intro c hc
  obtain ⟨k, hk, rfl⟩ := exists_digit_of_mem_toDigits hbase hc
  exact hdigit k (by omega)

theorem clear_rendering {a : Address} {s : String} (hs : s ∈ renderings a) : IsClear s.toList := by
  simp only [renderings, List.mem_cons, List.not_mem_nil, or_false] at hs
  obtain rfl | rfl | rfl | rfl := hs
  · simp only [hexText, String.toList_append, String.toList_ofList]
    apply IsClear.append (by decide)
    apply clear_digits <;> omega
  · simp only [String.toList_ofList]
    apply clear_digits <;> omega
  · simp only [String.toList_append, String.toList_ofList]
    apply IsClear.append (by decide)
    apply clear_digits <;> omega
  · simp only [String.toList_append, String.toList_ofList]
    apply IsClear.append (by decide)
    apply clear_digits <;> omega

theorem rendering_ne_nil {a : Address} {s : String} (hs : s ∈ renderings a) : s.toList ≠ [] := by
  intro hnil
  have hread := (renderings_read_back id a s hs).1
  rw [parseAddress_eq_ok, hnil] at hread
  exact not_bare_nil hread

def Printed (ss : List String) (as : List Address) : Prop :=
  List.Forall₂ (fun s (a : Address) => s ∈ renderings a) ss as

def commas (ss : List String) : String := String.ofList ([','].intercalate (ss.map String.toList))

theorem printed_array {ss : List String} {as : List Address} (h : Printed ss as) :
    List.Forall₂ NamesOne (ss.map Value.string) as := by
  rw [List.forall₂_map_left_iff]
  refine h.imp fun s a hs => NamesOne.string ?_
  exact parseAddress_eq_ok.mp (renderings_read_back id a s hs).1

theorem commaList_printed {texts : List Chars} (hne : texts ≠ [])
    (hplain : ∀ t ∈ texts, t ≠ [] ∧ ∀ c ∈ t, isWhitespace c = false ∧ c ≠ ',') :
    commaList ([','].intercalate texts) = texts := by
  have hcomma : ∀ t ∈ texts, ',' ∉ t := fun t ht hmem => ((hplain t ht).2 ',' hmem).2 rfl
  have htrim : texts.map trim = texts := by
    have hself : ∀ t ∈ texts, trim t = t := by
      intro t ht
      apply trim_eq_self
      · exact fun c hc => ((hplain t ht).2 c (List.mem_of_mem_head? hc)).1
      · exact fun c hc => ((hplain t ht).2 c (List.mem_of_mem_getLast? hc)).1
    rw [List.map_congr_left hself, List.map_id']
  rw [commaList, List.splitOn_intercalate _ hcomma hne, htrim, List.filter_eq_self]
  exact fun t ht => decide_eq_true (hplain t ht).1

theorem mem_intercalate {texts : List Chars} {c : Char} (hc : c ∈ [','].intercalate texts) :
    c = ',' ∨ ∃ t ∈ texts, c ∈ t := by
  by_contra hnot
  rw [not_or] at hnot
  exact Delimited.not_mem_intercalate hnot.1 (fun t ht hmem => hnot.2 ⟨t, ht, hmem⟩) hc

theorem printed_commas {ss : List String} {as : List Address} (hne : as ≠ []) (h : Printed ss as) :
    Names json (.string (commas ss)) as := by
  have hmem : ∀ t ∈ ss.map String.toList, t ≠ [] ∧ ∀ c ∈ t, isWhitespace c = false ∧ c ≠ ',' ∧ c ≠ '[' := by
    intro t ht
    obtain ⟨s, hs, rfl⟩ := List.mem_map.mp ht
    obtain ⟨a, ha⟩ := forall₂_right h hs
    exact ⟨rendering_ne_nil ha, clear_rendering ha⟩
  have hplain : ∀ c ∈ [','].intercalate (ss.map String.toList), isWhitespace c = false ∧ c ≠ '[' := by
    intro c hc
    obtain rfl | ⟨t, ht, hct⟩ := mem_intercalate hc
    · decide
    · obtain ⟨hspace, -, hbracket⟩ := (hmem t ht).2 c hct
      exact ⟨hspace, hbracket⟩
  have htrim : trim (commas ss).toList = [','].intercalate (ss.map String.toList) := by
    rw [commas, String.toList_ofList]
    apply trim_eq_self
    · exact fun c hc => (hplain c (List.mem_of_mem_head? hc)).1
    · exact fun c hc => (hplain c (List.mem_of_mem_getLast? hc)).1
  have hread : jsonArray json (trim (commas ss).toList) = none := by
    rw [jsonArray, if_neg]
    rw [htrim]
    exact fun hhead => (hplain _ (List.mem_of_mem_head? hhead)).2 rfl
  have hnumerals : List.Forall₂ (fun t (a : Address) => IsBareNumeral t a) (ss.map String.toList) as := by
    rw [List.forall₂_map_left_iff]
    refine h.imp fun s a hs => ?_
    have hread := parseAddress_eq_ok.mp (renderings_read_back id a s hs).1
    have hself : trim s.toList = s.toList := by
      apply trim_eq_self
      · exact fun c hc => (clear_rendering hs c (List.mem_of_mem_head? hc)).1
      · exact fun c hc => (clear_rendering hs c (List.mem_of_mem_getLast? hc)).1
    rwa [hself] at hread
  by_cases hcomma : ',' ∈ trim (commas ss).toList
  · refine .list hread hcomma hne ?_
    rw [htrim, commaList_printed]
    · exact hnumerals
    · rintro hnil
      rw [hnil] at hnumerals
      cases hnumerals
      exact hne rfl
    · exact fun t ht => ⟨(hmem t ht).1, fun c hc => ⟨((hmem t ht).2 c hc).1, ((hmem t ht).2 c hc).2.1⟩⟩
  · -- Without a comma there is one entry.
    cases hnumerals' : ss.map String.toList with
    | nil =>
      rw [hnumerals'] at hnumerals
      cases hnumerals
      exact absurd rfl hne
    | cons t rest =>
      rw [hnumerals'] at hnumerals htrim
      cases hnumerals with
      | cons ht hrest =>
        cases hrest with
        | nil =>
          refine .single hread hcomma ?_
          rw [htrim, List.intercalate_singleton]
          exact ht
        | cons =>
          rw [htrim, List.intercalate_cons_cons] at hcomma
          simp at hcomma

structure AddressesExact (json : JsonTexts) (debug : String → String) : Prop where
  all : ∀ value as, valueToAddresses json debug value = .ok as ↔ Names json value as
  one : ∀ value fieldName a, valueToExactlyOneAddress json debug value fieldName = .ok a ↔ Names json value [a]
  target : ∀ address name nameField target, mutationTargetAddress json debug address name nameField = .ok target ↔
    (∃ value a, address = some value ∧ name = none ∧ target = some a ∧ Names json value [a]) ∨
      address = none ∧ target = none ∧ ∃ query, name = some query ∧ query ≠ ""
  printed : ∀ ss as, as ≠ [] → Printed ss as →
    valueToAddresses json debug (.array (ss.map .string)) = .ok as ∧
      valueToAddresses json debug (.string (commas ss)) = .ok as

theorem addresses_exact (hfloat : PrintsFloats json) : AddressesExact json debug where
  all := value_names hfloat
  one := one_named hfloat
  target := target_named hfloat
  printed _ _ hne h := ⟨(value_names hfloat _ _).mpr (.array hne (printed_array h)),
    (value_names hfloat _ _).mpr (printed_commas hne h)⟩

def plainJson : JsonTexts where
  read text := if text = "[1,\"0x10\"]" then some (.array [.number (.posInt 1), .string "0x10"]) else none
  float _ := "1.5"

theorem plainJson_floats : PrintsFloats plainJson := by
  have hchars : ∀ c ∈ "1.5".toList, (digit 10 c).isSome ∨ c ∈ ['-', '+', '.', 'e'] := by
    intro c hc
    rw [show "1.5".toList = ['1', '.', '5'] from rfl] at hc
    simp only [List.mem_cons, List.not_mem_nil, or_false] at hc
    obtain rfl | rfl | rfl := hc <;> decide
  have hpoint : '.' ∈ "1.5".toList := by decide
  exact fun _ => ⟨hchars, '.', hpoint, .inl rfl⟩

theorem addresses_exact_plain : AddressesExact plainJson id ∧
    valueToAddresses plainJson id (.string " [1,\"0x10\"]") = .ok [1, 16] ∧
    valueToAddresses plainJson id (.string "1, 0x10,") = .ok [1, 16] ∧
    valueToAddresses plainJson id (.array [.number (.float 0)]) ≠ .ok [1] := by
  have hexact : AddressesExact plainJson id := addresses_exact plainJson_floats
  refine ⟨hexact, rfl, rfl, ?_⟩
  rw [Ne, hexact.all]
  intro h
  cases h with
  | array _ h =>
    cases h with
    | cons h _ => cases h

end IdaMcp.Params
