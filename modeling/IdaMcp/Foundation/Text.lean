import Mathlib.Data.Char
import Mathlib.Data.String.Basic
import Mathlib.Data.List.DropRight
import Mathlib.Data.List.Forall2
import Mathlib.Tactic.Tauto

/-! Text as its characters. -/

namespace IdaMcp.Foundation.Text

abbrev Chars := List Char

def isWhitespace (c : Char) : Bool :=
  (0x09 ≤ c.toNat && c.toNat ≤ 0x0d) || c.toNat == 0x20 || c.toNat == 0x85 || c.toNat == 0xa0 ||
    c.toNat == 0x1680 || (0x2000 ≤ c.toNat && c.toNat ≤ 0x200a) || c.toNat == 0x2028 ||
    c.toNat == 0x2029 || c.toNat == 0x202f || c.toNat == 0x205f || c.toNat == 0x3000

def trim (s : Chars) : Chars := (s.dropWhile isWhitespace).rdropWhile isWhitespace

theorem trim_eq_self {s : Chars} (hfirst : ∀ c ∈ s.head?, isWhitespace c = false)
    (hlast : ∀ c ∈ s.getLast?, isWhitespace c = false) : trim s = s := by
  have hdrop : s.dropWhile isWhitespace = s := by
    cases s with
    | nil => rfl
    | cons c s => rw [List.dropWhile_cons_of_neg]; simp [hfirst c rfl]
  rw [trim, hdrop, List.rdropWhile_eq_self_iff]
  intro hne
  simp [hlast _ (List.getLast?_eq_getLast_of_ne_nil hne)]

theorem trim_ends (s : Chars) : (∀ c ∈ (trim s).head?, isWhitespace c = false) ∧
    ∀ c ∈ (trim s).getLast?, isWhitespace c = false := by
  constructor
  · intro c hc
    have hmid : c ∈ (s.dropWhile isWhitespace).head? := by
      obtain ⟨rest, hrest⟩ : trim s <+: s.dropWhile isWhitespace := List.rdropWhile_prefix ..
      rw [← hrest]
      cases htrim : trim s with
      | nil => simp [htrim] at hc
      | cons d ds => simpa [htrim] using hc
    have hnot := List.head?_dropWhile_not isWhitespace s
    rw [Option.mem_def.mp hmid] at hnot
    simpa using hnot
  · intro c hc
    have hne : trim s ≠ [] := by
      rintro htrim
      simp [htrim] at hc
    have hlast := List.rdropWhile_last_not isWhitespace (s.dropWhile isWhitespace) hne
    rw [List.getLast?_eq_getLast_of_ne_nil hne, Option.mem_some_iff] at hc
    rw [← hc]
    simpa [trim] using hlast

theorem trim_trim (s : Chars) : trim (trim s) = trim s :=
  trim_eq_self (trim_ends s).1 (trim_ends s).2

def splitWhitespace (s : Chars) : List Chars := (s.splitOnP isWhitespace).filter (· ≠ [])

theorem splitWhitespace_word {w : Chars} (hw : ∀ c ∈ w, isWhitespace c = false) (hne : w ≠ []) :
    splitWhitespace w = [w] := by
  rw [splitWhitespace, List.splitOnP_eq_singleton (by simpa using hw)]
  simp [hne]

theorem splitWhitespace_cons {w rest : Chars} {c : Char} (hw : ∀ c ∈ w, isWhitespace c = false)
    (hne : w ≠ []) (hc : isWhitespace c = true) :
    splitWhitespace (w ++ c :: rest) = w :: splitWhitespace rest := by
  rw [splitWhitespace, List.splitOnP_append_cons_of_forall_mem (by simpa using hw) c hc]
  simp [hne, splitWhitespace]

theorem splitWhitespace_join (words : List Chars) (hwords : ∀ w ∈ words, w ≠ [])
    (hplain : ∀ w ∈ words, ∀ c ∈ w, isWhitespace c = false) :
    splitWhitespace ([' '].intercalate words) = words := by
  induction words with
  | nil => rfl
  | cons w words ih =>
    have hw := hplain w List.mem_cons_self
    have hne := hwords w List.mem_cons_self
    cases words with
    | nil => rw [List.intercalate_singleton, splitWhitespace_word hw hne]
    | cons v words =>
      rw [List.intercalate_cons_cons, List.append_assoc, List.singleton_append,
        splitWhitespace_cons hw hne rfl, ih]
      · exact fun u hu => hwords u (List.mem_cons_of_mem _ hu)
      · exact fun u hu => hplain u (List.mem_cons_of_mem _ hu)

theorem join_ends (words : List Chars) (hwords : ∀ w ∈ words, w ≠ [])
    (hplain : ∀ w ∈ words, ∀ c ∈ w, isWhitespace c = false) :
    (∀ c ∈ ([' '].intercalate words).head?, isWhitespace c = false) ∧
      ∀ c ∈ ([' '].intercalate words).getLast?, isWhitespace c = false := by
  induction words with
  | nil => simp
  | cons w words ih =>
    have hw := hplain w List.mem_cons_self
    cases words with
    | nil =>
      rw [List.intercalate_singleton]
      exact ⟨fun c hc => hw c (List.mem_of_mem_head? hc),
        fun c hc => hw c (List.mem_of_mem_getLast? hc)⟩
    | cons v words =>
      have hrest := (ih (fun u hu => hwords u (List.mem_cons_of_mem _ hu))
        (fun u hu => hplain u (List.mem_cons_of_mem _ hu))).2
      obtain ⟨x, w, rfl⟩ := List.exists_cons_of_ne_nil (hwords w List.mem_cons_self)
      rw [List.intercalate_cons_cons]
      constructor
      · intro c hc
        simp only [List.cons_append, List.head?_cons, Option.mem_some_iff] at hc
        exact hw c (hc ▸ List.mem_cons_self)
      · intro c hc
        have hne : [' '].intercalate (v :: words) ≠ [] := by
          have hv := hwords v (List.mem_cons_of_mem _ List.mem_cons_self)
          cases words with
          | nil => rwa [List.intercalate_singleton]
          | cons u words => simp [List.intercalate_cons_cons]
        rw [List.getLast?_append_of_ne_nil _ hne] at hc
        exact hrest c hc

theorem trim_join (words : List Chars) (hwords : ∀ w ∈ words, w ≠ [])
    (hplain : ∀ w ∈ words, ∀ c ∈ w, isWhitespace c = false) :
    trim ([' '].intercalate words) = [' '].intercalate words :=
  trim_eq_self (join_ends words hwords hplain).1 (join_ends words hwords hplain).2

def pairs {α : Type*} : List α → List (List α)
  | a :: b :: rest => [a, b] :: pairs rest
  | [a] => [[a]]
  | [] => []

theorem pairs_flatten {α : Type*} (blocks : List (List α)) (h : ∀ b ∈ blocks, b.length = 2) :
    pairs blocks.flatten = blocks := by
  induction blocks with
  | nil => rfl
  | cons b blocks ih =>
    obtain ⟨x, y, rfl⟩ := List.length_eq_two.mp (h b List.mem_cons_self)
    simp only [List.flatten_cons, List.cons_append, List.nil_append, pairs]
    rw [ih (fun c hc => h c (List.mem_cons_of_mem _ hc))]

theorem pairs_map {α β : Type*} (f : α → β) (xs : List α) :
    pairs (xs.map f) = (pairs xs).map (List.map f) := by
  induction xs using pairs.induct with
  | case1 a b rest ih => simp [pairs, ih]
  | case2 a => rfl
  | case3 => rfl

theorem exists_pair_of_mem {α : Type*} {xs : List α} {x : α} (h : x ∈ xs) :
    ∃ p ∈ pairs xs, x ∈ p := by
  induction xs using pairs.induct with
  | case1 a b rest ih =>
    simp only [List.mem_cons] at h
    rcases h with rfl | rfl | h
    · exact ⟨[x, b], by simp [pairs], by simp⟩
    · exact ⟨[a, x], by simp [pairs], by simp⟩
    · obtain ⟨p, hp, hx⟩ := ih h
      exact ⟨p, List.mem_cons_of_mem _ hp, hx⟩
  | case2 a => exact ⟨[a], by simp [pairs], h⟩
  | case3 => exact absurd h List.not_mem_nil

theorem mem_of_mem_pairs {α : Type*} {xs p : List α} {x : α} (hp : p ∈ pairs xs) (hx : x ∈ p) :
    x ∈ xs := by
  induction xs using pairs.induct with
  | case1 a b rest ih =>
    rcases List.mem_cons.mp hp with rfl | hp
    · simp only [List.mem_cons, List.not_mem_nil, or_false] at hx ⊢
      tauto
    · exact List.mem_cons_of_mem _ (List.mem_cons_of_mem _ (ih hp))
  | case2 a =>
    rw [pairs, List.mem_singleton] at hp
    exact hp ▸ hx
  | case3 => exact absurd hp List.not_mem_nil

/-! Numbers. -/

def hexDigit (c : Char) : Option ℕ :=
  if '0' ≤ c ∧ c ≤ '9' then some (c.toNat - '0'.toNat)
  else if 'a' ≤ c ∧ c ≤ 'f' then some (c.toNat - 'a'.toNat + 10)
  else if 'A' ≤ c ∧ c ≤ 'F' then some (c.toNat - 'A'.toNat + 10)
  else none

theorem hexDigit_bounds {c : Char} {d : ℕ} (h : hexDigit c = some d) :
    d < 16 ∧ c.toNat < 128 := by
  have hle (a b : Char) : a ≤ b ↔ a.toNat ≤ b.toNat := Iff.rfl
  have h0 : '0'.toNat = 48 := rfl
  have h9 : '9'.toNat = 57 := rfl
  have ha : 'a'.toNat = 97 := rfl
  have hf : 'f'.toNat = 102 := rfl
  have hA : 'A'.toNat = 65 := rfl
  have hF : 'F'.toNat = 70 := rfl
  simp only [hexDigit, hle] at h
  split_ifs at h <;> simp only [Option.some_inj] at h <;> omega

theorem not_whitespace_of_hexDigit {c : Char} (h : (hexDigit c).isSome) :
    isWhitespace c = false := by
  have hle (a b : Char) : a ≤ b ↔ a.toNat ≤ b.toNat := Iff.rfl
  have h0 : '0'.toNat = 48 := rfl
  have h9 : '9'.toNat = 57 := rfl
  have ha : 'a'.toNat = 97 := rfl
  have hf : 'f'.toNat = 102 := rfl
  have hA : 'A'.toNat = 65 := rfl
  have hF : 'F'.toNat = 70 := rfl
  have hrange : (48 ≤ c.toNat ∧ c.toNat ≤ 57) ∨ (97 ≤ c.toNat ∧ c.toNat ≤ 102) ∨
      (65 ≤ c.toNat ∧ c.toNat ≤ 70) := by
    simp only [hexDigit, hle] at h
    split_ifs at h with hdigit hlower hupper
    · exact .inl (by omega)
    · exact .inr (.inl (by omega))
    · exact .inr (.inr (by omega))
    · exact Bool.noConfusion h
  simp only [isWhitespace, Bool.or_eq_false_iff, Bool.and_eq_false_iff, decide_eq_false_iff_not,
    beq_eq_false_iff_ne]
  omega

def IsHex (s : Chars) : Prop := ∀ c ∈ s, (hexDigit c).isSome

instance (s : Chars) : Decidable (IsHex s) := List.decidableBAll _ s

def hexValue (s : Chars) : ℕ := s.foldl (fun n c => n * 16 + (hexDigit c).getD 0) 0

def nibble (c : Char) : ℕ := (hexDigit c).getD 0

theorem nibble_lt (c : Char) : nibble c < 16 := by
  unfold nibble
  cases hc : hexDigit c with
  | none => decide
  | some d => exact (hexDigit_bounds hc).1

theorem hexValue_one (c : Char) : hexValue [c] = nibble c := by
  simp [hexValue, nibble]

theorem hexValue_two (c d : Char) : hexValue [c, d] = 16 * nibble c + nibble d := by
  simp [hexValue, nibble, Nat.mul_comm]

theorem hexValue_lt {digits : Chars} (hlen : digits.length = 1 ∨ digits.length = 2) :
    hexValue digits < 256 := by
  rcases hlen with hlen | hlen
  · obtain ⟨c, rfl⟩ := List.length_eq_one_iff.mp hlen
    have hc := nibble_lt c
    rw [hexValue_one]
    omega
  · obtain ⟨c, d, rfl⟩ := List.length_eq_two.mp hlen
    have hc := nibble_lt c
    have hd := nibble_lt d
    rw [hexValue_two]
    omega

def readU8 (n : ℕ) : Chars → Option ℕ
  | [] => some n
  | c :: rest => do
    let digit ← hexDigit c
    if n * 16 + digit < 256 then readU8 (n * 16 + digit) rest else none

def u8FromHex : Chars → Option UInt8
  | [] | ['+'] | ['-'] => none
  | '+' :: digits => (readU8 0 digits).map UInt8.ofNat
  | digits => (readU8 0 digits).map UInt8.ofNat

theorem readU8_eq_some {n v : ℕ} {s : Chars} (hn : n < 256) : readU8 n s = some v ↔
    IsHex s ∧ s.foldl (fun n c => n * 16 + (hexDigit c).getD 0) n = v ∧ v < 256 := by
  induction s generalizing n with
  | nil => simp [readU8, IsHex]; omega
  | cons c s ih =>
    cases hc : hexDigit c with
    | none => simp [readU8, IsHex, hc]
    | some d =>
      have hgrow (m : ℕ) : m ≤ s.foldl (fun n c => n * 16 + (hexDigit c).getD 0) m := by
        clear ih
        induction s generalizing m with
        | nil => exact le_refl m
        | cons c s ih => exact le_trans (by omega) (ih (m * 16 + (hexDigit c).getD 0))
      simp only [readU8, hc, Option.bind_eq_bind, Option.bind_some, List.foldl_cons,
        Option.getD_some]
      by_cases hlt : n * 16 + d < 256
      · rw [if_pos hlt, ih hlt]
        simp [IsHex, hc]
      · rw [if_neg hlt]
        have hle := hgrow (n * 16 + d)
        constructor
        · exact fun h => nomatch h
        · rintro ⟨-, hv, hsmall⟩
          omega

theorem readU8_zero {s : Chars} {v : ℕ} :
    readU8 0 s = some v ↔ IsHex s ∧ hexValue s = v ∧ v < 256 :=
  readU8_eq_some (by decide)

theorem u8FromHex_number {sign digits : Chars} (hsign : sign = [] ∨ sign = ['+'])
    (hne : digits ≠ []) (hdigits : IsHex digits) (hvalue : hexValue digits < 256) :
    u8FromHex (sign ++ digits) = some (UInt8.ofNat (hexValue digits)) := by
  have hread : readU8 0 digits = some (hexValue digits) := readU8_zero.mpr ⟨hdigits, rfl, hvalue⟩
  rcases hsign with rfl | rfl
  · rw [List.nil_append]
    unfold u8FromHex
    split
    · exact absurd rfl hne
    · exact absurd (hdigits '+' (by simp)) (by decide)
    · exact absurd (hdigits '-' (by simp)) (by decide)
    · exact absurd (hdigits '+' (by simp)) (by decide)
    · rw [hread]
      rfl
  · obtain ⟨c, digits, rfl⟩ := List.exists_cons_of_ne_nil hne
    rw [List.singleton_append, u8FromHex, hread]
    · rfl
    · exact fun h => nomatch h

def hexText (n : ℕ) : String := "0x" ++ String.ofList (Nat.toDigits 16 n)

theorem exists_digit_of_mem_toDigits {base n : ℕ} (hb : 1 < base) {c : Char}
    (hc : c ∈ Nat.toDigits base n) : ∃ k < base, c = k.digitChar := by
  induction n using Nat.strongRecOn with
  | ind n ih =>
    rw [Nat.toDigits_eq_if hb] at hc
    split_ifs at hc with hn
    · exact ⟨n, hn, by simpa using hc⟩
    · rcases List.mem_append.mp hc with hc | hc
      · exact ih (n / base) (Nat.div_lt_self (by omega) hb) hc
      · exact ⟨n % base, Nat.mod_lt n (by omega), by simpa using hc⟩

theorem toDigits_injective : Function.Injective (Nat.toDigits 16) := by
  have hdigit : ∀ a < 16, ∀ b < 16, Nat.digitChar a = Nat.digitChar b → a = b := by decide
  intro m
  induction m using Nat.strongRecOn with
  | ind m ih =>
    intro n h
    have hexpand (k : ℕ) : Nat.toDigits 16 k =
        if k < 16 then [k.digitChar] else Nat.toDigits 16 (k / 16) ++ [(k % 16).digitChar] :=
      Nat.toDigits_eq_if (by omega)
    rw [hexpand m, hexpand n] at h
    have hpos (k : ℕ) : 0 < (Nat.toDigits 16 k).length := Nat.length_toDigits_pos
    split_ifs at h with hm hn hn
    · exact hdigit m hm n hn (by simpa using h)
    · have hlength := congrArg List.length h
      have hmore := hpos (n / 16)
      simp only [List.length_append, List.length_singleton] at hlength
      omega
    · have hlength := congrArg List.length h
      have hmore := hpos (m / 16)
      simp only [List.length_append, List.length_singleton] at hlength
      omega
    · obtain ⟨hhigh, hlow⟩ := List.append_inj' h rfl
      have hdiv := ih (m / 16) (Nat.div_lt_self (by omega) (by omega)) hhigh
      have hmod := hdigit (m % 16) (Nat.mod_lt _ (by omega)) (n % 16) (Nat.mod_lt _ (by omega))
        (by simpa using hlow)
      omega

theorem hexText_injective : Function.Injective hexText := by
  intro m n h
  have htext := congrArg String.toList h
  simp only [hexText, String.toList_append, String.toList_ofList, List.append_cancel_left_eq] at htext
  exact toDigits_injective htext

def eqIgnoreAsciiCase (s t : Chars) : Bool := s.map Char.toLower == t.map Char.toLower

def IsPlain (s : Chars) : Prop := ∀ c ∈ s, isWhitespace c = false ∧ c.toLower = c

instance (s : Chars) : Decidable (IsPlain s) := List.decidableBAll _ s

theorem IsPlain.append {s t : Chars} (hs : IsPlain s) (ht : IsPlain t) : IsPlain (s ++ t) := by
  intro c hc
  rcases List.mem_append.mp hc with hc | hc
  · exact hs c hc
  · exact ht c hc

theorem isPlain_toDigits {base : ℕ} (hbase : 1 < base) (h16 : base ≤ 16) (n : ℕ) :
    IsPlain (Nat.toDigits base n) := by
  have hdigit : ∀ k < 16, isWhitespace k.digitChar = false ∧ k.digitChar.toLower = k.digitChar := by
    decide
  intro c hc
  obtain ⟨k, hk, rfl⟩ := exists_digit_of_mem_toDigits hbase hc
  exact hdigit k (by omega)

theorem isPlain_hex (n : ℕ) : IsPlain (Nat.toDigits 16 n) := isPlain_toDigits (by decide) (le_refl 16) n

theorem IsPlain.trim_eq {s : Chars} (h : IsPlain s) : trim s = s :=
  trim_eq_self (fun c hc => (h c (List.mem_of_mem_head? hc)).1)
    (fun c hc => (h c (List.mem_of_mem_getLast? hc)).1)

theorem IsPlain.lower_eq {s : Chars} (h : IsPlain s) : s.map Char.toLower = s :=
  (List.map_congr_left fun c hc => (h c hc).2).trans (List.map_id s)

theorem IsPlain.eqIgnoreAsciiCase {s t : Chars} (hs : IsPlain s) (ht : IsPlain t) :
    eqIgnoreAsciiCase s t = true ↔ s = t := by
  rw [Text.eqIgnoreAsciiCase, hs.lower_eq, ht.lower_eq, beq_iff_eq]

theorem mapM_eq_ok {α β ε : Type} {f : α → Except ε β} {xs : List α} {ys : List β} :
    xs.mapM f = .ok ys ↔ List.Forall₂ (fun x y => f x = .ok y) xs ys := by
  induction xs generalizing ys with
  | nil =>
    rw [List.mapM_nil, List.forall₂_nil_left_iff]
    exact ⟨fun h => (Except.ok.inj h).symm, fun h => by rw [h]; rfl⟩
  | cons x xs ih =>
    rw [List.mapM_cons, List.forall₂_cons_left_iff]
    cases f x with
    | error e =>
      constructor
      · exact fun h => nomatch h
      · rintro ⟨y, ys, h, -⟩
        exact nomatch h
    | ok y =>
      cases hxs : xs.mapM f with
      | error e =>
        constructor
        · exact fun h => nomatch h
        · rintro ⟨y, ys, -, h, -⟩
          exact nomatch hxs.symm.trans (ih.mpr h)
      | ok ys' =>
        constructor
        · intro h
          cases h
          exact ⟨y, ys', rfl, ih.mp hxs, rfl⟩
        · rintro ⟨y', ys'', h, hrest, rfl⟩
          cases h
          cases hxs.symm.trans (ih.mpr hrest)
          rfl

theorem forall₂_right {α β : Type*} {R : α → β → Prop} {xs : List α} {ys : List β}
    (h : List.Forall₂ R xs ys) {x : α} (hx : x ∈ xs) : ∃ y, R x y := by
  induction h with
  | nil => exact absurd hx List.not_mem_nil
  | cons hy _ ih =>
    rcases List.mem_cons.mp hx with rfl | hx
    · exact ⟨_, hy⟩
    · exact ih hx

theorem exists_forall₂ {α β : Type*} {R : α → β → Prop} {xs : List α} (h : ∀ x ∈ xs, ∃ y, R x y) :
    ∃ ys, List.Forall₂ R xs ys := by
  induction xs with
  | nil => exact ⟨[], .nil⟩
  | cons x xs ih =>
    obtain ⟨y, hy⟩ := h x List.mem_cons_self
    obtain ⟨ys, hys⟩ := ih fun x hx => h x (List.mem_cons_of_mem _ hx)
    exact ⟨y :: ys, .cons hy hys⟩

end IdaMcp.Foundation.Text
