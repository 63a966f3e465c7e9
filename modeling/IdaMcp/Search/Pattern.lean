import IdaMcp.Error
import IdaMcp.Foundation.Text

namespace IdaMcp.Search

open Foundation Text

def trimHexPrefixes : Chars → Chars
  | '0' :: 'x' :: rest => trimHexPrefixes rest
  | s => s

def lossyByte (a : UInt8) : Char := if a < 0x80 then Char.ofNat a.toNat else '\uFFFD'

def opensLonger (a b : UInt8) : Bool :=
  (a = 0xe0 && 0xa0 ≤ b && b ≤ 0xbf) || (0xe1 ≤ a && a ≤ 0xec && 0x80 ≤ b && b ≤ 0xbf) ||
    (a = 0xed && 0x80 ≤ b && b ≤ 0x9f) || (0xee ≤ a && a ≤ 0xef && 0x80 ≤ b && b ≤ 0xbf) ||
    (a = 0xf0 && 0x90 ≤ b && b ≤ 0xbf) || (0xf1 ≤ a && a ≤ 0xf3 && 0x80 ≤ b && b ≤ 0xbf) ||
    (a = 0xf4 && 0x80 ≤ b && b ≤ 0x8f)

/-- `String::from_utf8_lossy` of a chunk, which has two bytes at most. -/
def lossyChunk : List UInt8 → Chars
  | [a, b] =>
    if a < 0x80 then [lossyByte a, lossyByte b]
    else if 0xc2 ≤ a ∧ a ≤ 0xdf ∧ 0x80 ≤ b ∧ b ≤ 0xbf then
      [Char.ofNat ((a.toNat - 0xc0) * 64 + (b.toNat - 0x80))]
    else if opensLonger a b then ['\uFFFD']
    else ['\uFFFD', lossyByte b]
  | bytes => bytes.map lossyByte

def tokenize (trimmed : Chars) : Except ToolError (List Chars) :=
  if ' ' ∈ trimmed then .ok (splitWhitespace trimmed)
  else
    let bytes := trimmed.flatMap String.utf8EncodeChar
    if bytes.length % 2 ≠ 0 then
      .error (.idaError ("invalid hex pattern length: " ++ String.ofList trimmed))
    else .ok ((pairs bytes).map lossyChunk)

def parseToken (tok : Chars) : Except ToolError (Option UInt8) :=
  if tok = ['?'] ∨ tok = ['?', '?'] then .ok none
  else
    match u8FromHex (trimHexPrefixes tok) with
    | some b => .ok (some b)
    | none => .error (.idaError ("invalid byte: " ++ String.ofList tok))

def parsePattern (pattern : String) : Except ToolError (List (Option UInt8)) := do
  let trimmed := trim pattern.toList
  if trimmed = [] then throw (.idaError "empty pattern")
  let tokens ← tokenize trimmed
  tokens.mapM parseToken

example : parsePattern "48 8b ??" = .ok [some 0x48, some 0x8b, none] := by decide

/-! The grammar of a pattern, and what the parser reads beyond it. -/

def marked (marks : ℕ) (rest : Chars) : Chars := (List.replicate marks ['0', 'x']).flatten ++ rest

inductive Denotes : Chars → Option UInt8 → Prop
  | one : Denotes ['?'] none
  | two : Denotes ['?', '?'] none
  | byte {marks : ℕ} {digits : Chars} (hmarks : marks ≤ 1)
    (hlen : digits.length = 1 ∨ digits.length = 2) (hdigits : IsHex digits) :
    Denotes (marked marks digits) (some (UInt8.ofNat (hexValue digits)))

inductive ReadsLeniently : Chars → Option UInt8 → Prop
  | byte {marks : ℕ} {sign digits : Chars} (hsign : sign = [] ∨ sign = ['+']) (hne : digits ≠ [])
    (hdigits : IsHex digits) (hvalue : hexValue digits < 256)
    (hlenient : 2 ≤ marks ∨ sign = ['+'] ∨ 2 < digits.length) :
    ReadsLeniently (marked marks (sign ++ digits)) (some (UInt8.ofNat (hexValue digits)))

theorem marked_succ (marks : ℕ) (rest : Chars) :
    marked (marks + 1) rest = '0' :: 'x' :: marked marks rest := by
  simp [marked, List.replicate_succ]

theorem trimHexPrefixes_marked (marks : ℕ) (rest : Chars) :
    trimHexPrefixes (marked marks rest) = trimHexPrefixes rest := by
  induction marks with
  | zero => rfl
  | succ marks ih => rw [marked_succ, trimHexPrefixes, ih]

theorem exists_marked (s : Chars) : ∃ marks, s = marked marks (trimHexPrefixes s) := by
  induction s using trimHexPrefixes.induct with
  | case1 rest ih =>
    obtain ⟨marks, hrest⟩ := ih
    exact ⟨marks + 1, by rw [trimHexPrefixes, marked_succ, ← hrest]⟩
  | case2 s hs => exact ⟨0, by rw [trimHexPrefixes.eq_2 s hs]; rfl⟩

theorem not_isHex_x : (hexDigit 'x').isSome = false := by decide

theorem not_isHex_plus : (hexDigit '+').isSome = false := by decide

theorem trimHexPrefixes_number {sign digits : Chars} (hsign : sign = [] ∨ sign = ['+'])
    (hdigits : IsHex digits) : trimHexPrefixes (sign ++ digits) = sign ++ digits := by
  apply trimHexPrefixes.eq_2
  intro rest hrest
  rcases hsign with rfl | rfl
  · have hx := hdigits 'x' (by rw [List.nil_append] at hrest; simp [hrest])
    rw [not_isHex_x] at hx
    exact nomatch hx
  · exact nomatch hrest

theorem u8FromHex_eq_some {s : Chars} {b : UInt8} (h : u8FromHex s = some b) :
    ∃ sign digits : Chars, s = sign ++ digits ∧ (sign = [] ∨ sign = ['+']) ∧ digits ≠ [] ∧
      IsHex digits ∧ hexValue digits < 256 ∧ b = UInt8.ofNat (hexValue digits) := by
  unfold u8FromHex at h
  split at h
  case h_1 | h_2 | h_3 => exact nomatch h
  case h_4 digits hne =>
    obtain ⟨v, hv, rfl⟩ := Option.map_eq_some_iff.mp h
    obtain ⟨hdigits, rfl, hvalue⟩ := readU8_zero.mp hv
    refine ⟨['+'], digits, rfl, .inr rfl, ?_, hdigits, hvalue, rfl⟩
    rintro rfl
    exact hne rfl
  case h_5 hne _ _ _ =>
    obtain ⟨v, hv, rfl⟩ := Option.map_eq_some_iff.mp h
    obtain ⟨hdigits, rfl, hvalue⟩ := readU8_zero.mp hv
    exact ⟨[], s, rfl, .inl rfl, hne, hdigits, hvalue, rfl⟩

theorem parseToken_number {marks : ℕ} {sign digits : Chars} (hsign : sign = [] ∨ sign = ['+'])
    (hne : digits ≠ []) (hdigits : IsHex digits) (hvalue : hexValue digits < 256) :
    parseToken (marked marks (sign ++ digits)) = .ok (some (UInt8.ofNat (hexValue digits))) := by
  have hplain : ¬ (marked marks (sign ++ digits) = ['?'] ∨
      marked marks (sign ++ digits) = ['?', '?']) := by
    intro hwild
    obtain ⟨c, hc⟩ := List.exists_mem_of_ne_nil digits hne
    have hmem : c ∈ marked marks (sign ++ digits) := by simp [marked, hc]
    have hquestion : c = '?' := by
      rcases hwild with hwild | hwild
      · simpa [hwild] using hmem
      · simpa [hwild] using hmem
    exact absurd (hdigits c hc) (by rw [hquestion]; decide)
  rw [parseToken, if_neg hplain, trimHexPrefixes_marked, trimHexPrefixes_number hsign hdigits,
    u8FromHex_number hsign hne hdigits hvalue]

theorem parseToken_eq_ok {tok : Chars} {b : Option UInt8} :
    parseToken tok = .ok b ↔ Denotes tok b ∨ ReadsLeniently tok b := by
  constructor
  · intro h
    unfold parseToken at h
    by_cases hwild : tok = ['?'] ∨ tok = ['?', '?']
    · rw [if_pos hwild] at h
      cases h
      rcases hwild with rfl | rfl
      · exact .inl .one
      · exact .inl .two
    · rw [if_neg hwild] at h
      cases hread : u8FromHex (trimHexPrefixes tok) with
      | none => simp [hread] at h
      | some v =>
        simp only [hread, Except.ok.injEq] at h
        subst h
        obtain ⟨sign, digits, hrest, hsign, hne, hdigits, hvalue, rfl⟩ := u8FromHex_eq_some hread
        obtain ⟨marks, htok⟩ := exists_marked tok
        rw [hrest] at htok
        rw [htok]
        by_cases hlenient : 2 ≤ marks ∨ sign = ['+'] ∨ 2 < digits.length
        · exact .inr (.byte hsign hne hdigits hvalue hlenient)
        · have hlen := List.length_pos_of_ne_nil hne
          have hsign : sign = [] := hsign.resolve_right fun h => hlenient (.inr (.inl h))
          rw [hsign, List.nil_append]
          exact .inl (.byte (by omega) (by omega) hdigits)
  · rintro (h | h)
    · cases h with
      | one => rfl
      | two => rfl
      | byte hmarks hlen hdigits =>
        rename_i marks digits
        have hne : digits ≠ [] := by
          rintro rfl
          simp at hlen
        exact parseToken_number (.inl rfl) hne hdigits (hexValue_lt hlen)
    · cases h with
      | byte hsign hne hdigits hvalue hlenient => exact parseToken_number hsign hne hdigits hvalue

theorem length_marked (marks : ℕ) (rest : Chars) :
    (marked marks rest).length = 2 * marks + rest.length := by
  induction marks with
  | zero => simp [marked]
  | succ marks ih =>
    rw [marked_succ, List.length_cons, List.length_cons, ih]
    omega

theorem ReadsLeniently.not_denotes {tok : Chars} {b c : Option UInt8} (h : ReadsLeniently tok b) :
    ¬ Denotes tok c := by
  intro hdenotes
  have hsame : b = c := by
    have hb := parseToken_eq_ok.mpr (.inr h)
    rw [parseToken_eq_ok.mpr (.inl hdenotes), Except.ok.injEq] at hb
    exact hb.symm
  cases h with
  | byte hsign hne hdigits hvalue hlenient =>
    rename_i marks sign digits
    generalize htok : marked marks (sign ++ digits) = tok at hdenotes
    cases hdenotes with
    | one => exact nomatch hsame
    | two => exact nomatch hsame
    | byte hmarks hlen hdigits' =>
      rename_i marks' digits'
      have htrim := congrArg trimHexPrefixes htok
      rw [trimHexPrefixes_marked, trimHexPrefixes_marked, trimHexPrefixes_number hsign hdigits,
        ← List.nil_append digits', trimHexPrefixes_number (.inl rfl) hdigits'] at htrim
      rw [List.nil_append] at htrim
      have hcount := congrArg List.length htok
      rw [length_marked, length_marked, htrim] at hcount
      rcases hsign with rfl | rfl
      · rw [List.nil_append] at htrim
        subst htrim
        rcases hlenient with hmany | hplus | hlong
        · omega
        · exact nomatch hplus
        · omega
      · have hplus := hdigits' '+' (by rw [← htrim]; simp)
        rw [not_isHex_plus] at hplus
        exact nomatch hplus

/-! Tokens. -/

def Tokens (trimmed : Chars) (tokens : List Chars) : Prop :=
  tokens = splitWhitespace trimmed ∨
    (' ' ∉ trimmed ∧ trimmed.length % 2 = 0 ∧ tokens = pairs trimmed)

def Denoted (pattern : String) (bytes : List (Option UInt8)) : Prop :=
  trim pattern.toList ≠ [] ∧
    ∃ tokens, Tokens (trim pattern.toList) tokens ∧ List.Forall₂ Denotes tokens bytes

/-- What the parser cuts a text into: words only where it has a space. -/
def Pieces (trimmed : Chars) (pieces : List Chars) : Prop :=
  (' ' ∈ trimmed ∧ pieces = splitWhitespace trimmed) ∨
    (' ' ∉ trimmed ∧ trimmed.length % 2 = 0 ∧ pieces = pairs trimmed)

theorem Pieces.tokens {trimmed : Chars} {pieces : List Chars} (h : Pieces trimmed pieces) :
    Tokens trimmed pieces :=
  h.imp And.right id

def IsAscii (s : Chars) : Prop := ∀ c ∈ s, c.toNat < 128

instance (s : Chars) : Decidable (IsAscii s) := List.decidableBAll _ s

theorem isAscii_of_isHex {s : Chars} (h : IsHex s) : IsAscii s := by
  intro c hc
  obtain ⟨d, hd⟩ := Option.isSome_iff_exists.mp (h c hc)
  exact (hexDigit_bounds hd).2

theorem isAscii_marked {marks : ℕ} {rest : Chars} (h : IsAscii rest) :
    IsAscii (marked marks rest) := by
  induction marks with
  | zero => exact h
  | succ marks ih =>
    rw [marked_succ]
    intro c hc
    simp only [List.mem_cons] at hc
    rcases hc with rfl | rfl | hc
    · decide
    · decide
    · exact ih c hc

theorem isAscii_of_parseToken {tok : Chars} {b : Option UInt8} (h : parseToken tok = .ok b) :
    IsAscii tok := by
  rcases parseToken_eq_ok.mp h with h | h
  · cases h with
    | one | two => decide
    | byte hmarks hlen hdigits => exact isAscii_marked (isAscii_of_isHex hdigits)
  · cases h with
    | byte hsign hne hdigits hvalue hlenient =>
      apply isAscii_marked
      intro c hc
      rcases List.mem_append.mp hc with hc | hc
      · rcases hsign with rfl | rfl
        · exact absurd hc List.not_mem_nil
        · rw [List.mem_singleton.mp hc]
          decide
      · exact isAscii_of_isHex hdigits c hc

theorem utf8_ascii {s : Chars} (h : IsAscii s) :
    s.flatMap String.utf8EncodeChar = s.map (fun c => UInt8.ofNat c.toNat) := by
  induction s with
  | nil => rfl
  | cons c s ih =>
    have hc : c.val.toNat ≤ 0x7f := Nat.le_of_lt_succ (h c List.mem_cons_self)
    rw [List.flatMap_cons, ih (fun d hd => h d (List.mem_cons_of_mem _ hd)), String.utf8EncodeChar,
      if_pos hc]
    rfl

theorem asciiByte_lt {c : Char} (h : c.toNat < 128) : UInt8.ofNat c.toNat < 0x80 := by
  rw [UInt8.lt_iff_toNat_lt, UInt8.toNat_ofNat_of_lt' (Nat.lt_trans h (by decide))]
  exact h

theorem lossyByte_ascii {c : Char} (h : c.toNat < 128) : lossyByte (UInt8.ofNat c.toNat) = c := by
  have hbyte : (UInt8.ofNat c.toNat).toNat = c.toNat :=
    UInt8.toNat_ofNat_of_lt' (Nat.lt_trans h (by decide))
  rw [lossyByte, if_pos (asciiByte_lt h), hbyte, Char.ofNat_toNat]

theorem lossyChunk_ascii {s : Chars} (h : IsAscii s) :
    lossyChunk (s.map (fun c => UInt8.ofNat c.toNat)) = s := by
  have hmap : (s.map (fun c => UInt8.ofNat c.toNat)).map lossyByte = s := by
    rw [List.map_map]
    exact (List.map_congr_left fun c hc => lossyByte_ascii (h c hc)).trans (List.map_id s)
  match s, h, hmap with
  | [a, b], h, hmap =>
    have ha := asciiByte_lt (h a List.mem_cons_self)
    simp only [List.map_cons, List.map_nil, lossyChunk, if_pos ha]
    exact hmap
  | [], _, _ => rfl
  | [_], _, hmap => exact hmap
  | _ :: _ :: _ :: _, _, hmap => exact hmap

theorem toNat_replacement : ('\uFFFD').toNat = 0xfffd := rfl

theorem not_ascii_lossyByte {a : UInt8} (h : 128 ≤ a.toNat) : 128 ≤ (lossyByte a).toNat := by
  have hge : ¬ a < 0x80 := by
    rw [UInt8.lt_iff_toNat_lt]
    exact Nat.not_lt_of_le h
  rw [lossyByte, if_neg hge, toNat_replacement]
  decide

theorem not_ascii_lossyChunk {chunk : List UInt8} {x : UInt8} (hx : x ∈ chunk)
    (h : 128 ≤ x.toNat) : ¬ IsAscii (lossyChunk chunk) := by
  have hlarge (s : Chars) (c : Char) (hc : c ∈ s) (hn : 128 ≤ c.toNat) : ¬ IsAscii s :=
    fun hs => absurd (hs c hc) (Nat.not_lt_of_le hn)
  have hmap : ¬ IsAscii (chunk.map lossyByte) :=
    hlarge _ _ (List.mem_map_of_mem hx) (not_ascii_lossyByte h)
  match chunk, hx, hmap with
  | [a, b], hx, hmap =>
    simp only [lossyChunk]
    split_ifs with ha hpair hlonger
    · exact hmap
    · obtain ⟨hlow, hhigh, hcont, -⟩ := hpair
      rw [UInt8.le_iff_toNat_le] at hlow hhigh hcont
      have hlow : 194 ≤ a.toNat := hlow
      have hhigh : a.toNat ≤ 223 := hhigh
      have hb := b.toNat_lt
      have hvalid : ((a.toNat - 0xc0) * 64 + (b.toNat - 0x80)).isValidChar := .inl (by omega)
      apply hlarge _ _ List.mem_cons_self
      rw [Char.ofNat, dif_pos hvalid]
      change 128 ≤ (a.toNat - 0xc0) * 64 + (b.toNat - 0x80)
      omega
    · exact hlarge _ _ List.mem_cons_self (by decide)
    · exact hlarge _ _ List.mem_cons_self (by decide)
  | [], hx, _ => exact absurd hx List.not_mem_nil
  | [_], _, hmap => exact hmap
  | _ :: _ :: _ :: _, _, hmap => exact hmap

theorem not_ascii_utf8 {c : Char} (h : 128 ≤ c.toNat) :
    ∃ x ∈ String.utf8EncodeChar c, 128 ≤ x.toNat := by
  have hlow : ¬ c.val.toNat ≤ 0x7f := Nat.not_le_of_lt h
  rw [String.utf8EncodeChar, if_neg hlow]
  split_ifs
  all_goals
    refine ⟨_, List.mem_cons_self, ?_⟩
    rw [UInt8.toNat_ofNat']
    omega

theorem exists_not_ascii {s : Chars} (h : ¬ IsAscii s) :
    ∃ tok ∈ (pairs (s.flatMap String.utf8EncodeChar)).map lossyChunk, ¬ IsAscii tok := by
  unfold IsAscii at h
  push Not at h
  obtain ⟨c, hc, hlarge⟩ := h
  obtain ⟨a, ha, hbyte⟩ := not_ascii_utf8 hlarge
  obtain ⟨chunk, hchunk, hmem⟩ := exists_pair_of_mem (List.mem_flatMap.mpr ⟨c, hc, ha⟩)
  exact ⟨_, List.mem_map_of_mem hchunk, not_ascii_lossyChunk hmem hbyte⟩

theorem isAscii_of_forall₂ {tokens : List Chars} {bytes : List (Option UInt8)}
    (h : List.Forall₂ (fun tok b => parseToken tok = .ok b) tokens bytes) :
    ∀ tok ∈ tokens, IsAscii tok := by
  intro tok htok
  obtain ⟨b, hb⟩ := forall₂_right h htok
  exact isAscii_of_parseToken hb

theorem tokenize_reads (trimmed : Chars) (bytes : List (Option UInt8)) :
    (∃ tokens, tokenize trimmed = .ok tokens ∧
      List.Forall₂ (fun tok b => parseToken tok = .ok b) tokens bytes) ↔
    ∃ tokens, Pieces trimmed tokens ∧
      List.Forall₂ (fun tok b => parseToken tok = .ok b) tokens bytes := by
  by_cases hspace : ' ' ∈ trimmed
  · simp [tokenize, Pieces, hspace]
  by_cases hascii : IsAscii trimmed
  · have htokens : ((pairs (trimmed.flatMap String.utf8EncodeChar)).map lossyChunk) =
        pairs trimmed := by
      rw [utf8_ascii hascii, pairs_map, List.map_map]
      refine (List.map_congr_left fun p hp => ?_).trans (List.map_id _)
      exact lossyChunk_ascii fun c hc => hascii c (mem_of_mem_pairs hp hc)
    have hlength : (trimmed.flatMap String.utf8EncodeChar).length = trimmed.length := by
      rw [utf8_ascii hascii, List.length_map]
    simp only [tokenize, if_neg hspace, htokens, hlength]
    by_cases heven : trimmed.length % 2 = 0
    · simp [Pieces, hspace, heven]
    · simp [Pieces, hspace, heven]
  · constructor
    · rintro ⟨tokens, htokens, hreads⟩
      obtain ⟨tok, htok, hnot⟩ := exists_not_ascii hascii
      simp only [tokenize, hspace, if_false] at htokens
      split at htokens
      · exact nomatch htokens
      · cases htokens
        exact absurd (isAscii_of_forall₂ hreads tok htok) hnot
    · rintro ⟨tokens, htokens, hreads⟩
      rcases htokens with ⟨h, -⟩ | ⟨-, -, rfl⟩
      · exact absurd h hspace
      · exfalso
        apply hascii
        intro c hc
        obtain ⟨tok, htok, hmem⟩ := exists_pair_of_mem hc
        exact isAscii_of_forall₂ hreads tok htok c hmem

theorem parsePattern_eq_ok (pattern : String) (bytes : List (Option UInt8)) :
    parsePattern pattern = .ok bytes ↔ trim pattern.toList ≠ [] ∧
      ∃ tokens, Pieces (trim pattern.toList) tokens ∧
        List.Forall₂ (fun tok b => Denotes tok b ∨ ReadsLeniently tok b) tokens bytes := by
  simp only [← parseToken_eq_ok]
  rw [← tokenize_reads]
  unfold parsePattern
  by_cases hempty : trim pattern.toList = []
  · simp only [hempty, if_true, ne_eq, not_true, false_and, iff_false]
    exact fun h => nomatch h
  · simp only [hempty, if_false, ne_eq, not_false_iff, true_and]
    change ((tokenize (trim pattern.toList)).bind fun tokens => tokens.mapM parseToken) = _ ↔ _
    cases tokenize (trim pattern.toList) with
    | error e =>
      constructor
      · exact fun h => nomatch h
      · rintro ⟨tokens, h, -⟩
        exact nomatch h
    | ok tokens => simp only [Except.bind, Except.ok.injEq, exists_eq_left', mapM_eq_ok]

/-! Renderings. -/

def renderByte : Option UInt8 → Chars
  | none => ['?', '?']
  | some b => [Nat.digitChar (b.toNat / 16), Nat.digitChar (b.toNat % 16)]

def spaced (bytes : List (Option UInt8)) : String :=
  String.ofList ([' '].intercalate (bytes.map renderByte))

def compact (bytes : List (Option UInt8)) : String :=
  String.ofList (bytes.map renderByte).flatten

theorem hexDigit_digitChar : ∀ n < 16, hexDigit (Nat.digitChar n) = some n := by decide

theorem digitChar_plain : ∀ n < 16, isWhitespace (Nat.digitChar n) = false := by decide

theorem length_renderByte (b : Option UInt8) : (renderByte b).length = 2 := by
  cases b <;> rfl

theorem renderByte_plain (b : Option UInt8) : ∀ c ∈ renderByte b, isWhitespace c = false := by
  cases b with
  | none =>
    intro c hc
    rw [List.eq_of_mem_replicate (show c ∈ List.replicate 2 '?' from hc)]
    decide
  | some b =>
    have hb := b.toNat_lt
    simp only [renderByte, List.mem_cons, List.not_mem_nil, or_false]
    rintro c (rfl | rfl)
    · exact digitChar_plain _ (by omega)
    · exact digitChar_plain _ (by omega)

theorem denotes_renderByte (b : Option UInt8) : Denotes (renderByte b) b := by
  cases b with
  | none => exact .two
  | some b =>
    have hb := b.toNat_lt
    have hhigh := hexDigit_digitChar (b.toNat / 16) (by omega)
    have hlow := hexDigit_digitChar (b.toNat % 16) (by omega)
    have hvalue : hexValue (renderByte (some b)) = b.toNat := by
      simp only [hexValue, renderByte, List.foldl_cons, List.foldl_nil, hhigh, hlow,
        Option.getD_some]
      omega
    have hdigits : IsHex (renderByte (some b)) := by
      intro c hc
      simp only [renderByte, List.mem_cons, List.not_mem_nil, or_false] at hc
      rcases hc with rfl | rfl
      · rw [hhigh]
        rfl
      · rw [hlow]
        rfl
    have hread := Denotes.byte (Nat.zero_le 1) (.inr (length_renderByte (some b))) hdigits
    rw [hvalue, UInt8.ofNat_toNat] at hread
    exact hread

theorem parsePattern_of_tokens (bytes : List (Option UInt8)) (text : Chars) (hne : text ≠ [])
    (htrim : trim text = text) (htokens : Pieces text (bytes.map renderByte)) :
    parsePattern (String.ofList text) = .ok bytes := by
  rw [parsePattern_eq_ok, String.toList_ofList, htrim]
  refine ⟨hne, _, htokens, ?_⟩
  rw [List.forall₂_map_left_iff, List.forall₂_same]
  exact fun b _ => .inl (denotes_renderByte b)

theorem parsePattern_compact (bytes : List (Option UInt8)) (hbytes : bytes ≠ []) :
    parsePattern (compact bytes) = .ok bytes := by
  have hplain : ∀ c ∈ (bytes.map renderByte).flatten, isWhitespace c = false := by
    intro c hc
    obtain ⟨w, hw, hc⟩ := List.mem_flatten.mp hc
    obtain ⟨b, -, rfl⟩ := List.mem_map.mp hw
    exact renderByte_plain b c hc
  have hlength : (bytes.map renderByte).flatten.length = 2 * bytes.length := by
    simp [List.length_flatten, Function.comp_def, length_renderByte, Nat.mul_comm]
  apply parsePattern_of_tokens
  · intro hnil
    rw [hnil] at hlength
    have hpos := List.length_pos_of_ne_nil hbytes
    rw [List.length_nil] at hlength
    omega
  · exact trim_eq_self (fun c hc => hplain c (List.mem_of_mem_head? hc))
      (fun c hc => hplain c (List.mem_of_mem_getLast? hc))
  · refine .inr ⟨fun hspace => ?_, by omega, ?_⟩
    · exact absurd (hplain ' ' hspace) (by decide)
    · rw [pairs_flatten]
      intro w hw
      obtain ⟨b, -, rfl⟩ := List.mem_map.mp hw
      exact length_renderByte b

theorem parsePattern_spaced (bytes : List (Option UInt8)) (hbytes : bytes ≠ []) :
    parsePattern (spaced bytes) = .ok bytes := by
  have hwords : ∀ w ∈ bytes.map renderByte, w ≠ [] := by
    intro w hw
    obtain ⟨b, -, rfl⟩ := List.mem_map.mp hw
    exact List.ne_nil_of_length_pos (by rw [length_renderByte]; decide)
  have hplain : ∀ w ∈ bytes.map renderByte, ∀ c ∈ w, isWhitespace c = false := by
    intro w hw
    obtain ⟨b, -, rfl⟩ := List.mem_map.mp hw
    exact renderByte_plain b
  obtain ⟨b, rest, rfl⟩ := List.exists_cons_of_ne_nil hbytes
  cases rest with
  | nil =>
    have hsame : spaced [b] = compact [b] := by simp [spaced, compact]
    rw [hsame]
    exact parsePattern_compact [b] hbytes
  | cons b' rest =>
    have hspace : ' ' ∈ [' '].intercalate ((b :: b' :: rest).map renderByte) := by
      simp [List.intercalate_cons_cons]
    apply parsePattern_of_tokens
    · exact List.ne_nil_of_mem hspace
    · exact trim_join _ hwords hplain
    · exact .inl ⟨hspace, (splitWhitespace_join _ hwords hplain).symm⟩

/-- Whether every token can be read, one of them only because the number parser is lenient. -/
def ReadLeniently (pattern : String) : Prop :=
  trim pattern.toList ≠ [] ∧ ∃ tokens, Pieces (trim pattern.toList) tokens ∧
    (∀ tok ∈ tokens, ∃ b, Denotes tok b ∨ ReadsLeniently tok b) ∧
    ∃ tok ∈ tokens, ∃ b, ReadsLeniently tok b

/-- A list of tokens with no space in it, which is cut into pairs instead. -/
def CutApart (pattern : String) : Prop :=
  trim pattern.toList ≠ [] ∧ ' ' ∉ trim pattern.toList ∧ (trim pattern.toList).length ≠ 2 ∧
    ∀ word ∈ splitWhitespace (trim pattern.toList), ∃ b, Denotes word b

theorem plain_of_hex {s : Chars} (h : IsHex s) : ∀ c ∈ s, isWhitespace c = false :=
  fun c hc => not_whitespace_of_hexDigit (h c hc)

theorem plain_of_marked {marks : ℕ} {rest : Chars} (h : ∀ c ∈ rest, isWhitespace c = false) :
    ∀ c ∈ marked marks rest, isWhitespace c = false := by
  induction marks with
  | zero => exact h
  | succ marks ih =>
    rw [marked_succ, List.forall_mem_cons, List.forall_mem_cons]
    exact ⟨rfl, rfl, ih⟩

theorem plain_of_read {tok : Chars} {b : Option UInt8} (h : Denotes tok b ∨ ReadsLeniently tok b) :
    ∀ c ∈ tok, isWhitespace c = false := by
  rcases h with h | h
  · cases h with
    | one => exact List.forall_mem_singleton.mpr rfl
    | two => exact List.forall_mem_cons.mpr ⟨rfl, List.forall_mem_singleton.mpr rfl⟩
    | byte hmarks hlen hdigits => exact plain_of_marked (plain_of_hex hdigits)
  · cases h with
    | byte hsign hne hdigits hvalue hlenient =>
      apply plain_of_marked
      rw [List.forall_mem_append]
      refine ⟨?_, plain_of_hex hdigits⟩
      rcases hsign with rfl | rfl
      · exact List.forall_mem_nil _
      · exact List.forall_mem_singleton.mpr rfl

theorem length_eq_two_of_denotes {s : Chars} {b : Option UInt8} (h : Denotes s b)
    (heven : s.length % 2 = 0)
    (hpairs : ∀ tok ∈ pairs s, ∃ b, Denotes tok b ∨ ReadsLeniently tok b) : s.length = 2 := by
  cases h with
  | one => simp at heven
  | two => rfl
  | @byte marks digits hmarks hlen hdigits =>
    rw [length_marked] at heven ⊢
    obtain rfl | rfl := Nat.le_one_iff_eq_zero_or_eq_one.mp hmarks
    · omega
    · exfalso
      obtain ⟨b, hb⟩ := hpairs ['0', 'x'] (by simp [marked, pairs])
      rw [← parseToken_eq_ok] at hb
      cases hb

theorem words_of_pairs {s : Chars} (hne : s ≠ []) (heven : s.length % 2 = 0)
    (hpairs : ∀ tok ∈ pairs s, ∃ b, Denotes tok b ∨ ReadsLeniently tok b)
    (hwords : ∀ word ∈ splitWhitespace s, ∃ b, Denotes word b) :
    s.length = 2 ∧ splitWhitespace s = pairs s := by
  have hplain : ∀ c ∈ s, isWhitespace c = false := by
    intro c hc
    obtain ⟨tok, htok, hmem⟩ := exists_pair_of_mem hc
    obtain ⟨b, hb⟩ := hpairs tok htok
    exact plain_of_read hb c hmem
  have hword := splitWhitespace_word hplain hne
  obtain ⟨b, hb⟩ := hwords s (by rw [hword]; exact List.mem_singleton_self s)
  have hlength := length_eq_two_of_denotes hb heven hpairs
  refine ⟨hlength, ?_⟩
  obtain ⟨c, d, rfl⟩ := List.length_eq_two.mp hlength
  exact hword

theorem tokens_eq_pieces {s : Chars} {tokens pieces : List Chars} (hne : s ≠ [])
    (hpieces : Pieces s pieces)
    (hreads : ∀ tok ∈ pieces, ∃ b, Denotes tok b ∨ ReadsLeniently tok b) (htokens : Tokens s tokens)
    (hdenotes : ∀ tok ∈ tokens, ∃ b, Denotes tok b) : tokens = pieces := by
  rcases hpieces with ⟨hspace, rfl⟩ | ⟨hspace, heven, rfl⟩
  · rcases htokens with rfl | ⟨hnone, -⟩
    · rfl
    · exact absurd hspace hnone
  · rcases htokens with rfl | ⟨-, -, rfl⟩
    · exact (words_of_pairs hne heven hreads hdenotes).2
    · rfl

theorem trimmed_pair {s : Chars} (hlength : (trim s).length = 2) :
    splitWhitespace (trim s) = pairs (trim s) := by
  obtain ⟨hfirst, hlast⟩ := trim_ends s
  obtain ⟨c, d, hpair⟩ := List.length_eq_two.mp hlength
  rw [hpair] at hfirst hlast ⊢
  apply splitWhitespace_word _ (List.cons_ne_nil _ _)
  simp only [List.forall_mem_cons]
  exact ⟨hfirst c rfl, hlast d rfl, fun _ h => absurd h List.not_mem_nil⟩

/-- The parser keeps to the grammar on exactly the patterns that it does not read leniently or cut
apart, and reads back what the two renderings show. -/
theorem parse_pattern_exact (pattern : String) :
    ((∀ bytes, parsePattern pattern = .ok bytes ↔ Denoted pattern bytes) ↔
      ¬ ReadLeniently pattern ∧ ¬ CutApart pattern) ∧
    ∀ bytes : List (Option UInt8), bytes ≠ [] →
      parsePattern (spaced bytes) = .ok bytes ∧ parsePattern (compact bytes) = .ok bytes := by
  refine ⟨?_, fun bytes hbytes => ⟨parsePattern_spaced bytes hbytes,
    parsePattern_compact bytes hbytes⟩⟩
  constructor
  · intro hagrees
    constructor
    · rintro ⟨hne, pieces, hpieces, hreads, tok, htok, b, hlenient⟩
      obtain ⟨bytes, hbytes⟩ := exists_forall₂ hreads
      obtain ⟨-, tokens, htokens, hdenotes⟩ := (hagrees bytes).mp
        ((parsePattern_eq_ok pattern bytes).mpr ⟨hne, pieces, hpieces, hbytes⟩)
      rw [tokens_eq_pieces hne hpieces hreads htokens fun _ h => forall₂_right hdenotes h] at hdenotes
      obtain ⟨c, hc⟩ := forall₂_right hdenotes htok
      exact hlenient.not_denotes hc
    · rintro ⟨hne, hspace, hlength, hwords⟩
      obtain ⟨bytes, hbytes⟩ := exists_forall₂ hwords
      obtain ⟨-, pieces, hpieces, hreads⟩ := (parsePattern_eq_ok pattern bytes).mp
        ((hagrees bytes).mpr ⟨hne, _, .inl rfl, hbytes⟩)
      rcases hpieces with ⟨hsome, -⟩ | ⟨-, heven, rfl⟩
      · exact hspace hsome
      · exact hlength (words_of_pairs hne heven (fun _ h => forall₂_right hreads h) hwords).1
  · rintro ⟨hstrict, hwhole⟩ bytes
    rw [parsePattern_eq_ok]
    constructor
    · rintro ⟨hne, pieces, hpieces, hreads⟩
      have hplain : ∀ tok ∈ pieces, ∀ b, ¬ ReadsLeniently tok b := by
        intro tok htok b hlenient
        exact hstrict ⟨hne, pieces, hpieces, fun _ h => forall₂_right hreads h, tok, htok, b, hlenient⟩
      refine ⟨hne, pieces, hpieces.tokens, ?_⟩
      refine ((List.forall₂_and_left pieces bytes).mpr ⟨hplain, hreads⟩).imp ?_
      rintro tok b ⟨hno, hread⟩
      exact hread.resolve_right (hno b)
    · rintro ⟨hne, tokens, htokens, hdenotes⟩
      have hpieces : Pieces (trim pattern.toList) tokens := by
        rcases htokens with rfl | hpairs
        · by_cases hspace : ' ' ∈ trim pattern.toList
          · exact .inl ⟨hspace, rfl⟩
          · have hlength : (trim pattern.toList).length = 2 := by
              by_contra hlength
              exact hwhole ⟨hne, hspace, hlength, fun _ h => forall₂_right hdenotes h⟩
            exact .inr ⟨hspace, by omega, trimmed_pair hlength⟩
        · exact .inr hpairs
      exact ⟨hne, tokens, hpieces, hdenotes.imp fun _ _ => .inl⟩

/-- A sign passes for a digit, and a pattern of one byte is searched for; a tab between two bytes
is no separator. -/
theorem parse_pattern_reads_sign :
    (parsePattern "+f" = .ok [some 0x0f] ∧ ¬ ∃ bytes, Denoted "+f" bytes) ∧
      (∀ bytes, parsePattern "48\t8b" ≠ .ok bytes) ∧ Denoted "48\t8b" [some 0x48, some 0x8b] := by
  refine ⟨⟨by decide, ?_⟩, ?_, by decide, _, .inl rfl, ?_⟩
  · rintro ⟨bytes, hne, tokens, htokens, hdenotes⟩
    have hpieces : Pieces (trim "+f".toList) [['+', 'f']] := .inr (by decide)
    have hlenient : ReadsLeniently (marked 0 (['+'] ++ ['f'])) (some (UInt8.ofNat (hexValue ['f']))) :=
      .byte (.inr rfl) (by decide) (by decide) (by decide) (.inr (.inl rfl))
    have hreads : ∀ tok ∈ [['+', 'f']], ∃ b, Denotes tok b ∨ ReadsLeniently tok b := by
      intro tok htok
      rw [List.mem_singleton.mp htok]
      exact ⟨_, .inr hlenient⟩
    rw [tokens_eq_pieces hne hpieces hreads htokens fun _ h => forall₂_right hdenotes h] at hdenotes
    obtain ⟨b, hb⟩ := forall₂_right hdenotes List.mem_cons_self
    exact hlenient.not_denotes hb
  · intro bytes h
    exact nomatch h
  · have hwords : splitWhitespace (trim "48\t8b".toList) = [['4', '8'], ['8', 'b']] := by decide
    rw [hwords]
    exact .cons (denotes_renderByte (some 0x48)) (.cons (denotes_renderByte (some 0x8b)) .nil)

end IdaMcp.Search
