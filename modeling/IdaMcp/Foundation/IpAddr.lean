import IdaMcp.Foundation.Radix

/-! The addresses of hosts, read and shown as the standard library does. -/

namespace IdaMcp.Foundation

open Text

inductive IpAddr
  | v4 (a b c d : UInt8)
  | v6 (segments : Vector UInt16 8)
deriving DecidableEq

namespace IpAddr

def isLoopback : IpAddr → Bool
  | v4 a _ _ _ => a = 127
  | v6 segments => segments.toList = [0, 0, 0, 0, 0, 0, 0, 1]

def isUnspecified : IpAddr → Bool
  | v4 a b c d => [a, b, c, d] = [0, 0, 0, 0]
  | v6 segments => segments.toList = [0, 0, 0, 0, 0, 0, 0, 0]

/-! Reading. -/

def readNumber (radix maxDigits limit : ℕ) (allowZeroPrefix : Bool) (s : Chars) : Option (ℕ × Chars) :=
  let digits := s.takeWhile fun c => (Radix.digit radix c).isSome
  let rest := s.dropWhile fun c => (Radix.digit radix c).isSome
  if digits = [] ∨ maxDigits < digits.length then none
  else if allowZeroPrefix = false ∧ digits.head? = some '0' ∧ 1 < digits.length then none
  else (Radix.readDigits radix limit 0 digits).map (·, rest)

def readSeparator {α : Type*} (separator : Char) (index : ℕ) (inner : Chars → Option (α × Chars))
    (s : Chars) : Option (α × Chars) :=
  if index = 0 then inner s
  else match s with
    | c :: rest => if c = separator then inner rest else none
    | [] => none

def readOctet : Chars → Option (ℕ × Chars) := readNumber 10 3 256 false

def readIpv4Addr (s : Chars) : Option ((ℕ × ℕ × ℕ × ℕ) × Chars) := do
  let (a, s) ← readSeparator '.' 0 readOctet s
  let (b, s) ← readSeparator '.' 1 readOctet s
  let (c, s) ← readSeparator '.' 2 readOctet s
  let (d, s) ← readSeparator '.' 3 readOctet s
  some ((a, b, c, d), s)

def readGroups : (left index : ℕ) → Chars → List ℕ × Bool × Chars
  | 0, _, s => ([], false, s)
  | left + 1, index, s =>
    match if 0 < left then readSeparator ':' index readIpv4Addr s else none with
    | some ((a, b, c, d), rest) => ([a * 256 + b, c * 256 + d], true, rest)
    | none =>
      match readSeparator ':' index (readNumber 16 4 65536 true) s with
      | some (group, rest) =>
        let (groups, ipv4, rest) := readGroups left (index + 1) rest
        (group :: groups, ipv4, rest)
      | none => ([], false, s)

def ofGroups (head tail : List ℕ) : IpAddr :=
  .v6 (Vector.ofFn fun i => UInt16.ofNat
    (if 8 ≤ i + tail.length then tail.getD (i + tail.length - 8) 0 else head.getD i 0))

def readIpv6Addr (s : Chars) : Option (IpAddr × Chars) :=
  match readGroups 8 0 s with
  | (head, ipv4, rest) =>
    if head.length = 8 then some (ofGroups head [], rest)
    else if ipv4 then none
    else match rest with
      | ':' :: ':' :: rest =>
        let (tail, _, rest) := readGroups (8 - (head.length + 1)) 0 rest
        some (ofGroups head tail, rest)
      | _ => none

def readIpAddr (s : Chars) : Option (IpAddr × Chars) :=
  match readIpv4Addr s with
  | some ((a, b, c, d), rest) => some (.v4 (.ofNat a) (.ofNat b) (.ofNat c) (.ofNat d), rest)
  | none => readIpv6Addr s

def parse (s : Chars) : Option IpAddr :=
  match readIpAddr s with
  | some (ip, []) => some ip
  | _ => none

/-! Showing. -/

def zeroSpan : (start : ℕ) → (current longest : ℕ × ℕ) → List UInt16 → ℕ × ℕ
  | _, _, longest, [] => longest
  | start, current, longest, segment :: segments =>
    if segment = 0 then
      let current := if current.2 = 0 then (start, 1) else (current.1, current.2 + 1)
      zeroSpan (start + 1) current (if longest.2 < current.2 then current else longest) segments
    else zeroSpan (start + 1) (0, 0) longest segments

def displaySegments (segments : List UInt16) : Chars :=
  [':'].intercalate (segments.map fun segment => Nat.toDigits 16 segment.toNat)

def displayOctets (octets : List ℕ) : Chars := ['.'].intercalate (octets.map (Nat.toDigits 10))

def display : IpAddr → Chars
  | v4 a b c d => displayOctets [a.toNat, b.toNat, c.toNat, d.toNat]
  | v6 segments =>
    match segments.toList with
    | [0, 0, 0, 0, 0, 0xffff, ab, cd] => "::ffff:".toList ++
        displayOctets [ab.toNat / 256, ab.toNat % 256, cd.toNat / 256, cd.toNat % 256]
    | segments =>
      match zeroSpan 0 (0, 0) (0, 0) segments with
      | (start, length) =>
        if 1 < length then displaySegments (segments.take start) ++ "::".toList ++
          displaySegments (segments.drop (start + length))
        else displaySegments segments

/-! The characters of an address. -/

def IsIpChar (c : Char) : Prop := (hexDigit c).isSome ∨ c = '.' ∨ c = ':'

def Left (s rest : Chars) : Prop := ∃ used, s = used ++ rest ∧ ∀ c ∈ used, IsIpChar c

theorem Left.refl (s : Chars) : Left s s := ⟨[], rfl, by simp⟩

theorem Left.trans {s t u : Chars} (hst : Left s t) (htu : Left t u) : Left s u := by
  obtain ⟨used, rfl, hused⟩ := hst
  obtain ⟨more, rfl, hmore⟩ := htu
  refine ⟨used ++ more, by rw [List.append_assoc], ?_⟩
  intro c hc
  obtain hc | hc := List.mem_append.mp hc
  · exact hused c hc
  · exact hmore c hc

theorem Left.cons {c : Char} {s rest : Chars} (hc : IsIpChar c) (h : Left s rest) :
    Left (c :: s) rest := by
  obtain ⟨used, rfl, hused⟩ := h
  exact ⟨c :: used, rfl, List.forall_mem_cons.mpr ⟨hc, hused⟩⟩

def Leaves {α : Type*} (read : Chars → Option (α × Chars)) : Prop :=
  ∀ s a rest, read s = some (a, rest) → Left s rest

theorem readNumber_leaves (radix maxDigits limit : ℕ) (allowZeroPrefix : Bool) :
    Leaves (readNumber radix maxDigits limit allowZeroPrefix) := by
  intro s n rest h
  unfold readNumber at h
  dsimp only at h
  split_ifs at h
  obtain ⟨m, -, hm⟩ := Option.map_eq_some_iff.mp h
  obtain ⟨-, rfl⟩ := Prod.mk.inj hm
  refine ⟨_, (List.takeWhile_append_dropWhile ..).symm, ?_⟩
  intro c hc
  have hdigit := List.mem_takeWhile_imp hc
  left
  rw [Radix.digit] at hdigit
  cases hhex : hexDigit c with
  | none => simp [hhex] at hdigit
  | some d => rfl

theorem readSeparator_leaves {α : Type*} {separator : Char} {inner : Chars → Option (α × Chars)}
    (hseparator : IsIpChar separator) (index : ℕ) (hinner : Leaves inner) :
    Leaves (readSeparator separator index inner) := by
  intro s a rest h
  unfold readSeparator at h
  split_ifs at h
  · exact hinner _ _ _ h
  · split at h
    · split_ifs at h with hc
      rw [hc]
      exact (hinner _ _ _ h).cons hseparator
    · cases h

theorem readIpv4Addr_leaves : Leaves readIpv4Addr := by
  have hoctet (index : ℕ) : Leaves (readSeparator '.' index readOctet) :=
    readSeparator_leaves (.inr (.inl rfl)) index (readNumber_leaves _ _ _ _)
  intro s octets rest h
  simp only [readIpv4Addr, Option.bind_eq_bind, Option.bind_eq_some_iff, Option.some.injEq,
    Prod.mk.injEq, Prod.exists] at h
  obtain ⟨a, s₁, ha, b, s₂, hb, c, s₃, hc, d, s₄, hd, -, rfl⟩ := h
  exact (hoctet 0 _ _ _ ha).trans ((hoctet 1 _ _ _ hb).trans ((hoctet 2 _ _ _ hc).trans (hoctet 3 _ _ _ hd)))

theorem readGroups_leaves (left index : ℕ) (s : Chars) : Left s (readGroups left index s).2.2 := by
  have hcolon : IsIpChar ':' := .inr (.inr rfl)
  induction left generalizing index s with
  | zero => exact .refl s
  | succ left ih =>
    unfold readGroups
    split
    · rename_i a b c d rest hipv4
      split_ifs at hipv4
      exact readSeparator_leaves hcolon index readIpv4Addr_leaves _ _ _ hipv4
    · split
      · rename_i group rest hgroup
        exact (readSeparator_leaves hcolon index (readNumber_leaves _ _ _ _) _ _ _ hgroup).trans (ih _ _)
      · exact .refl s

theorem readIpv6Addr_leaves : Leaves readIpv6Addr := by
  have hcolon : IsIpChar ':' := .inr (.inr rfl)
  intro s ip rest h
  unfold readIpv6Addr at h
  have hhead := readGroups_leaves 8 0 s
  dsimp only at h
  split_ifs at h
  · cases h
    exact hhead
  · split at h
    · rename_i tail hcolons
      cases h
      rw [hcolons] at hhead
      exact hhead.trans (((readGroups_leaves _ 0 tail).cons hcolon).cons hcolon)
    · cases h

theorem parse_chars {s : Chars} {ip : IpAddr} (h : parse s = some ip) : ∀ c ∈ s, IsIpChar c := by
  have hread : Left s [] := by
    unfold parse at h
    split at h
    · rename_i ip' hread
      unfold readIpAddr at hread
      split at hread
      · rename_i a b c d rest hipv4
        cases hread
        exact readIpv4Addr_leaves _ _ _ hipv4
      · exact readIpv6Addr_leaves _ _ _ hread
    · cases h
  obtain ⟨used, rfl, hused⟩ := hread
  rwa [List.append_nil]

end IpAddr

end IdaMcp.Foundation
