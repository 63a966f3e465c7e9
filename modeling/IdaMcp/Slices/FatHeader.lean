import Mathlib.Data.List.Nodup
import Mathlib.Data.List.Range
import Mathlib.Tactic.Ring
import IdaMcp.Foundation.Text
import IdaMcp.Foundation.U64
import IdaMcp.Slices.Extract

namespace IdaMcp.Slices

open Foundation Text

abbrev Bytes := List UInt8

def fatMagic : UInt32 := 0xcafebabe

def fatMagic64 : UInt32 := 0xcafebabf

/-- What a class file, which has the same magic, holds where a fat header has its count. -/
def javaClassMinMajor : ℕ := 45

def fatArchSize : ℕ := 20

def fatArch64Size : ℕ := 32

def fatHeaderReadLimit : ℕ := 8 + javaClassMinMajor * fatArch64Size

def cpuArchAbi64 : Int32 := 0x01000000
def cpuArchAbi64_32 : Int32 := 0x02000000
def cpuTypeX86 : Int32 := 7
def cpuTypeX86_64 : Int32 := cpuTypeX86 ||| cpuArchAbi64
def cpuTypeArm : Int32 := 12
def cpuTypeArm64 : Int32 := cpuTypeArm ||| cpuArchAbi64
def cpuTypeArm64_32 : Int32 := cpuTypeArm ||| cpuArchAbi64_32
def cpuTypePowerpc : Int32 := 18
def cpuTypePowerpc64 : Int32 := cpuTypePowerpc ||| cpuArchAbi64
def cpuSubtypeFeatureMask : UInt32 := 0xff000000

def knownArchs : List ((Int32 × UInt32) × String) :=
  [((cpuTypeX86, 3), "i386"), ((cpuTypeX86_64, 3), "x86_64"), ((cpuTypeX86_64, 8), "x86_64h"),
    ((cpuTypeArm, 6), "armv6"), ((cpuTypeArm, 9), "armv7"), ((cpuTypeArm, 11), "armv7s"),
    ((cpuTypeArm, 12), "armv7k"), ((cpuTypeArm64, 0), "arm64"), ((cpuTypeArm64, 2), "arm64e"),
    ((cpuTypeArm64, 12), "arm64e.x1"), ((cpuTypeArm64_32, 0), "arm64_32"),
    ((cpuTypeArm64_32, 1), "arm64_32"), ((cpuTypePowerpc, 0), "ppc"), ((cpuTypePowerpc64, 0), "ppc64")]

def archName (cputype cpusubtype : Int32) : String :=
  let subtype := cpusubtype.toUInt32 &&& ~~~cpuSubtypeFeatureMask
  (knownArchs.lookup (cputype, subtype)).getD
    ("cputype" ++ hexText cputype.toUInt32.toNat ++ "-subtype" ++ hexText cpusubtype.toUInt32.toNat)

def bigEndian (bytes : Bytes) : ℕ := bytes.foldl (fun n b => n * 256 + b.toNat) 0

def fieldAt (bytes : Bytes) (pos width : ℕ) : Option Bytes := do
  let stop ← U64.add pos width
  if stop ≤ bytes.length then some ((bytes.drop pos).take width) else none

def beU32 (bytes : Bytes) (pos : ℕ) : Option UInt32 :=
  (fieldAt bytes pos 4).map fun field => UInt32.ofNat (bigEndian field)

def beU64 (bytes : Bytes) (pos : ℕ) : Option UInt64 :=
  (fieldAt bytes pos 8).map fun field => UInt64.ofNat (bigEndian field)

def parseFatArch (header : Bytes) (pos : ℕ) (wide : Bool) :
    Option (Int32 × Int32 × UInt64 × UInt64) := do
  let cputype ← beU32 header pos
  let cpusubtype ← beU32 header (pos + 4)
  if wide then
    let offset ← beU64 header (pos + 8)
    let size ← beU64 header (pos + 16)
    some (cputype.toInt32, cpusubtype.toInt32, offset, size)
  else
    let offset ← beU32 header (pos + 8)
    let size ← beU32 header (pos + 12)
    some (cputype.toInt32, cpusubtype.toInt32, offset.toUInt64, size.toUInt64)

def parseEntries (header : Bytes) (fileLen : UInt64) (wide : Bool) (entrySize tableEnd : ℕ) :
    List ℕ → List FatSlice → Except String (List FatSlice)
  | [], slices => .ok slices
  | index :: rest, slices =>
    match parseFatArch header (8 + index * entrySize) wide with
    | none => .error ("fat slice " ++ toString (index + 1) ++ " entry is truncated")
    | some (cputype, cpusubtype, offset, size) =>
      let arch := archName cputype cpusubtype
      let stop := U64.add offset.toNat size.toNat
      if size = 0 ∨ offset.toNat < tableEnd ∨ stop.all (fileLen.toNat < ·) then
        .error ("fat slice " ++ toString (index + 1) ++ " (" ++ arch ++ ") spans " ++
          hexText offset.toNat ++ "+" ++ hexText size.toNat ++ ", outside the " ++
          toString fileLen.toNat ++ "-byte file")
      else if slices.any (·.arch = arch) then .error ("fat header lists " ++ arch ++ " twice")
      else
        parseEntries header fileLen wide entrySize tableEnd rest
          (slices ++ [⟨arch, offset.toNat, size.toNat⟩])

def parseFatHeader (header : Bytes) (fileLen : UInt64) : Except String (Option (List FatSlice)) :=
  match beU32 header 0 with
  | none => .ok none
  | some magic =>
    if magic ≠ fatMagic ∧ magic ≠ fatMagic64 then .ok none
    else
      let entrySize := if magic = fatMagic then fatArchSize else fatArch64Size
      match beU32 header 4 with
      | none => .ok none
      | some count =>
        if count.toNat = 0 ∨ javaClassMinMajor ≤ count.toNat then .ok none
        else
          let tableEnd := 8 + count.toNat * entrySize
          if header.length < tableEnd then
            .error ("fat header declares " ++ toString count.toNat ++
              " slices but the file ends inside the slice table")
          else
            (parseEntries header fileLen (magic = fatMagic64) entrySize tableEnd
              (List.range count.toNat) []).map some

def selectSlice (slices : List FatSlice) (arch : String) : Option FatSlice :=
  slices.find? fun slice => eqIgnoreAsciiCase slice.arch.toList (trim arch.toList)

/-! What a well-formed header says, read off its bytes. -/

namespace Header

variable (header : Bytes)

def field (pos width : ℕ) : ℕ := bigEndian ((header.drop pos).take width)

def magic : ℕ := field header 0 4

def count : ℕ := field header 4 4

def wide : Prop := magic header = 0xcafebabf

instance : Decidable (wide header) := inferInstanceAs (Decidable (_ = _))

def entrySize : ℕ := if wide header then 32 else 20

def tableEnd : ℕ := 8 + count header * entrySize header

def arch (index : ℕ) : String :=
  let pos := 8 + index * entrySize header
  archName (UInt32.ofNat (field header pos 4)).toInt32
    (UInt32.ofNat (field header (pos + 4) 4)).toInt32

def slice (index : ℕ) : FatSlice :=
  let pos := 8 + index * entrySize header
  if wide header then
    ⟨arch header index, field header (pos + 8) 8, field header (pos + 16) 8⟩
  else ⟨arch header index, field header (pos + 8) 4, field header (pos + 12) 4⟩

def IsFat : Prop :=
  8 ≤ header.length ∧ (magic header = 0xcafebabe ∨ magic header = 0xcafebabf) ∧
    0 < count header ∧ count header < 45

instance : Decidable (IsFat header) := inferInstanceAs (Decidable (_ ∧ _))

def Spans (fileLen index : ℕ) : Prop :=
  0 < (slice header index).size ∧ tableEnd header ≤ (slice header index).offset ∧
    (slice header index).offset + (slice header index).size ≤ fileLen

instance (fileLen index : ℕ) : Decidable (Spans header fileLen index) :=
  inferInstanceAs (Decidable (_ ∧ _))

theorem slice_arch (index : ℕ) : (slice header index).arch = arch header index := by
  simp only [slice]
  split_ifs <;> rfl

def slices : List FatSlice := (List.range (count header)).map (slice header)

structure WellFormed (fileLen : ℕ) : Prop where
  table : tableEnd header ≤ header.length
  spans : ∀ index < count header, Spans header fileLen index
  distinct : (slices header).Pairwise fun a b => a.arch ≠ b.arch

end Header

theorem bigEndian_lt (bytes : Bytes) : bigEndian bytes < 256 ^ bytes.length := by
  have hgrow (n : ℕ) : bytes.foldl (fun n b => n * 256 + b.toNat) n < (n + 1) * 256 ^ bytes.length := by
    induction bytes generalizing n with
    | nil => simp
    | cons b bytes ih =>
      have hb := b.toNat_lt
      have hle : (n * 256 + b.toNat + 1) ≤ (n + 1) * 256 := by omega
      calc (b :: bytes).foldl (fun n b => n * 256 + b.toNat) n
          < (n * 256 + b.toNat + 1) * 256 ^ bytes.length := ih _
        _ ≤ (n + 1) * 256 * 256 ^ bytes.length := Nat.mul_le_mul_right _ hle
        _ = (n + 1) * 256 ^ (b :: bytes).length := by rw [List.length_cons, Nat.pow_succ']; ring
  simpa [bigEndian] using hgrow 0

theorem field_lt (header : Bytes) (pos width : ℕ) : Header.field header pos width < 256 ^ width := by
  refine lt_of_lt_of_le (bigEndian_lt _) (Nat.pow_le_pow_right (by decide) ?_)
  exact List.length_take_le _ _

theorem fieldAt_eq (header : Bytes) (pos width : ℕ) (hpos : pos + width < 2 ^ 64) :
    fieldAt header pos width =
      if pos + width ≤ header.length then some ((header.drop pos).take width) else none := by
  rw [fieldAt, U64.add_eq hpos]
  rfl

theorem beU32_eq (header : Bytes) (pos : ℕ) (hpos : pos + 4 < 2 ^ 64) : beU32 header pos =
    if pos + 4 ≤ header.length then some (UInt32.ofNat (Header.field header pos 4)) else none := by
  rw [beU32, fieldAt_eq header pos 4 hpos]
  split_ifs <;> rfl

theorem beU64_eq (header : Bytes) (pos : ℕ) (hpos : pos + 8 < 2 ^ 64) : beU64 header pos =
    if pos + 8 ≤ header.length then some (UInt64.ofNat (Header.field header pos 8)) else none := by
  rw [beU64, fieldAt_eq header pos 8 hpos]
  split_ifs <;> rfl

theorem toNat_u32 (header : Bytes) (pos : ℕ) :
    (UInt32.ofNat (Header.field header pos 4)).toNat = Header.field header pos 4 :=
  UInt32.toNat_ofNat_of_lt' (field_lt header pos 4)

theorem toNat_u64 (header : Bytes) (pos : ℕ) :
    (UInt64.ofNat (Header.field header pos 8)).toNat = Header.field header pos 8 :=
  UInt64.toNat_ofNat_of_lt' (field_lt header pos 8)

theorem u32_eq_iff (header : Bytes) (pos : ℕ) (c : UInt32) :
    UInt32.ofNat (Header.field header pos 4) = c ↔ Header.field header pos 4 = c.toNat := by
  rw [← UInt32.toNat_inj, toNat_u32]

theorem parseFatHeader_eq (header : Bytes) (fileLen : UInt64) : parseFatHeader header fileLen =
    if ¬ Header.IsFat header then .ok none
    else if header.length < Header.tableEnd header then
      .error ("fat header declares " ++ toString (Header.count header) ++
        " slices but the file ends inside the slice table")
    else
      (parseEntries header fileLen (Header.wide header) (Header.entrySize header)
        (Header.tableEnd header) (List.range (Header.count header)) []).map some := by
  have hmagic : UInt32.ofNat (Header.field header 0 4) = fatMagic ↔
      Header.magic header = 0xcafebabe := u32_eq_iff header 0 fatMagic
  have hmagic64 : UInt32.ofNat (Header.field header 0 4) = fatMagic64 ↔
      Header.magic header = 0xcafebabf := u32_eq_iff header 0 fatMagic64
  have hcount : (UInt32.ofNat (Header.field header 4 4)).toNat = Header.count header :=
    toNat_u32 header 4
  have hwide : Header.magic header = 0xcafebabe ∨ Header.magic header = 0xcafebabf →
      (UInt32.ofNat (Header.field header 0 4) = fatMagic64 ↔ Header.wide header) ∧
        (if UInt32.ofNat (Header.field header 0 4) = fatMagic then fatArchSize else fatArch64Size) =
          Header.entrySize header := by
    intro h
    refine ⟨hmagic64, ?_⟩
    simp only [hmagic, Header.entrySize, Header.wide]
    rcases h with h | h
    · simp [h, fatArchSize]
    · simp [h, fatArch64Size]
  unfold parseFatHeader
  rw [beU32_eq header 0 (by decide), beU32_eq header 4 (by decide)]
  by_cases h8 : 8 ≤ header.length
  · rw [if_pos (show 0 + 4 ≤ header.length by omega), if_pos (show 4 + 4 ≤ header.length from h8)]
    by_cases hm : Header.magic header = 0xcafebabe ∨ Header.magic header = 0xcafebabf
    · obtain ⟨hwide, hsize⟩ := hwide hm
      have hfat : ¬ (UInt32.ofNat (Header.field header 0 4) ≠ fatMagic ∧
          UInt32.ofNat (Header.field header 0 4) ≠ fatMagic64) := by
        rw [ne_eq, ne_eq, hmagic, hmagic64]
        tauto
      simp only [hfat, if_false, hcount, hsize, hwide]
      by_cases hc : Header.count header = 0 ∨ javaClassMinMajor ≤ Header.count header
      · have hnot : ¬ Header.IsFat header := by
          rintro ⟨-, -, hpos, hsmall⟩
          simp only [javaClassMinMajor] at hc
          omega
        rw [if_pos hc, if_pos hnot]
      · have hyes : Header.IsFat header := by
          simp only [javaClassMinMajor] at hc
          exact ⟨h8, hm, by omega, by omega⟩
        rw [if_neg hc, if_neg (not_not.mpr hyes)]
        rfl
    · have hnot : ¬ Header.IsFat header := fun h => hm h.2.1
      have hfat : UInt32.ofNat (Header.field header 0 4) ≠ fatMagic ∧
          UInt32.ofNat (Header.field header 0 4) ≠ fatMagic64 := by
        rw [ne_eq, ne_eq, hmagic, hmagic64]
        tauto
      simp only [hfat, hnot, ne_eq, not_false_iff, and_self, if_true]
  · have hnot : ¬ Header.IsFat header := fun h => h8 h.1
    rw [if_pos hnot, if_neg (show ¬ 4 + 4 ≤ header.length from h8)]
    split_ifs <;> simp

theorem parseFatArch_slice (header : Bytes) (index : ℕ)
    (hcount : index < Header.count header) (hsmall : Header.count header < 45)
    (htable : Header.tableEnd header ≤ header.length) :
    ∃ cputype cpusubtype offset size,
      parseFatArch header (8 + index * Header.entrySize header) (Header.wide header) =
        some (cputype, cpusubtype, offset, size) ∧
      archName cputype cpusubtype = Header.arch header index ∧
      offset.toNat = (Header.slice header index).offset ∧
      size.toNat = (Header.slice header index).size := by
  have hfits : Header.tableEnd header < 2 ^ 32 ∧ 8 + index * Header.entrySize header +
      Header.entrySize header ≤ Header.tableEnd header := by
    have hentry : Header.entrySize header ≤ 32 := by
      unfold Header.entrySize
      split_ifs <;> omega
    have hall := Nat.mul_le_mul hsmall.le hentry
    have hnext := Nat.mul_le_mul_right (Header.entrySize header) (Nat.succ_le_of_lt hcount)
    rw [Nat.succ_mul] at hnext
    unfold Header.tableEnd
    omega
  obtain ⟨hend, hnext⟩ := hfits
  have hsize : Header.entrySize header = if Header.wide header then 32 else 20 := rfl
  generalize hpos : 8 + index * Header.entrySize header = pos at *
  have h32 (d : ℕ) (hd : d + 4 ≤ Header.entrySize header) : beU32 header (pos + d) =
      some (UInt32.ofNat (Header.field header (pos + d) 4)) := by
    rw [beU32_eq header _ (by omega), if_pos (by omega)]
  have h64 (d : ℕ) (hd : d + 8 ≤ Header.entrySize header) : beU64 header (pos + d) =
      some (UInt64.ofNat (Header.field header (pos + d) 8)) := by
    rw [beU64_eq header _ (by omega), if_pos (by omega)]
  have harch : Header.arch header index = archName (UInt32.ofNat (Header.field header pos 4)).toInt32
      (UInt32.ofNat (Header.field header (pos + 4) 4)).toInt32 := by
    rw [Header.arch, hpos]
  have htype := h32 0 (by rw [hsize]; split_ifs <;> omega)
  rw [Nat.add_zero] at htype
  rw [parseFatArch, htype, h32 4 (by rw [hsize]; split_ifs <;> omega)]
  by_cases hwide : Header.wide header
  · rw [if_pos hwide] at hsize
    rw [h64 8 (by omega), h64 16 (by omega)]
    simp only [hwide, decide_true, if_true, Header.slice, hpos]
    exact ⟨_, _, _, _, rfl, harch.symm, toNat_u64 header _, toNat_u64 header _⟩
  · rw [if_neg hwide] at hsize
    rw [h32 8 (by omega), h32 12 (by omega)]
    simp only [hwide, decide_false, Bool.false_eq_true, if_false, Header.slice, hpos]
    refine ⟨_, _, _, _, rfl, harch.symm, ?_, ?_⟩
    · rw [UInt32.toNat_toUInt64, toNat_u32]
    · rw [UInt32.toNat_toUInt64, toNat_u32]

theorem parseEntries_eq_ok (header : Bytes) (fileLen : UInt64) (hsmall : Header.count header < 45)
    (htable : Header.tableEnd header ≤ header.length) (is : List ℕ)
    (his : ∀ i ∈ is, i < Header.count header) (acc out : List FatSlice)
    (hacc : acc.Pairwise fun a b => a.arch ≠ b.arch) :
    parseEntries header fileLen (Header.wide header) (Header.entrySize header)
        (Header.tableEnd header) is acc = .ok out ↔
      (∀ i ∈ is, Header.Spans header fileLen.toNat i) ∧
        ((acc ++ is.map (Header.slice header)).Pairwise fun a b => a.arch ≠ b.arch) ∧
        out = acc ++ is.map (Header.slice header) := by
  induction is generalizing acc with
  | nil => simp [parseEntries, hacc, eq_comm]
  | cons i is ih =>
    obtain ⟨cputype, cpusubtype, offset, size, hparse, harch, hoffset, hsize⟩ :=
      parseFatArch_slice header i (his i List.mem_cons_self) hsmall htable
    simp only [parseEntries, hparse, harch, hoffset, hsize]
    have hspans : (size = 0 ∨ (Header.slice header i).offset < Header.tableEnd header ∨
        (U64.add (Header.slice header i).offset (Header.slice header i).size).all
          (fileLen.toNat < ·) = true) ↔ ¬ Header.Spans header fileLen.toNat i := by
      have hzero : size = 0 ↔ (Header.slice header i).size = 0 := by
        rw [← hsize, ← UInt64.toNat_inj]
        rfl
      have hfits := fileLen.toNat_lt
      rw [Header.Spans, hzero, U64.add]
      split_ifs
      · simp only [Option.all_some, decide_eq_true_eq]
        omega
      · simp only [Option.all_none, or_true, true_iff]
        omega
    rw [if_congr hspans rfl rfl]
    by_cases hspan : Header.Spans header fileLen.toNat i
    · rw [if_neg (not_not.mpr hspan)]
      by_cases htwice : acc.any (·.arch = Header.arch header i) = true
      · rw [if_pos htwice]
        constructor
        · exact fun h => nomatch h
        · rintro ⟨-, hdistinct, -⟩
          obtain ⟨slice, hslice, hsame⟩ := List.any_eq_true.mp htwice
          refine absurd ((of_decide_eq_true hsame).trans (Header.slice_arch header i).symm) ?_
          exact (List.pairwise_append.mp hdistinct).2.2 slice hslice _ List.mem_cons_self
      · have hnew : (acc ++ [Header.slice header i]).Pairwise fun a b => a.arch ≠ b.arch := by
          rw [List.pairwise_append]
          refine ⟨hacc, List.pairwise_singleton _ _, ?_⟩
          intro slice hslice other hother hsame
          rw [List.mem_singleton.mp hother, Header.slice_arch] at hsame
          exact htwice (List.any_eq_true.mpr ⟨slice, hslice, decide_eq_true hsame⟩)
        have hentry : (⟨Header.arch header i, (Header.slice header i).offset,
            (Header.slice header i).size⟩ : FatSlice) = Header.slice header i := by
          rw [← Header.slice_arch]
        rw [if_neg htwice, hentry, ih (fun j hj => his j (List.mem_cons_of_mem _ hj)) _ hnew,
          List.map_cons, List.append_assoc, List.singleton_append, List.forall_mem_cons]
        tauto
    · rw [if_pos hspan]
      constructor
      · exact fun h => nomatch h
      · exact fun h => absurd (h.1 i List.mem_cons_self) hspan

theorem parseFatHeader_eq_none (header : Bytes) (fileLen : UInt64) :
    parseFatHeader header fileLen = .ok none ↔ ¬ Header.IsFat header := by
  rw [parseFatHeader_eq]
  by_cases hfat : Header.IsFat header
  · rw [if_neg (not_not.mpr hfat)]
    split_ifs
    · simp [hfat]
    · cases parseEntries header fileLen (Header.wide header) (Header.entrySize header)
        (Header.tableEnd header) (List.range (Header.count header)) [] <;> simp [Except.map, hfat]
  · simp [hfat]

theorem parseFatHeader_eq_some (header : Bytes) (fileLen : UInt64) (out : List FatSlice) :
    parseFatHeader header fileLen = .ok (some out) ↔ Header.IsFat header ∧
      Header.WellFormed header fileLen.toNat ∧ out = Header.slices header := by
  rw [parseFatHeader_eq]
  by_cases hfat : Header.IsFat header
  · rw [if_neg (not_not.mpr hfat)]
    by_cases htable : header.length < Header.tableEnd header
    · rw [if_pos htable]
      constructor
      · exact fun h => nomatch h
      · exact fun h => absurd h.2.1.table (Nat.not_le_of_lt htable)
    · have hentries := parseEntries_eq_ok header fileLen hfat.2.2.2 (Nat.le_of_not_lt htable)
        (List.range (Header.count header)) (fun i => List.mem_range.mp) [] out List.Pairwise.nil
      simp only [List.mem_range, List.nil_append] at hentries
      rw [if_neg htable]
      have hmap : (parseEntries header fileLen (Header.wide header) (Header.entrySize header)
          (Header.tableEnd header) (List.range (Header.count header)) []).map some =
          .ok (some out) ↔ parseEntries header fileLen (Header.wide header)
            (Header.entrySize header) (Header.tableEnd header)
            (List.range (Header.count header)) [] = .ok out := by
        cases parseEntries header fileLen (Header.wide header) (Header.entrySize header)
          (Header.tableEnd header) (List.range (Header.count header)) [] <;> simp [Except.map]
      rw [hmap, hentries]
      constructor
      · rintro ⟨hspans, hdistinct, hout⟩
        exact ⟨hfat, ⟨Nat.le_of_not_lt htable, hspans, hdistinct⟩, hout⟩
      · rintro ⟨-, hwell, hout⟩
        exact ⟨hwell.spans, hwell.distinct, hout⟩
  · rw [if_pos hfat]
    constructor
    · exact fun h => nomatch h
    · exact fun h => absurd h.1 hfat

/-! Names. -/

theorem archName_plain (cputype cpusubtype : Int32) : IsPlain (archName cputype cpusubtype).toList := by
  have hknown : ∀ entry ∈ knownArchs, IsPlain entry.2.toList := by
    decide
  unfold archName
  dsimp only
  cases hlookup : knownArchs.lookup (cputype, cpusubtype.toUInt32 &&& ~~~cpuSubtypeFeatureMask) with
  | some name =>
    obtain ⟨before, after, hsplit, -⟩ := List.lookup_eq_some_iff.mp hlookup
    have hmem : ((cputype, cpusubtype.toUInt32 &&& ~~~cpuSubtypeFeatureMask), name) ∈ knownArchs := by
      rw [hsplit]
      exact List.mem_append_right before List.mem_cons_self
    exact hknown _ hmem
  | none =>
    have htype : IsPlain "cputype0x".toList := by
      decide
    have hsubtype : IsPlain "-subtype0x".toList := by
      decide
    have hall := ((htype.append (isPlain_hex cputype.toUInt32.toNat)).append hsubtype).append
      (isPlain_hex cpusubtype.toUInt32.toNat)
    simpa [hlookup, hexText, String.toList_append] using hall

theorem selectSlice_arch {slices : List FatSlice}
    (hplain : ∀ s ∈ slices, IsPlain s.arch.toList)
    (hdistinct : slices.Pairwise fun a b => a.arch ≠ b.arch) {slice : FatSlice}
    (hslice : slice ∈ slices) : selectSlice slices slice.arch = some slice := by
  have htest (s : FatSlice) (hs : s ∈ slices) :
      eqIgnoreAsciiCase s.arch.toList (trim slice.arch.toList) = true ↔ s.arch = slice.arch := by
    rw [(hplain slice hslice).trim_eq, (hplain s hs).eqIgnoreAsciiCase (hplain slice hslice),
      String.toList_inj]
  have hnodup : (slices.map FatSlice.arch).Nodup := List.pairwise_map.mpr hdistinct
  have hsome : (selectSlice slices slice.arch).isSome := by
    rw [selectSlice, List.find?_isSome]
    exact ⟨slice, hslice, (htest slice hslice).mpr rfl⟩
  obtain ⟨found, hfound⟩ := Option.isSome_iff_exists.mp hsome
  have hmem : found ∈ slices := List.mem_of_find?_eq_some hfound
  have hpasses := List.find?_some (show slices.find? _ = some found from hfound)
  have hsame : found.arch = slice.arch := (htest found hmem).mp hpasses
  rw [hfound, List.inj_on_of_nodup_map hnodup hmem hslice hsame]

/-! The first bytes of a file decide. -/

theorem fieldAt_take (header : Bytes) {limit pos width : ℕ} (h : pos + width ≤ limit) :
    fieldAt (header.take limit) pos width = fieldAt header pos width := by
  unfold fieldAt
  cases hstop : U64.add pos width with
  | none => rfl
  | some stop =>
    obtain ⟨-, rfl⟩ := U64.add_eq_some.mp hstop
    simp only [Option.bind_eq_bind, Option.bind_some, List.length_take]
    by_cases hlength : pos + width ≤ header.length
    · rw [if_pos (by omega), if_pos hlength, List.drop_take, List.take_take,
        Nat.min_eq_left (by omega)]
    · rw [if_neg (by omega), if_neg hlength]

theorem parseFatArch_take (header : Bytes) {limit pos : ℕ} {wide : Bool}
    (h : pos + (if wide then 32 else 20) ≤ limit) :
    parseFatArch (header.take limit) pos wide = parseFatArch header pos wide := by
  have h32 (p : ℕ) (hp : p + 4 ≤ limit) : beU32 (header.take limit) p = beU32 header p := by
    rw [beU32, beU32, fieldAt_take header hp]
  have h64 (p : ℕ) (hp : p + 8 ≤ limit) : beU64 (header.take limit) p = beU64 header p := by
    rw [beU64, beU64, fieldAt_take header hp]
  cases wide with
  | true =>
    simp only [if_true] at h
    simp only [parseFatArch, if_true, h32 pos (by omega), h32 (pos + 4) (by omega),
      h64 (pos + 8) (by omega), h64 (pos + 16) (by omega)]
  | false =>
    simp only [Bool.false_eq_true, if_false] at h
    simp only [parseFatArch, Bool.false_eq_true, if_false, h32 pos (by omega),
      h32 (pos + 4) (by omega), h32 (pos + 8) (by omega), h32 (pos + 12) (by omega)]

theorem parseEntries_take (header : Bytes) (fileLen : UInt64) (wide : Bool)
    {limit entrySize tableEnd : ℕ} (hsize : entrySize = if wide then 32 else 20) (is : List ℕ)
    (his : ∀ i ∈ is, 8 + i * entrySize + entrySize ≤ limit) (acc : List FatSlice) :
    parseEntries (header.take limit) fileLen wide entrySize tableEnd is acc =
      parseEntries header fileLen wide entrySize tableEnd is acc := by
  induction is generalizing acc with
  | nil => rfl
  | cons i is ih =>
    have hfirst : parseFatArch (header.take limit) (8 + i * entrySize) wide =
        parseFatArch header (8 + i * entrySize) wide :=
      parseFatArch_take header (by rw [← hsize]; exact his i List.mem_cons_self)
    have hrest (acc : List FatSlice) := ih (fun j hj => his j (List.mem_cons_of_mem _ hj)) acc
    simp only [parseEntries, hfirst, hrest]

theorem field_take (header : Bytes) {limit pos width : ℕ} (h : pos + width ≤ limit) :
    Header.field (header.take limit) pos width = Header.field header pos width := by
  rw [Header.field, List.drop_take, List.take_take, Nat.min_eq_left (by omega)]
  rfl

theorem parseFatHeader_take (header : Bytes) (fileLen : UInt64) :
    parseFatHeader (header.take fatHeaderReadLimit) fileLen = parseFatHeader header fileLen := by
  have hlimit : fatHeaderReadLimit = 1448 := rfl
  have hmagic : Header.magic (header.take fatHeaderReadLimit) = Header.magic header :=
    field_take header (by decide)
  have hcount : Header.count (header.take fatHeaderReadLimit) = Header.count header :=
    field_take header (by decide)
  have hwide : Header.wide (header.take fatHeaderReadLimit) ↔ Header.wide header := by
    rw [Header.wide, hmagic, Header.wide]
  have hsize : Header.entrySize (header.take fatHeaderReadLimit) = Header.entrySize header :=
    if_congr hwide rfl rfl
  have hend : Header.tableEnd (header.take fatHeaderReadLimit) = Header.tableEnd header := by
    rw [Header.tableEnd, hcount, hsize, Header.tableEnd]
  have hfat : Header.IsFat (header.take fatHeaderReadLimit) ↔ Header.IsFat header := by
    have hlength : 8 ≤ (header.take fatHeaderReadLimit).length ↔ 8 ≤ header.length := by
      rw [List.length_take]
      omega
    rw [Header.IsFat, hmagic, hcount, hlength, Header.IsFat]
  rw [parseFatHeader_eq, parseFatHeader_eq]
  by_cases hyes : Header.IsFat header
  · have hsmall := hyes.2.2.2
    have hentry : Header.entrySize header ≤ 32 := by
      unfold Header.entrySize
      split_ifs <;> omega
    have htable (n : ℕ) (hn : n ≤ 44) : n * Header.entrySize header ≤ 44 * 32 :=
      Nat.mul_le_mul hn hentry
    have hall := htable (Header.count header) (by omega)
    have hshort : (header.take fatHeaderReadLimit).length < Header.tableEnd header ↔
        header.length < Header.tableEnd header := by
      rw [List.length_take, Header.tableEnd]
      omega
    have hsame : decide (Header.wide (header.take fatHeaderReadLimit)) =
        decide (Header.wide header) := decide_eq_decide.mpr hwide
    rw [if_neg (not_not.mpr (hfat.mpr hyes)), if_neg (not_not.mpr hyes), hcount, hsize, hend,
      hsame]
    rw [parseEntries_take header fileLen]
    · simp only [hshort]
    · simp [Header.entrySize]
    · intro i hi
      have hnext := htable (i + 1) (by have := List.mem_range.mp hi; omega)
      rw [Nat.succ_mul] at hnext
      omega
  · rw [if_pos hyes, if_pos (mt hfat.mp hyes)]

/-- The parser accepts the well-formed headers and no other, names their slices apart, and needs
no more of a file than its first bytes. -/
theorem fat_header_exact (header : Bytes) (fileLen : UInt64) :
    (parseFatHeader header fileLen = .ok none ↔ ¬ Header.IsFat header) ∧
    (∀ slices, parseFatHeader header fileLen = .ok (some slices) ↔
      Header.IsFat header ∧ Header.WellFormed header fileLen.toNat ∧
        slices = Header.slices header) ∧
    (∀ slices, parseFatHeader header fileLen = .ok (some slices) →
      ∀ slice ∈ slices, selectSlice slices slice.arch = some slice) ∧
    parseFatHeader (header.take fatHeaderReadLimit) fileLen = parseFatHeader header fileLen := by
  refine ⟨parseFatHeader_eq_none header fileLen, parseFatHeader_eq_some header fileLen, ?_,
    parseFatHeader_take header fileLen⟩
  intro slices hparse slice hslice
  obtain ⟨-, hwell, rfl⟩ := (parseFatHeader_eq_some header fileLen slices).mp hparse
  refine selectSlice_arch ?_ hwell.distinct hslice
  intro s hs
  obtain ⟨i, -, rfl⟩ := List.mem_map.mp hs
  rw [Header.slice_arch]
  exact archName_plain _ _

end IdaMcp.Slices
