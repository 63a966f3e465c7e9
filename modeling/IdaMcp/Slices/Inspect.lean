import IdaMcp.Error
import IdaMcp.Slices.FatHeader

namespace IdaMcp.Slices

open Foundation Text

def mhMagic : UInt32 := 0xfeedface

def mhMagic64 : UInt32 := 0xfeedfacf

def swapBytes (value : UInt32) : UInt32 :=
  (value >>> 24) ||| ((value >>> 8) &&& (0xff00 : UInt32)) ||| ((value <<< 8) &&& (0xff0000 : UInt32)) ||| (value <<< 24)

def thinArch (header : Bytes) : Option String := do
  let magic ← beU32 header 0
  let isMagic (value : UInt32) : Bool := value = mhMagic || value = mhMagic64
  if isMagic magic then
    some (archName (← beU32 header 4).toInt32 (← beU32 header 8).toInt32)
  else if isMagic (swapBytes magic) then
    some (archName (swapBytes (← beU32 header 4)).toInt32 (swapBytes (← beU32 header 8)).toInt32)
  else none

inductive MachOKind
  | universal (slices : List FatSlice)
  | thin (arch : String)
  | other

def checkSlices (path : String) (content : Bytes) : ℕ → List FatSlice → Except ToolError Unit
  | _, [] => .ok ()
  | index, slice :: rest =>
    match thinArch ((content.drop slice.offset).take 12) with
    | some _ => checkSlices path content (index + 1) rest
    | none =>
      .error (.invalidParams (path ++ " is a malformed universal Mach-O: slice " ++
        toString (index + 1) ++ " (" ++ slice.arch ++ ") at " ++ hexText slice.offset ++
        " is not a Mach-O image"))

/-- Classifies a file by its content, or by the error of reading it; `none` cannot be opened. -/
def inspect (path : String) (file : Option (Except String Bytes)) : Except ToolError MachOKind :=
  match file with
  | none => .ok .other
  | some (.error e) => .error (.openFailed (path ++ ": reading header: " ++ e))
  | some (.ok content) =>
    let header := content.take fatHeaderReadLimit
    match parseFatHeader header (UInt64.ofNat content.length) with
    | .ok (some slices) => (checkSlices path content 0 slices).map fun _ => .universal slices
    | .ok none => .ok ((thinArch header).elim .other .thin)
    | .error reason =>
      .error (.invalidParams (path ++ " is a malformed universal Mach-O: " ++ reason))

def sliceNames (slices : List FatSlice) : String := ", ".intercalate (slices.map FatSlice.arch)

def Named (slices : List FatSlice) : Prop :=
  ∀ slice ∈ slices, ∃ cputype cpusubtype, slice.arch = archName cputype cpusubtype

theorem named_of_inspect {path : String} {file : Option (Except String Bytes)}
    {slices : List FatSlice} (h : inspect path file = .ok (.universal slices)) : Named slices := by
  unfold inspect at h
  cases file with
  | none => exact nomatch h
  | some file =>
    cases file with
    | error e => exact nomatch h
    | ok content =>
      dsimp only at h
      cases hparse : parseFatHeader (content.take fatHeaderReadLimit) (UInt64.ofNat content.length) with
      | error reason =>
        simp only [hparse] at h
        exact nomatch h
      | ok parsed =>
        cases parsed with
        | none =>
          simp only [hparse, Except.ok.injEq] at h
          cases hthin : thinArch (content.take fatHeaderReadLimit) <;> simp [hthin] at h
        | some found =>
          simp only [hparse] at h
          obtain rfl : found = slices := by
            cases hcheck : checkSlices path content 0 found with
            | error e =>
              rw [hcheck] at h
              exact nomatch h
            | ok u =>
              rw [hcheck] at h
              exact MachOKind.universal.inj (Except.ok.inj h)
          obtain ⟨-, -, rfl⟩ := (parseFatHeader_eq_some _ _ _).mp hparse
          intro slice hslice
          obtain ⟨index, -, rfl⟩ := List.mem_map.mp hslice
          exact ⟨_, _, Header.slice_arch _ index⟩

def IsMark (c : Char) : Prop := c = ',' ∨ c = '@' ∨ c = '\x00'

theorem archName_not_mark (cputype cpusubtype : Int32) {c : Char} (hc : IsMark c) :
    c ∉ (archName cputype cpusubtype).toList := by
  have hknown : ∀ entry ∈ knownArchs, c ∉ entry.2.toList := by
    rcases hc with rfl | rfl | rfl <;> decide
  have hdigits (n : ℕ) : c ∉ Nat.toDigits 16 n := by
    intro hmem
    obtain ⟨k, hk, heq⟩ := exists_digit_of_mem_toDigits (by omega) hmem
    have hall : ∀ k < 16, Nat.digitChar k ≠ ',' ∧ Nat.digitChar k ≠ '@' ∧ Nat.digitChar k ≠ '\x00' := by
      decide
    rcases hc with rfl | rfl | rfl
    · exact (hall k hk).1 heq.symm
    · exact (hall k hk).2.1 heq.symm
    · exact (hall k hk).2.2 heq.symm
  have htype : c ∉ "cputype0x".toList := by rcases hc with rfl | rfl | rfl <;> decide
  have hsubtype : c ∉ "-subtype0x".toList := by rcases hc with rfl | rfl | rfl <;> decide
  unfold archName
  dsimp only
  cases hlookup : knownArchs.lookup (cputype, cpusubtype.toUInt32 &&& ~~~cpuSubtypeFeatureMask) with
  | some name =>
    obtain ⟨before, after, hsplit, -⟩ := List.lookup_eq_some_iff.mp hlookup
    have hmem : ((cputype, cpusubtype.toUInt32 &&& ~~~cpuSubtypeFeatureMask), name) ∈ knownArchs := by
      rw [hsplit]
      exact List.mem_append_right before List.mem_cons_self
    exact hknown _ hmem
  | none =>
    have hall : c ∉ "cputype0x".toList ++ Nat.toDigits 16 cputype.toUInt32.toNat ++
        "-subtype0x".toList ++ Nat.toDigits 16 cpusubtype.toUInt32.toNat := by
      simp only [List.mem_append, not_or]
      exact ⟨⟨⟨htype, hdigits _⟩, hsubtype⟩, hdigits _⟩
    simpa [hlookup, hexText, String.toList_append] using hall

end IdaMcp.Slices
