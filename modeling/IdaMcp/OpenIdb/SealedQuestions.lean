import IdaMcp.Foundation.Delimited
import IdaMcp.OpenIdb.Stages

namespace IdaMcp.OpenIdb

open Foundation Text Slices Delimited

/-! A question is determined by its stage and its associated data. -/

def pieceOf (slice : FatSlice) : Chars :=
  slice.arch.toList ++ '@' :: ((hexText slice.offset).toList ++ '+' :: (hexText slice.size).toList)

theorem hexText_not_mem (n : ℕ) {c : Char} (hc : c = ',' ∨ c = '+' ∨ c = '\x00') :
    c ∉ (hexText n).toList := by
  have hall : ∀ k < 16, Nat.digitChar k ≠ ',' ∧ Nat.digitChar k ≠ '+' ∧ Nat.digitChar k ≠ '\x00' := by
    decide
  have hmark : c ∉ "0x".toList := by rcases hc with rfl | rfl | rfl <;> decide
  have hdigits : c ∉ Nat.toDigits 16 n := by
    intro hmem
    obtain ⟨k, hk, heq⟩ := exists_digit_of_mem_toDigits (by omega) hmem
    rcases hc with rfl | rfl | rfl
    · exact (hall k hk).1 heq.symm
    · exact (hall k hk).2.1 heq.symm
    · exact (hall k hk).2.2 heq.symm
  rw [hexText, String.toList_append, List.mem_append, not_or]
  refine ⟨hmark, ?_⟩
  simpa using hdigits

theorem sliceLayout_toList (slices : List FatSlice) :
    (sliceLayout slices).toList = [','].intercalate (slices.map pieceOf) := by
  rw [sliceLayout, String.toList_intercalate, List.map_map]
  congr 1
  apply List.map_congr_left
  intro slice _
  simp [pieceOf, String.toList_append]

theorem pieceOf_not_mem {slices : List FatSlice} (hnamed : Named slices) {c : Char}
    (hc : c = ',' ∨ c = '\x00') : ∀ piece ∈ slices.map pieceOf, c ∉ piece := by
  intro piece hpiece
  obtain ⟨slice, hslice, rfl⟩ := List.mem_map.mp hpiece
  obtain ⟨cputype, cpusubtype, harch⟩ := hnamed slice hslice
  have hname : c ∉ slice.arch.toList := by
    rw [harch]
    exact archName_not_mark cputype cpusubtype (hc.elim Or.inl fun h => Or.inr (Or.inr h))
  have hhex (n : ℕ) : c ∉ (hexText n).toList :=
    hexText_not_mem n (hc.elim Or.inl fun h => Or.inr (Or.inr h))
  have hmarks : c ≠ '@' ∧ c ≠ '+' := by rcases hc with rfl | rfl <;> decide
  simp only [pieceOf, List.mem_append, List.mem_cons, not_or]
  exact ⟨hname, hmarks.1, hhex _, hmarks.2, hhex _⟩

theorem pieceOf_injective {slice slice' : FatSlice}
    (hslice : ∃ cputype cpusubtype, slice.arch = archName cputype cpusubtype)
    (hslice' : ∃ cputype cpusubtype, slice'.arch = archName cputype cpusubtype)
    (h : pieceOf slice = pieceOf slice') : slice = slice' := by
  have hname (s : FatSlice) (hs : ∃ cputype cpusubtype, s.arch = archName cputype cpusubtype) :
      '@' ∉ s.arch.toList := by
    obtain ⟨cputype, cpusubtype, harch⟩ := hs
    rw [harch]
    exact archName_not_mark cputype cpusubtype (Or.inr (Or.inl rfl))
  obtain ⟨harch, hrest⟩ := split_first (hname slice hslice) (hname slice' hslice') h
  have hhex (n : ℕ) : '+' ∉ (hexText n).toList := hexText_not_mem n (Or.inr (Or.inl rfl))
  obtain ⟨hoffset, hsize⟩ := split_first (hhex _) (hhex _) hrest
  cases slice
  cases slice'
  rw [FatSlice.mk.injEq]
  exact ⟨String.toList_inj.mp harch, hexText_injective (String.toList_inj.mp hoffset),
    hexText_injective (String.toList_inj.mp hsize)⟩

theorem sliceLayout_injective {slices slices' : List FatSlice} (hnamed : Named slices)
    (hnamed' : Named slices') (h : sliceLayout slices = sliceLayout slices') : slices = slices' := by
  have hne (s : List FatSlice) : ∀ piece ∈ s.map pieceOf, piece ≠ [] := by
    intro piece hpiece
    obtain ⟨slice, -, rfl⟩ := List.mem_map.mp hpiece
    simp [pieceOf]
  have hpieces : slices.map pieceOf = slices'.map pieceOf := by
    apply intercalate_injective (pieceOf_not_mem hnamed (Or.inl rfl))
      (pieceOf_not_mem hnamed' (Or.inl rfl)) (hne slices) (hne slices')
    rw [← sliceLayout_toList, ← sliceLayout_toList, h]
  clear h
  induction slices generalizing slices' with
  | nil => exact (List.map_eq_nil_iff.mp hpieces.symm).symm
  | cons slice slices ih =>
    cases slices' with
    | nil => exact nomatch hpieces
    | cons slice' slices' =>
      obtain ⟨hhead, htail⟩ := List.cons.inj hpieces
      rw [pieceOf_injective (hnamed slice List.mem_cons_self) (hnamed' slice' List.mem_cons_self) hhead,
        ih (fun s hs => hnamed s (List.mem_cons_of_mem _ hs))
          (fun s hs => hnamed' s (List.mem_cons_of_mem _ hs)) htail]

theorem sliceLayout_no_nul {slices : List FatSlice} (hnamed : Named slices) :
    '\x00' ∉ (sliceLayout slices).toList := by
  rw [sliceLayout_toList]
  exact not_mem_intercalate (by decide) (pieceOf_not_mem hnamed (Or.inr rfl))

namespace Question

def Named : Question → Prop
  | slice _ slices _ => Slices.Named slices
  | background .. => True

theorem nul_toList : "\x00".toList = ['\x00'] := rfl

theorem associatedData_slice (path : String) (slices : List FatSlice) (ask : Bool) :
    (slice path slices ask).associatedData.toList =
      (toolCall ++ path).toList ++ '\x00' :: (sliceLayout slices).toList ++
        '\x00' :: (toString ask).toList := by
  rw [associatedData]
  simp only [String.toList_append, nul_toList, List.append_assoc, List.cons_append,
    List.nil_append]

theorem associatedData_background (path : String) (size : ℕ) :
    (background path size).associatedData.toList =
      (toolCall ++ path).toList ++ '\x00' :: Nat.toDigits 10 size := by
  rw [associatedData]
  simp only [String.toList_append, nul_toList, List.append_assoc, List.cons_append,
    List.nil_append, Nat.toString_eq_repr, Nat.toList_repr]

theorem path_inj {path path' : String} (h : (toolCall ++ path).toList =
    (toolCall ++ path').toList) : path = path' := by
  rw [String.toList_append, String.toList_append, List.append_cancel_left_eq] at h
  exact String.toList_inj.mp h

theorem eq_of_sealed {q q' : Question} (hq : q.Named) (hq' : q'.Named)
    (hstage : q.stage.sealBytes = q'.stage.sealBytes) (hdata : q.associatedData = q'.associatedData) :
    q = q' := by
  have hstages : sliceStage.sealBytes ≠ backgroundStage.sealBytes := by decide
  have hchars := congrArg String.toList hdata
  cases q with
  | slice path slices ask =>
    cases q' with
    | background path' size => exact absurd hstage hstages
    | slice path' slices' ask' =>
      have hflag (b : Bool) : '\x00' ∉ (toString b).toList := by cases b <;> decide
      rw [associatedData_slice, associatedData_slice] at hchars
      obtain ⟨hfront, hask⟩ := split_last (hflag ask) (hflag ask') hchars
      obtain ⟨hpath, hlayout⟩ := split_last (sliceLayout_no_nul hq) (sliceLayout_no_nul hq') hfront
      have hsame : ask = ask' := by
        cases ask <;> cases ask' <;> first | rfl | exact absurd hask (by decide)
      rw [path_inj hpath, sliceLayout_injective hq hq' (String.toList_inj.mp hlayout), hsame]
  | background path size =>
    cases q' with
    | slice path' slices ask => exact absurd hstage hstages.symm
    | background path' size' =>
      have hdigit (n : ℕ) : '\x00' ∉ Nat.toDigits 10 n := by
        intro hmem
        obtain ⟨k, hk, heq⟩ := exists_digit_of_mem_toDigits (by omega) hmem
        have hall : ∀ k < 10, '\x00' ≠ Nat.digitChar k := by decide
        exact hall k hk heq
      rw [associatedData_background, associatedData_background] at hchars
      obtain ⟨hpath, hsize⟩ := split_last (hdigit size) (hdigit size') hchars
      have hsame : size = size' := by
        have hvalue := congrArg (fun digits => Nat.ofDigitChars 10 digits 0) hsize
        simpa [Nat.ofDigitChars_toDigits] using hvalue
      rw [path_inj hpath, hsame]

end Question

end IdaMcp.OpenIdb
