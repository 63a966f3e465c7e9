import IdaMcp.Foundation.Json

namespace IdaMcp.Foundation.Json

open Reader

structure IntegerToken (token : Bytes) (minus ds : Bytes) : Prop where
  eq : token = minus ++ ds
  minus : minus = [] ∨ minus = [0x2d]
  nonempty : ds ≠ []
  digits : ∀ d ∈ ds, isDigit d = true
  zero : ds.head? = some 0x30 → ds = [0x30]

def Ends (rest : Bytes) : Prop :=
  ∀ b, rest.head? = some b → isDigit b = false ∧ b ≠ 0x2e ∧ b ≠ 0x65 ∧ b ≠ 0x45

theorem span_append {keep : UInt8 → Bool} {ds rest : Bytes} (hds : ∀ d ∈ ds, keep d = true)
    (hrest : ∀ b, rest.head? = some b → keep b = false) :
    span keep (ds ++ rest) = some (ds, rest) := by
  have hend : rest.takeWhile keep = [] ∧ rest.dropWhile keep = rest := by
    cases rest with
    | nil => exact ⟨rfl, rfl⟩
    | cons b rest =>
      have hb := hrest b rfl
      simp [hb]
  unfold span
  rw [List.takeWhile_append_of_pos hds, List.dropWhile_append_of_pos hds, hend.1, hend.2,
    List.append_nil]

theorem sign_of_ne {p : Bytes} (h : p.head? ≠ some 0x2d) : sign p = some ([], p) := by
  unfold sign
  rw [bind_of_eq (a := p.head?) (s := p) rfl, if_neg h]
  rfl

theorem fraction_of_ne {p : Bytes} (h : p.head? ≠ some 0x2e) : fraction p = some ([], p) := by
  unfold fraction
  rw [bind_of_eq (a := p.head?) (s := p) rfl, if_neg h]
  rfl

theorem exponent_of_ne {p : Bytes} (h : p.head? ≠ some 0x65) (h' : p.head? ≠ some 0x45) :
    exponent p = some ([], p) := by
  unfold exponent
  rw [bind_of_eq (a := p.head?) (s := p) rfl, if_neg (not_or.mpr ⟨h, h'⟩)]
  rfl

theorem integer_append {ds rest : Bytes} (hne : ds ≠ []) (hds : ∀ d ∈ ds, isDigit d = true)
    (hzero : ds.head? = some 0x30 → ds = [0x30])
    (hrest : ∀ b, rest.head? = some b → isDigit b = false) :
    integer (ds ++ rest) = some (ds, rest) := by
  cases ds with
  | nil => exact (hne rfl).elim
  | cons d ds =>
    unfold integer
    rw [List.cons_append, bind_of_eq (a := d) (s := ds ++ rest) rfl]
    split_ifs with hd hd'
    · subst hd
      obtain rfl : ds = [] := by simpa using hzero rfl
      rw [bind_of_eq (a := rest.head?) (s := rest) rfl]
      cases hhead : rest.head? with
      | none => rfl
      | some b => simp [hrest b hhead]; rfl
    · rw [bind_of_eq (span_append (fun d' hd' => hds d' (List.mem_cons_of_mem _ hd')) hrest)]
      rfl
    · exact (hd' (hds d (List.mem_cons_self ..))).elim

theorem isDigit_ne {d b : UInt8} (hd : isDigit d = true) (hb : isDigit b = false) : d ≠ b := by
  rintro rfl
  rw [hd] at hb
  cases hb

theorem number_append {token minus ds : Bytes} (h : IntegerToken token minus ds) (rest : Bytes)
    (hrest : Ends rest) :
    number (token ++ rest) = some (token, rest) := by
  have hsign : sign (token ++ rest) = some (minus, ds ++ rest) := by
    rw [h.eq, List.append_assoc]
    rcases h.minus with rfl | rfl
    · cases hds : ds with
      | nil => exact (h.nonempty hds).elim
      | cons d ds' =>
        apply sign_of_ne
        have hd := h.digits d (by rw [hds]; exact List.mem_cons_self ..)
        exact fun hhead => isDigit_ne hd rfl (Option.some.inj hhead)
    · rfl
  have hint := integer_append h.nonempty h.digits h.zero fun b hb => (hrest b hb).1
  have hfrac : fraction rest = some ([], rest) := fraction_of_ne fun hb => (hrest _ hb).2.1 rfl
  have hexp : exponent rest = some ([], rest) :=
    exponent_of_ne (fun hb => (hrest _ hb).2.2.1 rfl) fun hb => (hrest _ hb).2.2.2 rfl
  unfold number
  rw [bind_of_eq hsign, bind_of_eq hint, bind_of_eq hfrac, bind_of_eq hexp, List.append_nil,
    List.append_nil, ← h.eq]
  rfl

theorem integer_eq_some {p ds r : Bytes} (h : integer p = some (ds, r)) :
    p = ds ++ r ∧ ds ≠ [] ∧ (∀ d ∈ ds, isDigit d = true) ∧ (ds.head? = some 0x30 → ds = [0x30]) ∧
      ∀ b, r.head? = some b → isDigit b = false := by
  unfold integer at h
  cases p with
  | nil => cases h
  | cons b p =>
    rw [bind_of_eq (a := b) (s := p) rfl] at h
    split_ifs at h with hb hb'
    · obtain ⟨d, s', hpeek, h⟩ := bind_eq_some.mp h
      cases hpeek
      split_ifs at h with hd
      · cases h
      · cases h
        subst hb
        refine ⟨rfl, List.cons_ne_nil _ _, by simp [isDigit], fun _ => rfl, ?_⟩
        intro b hhead
        simpa [hhead] using hd
    · obtain ⟨ds', s', hspan, h⟩ := bind_eq_some.mp h
      cases hspan
      cases h
      refine ⟨?_, List.cons_ne_nil _ _, ?_, fun hzero => (hb (Option.some.inj hzero)).elim, ?_⟩
      · rw [List.cons_append, List.takeWhile_append_dropWhile]
      · intro d hd
        rcases List.mem_cons.mp hd with rfl | hd
        · exact hb'
        · exact List.mem_takeWhile_imp hd
      · intro b hhead
        have hdrop := List.head?_dropWhile_not isDigit p
        rw [hhead] at hdrop
        simpa using hdrop
    · cases h

theorem sign_eq_some {p s r : Bytes} (h : sign p = some (s, r)) :
    p = s ++ r ∧ (s = [] ∨ s = [0x2d]) := by
  unfold sign at h
  obtain ⟨b, s', hpeek, h⟩ := bind_eq_some.mp h
  cases hpeek
  split_ifs at h
  · obtain ⟨_, s'', hbyte, h⟩ := bind_eq_some.mp h
    cases h
    exact ⟨byte_eq_some.mp hbyte, .inr rfl⟩
  · cases h
    exact ⟨rfl, .inl rfl⟩

theorem fraction_eq_some {p v r : Bytes} (h : fraction p = some (v, r)) :
    0x2e ∈ v ∨ v = [] ∧ r = p ∧ p.head? ≠ some 0x2e := by
  unfold fraction at h
  obtain ⟨b, s, hpeek, h⟩ := bind_eq_some.mp h
  cases hpeek
  split_ifs at h with hb
  · obtain ⟨_, s', -, h⟩ := bind_eq_some.mp h
    obtain ⟨ds, s'', -, h⟩ := bind_eq_some.mp h
    cases h
    exact .inl (List.mem_cons_self ..)
  · cases h
    exact .inr ⟨rfl, rfl, hb⟩

theorem exponent_eq_some {p v r : Bytes} (h : exponent p = some (v, r)) :
    (0x65 ∈ v ∨ 0x45 ∈ v) ∨ v = [] ∧ r = p ∧ p.head? ≠ some 0x65 ∧ p.head? ≠ some 0x45 := by
  unfold exponent at h
  obtain ⟨b, s, hpeek, h⟩ := bind_eq_some.mp h
  cases hpeek
  split_ifs at h with hb
  · left
    obtain ⟨e, s', hnext, h⟩ := bind_eq_some.mp h
    have he : e = 0x65 ∨ e = 0x45 := by
      cases p with
      | nil => cases hnext
      | cons b p =>
        cases hnext
        simpa using hb
    have hmem : e ∈ v := by
      obtain ⟨plus, s'', hpeek, h⟩ := bind_eq_some.mp h
      split_ifs at h
      · obtain ⟨s₁, s₂, -, h⟩ := bind_eq_some.mp h
        obtain ⟨ds, s₃, -, h⟩ := bind_eq_some.mp h
        cases h
        exact List.mem_cons_self ..
      · obtain ⟨ds, s₃, -, h⟩ := bind_eq_some.mp h
        cases h
        exact List.mem_cons_self ..
    rcases he with rfl | rfl
    · exact .inl hmem
    · exact .inr hmem
  · cases h
    exact .inr ⟨rfl, rfl, not_or.mp hb⟩

theorem integerToken_of_number {p token r : Bytes} (h : number p = some (token, r))
    (hint : isInteger token = true) :
    ∃ minus ds, IntegerToken token minus ds ∧ Ends r ∧ p = token ++ r := by
  unfold number at h
  obtain ⟨minus, r₁, hsign, h⟩ := bind_eq_some.mp h
  obtain ⟨ds, r₂, hinteger, h⟩ := bind_eq_some.mp h
  obtain ⟨frac, r₃, hfrac, h⟩ := bind_eq_some.mp h
  obtain ⟨exp, r₄, hexp, h⟩ := bind_eq_some.mp h
  cases h
  have plain (b : UInt8) (hb : b ∈ minus ++ ds ++ frac ++ exp) : b = 0x2d ∨ isDigit b = true := by
    simpa using List.all_eq_true.mp hint b hb
  obtain ⟨hp, hminus⟩ := sign_eq_some hsign
  obtain ⟨hr₁, hne, hdigits, hzero, hend⟩ := integer_eq_some hinteger
  rcases fraction_eq_some hfrac with hdot | ⟨rfl, rfl, hdot⟩
  · have hmem := plain 0x2e (List.mem_append_left _ (List.mem_append_right _ hdot))
    simp [isDigit] at hmem
  · rcases exponent_eq_some hexp with hexp | ⟨rfl, rfl, he, hE⟩
    · rcases hexp with hexp | hexp
      · have hmem := plain 0x65 (List.mem_append_right _ hexp)
        simp [isDigit] at hmem
      · have hmem := plain 0x45 (List.mem_append_right _ hexp)
        simp [isDigit] at hmem
    · refine ⟨minus, ds, ⟨by simp, hminus, hne, hdigits, hzero⟩, ?_, ?_⟩
      · intro b hb
        refine ⟨hend b hb, ?_, ?_, ?_⟩
        · rintro rfl
          exact hdot hb
        · rintro rfl
          exact he hb
        · rintro rfl
          exact hE hb
      · rw [hp, hr₁]
        simp

theorem IntegerToken.isInteger {token minus ds : Bytes} (h : IntegerToken token minus ds) :
    isInteger token = true := by
  unfold Json.isInteger
  rw [List.all_eq_true, h.eq]
  intro b hb
  rcases List.mem_append.mp hb with hb | hb
  · rcases h.minus with hminus | hminus <;> rw [hminus] at hb
    · cases hb
    · simp [List.mem_singleton.mp hb]
  · simp [h.digits b hb]

theorem IntegerToken.take {token minus ds : Bytes} (h : IntegerToken token minus ds) {k : ℕ}
    (hpos : 0 < k) (hlt : k < token.length) (hne : token.take k ≠ [0x2d]) :
    ∃ ds' d rest, IntegerToken (token.take k) minus ds' ∧ ds = ds' ++ d :: rest ∧
      ds'.head? ≠ some 0x30 := by
  have cut {j : ℕ} (hj : 0 < j) (hjlt : j < ds.length) :
      ∃ d rest, IntegerToken (minus ++ ds.take j) minus (ds.take j) ∧ ds = ds.take j ++ d :: rest ∧
        (ds.take j).head? ≠ some 0x30 := by
    have hhead : (ds.take j).head? = ds.head? := by
      rw [List.head?_take, if_neg (by omega)]
    have hzero : ds.head? ≠ some 0x30 := by
      intro hzero
      rw [h.zero hzero] at hjlt
      simp only [List.length_singleton] at hjlt
      omega
    have hdrop := List.drop_eq_getElem_cons hjlt
    refine ⟨ds[j], ds.drop (j + 1), ⟨rfl, h.minus, ?_, ?_, ?_⟩, ?_, ?_⟩
    · exact List.ne_nil_of_length_pos (by rw [List.length_take]; omega)
    · exact fun d hd => h.digits d (List.mem_of_mem_take hd)
    · rw [hhead]
      exact fun hzero' => (hzero hzero').elim
    · rw [← hdrop, List.take_append_drop]
    · rwa [hhead]
  have htoken := h.eq
  rcases h.minus with hminus | hminus
  · rw [hminus, List.nil_append] at htoken
    rw [htoken] at hlt ⊢
    obtain ⟨d, rest, hcut⟩ := cut hpos hlt
    rw [hminus, List.nil_append] at hcut
    rw [hminus]
    exact ⟨_, d, rest, hcut⟩
  · rw [hminus] at htoken
    cases k with
    | zero => omega
    | succ j =>
      have htake : token.take (j + 1) = 0x2d :: ds.take j := by rw [htoken]; rfl
      rw [htake] at hne ⊢
      have hj : 0 < j := by
        rw [Nat.pos_iff_ne_zero]
        rintro rfl
        exact hne rfl
      rw [htoken, List.length_append, List.length_singleton] at hlt
      obtain ⟨d, rest, hcut⟩ := cut hj (by omega)
      rw [hminus] at hcut ⊢
      exact ⟨_, d, rest, hcut⟩

theorem number_of_quote {p : Bytes} (h : p.head? = some 0x22) : number p = none := by
  cases p with
  | nil => rfl
  | cons b p =>
    cases h
    rfl

theorem value_number {p token r : Bytes} (h : value p = some (.number token, r)) :
    number p = some (token, r) ∧ p.head? ≠ some 0x22 := by
  unfold value at h
  rw [bind_of_eq (a := p.head?) (s := p) rfl] at h
  split_ifs at h with hquote hnumber
  · obtain ⟨s, r', -, h⟩ := bind_eq_some.mp h
    split_ifs at h
    · cases h
    · cases h
  · obtain ⟨token', r', htoken, h⟩ := bind_eq_some.mp h
    cases h
    exact ⟨htoken, hquote⟩
  · obtain ⟨_, r', -, h⟩ := bind_eq_some.mp h
    cases h

theorem value_string {p raw r : Bytes} (h : value p = some (.string raw, r)) :
    string p = some (raw, r) ∧ p.head? = some 0x22 := by
  unfold value at h
  rw [bind_of_eq (a := p.head?) (s := p) rfl] at h
  split_ifs at h with hquote hnumber
  · obtain ⟨s, r', hs, h⟩ := bind_eq_some.mp h
    split_ifs at h
    · cases h
      exact ⟨hs, hquote⟩
    · cases h
  · obtain ⟨token', r', -, h⟩ := bind_eq_some.mp h
    cases h
  · obtain ⟨_, r', -, h⟩ := bind_eq_some.mp h
    cases h

theorem string_head {p raw r : Bytes} (h : string p = some (raw, r)) : p.head? = some 0x22 := by
  unfold string at h
  obtain ⟨_, s, hbyte, -⟩ := bind_eq_some.mp h
  rw [byte_eq_some.mp hbyte]
  rfl

end IdaMcp.Foundation.Json
