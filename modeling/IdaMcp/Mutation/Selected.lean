import IdaMcp.Mutation.Request

namespace IdaMcp.Mutation

open Foundation Text Callgraph Lookup Target Params

/-! The checks. -/

theorem checkedText_eq_ok {value field : String} {max : ℕ} {u : Unit} :
    checkedText value field max = .ok u ↔ Bounded value max := by
  unfold checkedText Bounded
  split_ifs with h
  · apply iff_of_false
    · rintro ⟨⟩
    · rintro ⟨hne, hle, hnul⟩
      obtain h | h | h := h
      · exact hne h
      · omega
      · exact hnul h
  · rw [not_or, not_or, not_lt] at h
    exact iff_of_true rfl h

theorem checked_then {β : Type} {value field : String} {max : ℕ} {next : Except ToolError β} {result : β} :
    (do checkedText value field max; next) = .ok result ↔ Bounded value max ∧ next = .ok result := by
  rw [← @checkedText_eq_ok value field max ()]
  cases checkedText value field max with
  | error e => exact iff_of_false nofun nofun
  | ok u => exact (and_iff_right rfl).symm

theorem localSelector_eq_ok {name locator : Option String} {selector : LocalVariableSelector} :
    localSelector name locator = .ok selector ↔ SelectorOf name locator selector := by
  match name, locator with
  | none, none | some _, some _ => exact iff_of_false nofun nofun
  | some name, none =>
    rw [localSelector, checked_then]
    constructor
    · rintro ⟨h, ⟨⟩⟩
      exact .name h
    · rintro ⟨⟩
      rename_i h
      exact ⟨h, rfl⟩
  | none, some locator =>
    rw [localSelector, checked_then]
    constructor
    · rintro ⟨h, ⟨⟩⟩
      exact .locator h
    · rintro ⟨⟩
      rename_i h
      exact ⟨h, rfl⟩

theorem parseOptional_eq_ok {type name : String} {least past : ℤ} {value result : Option ℤ} :
    parseOptional type least past value name = .ok result ↔
      result = value ∧ ∀ v, value = some v → least ≤ v ∧ v < past := by
  cases value with
  | none => simp [parseOptional, eq_comm]
  | some v =>
    rw [parseOptional]
    split_ifs with h
    · simp [h, eq_comm]
    · simp [h]

theorem decompilerTimeout_ok (timeoutSecs : Option ℤ) :
    (∃ seconds, decompilerTimeout timeoutSecs = .ok seconds) ↔ ValidTimeout timeoutSecs := by
  unfold decompilerTimeout ValidTimeout
  cases hparse : parseOptional "u64" 0 (2 ^ 64) timeoutSecs "timeout_secs" with
  | error e =>
    apply iff_of_false
    · rintro ⟨seconds, ⟨⟩⟩
    · intro hvalid
      have hbounds : ∀ secs, timeoutSecs = some secs → 0 ≤ secs ∧ secs < 2 ^ 64 := by
        intro secs hsecs
        have := hvalid secs hsecs
        omega
      rw [parseOptional_eq_ok.mpr ⟨rfl, hbounds⟩] at hparse
      cases hparse
  | ok parsed =>
    obtain ⟨rfl, hbounds⟩ := parseOptional_eq_ok.mp hparse
    cases parsed with
    | none => exact iff_of_true ⟨120, rfl⟩ nofun
    | some secs =>
      simp only [bind, Except.bind, Option.getD_some, Option.some_inj, forall_eq']
      split_ifs with h
      · exact iff_of_true ⟨secs, rfl⟩ h
      · exact iff_of_false (fun ⟨_, h⟩ => nomatch h) h

/-! The local that is selected. -/

theorem fetch_eq_ok {cfunc : CFunction} {index : ℕ} {var : LocalVariable} :
    cfunc.fetch index = .ok var ↔ cfunc.localVariable index = .ok (some var) := by
  unfold CFunction.fetch
  cases cfunc.localVariable index with
  | error e => exact iff_of_false nofun nofun
  | ok found =>
    cases found with
    | none => exact iff_of_false nofun nofun
    | some found => simp [bind, Except.bind, pure, Except.pure]

theorem getElem_enumerated {β : Type} {keys : List β} {i : ℕ} (h : i < keys.length)
    (h' : i < (keys.mapIdx Prod.mk).length) : (keys.mapIdx Prod.mk)[i] = (i, keys[i]) := by
  rw [List.getElem_mapIdx]

theorem isOnly_enumerated {β : Type} {value : β} {keys : List β} {index : ℕ} :
    IsOnly value (keys.mapIdx Prod.mk) index ↔ ∃ h : index < keys.length, keys[index] = value ∧
      ∀ other (hother : other < keys.length), keys[other] = value → other = index := by
  have hlength : (keys.mapIdx Prod.mk).length = keys.length := List.length_mapIdx
  constructor
  · rintro ⟨before, after, heq, hothers⟩
    have hbefore : before.length < (keys.mapIdx Prod.mk).length := by
      rw [heq, List.length_append, List.length_cons]
      omega
    have hat : (keys.mapIdx Prod.mk)[before.length] = (index, value) := by
      simp only [heq]
      simp
    have hindex : before.length < keys.length := hlength ▸ hbefore
    rw [getElem_enumerated hindex, Prod.mk.injEq] at hat
    obtain ⟨rfl, hvalue⟩ := hat
    refine ⟨hindex, hvalue, ?_⟩
    intro other hother hsame
    by_contra hne
    have hget : (keys.mapIdx Prod.mk)[other]? = some (other, value) := by
      rw [List.getElem?_eq_getElem (by omega), getElem_enumerated hother, hsame]
    rw [heq] at hget
    have hmem : (other, value) ∈ before ++ after := by
      rw [List.mem_append]
      obtain hlt | hlt := Nat.lt_or_gt_of_ne hne
      · rw [List.getElem?_append_left hlt] at hget
        exact .inl (List.mem_of_getElem? hget)
      · rw [List.getElem?_append_right (by omega), List.getElem?_cons, if_neg (by omega)] at hget
        exact .inr (List.mem_of_getElem? hget)
    exact hothers _ hmem rfl
  · rintro ⟨hindex, hvalue, honly⟩
    have hsplit := List.take_append_drop index (keys.mapIdx Prod.mk)
    rw [List.drop_eq_getElem_cons (hlength ▸ hindex), getElem_enumerated hindex, hvalue] at hsplit
    refine ⟨_, _, hsplit.symm, ?_⟩
    intro entry hentry hsame
    obtain hmem | hmem := List.mem_append.mp hentry
    · obtain ⟨i, hi, rfl⟩ := List.mem_iff_getElem.mp hmem
      have hlt := hi
      rw [List.length_take] at hlt
      have hkeys : i < keys.length := by omega
      rw [List.getElem_take, getElem_enumerated hkeys] at hsame
      have := honly i hkeys hsame
      omega
    · obtain ⟨i, hi, rfl⟩ := List.mem_iff_getElem.mp hmem
      have hlt := hi
      rw [List.length_drop] at hlt
      have hkeys : index + 1 + i < keys.length := by omega
      rw [List.getElem_drop, getElem_enumerated hkeys] at hsame
      have := honly (index + 1 + i) hkeys hsame
      omega

theorem scanLocals_all {texts : Texts} {query : String} {names : List (Except ToolError (ℕ × String))}
    {scan found : LocalScan} (h : scanLocals texts query names scan = .ok found) :
    ∃ entries : List (ℕ × String), names = entries.map .ok := by
  induction names generalizing scan with
  | nil => exact ⟨[], rfl⟩
  | cons name names ih =>
    cases name with
    | error e => cases h
    | ok entry =>
      rw [scanLocals] at h
      split_ifs at h <;> obtain ⟨entries, rfl⟩ := ih h <;> exact ⟨entry :: entries, rfl⟩

theorem scanLocators_all {query : String} {locators : List (Except ToolError (ℕ × Option String))}
    {start found : Option ℕ} (h : scanLocators query locators start = .ok found) :
    ∃ entries : List (ℕ × Option String), locators = entries.map .ok := by
  induction locators generalizing start with
  | nil => exact ⟨[], rfl⟩
  | cons locator locators ih =>
    cases locator with
    | error e => cases h
    | ok entry =>
      rw [scanLocators] at h
      split_ifs at h <;> obtain ⟨entries, rfl⟩ := ih h <;> exact ⟨entry :: entries, rfl⟩

theorem exactLocalIndex_ok {texts : Texts} {query : String} {names : List (Except ToolError (ℕ × String))}
    {index : ℕ} : exactLocalIndex texts query names = .ok index ↔
      ∃ entries : List (ℕ × String), names = entries.map .ok ∧ IsOnly query entries index := by
  constructor
  · intro h
    have hscan : ∃ found, scanLocals texts query names ⟨none, []⟩ = .ok found := by
      cases hscan : scanLocals texts query names ⟨none, []⟩ with
      | error e =>
        rw [exactLocalIndex, hscan] at h
        cases h
      | ok found => exact ⟨found, rfl⟩
    obtain ⟨found, hscan⟩ := hscan
    obtain ⟨entries, rfl⟩ := scanLocals_all hscan
    exact ⟨entries, rfl, (exactLocalIndex_eq_ok texts query entries index).mp h⟩
  · rintro ⟨entries, rfl, h⟩
    exact (exactLocalIndex_eq_ok texts query entries index).mpr h

theorem exactLocatorIndex_ok {query : String} {locators : List (Except ToolError (ℕ × Option String))}
    {index : ℕ} : exactLocatorIndex query locators = .ok index ↔
      ∃ entries : List (ℕ × Option String), locators = entries.map .ok ∧
      IsOnly (some query) entries index := by
  constructor
  · intro h
    have hscan : ∃ found, scanLocators query locators none = .ok found := by
      cases hscan : scanLocators query locators none with
      | error e =>
        rw [exactLocatorIndex, hscan] at h
        cases h
      | ok found => exact ⟨found, rfl⟩
    obtain ⟨found, hscan⟩ := hscan
    obtain ⟨entries, rfl⟩ := scanLocators_all hscan
    exact ⟨entries, rfl, (exactLocatorIndex_eq_ok query entries index).mp h⟩
  · rintro ⟨entries, rfl, h⟩
    exact (exactLocatorIndex_eq_ok query entries index).mpr h

def CFunction.entries {β : Type} (cfunc : CFunction) (count : ℕ) (key : LocalVariable → β) :
    List (Except ToolError (ℕ × β)) :=
  ((List.range count).map fun index => (cfunc.fetch index).map fun var => (index, var)).map
    (·.map fun entry => (entry.1, key entry.2))

theorem entries_eq {β : Type} {cfunc : CFunction} {count : ℕ} {key : LocalVariable → β} {entries : List (ℕ × β)} :
    cfunc.entries count key = entries.map .ok ↔
      ∃ vars : List LocalVariable, vars.length = count ∧
        (∀ i (h : i < vars.length), cfunc.localVariable i = .ok (some vars[i])) ∧
        entries = (vars.map key).mapIdx Prod.mk := by
  have hentry (i : ℕ) (hi : i < (cfunc.entries count key).length) :
      (cfunc.entries count key)[i] = (cfunc.fetch i).map fun var => (i, key var) := by
    simp only [CFunction.entries, List.getElem_map, List.getElem_range]
    cases cfunc.fetch i <;> rfl
  have hlength : (cfunc.entries count key).length = count := by
    simp [CFunction.entries]
  constructor
  · intro h
    have hall : ∀ i, i < count → ∃ var, cfunc.localVariable i = .ok (some var) := by
      intro i hi
      have hget := hentry i (by omega)
      simp only [h, List.getElem_map] at hget
      cases hfetch : cfunc.fetch i with
      | error e =>
        rw [hfetch] at hget
        cases hget
      | ok var => exact ⟨var, fetch_eq_ok.mp hfetch⟩
    choose var hvar using hall
    refine ⟨List.ofFn fun i : Fin count => var i i.isLt, List.length_ofFn, ?_, ?_⟩
    · intro i hi
      rw [List.getElem_ofFn]
      exact hvar i _
    · apply List.ext_getElem
      · have hcount := congrArg List.length h
        rw [hlength, List.length_map] at hcount
        simp [hcount]
      · intro i hi hi'
        have hget := hentry i (by rw [h, List.length_map]; exact hi)
        have hcount : i < count := by simpa using hi'
        rw [fetch_eq_ok.mpr (hvar i hcount)] at hget
        simp only [h, List.getElem_map] at hget
        rw [Except.ok.inj hget, List.getElem_mapIdx, List.getElem_map, List.getElem_ofFn]
  · rintro ⟨vars, rfl, hvars, rfl⟩
    apply List.ext_getElem
    · simp [hlength]
    · intro i hi hi'
      have hcount : i < vars.length := by omega
      rw [hentry, fetch_eq_ok.mpr (hvars i hcount), List.getElem_map, List.getElem_mapIdx, List.getElem_map]
      rfl

theorem only_entry {β : Type} {cfunc : CFunction} {count index : ℕ} (hcount : cfunc.localVariableCount = .ok count)
    (key : LocalVariable → β) (value : β) :
    (∃ entries : List (ℕ × β), cfunc.entries count key = entries.map .ok ∧ IsOnly value entries index) ↔
      ∃ vars, Locals cfunc vars ∧ ∃ h : index < vars.length, key vars[index] = value ∧
        ∀ other (hother : other < vars.length), key vars[other] = value → other = index := by
  constructor
  · rintro ⟨entries, hentries, honly⟩
    obtain ⟨vars, rfl, hvars, rfl⟩ := entries_eq.mp hentries
    rw [isOnly_enumerated] at honly
    simp only [List.length_map, List.getElem_map] at honly
    exact ⟨vars, ⟨hcount, hvars⟩, honly⟩
  · rintro ⟨vars, ⟨hlength, hvars⟩, honly⟩
    obtain rfl := Except.ok.inj (hcount.symm.trans hlength)
    refine ⟨_, entries_eq.mpr ⟨vars, rfl, hvars, rfl⟩, ?_⟩
    rw [isOnly_enumerated]
    simp only [List.length_map, List.getElem_map]
    exact honly

theorem picked_then {cfunc : CFunction} {pick : Except ToolError ℕ} {index : ℕ} :
    (∃ info, (do
      let index ← pick
      pure (index, variableInfo (← cfunc.fetch index)) : Except ToolError _) = .ok (index, info)) ↔
      pick = .ok index ∧ ∃ var, cfunc.fetch index = .ok var := by
  cases pick with
  | error e => exact iff_of_false nofun nofun
  | ok found =>
    have hrun : (do
        let index ← (.ok found : Except ToolError ℕ)
        pure (index, variableInfo (← cfunc.fetch index)) : Except ToolError _) =
          (cfunc.fetch found).map fun var => (found, variableInfo var) := by
      cases hfetch : cfunc.fetch found <;> simp [bind, Except.bind, pure, Except.pure, Except.map, hfetch]
    rw [hrun, Except.ok.injEq]
    constructor
    · rintro ⟨info, h⟩
      cases hfetch : cfunc.fetch found with
      | error e =>
        rw [hfetch] at h
        cases h
      | ok var =>
        rw [hfetch] at h
        obtain ⟨rfl, -⟩ := Prod.mk.inj (Except.ok.inj h)
        exact ⟨rfl, var, hfetch⟩
    · rintro ⟨rfl, var, hfetch⟩
      rw [hfetch]
      exact ⟨_, rfl⟩

theorem selectedLocal_ok {texts : Texts} {cfunc : CFunction} {selector : LocalVariableSelector} {index : ℕ} :
    (∃ info, selectedLocal texts cfunc selector = .ok (index, info)) ↔
      ∃ vars, Locals cfunc vars ∧ Picks selector vars index := by
  have hfetched : ∀ vars, Locals cfunc vars → Picks selector vars index → ∃ var, cfunc.fetch index = .ok var :=
    fun vars hvars ⟨hindex, _⟩ => ⟨_, fetch_eq_ok.mpr (hvars.2 index hindex)⟩
  unfold selectedLocal
  cases hcount : cfunc.localVariableCount with
  | error e =>
    apply iff_of_false
    · rintro ⟨info, ⟨⟩⟩
    · rintro ⟨vars, hvars, -⟩
      rw [hvars.1] at hcount
      cases hcount
  | ok count =>
    cases selector with
    | name name =>
      refine (@picked_then cfunc (exactLocalIndex texts name (cfunc.entries count LocalVariable.name)) index).trans ?_
      rw [exactLocalIndex_ok, only_entry hcount]
      constructor
      · exact fun h => h.1
      · rintro ⟨vars, hvars, hpicks⟩
        exact ⟨⟨vars, hvars, hpicks⟩, hfetched vars hvars hpicks⟩
    | locator locator =>
      refine (@picked_then cfunc (exactLocatorIndex locator (cfunc.entries count LocalVariable.locator)) index).trans ?_
      rw [exactLocatorIndex_ok, only_entry hcount]
      constructor
      · exact fun h => h.1
      · rintro ⟨vars, hvars, hpicks⟩
        exact ⟨⟨vars, hvars, hpicks⟩, hfetched vars hvars hpicks⟩

end IdaMcp.Mutation
