import IdaMcp.Transport.RequestHeader

namespace IdaMcp.Transport

open Foundation Reader Json

variable {serde : Serde} {p q r s : Bytes} {ms : List Member} {header : RequestHeader}

theorem le_foldl_digits (ds : Bytes) (n : ℕ) :
    n ≤ ds.foldl (fun n d => 10 * n + (d.toNat - 0x30)) n := by
  induction ds generalizing n with
  | nil => exact Nat.le_refl n
  | cons d ds ih =>
    have h := ih (10 * n + (d.toNat - 0x30))
    rw [List.foldl_cons]
    omega

theorem digitsValue_pos {ds : Bytes} (hne : ds ≠ []) (hdigits : ∀ d ∈ ds, isDigit d = true)
    (hzero : ds.head? ≠ some 0x30) : 0 < digitsValue ds := by
  cases ds with
  | nil => exact (hne rfl).elim
  | cons d ds =>
    have hd : isDigit d = true := hdigits d (List.mem_cons_self ..)
    have hd' : d ≠ 0x30 := fun h => hzero (by rw [h]; rfl)
    have hpos : 0x30 < d.toNat := by
      simp only [isDigit, Bool.and_eq_true, decide_eq_true_eq, UInt8.le_iff_toNat_le] at hd
      rw [ne_eq, ← UInt8.toNat_inj] at hd'
      have h0 : (0x30 : UInt8).toNat = 0x30 := rfl
      omega
    have h := le_foldl_digits ds (10 * 0 + (d.toNat - 0x30))
    unfold digitsValue
    rw [List.foldl_cons]
    omega

theorem integerValue_take {token minus ds : Bytes} (h : IntegerToken token minus ds) {k : ℕ}
    (hpos : 0 < k) (hlt : k < token.length) (hne : token.take k ≠ [0x2d]) :
    integerValue (token.take k) ≠ integerValue token := by
  obtain ⟨ds', d, rest, htake, hds, hzero⟩ := h.take hpos hlt hne
  have hpositive := digitsValue_pos htake.nonempty htake.digits hzero
  have hgrows : digitsValue ds' < digitsValue ds := by
    have hle := le_foldl_digits rest (10 * digitsValue ds' + (d.toNat - 0x30))
    have hvalue : digitsValue ds = rest.foldl (fun n d => 10 * n + (d.toNat - 0x30))
        (10 * digitsValue ds' + (d.toNat - 0x30)) := by
      rw [hds]
      simp only [digitsValue, List.foldl_append, List.foldl_cons]
    omega
  have value {token minus ds : Bytes} (h : IntegerToken token minus ds) :
      integerValue token = if minus = [] then (digitsValue ds : ℤ) else -(digitsValue ds) := by
    rw [h.eq]
    rcases h.minus with hminus | hminus <;> rw [hminus]
    · rw [List.nil_append, if_pos rfl]
      cases hds : ds with
      | nil => exact (h.nonempty hds).elim
      | cons d ds' =>
        have hd : isDigit d = true := h.digits d (by rw [hds]; exact List.mem_cons_self ..)
        have hd' : d ≠ 0x2d := isDigit_ne hd rfl
        unfold integerValue
        split
        · exact (hd' (List.cons.inj ‹_›).1).elim
        · rfl
    · rfl
  rw [value htake, value h]
  split_ifs
  · omega
  · omega

/-- What the id of a member is to one who has read the line up to `q`. -/
def ReadsId (q : Bytes) (v : Json.Value) (s s' t : Bytes) (id : RequestId) : Prop :=
  s' = t ++ q ∧ valueId v = some id ∨
    t = [] ∧ ∃ token read, v = .number token ∧ s.length = q.length + read ∧ 0 < read ∧
      read < token.length ∧ token.take read ≠ [0x2d] ∧
      fitsId (integerValue (token.take read)) = true

theorem idValue_string (hserde : serde.ReadsJson) {t raw s' : Bytes}
    (hcolon : colon r = some ((), t)) (hvalue : value (t ++ q) = some (.string raw, s'))
    (ht : t ≠ []) {id : RequestId} {rest : Bytes} (hid : serde.idValue r = some (id, rest)) :
    s' = rest ++ q ∧ valueId (.string raw) = some id := by
  obtain ⟨hstring, hhead⟩ := value_string hvalue
  rw [List.head?_append_of_ne_nil _ ht] at hhead
  cases hread : string t with
  | none =>
    rw [hserde.idNeither r (by rw [bind_of_eq hcolon, hread])
      (by rw [bind_of_eq hcolon, number_of_quote hhead])] at hid
    cases hid
  | some result =>
    obtain ⟨raw', t'⟩ := result
    rw [hserde.idString r raw' t' (by rw [bind_of_eq hcolon, hread])] at hid
    rw [delimited_string hread] at hstring
    cases hstring
    obtain ⟨key, hkey, heq⟩ := Option.map_eq_some_iff.mp hid
    cases heq
    refine ⟨rfl, ?_⟩
    simp [valueId, hkey]

theorem idValue_integer (hserde : serde.ReadsJson) {t token s' : Bytes}
    (hcolon : colon r = some ((), t)) (hvalue : value (t ++ q) = some (.number token, s'))
    (hint : isInteger token = true) (ht : t ≠ []) {id : RequestId} {rest : Bytes}
    (hid : serde.idValue r = some (id, rest)) :
    ReadsId q (.number token) (t ++ q) s' rest id := by
  obtain ⟨hnumber, hquote⟩ := value_number hvalue
  rw [List.head?_append_of_ne_nil _ ht] at hquote
  obtain ⟨minus, ds, htoken, hends, hsplit⟩ := integerToken_of_number hnumber hint
  have nostring : string t = none := by
    cases hread : string t with
    | none => rfl
    | some result => exact (hquote (string_head hread)).elim
  have complete {x : Bytes} (ht' : t = token ++ x) (hs' : s' = x ++ q) :
      ReadsId q (.number token) (t ++ q) s' rest id := by
    have hends' : Ends x := by
      intro b hb
      apply hends b
      rw [hs', List.head?_append, hb]
      rfl
    have hread : number t = some (token, x) := by rw [ht', number_append htoken _ hends']
    rw [hserde.idInteger r token x (by rw [bind_of_eq hcolon, hread]) hint] at hid
    split_ifs at hid with hfits
    cases hid
    refine .inl ⟨hs', ?_⟩
    simp [valueId, hint, hfits]
  rcases List.append_eq_append_iff.mp hsplit with ⟨x, htoken', hq⟩ | ⟨x, ht', hs'⟩
  · by_cases hx : x = []
    · subst hx
      exact complete (x := []) (by simpa using htoken'.symm) (by simpa using hq.symm)
    · -- The line ends within the integer.
      have htake : token.take t.length = t := by rw [htoken', List.take_left']; rfl
      have hlt : t.length < token.length := by
        have hlength := congrArg List.length htoken'
        have hpos := List.length_pos_iff.mpr hx
        rw [List.length_append] at hlength
        omega
      have hne : t ≠ [0x2d] := by
        rintro rfl
        rw [hserde.idNeither r (by rw [bind_of_eq hcolon]; rfl) (by rw [bind_of_eq hcolon]; rfl)] at hid
        cases hid
      obtain ⟨ds', d, rest', hcut, -⟩ := htoken.take (List.length_pos_iff.mpr ht) hlt (by rwa [htake])
      rw [htake] at hcut
      have hread : number t = some (t, []) := by
        have hend := number_append hcut [] nofun
        rwa [List.append_nil] at hend
      rw [hserde.idInteger r t [] (by rw [bind_of_eq hcolon, hread]) hcut.isInteger] at hid
      split_ifs at hid with hfits
      cases hid
      refine .inr ⟨rfl, token, t.length, rfl, ?_, List.length_pos_iff.mpr ht, hlt, ?_, ?_⟩
      · rw [List.length_append, Nat.add_comm]
      · rwa [htake]
      · rwa [htake]
  · exact complete ht' hs'

theorem reads_id (hserde : serde.ReadsJson) {v : Json.Value} {s' : Bytes}
    (hcolon : colon (r ++ q) = some ((), s)) (hvalue : value s = some (v, s'))
    (hkind : (∃ raw, v = .string raw) ∨ ∃ token, v = .number token ∧ isInteger token = true)
    {id : RequestId} {rest : Bytes} (hid : serde.idValue r = some (id, rest)) :
    ReadsId q v s s' rest id := by
  have refused (h : colon r = none ∨ colon r = some ((), [])) : ReadsId q v s s' rest id := by
    have hread (f : Reader UInt8 Bytes) (hf : f [] = none) : (colon >>= fun _ => f) r = none := by
      rcases h with h | h
      · change (colon r).bind _ = none
        rw [h]
        rfl
      · rw [bind_of_eq h, hf]
    rw [hserde.idNeither r (hread string rfl) (hread number rfl)] at hid
    cases hid
  cases hread : colon r with
  | none => exact refused (.inl hread)
  | some result =>
    obtain ⟨⟨⟩, t⟩ := result
    by_cases ht : t = []
    · exact refused (.inr (by rw [hread, ht]))
    · rw [(incremental_colon.extend ht).mp hread] at hcolon
      cases hcolon
      rcases hkind with ⟨raw, rfl⟩ | ⟨token, rfl, hint⟩
      · exact .inl (idValue_string hserde hread hvalue ht hid)
      · exact idValue_integer hserde hread hvalue hint ht hid

theorem reads_method (hserde : serde.ReadsJson) {v : Json.Value} {s' : Bytes}
    (hcolon : colon (r ++ q) = some ((), s)) (hvalue : value s = some (v, s')) {method : String}
    {rest : Bytes} (hmethod : serde.stringValue r = some (method, rest)) :
    s' = rest ++ q ∧ ∃ raw, v = .string raw ∧ (text raw).isSome := by
  rw [hserde.stringValue] at hmethod
  obtain ⟨⟨⟩, t, hread, hmethod⟩ := bind_eq_some.mp hmethod
  obtain ⟨raw, t', hraw, hmethod⟩ := bind_eq_some.mp hmethod
  obtain ⟨key, hkey, heq⟩ := Option.map_eq_some_iff.mp hmethod
  cases heq
  have ht : t ≠ [] := by
    rintro rfl
    cases hraw
  rw [(incremental_colon.extend ht).mp hread] at hcolon
  cases hcolon
  have hhead : (t ++ q).head? = some 0x22 := by
    rw [List.head?_append_of_ne_nil _ ht, string_head hraw]
  have hstring := delimited_string hraw (q := q)
  unfold value at hvalue
  rw [bind_of_eq (a := (t ++ q).head?) (s := t ++ q) rfl, if_pos hhead, bind_of_eq hstring] at hvalue
  split_ifs at hvalue
  · cases hvalue
    exact ⟨rfl, raw, rfl, by rw [hkey]; rfl⟩
  · cases hvalue

theorem reads_other (hserde : serde.ReadsJson) {v : Json.Value} {s' rest : Bytes}
    (hcolon : colon (r ++ q) = some ((), s)) (hvalue : value s = some (v, s'))
    (hignored : serde.ignoredValue r = some ((), rest)) (hrest : rest ≠ []) : s' = rest ++ q := by
  rw [hserde.ignoredValue] at hignored
  have hread := ((incremental_colon.bind fun _ => incremental_skip).extend hrest (q := q)).mp hignored
  rw [bind_of_eq hcolon, skip_of_value hvalue] at hread
  exact (Prod.mk.inj (Option.some.inj hread)).2

theorem nextKey_eq_some (hserde : serde.ReadsJson) {first : Bool} {key : String}
    (h : serde.nextKey first p = some (some key, r)) :
    ∃ raw, nextName first p = some (some raw, r) ∧ text raw = some key := by
  rw [hserde.nextKey] at h
  obtain ⟨name, s, hname, h⟩ := bind_eq_some.mp h
  cases name with
  | none => cases h
  | some raw =>
    obtain ⟨key', s', hkey, h⟩ := bind_eq_some.mp h
    obtain ⟨key'', htext, heq⟩ := Option.map_eq_some_iff.mp hkey
    cases heq
    cases h
    exact ⟨raw, hname, htext⟩

theorem nextKey_nil (hserde : serde.ReadsJson) (first : Bool) : serde.nextKey first [] = none := by
  rw [hserde.nextKey]
  cases first <;> rfl

theorem visitMap_nil (hserde : serde.ReadsJson) (n : ℕ) (first : Bool) :
    visitMap serde n first header [] = header := by
  cases n with
  | zero => rfl
  | succ n => rw [visitMap, nextKey_nil hserde]

def IdKinds (ms : List Member) : Prop :=
  ∀ m ∈ ms, m.key = some "id" →
    (∃ raw, m.value = .string raw) ∨ ∃ token, m.value = .number token ∧ isInteger token = true

structure CutAt (ms : List Member) (unread : ℕ) (hasMethod : Bool) (before : List Member) (m : Member)
    (after : List Member) (token : Bytes) (read : ℕ) : Prop where
  split : ms = before ++ m :: after
  keys : ∀ x ∈ before, x.key.isSome
  method : hasMethod = true ∨
    ∃ x ∈ before, x.key = some "method" ∧ ∃ raw, x.value = .string raw ∧ (text raw).isSome
  key : m.key = some "id"
  value : m.value = .number token
  input : m.input.length = unread + read
  positive : 0 < read
  lt : read < token.length
  digit : token.take read ≠ [0x2d]
  fits : fitsId (integerValue (token.take read)) = true

theorem CutAt.cons {unread read : ℕ} {hasMethod hasMethod' : Bool} {before after : List Member}
    {m x : Member} {token : Bytes} (h : CutAt ms unread hasMethod' before m after token read)
    (hx : x.key.isSome)
    (hmethod : hasMethod' = true → hasMethod = true ∨
      x.key = some "method" ∧ ∃ raw, x.value = .string raw ∧ (text raw).isSome) :
    CutAt (x :: ms) unread hasMethod (x :: before) m after token read where
  split := by rw [h.split]; rfl
  keys y hy := by
    rcases List.mem_cons.mp hy with rfl | hy
    · exact hx
    · exact h.keys y hy
  method := by
    rcases h.method with hold | ⟨y, hy, hkey⟩
    · rcases hmethod hold with hold | hkey
      · exact .inl hold
      · exact .inr ⟨x, List.mem_cons_self .., hkey⟩
    · exact .inr ⟨y, List.mem_cons_of_mem x hy, hkey⟩
  key := h.key
  value := h.value
  input := h.input
  positive := h.positive
  lt := h.lt
  digit := h.digit
  fits := h.fits

theorem CutAt.tail {unread read : ℕ} {hasMethod more : Bool} {before after : List Member}
    {m x : Member} {token : Bytes} (h : CutAt (x :: ms) unread hasMethod (x :: before) m after token read)
    (hms : ms = before ++ m :: after) (hmethod : x.key = some "method" → (hasMethod || more) = true) :
    CutAt ms unread (hasMethod || more) before m after token read where
  split := hms
  keys y hy := h.keys y (List.mem_cons_of_mem x hy)
  method := by
    rcases h.method with hold | ⟨y, hy, hkey⟩
    · exact .inl (by rw [hold, Bool.true_or])
    · rcases List.mem_cons.mp hy with rfl | hy
      · exact .inl (hmethod hkey.1)
      · exact .inr ⟨y, hy, hkey⟩
  key := h.key
  value := h.value
  input := h.input
  positive := h.positive
  lt := h.lt
  digit := h.digit
  fits := h.fits

theorem visitValue_nil (hserde : serde.ReadsJson) (key : String) :
    visitValue serde header key [] = none := by
  have failed {α : Type} {f : Reader UInt8 α} (hf : f [] = none) (g : α → Reader UInt8 RequestHeader) :
      (f >>= g) [] = none := by
    change (f []).bind _ = none
    rw [hf]
    rfl
  unfold visitValue
  split_ifs
  · exact failed (hserde.idNeither [] rfl rfl) _
  · exact failed (by rw [hserde.stringValue]; rfl) _
  · exact failed (by rw [hserde.ignoredValue]; rfl) _

/-- Where the method and the id of a header are from: from another header, from a member, or, for
the id, from a number that is cut short. -/
def Sourced (q : Bytes) (header : RequestHeader) (ms : List Member) (id : RequestId) : Prop :=
  (header.hasMethod = true ∨ ∃ x ∈ ms, x.key = some "method" ∧ ∃ raw, x.value = .string raw) ∧
    (header.id = some id ∨ (∃ x ∈ ms, x.key = some "id" ∧ valueId x.value = some id) ∨
      ∃ before m after token read, CutAt ms q.length header.hasMethod before m after token read)

theorem sourced_cons (hserde : serde.ReadsJson) {key : String} {raw s' rest : Bytes} {v : Json.Value}
    {header' : RequestHeader} {id : RequestId} (hkey : text raw = some key)
    (hkinds : IdKinds (⟨raw, v, s⟩ :: ms)) (hcolon : colon (r ++ q) = some ((), s))
    (hvalue : value s = some (v, s')) (hvisit : visitValue serde header key r = some (header', rest))
    (hmethod : rest = [] → header'.hasMethod = true ∧ header'.id = some id)
    (hlater : s' = rest ++ q → Sourced q header' ms id) :
    Sourced q header (⟨raw, v, s⟩ :: ms) id := by
  have tail (h : Sourced q header' ms id)
      (hmethod : header'.hasMethod = true → header.hasMethod = true ∨
        key = "method" ∧ ∃ raw, v = .string raw ∧ (text raw).isSome)
      (hid : header'.id = some id → header.id = some id ∨ key = "id" ∧ valueId v = some id) :
      Sourced q header (⟨raw, v, s⟩ :: ms) id := by
    have hx {name : String} (hname : key = name) : (⟨raw, v, s⟩ : Member).key = some name := by
      rw [← hname, ← hkey]
      rfl
    obtain ⟨hmethods, hids⟩ := h
    constructor
    · rcases hmethods with hheader | ⟨x, hmem, hx⟩
      · rcases hmethod hheader with hheader | ⟨hname, raw', hraw, -⟩
        · exact .inl hheader
        · exact .inr ⟨_, List.mem_cons_self .., hx hname, raw', hraw⟩
      · exact .inr ⟨x, List.mem_cons_of_mem _ hmem, hx⟩
    · rcases hids with hheader | ⟨x, hmem, hx⟩ | ⟨before, m, after, token, read, hcut⟩
      · rcases hid hheader with hheader | ⟨hname, hv⟩
        · exact .inl hheader
        · exact .inr (.inl ⟨_, List.mem_cons_self .., hx hname, hv⟩)
      · exact .inr (.inl ⟨x, List.mem_cons_of_mem _ hmem, hx⟩)
      · refine .inr (.inr ⟨_, m, after, token, read, hcut.cons (by rw [hx rfl]; rfl) ?_⟩)
        intro hheader
        rcases hmethod hheader with hheader | ⟨hname, hstring⟩
        · exact .inl hheader
        · exact .inr ⟨hx hname, hstring⟩
  unfold visitValue at hvisit
  split_ifs at hvisit with hidkey hmethodkey
  · obtain ⟨id', rest', hread, hdone⟩ := bind_eq_some.mp hvisit
    cases hdone
    have hkind := hkinds _ (List.mem_cons_self ..) (hkey.trans (by rw [hidkey]))
    rcases reads_id hserde hcolon hvalue hkind hread with ⟨hrest, hid⟩ |
      ⟨hnil, token, read, hnumber, hlength, hpos, hlt, hdigit, hfits⟩
    · exact tail (hlater hrest) .inl fun hid' => .inr ⟨hidkey, hid.trans hid'⟩
    · obtain ⟨hmethod, -⟩ := hmethod hnil
      refine ⟨.inl hmethod, .inr (.inr ⟨[], _, ms, token, read, rfl, ?_, .inl hmethod, ?_, hnumber,
        hlength, hpos, hlt, hdigit, hfits⟩)⟩
      · intro x hx
        cases hx
      · exact hkey.trans (by rw [hidkey])
  · obtain ⟨method, rest', hread, hdone⟩ := bind_eq_some.mp hvisit
    cases hdone
    obtain ⟨hrest, hstring⟩ := reads_method hserde hcolon hvalue hread
    exact tail (hlater hrest) (fun _ => .inr ⟨hmethodkey, hstring⟩) .inl
  · obtain ⟨⟨⟩, rest', hread, hdone⟩ := bind_eq_some.mp hvisit
    cases hdone
    by_cases hnil : rest = []
    · obtain ⟨hmethod, hid⟩ := hmethod hnil
      exact ⟨.inl hmethod, .inl hid⟩
    · exact tail (hlater (reads_other hserde hcolon hvalue hread hnil)) .inl .inl

theorem visit_sound (hserde : serde.ReadsJson) (n : ℕ) {m : ℕ} {first : Bool} {final : Bytes}
    (hmembers : members m first (p ++ q) = some (ms, final)) (hkinds : IdKinds ms) {id : RequestId}
    (hmethod : (visitMap serde n first header p).hasMethod = true)
    (hid : (visitMap serde n first header p).id = some id) : Sourced q header ms id := by
  induction n generalizing m first p ms header with
  | zero => exact ⟨.inl hmethod, .inl hid⟩
  | succ n ih =>
    rw [visitMap] at hmethod hid
    cases hnext : serde.nextKey first p with
    | none =>
      rw [hnext] at hmethod hid
      exact ⟨.inl hmethod, .inl hid⟩
    | some result =>
      obtain ⟨key, r⟩ := result
      rw [hnext] at hmethod hid
      cases key with
      | none => exact ⟨.inl hmethod, .inl hid⟩
      | some key =>
        simp only at hmethod hid
        cases hvisit : visitValue serde header key r with
        | none =>
          rw [hvisit] at hmethod hid
          exact ⟨.inl hmethod, .inl hid⟩
        | some result =>
          obtain ⟨header', rest⟩ := result
          simp only [hvisit] at hmethod hid
          have hr : r ≠ [] := by
            rintro rfl
            rw [visitValue_nil hserde] at hvisit
            cases hvisit
          obtain ⟨raw, hname, hkey⟩ := nextKey_eq_some hserde hnext
          rw [(incremental_nextName first).extend hr (q := q)] at hname
          cases m with
          | zero => cases hmembers
          | succ m =>
            rcases members_cons hmembers with ⟨s, hnone, -⟩ |
              ⟨raw', s₁, s₂, v, s₃, ms', hname', hcolon, hvalue, hmembers', rfl⟩
            · rw [hname] at hnone
              cases hnone
            · rw [hname] at hname'
              cases hname'
              apply sourced_cons hserde hkey hkinds hcolon hvalue hvisit
              · rintro rfl
                rw [visitMap_nil hserde, ite_self] at hmethod hid
                exact ⟨hmethod, hid⟩
              · rintro rfl
                split_ifs at hmethod hid
                · exact ⟨.inl hmethod, .inl hid⟩
                · exact ih hmembers' (fun x hx => hkinds x (List.mem_cons_of_mem _ hx)) hmethod hid

theorem nextKey_of_nextName (hserde : serde.ReadsJson) {first : Bool} {raw : Bytes} {key : String}
    (hname : nextName first p = some (some raw, r)) (hkey : text raw = some key) :
    serde.nextKey first p = some (some key, r) := by
  rw [hserde.nextKey, bind_of_eq hname]
  change (textOf raw >>= fun key => pure (some key)) r = _
  rw [bind_of_eq (a := key) (s := r) (by rw [textOf, hkey]; rfl)]
  rfl

theorem visitValue_of_member (header : RequestHeader) (hserde : serde.ReadsJson) {key : String} {t rest : Bytes} {v : Json.Value}
    (hcolon : colon r = some ((), t)) (hvalue : value t = some (v, rest)) (hid : key ≠ "id")
    (hmethod : key = "method" → ∃ raw, v = .string raw ∧ (text raw).isSome) :
    visitValue serde header key r =
      some ({ header with hasMethod := header.hasMethod || key == "method" }, rest) := by
  unfold visitValue
  rw [if_neg hid]
  split_ifs with hname
  · obtain ⟨raw, rfl, htext⟩ := hmethod hname
    obtain ⟨method, hmethod⟩ := Option.isSome_iff_exists.mp htext
    have hread : serde.stringValue r = some (method, rest) := by
      rw [hserde.stringValue, bind_of_eq hcolon, bind_of_eq (value_string hvalue).1, textOf, hmethod]
      rfl
    rw [bind_of_eq hread, hname, beq_self_eq_true, Bool.or_true]
    rfl
  · have hread : serde.ignoredValue r = some ((), rest) := by
      rw [hserde.ignoredValue, bind_of_eq hcolon, skip_of_value hvalue]
    rw [bind_of_eq hread, beq_eq_false_iff_ne.mpr hname, Bool.or_false]
    rfl

theorem visitValue_cut (header : RequestHeader) (hserde : serde.ReadsJson) {t token s' : Bytes}
    (hcolon : colon r = some ((), t))
    (hvalue : value (t ++ q) = some (.number token, s')) (hint : isInteger token = true)
    (hpos : 0 < t.length) (hlt : t.length < token.length) (hdigit : token.take t.length ≠ [0x2d])
    (hfits : fitsId (integerValue (token.take t.length)) = true) :
    visitValue serde header "id" r =
      some ({ header with id := some (.number (integerValue (token.take t.length))) }, []) := by
  obtain ⟨hnumber, -⟩ := value_number hvalue
  obtain ⟨minus, ds, htoken, -, hsplit⟩ := integerToken_of_number hnumber hint
  have htake : token.take t.length = t := by
    have hprefix := congrArg (List.take t.length) hsplit
    rw [List.take_left', List.take_append_of_le_length (Nat.le_of_lt hlt)] at hprefix
    · exact hprefix.symm
    · rfl
  obtain ⟨ds', d, rest', hcut, -⟩ := htoken.take hpos hlt hdigit
  rw [htake] at hcut hfits ⊢
  have hread : number t = some (t, []) := by
    have hend := number_append hcut [] nofun
    rwa [List.append_nil] at hend
  have hid := hserde.idInteger r t [] (by rw [bind_of_eq hcolon, hread]) hcut.isInteger
  rw [if_pos hfits] at hid
  unfold visitValue
  rw [if_pos rfl, bind_of_eq hid]
  rfl

theorem split_of_suffix (h : s <:+ p ++ q) (hlength : q.length ≤ s.length) : ∃ t, s = t ++ q := by
  obtain ⟨t, ht⟩ := List.suffix_of_suffix_length_le (List.suffix_append p q) h hlength
  exact ⟨t, ht.symm⟩

theorem member_read {name : Bytes} {first : Bool} {s₁ s₂ t : Bytes}
    (hname : nextName first (p ++ q) = some (some name, s₁)) (hcolon : colon s₁ = some ((), s₂))
    (hs₂ : s₂ = t ++ q) (ht : t ≠ []) :
    ∃ r, nextName first p = some (some name, r) ∧ colon r = some ((), t) ∧ t.length < p.length := by
  have hsuffix := incremental_colon.suffix hcolon
  rw [hs₂] at hsuffix hcolon
  obtain ⟨r, rfl, hr, hrt⟩ := suffix_append_split ht hsuffix
  rw [← (incremental_nextName first).extend hr] at hname
  rw [← incremental_colon.extend ht] at hcolon
  have hlt := colon_length hcolon
  have hle := ((incremental_nextName first).suffix hname).length_le
  exact ⟨r, hname, hcolon, Nat.lt_of_lt_of_le hlt hle⟩

theorem visit_cut (header : RequestHeader) (hserde : serde.ReadsJson) {n k : ℕ} {first : Bool} {final : Bytes}
    {before after : List Member} {x : Member} {token : Bytes} {read : ℕ}
    (hmembers : members k first (p ++ q) = some (ms, final))
    (hcut : CutAt ms q.length header.hasMethod before x after token read)
    (hint : isInteger token = true) (hids : ∀ y ∈ before, y.key ≠ some "id")
    (hmethods : ∀ y ∈ before, y.key = some "method" →
      ∃ raw, y.value = .string raw ∧ (text raw).isSome)
    (hfuel : p.length < n) (hid : header.id = none) :
    (visitMap serde n first header p).hasMethod = true ∧
      (visitMap serde n first header p).id = some (.number (integerValue (token.take read))) := by
  induction before generalizing n k first p ms header with
  | nil =>
    obtain ⟨n, rfl⟩ : ∃ n', n = n' + 1 := ⟨n - 1, by omega⟩
    cases k with
    | zero => cases hmembers
    | succ k =>
      rcases members_cons hmembers with ⟨s, -, hnil⟩ |
        ⟨name, s₁, s₂, v, s₃, ms', hname, hcolon, hvalue, -, hms⟩
      · rw [hnil] at hcut
        cases hcut.split
      · have hx := hcut.split
        rw [hms] at hx
        obtain ⟨rfl, -⟩ := List.cons.inj hx
        have hlength : s₂.length = q.length + read := hcut.input
        have hsuffix := (incremental_colon.suffix hcolon).trans ((incremental_nextName first).suffix hname)
        obtain ⟨t, hs₂⟩ := split_of_suffix hsuffix (by omega)
        have htlength : t.length = read := by
          rw [hs₂, List.length_append] at hlength
          omega
        have ht : t ≠ [] := List.ne_nil_of_length_pos (by rw [htlength]; exact hcut.positive)
        obtain ⟨r, hname, hcolon, -⟩ := member_read hname hcolon hs₂ ht
        have hnumber : v = .number token := hcut.value
        rw [hs₂, hnumber] at hvalue
        have hmethod : header.hasMethod = true := by
          rcases hcut.method with hmethod | ⟨y, hy, -⟩
          · exact hmethod
          · cases hy
        have hvisit := visitValue_cut header hserde hcolon hvalue hint
          (by rw [htlength]; exact hcut.positive) (by rw [htlength]; exact hcut.lt)
          (by rw [htlength]; exact hcut.digit) (by rw [htlength]; exact hcut.fits)
        rw [htlength] at hvisit
        rw [visitMap, nextKey_of_nextName hserde hname hcut.key]
        simp [hvisit, hmethod]
  | cons y before ih =>
    obtain ⟨n, rfl⟩ : ∃ n', n = n' + 1 := ⟨n - 1, by omega⟩
    cases k with
    | zero => cases hmembers
    | succ k =>
      rcases members_cons hmembers with ⟨s, -, hnil⟩ |
        ⟨name, s₁, s₂, v, s₃, ms', hname, hcolon, hvalue, hmembers', hms⟩
      · rw [hnil] at hcut
        cases hcut.split
      · have hsplit := hcut.split
        rw [hms] at hsplit
        obtain ⟨rfl, hms'⟩ := List.cons.inj hsplit
        have hx : x ∈ ms' := by
          rw [hms']
          simp
        have hinput := members_input hmembers' x hx
        rw [hcut.input] at hinput
        have hsuffix := (incremental_value.suffix hvalue).trans
          ((incremental_colon.suffix hcolon).trans ((incremental_nextName first).suffix hname))
        obtain ⟨t', hs₃⟩ := split_of_suffix hsuffix (by omega)
        have ht' : t' ≠ [] := by
          rintro rfl
          rw [hs₃, List.nil_append] at hinput
          omega
        rw [hs₃] at hvalue hmembers'
        obtain ⟨t, hs₂, ht, -⟩ := suffix_append_split ht' (incremental_value.suffix hvalue)
        rw [hs₂, ← incremental_value.extend ht'] at hvalue
        obtain ⟨r, hname, hcolon, hlt⟩ := member_read hname hcolon hs₂ ht
        obtain ⟨key, hkey⟩ := Option.isSome_iff_exists.mp (hcut.keys _ (List.mem_cons_self ..))
        have hkeyid : key ≠ "id" := by
          rintro rfl
          exact hids _ (List.mem_cons_self ..) hkey
        have hstring (hmethod : key = "method") : ∃ raw, v = .string raw ∧ (text raw).isSome :=
          hmethods _ (List.mem_cons_self ..) (hkey.trans (by rw [hmethod]))
        have hvisit := visitValue_of_member header hserde hcolon hvalue hkeyid hstring
        rw [visitMap, nextKey_of_nextName hserde hname hkey]
        simp only [hvisit, hid, Option.isSome_none, Bool.false_and, Bool.false_eq_true, ↓reduceIte]
        have hle := (incremental_value.suffix hvalue).length_le
        refine ih _ hmembers' ?_ (fun z hz => hids z (List.mem_cons_of_mem _ hz))
          (fun z hz => hmethods z (List.mem_cons_of_mem _ hz)) (by omega) rfl
        rw [hms] at hcut
        refine hcut.tail hms' ?_
        intro hmethod
        rw [hkey] at hmethod
        rw [Option.some.inj hmethod, beq_self_eq_true, Bool.or_true]

theorem key_unique (hdistinct : (ms.filterMap Member.key).Nodup) {x y : Member} {key : String}
    (hx : x ∈ ms) (hy : y ∈ ms) (hkx : x.key = some key) (hky : y.key = some key) : x = y := by
  induction ms with
  | nil => cases hx
  | cons m ms ih =>
    have fresh {z : Member} (hz : z ∈ ms) (hkz : z.key = some key) (hm : m.key = some key) : False := by
      rw [List.filterMap_cons_some hm, List.nodup_cons] at hdistinct
      exact hdistinct.1 (List.mem_filterMap.mpr ⟨z, hz, hkz⟩)
    have hrest : (ms.filterMap Member.key).Nodup :=
      hdistinct.sublist ((List.sublist_cons_self m ms).filterMap _)
    rcases List.mem_cons.mp hx with rfl | hx' <;> rcases List.mem_cons.mp hy with rfl | hy'
    · rfl
    · exact (fresh hy' hky hkx).elim
    · exact (fresh hx' hkx hky).elim
    · exact ih hrest hx' hy'

theorem stripBom_of_open {line rest : Bytes} {v : Unit} (hopen : openObject line = some (v, rest))
    (n : ℕ) : stripBom (line.take n) = line.take n := by
  unfold stripBom
  split
  · rename_i rest' hbom
    exfalso
    cases line with
    | nil => simp at hbom
    | cons b line =>
      cases n with
      | zero => simp at hbom
      | succ n =>
        obtain ⟨rfl, -⟩ := List.cons.inj hbom
        cases hopen
  · rfl

theorem cutsId_iff {unread : ℕ} : CutsId ms unread ↔
    ∃ before m after token read, CutAt ms unread false before m after token read := by
  constructor
  · rintro ⟨before, m, after, token, read, hsplit, hkeys, hmethod, hkey, hvalue, hinput, hpos, hlt,
      hdigit, hfits⟩
    exact ⟨before, m, after, token, read, hsplit, hkeys, .inr hmethod, hkey, hvalue, hinput, hpos, hlt,
      hdigit, hfits⟩
  · rintro ⟨before, m, after, token, read, h⟩
    have hmethod := h.method.resolve_left Bool.false_ne_true
    exact ⟨before, m, after, token, read, h.split, h.keys, hmethod, h.key, h.value, h.input, h.positive,
      h.lt, h.digit, h.fits⟩

theorem not_correlated_of_cut (hserde : serde.ReadsJson) {rest final : Bytes}
    (hopen : openObject (p ++ q) = some ((), rest))
    (hmembers : members (rest.length + 1) true rest = some (ms, final))
    (hdistinct : (ms.filterMap Member.key).Nodup) (hkinds : IdKinds ms) (hstrip : stripBom p = p)
    {before after : List Member} {x : Member} {token : Bytes} {read : ℕ}
    (hcut : CutAt ms q.length false before x after token read) :
    ∃ id, requestIdFromPrefix serde p = some id ∧ ¬ Correlated ms id := by
  have hx : x ∈ ms := by
    rw [hcut.split]
    simp
  have hbefore {y : Member} (hy : y ∈ before) : y ∈ ms := by
    rw [hcut.split]
    exact List.mem_append_left _ hy
  have hint : isInteger token = true := by
    rcases hkinds x hx hcut.key with ⟨raw, hraw⟩ | ⟨token', htoken, hint⟩
    · rw [hcut.value] at hraw
      cases hraw
    · rw [hcut.value] at htoken
      cases htoken
      exact hint
  have hinput := members_input hmembers x hx
  rw [hcut.input] at hinput
  obtain ⟨t, rfl⟩ := split_of_suffix (incremental_openObject.suffix hopen) (by omega)
  have ht : t ≠ [] := by
    rintro rfl
    rw [List.nil_append] at hinput
    omega
  rw [← incremental_openObject.extend ht] at hopen
  have hids (y : Member) (hy : y ∈ before) : y.key ≠ some "id" := by
    intro hkey
    rw [hcut.split, List.filterMap_append, List.filterMap_cons_some hcut.key] at hdistinct
    exact (List.nodup_append.mp hdistinct).2.2 "id" (List.mem_filterMap.mpr ⟨y, hy, hkey⟩) "id"
      (List.mem_cons_self ..) rfl
  obtain ⟨z, hz, hzkey, hzvalue⟩ := hcut.method.resolve_left Bool.false_ne_true
  have hmethods (y : Member) (hy : y ∈ before) (hkey : y.key = some "method") :
      ∃ raw, y.value = .string raw ∧ (text raw).isSome := by
    rw [key_unique hdistinct (hbefore hy) (hbefore hz) hkey hzkey]
    exact hzvalue
  obtain ⟨hmethod, hid⟩ := visit_cut ⟨none, false⟩ hserde hmembers hcut hint hids hmethods
    (Nat.lt_succ_self t.length) rfl
  refine ⟨.number (integerValue (token.take read)), ?_, ?_⟩
  · simp [requestIdFromPrefix, requestHeader, hstrip, hserde.openMap, hopen, hmethod, hid]
  · rintro ⟨-, y, hy, hkey, hvalue⟩
    rw [key_unique hdistinct hy hx hkey hcut.key, hcut.value, valueId] at hvalue
    split_ifs at hvalue
    obtain ⟨rest', hread⟩ := members_value hmembers x hx
    rw [hcut.value] at hread
    obtain ⟨minus, ds, htoken, -⟩ := integerToken_of_number (value_number hread).1 hint
    apply integerValue_take htoken hcut.positive hcut.lt hcut.digit
    exact (RequestId.number.inj (Option.some.inj hvalue)).symm

/-- A line that is too long is answered under its own id unless its limit cuts the id. -/
theorem id_correlated_iff (hserde : serde.ReadsJson) {line : Bytes} {maxLineLength : ℕ}
    (hline : object line = some ms) (hdistinct : (ms.filterMap Member.key).Nodup)
    (hkinds : IdKinds ms) :
    (∀ id, requestIdFromPrefix serde (line.take maxLineLength) = some id → Correlated ms id) ↔
      ¬ CutsId ms (line.length - maxLineLength) := by
  obtain ⟨p, q, rfl, hp, hq⟩ : ∃ p q, line = p ++ q ∧ line.take maxLineLength = p ∧
      line.length - maxLineLength = q.length :=
    ⟨_, line.drop maxLineLength, (List.take_append_drop maxLineLength line).symm, rfl,
      List.length_drop.symm⟩
  unfold object at hline
  obtain ⟨⟨⟨⟩, rest⟩, hopen, hline⟩ := Option.bind_eq_some_iff.mp hline
  obtain ⟨⟨ms', final⟩, hmembers, hline⟩ := Option.bind_eq_some_iff.mp hline
  dsimp only at hline
  split_ifs at hline
  cases hline
  have hstrip := stripBom_of_open hopen maxLineLength
  rw [hp] at hstrip ⊢
  rw [hq, cutsId_iff]
  constructor
  · rintro hall ⟨before, m, after, token, read, hcut⟩
    obtain ⟨id, hid, hwrong⟩ :=
      not_correlated_of_cut hserde hopen hmembers hdistinct hkinds hstrip hcut
    exact hwrong (hall id hid)
  · intro hwhole id hid
    unfold requestIdFromPrefix at hid
    dsimp only at hid
    split_ifs at hid with hmethod
    unfold requestHeader at hid hmethod
    rw [hstrip, hserde.openMap] at hid hmethod
    cases hread : openObject p with
    | none =>
      rw [hread] at hid
      cases hid
    | some result =>
      obtain ⟨⟨⟩, t⟩ := result
      rw [hread] at hid hmethod
      dsimp only at hid hmethod
      have ht : t ≠ [] := by
        rintro rfl
        rw [visitMap_nil hserde] at hid
        cases hid
      rw [(incremental_openObject.extend ht).mp hread] at hopen
      cases hopen
      obtain ⟨hmethods, hids⟩ := visit_sound hserde _ hmembers hkinds hmethod hid
      refine ⟨hmethods.resolve_left Bool.false_ne_true, ?_⟩
      rcases hids with hnone | hmember | hcut
      · cases hnone
      · exact hmember
      · exact (hwhole hcut).elim

def jsonSerde : Serde where
  openMap := openObject
  nextKey first := do
    let name ← nextName first
    match name with
    | none => pure none
    | some raw =>
      let key ← textOf raw
      pure (some key)
  idValue := do
    colon
    let b ← peek
    if b = some 0x22 then
      let raw ← string
      let s ← textOf raw
      pure (.string s)
    else
      let token ← number
      if isInteger token && fitsId (integerValue token) then pure (.number (integerValue token))
      else fail
  stringValue := do
    colon
    let raw ← string
    textOf raw
  ignoredValue := do
    colon
    skip

theorem jsonSerde_reads : jsonSerde.ReadsJson where
  openMap := rfl
  nextKey _ := rfl
  stringValue := rfl
  ignoredValue := rfl
  idString input raw rest h := by
    obtain ⟨⟨⟩, t, hcolon, hstring⟩ := bind_eq_some.mp h
    unfold jsonSerde
    dsimp only
    rw [bind_of_eq hcolon, bind_of_eq (a := t.head?) (s := t) rfl, if_pos (string_head hstring),
      bind_of_eq hstring]
    cases htext : text raw with
    | none =>
      change (textOf raw rest).bind _ = _
      rw [textOf, htext]
      rfl
    | some s =>
      rw [bind_of_eq (a := s) (s := rest) (by rw [textOf, htext]; rfl)]
      rfl
  idInteger input token rest h hint := by
    obtain ⟨⟨⟩, t, hcolon, hnumber⟩ := bind_eq_some.mp h
    have hquote : t.head? ≠ some 0x22 := by
      intro hquote
      rw [number_of_quote hquote] at hnumber
      cases hnumber
    unfold jsonSerde
    dsimp only
    rw [bind_of_eq hcolon, bind_of_eq (a := t.head?) (s := t) rfl, if_neg hquote, bind_of_eq hnumber,
      hint, Bool.true_and]
    split_ifs <;> rfl
  idNeither input hstring hnumber := by
    unfold jsonSerde
    dsimp only
    cases hcolon : colon input with
    | none =>
      change (colon input).bind _ = none
      rw [hcolon]
      rfl
    | some result =>
      obtain ⟨⟨⟩, t⟩ := result
      rw [bind_of_eq hcolon] at hstring hnumber ⊢
      rw [bind_of_eq (a := t.head?) (s := t) rfl]
      split_ifs
      · change (string t).bind _ = none
        rw [hstring]
        rfl
      · change (number t).bind _ = none
        rw [hnumber]
        rfl

def pingLine : Bytes := "\x7b\"method\":\"ping\",\"id\":123\x7d\n".toUTF8.toList

theorem pingLine_members : ∃ ms, object pingLine = some ms ∧
    ms.map (fun m => (m.key, m.value, m.input.length)) =
      [(some "method", .string [0x70, 0x69, 0x6e, 0x67], 17), (some "id", .number [0x31, 0x32, 0x33], 5)] := by
  have hview : (object pingLine).map (fun ms => ms.map fun m => (m.key, m.value, m.input.length)) =
      some [(some "method", .string [0x70, 0x69, 0x6e, 0x67], 17),
        (some "id", .number [0x31, 0x32, 0x33], 5)] := by
    decide +kernel
  obtain ⟨ms, hms, hview⟩ := Option.map_eq_some_iff.mp hview
  exact ⟨ms, hms, hview⟩

theorem pingLine_id (hview : ms.map (fun m => (m.key, m.value, m.input.length)) =
      [(some "method", .string [0x70, 0x69, 0x6e, 0x67], 17), (some "id", .number [0x31, 0x32, 0x33], 5)])
    {m : Member} (hm : m ∈ ms) (hkey : m.key = some "id") :
    m.value = .number [0x31, 0x32, 0x33] ∧ m.input.length = 5 := by
  have hmem := List.mem_map_of_mem (f := fun m : Member => (m.key, m.value, m.input.length)) hm
  rw [hview] at hmem
  simp only [List.mem_cons, Prod.mk.injEq, List.not_mem_nil, or_false] at hmem
  rcases hmem with ⟨hmethod, -⟩ | ⟨-, hvalue, hinput⟩
  · rw [hkey] at hmethod
    exact absurd hmethod (by decide)
  · exact ⟨hvalue, hinput⟩

theorem pingLine_regular (hview : ms.map (fun m => (m.key, m.value, m.input.length)) =
      [(some "method", .string [0x70, 0x69, 0x6e, 0x67], 17), (some "id", .number [0x31, 0x32, 0x33], 5)]) :
    (ms.filterMap Member.key).Nodup ∧ IdKinds ms := by
  constructor
  · have hkeys : ms.filterMap Member.key =
        (ms.map fun m => (m.key, m.value, m.input.length)).filterMap Prod.fst := by
      rw [List.filterMap_map]
      rfl
    rw [hkeys, hview]
    decide
  · intro m hm hkey
    exact .inr ⟨_, (pingLine_id hview hm hkey).1, by decide⟩

theorem id_correlated_iff_ping : ∃ ms, object pingLine = some ms ∧
    ∀ id, requestIdFromPrefix jsonSerde (pingLine.take 25) = some id → Correlated ms id := by
  obtain ⟨ms, hms, hview⟩ := pingLine_members
  obtain ⟨hdistinct, hkinds⟩ := pingLine_regular hview
  refine ⟨ms, hms, (id_correlated_iff jsonSerde_reads hms hdistinct hkinds).mpr ?_⟩
  rintro ⟨before, m, after, token, read, rfl, -, -, hkey, hvalue, hinput, hpos, hlt, -⟩
  obtain ⟨hvalue', hinput'⟩ := pingLine_id hview (by simp) hkey
  rw [hvalue] at hvalue'
  cases hvalue'
  have hlength : pingLine.length = 27 := by decide +kernel
  simp only [List.length_cons, List.length_nil] at hlt
  omega

/-- Cut two digits into its id, the request is answered under the number of these digits. -/
theorem truncated_id_answered : jsonSerde.ReadsJson ∧ ∃ ms, object pingLine = some ms ∧
    (ms.filterMap Member.key).Nodup ∧ IdKinds ms ∧ 24 < pingLine.length ∧
    requestIdFromPrefix jsonSerde (pingLine.take 24) = some (.number 12) ∧
    ¬ Correlated ms (.number 12) := by
  obtain ⟨ms, hms, hview⟩ := pingLine_members
  obtain ⟨hdistinct, hkinds⟩ := pingLine_regular hview
  refine ⟨jsonSerde_reads, ms, hms, hdistinct, hkinds, by decide +kernel, by decide +kernel, ?_⟩
  rintro ⟨-, m, hm, hkey, hid⟩
  rw [(pingLine_id hview hm hkey).1] at hid
  exact absurd hid (by decide)

end IdaMcp.Transport
