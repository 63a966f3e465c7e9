import IdaMcp.Foundation.Entries
import IdaMcp.Params.Fields

namespace IdaMcp.Schema

open Foundation Assoc Params
open Params.Value (Fields)

def isNull : Params.Value → Bool
  | .null => true
  | _ => false

def isNullSchema (value : Params.Value) : Bool :=
  (value.get "type").bind Params.Value.asStr == some "null"

def scanBranches : List Params.Value → Option Params.Value → ℕ → Option (Option Params.Value × ℕ)
  | [], nonNull, nullCount => some (nonNull, nullCount)
  | branch :: rest, nonNull, nullCount =>
    if isNullSchema branch then scanBranches rest nonNull (nullCount + 1)
    else if nonNull.isSome then none
    else scanBranches rest (some branch) nullCount

def branchFields : Params.Value → Option Fields
  | .object branch => some branch
  | .bool true => some []
  | _ => none

def overlay (branch schema : Fields) : Fields :=
  let replacement := extend branch (schema.filter (·.1 ≠ "anyOf"))
  if (replacement.lookup "default").any isNull then remove replacement "default" else replacement

def nullableAnyOfReplacement (schema : Fields) : Option Fields := do
  let anyOf ← (schema.lookup "anyOf").bind Params.Value.asArray
  let (nonNull, nullCount) ← scanBranches anyOf none 0
  if nullCount ≠ 1 then none
  else
    let branch ← nonNull.bind branchFields
    some (overlay branch schema)

def isNullType (value : Params.Value) : Bool := value.asStr == some "null"

def typeReplacement : List Params.Value → Option Params.Value
  | [] => none
  | [type] => some type
  | nonNullTypes => some (.array nonNullTypes)

/-- `some none` removes the type. -/
def nullableTypeArrayReplacement (schema : Fields) : Option (Option Params.Value) := do
  let types ← (schema.lookup "type").bind Params.Value.asArray
  if types.any isNullType then some (typeReplacement (types.filter (!isNullType ·))) else none

def flattenType (schema : Fields) : Fields :=
  match nullableTypeArrayReplacement schema with
  | some (some replacement) => insert schema "type" replacement
  | some none => remove schema "type"
  | none => schema

def splice (schema : Fields) : Fields := (nullableAnyOfReplacement schema).getD schema

/-- What becomes of an object before its children are visited. -/
def rewrite (schema : Fields) : Fields := flattenType (remove (splice schema) "$schema")

structure Hereditary (P : Params.Value → Prop) : Prop where
  item {items : List Params.Value} {x : Params.Value} (h : P (.array items)) (hx : x ∈ items) : P x
  filter {items : List Params.Value} (p : Params.Value → Bool) (h : P (.array items)) :
    P (.array (items.filter p))
  field {fields : Fields} (h : P (.object fields)) : ∀ p ∈ fields, P p.2

theorem scanBranches_eq_some {branches : List Params.Value} {nonNull out : Option Params.Value}
    {n m : ℕ} :
    scanBranches branches nonNull n = some (out, m) ↔
      nonNull.toList ++ branches.filter (!isNullSchema ·) = out.toList ∧
        n + branches.countP isNullSchema = m := by
  fun_induction scanBranches branches nonNull n with
  | case1 nonNull n =>
    rw [Option.some_inj, Prod.mk.injEq, List.filter_nil, List.append_nil, List.countP_nil]
    refine and_congr_left fun _ => ⟨congrArg Option.toList, fun h => ?_⟩
    have hhead := congrArg List.head? h
    rwa [Option.head?_toList, Option.head?_toList] at hhead
  | case2 branch rest nonNull n hnull ih =>
    rw [ih, List.filter_cons_of_neg (by simpa using hnull), List.countP_cons_of_pos hnull,
      Nat.add_right_comm, Nat.add_assoc]
  | case3 branch rest nonNull n hnull hsome =>
    obtain ⟨b, rfl⟩ := Option.isSome_iff_exists.mp hsome
    rw [List.filter_cons_of_pos (by simpa using hnull)]
    apply iff_of_false nofun
    intro h
    have hlength := congrArg List.length h.1
    have hout := Option.length_toList_le (o := out)
    simp only [Option.toList_some, List.length_append, List.length_cons] at hlength
    omega
  | case4 branch rest nonNull n hnull hsome ih =>
    have hnone : nonNull = none := by simpa using hsome
    rw [ih, List.filter_cons_of_pos (by simpa using hnull), List.countP_cons_of_neg hnull, hnone]
    rfl

theorem branchFields_eq_some {b : Params.Value} {fields : Fields} (h : branchFields b = some fields) :
    b = .object fields ∨ b = .bool true ∧ fields = [] := by
  unfold branchFields at h
  split at h
  · exact .inl (congrArg Params.Value.object (Option.some_inj.mp h))
  · exact .inr ⟨rfl, (Option.some_inj.mp h).symm⟩
  · cases h

def NullableWith (schema : Fields) (b : Params.Value) : Prop :=
  ∃ branches, schema.lookup "anyOf" = some (.array branches) ∧
    branches.countP isNullSchema = 1 ∧ branches.filter (!isNullSchema ·) = [b]

theorem nullableAnyOfReplacement_eq_some {schema r : Fields} :
    nullableAnyOfReplacement schema = some r ↔
      ∃ b fields, NullableWith schema b ∧ branchFields b = some fields ∧
        overlay fields schema = r := by
  constructor
  · intro h
    obtain ⟨branches, hany, h⟩ := Option.bind_eq_some_iff.mp h
    obtain ⟨⟨nonNull, nullCount⟩, hscan, h⟩ := Option.bind_eq_some_iff.mp h
    obtain ⟨hnonNull, hcount⟩ := scanBranches_eq_some.mp hscan
    dsimp only at h
    split_ifs at h with hone
    · obtain ⟨fields, hbranch, hr⟩ := Option.bind_eq_some_iff.mp h
      obtain ⟨b, rfl, hfields⟩ := Option.bind_eq_some_iff.mp hbranch
      refine ⟨b, fields, ⟨branches, Params.Value.bind_asArray.mp hany, ?_, hnonNull⟩, hfields,
        Option.some_inj.mp hr⟩
      rwa [Nat.zero_add, not_not.mp hone] at hcount
  · rintro ⟨b, fields, ⟨branches, hany, hcount, hfilter⟩, hfields, rfl⟩
    have hscan : scanBranches branches none 0 = some (some b, 1) :=
      scanBranches_eq_some.mpr ⟨hfilter, by rw [Nat.zero_add, hcount]⟩
    unfold nullableAnyOfReplacement
    rw [Params.Value.bind_asArray.mpr hany]
    simp only [bind, Option.bind_some, hscan, ne_eq, not_true_eq_false, if_false, hfields]

/-! What is found under a key after a rewriting. -/

theorem lookup_overlay {branch schema : Fields} (hschema : Keyed schema) (key : String) :
    (overlay branch schema).lookup key =
      if key = "anyOf" then branch.lookup key
      else if key = "default" then
        ((schema.lookup key).or (branch.lookup key)).filter (!isNull ·)
      else (schema.lookup key).or (branch.lookup key) := by
  have hmerged : (extend branch (schema.filter (·.1 ≠ "anyOf"))).lookup key =
      if key = "anyOf" then branch.lookup key
      else (schema.lookup key).or (branch.lookup key) := by
    rw [lookup_extend (hschema.filter _)]
    have hremove : (schema.filter (·.1 ≠ "anyOf")).lookup key = _ := lookup_remove
    rw [hremove]
    split_ifs <;> rfl
  unfold overlay
  dsimp only
  by_cases hkey : key = "default"
  · subst hkey
    rw [if_neg (show "default" ≠ "anyOf" by decide)] at hmerged
    rw [if_neg (show "default" ≠ "anyOf" by decide), if_pos rfl, ← hmerged]
    cases hfound : (extend branch (schema.filter (·.1 ≠ "anyOf"))).lookup "default" with
    | none => simpa using hfound
    | some x =>
      cases hnull : isNull x with
      | true => simp [hnull, lookup_remove, Option.filter_some]
      | false => simpa [hnull, Option.filter_some] using hfound
  · rw [if_neg hkey, ← hmerged]
    split_ifs
    · rw [lookup_remove, if_neg hkey]
    · rfl

theorem Keyed.overlay {branch : Fields} (hbranch : Keyed branch) (schema : Fields) :
    Keyed (overlay branch schema) := by
  unfold Schema.overlay
  dsimp only
  split_ifs
  · exact hbranch.extend.filter _
  · exact hbranch.extend

theorem lookup_flattenType (schema : Fields) (key : String) : (flattenType schema).lookup key =
    if key = "type" then (nullableTypeArrayReplacement schema).getD (schema.lookup key)
    else schema.lookup key := by
  unfold flattenType
  split
  · next replacement h => rw [lookup_insert, h, Option.getD_some]
  · next h => rw [lookup_remove, h, Option.getD_some]
  · next h => rw [h, Option.getD_none, ite_self]

theorem Keyed.flattenType {schema : Fields} (h : Keyed schema) : Keyed (flattenType schema) := by
  unfold Schema.flattenType
  split
  · exact h.insert
  · exact h.filter _
  · exact h

theorem typeReplacement_eq_some {types : List Params.Value} {type : Params.Value}
    (h : typeReplacement types = some type) :
    types = [type] ∨ 1 < types.length ∧ type = .array types := by
  unfold typeReplacement at h
  split at h
  · cases h
  · exact .inl (congrArg (fun t => [t]) (Option.some_inj.mp h))
  · next hnil hone =>
    refine .inr ⟨?_, (Option.some_inj.mp h).symm⟩
    match types with
    | [] => exact absurd rfl hnil
    | [t] => exact absurd rfl (hone t)
    | _ :: _ :: _ => simp

theorem nullableTypeArrayReplacement_eq {schema : Fields} {types : List Params.Value}
    (h : schema.lookup "type" = some (.array types)) (hnull : types.any isNullType = true) :
    nullableTypeArrayReplacement schema = some (typeReplacement (types.filter (!isNullType ·))) := by
  unfold nullableTypeArrayReplacement
  rw [Params.Value.bind_asArray.mpr h]
  simp only [bind, Option.bind_some, if_pos hnull]

theorem nullableTypeArrayReplacement_eq_none {schema : Fields}
    (h : ∀ types, schema.lookup "type" = some (.array types) → types.any isNullType = false) :
    nullableTypeArrayReplacement schema = none := by
  unfold nullableTypeArrayReplacement
  cases harray : (schema.lookup "type").bind Params.Value.asArray with
  | none => rfl
  | some types =>
    simp only [bind, Option.bind_some, h types (Params.Value.bind_asArray.mp harray), Bool.false_eq_true,
      if_false]

section Hereditary

variable {P : Params.Value → Prop} (hP : Hereditary P) {schema : Fields} (h : ∀ p ∈ schema, P p.2)
include hP h

theorem forall_splice : ∀ p ∈ splice schema, P p.2 := by
  unfold splice
  cases hreplacement : nullableAnyOfReplacement schema with
  | none => exact h
  | some replacement =>
    obtain ⟨b, fields, ⟨branches, hany, -, hfilter⟩, hfields, rfl⟩ :=
      nullableAnyOfReplacement_eq_some.mp hreplacement
    have hb : P b := by
      apply hP.item (h _ (mem_of_lookup hany))
      exact List.mem_of_mem_filter (by rw [hfilter]; exact List.mem_singleton_self b)
    have hbranch : ∀ p ∈ fields, P p.2 := by
      rcases branchFields_eq_some hfields with rfl | ⟨-, rfl⟩
      · exact hP.field hb
      · simp
    have hmerged := forall_extend hbranch (l := schema.filter (·.1 ≠ "anyOf")) fun p hp =>
      h p (List.mem_of_mem_filter hp)
    rw [Option.getD_some, overlay]
    split_ifs
    · exact forall_remove hmerged
    · exact hmerged

theorem forall_flattenType : ∀ p ∈ flattenType schema, P p.2 := by
  unfold flattenType
  split
  · next replacement hreplacement =>
    apply forall_insert h
    by_cases hnull : ∃ types, schema.lookup "type" = some (.array types) ∧
        types.any isNullType = true
    · obtain ⟨types, htype, hany⟩ := hnull
      have hP' : P (.array types) := h _ (mem_of_lookup htype)
      rw [nullableTypeArrayReplacement_eq htype hany, Option.some_inj] at hreplacement
      rcases typeReplacement_eq_some hreplacement with hone | ⟨-, rfl⟩
      · apply hP.item hP'
        exact List.mem_of_mem_filter (by rw [hone]; exact List.mem_singleton_self _)
      · exact hP.filter _ hP'
    · rw [nullableTypeArrayReplacement_eq_none] at hreplacement
      · cases hreplacement
      · intro types htype
        simpa using fun hany => hnull ⟨types, htype, hany⟩
  · exact forall_remove h
  · exact h

theorem forall_rewrite : ∀ p ∈ rewrite schema, P p.2 :=
  forall_flattenType hP (forall_remove (forall_splice hP h))

end Hereditary

theorem sizeOf_filter_le (p : Params.Value → Bool) (items : List Params.Value) :
    sizeOf (items.filter p) ≤ sizeOf items := by
  induction items with
  | nil => exact Nat.le_refl _
  | cons x items ih =>
    rw [List.filter_cons, List.cons.sizeOf_spec]
    split_ifs
    · rw [List.cons.sizeOf_spec]
      omega
    · omega

theorem hereditary_sizeOf (n : ℕ) : Hereditary fun v => sizeOf v < n where
  item {items x} h hx := by
    have hlt := List.sizeOf_lt_of_mem hx
    rw [Params.Value.array.sizeOf_spec] at h
    omega
  filter {items} p h := by
    have hle := sizeOf_filter_le p items
    rw [Params.Value.array.sizeOf_spec] at h ⊢
    omega
  field {fields} h p hp := by
    have hlt := List.sizeOf_lt_of_mem hp
    rw [Params.Value.object.sizeOf_spec] at h
    rw [Prod.mk.sizeOf_spec] at hlt
    omega

theorem sizeOf_rewrite_lt {schema : Fields} {p : String × Params.Value} (hp : p ∈ rewrite schema) :
    sizeOf p.2 < sizeOf (Params.Value.object schema) := by
  apply forall_rewrite (hereditary_sizeOf _) ?_ p hp
  intro q hq
  have hlt := List.sizeOf_lt_of_mem hq
  rw [Prod.mk.sizeOf_spec] at hlt
  rw [Params.Value.object.sizeOf_spec]
  omega

def normalizeSchemaValue : Params.Value → Params.Value
  | .object schema =>
    .object ((rewrite schema).attach.map fun p => (p.1.1, normalizeSchemaValue p.1.2))
  | .array items => .array (items.map normalizeSchemaValue)
  | value => value
termination_by value => sizeOf value
decreasing_by
  · exact sizeOf_rewrite_lt p.2
  · rw [Params.Value.array.sizeOf_spec]
    have hlt := List.sizeOf_lt_of_mem ‹_ ∈ items›
    omega

@[simp] theorem normalize_object (schema : Fields) : normalizeSchemaValue (.object schema) =
    .object ((rewrite schema).map fun p => (p.1, normalizeSchemaValue p.2)) := by
  rw [normalizeSchemaValue]
  congr 1
  exact List.attach_map_val (f := fun p : String × Params.Value => (p.1, normalizeSchemaValue p.2))

@[simp] theorem normalize_array (items : List Params.Value) :
    normalizeSchemaValue (.array items) = .array (items.map normalizeSchemaValue) := by
  rw [normalizeSchemaValue]

end IdaMcp.Schema
