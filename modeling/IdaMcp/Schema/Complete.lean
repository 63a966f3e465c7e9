import IdaMcp.Schema.Normalize

namespace IdaMcp.Schema

open Foundation Assoc Params
open Params.Value (Fields)

inductive Occurs (w : Params.Value) : Params.Value → Prop
  | self : Occurs w w
  | item {items : List Params.Value} {x : Params.Value} (hx : x ∈ items) (h : Occurs w x) :
    Occurs w (.array items)
  | field {fields : Fields} {p : String × Params.Value} (hp : p ∈ fields) (h : Occurs w p.2) :
      Occurs w (.object fields)

def Distinct (v : Params.Value) : Prop := ∀ fields, Occurs (.object fields) v → Keyed fields

structure Json where
  value : Params.Value
  distinct : Distinct value

def IsOpen (b : Params.Value) : Prop := b = .bool true ∨ ∃ fields, b = .object fields

def Nullable (schema : Fields) : Prop := ∃ b, NullableWith schema b ∧ IsOpen b

def HasNullType (schema : Fields) : Prop :=
  ∃ types, schema.lookup "type" = some (.array types) ∧ .string "null" ∈ types

structure Portable (schema : Fields) : Prop where
  noSchema : schema.lookup "$schema" = none
  notNullable : ¬Nullable schema
  noNullType : ¬HasNullType schema

def Complete (v : Params.Value) : Prop := ∀ fields, Occurs (.object fields) v → Portable fields

def HasType (schema : Fields) (type : Params.Value) : Prop :=
  schema.lookup "type" = some type ∨
    schema.lookup "type" = none ∧
      ∃ branch, NullableWith schema (.object branch) ∧ branch.lookup "type" = some type

/-- One rewriting of the object leaves nothing to remove. -/
structure Shallow (schema : Fields) : Prop where
  branch : ∀ branch, NullableWith schema (.object branch) → ¬Nullable branch
  types : ∀ types inner, HasType schema (.array types) → .string "null" ∈ types →
    types.filter (!isNullType ·) = [.array inner] → .string "null" ∉ inner

/-- `w` stands in `v` where the pass comes to: not under `$schema`, in no null branch, and under no
keyword of a branch that the schema around it has as well. -/
inductive Kept (w : Params.Value) : Params.Value → Prop
  | self : Kept w w
  | item {items : List Params.Value} {x : Params.Value} (hx : x ∈ items) (h : Kept w x) :
    Kept w (.array items)
  | own {schema : Fields} {key : String} {x : Params.Value} (hx : (key, x) ∈ schema) (hkey : key ≠ "$schema")
      (hany : key = "anyOf" → ¬Nullable schema) (h : Kept w x) : Kept w (.object schema)
  | branch {schema branch : Fields} {key : String} {x : Params.Value}
      (hbranch : NullableWith schema (.object branch)) (hx : (key, x) ∈ branch)
      (hkey : key ≠ "$schema") (hown : ∀ y, (key, y) ∈ schema → key = "anyOf") (h : Kept w x) :
      Kept w (.object schema)

theorem occurs_object {f g : Fields} :
    Occurs (.object f) (.object g) ↔ f = g ∨ ∃ p ∈ g, Occurs (.object f) p.2 := by
  constructor
  · intro h
    cases h with
    | self => exact .inl rfl
    | field hp h => exact .inr ⟨_, hp, h⟩
  · rintro (rfl | ⟨p, hp, h⟩)
    · exact .self
    · exact .field hp h

theorem occurs_array {f : Fields} {items : List Params.Value} :
    Occurs (.object f) (.array items) ↔ ∃ x ∈ items, Occurs (.object f) x := by
  constructor
  · intro h
    cases h with
    | item hx h => exact ⟨_, hx, h⟩
  · rintro ⟨x, hx, h⟩
    exact .item hx h

theorem complete_object {fields : Fields} :
    Complete (.object fields) ↔ Portable fields ∧ ∀ p ∈ fields, Complete p.2 := by
  unfold Complete
  simp only [occurs_object]
  constructor
  · intro h
    exact ⟨h fields (.inl rfl), fun p hp f hf => h f (.inr ⟨p, hp, hf⟩)⟩
  · rintro ⟨hfields, hrest⟩ f (rfl | ⟨p, hp, hf⟩)
    · exact hfields
    · exact hrest p hp f hf

theorem complete_array {items : List Params.Value} :
    Complete (.array items) ↔ ∀ x ∈ items, Complete x := by
  unfold Complete
  simp only [occurs_array]
  exact ⟨fun h x hx f hf => h f ⟨x, hx, hf⟩, fun h f ⟨x, hx, hf⟩ => h x hx f hf⟩

theorem hereditary_distinct : Hereditary Distinct where
  item h hx f hf := h f (.item hx hf)
  filter p h f hf := by
    obtain ⟨x, hx, hocc⟩ := occurs_array.mp hf
    exact h f (.item (List.mem_of_mem_filter hx) hocc)
  field h p hp f hf := h f (.field hp hf)

theorem Distinct.keyed {fields : Fields} (h : Distinct (.object fields)) : Keyed fields :=
  h fields .self

theorem isNullType_iff {v : Params.Value} : isNullType v = true ↔ v = .string "null" := by
  cases v <;> simp [isNullType, Params.Value.asStr]

theorem isOpen_iff {b : Params.Value} : IsOpen b ↔ ∃ fields, branchFields b = some fields := by
  constructor
  · rintro (rfl | ⟨fields, rfl⟩)
    · exact ⟨[], rfl⟩
    · exact ⟨fields, rfl⟩
  · rintro ⟨fields, h⟩
    exact (branchFields_eq_some h).symm.imp And.left fun heq => ⟨fields, heq⟩

theorem NullableWith.unique {schema : Fields} {b b' : Params.Value} (h : NullableWith schema b)
    (h' : NullableWith schema b') : b = b' := by
  obtain ⟨branches, hany, -, hfilter⟩ := h
  obtain ⟨branches', hany', -, hfilter'⟩ := h'
  cases hany.symm.trans hany'
  exact (List.singleton_inj.mp (hfilter.symm.trans hfilter'))

theorem splice_of_nullableWith {schema fields : Fields} {b : Params.Value} (h : NullableWith schema b)
    (hfields : branchFields b = some fields) : splice schema = overlay fields schema := by
  rw [splice, nullableAnyOfReplacement_eq_some.mpr ⟨b, fields, h, hfields, rfl⟩, Option.getD_some]

theorem splice_of_not_nullable {schema : Fields} (h : ¬Nullable schema) : splice schema = schema := by
  rw [splice]
  cases hreplacement : nullableAnyOfReplacement schema with
  | none => rfl
  | some r =>
    obtain ⟨b, fields, hb, hfields, -⟩ := nullableAnyOfReplacement_eq_some.mp hreplacement
    exact absurd ⟨b, hb, isOpen_iff.mpr ⟨fields, hfields⟩⟩ h

/-! What a rewriting leaves of the shapes that it removes. -/

theorem lookup_splice_type {schema : Fields} (hschema : Keyed schema) {type : Params.Value} :
    (splice schema).lookup "type" = some type ↔ HasType schema type := by
  by_cases hnullable : Nullable schema
  · obtain ⟨b, hb, hopen⟩ := hnullable
    obtain ⟨fields, hfields⟩ := isOpen_iff.mp hopen
    have hbranch : fields.lookup "type" = some type ↔
        ∃ branch, NullableWith schema (.object branch) ∧ branch.lookup "type" = some type := by
      constructor
      · intro h
        rcases branchFields_eq_some hfields with rfl | ⟨-, rfl⟩
        · exact ⟨fields, hb, h⟩
        · cases h
      · rintro ⟨branch, hwith, h⟩
        obtain rfl := hb.unique hwith
        cases hfields
        exact h
    rw [splice_of_nullableWith hb hfields, lookup_overlay hschema, if_neg (by decide),
      if_neg (by decide), Option.or_eq_some_iff, HasType, hbranch]
  · rw [splice_of_not_nullable hnullable, HasType]
    refine (or_iff_left ?_).symm
    rintro ⟨-, branch, hwith, -⟩
    exact hnullable ⟨_, hwith, .inr ⟨branch, rfl⟩⟩

theorem nullable_congr {f g : Fields} (h : f.lookup "anyOf" = g.lookup "anyOf") :
    Nullable f ↔ Nullable g := by
  rw [Nullable, Nullable]
  simp only [NullableWith, h]

theorem nullable_splice {schema : Fields} (hschema : Keyed schema) : Nullable (splice schema) ↔
    ∃ branch, NullableWith schema (.object branch) ∧ Nullable branch := by
  by_cases hnullable : Nullable schema
  · obtain ⟨b, hb, hopen⟩ := hnullable
    obtain ⟨fields, hfields⟩ := isOpen_iff.mp hopen
    have hlookup : (splice schema).lookup "anyOf" = fields.lookup "anyOf" := by
      rw [splice_of_nullableWith hb hfields, lookup_overlay hschema, if_pos rfl]
    rw [nullable_congr hlookup]
    constructor
    · intro h
      rcases branchFields_eq_some hfields with rfl | ⟨-, rfl⟩
      · exact ⟨fields, hb, h⟩
      · obtain ⟨-, ⟨branches, hany, -⟩, -⟩ := h
        cases hany
    · rintro ⟨branch, hwith, h⟩
      obtain rfl := hb.unique hwith
      cases hfields
      exact h
  · rw [splice_of_not_nullable hnullable]
    apply iff_of_false hnullable
    rintro ⟨branch, hwith, -⟩
    exact hnullable ⟨_, hwith, .inr ⟨branch, rfl⟩⟩

theorem any_isNullType {types : List Params.Value} :
    types.any isNullType = true ↔ .string "null" ∈ types := by
  simp [List.any_eq_true, isNullType_iff]

theorem lookup_flattenType_type {f : Fields} {types : List Params.Value}
    (htype : f.lookup "type" = some (.array types)) (hnull : .string "null" ∈ types) :
    (flattenType f).lookup "type" = typeReplacement (types.filter (!isNullType ·)) := by
  rw [lookup_flattenType, if_pos rfl, nullableTypeArrayReplacement_eq htype (any_isNullType.mpr hnull),
    Option.getD_some]

theorem lookup_flattenType_of_not {f : Fields} (h : ¬HasNullType f) (key : String) :
    (flattenType f).lookup key = f.lookup key := by
  rw [lookup_flattenType, nullableTypeArrayReplacement_eq_none, Option.getD_none, ite_self]
  intro types htype
  rw [← Bool.not_eq_true, any_isNullType]
  exact fun hnull => h ⟨types, htype, hnull⟩

theorem not_null_of_mem_filter {types : List Params.Value} {x : Params.Value}
    (hx : x ∈ types.filter (!isNullType ·)) : x ≠ .string "null" := by
  rintro rfl
  simpa [isNullType, Params.Value.asStr] using (List.mem_filter.mp hx).2

theorem hasNullType_flattenType {f : Fields} : HasNullType (flattenType f) ↔
    ∃ types inner, f.lookup "type" = some (.array types) ∧ .string "null" ∈ types ∧
      types.filter (!isNullType ·) = [.array inner] ∧ .string "null" ∈ inner := by
  constructor
  · rintro ⟨inner, hinner, hmem⟩
    by_cases hnull : HasNullType f
    · obtain ⟨types, htype, hnull⟩ := hnull
      rw [lookup_flattenType_type htype hnull] at hinner
      rcases typeReplacement_eq_some hinner with hone | ⟨-, harray⟩
      · exact ⟨types, inner, htype, hnull, hone, hmem⟩
      · rw [Params.Value.array.inj harray] at hmem
        exact absurd rfl (not_null_of_mem_filter hmem)
    · rw [lookup_flattenType_of_not hnull] at hinner
      exact absurd ⟨inner, hinner, hmem⟩ hnull
  · rintro ⟨types, inner, htype, hnull, hone, hmem⟩
    refine ⟨inner, ?_, hmem⟩
    rw [lookup_flattenType_type htype hnull, hone]
    rfl

theorem flattenType_null {f : Fields} : (flattenType f).lookup "type" = some (.string "null") ↔
    f.lookup "type" = some (.string "null") := by
  by_cases hnull : HasNullType f
  · obtain ⟨types, htype, hnull⟩ := hnull
    rw [lookup_flattenType_type htype hnull, htype]
    apply iff_of_false ?_ nofun
    intro h
    rcases typeReplacement_eq_some h with hone | ⟨-, harray⟩
    · exact not_null_of_mem_filter (by rw [hone]; exact List.mem_singleton_self _) rfl
    · cases harray
  · rw [lookup_flattenType_of_not hnull]

theorem lookup_rewrite_type (schema : Fields) : (remove (splice schema) "$schema").lookup "type" =
    (splice schema).lookup "type" := by
  rw [lookup_remove, if_neg (by decide)]

theorem hasNullType_rewrite {schema : Fields} (hschema : Keyed schema) : HasNullType (rewrite schema) ↔
    ∃ types inner, HasType schema (.array types) ∧ .string "null" ∈ types ∧
      types.filter (!isNullType ·) = [.array inner] ∧ .string "null" ∈ inner := by
  rw [rewrite, hasNullType_flattenType]
  simp only [lookup_rewrite_type, lookup_splice_type hschema]

theorem nullable_rewrite {schema : Fields} (hschema : Keyed schema) : Nullable (rewrite schema) ↔
    ∃ branch, NullableWith schema (.object branch) ∧ Nullable branch := by
  rw [← nullable_splice hschema]
  apply nullable_congr
  rw [rewrite, lookup_flattenType, if_neg (by decide), lookup_remove, if_neg (by decide)]

theorem rewrite_null {schema : Fields} (hschema : Keyed schema) :
    (rewrite schema).lookup "type" = some (.string "null") ↔
      schema.lookup "type" = some (.string "null") := by
  rw [rewrite, flattenType_null, lookup_rewrite_type, lookup_splice_type hschema, HasType]
  refine or_iff_left ?_
  rintro ⟨-, branch, ⟨branches, -, -, hfilter⟩, hnull⟩
  have hbranch : Params.Value.object branch ∈ branches.filter (!isNullSchema ·) := by
    rw [hfilter]
    exact List.mem_singleton_self _
  have hnotNull := (List.mem_filter.mp hbranch).2
  simp [isNullSchema, Params.Value.get, Params.Value.asObject, hnull, Params.Value.asStr] at hnotNull

/-! What the pass leaves of a value. -/

theorem normalize_eq_array {v : Params.Value} {items : List Params.Value}
    (h : normalizeSchemaValue v = .array items) :
    ∃ items', v = .array items' ∧ items = items'.map normalizeSchemaValue := by
  cases v with
  | array items' =>
    rw [normalize_array] at h
    exact ⟨items', rfl, (Params.Value.array.inj h).symm⟩
  | object schema =>
    rw [normalize_object] at h
    cases h
  | _ => simp [normalizeSchemaValue] at h

theorem normalize_eq_string {v : Params.Value} {text : String} :
    normalizeSchemaValue v = .string text ↔ v = .string text := by
  cases v with
  | array items => simp
  | object schema => simp
  | _ => simp [normalizeSchemaValue]

theorem isOpen_normalize {v : Params.Value} : IsOpen (normalizeSchemaValue v) ↔ IsOpen v := by
  cases v with
  | array items => simp [IsOpen]
  | object schema => simp [IsOpen]
  | _ => simp [IsOpen, normalizeSchemaValue]

theorem isNullSchema_iff {v : Params.Value} : isNullSchema v = true ↔
    ∃ schema, v = .object schema ∧ schema.lookup "type" = some (.string "null") := by
  rw [isNullSchema, beq_iff_eq, Params.Value.bind_asStr]
  cases v <;> simp [Params.Value.get, Params.Value.asObject]

theorem isNullSchema_normalize {v : Params.Value} (hv : Distinct v) :
    isNullSchema (normalizeSchemaValue v) = isNullSchema v := by
  rw [Bool.eq_iff_iff, isNullSchema_iff, isNullSchema_iff]
  cases v with
  | object schema =>
    simp only [normalize_object, Params.Value.object.injEq, exists_eq_left', lookup_map,
      Option.map_eq_some_iff, normalize_eq_string, exists_eq_right]
    exact rewrite_null hv.keyed
  | array items => simp
  | _ => simp [normalizeSchemaValue]

def normalizeFields (fields : Fields) : Fields :=
  fields.map fun p => (p.1, normalizeSchemaValue p.2)

theorem lookup_normalizeFields (fields : Fields) (key : String) :
    (normalizeFields fields).lookup key = (fields.lookup key).map normalizeSchemaValue := lookup_map

theorem lookup_normalizeFields_array {fields : Fields} {key : String} {items : List Params.Value} :
    (normalizeFields fields).lookup key = some (.array items) ↔
      ∃ items', fields.lookup key = some (.array items') ∧ items = items'.map normalizeSchemaValue := by
  rw [lookup_normalizeFields, Option.map_eq_some_iff]
  constructor
  · rintro ⟨v, hv, h⟩
    obtain ⟨items', rfl, hitems⟩ := normalize_eq_array h
    exact ⟨items', hv, hitems⟩
  · rintro ⟨items', hv, rfl⟩
    exact ⟨_, hv, normalize_array items'⟩

theorem hasNullType_normalizeFields {fields : Fields} :
    HasNullType (normalizeFields fields) ↔ HasNullType fields := by
  have hmem (types : List Params.Value) :
      Params.Value.string "null" ∈ types.map normalizeSchemaValue ↔ .string "null" ∈ types := by
    rw [List.mem_map]
    simp only [normalize_eq_string, exists_eq_right]
  constructor
  · rintro ⟨types, htype, hnull⟩
    obtain ⟨types', htype', rfl⟩ := lookup_normalizeFields_array.mp htype
    exact ⟨types', htype', (hmem types').mp hnull⟩
  · rintro ⟨types, htype, hnull⟩
    exact ⟨_, lookup_normalizeFields_array.mpr ⟨types, htype, rfl⟩, (hmem types).mpr hnull⟩

theorem nullable_normalizeFields {fields : Fields} (h : ∀ p ∈ fields, Distinct p.2) :
    Nullable (normalizeFields fields) ↔ Nullable fields := by
  have hbranches (branches : List Params.Value) (hany : fields.lookup "anyOf" = some (.array branches)) :
      (branches.map normalizeSchemaValue).countP isNullSchema = branches.countP isNullSchema ∧
        (branches.map normalizeSchemaValue).filter (!isNullSchema ·) =
          (branches.filter (!isNullSchema ·)).map normalizeSchemaValue := by
    have hnull (b : Params.Value) (hb : b ∈ branches) :
        isNullSchema (normalizeSchemaValue b) = isNullSchema b :=
      isNullSchema_normalize (hereditary_distinct.item (h _ (mem_of_lookup hany)) hb)
    constructor
    · rw [List.countP_map]
      exact List.countP_congr fun b hb => by rw [Function.comp, hnull b hb]
    · rw [List.filter_map]
      congr 1
      exact List.filter_congr fun b hb => by rw [Function.comp, hnull b hb]
  constructor
  · rintro ⟨b, ⟨branches, hany, hcount, hfilter⟩, hopen⟩
    obtain ⟨branches', hany', rfl⟩ := lookup_normalizeFields_array.mp hany
    rw [(hbranches branches' hany').1] at hcount
    rw [(hbranches branches' hany').2, List.map_eq_singleton_iff] at hfilter
    obtain ⟨b', hfilter', rfl⟩ := hfilter
    exact ⟨b', ⟨branches', hany', hcount, hfilter'⟩, isOpen_normalize.mp hopen⟩
  · rintro ⟨b, ⟨branches, hany, hcount, hfilter⟩, hopen⟩
    refine ⟨normalizeSchemaValue b, ⟨_, lookup_normalizeFields_array.mpr ⟨branches, hany, rfl⟩, ?_, ?_⟩,
      isOpen_normalize.mpr hopen⟩
    · rw [(hbranches branches hany).1, hcount]
    · rw [(hbranches branches hany).2, hfilter]
      rfl

theorem portable_rewrite {schema : Fields} (h : Distinct (.object schema)) :
    Portable (normalizeFields (rewrite schema)) ↔ Shallow schema := by
  have hparts := forall_rewrite hereditary_distinct (hereditary_distinct.field h)
  have hnullable : Nullable (normalizeFields (rewrite schema)) ↔ _ :=
    (nullable_normalizeFields hparts).trans (nullable_rewrite h.keyed)
  have hnullType : HasNullType (normalizeFields (rewrite schema)) ↔ _ :=
    hasNullType_normalizeFields.trans (hasNullType_rewrite h.keyed)
  have hschema : (normalizeFields (rewrite schema)).lookup "$schema" = none := by
    rw [lookup_normalizeFields, rewrite, lookup_flattenType, if_neg (by decide), lookup_remove,
      if_pos rfl, Option.map_none]
  constructor
  · intro hportable
    refine ⟨fun branch hbranch hinner => ?_, fun types inner htype hnull hone hinner => ?_⟩
    · exact hportable.notNullable (hnullable.mpr ⟨branch, hbranch, hinner⟩)
    · exact hportable.noNullType (hnullType.mpr ⟨types, inner, htype, hnull, hone, hinner⟩)
  · intro hshallow
    refine ⟨hschema, fun h => ?_, fun h => ?_⟩
    · obtain ⟨branch, hbranch, hinner⟩ := hnullable.mp h
      exact hshallow.branch branch hbranch hinner
    · obtain ⟨types, inner, htype, hnull, hone, hinner⟩ := hnullType.mp h
      exact hshallow.types types inner htype hnull hone hinner

/-! What the pass comes to. -/

variable {o : Fields}

theorem kept_array {items : List Params.Value} :
    Kept (.object o) (.array items) ↔ ∃ x ∈ items, Kept (.object o) x := by
  constructor
  · intro h
    cases h with
    | item hx h => exact ⟨_, hx, h⟩
  · rintro ⟨x, hx, h⟩
    exact .item hx h

theorem kept_filter {types : List Params.Value} :
    (∃ x ∈ types.filter (!isNullType ·), Kept (.object o) x) ↔ ∃ x ∈ types, Kept (.object o) x := by
  constructor
  · rintro ⟨x, hx, h⟩
    exact ⟨x, List.mem_of_mem_filter hx, h⟩
  · rintro ⟨x, hx, h⟩
    refine ⟨x, List.mem_filter.mpr ⟨hx, ?_⟩, h⟩
    cases hnull : isNullType x with
    | false => rfl
    | true =>
      rw [isNullType_iff.mp hnull] at h
      cases h

def Below (o fields : Fields) : Prop :=
  ∃ key x, fields.lookup key = some x ∧ Kept (.object o) x

theorem below_iff {fields : Fields} (h : Keyed fields) :
    Below o fields ↔ ∃ p ∈ fields, Kept (.object o) p.2 := by
  constructor
  · rintro ⟨key, x, hx, hkept⟩
    exact ⟨(key, x), (mem_iff_lookup h).mpr hx, hkept⟩
  · rintro ⟨⟨key, x⟩, hp, hkept⟩
    exact ⟨key, x, (mem_iff_lookup h).mp hp, hkept⟩

theorem below_flattenType {fields : Fields} : Below o (flattenType fields) ↔ Below o fields := by
  by_cases hnull : HasNullType fields
  · obtain ⟨types, htype, hnull⟩ := hnull
    have hflat := lookup_flattenType_type htype hnull
    have htypes : (∃ x, (flattenType fields).lookup "type" = some x ∧ Kept (.object o) x) ↔
        Kept (.object o) (.array types) := by
      rw [hflat, kept_array, ← kept_filter]
      match types.filter (!isNullType ·) with
      | [] => simp [typeReplacement]
      | [type] => simp [typeReplacement]
      | _ :: _ :: _ => simp only [typeReplacement, Option.some_inj, exists_eq_left', kept_array]
    constructor
    · rintro ⟨key, x, hx, hkept⟩
      by_cases hkey : key = "type"
      · subst hkey
        exact ⟨"type", _, htype, htypes.mp ⟨x, hx, hkept⟩⟩
      · rw [lookup_flattenType, if_neg hkey] at hx
        exact ⟨key, x, hx, hkept⟩
    · rintro ⟨key, x, hx, hkept⟩
      by_cases hkey : key = "type"
      · subst hkey
        cases htype.symm.trans hx
        obtain ⟨x, hx, hkept⟩ := htypes.mpr hkept
        exact ⟨"type", x, hx, hkept⟩
      · exact ⟨key, x, by rwa [lookup_flattenType, if_neg hkey], hkept⟩
  · unfold Below
    simp only [lookup_flattenType_of_not hnull]

theorem below_remove {fields : Fields} {key : String} : Below o (remove fields key) ↔
    ∃ key' x, key' ≠ key ∧ fields.lookup key' = some x ∧ Kept (.object o) x := by
  unfold Below
  constructor
  · rintro ⟨key', x, hx, hkept⟩
    rw [lookup_remove, Option.ite_none_left_eq_some] at hx
    exact ⟨key', x, hx.1, hx.2, hkept⟩
  · rintro ⟨key', x, hkey, hx, hkept⟩
    exact ⟨key', x, by rwa [lookup_remove, if_neg hkey], hkept⟩

theorem kept_notNull {x : Params.Value} (h : Kept (.object o) x) : isNull x = false := by
  cases x with
  | null => cases h
  | _ => rfl

theorem lookup_overlay_notNull {branch schema : Fields} (hschema : Keyed schema) {key : String}
    {x : Params.Value} (hx : isNull x = false) : (overlay branch schema).lookup key = some x ↔
      if key = "anyOf" then branch.lookup key = some x
      else (schema.lookup key).or (branch.lookup key) = some x := by
  rw [lookup_overlay hschema]
  split_ifs
  · rfl
  · rw [Option.filter_eq_some_iff, hx]
    exact and_iff_left rfl
  · rfl

theorem NullableWith.distinct {schema : Fields} {b : Params.Value} (h : Distinct (.object schema))
    (hb : NullableWith schema b) : Distinct b := by
  obtain ⟨branches, hany, -, hfilter⟩ := hb
  apply hereditary_distinct.item (hereditary_distinct.field h _ (mem_of_lookup hany))
  exact List.mem_of_mem_filter (by rw [hfilter]; exact List.mem_singleton_self b)

theorem kept_object {schema : Fields} (h : Distinct (.object schema)) :
    Kept (.object o) (.object schema) ↔ o = schema ∨ Below o (rewrite schema) := by
  rw [rewrite, below_flattenType, below_remove]
  constructor
  · intro hkept
    cases hkept with
    | self => exact .inl rfl
    | @own _ key x hx hkey hany hkept =>
      refine .inr ⟨key, x, hkey, ?_, hkept⟩
      have hlookup := (mem_iff_lookup h.keyed).mp hx
      by_cases hnullable : Nullable schema
      · obtain ⟨b, hb, hopen⟩ := hnullable
        obtain ⟨fields, hfields⟩ := isOpen_iff.mp hopen
        rw [splice_of_nullableWith hb hfields, lookup_overlay_notNull h.keyed (kept_notNull hkept),
          if_neg fun hkey => hany hkey ⟨b, hb, hopen⟩, hlookup, Option.some_or]
      · rwa [splice_of_not_nullable hnullable]
    | @branch _ branch key x hbranch hx hkey hown hkept =>
      refine .inr ⟨key, x, hkey, ?_, hkept⟩
      have hlookup := (mem_iff_lookup (NullableWith.distinct h hbranch).keyed).mp hx
      rw [splice_of_nullableWith hbranch rfl, lookup_overlay_notNull h.keyed (kept_notNull hkept)]
      split_ifs with hkey'
      · exact hlookup
      · have hnone : schema.lookup key = none := by
          cases hfound : schema.lookup key with
          | none => rfl
          | some y => exact absurd (hown y (mem_of_lookup hfound)) hkey'
        rw [hnone, Option.none_or, hlookup]
  · rintro (rfl | ⟨key, x, hkey, hx, hkept⟩)
    · exact .self
    · by_cases hnullable : Nullable schema
      · obtain ⟨b, hb, hopen⟩ := hnullable
        obtain ⟨fields, hfields⟩ := isOpen_iff.mp hopen
        have hbranch (hx : fields.lookup key = some x)
            (hown : ∀ y, (key, y) ∈ schema → key = "anyOf") : Kept (.object o) (.object schema) := by
          rcases branchFields_eq_some hfields with rfl | ⟨-, rfl⟩
          · exact .branch hb (mem_of_lookup hx) hkey hown hkept
          · cases hx
        rw [splice_of_nullableWith hb hfields,
          lookup_overlay_notNull h.keyed (kept_notNull hkept)] at hx
        split_ifs at hx with hkey'
        · exact hbranch hx fun _ _ => hkey'
        · rcases Option.or_eq_some_iff.mp hx with hx | ⟨hnone, hx⟩
          · exact .own (mem_of_lookup hx) hkey (fun heq => absurd heq hkey') hkept
          · exact hbranch hx fun y hy => absurd hy (lookup_eq_none hnone y)
      · rw [splice_of_not_nullable hnullable] at hx
        exact .own (mem_of_lookup hx) hkey (fun _ => hnullable) hkept

theorem keyed_rewrite {schema : Fields} (h : Distinct (.object schema)) : Keyed (rewrite schema) := by
  apply Keyed.flattenType
  apply Keyed.filter
  by_cases hnullable : Nullable schema
  · obtain ⟨b, hb, hopen⟩ := hnullable
    obtain ⟨fields, hfields⟩ := isOpen_iff.mp hopen
    rw [splice_of_nullableWith hb hfields]
    apply Keyed.overlay
    rcases branchFields_eq_some hfields with rfl | ⟨-, rfl⟩
    · exact (NullableWith.distinct h hb).keyed
    · exact List.nodup_nil
  · rw [splice_of_not_nullable hnullable]
    exact h.keyed

theorem complete_normalize {v : Params.Value} (h : Distinct v) : Complete (normalizeSchemaValue v) ↔
    ∀ fields, Kept (.object fields) v → Shallow fields := by
  induction v using normalizeSchemaValue.induct with
  | case1 schema ih =>
    have hparts := forall_rewrite hereditary_distinct (hereditary_distinct.field h)
    have hrest : (∀ p ∈ normalizeFields (rewrite schema), Complete p.2) ↔
        ∀ fields, Below fields (rewrite schema) → Shallow fields := by
      rw [normalizeFields, List.forall_mem_map]
      constructor
      · intro hcomplete fields hbelow
        obtain ⟨p, hp, hkept⟩ := (below_iff (keyed_rewrite h)).mp hbelow
        exact (ih ⟨p, hp⟩ (hparts p hp)).mp (hcomplete p hp) fields hkept
      · intro hshallow p hp
        apply (ih ⟨p, hp⟩ (hparts p hp)).mpr
        intro fields hkept
        exact hshallow fields ((below_iff (keyed_rewrite h)).mpr ⟨p, hp, hkept⟩)
    rw [normalize_object, complete_object]
    change Portable (normalizeFields (rewrite schema)) ∧
      (∀ p ∈ normalizeFields (rewrite schema), Complete p.2) ↔ _
    rw [portable_rewrite h, hrest]
    simp only [kept_object h]
    constructor
    · rintro ⟨hschema, hbelow⟩ fields (rfl | hfields)
      · exact hschema
      · exact hbelow fields hfields
    · intro hall
      exact ⟨hall schema (.inl rfl), fun fields hfields => hall fields (.inr hfields)⟩
  | case2 items ih =>
    rw [normalize_array, complete_array, List.forall_mem_map]
    simp only [kept_array]
    constructor
    · rintro hcomplete fields ⟨x, hx, hkept⟩
      exact (ih x hx (hereditary_distinct.item h hx)).mp (hcomplete x hx) fields hkept
    · intro hshallow x hx
      exact (ih x hx (hereditary_distinct.item h hx)).mpr fun fields hkept =>
        hshallow fields ⟨x, hx, hkept⟩
  | case3 v hobject harray =>
    rw [normalizeSchemaValue]
    · apply iff_of_true
      · intro fields hfields
        cases hfields with
        | self => exact absurd rfl (hobject _)
        | item _ _ => exact absurd rfl (harray _)
        | field _ _ => exact absurd rfl (hobject _)
      · intro fields hfields
        cases hfields with
        | self => exact absurd rfl (hobject _)
        | item _ _ => exact absurd rfl (harray _)
        | own _ _ _ _ => exact absurd rfl (hobject _)
        | branch _ _ _ _ _ => exact absurd rfl (hobject _)
    · exact hobject
    · exact harray

theorem rewrite_portable {schema : Fields} (h : Portable schema) : rewrite schema = schema := by
  have hremove : remove schema "$schema" = schema := by
    apply List.filter_eq_self.mpr
    intro p hp
    apply decide_eq_true
    rintro hkey
    exact lookup_eq_none h.noSchema p.2 (hkey ▸ hp)
  have htype : nullableTypeArrayReplacement schema = none := by
    apply nullableTypeArrayReplacement_eq_none
    intro types htype
    rw [← Bool.not_eq_true, any_isNullType]
    exact fun hnull => h.noNullType ⟨types, htype, hnull⟩
  rw [rewrite, splice_of_not_nullable h.notNullable, hremove, flattenType, htype]

theorem normalize_complete {v : Params.Value} (h : Complete v) : normalizeSchemaValue v = v := by
  induction v using normalizeSchemaValue.induct with
  | case1 schema ih =>
    obtain ⟨hschema, hparts⟩ := complete_object.mp h
    rw [normalize_object]
    congr 1
    have hid : ∀ p ∈ rewrite schema, (p.1, normalizeSchemaValue p.2) = p := by
      intro p hp
      have hfixed := ih ⟨p, hp⟩ (hparts p (rewrite_portable hschema ▸ hp))
      rw [hfixed]
    rw [List.map_congr_left hid, List.map_id', rewrite_portable hschema]
  | case2 items ih =>
    rw [normalize_array]
    congr 1
    exact (List.map_congr_left fun x hx => ih x hx (complete_array.mp h x hx)).trans (List.map_id' _)
  | case3 v hobject harray =>
    rw [normalizeSchemaValue]
    · exact hobject
    · exact harray

/-- The pass leaves none of the shapes, and a second pass changes nothing, exactly if no object that
it comes to gives way to a nullable branch or to a type array with null again. -/
theorem normalization_complete_iff (j : Json) :
    (Complete (normalizeSchemaValue j.value) ∧
      normalizeSchemaValue (normalizeSchemaValue j.value) = normalizeSchemaValue j.value) ↔
      ∀ fields, Kept (.object fields) j.value → Shallow fields := by
  rw [← complete_normalize j.distinct]
  exact and_iff_left_of_imp normalize_complete

theorem distinct_object {fields : Fields} (hkeyed : Keyed fields) (h : ∀ p ∈ fields, Distinct p.2) :
    Distinct (.object fields) := by
  intro f hf
  rcases occurs_object.mp hf with rfl | ⟨p, hp, hf⟩
  · exact hkeyed
  · exact h p hp f hf

theorem distinct_field {key : String} {v : Params.Value} (h : Distinct v) :
    Distinct (.object [(key, v)]) :=
  distinct_object (List.nodup_singleton key) (by simpa using h)

theorem distinct_array {items : List Params.Value} (h : ∀ x ∈ items, Distinct x) :
    Distinct (.array items) := by
  intro f hf
  obtain ⟨x, hx, hf⟩ := occurs_array.mp hf
  exact h x hx f hf

theorem distinct_string (text : String) : Distinct (.string text) := by
  intro f hf
  cases hf

def typed (type : String) : Params.Value := .object [("type", .string type)]

def optional (schema : Params.Value) : Params.Value :=
  .object [("anyOf", .array [schema, typed "null"])]

theorem distinct_typed (type : String) : Distinct (typed type) :=
  distinct_field (distinct_string type)

theorem distinct_optional {schema : Params.Value} (h : Distinct schema) : Distinct (optional schema) :=
  distinct_field (distinct_array (by simp [h, distinct_typed]))

/-- An option of an option stays nullable. -/
theorem nested_option_nullable :
    let j : Json := ⟨optional (optional (typed "string")),
      distinct_optional (distinct_optional (distinct_typed _))⟩
    ¬(Complete (normalizeSchemaValue j.value) ∧
      normalizeSchemaValue (normalizeSchemaValue j.value) = normalizeSchemaValue j.value) := by
  intro j hcomplete
  have hshallow := (complete_normalize j.distinct).mp hcomplete.1 _ .self
  apply hshallow.branch [("anyOf", .array [typed "string", typed "null"])]
  · exact ⟨_, rfl, rfl, rfl⟩
  · exact ⟨typed "string", ⟨_, rfl, rfl, rfl⟩, .inr ⟨_, rfl⟩⟩

end IdaMcp.Schema
