/-
**The schemas of functions that are sent to Gemini.**

Gemini accepts a part of the keywords of a schema only, one type a schema and one schema for the
items of an array.  `cleanFunctionParameters` brings the parameters of a function into that form.
It walks through the schema, drops the keywords Gemini does not know, turns a list of types into the
first type and `nullable`, and a list of schemas for items into the first one.  The names of
properties are no keywords and all stay.  At 64 levels it stops and drops what lies deeper.

Two texts get through.  A list of schemas for items is replaced by its first entry only where it has
one, so that `"items": []` stays as it is; and where the first entry is itself a list the result is
again a list, of which a second cleaning takes the first entry.  A type that is JSON's `null` is
passed over too.

The recursion is modelled with a stack of bounded size, which shows how deep it goes.

Main definitions:

* `cleanFunctionParametersWithDepth`, `cleanFunctionParameters` — the cleaning;
* `SchemaAt`, `Admissible` — the places of schemas, and what Gemini accepts there;
* `Called` — the calls that a cleaning leads to;
* `Cleanable` — no such text is met.

Main results:

* `cleanFunctionParameters_eq` — 65 frames are enough for every value;
* `admissible_cleaned_iff`, `cleaned_cleaned_iff` — **when the result is admissible, and when a
  second cleaning changes nothing**;
* `parameters_cleaned` — both together, with the names of properties.
-/

import Mathlib.Data.List.Forall2
import NewApi.ClaudeStream
import NewApi.Lib.GoJson

set_option autoImplicit false

namespace NewApi

open GoJson (Json)

/-! ### Keywords -/

def geminiOpenAPISchemaAllowedFields : List String :=
  ["anyOf", "default", "description", "enum", "example", "format", "items", "maxItems", "maxLength",
    "maxProperties", "maximum", "minItems", "minLength", "minProperties", "minimum", "nullable",
    "pattern", "properties", "propertyOrdering", "required", "title", "type"]

def geminiFunctionSchemaMaxDepth : ℕ := 64

/-- The fields of a JSON object, each key once. -/
abbrev SchemaFields := List (String × Json)

/-- The fields whose keyword is allowed. -/
def allowedFields (fields : SchemaFields) : SchemaFields :=
  fields.filter fun field => decide (field.1 ∈ geminiOpenAPISchemaAllowedFields)

def deleteField (fields : SchemaFields) (key : String) : SchemaFields :=
  fields.filter fun field => decide (field.1 ≠ key)

def setField (fields : SchemaFields) (key : String) (value : Json) : SchemaFields :=
  if fields.any fun field => decide (field.1 = key) then
    fields.map fun field => if field.1 = key then (key, value) else field
  else fields ++ [(key, value)]

/-! ### Types -/

/-- The name of a type as Gemini writes it, and nothing for the null type. -/
def normalizeTypeName (t : String) : Option String :=
  let name := toLower (trimSpace t)
  if name = "object" then some "OBJECT"
  else if name = "array" then some "ARRAY"
  else if name = "string" then some "STRING"
  else if name = "integer" then some "INTEGER"
  else if name = "number" then some "NUMBER"
  else if name = "boolean" then some "BOOLEAN"
  else if name = "null" then none
  else some t

/-- One entry of a list of types: whether the null type was among them, and the type chosen. -/
def normalizeTypeEntry (acc : Bool × String) : Json → Bool × String
  | .str s =>
    match normalizeTypeName s with
    | none => (true, acc.2)
    | some normalized => (acc.1, if acc.2 = "" then normalized else acc.2)
  | _ => acc

/-- What `type` becomes, if it stays, and whether `nullable` is set. -/
def normalizeType : Json → Option Json × Bool
  | .str t =>
    match normalizeTypeName t with
    | none => (none, true)
    | some normalized => (some (.str normalized), false)
  | .arr entries =>
    let acc := entries.foldl normalizeTypeEntry (false, "")
    (if acc.2 = "" then none else some (.str acc.2), acc.1)
  | rawType => (some rawType, false)

/-- The field `type` as it is kept; the other fields stay. -/
def normalizeField (field : String × Json) : Option (String × Json) :=
  if field.1 = "type" then (normalizeType field.2).1.map (Prod.mk "type") else some field

/-- Whether a field is a type that allows null. -/
def nullableField (field : String × Json) : Bool :=
  decide (field.1 = "type") && (normalizeType field.2).2

def normalizeGeminiSchemaTypeAndNullable (schema : SchemaFields) : SchemaFields :=
  let typed := schema.filterMap normalizeField
  if schema.any nullableField then setField typed "nullable" (.bool true) else typed

/-! ### The cleaning -/

def cleanFunctionParametersShallow : Json → Json
  | .obj v =>
    .obj (deleteField (deleteField (deleteField
      (normalizeGeminiSchemaTypeAndNullable (allowedFields v)) "properties") "items") "anyOf")
  | .arr _ => .arr []
  | params => params

/-- The value of a keyword, with the schemas below it cleaned. -/
def cleanKeyword (clean : Json → Option Json) (key : String) (value : Json) : Option Json :=
  if key = "properties" then
    match value with
    | .obj props => (props.mapM fun prop => (clean prop.2).map (Prod.mk prop.1)).map Json.obj
    | _ => some value
  else if key = "items" then
    match value with
    | .obj items => clean (.obj items)
    -- tuple-style items: the first schema is kept
    | .arr (first :: _) => clean first
    | _ => some value
  else if key = "anyOf" then
    match value with
    | .arr nested => (nested.mapM clean).map Json.arr
    | _ => some value
  else some value

/-- A call on `params` at `depth`, when the stack has room for `frames` calls.  Nothing is the
answer of a stack that is full. -/
def cleanFunctionParametersWithDepth : ℕ → Json → ℕ → Option Json
  | 0, _, _ => none
  | frames + 1, params, depth =>
    match params with
    | .null => some .null
    | _ =>
      if geminiFunctionSchemaMaxDepth ≤ depth then some (cleanFunctionParametersShallow params)
      else
        let clean := fun value => cleanFunctionParametersWithDepth frames value (depth + 1)
        match params with
        | .obj v =>
          ((normalizeGeminiSchemaTypeAndNullable (allowedFields v)).mapM fun field =>
            (cleanKeyword clean field.1 field.2).map (Prod.mk field.1)).map Json.obj
        | .arr v => (v.mapM clean).map Json.arr
        | _ => some params

def cleanFunctionParameters (frames : ℕ) (params : Json) : Option Json :=
  cleanFunctionParametersWithDepth frames params 0

/-! ### What is asked of the result -/

/-- The values in the places where `root` has schemas. -/
inductive SchemaAt : Json → Json → Prop
  | root (value : Json) : SchemaAt value value
  | property {fields props : SchemaFields} {name : String} {value place : Json} :
      ("properties", Json.obj props) ∈ fields → (name, value) ∈ props → SchemaAt value place →
      SchemaAt (.obj fields) place
  | items {fields : SchemaFields} {value place : Json} :
      ("items", value) ∈ fields → SchemaAt value place → SchemaAt (.obj fields) place
  | anyOf {fields : SchemaFields} {nested : List Json} {value place : Json} :
      ("anyOf", Json.arr nested) ∈ fields → value ∈ nested → SchemaAt value place →
      SchemaAt (.obj fields) place

/-- What Gemini accepts as the fields of a schema. -/
structure AdmissibleFields (fields : SchemaFields) : Prop where
  allowed : ∀ field ∈ fields, field.1 ∈ geminiOpenAPISchemaAllowedFields
  items : ∀ entries, ("items", Json.arr entries) ∉ fields
  typeList : ∀ entries, ("type", Json.arr entries) ∉ fields
  typeNull : ("type", Json.null) ∉ fields
  typeNullName : ∀ t, ("type", Json.str t) ∈ fields → toLower (trimSpace t) ≠ "null"

/-- Every object in the place of a schema is admissible. -/
def Admissible (root : Json) : Prop :=
  ∀ fields, SchemaAt root (.obj fields) → AdmissibleFields fields

/-- Wherever a value is cleaned with `levels` left before the limit, the result has all names of its
properties. -/
def NamesKept : ℕ → Json → Json → Prop
  | 0, _, _ => True
  | levels + 1, .obj v, result =>
    ∃ fields, result = .obj fields ∧
      (∀ props, ("properties", Json.obj props) ∈ v → ∃ cleaned,
        ("properties", Json.obj cleaned) ∈ fields ∧
        List.Forall₂ (fun prop prop' => prop.1 = prop'.1 ∧ NamesKept levels prop.2 prop'.2)
          props cleaned) ∧
      (∀ items, ("items", Json.obj items) ∈ v → ∃ cleaned,
        ("items", cleaned) ∈ fields ∧ NamesKept levels (.obj items) cleaned) ∧
      (∀ first rest, ("items", Json.arr (first :: rest)) ∈ v → ∃ cleaned,
        ("items", cleaned) ∈ fields ∧ NamesKept levels first cleaned) ∧
      ∀ nested, ("anyOf", Json.arr nested) ∈ v → ∃ cleaned,
        ("anyOf", Json.arr cleaned) ∈ fields ∧ List.Forall₂ (NamesKept levels) nested cleaned
  | levels + 1, .arr v, result =>
    ∃ entries, result = .arr entries ∧ List.Forall₂ (NamesKept levels) v entries
  | _ + 1, _, _ => True

/-! ### The values that are met -/

/-- A call at `depth` on `params` leads to a call at another depth on `value`.  The mark says that no
list of schemas that stands for a schema was entered on the way. -/
inductive Called : ℕ → Json → Bool → ℕ → Json → Prop
  | here (depth : ℕ) (params : Json) : Called depth params true depth params
  | property {depth depth' : ℕ} {v props : SchemaFields} {name : String} {prop value : Json}
      {schema : Bool} :
      depth < geminiFunctionSchemaMaxDepth → ("properties", Json.obj props) ∈ v →
      (name, prop) ∈ props → Called (depth + 1) prop schema depth' value →
      Called depth (.obj v) schema depth' value
  | items {depth depth' : ℕ} {v items : SchemaFields} {value : Json} {schema : Bool} :
      depth < geminiFunctionSchemaMaxDepth → ("items", Json.obj items) ∈ v →
      Called (depth + 1) (.obj items) schema depth' value →
      Called depth (.obj v) schema depth' value
  | firstItem {depth depth' : ℕ} {v : SchemaFields} {first value : Json} {rest : List Json}
      {schema : Bool} :
      depth < geminiFunctionSchemaMaxDepth → ("items", Json.arr (first :: rest)) ∈ v →
      Called (depth + 1) first schema depth' value → Called depth (.obj v) schema depth' value
  | anyOf {depth depth' : ℕ} {v : SchemaFields} {nested : List Json} {item value : Json}
      {schema : Bool} :
      depth < geminiFunctionSchemaMaxDepth → ("anyOf", Json.arr nested) ∈ v → item ∈ nested →
      Called (depth + 1) item schema depth' value → Called depth (.obj v) schema depth' value
  | element {depth depth' : ℕ} {v : List Json} {item value : Json} {schema : Bool} :
      depth < geminiFunctionSchemaMaxDepth → item ∈ v →
      Called (depth + 1) item schema depth' value → Called depth (.arr v) false depth' value

/-- A schema has a type that is not JSON's null, and above the limit its items are no empty list and
no list that starts with a list. -/
def Fits : Bool → ℕ → Json → Prop
  | true, depth, .obj v =>
    ("type", Json.null) ∉ v ∧
      (depth < geminiFunctionSchemaMaxDepth →
        ("items", Json.arr []) ∉ v ∧
          ∀ entries rest, ("items", Json.arr (Json.arr entries :: rest)) ∉ v)
  | _, _, _ => True

/-- The first entry of a list of items is no list that has entries itself.  At the last level such a
list is emptied. -/
def StaysCleaned : ℕ → Json → Prop
  | depth, .obj v =>
    depth + 1 < geminiFunctionSchemaMaxDepth →
      ∀ entry entries rest, ("items", Json.arr (Json.arr (entry :: entries) :: rest)) ∉ v
  | _, _ => True

/-- Every schema met fits, and every object met settles. -/
def Cleanable (params : Json) : Prop :=
  ∀ schema depth value, Called 0 params schema depth value →
    Fits schema depth value ∧ StaysCleaned depth value

/-! ### The result by the levels left -/

/-- The value of a keyword when the schemas below it become `clean`. -/
def cleanedKeyword (clean : Json → Json) (key : String) (value : Json) : Json :=
  if key = "properties" then
    match value with
    | .obj props => .obj (props.map fun prop => (prop.1, clean prop.2))
    | _ => value
  else if key = "items" then
    match value with
    | .obj items => clean (.obj items)
    | .arr (first :: _) => clean first
    | _ => value
  else if key = "anyOf" then
    match value with
    | .arr nested => .arr (nested.map clean)
    | _ => value
  else value

def cleanedFields (clean : Json → Json) (v : SchemaFields) : SchemaFields :=
  (normalizeGeminiSchemaTypeAndNullable (allowedFields v)).map fun field =>
    (field.1, cleanedKeyword clean field.1 field.2)

/-- What cleaning gives when so many levels are left before the limit. -/
def cleaned : ℕ → Json → Json
  | 0, params => cleanFunctionParametersShallow params
  | levels + 1, .obj v => .obj (cleanedFields (cleaned levels) v)
  | levels + 1, .arr v => .arr (v.map (cleaned levels))
  | _ + 1, params => params

private theorem mapM_some {α β : Type*} (f : α → β) (l : List α) :
    l.mapM (fun a => some (f a)) = some (l.map f) := by
  induction l with
  | nil => rfl
  | cons a l ih => simp [List.mapM_cons, ih]

theorem cleanKeyword_some (clean : Json → Json) (key : String) (value : Json) :
    cleanKeyword (fun value => some (clean value)) key value =
      some (cleanedKeyword clean key value) := by
  unfold cleanKeyword cleanedKeyword
  split
  · cases value with
    | obj props => simp [mapM_some]
    | _ => rfl
  · split
    · cases value with
      | arr entries =>
        cases entries with
        | nil => rfl
        | cons first rest => rfl
      | _ => rfl
    · split
      · cases value with
        | arr nested => simp [mapM_some]
        | _ => rfl
      · rfl

/-- A stack with a frame for each level that is left, and one more, is enough. -/
theorem cleanFunctionParametersWithDepth_eq :
    ∀ (levels frames depth : ℕ) (params : Json),
      depth + levels = geminiFunctionSchemaMaxDepth → levels < frames →
      cleanFunctionParametersWithDepth frames params depth = some (cleaned levels params) := by
  intro levels
  induction levels with
  | zero =>
    intro frames depth params hdepth hframes
    obtain ⟨frames, rfl⟩ : ∃ n, frames = n + 1 := ⟨frames - 1, by omega⟩
    have hlimit : geminiFunctionSchemaMaxDepth ≤ depth := by omega
    cases params with
    | null => rfl
    | _ => simp only [cleanFunctionParametersWithDepth, hlimit, if_true, cleaned]
  | succ levels ih =>
    intro frames depth params hdepth hframes
    obtain ⟨frames, rfl⟩ : ∃ n, frames = n + 1 := ⟨frames - 1, by omega⟩
    have hlimit : ¬ geminiFunctionSchemaMaxDepth ≤ depth := by omega
    have hclean : (fun value => cleanFunctionParametersWithDepth frames value (depth + 1)) =
        fun value => some (cleaned levels value) := by
      funext value
      exact ih frames (depth + 1) value (by omega) (by omega)
    cases params with
    | null => rfl
    | obj v =>
      simp only [cleanFunctionParametersWithDepth, hlimit, if_false, hclean, cleanKeyword_some,
        Option.map_some, cleaned, cleanedFields]
      rw [mapM_some]
      rfl
    | arr v =>
      simp only [cleanFunctionParametersWithDepth, hlimit, if_false, hclean, cleaned]
      rw [mapM_some]
      rfl
    | _ => simp only [cleanFunctionParametersWithDepth, hlimit, if_false, cleaned]

/-- **The recursion never goes deeper than the limit**: the calls at depth 0 to 64 fill 65 frames. -/
theorem cleanFunctionParameters_eq (params : Json) :
    cleanFunctionParameters (geminiFunctionSchemaMaxDepth + 1) params =
      some (cleaned geminiFunctionSchemaMaxDepth params) :=
  cleanFunctionParametersWithDepth_eq _ _ 0 params (by omega) (by omega)

/-! ### Types and fields -/

/-- The names Gemini has for types. -/
def geminiTypeNames : List String :=
  ["OBJECT", "ARRAY", "STRING", "INTEGER", "NUMBER", "BOOLEAN"]

theorem normalizeTypeName_of_mem : ∀ name ∈ geminiTypeNames, normalizeTypeName name = some name := by
  decide

theorem normalizeTypeName_cases {t name : String} (h : normalizeTypeName t = some name) :
    name ∈ geminiTypeNames ∨ name = t := by
  unfold normalizeTypeName at h
  simp only at h
  split_ifs at h
  all_goals
    injection h with h
    subst h
    simp [geminiTypeNames]

/-- A chosen name is a name of its own. -/
theorem normalizeTypeName_of_eq {t name : String} (h : normalizeTypeName t = some name) :
    normalizeTypeName name = some name := by
  rcases normalizeTypeName_cases h with hname | rfl
  · exact normalizeTypeName_of_mem name hname
  · exact h

theorem toLower_trimSpace_ne_null {t name : String} (h : normalizeTypeName t = some name) :
    toLower (trimSpace t) ≠ "null" := by
  intro hnull
  simp [normalizeTypeName, hnull] at h

/-- The type chosen so far is none or one that stays as it is. -/
theorem foldl_normalizeTypeEntry (entries : List Json) :
    ∀ acc : Bool × String, (acc.2 = "" ∨ normalizeTypeName acc.2 = some acc.2) →
      (entries.foldl normalizeTypeEntry acc).2 = "" ∨
        normalizeTypeName (entries.foldl normalizeTypeEntry acc).2 =
          some (entries.foldl normalizeTypeEntry acc).2 := by
  induction entries with
  | nil =>
    intro acc hacc
    exact hacc
  | cons entry entries ih =>
    intro acc hacc
    refine ih _ ?_
    cases entry with
    | str s =>
      simp only [normalizeTypeEntry]
      cases hname : normalizeTypeName s with
      | none => exact hacc
      | some normalized =>
        by_cases hchosen : acc.2 = ""
        · simp only [hchosen, if_true]
          exact Or.inr (normalizeTypeName_of_eq hname)
        · simpa only [hchosen, if_false] using hacc
    | _ => exact hacc

/-- A type that was kept is kept as it is the next time. -/
theorem normalizeType_kept {rawType kept : Json} (h : (normalizeType rawType).1 = some kept) :
    normalizeType kept = (some kept, false) := by
  cases rawType with
  | str t =>
    simp only [normalizeType] at h
    cases hname : normalizeTypeName t with
    | none => simp [hname] at h
    | some name =>
      simp only [hname, Option.some.injEq] at h
      subst h
      simp [normalizeType, normalizeTypeName_of_eq hname]
  | arr entries =>
    simp only [normalizeType] at h
    split at h
    · simp at h
    · rename_i hchosen
      injection h with h
      subst h
      have hname := (foldl_normalizeTypeEntry entries (false, "") (Or.inl rfl)).resolve_left hchosen
      simp [normalizeType, hname]
  | null => injection h with h; subst h; rfl
  | bool b => injection h with h; subst h; rfl
  | num literal => injection h with h; subst h; rfl
  | obj fields => injection h with h; subst h; rfl

/-- JSON's null is kept, and nothing else becomes it. -/
theorem normalizeType_eq_null_iff {rawType : Json} :
    (normalizeType rawType).1 = some .null ↔ rawType = .null := by
  constructor
  · intro h
    cases rawType with
    | null => rfl
    | str t =>
      simp only [normalizeType] at h
      split at h <;> simp at h
    | arr entries =>
      simp only [normalizeType] at h
      split at h <;> simp at h
    | bool b => simp [normalizeType] at h
    | num literal => simp [normalizeType] at h
    | obj fields => simp [normalizeType] at h
  · rintro rfl
    rfl

theorem mem_setField {fields : SchemaFields} {key : String} {value : Json} {field : String × Json} :
    field ∈ setField fields key value ↔
      (field.1 ≠ key ∧ field ∈ fields) ∨ field = (key, value) := by
  unfold setField
  split
  · rename_i hany
    simp only [List.any_eq_true, decide_eq_true_eq] at hany
    obtain ⟨old, hold, hkey⟩ := hany
    simp only [List.mem_map]
    constructor
    · rintro ⟨f, hf, rfl⟩
      by_cases hfk : f.1 = key
      · simp [hfk]
      · simp only [hfk, if_false]
        exact Or.inl ⟨hfk, hf⟩
    · rintro (⟨hne, hf⟩ | rfl)
      · exact ⟨field, hf, by simp [hne]⟩
      · exact ⟨old, hold, by simp [hkey]⟩
  · rename_i hany
    simp only [List.any_eq_true, decide_eq_true_eq, not_exists, not_and] at hany
    simp only [List.mem_append, List.mem_singleton]
    constructor
    · rintro (hf | rfl)
      · exact Or.inl ⟨hany field hf, hf⟩
      · exact Or.inr rfl
    · rintro (⟨_, hf⟩ | rfl)
      · exact Or.inl hf
      · exact Or.inr rfl

theorem mem_allowedFields {v : SchemaFields} {field : String × Json} :
    field ∈ allowedFields v ↔ field ∈ v ∧ field.1 ∈ geminiOpenAPISchemaAllowedFields := by
  simp [allowedFields]

theorem mem_deleteField {v : SchemaFields} {key : String} {field : String × Json} :
    field ∈ deleteField v key ↔ field ∈ v ∧ field.1 ≠ key := by
  simp [deleteField]

/-- A field other than the type and `nullable` stays. -/
theorem mem_normalize_of_ne {v : SchemaFields} {field : String × Json} (htype : field.1 ≠ "type")
    (hnullable : field.1 ≠ "nullable") :
    field ∈ normalizeGeminiSchemaTypeAndNullable v ↔ field ∈ v := by
  have htyped : field ∈ v.filterMap normalizeField ↔ field ∈ v := by
    simp only [List.mem_filterMap, normalizeField]
    constructor
    · rintro ⟨raw, hraw, heq⟩
      split at heq
      · rw [Option.map_eq_some_iff] at heq
        obtain ⟨kept, _, rfl⟩ := heq
        exact absurd rfl htype
      · injection heq with heq
        exact heq ▸ hraw
    · intro hfield
      exact ⟨field, hfield, by simp [htype]⟩
  unfold normalizeGeminiSchemaTypeAndNullable
  split
  · rw [mem_setField, htyped]
    constructor
    · rintro (⟨_, hfield⟩ | rfl)
      · exact hfield
      · exact absurd rfl hnullable
    · intro hfield
      exact Or.inl ⟨hnullable, hfield⟩
  · exact htyped

theorem type_mem_normalize {v : SchemaFields} {kept : Json} :
    ("type", kept) ∈ normalizeGeminiSchemaTypeAndNullable v ↔
      ∃ rawType, ("type", rawType) ∈ v ∧ (normalizeType rawType).1 = some kept := by
  have htyped : ("type", kept) ∈ v.filterMap normalizeField ↔
      ∃ rawType, ("type", rawType) ∈ v ∧ (normalizeType rawType).1 = some kept := by
    simp only [List.mem_filterMap, normalizeField]
    constructor
    · rintro ⟨⟨key, raw⟩, hraw, heq⟩
      split at heq
      · rename_i hkey
        rw [Option.map_eq_some_iff] at heq
        obtain ⟨kept', hkept, heq⟩ := heq
        injection heq with _ heq
        simp only at hkey
        exact ⟨raw, hkey ▸ hraw, heq ▸ hkept⟩
      · rename_i hkey
        injection heq with heq
        exact absurd (congrArg Prod.fst heq) hkey
    · rintro ⟨raw, hraw, hkept⟩
      exact ⟨("type", raw), hraw, by simp [hkept]⟩
  unfold normalizeGeminiSchemaTypeAndNullable
  split
  · rw [mem_setField, htyped]
    simp
  · exact htyped

/-- No field is added but `nullable`. -/
theorem key_of_mem_normalize {v : SchemaFields} {field : String × Json}
    (h : field ∈ normalizeGeminiSchemaTypeAndNullable v) :
    field.1 = "nullable" ∨ ∃ raw ∈ v, raw.1 = field.1 := by
  by_cases hnullable : field.1 = "nullable"
  · exact Or.inl hnullable
  · refine Or.inr ?_
    by_cases htype : field.1 = "type"
    · obtain ⟨key, kept⟩ := field
      subst htype
      obtain ⟨raw, hraw, _⟩ := type_mem_normalize.mp h
      exact ⟨("type", raw), hraw, rfl⟩
    · exact ⟨field, (mem_normalize_of_ne htype hnullable).mp h, rfl⟩

/-- Types that stay as they are leave all fields as they are. -/
theorem normalize_of_kept {v : SchemaFields}
    (h : ∀ kept, ("type", kept) ∈ v → normalizeType kept = (some kept, false)) :
    normalizeGeminiSchemaTypeAndNullable v = v := by
  have hfield : ∀ field ∈ v, normalizeField field = some field := by
    rintro ⟨key, value⟩ hmem
    by_cases hkey : key = "type"
    · subst hkey
      simp [normalizeField, h value hmem]
    · simp [normalizeField, hkey]
  have hnullable : v.any nullableField = false := by
    rw [List.any_eq_false]
    rintro ⟨key, value⟩ hmem
    by_cases hkey : key = "type"
    · subst hkey
      simp [nullableField, h value hmem]
    · simp [nullableField, hkey]
  simp only [normalizeGeminiSchemaTypeAndNullable, hnullable, Bool.false_eq_true, if_false]
  rw [List.filterMap_congr hfield]
  simp

/-! ### The fields of a result -/

section Fields

variable {clean : Json → Json} {v : SchemaFields}

theorem key_of_mem_cleanedFields {field : String × Json} (h : field ∈ cleanedFields clean v) :
    field.1 ∈ geminiOpenAPISchemaAllowedFields := by
  simp only [cleanedFields, List.mem_map] at h
  obtain ⟨kept, hkept, rfl⟩ := h
  rcases key_of_mem_normalize hkept with hnullable | ⟨raw, hraw, hkey⟩
  · rw [hnullable]
    simp [geminiOpenAPISchemaAllowedFields]
  · rw [← hkey]
    exact (mem_allowedFields.mp hraw).2

/-- A field other than the type and `nullable` comes from the field of that name. -/
theorem mem_cleanedFields {key : String} {value : Json} (htype : key ≠ "type")
    (hnullable : key ≠ "nullable") (hallowed : key ∈ geminiOpenAPISchemaAllowedFields) :
    (key, value) ∈ cleanedFields clean v ↔
      ∃ raw, (key, raw) ∈ v ∧ cleanedKeyword clean key raw = value := by
  simp only [cleanedFields, List.mem_map, Prod.mk.injEq]
  constructor
  · rintro ⟨⟨key', raw⟩, hraw, rfl, hvalue⟩
    have hmem := (mem_normalize_of_ne htype hnullable).mp hraw
    exact ⟨raw, (mem_allowedFields.mp hmem).1, hvalue⟩
  · rintro ⟨raw, hraw, hvalue⟩
    refine ⟨(key, raw), ?_, rfl, hvalue⟩
    exact (mem_normalize_of_ne htype hnullable).mpr (mem_allowedFields.mpr ⟨hraw, hallowed⟩)

theorem cleanedKeyword_type (value : Json) : cleanedKeyword clean "type" value = value := by
  simp [cleanedKeyword]

theorem type_mem_cleanedFields {kept : Json} :
    ("type", kept) ∈ cleanedFields clean v ↔
      ("type", kept) ∈ normalizeGeminiSchemaTypeAndNullable (allowedFields v) := by
  simp only [cleanedFields, List.mem_map, Prod.mk.injEq]
  constructor
  · rintro ⟨⟨key, value⟩, hmem, rfl, hvalue⟩
    rw [cleanedKeyword_type] at hvalue
    exact hvalue ▸ hmem
  · intro hmem
    exact ⟨("type", kept), hmem, rfl, cleanedKeyword_type kept⟩

/-- The types of a result are one name each, and JSON's null only where it was given. -/
theorem normalizeType_of_mem_normalize {kept : Json}
    (h : ("type", kept) ∈ normalizeGeminiSchemaTypeAndNullable v) :
    normalizeType kept = (some kept, false) := by
  obtain ⟨rawType, _, hkept⟩ := type_mem_normalize.mp h
  exact normalizeType_kept hkept

theorem null_mem_normalize :
    ("type", Json.null) ∈ normalizeGeminiSchemaTypeAndNullable (allowedFields v) ↔
      ("type", Json.null) ∈ v := by
  have hallowed : ("type", Json.null) ∈ allowedFields v ↔ ("type", Json.null) ∈ v := by
    rw [mem_allowedFields]
    simp [geminiOpenAPISchemaAllowedFields]
  rw [type_mem_normalize, ← hallowed]
  constructor
  · rintro ⟨rawType, hmem, hnull⟩
    exact normalizeType_eq_null_iff.mp hnull ▸ hmem
  · intro hmem
    exact ⟨.null, hmem, rfl⟩

end Fields

theorem not_list_of_kept {entries : List Json} :
    normalizeType (.arr entries) ≠ (some (.arr entries), false) := by
  intro h
  simp only [normalizeType, Prod.mk.injEq] at h
  obtain ⟨h, _⟩ := h
  split at h <;> simp at h

theorem not_null_of_kept {t : String} (h : normalizeType (.str t) = (some (.str t), false)) :
    toLower (trimSpace t) ≠ "null" := by
  cases hname : normalizeTypeName t with
  | none => simp [normalizeType, hname] at h
  | some name => exact toLower_trimSpace_ne_null hname

/-- What is left to ask of fields whose keywords are allowed and whose types are kept. -/
theorem admissibleFields_iff {fields : SchemaFields}
    (hallowed : ∀ field ∈ fields, field.1 ∈ geminiOpenAPISchemaAllowedFields)
    (hkept : ∀ kept, ("type", kept) ∈ fields → normalizeType kept = (some kept, false)) :
    AdmissibleFields fields ↔
      ("type", Json.null) ∉ fields ∧ ∀ entries, ("items", Json.arr entries) ∉ fields := by
  constructor
  · intro h
    exact ⟨h.typeNull, h.items⟩
  · rintro ⟨hnull, hitems⟩
    refine ⟨hallowed, hitems, ?_, hnull, ?_⟩
    · intro entries hmem
      exact not_list_of_kept (hkept _ hmem)
    · intro t hmem
      exact not_null_of_kept (hkept _ hmem)

/-! ### Keywords with schemas below them -/

theorem cleanedKeyword_properties (clean : Json → Json) (value : Json) :
    cleanedKeyword clean "properties" value =
      match value with
      | .obj props => .obj (props.map fun prop => (prop.1, clean prop.2))
      | _ => value :=
  if_pos rfl

theorem cleanedKeyword_items (clean : Json → Json) (value : Json) :
    cleanedKeyword clean "items" value =
      match value with
      | .obj items => clean (.obj items)
      | .arr (first :: _) => clean first
      | _ => value := by
  have hne : "items" ≠ "properties" := by decide
  exact (if_neg hne).trans (if_pos rfl)

theorem cleanedKeyword_anyOf (clean : Json → Json) (value : Json) :
    cleanedKeyword clean "anyOf" value =
      match value with
      | .arr nested => .arr (nested.map clean)
      | _ => value := by
  have hne : "anyOf" ≠ "properties" := by decide
  have hne' : "anyOf" ≠ "items" := by decide
  exact (if_neg hne).trans ((if_neg hne').trans (if_pos rfl))

theorem cleanedKeyword_of_ne (clean : Json → Json) {key : String} (value : Json)
    (hproperties : key ≠ "properties") (hitems : key ≠ "items") (hanyOf : key ≠ "anyOf") :
    cleanedKeyword clean key value = value :=
  (if_neg hproperties).trans ((if_neg hitems).trans (if_neg hanyOf))

section Keywords

variable {clean : Json → Json} {v : SchemaFields}

theorem properties_mem_cleanedFields {value : Json} :
    ("properties", value) ∈ cleanedFields clean v ↔
      ∃ raw, ("properties", raw) ∈ v ∧ cleanedKeyword clean "properties" raw = value :=
  mem_cleanedFields (by decide) (by decide) (by decide)

theorem items_mem_cleanedFields {value : Json} :
    ("items", value) ∈ cleanedFields clean v ↔
      ∃ raw, ("items", raw) ∈ v ∧ cleanedKeyword clean "items" raw = value :=
  mem_cleanedFields (by decide) (by decide) (by decide)

theorem anyOf_mem_cleanedFields {value : Json} :
    ("anyOf", value) ∈ cleanedFields clean v ↔
      ∃ raw, ("anyOf", raw) ∈ v ∧ cleanedKeyword clean "anyOf" raw = value :=
  mem_cleanedFields (by decide) (by decide) (by decide)

end Keywords

/-! ### The places of schemas and the calls -/

theorem admissible_obj_iff {v : SchemaFields} :
    Admissible (.obj v) ↔
      AdmissibleFields v ∧
        (∀ props, ("properties", Json.obj props) ∈ v → ∀ prop ∈ props, Admissible prop.2) ∧
        (∀ items, ("items", items) ∈ v → Admissible items) ∧
        ∀ nested, ("anyOf", Json.arr nested) ∈ v → ∀ item ∈ nested, Admissible item := by
  constructor
  · intro h
    refine ⟨h v (.root _), ?_, ?_, ?_⟩
    · intro props hprops prop hprop fields hplace
      exact h fields (.property hprops hprop hplace)
    · intro items hitems fields hplace
      exact h fields (.items hitems hplace)
    · intro nested hnested item hitem fields hplace
      exact h fields (.anyOf hnested hitem hplace)
  · rintro ⟨hfields, hprops, hitems, hanyOf⟩ fields hplace
    cases hplace with
    | root => exact hfields
    | property hmem hprop hplace => exact hprops _ hmem _ hprop fields hplace
    | items hmem hplace => exact hitems _ hmem fields hplace
    | anyOf hmem hitem hplace => exact hanyOf _ hmem _ hitem fields hplace

/-- A value that is no object has no schema in it. -/
theorem admissible_of_ne_obj {value : Json} (h : ∀ v, value ≠ .obj v) : Admissible value := by
  intro fields hplace
  cases hplace with
  | root => exact absurd rfl (h fields)
  | property => exact absurd rfl (h _)
  | items => exact absurd rfl (h _)
  | anyOf => exact absurd rfl (h _)

/-- All calls that a call leads to have the property `P`. -/
def AllCalled (P : Bool → ℕ → Json → Prop) (depth : ℕ) (params : Json) : Prop :=
  ∀ schema depth' value, Called depth params schema depth' value → P schema depth' value

section Calls

variable {P : Bool → ℕ → Json → Prop} {depth : ℕ}

theorem allCalled_obj_iff {v : SchemaFields} :
    AllCalled P depth (.obj v) ↔
      P true depth (.obj v) ∧
        (depth < geminiFunctionSchemaMaxDepth →
          (∀ props, ("properties", Json.obj props) ∈ v →
            ∀ prop ∈ props, AllCalled P (depth + 1) prop.2) ∧
          (∀ items, ("items", Json.obj items) ∈ v → AllCalled P (depth + 1) (.obj items)) ∧
          (∀ first rest, ("items", Json.arr (first :: rest)) ∈ v →
            AllCalled P (depth + 1) first) ∧
          ∀ nested, ("anyOf", Json.arr nested) ∈ v →
            ∀ item ∈ nested, AllCalled P (depth + 1) item) := by
  constructor
  · intro h
    refine ⟨h _ _ _ (.here _ _), ?_⟩
    intro hlimit
    refine ⟨?_, ?_, ?_, ?_⟩
    · intro props hprops prop hprop schema depth' value hcall
      exact h _ _ _ (.property hlimit hprops hprop hcall)
    · intro items hitems schema depth' value hcall
      exact h _ _ _ (.items hlimit hitems hcall)
    · intro first rest hitems schema depth' value hcall
      exact h _ _ _ (.firstItem hlimit hitems hcall)
    · intro nested hnested item hitem schema depth' value hcall
      exact h _ _ _ (.anyOf hlimit hnested hitem hcall)
  · rintro ⟨hhere, hbelow⟩ schema depth' value hcall
    cases hcall with
    | here => exact hhere
    | property hlimit hprops hprop hcall =>
      exact (hbelow hlimit).1 _ hprops _ hprop _ _ _ hcall
    | items hlimit hitems hcall => exact (hbelow hlimit).2.1 _ hitems _ _ _ hcall
    | firstItem hlimit hitems hcall => exact (hbelow hlimit).2.2.1 _ _ hitems _ _ _ hcall
    | anyOf hlimit hnested hitem hcall =>
      exact (hbelow hlimit).2.2.2 _ hnested _ hitem _ _ _ hcall

theorem allCalled_arr_iff {v : List Json} :
    AllCalled P depth (.arr v) ↔
      P true depth (.arr v) ∧
        (depth < geminiFunctionSchemaMaxDepth →
          ∀ item ∈ v, AllCalled (fun _ => P false) (depth + 1) item) := by
  constructor
  · intro h
    refine ⟨h _ _ _ (.here _ _), ?_⟩
    intro hlimit item hitem schema depth' value hcall
    exact h _ _ _ (.element hlimit hitem hcall)
  · rintro ⟨hhere, hbelow⟩ schema depth' value hcall
    cases hcall with
    | here => exact hhere
    | element hlimit hitem hcall => exact hbelow hlimit _ hitem _ _ _ hcall

/-- Other values lead to no further call. -/
theorem allCalled_scalar_iff {value : Json} (hobj : ∀ v, value ≠ .obj v)
    (harr : ∀ v, value ≠ .arr v) : AllCalled P depth value ↔ P true depth value := by
  constructor
  · intro h
    exact h _ _ _ (.here _ _)
  · intro h schema depth' value' hcall
    cases hcall with
    | here => exact h
    | element => exact absurd rfl (harr _)
    | property => exact absurd rfl (hobj _)
    | items => exact absurd rfl (hobj _)
    | firstItem => exact absurd rfl (hobj _)
    | anyOf => exact absurd rfl (hobj _)

end Calls

/-! ### When the result is admissible -/

/-- A list stays a list, and nothing else becomes one. -/
theorem cleaned_list_iff (levels : ℕ) (params : Json) :
    (∃ entries, cleaned levels params = .arr entries) ↔ ∃ entries, params = .arr entries := by
  cases levels <;> cases params <;> simp [cleaned, cleanFunctionParametersShallow]

/-- At the limit the schemas below are dropped. -/
theorem admissible_shallow_iff {v : SchemaFields} :
    Admissible (cleanFunctionParametersShallow (.obj v)) ↔ ("type", Json.null) ∉ v := by
  have hkept : ∀ field : String × Json,
      field ∈ deleteField (deleteField (deleteField
        (normalizeGeminiSchemaTypeAndNullable (allowedFields v)) "properties") "items") "anyOf" ↔
      field ∈ normalizeGeminiSchemaTypeAndNullable (allowedFields v) ∧
        field.1 ≠ "properties" ∧ field.1 ≠ "items" ∧ field.1 ≠ "anyOf" := by
    intro field
    simp only [mem_deleteField, and_assoc]
  unfold cleanFunctionParametersShallow
  rw [admissible_obj_iff, admissibleFields_iff]
  · simp only [hkept, null_mem_normalize]
    constructor
    · rintro ⟨⟨hnull, _⟩, _⟩ hmem
      exact hnull ⟨hmem, by decide⟩
    · intro hnull
      refine ⟨⟨fun h => hnull h.1, ?_⟩, ?_, ?_, ?_⟩
      · rintro entries ⟨_, _, hitems, _⟩
        exact hitems rfl
      · rintro props ⟨_, hprops, _⟩
        exact absurd rfl hprops
      · rintro items ⟨_, _, hitems, _⟩
        exact absurd rfl hitems
      · rintro nested ⟨_, _, _, hanyOf⟩
        exact absurd rfl hanyOf
  · intro field hmem
    rcases key_of_mem_normalize ((hkept field).mp hmem).1 with hnullable | ⟨raw, hraw, hkey⟩
    · rw [hnullable]
      decide
    · exact hkey ▸ (mem_allowedFields.mp hraw).2
  · intro kept hmem
    exact normalizeType_of_mem_normalize ((hkept _).mp hmem).1

section Step

variable {clean : Json → Json} {v : SchemaFields}

/-- The items of a result are a list where none or a list was the first of them. -/
theorem items_list_mem_cleanedFields
    (hlist : ∀ value, (∃ entries, clean value = .arr entries) ↔ ∃ entries, value = .arr entries) :
    (∀ entries, ("items", Json.arr entries) ∉ cleanedFields clean v) ↔
      ("items", Json.arr []) ∉ v ∧
        ∀ entries rest, ("items", Json.arr (Json.arr entries :: rest)) ∉ v := by
  simp only [items_mem_cleanedFields, cleanedKeyword_items]
  constructor
  · intro h
    refine ⟨fun hmem => h [] ⟨.arr [], hmem, rfl⟩, ?_⟩
    intro entries rest hmem
    obtain ⟨entries', heq⟩ := (hlist (.arr entries)).mpr ⟨entries, rfl⟩
    exact h entries' ⟨_, hmem, heq⟩
  · rintro ⟨hempty, hnested⟩ entries ⟨raw, hmem, heq⟩
    cases raw with
    | obj items =>
      obtain ⟨_, h⟩ := (hlist (.obj items)).mp ⟨entries, heq⟩
      simp at h
    | arr raws =>
      cases raws with
      | nil => exact hempty hmem
      | cons first rest =>
        obtain ⟨entries', rfl⟩ := (hlist first).mp ⟨entries, heq⟩
        exact hnested _ _ hmem
    | _ => simp at heq

theorem admissible_cleanedFields_iff
    (hlist : ∀ value, (∃ entries, clean value = .arr entries) ↔ ∃ entries, value = .arr entries) :
    Admissible (.obj (cleanedFields clean v)) ↔
      (("type", Json.null) ∉ v ∧ ("items", Json.arr []) ∉ v ∧
        ∀ entries rest, ("items", Json.arr (Json.arr entries :: rest)) ∉ v) ∧
      (∀ props, ("properties", Json.obj props) ∈ v →
        ∀ prop ∈ props, Admissible (clean prop.2)) ∧
      (∀ items, ("items", Json.obj items) ∈ v → Admissible (clean (.obj items))) ∧
      (∀ first rest, ("items", Json.arr (first :: rest)) ∈ v → Admissible (clean first)) ∧
      ∀ nested, ("anyOf", Json.arr nested) ∈ v → ∀ item ∈ nested, Admissible (clean item) := by
  have hfields : AdmissibleFields (cleanedFields clean v) ↔
      ("type", Json.null) ∉ v ∧ ("items", Json.arr []) ∉ v ∧
        ∀ entries rest, ("items", Json.arr (Json.arr entries :: rest)) ∉ v := by
    rw [admissibleFields_iff (fun _ => key_of_mem_cleanedFields)
      (fun _ hmem => normalizeType_of_mem_normalize (type_mem_cleanedFields.mp hmem)),
      items_list_mem_cleanedFields hlist, type_mem_cleanedFields, null_mem_normalize]
  have hprops : (∀ props, ("properties", Json.obj props) ∈ cleanedFields clean v →
        ∀ prop ∈ props, Admissible prop.2) ↔
      ∀ props, ("properties", Json.obj props) ∈ v → ∀ prop ∈ props, Admissible (clean prop.2) := by
    simp only [properties_mem_cleanedFields, cleanedKeyword_properties]
    constructor
    · intro h props hmem prop hprop
      exact h _ ⟨_, hmem, rfl⟩ (prop.1, clean prop.2) (List.mem_map_of_mem hprop)
    · rintro h props ⟨raw, hmem, heq⟩ prop hprop
      cases raw with
      | obj raws =>
        injection heq with heq
        rw [← heq, List.mem_map] at hprop
        obtain ⟨raw, hraw, rfl⟩ := hprop
        exact h _ hmem raw hraw
      | _ => simp at heq
  have hanyOf : (∀ nested, ("anyOf", Json.arr nested) ∈ cleanedFields clean v →
        ∀ item ∈ nested, Admissible item) ↔
      ∀ nested, ("anyOf", Json.arr nested) ∈ v → ∀ item ∈ nested, Admissible (clean item) := by
    simp only [anyOf_mem_cleanedFields, cleanedKeyword_anyOf]
    constructor
    · intro h nested hmem item hitem
      exact h _ ⟨_, hmem, rfl⟩ (clean item) (List.mem_map_of_mem hitem)
    · rintro h nested ⟨raw, hmem, heq⟩ item hitem
      cases raw with
      | arr raws =>
        injection heq with heq
        rw [← heq, List.mem_map] at hitem
        obtain ⟨raw, hraw, rfl⟩ := hitem
        exact h _ hmem raw hraw
      | _ => simp at heq
  have hitems : (∀ items, ("items", items) ∈ cleanedFields clean v → Admissible items) ↔
      (∀ items, ("items", Json.obj items) ∈ v → Admissible (clean (.obj items))) ∧
        ∀ first rest, ("items", Json.arr (first :: rest)) ∈ v → Admissible (clean first) := by
    simp only [items_mem_cleanedFields, cleanedKeyword_items]
    constructor
    · intro h
      refine ⟨?_, ?_⟩
      · intro items hmem
        exact h _ ⟨_, hmem, rfl⟩
      · intro first rest hmem
        exact h _ ⟨_, hmem, rfl⟩
    · rintro ⟨hobj, harr⟩ items ⟨raw, hmem, rfl⟩
      cases raw with
      | obj raws => exact hobj _ hmem
      | arr raws =>
        cases raws with
        | nil => exact admissible_of_ne_obj (by simp)
        | cons first rest => exact harr _ _ hmem
      | _ => exact admissible_of_ne_obj (by simp)
  rw [admissible_obj_iff, hfields, hprops, hitems, hanyOf, and_assoc (b := ∀ first rest, _)]

end Step

theorem allCalled_fits_false (depth : ℕ) (params : Json) :
    AllCalled (fun _ => Fits false) depth params := by
  intro schema depth' value _
  cases value <;> trivial

/-- **The result is admissible exactly if every schema met fits.** -/
theorem admissible_cleaned_iff :
    ∀ (levels depth : ℕ) (params : Json), depth + levels = geminiFunctionSchemaMaxDepth →
      (Admissible (cleaned levels params) ↔ AllCalled Fits depth params) := by
  intro levels
  induction levels with
  | zero =>
    intro depth params hdepth
    have hlimit : ¬ depth < geminiFunctionSchemaMaxDepth := by omega
    cases params with
    | obj v =>
      rw [allCalled_obj_iff]
      simp only [cleaned, admissible_shallow_iff, Fits, hlimit, false_implies, and_true]
    | arr v =>
      rw [allCalled_arr_iff]
      simp only [hlimit, false_implies, and_true]
      exact iff_of_true (admissible_of_ne_obj (by simp [cleaned, cleanFunctionParametersShallow]))
        trivial
    | _ =>
      rw [allCalled_scalar_iff (by simp) (by simp)]
      exact iff_of_true (admissible_of_ne_obj (by simp [cleaned, cleanFunctionParametersShallow]))
        trivial
  | succ levels ih =>
    intro depth params hdepth
    have hlimit : depth < geminiFunctionSchemaMaxDepth := by omega
    have ih' : ∀ value, Admissible (cleaned levels value) ↔ AllCalled Fits (depth + 1) value :=
      fun value => ih (depth + 1) value (by omega)
    cases params with
    | obj v =>
      rw [allCalled_obj_iff]
      simp only [cleaned, admissible_cleanedFields_iff (cleaned_list_iff levels), ih', Fits, hlimit,
        true_implies]
    | arr v =>
      rw [allCalled_arr_iff]
      refine iff_of_true (admissible_of_ne_obj (by simp [cleaned])) ⟨trivial, ?_⟩
      intro _ item _
      exact allCalled_fits_false _ _
    | _ =>
      rw [allCalled_scalar_iff (by simp) (by simp)]
      exact iff_of_true (admissible_of_ne_obj (by simp [cleaned])) trivial

/-! ### When a second cleaning changes nothing -/

/-- How many lists start one another. -/
def listNesting : Json → ℕ
  | .arr (first :: _) => listNesting first + 1
  | _ => 0

theorem listNesting_cleaned_le :
    ∀ (levels : ℕ) (value : Json), listNesting (cleaned levels value) ≤ listNesting value := by
  intro levels
  induction levels with
  | zero =>
    intro value
    cases value <;> simp [cleaned, cleanFunctionParametersShallow, listNesting]
  | succ levels ih =>
    intro value
    cases value with
    | arr v =>
      cases v with
      | nil => simp [cleaned]
      | cons first rest =>
        have hfirst := ih first
        simp only [cleaned, List.map_cons, listNesting]
        omega
    | obj v => simp [cleaned, listNesting]
    | _ => simp [cleaned]

/-- A value is never cleaned to a list that starts with it. -/
theorem cleaned_ne_cons (levels : ℕ) (value : Json) (rest : List Json) :
    cleaned levels value ≠ .arr (value :: rest) := by
  intro h
  have hle := listNesting_cleaned_le levels value
  rw [h, listNesting] at hle
  omega

theorem cleaned_obj (levels : ℕ) (v : SchemaFields) :
    ∃ fields, cleaned levels (.obj v) = .obj fields := by
  cases levels with
  | zero => exact ⟨_, rfl⟩
  | succ levels => exact ⟨_, rfl⟩

private theorem map_eq_self_iff {α : Type*} {f : α → α} {l : List α} :
    l.map f = l ↔ ∀ a ∈ l, f a = a := by
  induction l with
  | nil => simp
  | cons a l ih => simp [ih]

/-- Entries that are cleaned once stay if each of them does. -/
theorem map_map_eq_iff {α : Type*} {f : α → α} {l : List α} :
    (l.map f).map f = l.map f ↔ ∀ a ∈ l, f (f a) = f a := by
  rw [map_eq_self_iff]
  simp only [List.mem_map, forall_exists_index, and_imp, forall_apply_eq_imp_iff₂]

section Settled

variable {clean : Json → Json} {v : SchemaFields}

/-- The keywords and the types of a result stay, so that what is below them decides. -/
theorem cleanedFields_cleanedFields_iff :
    cleanedFields clean (cleanedFields clean v) = cleanedFields clean v ↔
      ∀ key value, (key, value) ∈ cleanedFields clean v →
        cleanedKeyword clean key value = value := by
  have hallowed : allowedFields (cleanedFields clean v) = cleanedFields clean v := by
    rw [allowedFields, List.filter_eq_self]
    intro field hmem
    exact decide_eq_true (key_of_mem_cleanedFields hmem)
  have hkept : normalizeGeminiSchemaTypeAndNullable (cleanedFields clean v) =
      cleanedFields clean v := by
    refine normalize_of_kept ?_
    intro kept hmem
    exact normalizeType_of_mem_normalize (type_mem_cleanedFields.mp hmem)
  have hmap : cleanedFields clean (cleanedFields clean v) =
      (cleanedFields clean v).map fun field => (field.1, cleanedKeyword clean field.1 field.2) := by
    conv_lhs => rw [cleanedFields, hallowed, hkept]
  rw [hmap, map_eq_self_iff]
  simp only [Prod.forall, Prod.mk.injEq, true_and]

theorem settled_cleanedFields_iff (hobj : ∀ fields, ∃ fields', clean (.obj fields) = .obj fields') :
    cleanedFields clean (cleanedFields clean v) = cleanedFields clean v ↔
      (∀ props, ("properties", Json.obj props) ∈ v →
        ∀ prop ∈ props, clean (clean prop.2) = clean prop.2) ∧
      (∀ items, ("items", Json.obj items) ∈ v →
        clean (clean (.obj items)) = clean (.obj items)) ∧
      (∀ first rest, ("items", Json.arr (first :: rest)) ∈ v →
        cleanedKeyword clean "items" (clean first) = clean first) ∧
      ∀ nested, ("anyOf", Json.arr nested) ∈ v →
        ∀ item ∈ nested, clean (clean item) = clean item := by
  rw [cleanedFields_cleanedFields_iff]
  constructor
  · intro h
    refine ⟨?_, ?_, ?_, ?_⟩
    · intro props hmem
      have hfix := h _ _ (properties_mem_cleanedFields.mpr ⟨_, hmem, rfl⟩)
      simp only [cleanedKeyword_properties, Json.obj.injEq] at hfix
      have hall := map_map_eq_iff.mp hfix
      intro prop hprop
      exact (Prod.mk.inj (hall prop hprop)).2
    · intro items hmem
      have hfix := h _ _ (items_mem_cleanedFields.mpr ⟨_, hmem, rfl⟩)
      obtain ⟨fields, hfields⟩ := hobj items
      simp only [cleanedKeyword_items, hfields] at hfix
      rw [hfields, hfix]
    · intro first rest hmem
      have hfix := h _ _ (items_mem_cleanedFields.mpr ⟨_, hmem, rfl⟩)
      rw [cleanedKeyword_items clean (.arr (first :: rest))] at hfix
      exact hfix
    · intro nested hmem
      have hfix := h _ _ (anyOf_mem_cleanedFields.mpr ⟨_, hmem, rfl⟩)
      simp only [cleanedKeyword_anyOf, Json.arr.injEq] at hfix
      exact map_map_eq_iff.mp hfix
  · rintro ⟨hprops, hitems, hfirst, hanyOf⟩ key value hmem
    by_cases hkey : key = "properties"
    · subst hkey
      obtain ⟨raw, hraw, rfl⟩ := properties_mem_cleanedFields.mp hmem
      simp only [cleanedKeyword_properties]
      cases raw with
      | obj props =>
        simp only [Json.obj.injEq]
        refine map_map_eq_iff.mpr ?_
        intro prop hprop
        exact congrArg (Prod.mk prop.1) (hprops props hraw prop hprop)
      | _ => rfl
    · by_cases hkey' : key = "items"
      · subst hkey'
        obtain ⟨raw, hraw, rfl⟩ := items_mem_cleanedFields.mp hmem
        rw [cleanedKeyword_items clean raw]
        cases raw with
        | obj items =>
          obtain ⟨fields, hfields⟩ := hobj items
          have hfix := hitems items hraw
          simp only [cleanedKeyword_items, hfields] at hfix ⊢
          exact hfix
        | arr entries =>
          cases entries with
          | nil => simp only [cleanedKeyword_items]
          | cons first rest => exact hfirst first rest hraw
        | _ => simp only [cleanedKeyword_items]
      · by_cases hkey'' : key = "anyOf"
        · subst hkey''
          obtain ⟨raw, hraw, rfl⟩ := anyOf_mem_cleanedFields.mp hmem
          simp only [cleanedKeyword_anyOf]
          cases raw with
          | arr nested =>
            simp only [Json.arr.injEq]
            exact map_map_eq_iff.mpr (hanyOf nested hraw)
          | _ => rfl
        · exact cleanedKeyword_of_ne clean value hkey hkey' hkey''

end Settled

/-- The first entry of a list of items stays exactly if it is settled itself and no list. -/
theorem settled_first_iff (levels : ℕ) (first : Json) :
    cleanedKeyword (cleaned levels) "items" (cleaned levels first) = cleaned levels first ↔
      cleaned levels (cleaned levels first) = cleaned levels first ∧
        (0 < levels → ∀ entry entries, first ≠ .arr (entry :: entries)) := by
  cases first with
  | obj v =>
    obtain ⟨fields, hfields⟩ := cleaned_obj levels v
    simp [hfields, cleanedKeyword_items]
  | arr v =>
    cases levels with
    | zero => simp [cleaned, cleanFunctionParametersShallow, cleanedKeyword_items]
    | succ levels =>
      cases v with
      | nil => simp [cleaned, cleanedKeyword_items]
      | cons entry entries =>
        constructor
        · intro h
          simp only [cleaned, List.map_cons, cleanedKeyword_items] at h
          exact absurd h (cleaned_ne_cons (levels + 1) _ _)
        · rintro ⟨_, h⟩
          exact absurd rfl (h (Nat.succ_pos levels) entry entries)
  | _ => cases levels <;> simp [cleaned, cleanFunctionParametersShallow, cleanedKeyword_items]

/-- A second cleaning at the limit changes nothing. -/
theorem shallow_shallow (params : Json) :
    cleanFunctionParametersShallow (cleanFunctionParametersShallow params) =
      cleanFunctionParametersShallow params := by
  cases params with
  | obj v =>
    simp only [cleanFunctionParametersShallow, Json.obj.injEq]
    set kept := normalizeGeminiSchemaTypeAndNullable (allowedFields v) with hkept
    have hmem : ∀ field : String × Json,
        field ∈ deleteField (deleteField (deleteField kept "properties") "items") "anyOf" →
        field ∈ kept ∧ field.1 ≠ "properties" ∧ field.1 ≠ "items" ∧ field.1 ≠ "anyOf" := by
      intro field h
      simpa only [mem_deleteField, and_assoc] using h
    have hallowed : allowedFields
        (deleteField (deleteField (deleteField kept "properties") "items") "anyOf") =
        deleteField (deleteField (deleteField kept "properties") "items") "anyOf" := by
      rw [allowedFields, List.filter_eq_self]
      intro field h
      rcases key_of_mem_normalize (hmem field h).1 with hnullable | ⟨raw, hraw, hkey⟩
      · rw [hnullable]
        decide
      · exact decide_eq_true (hkey ▸ (mem_allowedFields.mp hraw).2)
    have hnormal : normalizeGeminiSchemaTypeAndNullable
        (deleteField (deleteField (deleteField kept "properties") "items") "anyOf") =
        deleteField (deleteField (deleteField kept "properties") "items") "anyOf" := by
      refine normalize_of_kept ?_
      intro value h
      exact normalizeType_of_mem_normalize (hmem _ h).1
    have hdelete : ∀ key ∈ ["properties", "items", "anyOf"],
        deleteField (deleteField (deleteField (deleteField kept "properties") "items") "anyOf") key =
        deleteField (deleteField (deleteField kept "properties") "items") "anyOf" := by
      intro key hkey
      rw [deleteField, List.filter_eq_self]
      intro field h
      obtain ⟨_, hprops, hitems, hanyOf⟩ := hmem field h
      refine decide_eq_true ?_
      rintro rfl
      simp [hprops, hitems, hanyOf] at hkey
    rw [hallowed, hnormal, hdelete _ (by simp), hdelete _ (by simp), hdelete _ (by simp)]
  | _ => rfl

/-- **A second cleaning changes nothing exactly if every object met settles.** -/
theorem cleaned_cleaned_iff :
    ∀ (levels depth : ℕ) (params : Json), depth + levels = geminiFunctionSchemaMaxDepth →
      (cleaned levels (cleaned levels params) = cleaned levels params ↔
        AllCalled (fun _ => StaysCleaned) depth params) := by
  intro levels
  induction levels with
  | zero =>
    intro depth params hdepth
    have hlimit : ¬ depth < geminiFunctionSchemaMaxDepth := by omega
    have hlimit' : ¬ depth + 1 < geminiFunctionSchemaMaxDepth := by omega
    refine iff_of_true (shallow_shallow params) ?_
    cases params with
    | obj v =>
      rw [allCalled_obj_iff]
      exact ⟨fun h => absurd h hlimit', fun h => absurd h hlimit⟩
    | arr v =>
      rw [allCalled_arr_iff]
      exact ⟨trivial, fun h => absurd h hlimit⟩
    | _ =>
      rw [allCalled_scalar_iff (by simp) (by simp)]
      trivial
  | succ levels ih =>
    intro depth params hdepth
    have hlimit : depth < geminiFunctionSchemaMaxDepth := by omega
    have ih' : ∀ value, cleaned levels (cleaned levels value) = cleaned levels value ↔
        AllCalled (fun _ => StaysCleaned) (depth + 1) value :=
      fun value => ih (depth + 1) value (by omega)
    cases params with
    | obj v =>
      rw [allCalled_obj_iff]
      simp only [cleaned, Json.obj.injEq, settled_cleanedFields_iff (cleaned_obj levels),
        settled_first_iff, ih', StaysCleaned, hlimit, true_implies]
      have hlevels : depth + 1 < geminiFunctionSchemaMaxDepth ↔ 0 < levels := by omega
      rw [hlevels]
      constructor
      · rintro ⟨hprops, hitems, hfirst, hanyOf⟩
        refine ⟨?_, hprops, hitems, fun first rest hmem => (hfirst first rest hmem).1, hanyOf⟩
        intro hpos entry entries rest hmem
        exact (hfirst _ _ hmem).2 hpos entry entries rfl
      · rintro ⟨hsettles, hprops, hitems, hfirst, hanyOf⟩
        refine ⟨hprops, hitems, ?_, hanyOf⟩
        intro first rest hmem
        refine ⟨hfirst first rest hmem, ?_⟩
        rintro hpos entry entries rfl
        exact hsettles hpos entry entries rest hmem
    | arr v =>
      rw [allCalled_arr_iff]
      simp only [cleaned, Json.arr.injEq, map_map_eq_iff, ih', StaysCleaned, hlimit, true_implies,
        true_and]
    | _ =>
      rw [allCalled_scalar_iff (by simp) (by simp)]
      exact iff_of_true rfl trivial

/-! ### The names of properties -/

/-- **No name of a property is lost above the limit.** -/
theorem namesKept_cleaned :
    ∀ (levels : ℕ) (params : Json), NamesKept levels params (cleaned levels params) := by
  intro levels
  induction levels with
  | zero =>
    intro params
    trivial
  | succ levels ih =>
    intro params
    cases params with
    | obj v =>
      refine ⟨cleanedFields (cleaned levels) v, rfl, ?_, ?_, ?_, ?_⟩
      · intro props hmem
        refine ⟨_, properties_mem_cleanedFields.mpr ⟨_, hmem, cleanedKeyword_properties _ _⟩, ?_⟩
        rw [List.forall₂_map_right_iff]
        exact List.forall₂_same.mpr fun prop _ => ⟨rfl, ih prop.2⟩
      · intro items hmem
        exact ⟨_, items_mem_cleanedFields.mpr ⟨_, hmem, cleanedKeyword_items _ _⟩, ih _⟩
      · intro first rest hmem
        exact ⟨_, items_mem_cleanedFields.mpr ⟨_, hmem, cleanedKeyword_items _ _⟩, ih _⟩
      · intro nested hmem
        refine ⟨_, anyOf_mem_cleanedFields.mpr ⟨_, hmem, cleanedKeyword_anyOf _ _⟩, ?_⟩
        rw [List.forall₂_map_right_iff]
        exact List.forall₂_same.mpr fun item _ => ih item
    | arr v =>
      refine ⟨v.map (cleaned levels), rfl, ?_⟩
      rw [List.forall₂_map_right_iff]
      exact List.forall₂_same.mpr fun item _ => ih item
    | _ => trivial

/-! ### The parameters of a function -/

/-- The cleaning ends within 65 frames, the result is admissible and has all names of properties, and
a second cleaning gives it again. -/
def WellCleaned (params : Json) : Prop :=
  ∃ result, cleanFunctionParameters (geminiFunctionSchemaMaxDepth + 1) params = some result ∧
    Admissible result ∧ NamesKept geminiFunctionSchemaMaxDepth params result ∧
    cleanFunctionParameters (geminiFunctionSchemaMaxDepth + 1) result = some result

/-- **Parameters are well cleaned exactly if every schema met fits and every object met settles.** -/
theorem parameters_cleaned (params : Json) : WellCleaned params ↔ Cleanable params := by
  have hadmissible := admissible_cleaned_iff geminiFunctionSchemaMaxDepth 0 params (by omega)
  have hsettled := cleaned_cleaned_iff geminiFunctionSchemaMaxDepth 0 params (by omega)
  constructor
  · rintro ⟨result, hresult, hadm, _, hagain⟩
    rw [cleanFunctionParameters_eq, Option.some.injEq] at hresult hagain
    rw [← hresult] at hadm hagain
    intro schema depth value hcall
    exact ⟨hadmissible.mp hadm schema depth value hcall,
      hsettled.mp hagain schema depth value hcall⟩
  · intro h
    have hadm : Admissible (cleaned geminiFunctionSchemaMaxDepth params) :=
      hadmissible.mpr fun schema depth value hcall => (h schema depth value hcall).1
    have hagain : cleaned geminiFunctionSchemaMaxDepth
        (cleaned geminiFunctionSchemaMaxDepth params) =
          cleaned geminiFunctionSchemaMaxDepth params :=
      hsettled.mpr fun schema depth value hcall => (h schema depth value hcall).2
    refine ⟨_, cleanFunctionParameters_eq params, hadm, namesKept_cleaned _ _, ?_⟩
    rw [cleanFunctionParameters_eq, hagain]

/-- An empty list of schemas for the items is sent to Gemini as it is. -/
theorem empty_items_kept : ¬ ∀ params : Json, WellCleaned params := by
  intro h
  obtain ⟨result, hresult, hadmissible, _⟩ :=
    h (.obj [("type", .str "array"), ("items", .arr [])])
  rw [cleanFunctionParameters_eq, Option.some.injEq] at hresult
  subst hresult
  have hfits := (admissible_cleaned_iff _ 0 _ (by omega)).mp hadmissible _ _ _ (.here _ _)
  exact (hfits.2 (by decide)).1 (by simp)

end NewApi
