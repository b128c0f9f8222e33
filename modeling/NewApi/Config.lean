/-
**Configurations as options.**

A registered configuration is a struct.  It is saved as one option for each field, a text for the
simple kinds and a JSON document for the others, and loaded by decoding every option into the field
that is there.  Maps at the top are decoded into a fresh map, as are registries; everything else is
decoded in place, so that what a document leaves out of an element, a nested map or a pointer
survives from the configuration before.

Main definitions:

* `NewApi.ConfigType` — a registered struct type;
* `NewApi.configToMap`, `NewApi.updateConfigFromMap` — saving and loading;
* `NewApi.FieldReplaced` — nothing of an old field shows through a new one;
* `NewApi.channelAffinitySettingFields` — the type of the channel affinity setting.

Main results:

* `NewApi.config_replaced` — **loading makes a configuration the saved one exactly if nothing of
  the old one shows through**;
* `NewApi.config_loaded_anew` — loading into a zero value is exact;
* `NewApi.config_survives` — a rule that keeps its user agents.
-/

import NewApi.Common
import NewApi.Lib.GoJson

set_option autoImplicit false

namespace NewApi

open GoJson

/-- How JSON documents are written and read. -/
structure JsonText where
  print : Json → String
  parse : String → Option Json

/-- A document is read as it is written, and only `null` is written as that. -/
def JsonText.ReadsBack (text : JsonText) (j : Json) : Prop :=
  text.parse (text.print j) = some j ∧ (text.print j = "null" ↔ j = .null)

/-- `strconv.ParseBool`. -/
def parseBool (s : String) : Option Bool :=
  if ["1", "t", "T", "TRUE", "true", "True"].contains s then some true
  else if ["0", "f", "F", "FALSE", "false", "False"].contains s then some false
  else none

def formatBool (b : Bool) : String := if b then "true" else "false"

theorem parseBool_formatBool (b old : Bool) : (parseBool (formatBool b)).getD old = b := by
  cases b <;> rfl

/-! ### Fields -/

section Fields

variable {F : Type} (fl : Floats F) (text : JsonText)

/-- The text of a pointer: a `nil` pointer is written as `null`. -/
def ptrText {α : Type} (enc : α → Json) : Option α → String
  | none => "null"
  | some a => text.print (enc a)

/-- The text of a field; a field of another kind is skipped. -/
def fieldText : (τ : GoType) → τ.Val F → Option String
  | .string => fun s => some s
  | .bool => fun b => some (formatBool b)
  | .int => fun z => some (formatInt z)
  | .float => fun x => some (fl.format x)
  | .any => fun _ => none
  | .registry k τ => fun v => some (ptrText text (encodeEntries k.text fun a => τ.encode fl a) v)
  | .ptr τ => fun v => some (ptrText text (fun a => τ.encode fl a) v)
  | .map k τ => fun v => some (text.print (GoType.encode fl (.map k τ) v))
  | .slice τ => fun v => some (text.print (GoType.encode fl (.slice τ) v))
  | .struct fs => fun v => some (text.print (GoType.encode fl (.struct fs) v))

/-- An integer field; a text with a point is read as a float. -/
def updateInt (s : String) (v : ℤ) : ℤ :=
  match parseInt s with
  | some z => z
  | none =>
    match fl.parse s with
    | some x => fl.truncate x
    | none => v

/-- A pointer field: `null` makes it `nil`, and anything else is decoded into what it points to,
which is made first if there is nothing. -/
def updatePtr {α : Type} (dec : Json → α → α) (zero : α) (s : String) (v : Option α) : Option α :=
  if s = "null" then none
  else
    match text.parse s with
    | none => some (v.getD zero)
    | some j => some (dec j (v.getD zero))

/-- A field that is decoded in place. -/
def updateInPlace {α : Type} (dec : Json → α → α) (s : String) (v : α) : α :=
  match text.parse s with
  | none => v
  | some j => dec j v

/-- A map field is decoded into a fresh map, which takes its place if there was no error. -/
def updateMap {α : Type} (fits : Json → Bool) (dec : Json → α → α) (fresh : α) (s : String)
    (v : α) : α :=
  match text.parse s with
  | none => v
  | some j => if fits j then dec j fresh else v

def updateField : (τ : GoType) → String → τ.Val F → τ.Val F
  | .string => fun s _ => s
  | .bool => fun s v => (parseBool s).getD v
  | .int => updateInt fl
  | .float => fun s v => (fl.parse s).getD v
  | .any => fun _ v => v
  | .registry k τ =>
    updatePtr text (fun j _ => decodeRegistry k.parse (fun j => τ.decode fl j (τ.zero fl)) j) ∅
  | .ptr τ => updatePtr text (fun j a => τ.decode fl j a) (τ.zero fl)
  | .map k τ =>
    updateMap text (GoType.fits fl (.map k τ)) (GoType.decode fl (.map k τ))
      (GoType.zero fl (.map k τ))
  | .slice τ => updateInPlace text (GoType.decode fl (.slice τ))
  | .struct fs => updateInPlace text (GoType.decode fl (.struct fs))

/-- Nothing of an old field shows through the new one.  A map is decoded into a fresh one, and a
field that is skipped has to be the same already. -/
def FieldReplaced : (τ : GoType) → τ.Val F → τ.Val F → Prop
  | .any => fun old new => GoType.Same .any old new
  | .map k τ => fun _ new => GoType.Replaced fl (.map k τ) (GoType.zero fl (.map k τ)) new
  | .registry k τ => GoType.Replaced fl (.registry k τ)
  | .ptr τ => GoType.Replaced fl (.ptr τ)
  | .slice τ => GoType.Replaced fl (.slice τ)
  | .struct fs => GoType.Replaced fl (.struct fs)
  | _ => fun _ _ => True

/-- The document of what a pointer points to is read back. -/
def PtrReadsBack {α : Type} (enc : α → Json) (v : Option α) : Prop :=
  ∀ a ∈ v, text.ReadsBack (enc a)

/-- The documents that are written for a field are read back. -/
def FieldReadsBack : (τ : GoType) → τ.Val F → Prop
  | .registry k τ => PtrReadsBack text (encodeEntries k.text fun a => τ.encode fl a)
  | .ptr τ => PtrReadsBack text fun a => τ.encode fl a
  | .map k τ => fun v => text.ReadsBack (GoType.encode fl (.map k τ) v)
  | .slice τ => fun v => text.ReadsBack (GoType.encode fl (.slice τ) v)
  | .struct fs => fun v => text.ReadsBack (GoType.encode fl (.struct fs) v)
  | _ => fun _ => True

end Fields

/-! ### Configurations -/

/-- The option of a field: the whole tag, with what follows the name. -/
def fieldKey (name : String) (omitempty : Bool) : String :=
  if omitempty then name ++ ",omitempty" else name

def fieldKeys : GoFields → List String
  | .nil => []
  | .cons name omitempty _ rest => fieldKey name omitempty :: fieldKeys rest

/-- A registered struct type: its fields have different names and options. -/
structure ConfigType where
  fields : GoFields
  formed : fields.Formed
  keys_nodup : (fieldKeys fields).Nodup

section Config

variable {F : Type} (fl : Floats F) (text : JsonText)

/-- The options of a configuration. -/
def configToMap : (fs : GoFields) → fs.Val F → String → Option String
  | .nil => fun _ _ => none
  | .cons name omitempty τ rest => fun v key =>
    (configToMap rest v.2 key).or
      (if key = fieldKey name omitempty then fieldText fl text τ v.1 else none)

/-- Every field that has an option is updated from it. -/
def updateConfigFromMap : (fs : GoFields) → (String → Option String) → fs.Val F → fs.Val F
  | .nil => fun _ v => v
  | .cons name omitempty τ rest => fun configMap v =>
    ((match configMap (fieldKey name omitempty) with
      | none => v.1
      | some s => updateField fl text τ s v.1),
      updateConfigFromMap rest configMap v.2)

/-- Nothing of an old configuration shows through the new one. -/
def ConfigReplaced : (fs : GoFields) → fs.Val F → fs.Val F → Prop
  | .nil => fun _ _ => True
  | .cons _ _ τ rest => fun old new =>
    FieldReplaced fl τ old.1 new.1 ∧ ConfigReplaced rest old.2 new.2

def ConfigReadsBack : (fs : GoFields) → fs.Val F → Prop
  | .nil => fun _ => True
  | .cons _ _ τ rest => fun v => FieldReadsBack fl text τ v.1 ∧ ConfigReadsBack rest v.2

end Config

/-! ### Loading one field -/

section LoadField

variable {F : Type} {fl : Floats F} {text : JsonText}

theorem updateInPlace_print {α : Type} {dec : Json → α → α} {j : Json}
    (h : text.ReadsBack j) (v : α) : updateInPlace text dec (text.print j) v = dec j v := by
  rw [updateInPlace, h.1]

theorem updateMap_print {α : Type} {fits : Json → Bool} {dec : Json → α → α} {fresh : α} {j : Json}
    (h : text.ReadsBack j) (hfits : fits j = true) (v : α) :
    updateMap text fits dec fresh (text.print j) v = dec j fresh := by
  rw [updateMap, h.1]
  simp only [hfits, if_true]

/-- A pointer is loaded as its document is decoded. -/
theorem updatePtr_ptrText {α : Type} {dec : Json → α → α} {enc : α → Json} {zero : α}
    {new : Option α} (h : PtrReadsBack text enc new) (old : Option α) :
    updatePtr text dec zero (ptrText text enc new) old =
      decodePtr dec zero (encodePtr enc new) old := by
  cases new with
  | none => rw [ptrText, updatePtr, if_pos rfl, encodePtr, decodePtr]
  | some a =>
    obtain ⟨hparse, hnull⟩ := h a rfl
    rw [ptrText, updatePtr, encodePtr]
    by_cases hj : enc a = .null
    · rw [if_pos (hnull.2 hj), hj, decodePtr]
    · rw [if_neg (fun heq => hj (hnull.1 heq)), hparse]
      have hdecode : decodePtr dec zero (enc a) old = some (dec (enc a) (old.getD zero)) := by
        rw [decodePtr]
        exact hj
      rw [hdecode]

theorem updateInt_formatInt (z old : ℤ) : updateInt fl (formatInt z) old = z := by
  rw [updateInt, parseInt_formatInt]

theorem parse_format_getD (x old : F) : (fl.parse (fl.format x)).getD old = x := by
  rw [fl.parse_format, Option.getD_some]

/-- What a field becomes when the option of another value is loaded. -/
def loadField (fl : Floats F) (text : JsonText) (τ : GoType) (old new : τ.Val F) : τ.Val F :=
  match fieldText fl text τ new with
  | none => old
  | some s => updateField fl text τ s old

/-- **A field becomes the saved one exactly if nothing of the old one shows through.** -/
theorem same_loadField_iff (τ : GoType) (hτ : τ.Formed) (old new : τ.Val F)
    (htext : FieldReadsBack fl text τ new) :
    τ.Same (loadField fl text τ old new) new ↔ FieldReplaced fl τ old new := by
  cases τ with
  | string => exact iff_of_true rfl trivial
  | bool => exact iff_of_true (parseBool_formatBool new old) trivial
  | int => exact iff_of_true (updateInt_formatInt new old) trivial
  | float => exact iff_of_true (parse_format_getD new old) trivial
  | any => exact Iff.rfl
  | slice τ =>
    have hload : loadField fl text (.slice τ) old new =
        GoType.decode fl (.slice τ) (GoType.encode fl (.slice τ) new) old :=
      updateInPlace_print htext old
    rw [hload]
    exact GoType.same_decode_iff (.slice τ) hτ old new
  | struct fs =>
    have hload : loadField fl text (.struct fs) old new =
        GoType.decode fl (.struct fs) (GoType.encode fl (.struct fs) new) old :=
      updateInPlace_print htext old
    rw [hload]
    exact GoType.same_decode_iff (.struct fs) hτ old new
  | map k τ =>
    have hload : loadField fl text (.map k τ) old new =
        GoType.decode fl (.map k τ) (GoType.encode fl (.map k τ) new)
          (GoType.zero fl (.map k τ)) :=
      updateMap_print htext (GoType.fits_encode (.map k τ) hτ new) old
    rw [hload]
    exact GoType.same_decode_iff (.map k τ) hτ _ new
  | registry k τ =>
    have hload : loadField fl text (.registry k τ) old new =
        GoType.decode fl (.registry k τ) (GoType.encode fl (.registry k τ) new) old :=
      @updatePtr_ptrText text _
        (fun j _ => decodeRegistry k.parse (fun j => τ.decode fl j (τ.zero fl)) j) _ ∅ _ htext old
    rw [hload]
    exact GoType.same_decode_iff (.registry k τ) hτ old new
  | ptr τ =>
    have hload : loadField fl text (.ptr τ) old new =
        GoType.decode fl (.ptr τ) (GoType.encode fl (.ptr τ) new) old :=
      updatePtr_ptrText htext old
    rw [hload]
    exact GoType.same_decode_iff (.ptr τ) hτ old new

end LoadField

/-! ### Loading a configuration -/

section Load

variable {F : Type} {fl : Floats F} {text : JsonText}

theorem configToMap_cons (name : String) (omitempty : Bool) (τ : GoType) (rest : GoFields)
    (v : (GoFields.cons name omitempty τ rest).Val F) (key : String) :
    configToMap fl text (.cons name omitempty τ rest) v key =
      (configToMap fl text rest v.2 key).or
        (if key = fieldKey name omitempty then fieldText fl text τ v.1 else none) := rfl

/-- A configuration has no options beside those of its fields. -/
theorem configToMap_of_notMem : ∀ (fs : GoFields) (v : fs.Val F) {key : String},
    key ∉ fieldKeys fs → configToMap fl text fs v key = none
  | .nil, _, _, _ => rfl
  | .cons name omitempty τ rest, v, key, hkey => by
      rw [fieldKeys, List.mem_cons, not_or] at hkey
      rw [configToMap_cons, configToMap_of_notMem rest v.2 hkey.2, if_neg hkey.1, Option.none_or]

/-- Loading options that are those of a configuration for its fields. -/
theorem same_updateConfigFromMap_iff : ∀ (fs : GoFields), fs.Formed → (fieldKeys fs).Nodup →
    ∀ (old new : fs.Val F), ConfigReadsBack fl text fs new →
    ∀ configMap : String → Option String,
    (∀ key ∈ fieldKeys fs, configMap key = configToMap fl text fs new key) →
      (fs.Same (updateConfigFromMap fl text fs configMap old) new ↔ ConfigReplaced fl fs old new)
  | .nil, _, _, _, _, _, _, _ => Iff.rfl
  | .cons name omitempty τ rest, hformed, hkeys, old, new, htext, configMap, hmap => by
      obtain ⟨-, hτ, hrest⟩ := hformed
      obtain ⟨hkey, hkeys⟩ := List.nodup_cons.1 hkeys
      -- the options of the other fields are not touched by the one of this field
      have hothers := same_updateConfigFromMap_iff rest hrest hkeys old.2 new.2 htext.2 configMap
        (by
          intro key hmem
          have hne : key ≠ fieldKey name omitempty := fun heq => hkey (heq ▸ hmem)
          rw [hmap key (List.mem_cons_of_mem _ hmem), configToMap_cons, if_neg hne, Option.or_none])
      have hown : configMap (fieldKey name omitempty) = fieldText fl text τ new.1 := by
        rw [hmap _ List.mem_cons_self, configToMap_cons, configToMap_of_notMem rest new.2 hkey,
          if_pos rfl, Option.none_or]
      have hfield := same_loadField_iff τ hτ old.1 new.1 htext.1
      rw [loadField, ← hown] at hfield
      exact and_congr hfield hothers

/-- **Loading makes a configuration the saved one exactly if nothing of the old one shows
through.** -/
theorem config_replaced (fl : Floats F) (text : JsonText) (type : ConfigType)
    (c c' : type.fields.Val F) (htext : ConfigReadsBack fl text type.fields c') :
    type.fields.Same
        (updateConfigFromMap fl text type.fields (configToMap fl text type.fields c') c) c' ↔
      ConfigReplaced fl type.fields c c' :=
  same_updateConfigFromMap_iff type.fields type.formed type.keys_nodup c c' htext _
    fun _ _ => rfl

/-- A struct type without interface fields, which would be skipped. -/
def Stored : GoFields → Prop
  | .nil => True
  | .cons _ _ τ rest => τ ≠ .any ∧ Stored rest

theorem configReplaced_zero : ∀ (fs : GoFields), fs.Plain → Stored fs → ∀ v : fs.Val F,
    ConfigReplaced fl fs (fs.zero fl) v
  | .nil, _, _, _ => trivial
  | .cons _ _ τ rest, hplain, hstored, v => by
      refine ⟨?_, configReplaced_zero rest hplain.2 hstored.2 v.2⟩
      have hzero : ∀ w, τ.Replaced fl (τ.zero fl) w := fun w => τ.replaced_zero hplain.1 w
      cases τ with
      | any => exact absurd rfl hstored.1
      | slice τ => exact hzero v.1
      | map k τ => exact hzero v.1
      | registry k τ => exact hzero v.1
      | ptr τ => exact hzero v.1
      | struct fs => exact hzero v.1
      | _ => trivial

/-- **A configuration that is loaded into a zero value is the saved one.** -/
theorem config_loaded_anew {type : ConfigType} (hplain : type.fields.Plain)
    (hstored : Stored type.fields) {c' : type.fields.Val F}
    (htext : ConfigReadsBack fl text type.fields c') :
    type.fields.Same
      (updateConfigFromMap fl text type.fields (configToMap fl text type.fields c')
        (type.fields.zero fl)) c' :=
  (same_updateConfigFromMap_iff type.fields type.formed type.keys_nodup _ c' htext _
    fun _ _ => rfl).2 (configReplaced_zero type.fields hplain hstored c')

end Load

/-! ### The channel affinity setting -/

def channelAffinityKeySourceFields : GoFields :=
  .cons "type" false .string <| .cons "key" true .string <| .cons "path" true .string .nil

def channelAffinityRuleFields : GoFields :=
  .cons "name" false .string <|
  .cons "model_regex" false (.slice .string) <|
  .cons "path_regex" false (.slice .string) <|
  .cons "user_agent_include" true (.slice .string) <|
  .cons "key_sources" false (.slice (.struct channelAffinityKeySourceFields)) <|
  .cons "value_regex" false .string <|
  .cons "ttl_seconds" false .int <|
  .cons "param_override_template" true (.map .string .any) <|
  .cons "skip_retry_on_failure" false .bool <|
  .cons "include_using_group" false .bool <|
  .cons "include_model_name" false .bool <|
  .cons "include_rule_name" false .bool .nil

def channelAffinitySettingFields : GoFields :=
  .cons "enabled" false .bool <|
  .cons "switch_on_success" false .bool <|
  .cons "max_entries" false .int <|
  .cons "default_ttl_seconds" false .int <|
  .cons "rules" false (.slice (.struct channelAffinityRuleFields)) .nil

def channelAffinitySettingType : ConfigType where
  fields := channelAffinitySettingFields
  formed := by
    simp [channelAffinitySettingFields, channelAffinityRuleFields, channelAffinityKeySourceFields,
      GoFields.Formed, GoType.Formed, GoFields.names]
  keys_nodup := by decide

/-- A rule of the setting, with the user agents it asks for. -/
def affinityRule (userAgents : List String) : (GoType.struct channelAffinityRuleFields).Val ℤ :=
  ("chat", some ⟨["."], []⟩, none, some ⟨userAgents, []⟩,
    some ⟨[("request_header", "Session-Id", "", ())], []⟩, "", (0 : ℤ), none, false, false, true,
    true, ())

def affinitySetting (userAgents : List String) : channelAffinitySettingType.fields.Val ℤ :=
  (true, true, (100 : ℤ), (3600 : ℤ), some ⟨[affinityRule userAgents], []⟩, ())

/-- Numbers without a fractional part. -/
def wholeFloats : Floats ℤ where
  zero := 0
  isZero z := decide (z = 0)
  literal := formatInt
  format := formatInt
  parse := parseInt
  truncate z := z
  eq_zero _ h := of_decide_eq_true h
  parse_literal := parseInt_formatInt
  parse_format := parseInt_formatInt

mutual

/-- A document without blanks, if no text has characters that are escaped. -/
def compact : Json → String
  | .null => "null"
  | .bool b => formatBool b
  | .num literal => literal
  | .str s => "\"" ++ s ++ "\""
  | .arr elems => "[" ++ compactElems elems ++ "]"
  | .obj entries => "\x7b" ++ compactEntries entries ++ "\x7d"

def compactElems : List Json → String
  | [] => ""
  | [j] => compact j
  | j :: js => compact j ++ "," ++ compactElems js

def compactEntries : List (String × Json) → String
  | [] => ""
  | [(key, j)] => "\"" ++ key ++ "\":" ++ compact j
  | (key, j) :: es => "\"" ++ key ++ "\":" ++ compact j ++ "," ++ compactEntries es

end

/-- A reader of one document. -/
def readerOf (j : Json) : JsonText where
  print := compact
  parse s := if s = compact j then some j else none

/-- The document of the rules of a setting. -/
def rulesDocument (c : channelAffinitySettingType.fields.Val ℤ) : Json :=
  GoType.encode wholeFloats (.slice (.struct channelAffinityRuleFields)) c.2.2.2.2.1

/-- The user agents of the rules of a setting. -/
def ruleUserAgents (c : channelAffinitySettingType.fields.Val ℤ) : List (List String) :=
  (sliceElems c.2.2.2.2.1).map fun rule => sliceElems rule.2.2.2.1

theorem readsBack_affinitySetting (userAgents : List String)
    (hnull : compact (rulesDocument (affinitySetting userAgents)) ≠ "null") :
    ConfigReadsBack wholeFloats (readerOf (rulesDocument (affinitySetting userAgents)))
      channelAffinitySettingType.fields (affinitySetting userAgents) := by
  refine ⟨trivial, trivial, trivial, trivial, ⟨if_pos rfl, ?_⟩, trivial⟩
  refine iff_of_false hnull ?_
  exact nofun

/-- The user agents of a rule are replaced by others. -/
theorem config_replaced_agents :
    let text := readerOf (rulesDocument (affinitySetting ["codex"]))
    channelAffinitySettingType.fields.Same
        (updateConfigFromMap wholeFloats text channelAffinitySettingType.fields
          (configToMap wholeFloats text channelAffinitySettingType.fields
            (affinitySetting ["codex"])) (affinitySetting ["curl"])) (affinitySetting ["codex"]) ↔
      ConfigReplaced wholeFloats channelAffinitySettingType.fields (affinitySetting ["curl"])
        (affinitySetting ["codex"]) :=
  config_replaced wholeFloats _ channelAffinitySettingType _ _
    (readsBack_affinitySetting ["codex"] (by decide))

/-- The setting is loaded when the program starts. -/
theorem config_loaded_anew_agents :
    let text := readerOf (rulesDocument (affinitySetting ["codex"]))
    channelAffinitySettingType.fields.Same
      (updateConfigFromMap wholeFloats text channelAffinitySettingType.fields
        (configToMap wholeFloats text channelAffinitySettingType.fields (affinitySetting ["codex"]))
        (channelAffinitySettingType.fields.zero wholeFloats)) (affinitySetting ["codex"]) :=
  config_loaded_anew (by simp [channelAffinitySettingType, channelAffinitySettingFields,
      channelAffinityRuleFields, channelAffinityKeySourceFields, GoFields.Plain, GoType.Plain])
    (by simp [channelAffinitySettingType, channelAffinitySettingFields, Stored])
    (readsBack_affinitySetting ["codex"] (by decide))

theorem map_eq_of_forall₂ {α β : Type} {R : α → α → Prop} {f : α → β}
    (hf : ∀ a b, R a b → f a = f b) {l l' : List α} (h : List.Forall₂ R l l') :
    l.map f = l'.map f := by
  induction h with
  | nil => rfl
  | cons hab _ ih => rw [List.map_cons, List.map_cons, hf _ _ hab, ih]

theorem ruleUserAgents_of_same {c c' : channelAffinitySettingType.fields.Val ℤ}
    (h : channelAffinitySettingType.fields.Same c c') : ruleUserAgents c = ruleUserAgents c' := by
  obtain ⟨-, -, -, -, hrules, -⟩ := h
  refine map_eq_of_forall₂ ?_ hrules
  rintro rule rule' ⟨-, -, -, hagents, -⟩
  have heq := map_eq_of_forall₂ (f := fun s => s) (fun _ _ h => h) hagents
  rw [List.map_id', List.map_id'] at heq
  exact heq

/-- **A rule that no longer has user agents keeps those it had.** -/
theorem config_survives :
    let text := readerOf (rulesDocument (affinitySetting []))
    let loaded := updateConfigFromMap wholeFloats text channelAffinitySettingType.fields
      (configToMap wholeFloats text channelAffinitySettingType.fields (affinitySetting []))
      (affinitySetting ["curl"])
    ConfigReadsBack wholeFloats text channelAffinitySettingType.fields (affinitySetting []) ∧
      ruleUserAgents loaded = [["curl"]] ∧
      ¬ channelAffinitySettingType.fields.Same loaded (affinitySetting []) := by
  intro text loaded
  have hkept : ruleUserAgents loaded = [["curl"]] := by decide +kernel
  refine ⟨readsBack_affinitySetting [] (by decide), hkept, fun hsame => ?_⟩
  have hnone := hkept.symm.trans (ruleUserAgents_of_same hsame)
  exact absurd hnone (by decide)

end NewApi
