/-
**The price of a tool call.**

A table of prices has keys that are names of tools, and keys of a tool and the beginning of a model
name with a colon between them, mostly with a star at the end.  The table is a map and is read in
any order into an index, whose entries of one tool are sorted by the length of the beginnings by a
sort that is not stable.  The price of a call is that of the first entry that fits the model, then
that of the tool alone.

Main definitions:

* `NewApi.rebuildToolPriceIndex`, `NewApi.getToolPriceForModel` — the index and the lookup;
* `NewApi.PriceOf` — the price by the longest model part of a table.

Main results:

* `NewApi.getToolPriceForModel_eq` — the lookup in an index of any order and any sort;
* `NewApi.tool_price_longest` — **the price is that of the longest model part exactly if the keys
  that share it agree**, with a star and without one.
-/

import NewApi.Common
import NewApi.Lib.RankedSearch
import NewApi.ModelMapping
import Mathlib.Data.List.AList
import Mathlib.Data.Rat.Defs

set_option autoImplicit false

namespace NewApi

open RankedSearch (Sorter TopMatch)

/-! ### The code -/

/-- A map from keys to prices. -/
abbrev PriceTable := AList fun _ : String => ℚ

/-- The loop that copies the entries of one map into another. -/
def assignPrices (table : PriceTable) (entries : List (Σ _ : String, ℚ)) : PriceTable :=
  entries.foldl (fun merged e => merged.insert e.1 e.2) table

def defaultToolPrices : PriceTable :=
  assignPrices ∅ [⟨"web_search", 10⟩, ⟨"web_search_preview", 10⟩, ⟨"file_search", 5 / 2⟩,
    ⟨"google_search", 14⟩]

def defaultToolPriceOverrides : PriceTable :=
  assignPrices ∅ [⟨"web_search_preview:gpt-4o*", 25⟩, ⟨"web_search_preview:gpt-4.1*", 25⟩,
    ⟨"web_search_preview:gpt-4o-mini*", 25⟩, ⟨"web_search_preview:gpt-4.1-mini*", 25⟩]

/-- The map `merged` of `RebuildToolPriceIndex`, for the prices that have been set. -/
def mergedPrices (prices : PriceTable) : PriceTable :=
  assignPrices (assignPrices (assignPrices ∅ defaultToolPrices.entries)
    defaultToolPriceOverrides.entries) prices.entries

/-- `prefixEntry`. -/
structure PrefixEntry where
  modelPrefix : String
  price : ℚ
deriving DecidableEq

structure ToolPriceIndex where
  defaults : String → Option ℚ
  prefixes : String → List PrefixEntry

/-- A key cut at its first colon. -/
def cutColon (key : String) : Option (String × String) :=
  if ':' ∈ key.toList then
    some (String.ofList (key.toList.takeWhile (· ≠ ':')),
      String.ofList ((key.toList.dropWhile (· ≠ ':')).drop 1))
  else none

/-- The loop over the merged map, on one key. -/
def indexKey (idx : ToolPriceIndex) (e : Σ _ : String, ℚ) : ToolPriceIndex :=
  match cutColon e.1 with
  | none => { idx with defaults := Function.update idx.defaults e.1 (some e.2) }
  | some (toolName, modelPart) =>
    { idx with
      prefixes := Function.update idx.prefixes toolName
        (idx.prefixes toolName ++ [⟨trimSuffix modelPart "*", e.2⟩]) }

/-- What the entries of a tool are sorted by. -/
def PrefixEntry.rank (e : PrefixEntry) : ℕ := byteLength e.modelPrefix

/-- `RebuildToolPriceIndex`, where the merged map is read in the order `merged`. -/
def rebuildToolPriceIndex (sorter : Sorter PrefixEntry.rank) (merged : List (Σ _ : String, ℚ)) :
    ToolPriceIndex :=
  let idx := merged.foldl indexKey ⟨fun _ => none, fun _ => []⟩
  { idx with prefixes := fun toolName => sorter.sort (idx.prefixes toolName) }

def getToolPriceForModel (currentIndex : Option ToolPriceIndex) (toolName modelName : String) :
    ℚ :=
  match currentIndex with
  | none => (defaultToolPrices.lookup toolName).getD 0
  | some idx =>
    let found :=
      if modelName ≠ "" then
        (idx.prefixes toolName).find? fun e => hasPrefix modelName e.modelPrefix
      else none
    match found with
    | some e => e.price
    | none => (idx.defaults toolName).getD 0

/-! ### What the table says -/

section Table

variable (table : PriceTable) (toolName modelName : String)

/-- The key is one of the tool, with this model part once a star at its end is removed. -/
def KeyFor (key pre : String) : Prop :=
  ∃ part, cutColon key = some (toolName, part) ∧ pre = trimSuffix part "*"

/-- A model part of the tool that the model begins with, and no longer one. -/
def LongestPart (pre : String) : Prop :=
  hasPrefix modelName pre = true ∧ (∃ e ∈ table.entries, KeyFor toolName e.1 pre) ∧
    ∀ e ∈ table.entries, ∀ pre', KeyFor toolName e.1 pre' → hasPrefix modelName pre' = true →
      byteLength pre' ≤ byteLength pre

/-- The price of the plain key of the tool, or nothing. -/
def plainPrice : ℚ :=
  if cutColon toolName = none then (table.lookup toolName).getD 0 else 0

/-- The price of a key with the longest model part; without one, that of the plain key. -/
def PriceOf (price : ℚ) : Prop :=
  (∃ pre, LongestPart table toolName modelName pre ∧
    ∃ e ∈ table.entries, KeyFor toolName e.1 pre ∧ e.2 = price) ∨
  (∀ pre, ¬ LongestPart table toolName modelName pre) ∧ price = plainPrice table toolName

/-- The keys with the longest model part, the one with a star and the one without, have one
price. -/
def SamePrices : Prop :=
  ∀ pre, LongestPart table toolName modelName pre → ∀ e ∈ table.entries, ∀ e' ∈ table.entries,
    KeyFor toolName e.1 pre → KeyFor toolName e'.1 pre → e.2 = e'.2

end Table

/-! ### The index -/

section Index

variable {toolName modelName : String} {merged : List (Σ _ : String, ℚ)} {idx : ToolPriceIndex}

/-- The entry that a key is for a tool. -/
def prefixEntryOf (toolName : String) (e : Σ _ : String, ℚ) : Option PrefixEntry :=
  match cutColon e.1 with
  | none => none
  | some (tool, modelPart) =>
    if tool = toolName then some ⟨trimSuffix modelPart "*", e.2⟩ else none

theorem prefixEntryOf_eq_some {e : Σ _ : String, ℚ} {entry : PrefixEntry} :
    prefixEntryOf toolName e = some entry ↔
      KeyFor toolName e.1 entry.modelPrefix ∧ e.2 = entry.price := by
  rw [prefixEntryOf, KeyFor]
  cases hcut : cutColon e.1 with
  | none => simp
  | some cut =>
    obtain ⟨tool, part⟩ := cut
    obtain ⟨pre, price⟩ := entry
    by_cases htool : tool = toolName
    · simp [htool, eq_comm]
    · simp [htool]

theorem prefixes_indexKey (e : Σ _ : String, ℚ) :
    (indexKey idx e).prefixes toolName =
      idx.prefixes toolName ++ (prefixEntryOf toolName e).toList := by
  rw [indexKey, prefixEntryOf]
  cases cutColon e.1 with
  | none => simp
  | some cut =>
    obtain ⟨tool, part⟩ := cut
    by_cases htool : tool = toolName
    · simp [htool]
    · simp [htool, Function.update_of_ne (Ne.symm htool)]

/-- The entries of a tool are those of its keys, in the order they are read. -/
theorem prefixes_foldl (merged : List (Σ _ : String, ℚ)) :
    (merged.foldl indexKey idx).prefixes toolName =
      idx.prefixes toolName ++ merged.filterMap (prefixEntryOf toolName) := by
  induction merged generalizing idx with
  | nil => simp
  | cons e merged ih =>
    rw [List.foldl_cons, ih, prefixes_indexKey, List.append_assoc, List.filterMap_cons]
    cases prefixEntryOf toolName e <;> rfl

theorem defaults_indexKey (e : Σ _ : String, ℚ) :
    (indexKey idx e).defaults toolName =
      if e.1 = toolName ∧ cutColon toolName = none then some e.2 else idx.defaults toolName := by
  rw [indexKey]
  by_cases hkey : e.1 = toolName
  · rw [hkey]
    cases cutColon toolName <;> simp
  · cases cutColon e.1 with
    | none => simp [hkey, Function.update_of_ne (Ne.symm hkey)]
    | some cut => simp [hkey]

/-- The plain keys are found under their names. -/
theorem defaults_foldl (hnodup : merged.NodupKeys) :
    (merged.foldl indexKey idx).defaults toolName =
      if cutColon toolName = none then
        (merged.dlookup toolName).or (idx.defaults toolName)
      else idx.defaults toolName := by
  induction merged generalizing idx with
  | nil => simp
  | cons e merged ih =>
    obtain ⟨key, price⟩ := e
    have hkeys := List.nodupKeys_cons.1 hnodup
    rw [List.foldl_cons, ih hkeys.2, defaults_indexKey]
    by_cases hplain : cutColon toolName = none
    · by_cases hkey : key = toolName
      · have hnone : merged.dlookup toolName = none :=
          List.dlookup_eq_none.2 (hkey ▸ hkeys.1)
        subst hkey
        simp [hplain, hnone]
      · have hskip : List.dlookup toolName (⟨key, price⟩ :: merged) = merged.dlookup toolName :=
          List.dlookup_cons_ne _ _ fun h => hkey h.symm
        simp [hplain, hkey, hskip]
    · simp [hplain]

/-- **The lookup**, in an index built in any order by any sort. -/
theorem getToolPriceForModel_eq {table : PriceTable} (sorter : Sorter PrefixEntry.rank)
    (horder : merged.Perm table.entries) (hmodel : modelName ≠ "") :
    getToolPriceForModel (some (rebuildToolPriceIndex sorter merged)) toolName modelName =
      match (sorter.sort (merged.filterMap (prefixEntryOf toolName))).find?
          fun e => hasPrefix modelName e.modelPrefix with
      | some e => e.price
      | none => plainPrice table toolName := by
  have hnodup : merged.NodupKeys := (List.perm_nodupKeys horder).2 table.nodupKeys
  have hprefixes : (rebuildToolPriceIndex sorter merged).prefixes toolName =
      sorter.sort (merged.filterMap (prefixEntryOf toolName)) := by
    show sorter.sort ((merged.foldl indexKey _).prefixes toolName) = _
    rw [prefixes_foldl, List.nil_append]
  have hdefaults : ((rebuildToolPriceIndex sorter merged).defaults toolName).getD 0 =
      plainPrice table toolName := by
    show ((merged.foldl indexKey _).defaults toolName).getD 0 = _
    rw [defaults_foldl hnodup, plainPrice, List.perm_dlookup toolName hnodup horder, AList.lookup]
    by_cases hplain : cutColon toolName = none
    · rw [if_pos hplain, if_pos hplain, Option.or_none]
    · rw [if_neg hplain, if_neg hplain, Option.getD_none]
  rw [getToolPriceForModel]
  simp only [if_pos hmodel, hprefixes]
  split
  · rfl
  · exact hdefaults

/-- The top matches among the entries of a tool are those with the longest part. -/
theorem topMatch_iff {table : PriceTable} (horder : merged.Perm table.entries)
    {entry : PrefixEntry} :
    TopMatch PrefixEntry.rank (fun e => hasPrefix modelName e.modelPrefix)
        (merged.filterMap (prefixEntryOf toolName)) entry ↔
      LongestPart table toolName modelName entry.modelPrefix ∧
        ∃ e ∈ table.entries, KeyFor toolName e.1 entry.modelPrefix ∧ e.2 = entry.price := by
  have hmem : ∀ entry : PrefixEntry, entry ∈ merged.filterMap (prefixEntryOf toolName) ↔
      ∃ e ∈ table.entries, KeyFor toolName e.1 entry.modelPrefix ∧ e.2 = entry.price := by
    intro entry
    rw [List.mem_filterMap]
    refine exists_congr fun e => ?_
    rw [horder.mem_iff, prefixEntryOf_eq_some]
  constructor
  · rintro ⟨hentry, hmatched, htop⟩
    obtain ⟨e, he, hkey, hprice⟩ := (hmem entry).1 hentry
    refine ⟨⟨hmatched, ⟨e, he, hkey⟩, fun e' he' pre' hkey' hmatched' => ?_⟩, e, he, hkey, hprice⟩
    exact htop ⟨pre', e'.2⟩ ((hmem _).2 ⟨e', he', hkey', rfl⟩) hmatched'
  · rintro ⟨⟨hmatched, -, hlongest⟩, hkey⟩
    refine ⟨(hmem entry).2 hkey, hmatched, fun entry' hentry' hmatched' => ?_⟩
    obtain ⟨e', he', hkey', -⟩ := (hmem entry').1 hentry'
    exact hlongest e' he' _ hkey' hmatched'

end Index

/-! ### The price -/

section Price

variable {table : PriceTable} {toolName modelName : String} {merged : List (Σ _ : String, ℚ)}

/-- Whatever the order and the sort, the price is one that the table says. -/
theorem priceOf_getToolPriceForModel (sorter : Sorter PrefixEntry.rank)
    (horder : merged.Perm table.entries) (hmodel : modelName ≠ "") :
    PriceOf table toolName modelName
      (getToolPriceForModel (some (rebuildToolPriceIndex sorter merged)) toolName modelName) := by
  rw [getToolPriceForModel_eq sorter horder hmodel]
  cases hfound : (sorter.sort (merged.filterMap (prefixEntryOf toolName))).find?
      fun e => hasPrefix modelName e.modelPrefix with
  | some entry =>
    obtain ⟨hlongest, e, he, hkey, hprice⟩ :=
      (topMatch_iff horder).1 (RankedSearch.find?_sort sorter hfound)
    exact .inl ⟨entry.modelPrefix, hlongest, e, he, hkey, hprice⟩
  | none =>
    refine .inr ⟨fun pre hlongest => ?_, rfl⟩
    obtain ⟨e, he, hkey⟩ := hlongest.2.1
    have hnone := (RankedSearch.find?_sort_eq_none sorter).1 hfound ⟨pre, e.2⟩
      (List.mem_filterMap.2 ⟨e, horder.mem_iff.2 he, prefixEntryOf_eq_some.2 ⟨hkey, rfl⟩⟩)
    rw [hlongest.1] at hnone
    exact absurd hnone (by decide)

/-- Every top match gives the price under some sort. -/
theorem exists_sorter {entry : PrefixEntry} (hmodel : modelName ≠ "")
    (htop : TopMatch PrefixEntry.rank (fun e => hasPrefix modelName e.modelPrefix)
      (table.entries.filterMap (prefixEntryOf toolName)) entry) :
    ∃ sorter : Sorter PrefixEntry.rank,
      getToolPriceForModel (some (rebuildToolPriceIndex sorter table.entries)) toolName
        modelName = entry.price := by
  obtain ⟨sorter, hfound⟩ := RankedSearch.exists_sort_find? htop
  refine ⟨sorter, ?_⟩
  rw [getToolPriceForModel_eq sorter (List.Perm.refl _) hmodel, hfound]

/-- Parts of one model name with the same length are the same. -/
theorem eq_of_hasPrefix {s pre pre' : String} (h : hasPrefix s pre = true)
    (h' : hasPrefix s pre' = true) (hlength : byteLength pre = byteLength pre') : pre = pre' := by
  have hlonger : ∀ {a b : List Char}, a <+: b →
      (a.map Char.utf8Size).sum = (b.map Char.utf8Size).sum → a = b := by
    rintro a b ⟨rest, rfl⟩ hsum
    cases rest with
    | nil => rw [List.append_nil]
    | cons c rest =>
      -- Every further character has a byte at least.
      have hpos := c.utf8Size_pos
      simp only [List.map_append, List.sum_append, List.map_cons, List.sum_cons] at hsum
      omega
  rw [hasPrefix, List.isPrefixOf_iff_prefix] at h h'
  rw [byteLength, byteLength] at hlength
  rcases List.prefix_or_prefix_of_prefix h h' with hle | hle
  · exact String.toList_inj.1 (hlonger hle hlength)
  · exact String.toList_inj.1 (hlonger hle hlength.symm).symm

/-- Keys that agree leave one price. -/
theorem PriceOf.unique (h : SamePrices table toolName modelName) {price price' : ℚ}
    (hprice : PriceOf table toolName modelName price)
    (hprice' : PriceOf table toolName modelName price') : price = price' := by
  rcases hprice with ⟨pre, hlongest, e, he, hkey, rfl⟩ | ⟨hnone, rfl⟩
  · rcases hprice' with ⟨pre', hlongest', e', he', hkey', rfl⟩ | ⟨hnone', -⟩
    · obtain rfl : pre = pre' := by
        refine eq_of_hasPrefix hlongest.1 hlongest'.1 (le_antisymm ?_ ?_)
        · exact hlongest'.2.2 e he pre hkey hlongest.1
        · exact hlongest.2.2 e' he' pre' hkey' hlongest'.1
      exact h pre hlongest e he e' he' hkey hkey'
    · exact absurd hlongest (hnone' pre)
  · rcases hprice' with ⟨pre', hlongest', -⟩ | ⟨-, rfl⟩
    · exact absurd hlongest' (hnone pre')
    · rfl

/-- **The price of a tool call is that of the longest model part**, whatever the order the merged
map is read in and however equally long parts are sorted, exactly if the keys with that part have
one price. -/
theorem tool_price_longest (prices : PriceTable) (toolName : String) {modelName : String}
    (hmodel : modelName ≠ "") :
    (∃ price, PriceOf (mergedPrices prices) toolName modelName price ∧
      ∀ (sorter : Sorter PrefixEntry.rank) (merged : List (Σ _ : String, ℚ)),
        merged.Perm (mergedPrices prices).entries →
          getToolPriceForModel (some (rebuildToolPriceIndex sorter merged)) toolName modelName =
            price) ↔
      SamePrices (mergedPrices prices) toolName modelName := by
  constructor
  · rintro ⟨price, -, hall⟩ pre hlongest e he e' he' hkey hkey'
    have htop : ∀ e ∈ (mergedPrices prices).entries, KeyFor toolName e.1 pre →
        e.2 = price := by
      intro e he hkey
      have htop : TopMatch PrefixEntry.rank (fun e => hasPrefix modelName e.modelPrefix)
          ((mergedPrices prices).entries.filterMap (prefixEntryOf toolName)) ⟨pre, e.2⟩ :=
        (topMatch_iff (List.Perm.refl _)).2 ⟨hlongest, e, he, hkey, rfl⟩
      obtain ⟨sorter, hsorter⟩ := exists_sorter hmodel htop
      rw [← hall sorter _ (List.Perm.refl _), hsorter]
    rw [htop e he hkey, htop e' he' hkey']
  · intro hagree
    have hfirst : PriceOf (mergedPrices prices) toolName modelName _ :=
      priceOf_getToolPriceForModel (RankedSearch.choosing PrefixEntry.rank fun _ => false)
        (List.Perm.refl _) hmodel
    exact ⟨_, hfirst, fun sorter merged horder =>
      PriceOf.unique hagree (priceOf_getToolPriceForModel sorter horder hmodel) hfirst⟩

/-- Entries of one model part that have one price agree. -/
theorem agree_of_entries
    (h : ∀ entry ∈ table.entries.filterMap (prefixEntryOf toolName),
      ∀ entry' ∈ table.entries.filterMap (prefixEntryOf toolName),
        entry.modelPrefix = entry'.modelPrefix → entry.price = entry'.price) :
    SamePrices table toolName modelName := by
  intro pre _ e he e' he' hkey hkey'
  exact h ⟨pre, e.2⟩ (List.mem_filterMap.2 ⟨e, he, prefixEntryOf_eq_some.2 ⟨hkey, rfl⟩⟩)
    ⟨pre, e'.2⟩ (List.mem_filterMap.2 ⟨e', he', prefixEntryOf_eq_some.2 ⟨hkey', rfl⟩⟩) rfl

/-- With the prices of the program, the longer of two parts counts. -/
theorem tool_price_longest_mini :
    ∃ price, PriceOf (mergedPrices ∅) "web_search_preview" "gpt-4o-mini" price ∧
      ∀ (sorter : Sorter PrefixEntry.rank) (merged : List (Σ _ : String, ℚ)),
        merged.Perm (mergedPrices ∅).entries →
          getToolPriceForModel (some (rebuildToolPriceIndex sorter merged)) "web_search_preview"
            "gpt-4o-mini" = price :=
  (tool_price_longest ∅ "web_search_preview" (by decide)).2
    (agree_of_entries (by decide +kernel))

end Price

end NewApi
