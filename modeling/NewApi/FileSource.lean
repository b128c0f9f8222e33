/-
**The files of a request.**

The messages of a request name files, by an address or with their data as base64.  A file is loaded
when its data or its MIME type is asked for, and kept in two places: in the source itself, and under
a key in the context of the request, where another source of the same file finds it.  The key of an
address is its digest.  The key of inline data is the digest of its length, its given MIME type and
its first 128 bytes, so that two files that agree in these are taken for one.

A call answers for its own source as long as this happens only to sources that would load the same.
There is a second way for a MIME type to differ: that of an address is first looked for without
loading it, by other rules.

Main definitions:

* `loadFromBase64`, `loadFileSource`, `getBase64Data`, `getMimeType` — the calls;
* `answers`, `aloneAnswer` — what a list of calls answers, and what each would on its own;
* `Separate` — sources with one key load the same, and what is found of an address is what loading
  it finds.

Main results:

* `KeptFiles.answer` — a call answers for its own source and keeps only what belongs to it;
* `own_files` — **every call of every list answers for its own source exactly if the sources are
  separate**.
-/

import NewApi.Common

set_option autoImplicit false

namespace NewApi

/-! ### Sources -/

/-- A loaded file. -/
structure CachedFileData where
  base64Data : String
  mimeType : String
deriving DecidableEq, Repr

inductive FileSource where
  | url (url : String)
  | base64 (base64Data mimeType : String)
deriving DecidableEq, Repr

/-- What the calls use: the digest, the network as it is during the request, and the decoders. -/
structure FileService where
  generateHMAC : List UInt8 → String
  loadFromURL : String → Option CachedFileData
  getFileTypeFromUrl : String → Option String
  decodeString : String → Option (List UInt8)
  decodeImageConfig : List UInt8 → Option String

/-- The bytes of a text. -/
def textBytes (s : String) : List UInt8 := s.toUTF8.data.toList

/-- The header of a data address and what follows the comma. -/
def splitDataHeader (s : String) : Option (String × String) :=
  let header := s.toList.takeWhile fun c => decide (c ≠ ',')
  match s.toList.drop header.length with
  | [] => none
  | _ :: rest => some (String.ofList header, String.ofList rest)

/-- The MIME type in the header of a data address. -/
def headerMimeType (header : String) : String :=
  if ';' ∈ header.toList then
    String.ofList ((header.toList.drop "data:".length).takeWhile fun c => decide (c ≠ ';'))
  else ""

namespace FileService

variable (svc : FileService)

def getContextCacheKey (url : String) : String :=
  "file_cache_" ++ svc.generateHMAC (textBytes url)

/-- What the digest of inline data is made of. -/
def keyMaterial (data mimeType : String) : List UInt8 :=
  textBytes (toString (textBytes data).length ++ ":" ++ mimeType ++ ":") ++
    (textBytes data).take 128

def getBase64ContextCacheKey (data mimeType : String) : String :=
  "b64_cache_" ++ svc.generateHMAC (keyMaterial data mimeType)

def loadFromBase64 (base64String providedMimeType : String) : Option CachedFileData :=
  let (mimeType, cleanBase64) :=
    if hasPrefix base64String "data:" then
      match splitDataHeader base64String with
      | some (header, data) => (headerMimeType header, data)
      | none => ("", base64String)
    else ("", base64String)
  let mimeType := if providedMimeType ≠ "" then providedMimeType else mimeType
  match svc.decodeString cleanBase64 with
  | none => none
  | some decodedData =>
    if mimeType = "" then
      match svc.decodeImageConfig decodedData with
      | some format => some ⟨cleanBase64, "image/" ++ format⟩
      | none => some ⟨cleanBase64, mimeType⟩
    else some ⟨cleanBase64, mimeType⟩

/-- Load a source without any cache. -/
def load : FileSource → Option CachedFileData
  | .url url => svc.loadFromURL url
  | .base64 base64Data mimeType => svc.loadFromBase64 base64Data mimeType

/-- The key of a source in the context of the request. -/
def contextKey : FileSource → String
  | .url url => svc.getContextCacheKey url
  | .base64 base64Data mimeType => svc.getBase64ContextCacheKey base64Data mimeType

/-- The MIME type that is found of an address without loading it. -/
def foundMimeType : FileSource → Option String
  | .url url =>
    match svc.getFileTypeFromUrl url with
    | some mimeType =>
      if mimeType ≠ "" ∧ mimeType ≠ "application/octet-stream" then some mimeType else none
    | none => none
  | .base64 _ _ => none

end FileService

/-! ### Calls -/

/-- What is kept of the files: in each source, and in the context of the request. -/
structure FileContext (ι : Type*) where
  cache : ι → Option CachedFileData := fun _ => none
  context : String → Option CachedFileData := fun _ => none

inductive FileCall (ι : Type*) where
  | loadFileSource (i : ι)
  | getBase64Data (i : ι)
  | getMimeType (i : ι)

inductive FileAnswer where
  | loaded (data : Option CachedFileData)
  | data (data : Option (String × String))
  | mimeType (mimeType : Option String)
deriving DecidableEq, Repr

section Calls

variable {ι : Type*} [DecidableEq ι] (svc : FileService) (source : ι → FileSource)

def loadFileSource (i : ι) (s : FileContext ι) : Option CachedFileData × FileContext ι :=
  match s.cache i with
  | some data => (some data, s)
  | none =>
    let key := svc.contextKey (source i)
    match s.context key with
    | some data => (some data, { s with cache := Function.update s.cache i (some data) })
    | none =>
      match svc.load (source i) with
      | none => (none, s)
      | some data =>
        (some data,
          { cache := Function.update s.cache i (some data)
            context := Function.update s.context key (some data) })

def getBase64Data (i : ι) (s : FileContext ι) : Option (String × String) × FileContext ι :=
  let (cachedData, s) := loadFileSource svc source i s
  (cachedData.map fun data => (data.base64Data, data.mimeType), s)

def getMimeType (i : ι) (s : FileContext ι) : Option String × FileContext ι :=
  match s.cache i with
  | some data => (some data.mimeType, s)
  | none =>
    match svc.foundMimeType (source i) with
    | some mimeType => (some mimeType, s)
    | none =>
      let (cachedData, s) := loadFileSource svc source i s
      (cachedData.map fun data => data.mimeType, s)

def answer (s : FileContext ι) : FileCall ι → FileAnswer × FileContext ι
  | .loadFileSource i =>
    let (data, s) := loadFileSource svc source i s
    (.loaded data, s)
  | .getBase64Data i =>
    let (data, s) := getBase64Data svc source i s
    (.data data, s)
  | .getMimeType i =>
    let (mimeType, s) := getMimeType svc source i s
    (.mimeType mimeType, s)

/-- The answers of the calls of a request one after another. -/
def answers : FileContext ι → List (FileCall ι) → List FileAnswer
  | _, [] => []
  | s, call :: calls =>
    let (a, s) := answer svc source s call
    a :: answers s calls

/-- What a call answers when its source is loaded alone. -/
def aloneAnswer : FileCall ι → FileAnswer
  | .loadFileSource i => .loaded (svc.load (source i))
  | .getBase64Data i =>
    .data ((svc.load (source i)).map fun data => (data.base64Data, data.mimeType))
  | .getMimeType i => .mimeType ((svc.load (source i)).map fun data => data.mimeType)

/-- Sources with one key load the same once one of them loads, and a MIME type that is found of an
address is the one that loading it finds. -/
structure Separate : Prop where
  shared : ∀ i j cached, svc.contextKey (source i) = svc.contextKey (source j) →
    svc.load (source i) = some cached → svc.load (source j) = some cached
  found : ∀ i mimeType, svc.foundMimeType (source i) = some mimeType →
    ∃ cached, svc.load (source i) = some cached ∧ cached.mimeType = mimeType

/-! ### What is kept -/

/-- Everything that is kept is what loading the sources gives that it is kept for. -/
structure KeptFiles (s : FileContext ι) : Prop where
  cache : ∀ i cached, s.cache i = some cached → svc.load (source i) = some cached
  context : ∀ i cached, s.context (svc.contextKey (source i)) = some cached →
    svc.load (source i) = some cached

variable {svc source}

omit [DecidableEq ι] in
theorem kept_start : KeptFiles svc source {} where
  cache := by simp
  context := by simp

variable {s : FileContext ι} {i : ι} {cached : CachedFileData}

/-- What is found in the context is kept in the source. -/
theorem KeptFiles.setCache (h : KeptFiles svc source s) (hload : svc.load (source i) = some cached) :
    KeptFiles svc source { s with cache := Function.update s.cache i (some cached) } where
  cache := by
    intro j cached' hcached
    by_cases hj : j = i
    · subst hj
      simp only [Function.update_self, Option.some.injEq] at hcached
      rw [← hcached]
      exact hload
    · simp only [Function.update_of_ne hj] at hcached
      exact h.cache j cached' hcached
  context := h.context

omit [DecidableEq ι] in
/-- What is loaded is kept for all sources with its key. -/
theorem KeptFiles.setContext (hseparate : Separate svc source) (h : KeptFiles svc source s)
    (hload : svc.load (source i) = some cached) :
    KeptFiles svc source
      { s with
        context := Function.update s.context (svc.contextKey (source i)) (some cached) } where
  cache := h.cache
  context := by
    intro j cached' hcached
    by_cases hkey : svc.contextKey (source j) = svc.contextKey (source i)
    · simp only [hkey, Function.update_self, Option.some.injEq] at hcached
      rw [← hcached]
      exact hseparate.shared i j cached hkey.symm hload
    · simp only [Function.update_of_ne hkey] at hcached
      exact h.context j cached' hcached

theorem KeptFiles.loadFileSource (hseparate : Separate svc source) (h : KeptFiles svc source s)
    (i : ι) :
    (NewApi.loadFileSource svc source i s).1 = svc.load (source i) ∧
      KeptFiles svc source (NewApi.loadFileSource svc source i s).2 := by
  unfold NewApi.loadFileSource
  cases hcache : s.cache i with
  | some cached => exact ⟨(h.cache i cached hcache).symm, h⟩
  | none =>
    cases hcontext : s.context (svc.contextKey (source i)) with
    | some cached =>
      have hload := h.context i cached hcontext
      simp only [hcontext]
      exact ⟨hload.symm, h.setCache hload⟩
    | none =>
      simp only [hcontext]
      cases hload : svc.load (source i) with
      | none => exact ⟨rfl, h⟩
      | some cached => exact ⟨rfl, (h.setContext hseparate hload).setCache hload⟩

/-- **A call answers for its own source and keeps only what belongs to it.** -/
theorem KeptFiles.answer (hseparate : Separate svc source) (h : KeptFiles svc source s)
    (call : FileCall ι) :
    (NewApi.answer svc source s call).1 = aloneAnswer svc source call ∧
      KeptFiles svc source (NewApi.answer svc source s call).2 := by
  cases call with
  | loadFileSource i =>
    obtain ⟨hanswer, hkept⟩ := h.loadFileSource hseparate i
    exact ⟨congrArg FileAnswer.loaded hanswer, hkept⟩
  | getBase64Data i =>
    obtain ⟨hanswer, hkept⟩ := h.loadFileSource hseparate i
    refine ⟨?_, hkept⟩
    simp only [NewApi.answer, NewApi.getBase64Data, hanswer, aloneAnswer]
  | getMimeType i =>
    simp only [NewApi.answer, NewApi.getMimeType, aloneAnswer]
    cases hcache : s.cache i with
    | some cached => exact ⟨by rw [h.cache i cached hcache]; rfl, h⟩
    | none =>
      cases hfound : svc.foundMimeType (source i) with
      | some mimeType =>
        obtain ⟨cached, hload, rfl⟩ := hseparate.found i mimeType hfound
        exact ⟨by rw [hload]; rfl, h⟩
      | none =>
        obtain ⟨hanswer, hkept⟩ := h.loadFileSource hseparate i
        exact ⟨by rw [hanswer], hkept⟩

theorem KeptFiles.answers (hseparate : Separate svc source) (calls : List (FileCall ι)) :
    ∀ s : FileContext ι, KeptFiles svc source s →
      NewApi.answers svc source s calls = calls.map (aloneAnswer svc source) := by
  induction calls with
  | nil =>
    intro s _
    rfl
  | cons call calls ih =>
    intro s h
    obtain ⟨hanswer, hkept⟩ := h.answer hseparate call
    simp only [NewApi.answers, List.map_cons, hanswer, ih _ hkept]

/-! ### The files of a request -/

/-- A source with the key of one that was loaded before gets what that one has loaded. -/
theorem load_after_load {j : ι} (hij : i ≠ j)
    (hkey : svc.contextKey (source i) = svc.contextKey (source j))
    (hload : svc.load (source i) = some cached) :
    answers svc source {} [.loadFileSource i, .loadFileSource j] =
      [.loaded (some cached), .loaded (some cached)] := by
  simp [answers, answer, loadFileSource, hload, hkey, Function.update_of_ne hij.symm]

/-- **Every call of every list answers for its own source exactly if the sources are separate.** -/
theorem own_files (svc : FileService) (source : ι → FileSource) :
    (∀ calls : List (FileCall ι),
      answers svc source {} calls = calls.map (aloneAnswer svc source)) ↔ Separate svc source := by
  constructor
  · intro h
    refine ⟨?_, ?_⟩
    · intro i j cached hkey hload
      by_cases hij : i = j
      · exact hij ▸ hload
      · have hanswers := h [.loadFileSource i, .loadFileSource j]
        rw [load_after_load hij hkey hload] at hanswers
        simp only [List.map_cons, List.map_nil, aloneAnswer, List.cons.injEq,
          FileAnswer.loaded.injEq, and_true] at hanswers
        exact hanswers.2.symm
    · intro i mimeType hfound
      have hanswers := h [.getMimeType i]
      simp only [answers, answer, getMimeType, hfound, List.map_cons, List.map_nil, aloneAnswer,
        List.cons.injEq, FileAnswer.mimeType.injEq, and_true] at hanswers
      exact Option.map_eq_some_iff.mp hanswers.symm
  · intro hseparate calls
    exact KeptFiles.answers hseparate calls {} kept_start

end Calls

end NewApi
