/-
**The content blocks of a Claude stream.**

A client reads the content blocks of a stream under the rules of `NewApi.Lib.BlockStream`.  The
converter has one block of text or of thinking open at a time, or the blocks of a group of tool calls,
whose indexes it takes from the upstream: a piece with a name starts the block at its offset from the
first of the group, a piece with arguments continues it, and when the group ends the blocks up to the
greatest offset are stopped.  So the upstream's indexes have to count the calls of the group.

Main definitions:

* `NewApi.BlockDiscipline` — the events of content blocks obey the rules;
* `NewApi.Phase` — which blocks are open, as the chunks have it;
* `NewApi.WellNumbered` — the streams whose tool calls are numbered within each group.

Main results:

* `NewApi.laterContent_tracks` — one delta of a chunk;
* `NewApi.block_discipline` — **the rules are kept for exactly the well-numbered streams**;
* `NewApi.numbering_goes_on` — a stream whose tool calls are numbered through a text between them.
-/

import NewApi.ClaudeStream
import NewApi.Lib.BlockStream

set_option autoImplicit false

namespace NewApi

open BlockStream

/-! ### The rules -/

def ContentBlock.type : ContentBlock → LastMessageType
  | .text => .text
  | .thinking => .thinking
  | .toolUse _ _ => .tools

def ContentDelta.type : ContentDelta → LastMessageType
  | .textDelta _ => .text
  | .thinkingDelta _ => .thinking
  | .inputJsonDelta _ => .tools

/-- What an event means for the blocks. -/
def ClaudeEvent.toBlock : ClaudeEvent → Option (Event LastMessageType)
  | .contentBlockStart index block => some (.opens index block.type)
  | .contentBlockDelta index delta => some (.data index delta.type)
  | .contentBlockStop index => some (.closes index)
  | .messageStop => some .finish
  | .messageStart _ _ _ | .messageDelta _ _ => none

def blocks (es : List ClaudeEvent) : List (Event LastMessageType) := es.filterMap ClaudeEvent.toBlock

@[simp] theorem blocks_nil : blocks [] = [] := rfl

@[simp] theorem blocks_append (es es' : List ClaudeEvent) :
    blocks (es ++ es') = blocks es ++ blocks es' := List.filterMap_append

@[simp] theorem blocks_start (index : ℤ) (block : ContentBlock) :
    blocks [.contentBlockStart index block] = [.opens index block.type] := rfl

@[simp] theorem blocks_delta (index : ℤ) (delta : ContentDelta) :
    blocks [.contentBlockDelta index delta] = [.data index delta.type] := rfl

/-- Each index is started once and in turn, deltas and stops name a block that is open, a delta is of
its type, and no block is open when the message is stopped. -/
def BlockDiscipline (es : List ClaudeEvent) : Prop :=
  Accepts (slice 0 0 LastMessageType.none) (blocks es)

/-! ### The chunks -/

/-- Which blocks are open: of a group of tool calls, how many there are and the greatest offset. -/
inductive Phase where
  | none
  | text
  | thinking
  | tools (started : ℕ) (maxOffset : ℤ)
deriving DecidableEq, Repr

/-- The blocks can be stopped: of a group of tool calls, the greatest offset is the last call's. -/
def Phase.Ended : Phase → Prop
  | .tools started maxOffset => maxOffset + 1 = started
  | _ => True

instance Phase.decidableEnded (p : Phase) : Decidable p.Ended :=
  match p with
  | .tools started maxOffset => inferInstanceAs (Decidable (maxOffset + 1 = (started : ℤ)))
  | .none | .text | .thinking => .isTrue trivial

/-- The pieces of a chunk from the `i`-th on are numbered within a group that has `started` calls:
one with a name has the next offset, one with arguments that of a call of the group. -/
def numberPieces : ℕ → ℕ → ℤ → List ToolCallResponse → Option (ℕ × ℤ)
  | _, started, maxOffset, [] => some (started, maxOffset)
  | i, started, maxOffset, toolCall :: rest =>
    let offset := toolCall.offset i
    let started' := if toolCall.name ≠ "" then started + 1 else started
    if (toolCall.name ≠ "" → offset = started) ∧
        (toolCall.arguments ≠ "" → 0 ≤ offset ∧ offset < started') then
      numberPieces (i + 1) started' (max maxOffset offset) rest
    else none

/-- How many calls the group has that is open, and their greatest offset. -/
def Phase.group : Phase → ℕ × ℤ
  | .tools started maxOffset => (started, maxOffset)
  | _ => (0, 0)

/-- The blocks that are open after a delta, if it is numbered well. -/
def Phase.content (p : Phase) (delta : ChatCompletionsStreamResponseChoiceDelta) : Option Phase :=
  if delta.toolCalls ≠ [] then
    (numberPieces 0 p.group.1 p.group.2 delta.toolCalls).map fun g => .tools g.1 g.2
  else if delta.getReasoningContent ≠ "" then if p.Ended then some .thinking else .none
  else if delta.getContentString ≠ "" then if p.Ended then some .text else .none
  else some p

/-- The chunks after the first are numbered well, down to the one that closes the message. -/
def WellNumberedFrom : Phase → Bool → List ChatCompletionsStreamResponse → Prop
  | _, _, [] => True
  | p, usageKnown, chunk :: rest =>
    let known := chunk.usage.isSome || usageKnown
    match chunk.choices with
    | [] => if known then p.Ended else WellNumberedFrom p known rest
    | choice :: _ =>
      if choice.finish ≠ "" ∧ chunk.usage.isNone then WellNumberedFrom p known rest
      else
        match p.content choice.delta with
        | none => False
        | some p' => if choice.finish ≠ "" then p'.Ended else WellNumberedFrom p' known rest

/-- The blocks that are open after the first chunk. -/
def firstPhase (delta : ChatCompletionsStreamResponseChoiceDelta) : Phase :=
  if delta.getReasoningContent ≠ "" then .thinking
  else if delta.getContentString ≠ "" then .text
  else if delta.toolCalls ≠ [] then .tools 1 0
  else .none

/-- The streams whose tool calls are numbered within each group. -/
def WellNumbered : List ChatCompletionsStreamResponse → Prop
  | [] => True
  | chunk :: rest =>
    match chunk.choices with
    | [] => WellNumberedFrom .none chunk.usage.isSome rest
    | choice :: _ =>
      choice.finish ≠ "" ∨ WellNumberedFrom (firstPhase choice.delta) chunk.usage.isSome rest

/-! ### The converter keeps track of the open blocks -/

/-- The converter's state and the reader's, with the same blocks open. -/
inductive Tracks (info : ClaudeRelayInfo) : Phase → State LastMessageType → Prop
  | none (htype : info.lastMessagesType = .none) :
      Tracks info .none (slice info.index info.index .none)
  | text (htype : info.lastMessagesType = .text) :
      Tracks info .text (slice info.index (info.index + 1) .text)
  | thinking (htype : info.lastMessagesType = .thinking) :
      Tracks info .thinking (slice info.index (info.index + 1) .thinking)
  | tools (started : ℕ) (maxOffset : ℤ) (htype : info.lastMessagesType = .tools)
      (hmax : info.toolCallMaxIndexOffset = maxOffset) (hnonneg : 0 ≤ maxOffset)
      (hstarted : started ≤ maxOffset + 1) :
      Tracks info (.tools started maxOffset)
        (slice info.toolCallBaseIndex (info.toolCallBaseIndex + started) .tools)

section Converter

variable {info : ClaudeRelayInfo} {p : Phase} {s : State LastMessageType}

/-- A single stop closes a single block. -/
theorem stop_block (index : ℤ) (kind : LastMessageType) :
    Accepts (slice index (index + 1) kind) [.closes index] ∧
      after (slice index (index + 1) kind) [.closes index] =
        slice (index + 1) (index + 1) kind := by
  have hone : (closings index 1 : List (Event LastMessageType)) = [.closes index] := by
    simp [closings]
  rw [← hone]
  refine ⟨(accepts_closes_slice (by omega)).2 (by omega), ?_⟩
  rw [after_closes_slice kind 1 (by omega)]
  rfl

/-- A block is opened where none is open, and continued. -/
theorem open_block (index : ℤ) (kind kind' : LastMessageType) :
    Accepts (slice index index kind) [.opens index kind', .data index kind'] ∧
      after (slice index index kind) [.opens index kind', .data index kind'] =
        slice index (index + 1) kind' := by
  have hsplit : ([.opens index kind', .data index kind'] : List (Event LastMessageType)) =
      [Event.opens index kind'] ++ [Event.data index kind'] := rfl
  rw [hsplit, accepts_append, after_append, after_opens_empty, accepts_data_slice]
  exact ⟨⟨accepts_opens_slice.2 rfl, by omega, by omega⟩, rfl⟩

theorem blocks_stops_tools (htype : info.lastMessagesType = .tools) :
    blocks (stopOpenBlocks info) =
      closings info.toolCallBaseIndex (info.toolCallMaxIndexOffset + 1).toNat := by
  have hmap := List.filterMap_eq_map (f := fun (offset : ℕ) =>
    (Event.closes (info.toolCallBaseIndex + offset) : Event LastMessageType))
  rw [stopOpenBlocks, htype, blocks, closings, List.filterMap_map]
  exact congrFun hmap _

theorem stopOpenBlocksAndAdvance_fst (info : ClaudeRelayInfo) :
    (stopOpenBlocksAndAdvance info).1 = stopOpenBlocks info := by
  unfold stopOpenBlocksAndAdvance stopOpenBlocks
  cases info.lastMessagesType with
  | none => rfl
  | text => rfl
  | tools => rfl
  | thinking => rfl

/-- **The stops of the open blocks** are accepted exactly if the blocks can be stopped, and leave none
open. -/
theorem stopOpenBlocks_tracks (h : Tracks info p s) :
    (Accepts s (blocks (stopOpenBlocks info)) ↔ p.Ended) ∧
      (p.Ended → Tracks (stopOpenBlocksAndAdvance info).2 .none
        (after s (blocks (stopOpenBlocks info)))) := by
  cases h with
  | none htype =>
    have hstops : stopOpenBlocks info = [] := by rw [stopOpenBlocks, htype]
    have hinfo : (stopOpenBlocksAndAdvance info).2 = info := by
      rw [stopOpenBlocksAndAdvance, htype]
    rw [hstops, hinfo]
    exact ⟨by simp [Phase.Ended], fun _ => .none htype⟩
  | text htype =>
    have hstops : blocks (stopOpenBlocks info) = [.closes info.index] := by
      rw [stopOpenBlocks, htype]
      rfl
    have hinfo : (stopOpenBlocksAndAdvance info).2 =
        { info with index := info.index + 1, lastMessagesType := .none } := by
      rw [stopOpenBlocksAndAdvance, htype]
    obtain ⟨haccepts, hafter⟩ := stop_block info.index .text
    rw [hstops, hinfo, hafter, slice_empty _ _ .none]
    exact ⟨by simp [haccepts, Phase.Ended], fun _ => .none rfl⟩
  | thinking htype =>
    have hstops : blocks (stopOpenBlocks info) = [.closes info.index] := by
      rw [stopOpenBlocks, htype]
      rfl
    have hinfo : (stopOpenBlocksAndAdvance info).2 =
        { info with index := info.index + 1, lastMessagesType := .none } := by
      rw [stopOpenBlocksAndAdvance, htype]
    obtain ⟨haccepts, hafter⟩ := stop_block info.index .thinking
    rw [hstops, hinfo, hafter, slice_empty _ _ .none]
    exact ⟨by simp [haccepts, Phase.Ended], fun _ => .none rfl⟩
  | tools started maxOffset htype hmax hnonneg hstarted =>
    have hinfo : (stopOpenBlocksAndAdvance info).2 = { info with
        index := info.toolCallBaseIndex + info.toolCallMaxIndexOffset + 1
        toolCallBaseIndex := 0
        toolCallMaxIndexOffset := 0
        lastMessagesType := .none } := by
      rw [stopOpenBlocksAndAdvance, htype]
    have hcount : (((maxOffset + 1).toNat : ℕ) : ℤ) = maxOffset + 1 := by omega
    rw [blocks_stops_tools htype, hmax, hinfo]
    constructor
    · rw [accepts_closes_slice (by omega), hcount, Phase.Ended]
      omega
    · intro hended
      rw [Phase.Ended] at hended
      rw [after_closes_slice _ _ (by omega), hcount, ← hended, slice_empty _ _ .none]
      have hindex : info.toolCallBaseIndex + (maxOffset + 1) =
          info.toolCallBaseIndex + info.toolCallMaxIndexOffset + 1 := by omega
      rw [hindex]
      exact .none rfl

/-- A block of text or of thinking that is open. -/
theorem Tracks.single {type : LastMessageType} {q : Phase}
    (hq : type = .text ∧ q = .text ∨ type = .thinking ∧ q = .thinking)
    (htype : info.lastMessagesType = type) :
    Tracks info q (slice info.index (info.index + 1) type) := by
  rcases hq with ⟨rfl, rfl⟩ | ⟨rfl, rfl⟩
  · exact .text htype
  · exact .thinking htype

/-- A piece of text or of thinking is accepted exactly if what was open before can be stopped. -/
theorem laterBlock_tracks {type : LastMessageType} {q : Phase} (block : ContentBlock)
    (delta : ContentDelta) (hq : type = .text ∧ q = .text ∨ type = .thinking ∧ q = .thinking)
    (hblock : block.type = type) (hdelta : delta.type = type) (h : Tracks info p s) :
    (Accepts s (blocks (laterBlock type block delta info).1) ↔ p.Ended) ∧
      (p.Ended → Tracks (laterBlock type block delta info).2 q
        (after s (blocks (laterBlock type block delta info).1))) := by
  simp only [laterBlock]
  by_cases hlast : info.lastMessagesType = type
  · -- the block is open
    have hopen : p.Ended ∧ s = slice info.index (info.index + 1) type := by
      rcases hq with ⟨rfl, rfl⟩ | ⟨rfl, rfl⟩
      · cases h with
        | none htype => simp [hlast] at htype
        | text htype => exact ⟨trivial, rfl⟩
        | thinking htype => simp [hlast] at htype
        | tools started maxOffset htype _ _ _ => simp [hlast] at htype
      · cases h with
        | none htype => simp [hlast] at htype
        | text htype => simp [hlast] at htype
        | thinking htype => exact ⟨trivial, rfl⟩
        | tools started maxOffset htype _ _ _ => simp [hlast] at htype
    obtain ⟨hended, rfl⟩ := hopen
    rw [if_neg (by simpa using hlast)]
    simp only [List.nil_append, blocks_delta, hdelta, after_data]
    refine ⟨?_, fun _ => .single hq rfl⟩
    rw [accepts_data_slice]
    simp [hended]
  · -- what is open is stopped, and the block is started
    obtain ⟨haccepts, htracks⟩ := stopOpenBlocks_tracks h
    have hevents : blocks ((stopOpenBlocksAndAdvance info).1 ++
        [ClaudeEvent.contentBlockStart (stopOpenBlocksAndAdvance info).2.index block] ++
        [ClaudeEvent.contentBlockDelta (stopOpenBlocksAndAdvance info).2.index delta]) =
        blocks (stopOpenBlocks info) ++ [Event.opens (stopOpenBlocksAndAdvance info).2.index type,
          Event.data (stopOpenBlocksAndAdvance info).2.index type] := by
      simp only [stopOpenBlocksAndAdvance_fst, blocks_append, blocks_start, blocks_delta, hblock,
        hdelta, List.append_assoc]
      rfl
    rw [if_pos hlast]
    simp only [hevents]
    rw [accepts_append, haccepts, after_append]
    have hopen : p.Ended → Accepts (after s (blocks (stopOpenBlocks info)))
          [.opens (stopOpenBlocksAndAdvance info).2.index type,
            .data (stopOpenBlocksAndAdvance info).2.index type] ∧
        after (after s (blocks (stopOpenBlocks info)))
          [.opens (stopOpenBlocksAndAdvance info).2.index type,
            .data (stopOpenBlocksAndAdvance info).2.index type] =
          slice (stopOpenBlocksAndAdvance info).2.index
            ((stopOpenBlocksAndAdvance info).2.index + 1) type := by
      intro hended
      have hnone := htracks hended
      generalize after s (blocks (stopOpenBlocks info)) = s' at hnone ⊢
      cases hnone with
      | none _ => exact open_block _ _ _
    refine ⟨⟨fun hall => hall.1, fun hended => ⟨hended, (hopen hended).1⟩⟩, fun hended => ?_⟩
    rw [(hopen hended).2]
    exact .single hq rfl

/-- **One piece of a tool call** is accepted exactly if it is numbered well within its group. -/
theorem toolCallEvents_tracks (base offset : ℤ) (started : ℕ) (toolCall : ToolCallResponse) :
    (Accepts (slice base (base + started) .tools) (blocks (toolCallEvents (base + offset) toolCall)) ↔
      (toolCall.name ≠ "" → offset = started) ∧
        (toolCall.arguments ≠ "" → 0 ≤ offset ∧
          offset < (if toolCall.name ≠ "" then started + 1 else started : ℕ))) ∧
      ((toolCall.name ≠ "" → offset = started) →
        after (slice base (base + started) .tools) (blocks (toolCallEvents (base + offset) toolCall)) =
          slice base (base + (if toolCall.name ≠ "" then started + 1 else started : ℕ)) .tools) := by
  have hdata : ∀ hi : ℤ, Accepts (slice base hi LastMessageType.tools)
      (blocks (if toolCall.arguments ≠ "" then
        [.contentBlockDelta (base + offset) (.inputJsonDelta toolCall.arguments)] else [])) ↔
      (toolCall.arguments ≠ "" → base ≤ base + offset ∧ base + offset < hi) := by
    intro hi
    by_cases hargs : toolCall.arguments = ""
    · simp [hargs]
    · rw [if_pos hargs, blocks_delta]
      simp only [ContentDelta.type, accepts_data_slice, ne_eq, hargs, not_false_eq_true,
        forall_const]
  have hafter : ∀ hi : ℤ, after (slice base hi LastMessageType.tools)
      (blocks (if toolCall.arguments ≠ "" then
        [.contentBlockDelta (base + offset) (.inputJsonDelta toolCall.arguments)] else [])) =
      slice base hi .tools := by
    intro hi
    split
    · rfl
    · rfl
  unfold toolCallEvents
  by_cases hname : toolCall.name = ""
  · simp only [hname, ne_eq, not_true_eq_false, if_false, List.nil_append, false_imp_iff, true_and]
    refine ⟨(hdata _).trans ?_, fun _ => hafter _⟩
    constructor
    · intro hargs hne
      have := hargs hne
      omega
    · intro hargs hne
      have := hargs hne
      omega
  · have hnext : base + (started : ℤ) + 1 = base + ((started + 1 : ℕ) : ℤ) := by
      push_cast
      ring
    simp only [hname, ne_eq, not_false_eq_true, if_true, blocks_append, blocks_start,
      ContentBlock.type, accepts_append, accepts_opens_slice, forall_const, after_append]
    constructor
    · constructor
      · rintro ⟨hindex, hargs⟩
        rw [hindex, after_opens_slice _ (by omega), hnext, ← hindex, hdata] at hargs
        refine ⟨by omega, fun hne => ?_⟩
        have := hargs hne
        omega
      · rintro ⟨rfl, hargs⟩
        refine ⟨rfl, ?_⟩
        rw [after_opens_slice _ (by omega), hnext, hdata]
        intro hne
        have := hargs hne
        omega
    · rintro rfl
      rw [after_opens_slice _ (by omega), hnext]
      exact hafter _

/-- **The pieces of a chunk** are accepted exactly if they are numbered well, and then the group has
the calls counted. -/
theorem toolCallsEvents_tracks (base : ℤ) (toolCalls : List ToolCallResponse) (i : ℕ) {started : ℕ}
    {maxOffset : ℤ} (hnonneg : 0 ≤ maxOffset) (hstarted : started ≤ maxOffset + 1) :
    (Accepts (slice base (base + started) .tools)
        (blocks (toolCallsEvents base i maxOffset toolCalls).1) ↔
      (numberPieces i started maxOffset toolCalls).isSome = true) ∧
    ∀ g, numberPieces i started maxOffset toolCalls = some g →
      after (slice base (base + started) .tools)
          (blocks (toolCallsEvents base i maxOffset toolCalls).1) =
        slice base (base + g.1) .tools ∧
      (toolCallsEvents base i maxOffset toolCalls).2 = g.2 ∧ 0 ≤ g.2 ∧ g.1 ≤ g.2 + 1 := by
  induction toolCalls generalizing i started maxOffset with
  | nil =>
    refine ⟨by simp [toolCallsEvents, numberPieces], ?_⟩
    intro g hg
    simp only [numberPieces, Option.some.injEq] at hg
    subst hg
    exact ⟨rfl, rfl, hnonneg, hstarted⟩
  | cons toolCall rest ih =>
    obtain ⟨haccepts, hafter⟩ := toolCallEvents_tracks base (toolCall.offset i) started toolCall
    simp only [toolCallsEvents, numberPieces, blocks_append, accepts_append, after_append]
    rw [haccepts]
    by_cases hnumbered : (toolCall.name ≠ "" → toolCall.offset i = started) ∧
        (toolCall.arguments ≠ "" → 0 ≤ toolCall.offset i ∧
          toolCall.offset i < (if toolCall.name ≠ "" then started + 1 else started : ℕ))
    · have hbound : ((if toolCall.name ≠ "" then started + 1 else started : ℕ) : ℤ) ≤
          max maxOffset (toolCall.offset i) + 1 := by
        split
        · rename_i hname
          have := hnumbered.1 hname
          push_cast
          omega
        · omega
      obtain ⟨hrest, hgroup⟩ := ih (i + 1) (le_max_of_le_left hnonneg) hbound
      rw [if_pos hnumbered, hafter hnumbered.1, hrest]
      exact ⟨⟨fun h => h.2, fun h => ⟨hnumbered, h⟩⟩, hgroup⟩
    · rw [if_neg hnumbered]
      exact ⟨⟨fun h => absurd h.1 hnumbered, fun h => by simp at h⟩, fun g hg => by simp at hg⟩

/-- The tool calls of a chunk. -/
theorem laterToolCalls_tracks (toolCalls : List ToolCallResponse) (h : Tracks info p s) :
    (Accepts s (blocks (laterToolCalls toolCalls info).1) ↔
      (numberPieces 0 p.group.1 p.group.2 toolCalls).isSome = true) ∧
    ∀ g, numberPieces 0 p.group.1 p.group.2 toolCalls = some g →
      Tracks (laterToolCalls toolCalls info).2 (.tools g.1 g.2)
        (after s (blocks (laterToolCalls toolCalls info).1)) := by
  -- a group that is not open is opened at the next index, without a call
  have hnew : info.lastMessagesType ≠ .tools → p.Ended → p.group = (0, 0) →
      (Accepts s (blocks (laterToolCalls toolCalls info).1) ↔
        (numberPieces 0 p.group.1 p.group.2 toolCalls).isSome = true) ∧
      ∀ g, numberPieces 0 p.group.1 p.group.2 toolCalls = some g →
        Tracks (laterToolCalls toolCalls info).2 (.tools g.1 g.2)
          (after s (blocks (laterToolCalls toolCalls info).1)) := by
    intro hlast hended hgroup
    obtain ⟨haccepts, htracks⟩ := stopOpenBlocks_tracks h
    have hnone := htracks hended
    simp only [laterToolCalls, if_pos hlast, stopOpenBlocksAndAdvance_fst, blocks_append,
      accepts_append, haccepts, hended, true_and, after_append, hgroup]
    generalize after s (blocks (stopOpenBlocks info)) = s' at hnone ⊢
    cases hnone with
    | none _ =>
      obtain ⟨hpieces, hcalls⟩ := toolCallsEvents_tracks (stopOpenBlocksAndAdvance info).2.index
        toolCalls 0 (le_refl (0 : ℤ)) (by simp : ((0 : ℕ) : ℤ) ≤ 0 + 1)
      rw [Nat.cast_zero, add_zero, slice_empty _ LastMessageType.tools LastMessageType.none]
        at hpieces hcalls
      refine ⟨hpieces, fun g hg => ?_⟩
      obtain ⟨hafter, hmax, hnonneg, hbound⟩ := hcalls g hg
      rw [hafter]
      exact .tools g.1 g.2 rfl hmax hnonneg hbound
  cases h with
  | none htype => exact hnew (by simp [htype]) trivial rfl
  | text htype => exact hnew (by simp [htype]) trivial rfl
  | thinking htype => exact hnew (by simp [htype]) trivial rfl
  | tools started maxOffset htype hmax hnonneg hstarted =>
    clear hnew
    obtain ⟨hpieces, hcalls⟩ := toolCallsEvents_tracks info.toolCallBaseIndex toolCalls 0
      hnonneg hstarted
    simp only [laterToolCalls, htype, ne_eq, not_true_eq_false, if_false, List.nil_append, hmax,
      Phase.group]
    refine ⟨hpieces, fun g hg => ?_⟩
    obtain ⟨hafter, hmax', hnonneg', hbound⟩ := hcalls g hg
    rw [hafter]
    exact .tools g.1 g.2 rfl hmax' hnonneg' hbound

/-- **One delta of a chunk** is accepted exactly if it is numbered well. -/
theorem laterContent_tracks (delta : ChatCompletionsStreamResponseChoiceDelta)
    (h : Tracks info p s) :
    (Accepts s (blocks (laterContent delta info).1) ↔ (p.content delta).isSome = true) ∧
    ∀ p', p.content delta = some p' →
      Tracks (laterContent delta info).2 p' (after s (blocks (laterContent delta info).1)) := by
  simp only [laterContent, Phase.content]
  split
  · obtain ⟨haccepts, htracks⟩ := laterToolCalls_tracks delta.toolCalls h
    rw [Option.isSome_map]
    refine ⟨haccepts, fun p' hp' => ?_⟩
    obtain ⟨g, hg, rfl⟩ := Option.map_eq_some_iff.1 hp'
    exact htracks g hg
  · split
    · obtain ⟨haccepts, htracks⟩ := laterBlock_tracks .thinking
        (.thinkingDelta delta.getReasoningContent) (.inr ⟨rfl, rfl⟩) rfl rfl h
      rw [haccepts]
      split
      · rename_i hended
        refine ⟨by simp [hended], fun p' hp' => ?_⟩
        rw [← Option.some.inj hp']
        exact htracks hended
      · rename_i hended
        exact ⟨by simp [hended], fun p' hp' => by simp at hp'⟩
    · split
      · obtain ⟨haccepts, htracks⟩ := laterBlock_tracks .text
          (.textDelta delta.getContentString) (.inl ⟨rfl, rfl⟩) rfl rfl h
        rw [haccepts]
        split
        · rename_i hended
          refine ⟨by simp [hended], fun p' hp' => ?_⟩
          rw [← Option.some.inj hp']
          exact htracks hended
        · rename_i hended
          exact ⟨by simp [hended], fun p' hp' => by simp at hp'⟩
      · refine ⟨by simp, fun p' hp' => ?_⟩
        rw [← Option.some.inj hp']
        exact h

/-! ### The chunks of a stream -/

/-- A state in which the fields about the blocks are the same. -/
theorem Tracks.of_same {info' : ClaudeRelayInfo} (h : Tracks info p s)
    (htype : info'.lastMessagesType = info.lastMessagesType) (hindex : info'.index = info.index)
    (hbase : info'.toolCallBaseIndex = info.toolCallBaseIndex)
    (hmax : info'.toolCallMaxIndexOffset = info.toolCallMaxIndexOffset) : Tracks info' p s := by
  cases h with
  | none hlast =>
    rw [← hindex]
    exact .none (htype.trans hlast)
  | text hlast =>
    rw [← hindex]
    exact .text (htype.trans hlast)
  | thinking hlast =>
    rw [← hindex]
    exact .thinking (htype.trans hlast)
  | tools started maxOffset hlast hoffset hnonneg hstarted =>
    rw [← hbase]
    exact .tools started maxOffset (htype.trans hlast) (hmax.trans hoffset) hnonneg hstarted

/-- **The end of the message** is accepted exactly if the open blocks can be stopped. -/
theorem stops_finish_tracks (h : Tracks info p s) :
    Accepts s (blocks (stopOpenBlocks info) ++ [Event.finish]) ↔ p.Ended := by
  obtain ⟨haccepts, htracks⟩ := stopOpenBlocks_tracks h
  rw [accepts_append, haccepts]
  refine ⟨fun hall => hall.1, fun hended => ⟨hended, ?_⟩⟩
  have hnone := htracks hended
  generalize after s (blocks (stopOpenBlocks info)) = s' at hnone ⊢
  cases hnone with
  | none _ => exact accepts_finish_slice.2 (le_refl _)

theorem blocks_closeMessage (usage : Option OpenAIUsage) (info : ClaudeRelayInfo) :
    blocks (closeMessage usage info) = blocks (stopOpenBlocks info) ++ [Event.finish] := by
  unfold closeMessage
  rw [blocks_append, blocks_append]
  split
  · simp [blocks, ClaudeEvent.toBlock]
  · simp [blocks, ClaudeEvent.toBlock]

/-- **The chunks after the first** are accepted exactly if they are numbered well. -/
theorem handleStream_tracks {chunks : List ChatCompletionsStreamResponse} (hdone : info.done = false)
    (hcount : 0 < info.sendResponseCount) (h : Tracks info p s) :
    Accepts s (blocks (handleStream info chunks).1) ↔
      WellNumberedFrom p info.usage.isSome chunks := by
  induction chunks generalizing info p s with
  | nil => simp [handleStream, WellNumberedFrom]
  | cons chunk rest ih =>
    have hreceive : Tracks (info.receive chunk) p s := h.of_same rfl rfl rfl rfl
    have hcount' : 0 < (info.receive chunk).sendResponseCount := Nat.succ_pos _
    simp only [handleStream, handleStreamFormat_later chunk info hdone hcount, WellNumberedFrom]
    rw [← receive_usage_isSome, convertLater]
    cases hchoices : chunk.choices with
    | nil =>
      have hknown : chunk.usage.or (info.receive chunk).usage = (info.receive chunk).usage := by
        simp only [ClaudeRelayInfo.receive]
        cases chunk.usage <;> rfl
      simp only
      rw [hknown]
      cases husage : (info.receive chunk).usage with
      | none =>
        simp only [List.nil_append, Option.isSome_none, Bool.false_eq_true, if_false]
        have hgo : (info.receive chunk).done = false := hdone
        rw [ih hgo hcount' hreceive, husage]
        rfl
      | some usage =>
        simp only [Option.isSome_some, if_true]
        rw [handleStream_of_done rfl, List.append_nil, blocks_append]
        exact stops_finish_tracks hreceive
    | cons choice others =>
      by_cases hfinish : choice.finish = ""
      · obtain ⟨hblocks, hsame⟩ := blocksOnly_laterContent choice.delta (info.receive chunk)
        obtain ⟨haccepts, htracks⟩ := laterContent_tracks choice.delta hreceive
        have hgo : (laterContent choice.delta (info.receive chunk)).2.done = false :=
          hsame.done.trans hdone
        simp only [hfinish, ne_eq, not_true_eq_false, decide_false, Bool.false_and,
          Bool.false_eq_true, if_false, hgo, Bool.or_false, false_and, blocks_append,
          accepts_append, haccepts]
        cases hcontent : p.content choice.delta with
        | none => simp
        | some p' =>
          have hrest := ih hgo (by rw [hsame.sendResponseCount]; exact hcount')
            (htracks p' hcontent)
          rw [hrest, hsame.usage]
          simp
      · have hnamed : Tracks { info.receive chunk with finishReason := choice.finish } p s :=
          hreceive.of_same rfl rfl rfl rfl
        have hgo : { info.receive chunk with finishReason := choice.finish }.done = false := hdone
        cases husage : chunk.usage with
        | none =>
          simp only [hfinish, ne_eq, not_false_eq_true, decide_true, if_true,
            Option.isNone_none, Bool.and_self, List.nil_append, and_self]
          exact ih hgo hcount' hnamed
        | some usage =>
          obtain ⟨haccepts, htracks⟩ := laterContent_tracks choice.delta hnamed
          simp only [hfinish, ne_eq, not_false_eq_true, decide_true, if_true,
            Option.isNone_some, Bool.and_false, Bool.false_eq_true, if_false, Bool.true_or,
            and_false]
          rw [handleStream_of_done rfl, List.append_nil, blocks_append, accepts_append,
            haccepts, blocks_closeMessage]
          cases hcontent : p.content choice.delta with
          | none => simp
          | some p' =>
            rw [stops_finish_tracks (htracks p' hcontent)]
            simp

/-! ### The first chunk -/

/-- The first tool call of the first chunk. -/
theorem firstToolCall_tracks (delta : ChatCompletionsStreamResponseChoiceDelta)
    (htype : info.lastMessagesType = .none) (hindex : info.index = 0) :
    Accepts (slice 0 0 LastMessageType.none) (blocks (firstToolCall delta info).1) ∧
      Tracks (firstToolCall delta info).2 (if delta.toolCalls ≠ [] then .tools 1 0 else .none)
        (after (slice 0 0 LastMessageType.none) (blocks (firstToolCall delta info).1)) := by
  cases htools : delta.toolCalls with
  | nil =>
    simp only [firstToolCall, htools]
    rw [if_neg (by simp)]
    have hnone := Tracks.none htype
    rw [hindex] at hnone
    exact ⟨trivial, hnone⟩
  | cons toolCall rest =>
    simp only [firstToolCall, htools]
    rw [if_pos (List.cons_ne_nil toolCall rest)]
    have hopened : Accepts (slice 0 0 LastMessageType.none) [.opens 0 .tools] :=
      accepts_opens_slice.2 rfl
    have hstate := after_opens_empty 0 LastMessageType.none LastMessageType.tools
    have hafter : after (slice 0 0 LastMessageType.none)
        (blocks (.contentBlockStart 0 (.toolUse toolCall.id toolCall.name) ::
          (if toolCall.arguments ≠ "" then
            [.contentBlockDelta 0 (.inputJsonDelta toolCall.arguments)] else []))) =
        slice 0 1 .tools := by
      split
      · exact hstate
      · exact hstate
    rw [hafter]
    refine ⟨?_, .tools 1 0 rfl rfl (le_refl 0) (by simp)⟩
    split
    · have hsplit : blocks [.contentBlockStart 0 (.toolUse toolCall.id toolCall.name),
          .contentBlockDelta 0 (.inputJsonDelta toolCall.arguments)] =
          [Event.opens 0 .tools] ++ [Event.data 0 .tools] := rfl
      rw [hsplit, accepts_append, hstate]
      exact ⟨hopened, accepts_data_slice.2 (by omega)⟩
    · exact hopened

/-- **The blocks that the first chunk starts** are accepted. -/
theorem firstContent_tracks (info : ClaudeRelayInfo)
    (delta : ChatCompletionsStreamResponseChoiceDelta) (htype : info.lastMessagesType = .none)
    (hindex : info.index = 0) :
    Accepts (slice 0 0 LastMessageType.none) (blocks (firstToolCall delta info).1 ++
        blocks (firstContent delta (firstToolCall delta info).2).1) ∧
      Tracks (firstContent delta (firstToolCall delta info).2).2 (firstPhase delta)
        (after (slice 0 0 LastMessageType.none) (blocks (firstToolCall delta info).1 ++
          blocks (firstContent delta (firstToolCall delta info).2).1)) := by
  obtain ⟨htool, htracks⟩ := firstToolCall_tracks delta htype hindex
  have hended : (if delta.toolCalls ≠ [] then Phase.tools 1 0 else .none).Ended := by
    split
    · simp [Phase.Ended]
    · trivial
  have hlast : (firstToolCall delta info).2.lastMessagesType = .none ∨
      (firstToolCall delta info).2.lastMessagesType = .tools := by
    unfold firstToolCall
    split
    · exact .inl htype
    · exact .inr rfl
  rw [accepts_append, after_append]
  simp only [firstContent, firstPhase]
  split
  · rw [firstBlock_of_ne _ _ (by rcases hlast with h | h <;> simp [h])]
    obtain ⟨haccepts, htracks'⟩ := laterBlock_tracks .thinking
      (.thinkingDelta delta.getReasoningContent) (.inr ⟨rfl, rfl⟩) rfl rfl htracks
    exact ⟨⟨htool, haccepts.2 hended⟩, htracks' hended⟩
  · split
    · rw [firstBlock_of_ne _ _ (by rcases hlast with h | h <;> simp [h])]
      obtain ⟨haccepts, htracks'⟩ := laterBlock_tracks .text
        (.textDelta delta.getContentString) (.inl ⟨rfl, rfl⟩) rfl rfl htracks
      exact ⟨⟨htool, haccepts.2 hended⟩, htracks' hended⟩
    · exact ⟨⟨htool, trivial⟩, htracks⟩

end Converter

/-- **The discipline of content blocks**: the events of a stream obey it exactly if the tool calls are
numbered within each group. -/
theorem block_discipline (estimatePromptTokens : ℤ) (chunks : List ChatCompletionsStreamResponse) :
    BlockDiscipline (handleStream (initialInfo estimatePromptTokens) chunks).1 ↔
      WellNumbered chunks := by
  cases chunks with
  | nil => simp [handleStream, BlockDiscipline, WellNumbered]
  | cons chunk rest =>
    have husage : ((initialInfo estimatePromptTokens).receive chunk).usage = chunk.usage := by
      simp [ClaudeRelayInfo.receive, initialInfo]
    have hstart : ∀ es, blocks (.messageStart chunk.id chunk.model
        ((initialInfo estimatePromptTokens).receive chunk).estimatePromptTokens :: es) =
        blocks es := fun _ => rfl
    simp only [handleStream, BlockDiscipline, WellNumbered]
    rw [handleStreamFormat_first chunk _ rfl rfl, convertFirst]
    cases chunk.choices with
    | nil =>
      have hnone : Tracks ((initialInfo estimatePromptTokens).receive chunk) .none
          (slice 0 0 LastMessageType.none) := .none rfl
      simp only [blocks_append, hstart, blocks_nil, List.nil_append]
      rw [handleStream_tracks rfl (Nat.succ_pos 0) hnone, husage]
    | cons choice others =>
      obtain ⟨haccepts, htracks⟩ := firstContent_tracks
        ((initialInfo estimatePromptTokens).receive chunk) choice.delta rfl rfl
      have hsame := (blocksOnly_firstToolCall choice.delta
        ((initialInfo estimatePromptTokens).receive chunk)).2.trans
        (blocksOnly_firstContent choice.delta _).2
      simp only
      by_cases hfinish : choice.finish = ""
      · simp only [hfinish, ne_eq, not_true_eq_false, if_false, blocks_append, hstart, false_or]
        rw [accepts_append, handleStream_tracks hsame.done
          (by rw [hsame.sendResponseCount]; exact Nat.succ_pos 0) htracks, hsame.usage, husage]
        exact and_iff_right haccepts
      · simp only [hfinish, ne_eq, not_false_eq_true, if_true, blocks_append, hstart, true_or,
          iff_true]
        rw [handleStream_of_done rfl, blocks_nil, List.append_nil, blocks_closeMessage,
          accepts_append]
        refine ⟨haccepts, (stops_finish_tracks (htracks.of_same rfl rfl rfl rfl)).2 ?_⟩
        unfold firstPhase
        split_ifs <;> simp [Phase.Ended]

/-- A chunk with one choice and no finish reason. -/
def deltaChunk (content : Option String) (toolCalls : List ToolCallResponse) :
    ChatCompletionsStreamResponse where
  id := "chatcmpl-1"
  model := "gpt-4o"
  choices := [⟨⟨content, none, none, toolCalls⟩, none⟩]
  usage := none

/-- **Tool calls that are numbered through a text between them**: the second call has the index 1,
but is the first one of its group.  Its block starts at index 3 where 2 is the next. -/
theorem numbering_goes_on :
    (handleStream (initialInfo 10)
      [deltaChunk (some "") [], deltaChunk none [⟨some 0, "call_a", "look", "{}"⟩],
        deltaChunk (some "and") [], deltaChunk none [⟨some 1, "call_b", "look", "{}"⟩]]).1 =
      [.messageStart "chatcmpl-1" "gpt-4o" 10,
        .contentBlockStart 0 (.toolUse "call_a" "look"),
        .contentBlockDelta 0 (.inputJsonDelta "{}"), .contentBlockStop 0,
        .contentBlockStart 1 .text, .contentBlockDelta 1 (.textDelta "and"), .contentBlockStop 1,
        .contentBlockStart 3 (.toolUse "call_b" "look"),
        .contentBlockDelta 3 (.inputJsonDelta "{}")] ∧
    ¬ BlockDiscipline (handleStream (initialInfo 10)
      [deltaChunk (some "") [], deltaChunk none [⟨some 0, "call_a", "look", "{}"⟩],
        deltaChunk (some "and") [], deltaChunk none [⟨some 1, "call_b", "look", "{}"⟩]]).1 := by
  refine (fun hevents => ⟨hevents, ?_⟩) (by decide)
  rw [hevents]
  rintro ⟨_, _, _, _, _, _, hthird, _⟩
  have hindex : (3 : ℤ) = 0 + 1 + 1 := hthird
  simp at hindex

end NewApi
