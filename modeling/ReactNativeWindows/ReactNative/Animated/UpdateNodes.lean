import ReactNativeWindows.Collections.GraphSearch
import ReactNativeWindows.Control.Fuel
import ReactNativeWindows.ReactNative.Animated.AnimatedNodes

/-! `NativeAnimatedNodeManager::UpdateNodes`, which updates nodes after their parents. -/
namespace ReactNative.Animated

open Collections
open Control (Drains Stop Meets)

/-! ### The code -/

inductive NodeCall where
  | update (tag : Tag)
  | updateView (tag : Tag)
  | onValueUpdate (tag : Tag)
  deriving DecidableEq

/-- The maps and the queue of both steps; `nodesCount` is `activeNodesCount` in the first and
`updatedNodesCount` in the second. -/
structure BfsState where
  bfsColors : Tag → Option Int64
  incomingNodeCounts : Tag → Option ℤ
  nodesQueue : List Tag
  nodesCount : ℕ
  calls : List NodeCall

structure UpdateResult where
  activeNodesCount : ℕ
  updatedNodesCount : ℕ
  calls : List NodeCall

inductive MapFault where
  | outOfRange

/-- `m_animatedGraphBFSColor++`, which leaves out `0`. -/
def nextColor (color : Int64) : Int64 := if color + 1 = 0 then color + 1 + 1 else color + 1

namespace BfsState

def start : BfsState := ⟨fun _ => none, fun _ => none, [], 0, []⟩

def setColor (s : BfsState) (id : Tag) (color : Int64) : BfsState :=
  { s with bfsColors := Function.update s.bfsColors id (some color) }

def setCount (s : BfsState) (id : Tag) (count : ℤ) : BfsState :=
  { s with incomingNodeCounts := Function.update s.incomingNodeCounts id (some count) }

def visit (color : Int64) (s : BfsState) (id : Tag) : BfsState :=
  { s.setColor id color with nodesQueue := s.nodesQueue ++ [id], nodesCount := s.nodesCount + 1 }

end BfsState

namespace AnimatedNodes

open BfsState (visit)

variable {F : Type*} (nodes : AnimatedNodes F)

/-! The first step. -/

def enqueue (color : Int64) (s : BfsState) (id : Tag) : BfsState :=
  if s.bfsColors id = some color then s else visit color s id

def countChild (color : Int64) (s : BfsState) (childId : Tag) : BfsState :=
  let count := match s.incomingNodeCounts childId with
    | none => 1
    | some count => count + 1
  enqueue color (s.setCount childId count) childId

def activate (color : Int64) (id : Tag) (s : BfsState) : BfsState :=
  match nodes.getAnimatedNode id with
  | some node => node.children.tags.foldl (countChild color) s
  | none => s

def findActive (color : Int64) : ℕ → BfsState → Except (Stop MapFault) BfsState
  | fuel, s =>
    match s.nodesQueue with
    | [] => .ok s
    | id :: rest =>
      match fuel with
      | 0 => .error .fuel
      | fuel + 1 => findActive color fuel (activate nodes color id { s with nodesQueue := rest })

/-! The second step. -/

def enqueueSource (color : Int64) (s : BfsState) (id : Tag) : Except (Stop MapFault) BfsState :=
  match s.incomingNodeCounts id with
  | none => .ok (visit color s id)
  | some count =>
    if count = 0 then
      match s.bfsColors id with
      | none => .error (.fault .outOfRange)
      | some bfsColor => .ok (if bfsColor = color then s else visit color s id)
    else .ok s

def releaseChild (color : Int64) (s : BfsState) (childId : Tag) : Except (Stop MapFault) BfsState :=
  match s.incomingNodeCounts childId with
  | none => .error (.fault .outOfRange)
  | some incomingCount =>
    match s.bfsColors childId with
    | none => .error (.fault .outOfRange)
    | some bfsColor =>
      let s := s.setCount childId (incomingCount - 1)
      .ok (if bfsColor ≠ color ∧ incomingCount - 1 = 0 then visit color s childId else s)

def callsOf (id : Tag) : List NodeCall :=
  .update id ::
    if (nodes.getPropsAnimatedNode id).isSome then [.updateView id]
    else if (nodes.getValueAnimatedNode id).isSome then [.onValueUpdate id]
    else []

def updateNode (color : Int64) (id : Tag) (s : BfsState) : Except (Stop MapFault) BfsState :=
  match nodes.getAnimatedNode id with
  | some node =>
    node.children.tags.foldlM (releaseChild color) { s with calls := s.calls ++ nodes.callsOf id }
  | none => .ok s

def updateActive (color : Int64) : ℕ → BfsState → Except (Stop MapFault) BfsState
  | fuel, s =>
    match s.nodesQueue with
    | [] => .ok s
    | id :: rest =>
      match fuel with
      | 0 => .error .fuel
      | fuel + 1 => updateNode nodes color id { s with nodesQueue := rest } >>= updateActive color fuel

/-- The fuel is for each of the loops; `animatedGraphBFSColor` is the last color of the call before. -/
def updateNodes (animatedGraphBFSColor : Int64) (starts : TagSet) (fuel : ℕ) :
    Except (Stop MapFault) UpdateResult := do
  let color := nextColor animatedGraphBFSColor
  let active ← findActive nodes color fuel (starts.tags.foldl (enqueue color) .start)
  let color := nextColor color
  let sources ← starts.tags.foldlM (enqueueSource color) { active with nodesCount := 0 }
  let updated ← updateActive nodes color fuel sources
  return ⟨active.nodesCount, updated.nodesCount, updated.calls⟩

/-! ### What is claimed -/

def childrenOf (tag : Tag) : List Tag :=
  match nodes.getAnimatedNode tag with
  | some node => node.children.tags
  | none => []

def updates (calls : List NodeCall) : List Tag :=
  calls.filterMap fun
    | .update tag => some tag
    | _ => none

/-- Each node that is reached is updated once, after its parents that are reached. -/
structure UpdatesInOrder (starts : TagSet) (result : UpdateResult) : Prop where
  once : (updates result.calls).Nodup
  reached_iff : ∀ tag, tag ∈ updates result.calls ↔
    Reaches nodes.childrenOf starts.tags tag ∧ (nodes.getAnimatedNode tag).isSome
  parents_first : ∀ before tag after, updates result.calls = before ++ tag :: after →
    ∀ parent, Reaches nodes.childrenOf starts.tags parent → tag ∈ nodes.childrenOf parent → parent ∈ before
  all_counted : result.activeNodesCount = result.updatedNodesCount

end AnimatedNodes

namespace BfsState

variable {color : Int64} {s : BfsState} {id : Tag}

@[simp] theorem visit_calls : (visit color s id).calls = s.calls := rfl
@[simp] theorem visit_nodesQueue : (visit color s id).nodesQueue = s.nodesQueue ++ [id] := rfl
@[simp] theorem visit_nodesCount : (visit color s id).nodesCount = s.nodesCount + 1 := rfl
@[simp] theorem visit_counts : (visit color s id).incomingNodeCounts = s.incomingNodeCounts := rfl

theorem visit_colors (tag : Tag) :
    (visit color s id).bfsColors tag = if tag = id then some color else s.bfsColors tag := by
  show Function.update s.bfsColors id (some color) tag = _
  rw [Function.update_apply]

theorem setCount_counts (count : ℤ) (tag : Tag) :
    (s.setCount id count).incomingNodeCounts tag = if tag = id then some count else s.incomingNodeCounts tag := by
  show Function.update s.incomingNodeCounts id (some count) tag = _
  rw [Function.update_apply]

end BfsState

namespace AnimatedNodes

variable {F : Type*} {nodes : AnimatedNodes F} {color : Int64}

/-- What the loop over the children of a node does in the first step. -/
structure Counted (color : Int64) (children : List Tag) (s s' : BfsState) : Prop where
  colors : ∀ tag, s'.bfsColors tag = if tag ∈ children then some color else s.bfsColors tag
  counts : ∀ tag, s'.incomingNodeCounts tag =
    if tag ∈ children then some ((s.incomingNodeCounts tag).getD 0 + 1) else s.incomingNodeCounts tag
  queue : s'.nodesQueue = s.nodesQueue ++ children.filter fun tag => s.bfsColors tag ≠ some color
  count : s'.nodesCount
    = s.nodesCount + (children.filter fun tag => s.bfsColors tag ≠ some color).length
  calls : s'.calls = s.calls

variable (color) in
theorem countChild_spec (s : BfsState) (child : Tag) : Counted color [child] s (countChild color s child) := by
  have hCount : countChild color s child
      = enqueue color (s.setCount child ((s.incomingNodeCounts child).getD 0 + 1)) child := by
    rw [countChild]
    cases s.incomingNodeCounts child <;> rfl
  rw [hCount, enqueue]
  split
  next hColored =>
    have hOld : s.bfsColors child = some color := hColored
    constructor
    · intro tag
      simp only [List.mem_singleton]
      split
      next hEq => rw [hEq]; exact hOld
      next => rfl
    · intro tag
      simp only [List.mem_singleton]
      rw [BfsState.setCount_counts]
      split
      next hEq => rw [hEq]
      next => rfl
    · rw [List.filter_cons_of_neg (by simpa using hOld), List.filter_nil, List.append_nil]
      rfl
    · rw [List.filter_cons_of_neg (by simpa using hOld)]
      rfl
    · rfl
  next hWhite =>
    have hNew : s.bfsColors child ≠ some color := hWhite
    constructor
    · intro tag
      simp only [List.mem_singleton]
      rw [BfsState.visit_colors]
      rfl
    · intro tag
      simp only [List.mem_singleton]
      rw [BfsState.visit_counts, BfsState.setCount_counts]
      split
      next hEq => rw [hEq]
      next => rfl
    · rw [List.filter_cons_of_pos (by simpa using hNew)]
      rfl
    · rw [List.filter_cons_of_pos (by simpa using hNew)]
      rfl
    · rfl

variable {children : List Tag}

variable (color) in
theorem countChildren_spec (hNodup : children.Nodup) (s : BfsState) :
    Counted color children s (children.foldl (countChild color) s) := by
  induction children generalizing s with
  | nil =>
    constructor
    · intro tag
      rfl
    · intro tag
      rfl
    · exact (List.append_nil _).symm
    · rfl
    · rfl
  | cons child children ih =>
    obtain ⟨hNot, hRest⟩ := List.nodup_cons.mp hNodup
    have hFirst := countChild_spec color s child
    have hNext := ih hRest (countChild color s child)
    have hFilter : (children.filter fun tag => (countChild color s child).bfsColors tag ≠ some color)
        = children.filter fun tag => s.bfsColors tag ≠ some color := by
      apply List.filter_congr
      intro tag hTag
      have hNe : tag ∉ [child] := fun hMem => hNot (List.mem_singleton.mp hMem ▸ hTag)
      rw [hFirst.colors, if_neg hNe]
    have hSplit : (child :: children).filter (fun tag => s.bfsColors tag ≠ some color)
        = [child].filter (fun tag => s.bfsColors tag ≠ some color)
          ++ children.filter (fun tag => s.bfsColors tag ≠ some color) := by
      rw [← List.filter_append, List.singleton_append]
    rw [List.foldl_cons]
    constructor
    · intro tag
      rw [hNext.colors, hFirst.colors]
      simp only [List.mem_cons, List.not_mem_nil, or_false]
      split_ifs <;> tauto
    · intro tag
      rw [hNext.counts, hFirst.counts]
      simp only [List.mem_cons, List.not_mem_nil, or_false]
      by_cases hEq : tag = child
      · rw [hEq, if_neg hNot, if_pos rfl, if_pos (.inl rfl)]
      · simp only [hEq, if_false, false_or]
    · rw [hNext.queue, hFirst.queue, hFilter, hSplit, List.append_assoc]
    · rw [hNext.count, hFirst.count, hFilter, hSplit, List.length_append, Nat.add_assoc]
    · rw [hNext.calls, hFirst.calls]

/-! ### The first step -/

/-- The maps after some nodes: known nodes are colored, and each child is counted for each of its parents. -/
structure Active (nodes : AnimatedNodes F) (color : Int64) (starts done : List Tag) (s : BfsState) : Prop where
  searched : Searched nodes.childrenOf starts done s.nodesQueue
  colors : ∀ tag, s.bfsColors tag = if tag ∈ done ++ s.nodesQueue then some color else none
  counts : ∀ tag, s.incomingNodeCounts tag =
    if incoming nodes.childrenOf done tag = 0 then none else some (incoming nodes.childrenOf done tag : ℤ)
  count : s.nodesCount = (done ++ s.nodesQueue).length
  calls : s.calls = []

theorem childrenOf_nodup (nodes : AnimatedNodes F) (tag : Tag) : (nodes.childrenOf tag).Nodup := by
  rw [childrenOf]
  split
  next node _ => exact node.children.nodup
  next => exact List.nodup_nil

theorem activate_eq (nodes : AnimatedNodes F) (color : Int64) (id : Tag) (s : BfsState) :
    activate nodes color id s = (nodes.childrenOf id).foldl (countChild color) s := by
  rw [activate, childrenOf]
  cases nodes.getAnimatedNode id <;> rfl

variable {s : BfsState}

variable (color) in
theorem enqueueAll_spec (starts known : List Tag) (hNodup : (known ++ starts).Nodup)
    (hColors : ∀ tag, s.bfsColors tag = if tag ∈ known then some color else none) :
    starts.foldl (enqueue color) s =
      { s with
        bfsColors := fun tag => if tag ∈ known ++ starts then some color else none
        nodesQueue := s.nodesQueue ++ starts
        nodesCount := s.nodesCount + starts.length } := by
  induction starts generalizing s known with
  | nil =>
    have hSame : (fun tag => if tag ∈ known ++ [] then some color else none) = s.bfsColors := by
      funext tag
      rw [hColors tag]
      simp only [List.append_nil]
    rw [hSame, List.append_nil]
    rfl
  | cons start starts ih =>
    have hWhite : s.bfsColors start ≠ some color := by
      have hNot : start ∉ known := fun hMem =>
        (List.nodup_append.mp hNodup).2.2 start hMem start List.mem_cons_self rfl
      rw [hColors, if_neg hNot]
      nofun
    have hStep : enqueue color s start = BfsState.visit color s start := if_neg hWhite
    rw [List.foldl_cons, hStep, ih (known ++ [start])]
    · simp only [List.append_assoc, List.singleton_append, BfsState.visit_nodesQueue,
        BfsState.visit_nodesCount, BfsState.visit_counts, BfsState.visit_calls, List.length_cons,
        Nat.add_assoc, Nat.add_comm 1]
    · rw [List.append_assoc]
      exact hNodup
    · intro tag
      rw [BfsState.visit_colors, hColors]
      simp only [List.mem_append, List.mem_singleton]
      split_ifs <;> tauto

theorem Active.start (nodes : AnimatedNodes F) (color : Int64) (starts : TagSet) :
    Active nodes color starts.tags [] (starts.tags.foldl (enqueue color) .start) := by
  have hAll := enqueueAll_spec color starts.tags [] (s := .start) starts.nodup (fun _ => rfl)
  rw [hAll]
  constructor
  · exact Searched.start starts.nodup
  · intro tag
    rfl
  · intro tag
    rfl
  · exact Nat.zero_add _
  · rfl

variable {starts done : List Tag}

theorem Active.step {rest : List Tag} {id : Tag} (h : Active nodes color starts done s)
    (hQueue : s.nodesQueue = id :: rest) :
    Active nodes color starts (done ++ [id]) (activate nodes color id { s with nodesQueue := rest }) := by
  have hChildren := childrenOf_nodup nodes id
  have hCounted := countChildren_spec color hChildren { s with nodesQueue := rest }
  rw [activate_eq]
  have hKnown := h.colors
  have hSearched := h.searched
  have hCount := h.count
  rw [hQueue] at hKnown hSearched hCount
  have hFresh : (nodes.childrenOf id).filter (fun tag => s.bfsColors tag ≠ some color)
      = fresh nodes.childrenOf (done ++ id :: rest) id := by
    apply List.filter_congr
    intro tag _
    rw [hKnown]
    by_cases hMem : tag ∈ done ++ id :: rest
    · simp [hMem]
    · simp [hMem]
  have hQueue' := hCounted.queue
  dsimp only at hQueue'
  rw [hFresh] at hQueue'
  constructor
  · rw [hQueue']
    exact hSearched.step hChildren
  · intro tag
    rw [hCounted.colors, hQueue']
    dsimp only
    rw [hKnown]
    have hMem : tag ∈ done ++ [id] ++ (rest ++ fresh nodes.childrenOf (done ++ id :: rest) id) ↔
        tag ∈ nodes.childrenOf id ∨ tag ∈ done ++ id :: rest := by
      rw [← append_done, List.mem_append, mem_fresh_iff]
      tauto
    simp only [hMem]
    split_ifs <;> tauto
  · intro tag
    rw [hCounted.counts]
    dsimp only
    rw [h.counts, incoming_concat]
    by_cases hChild : tag ∈ nodes.childrenOf id
    · simp only [if_pos hChild, Nat.add_eq_zero_iff, one_ne_zero, and_false, if_false]
      by_cases hZero : incoming nodes.childrenOf done tag = 0
      · rw [if_pos hZero, hZero]
        rfl
      · rw [if_neg hZero]
        rfl
    · simp only [if_neg hChild, Nat.add_zero]
  · rw [hCounted.count, hQueue']
    dsimp only
    rw [hFresh, hCount]
    simp only [List.length_append, List.length_cons, List.length_nil]
    omega
  · exact hCounted.calls.trans h.calls

def knownTags (nodes : AnimatedNodes F) (starts : TagSet) : List Tag :=
  starts.tags ++ nodes.valueNodes.flatMap (fun entry => entry.2.children.tags)
    ++ nodes.styleNodes.flatMap (fun entry => entry.2.children.tags)
    ++ nodes.propsNodes.flatMap (fun entry => entry.2.children.tags)
    ++ nodes.transformNodes.flatMap (fun entry => entry.2.children.tags)
    ++ nodes.trackingNodes.flatMap (fun entry => entry.2.children.tags)

theorem mem_children_of_lookup {α : Type*} {entries : Entries Tag α} {tag child : Tag} {node : α}
    (children : α → List Tag) (h : entries.lookup tag = some node) (hChild : child ∈ children node) :
    child ∈ entries.flatMap fun entry => children entry.2 :=
  List.mem_flatMap.mpr ⟨(tag, node), Entries.mem_of_lookup h, hChild⟩

theorem starts_subset (nodes : AnimatedNodes F) (starts : TagSet) :
    ∀ tag ∈ starts.tags, tag ∈ nodes.knownTags starts := by
  intro tag hStart
  simp only [knownTags, List.mem_append]
  tauto

theorem childrenOf_subset (nodes : AnimatedNodes F) (starts : TagSet) (tag : Tag) :
    ∀ child ∈ nodes.childrenOf tag, child ∈ nodes.knownTags starts := by
  intro child hChild
  rw [childrenOf] at hChild
  simp only [knownTags, List.mem_append]
  split at hChild
  next node hNode =>
    rw [getAnimatedNode] at hNode
    split at hNode
    next value hValue =>
      cases hNode
      have hMem := mem_children_of_lookup (fun node => node.children.tags) hValue hChild
      tauto
    split at hNode
    next style hStyle =>
      cases hNode
      have hMem := mem_children_of_lookup (fun node => node.children.tags) hStyle hChild
      tauto
    split at hNode
    next props hProps =>
      cases hNode
      have hMem := mem_children_of_lookup (fun node => node.children.tags) hProps hChild
      tauto
    split at hNode
    next transform hTransform =>
      cases hNode
      have hMem := mem_children_of_lookup (fun node => node.children.tags) hTransform hChild
      tauto
    next =>
      obtain ⟨tracking, hTracking, rfl⟩ := Option.map_eq_some_iff.mp hNode
      have hMem := mem_children_of_lookup (fun node => node.children.tags) hTracking hChild
      tauto
  next => cases hChild

variable (nodes color) in
theorem findActive_drains : Drains BfsState.nodesQueue
    (fun s id rest => .ok (activate nodes color id { s with nodesQueue := rest }))
    (findActive nodes color) := by
  constructor
  · intro fuel s hQueue
    rw [findActive.eq_def]
    dsimp only
    rw [hQueue]
  · intro s id rest hQueue
    rw [findActive.eq_def]
    dsimp only
    rw [hQueue]
  · intro fuel s id rest hQueue
    rw [findActive.eq_def]
    dsimp only
    rw [hQueue]
    rfl

/-- With fuel for all tags, the first step ends with all that is reached. -/
theorem findActive_meets {starts : TagSet} (fuel : ℕ) (h : Active nodes color starts.tags done s) :
    Meets ((nodes.knownTags starts).length ≤ done.length + fuel)
      (fun s' => ∃ done', Active nodes color starts.tags done' s' ∧ s'.nodesQueue = [])
      (findActive nodes color fuel s) := by
  apply (findActive_drains nodes color).meets
  · intro done s hActive
    exact hActive.searched.length_le (nodes.knownTags starts) (nodes.starts_subset starts)
      (nodes.childrenOf_subset starts)
  · intro done s id rest hActive hQueue
    exact ⟨_, rfl, hActive.step hQueue⟩
  · exact h

/-! ### Children of the second step -/

def waitsForOne (color : Int64) (s : BfsState) (tag : Tag) : Prop :=
  s.bfsColors tag ≠ some color ∧ s.incomingNodeCounts tag = some 1

instance (color : Int64) (s : BfsState) (tag : Tag) : Decidable (waitsForOne color s tag) :=
  inferInstanceAs (Decidable (_ ∧ _))

structure Released (color : Int64) (children : List Tag) (s s' : BfsState) : Prop where
  colors : ∀ tag, s'.bfsColors tag =
    if tag ∈ children ∧ waitsForOne color s tag then some color else s.bfsColors tag
  counts : ∀ tag, s'.incomingNodeCounts tag =
    if tag ∈ children then (s.incomingNodeCounts tag).map (· - 1) else s.incomingNodeCounts tag
  queue : s'.nodesQueue = s.nodesQueue ++ children.filter fun tag => waitsForOne color s tag
  count : s'.nodesCount = s.nodesCount + (children.filter fun tag => waitsForOne color s tag).length
  calls : s'.calls = s.calls

/-- What `at` needs to find both values. -/
def Listed (s : BfsState) (tag : Tag) : Prop :=
  (s.bfsColors tag).isSome ∧ (s.incomingNodeCounts tag).isSome

variable (color) in
theorem releaseChild_spec {child : Tag} (h : Listed s child) :
    ∃ s', releaseChild color s child = .ok s' ∧ Released color [child] s s' := by
  obtain ⟨bfsColor, hColor⟩ := Option.isSome_iff_exists.mp h.1
  obtain ⟨count, hCount⟩ := Option.isSome_iff_exists.mp h.2
  rw [releaseChild, hCount]
  dsimp only
  rw [hColor]
  dsimp only
  refine ⟨_, rfl, ?_⟩
  have hWaits : waitsForOne color s child ↔ bfsColor ≠ color ∧ count - 1 = 0 := by
    have hSub : count - 1 = 0 ↔ count = 1 := by omega
    rw [waitsForOne, hColor, hCount, hSub, Ne, Ne, Option.some.injEq, Option.some.injEq]
  split
  next hReady =>
    have hOne := hWaits.mpr hReady
    constructor
    · intro tag
      rw [BfsState.visit_colors]
      simp only [List.mem_singleton]
      by_cases hEq : tag = child
      · rw [if_pos hEq, if_pos ⟨hEq, hEq ▸ hOne⟩]
      · rw [if_neg hEq, if_neg (fun hBoth => hEq hBoth.1)]
        rfl
    · intro tag
      rw [BfsState.visit_counts, BfsState.setCount_counts]
      simp only [List.mem_singleton]
      by_cases hEq : tag = child
      · rw [if_pos hEq, if_pos hEq, hEq, hCount]
        rfl
      · rw [if_neg hEq, if_neg hEq]
    · rw [List.filter_cons_of_pos (by simpa using hOne)]
      rfl
    · rw [List.filter_cons_of_pos (by simpa using hOne)]
      rfl
    · rfl
  next hNot =>
    have hOther : ¬ waitsForOne color s child := fun hOne => hNot (hWaits.mp hOne)
    constructor
    · intro tag
      simp only [List.mem_singleton]
      by_cases hEq : tag = child
      · rw [if_neg (fun hBoth => hOther (hEq ▸ hBoth.2))]
        rfl
      · rw [if_neg (fun hBoth => hEq hBoth.1)]
        rfl
    · intro tag
      rw [BfsState.setCount_counts]
      simp only [List.mem_singleton]
      by_cases hEq : tag = child
      · rw [if_pos hEq, if_pos hEq, hEq, hCount]
        rfl
      · rw [if_neg hEq, if_neg hEq]
    · rw [List.filter_cons_of_neg (by simpa using hOther), List.filter_nil, List.append_nil]
      rfl
    · rw [List.filter_cons_of_neg (by simpa using hOther)]
      rfl
    · rfl

variable (color) in
theorem releaseChildren_spec (hNodup : children.Nodup) (hListed : ∀ tag ∈ children, Listed s tag) :
    ∃ s', children.foldlM (releaseChild color) s = .ok s' ∧ Released color children s s' := by
  induction children generalizing s with
  | nil =>
    refine ⟨s, rfl, ?_⟩
    constructor
    · intro tag
      rw [if_neg (fun hBoth => nomatch hBoth.1)]
    · intro tag
      rfl
    · exact (List.append_nil _).symm
    · rfl
    · rfl
  | cons child children ih =>
    obtain ⟨hNot, hRest⟩ := List.nodup_cons.mp hNodup
    obtain ⟨middle, hStep, hFirst⟩ := releaseChild_spec color (hListed child List.mem_cons_self)
    have hSame : ∀ tag ∈ children, middle.bfsColors tag = s.bfsColors tag ∧
        middle.incomingNodeCounts tag = s.incomingNodeCounts tag := by
      intro tag hTag
      have hNe : tag ∉ [child] := fun hMem => hNot (List.mem_singleton.mp hMem ▸ hTag)
      constructor
      · rw [hFirst.colors, if_neg (fun hBoth => hNe hBoth.1)]
      · rw [hFirst.counts, if_neg hNe]
    have hWaits : ∀ tag ∈ children, waitsForOne color middle tag ↔ waitsForOne color s tag := by
      intro tag hTag
      obtain ⟨hColors, hCounts⟩ := hSame tag hTag
      rw [waitsForOne, waitsForOne, hColors, hCounts]
    have hListed' : ∀ tag ∈ children, Listed middle tag := by
      intro tag hTag
      obtain ⟨hColors, hCounts⟩ := hSame tag hTag
      rw [Listed, hColors, hCounts]
      exact hListed tag (List.mem_cons_of_mem _ hTag)
    obtain ⟨s', hRun, hNext⟩ := ih hRest hListed'
    have hFilter : (children.filter fun tag => waitsForOne color middle tag)
        = children.filter fun tag => waitsForOne color s tag := by
      apply List.filter_congr
      intro tag hTag
      rw [decide_eq_decide]
      exact hWaits tag hTag
    have hSplit : (child :: children).filter (fun tag => waitsForOne color s tag)
        = [child].filter (fun tag => waitsForOne color s tag)
          ++ children.filter (fun tag => waitsForOne color s tag) := by
      rw [← List.filter_append, List.singleton_append]
    refine ⟨s', ?_, ?_⟩
    · rw [List.foldlM_cons, hStep]
      exact hRun
    constructor
    · intro tag
      rw [hNext.colors, hFirst.colors]
      by_cases hTag : tag ∈ children
      · have hNe : tag ∉ [child] := fun hMem => hNot (List.mem_singleton.mp hMem ▸ hTag)
        simp only [hTag, hWaits tag hTag, hNe, List.mem_cons, or_true, true_and, false_and, if_false]
      · simp only [hTag, List.mem_cons, List.not_mem_nil, or_false, false_and, if_false]
    · intro tag
      rw [hNext.counts, hFirst.counts]
      simp only [List.mem_cons, List.not_mem_nil, or_false]
      by_cases hEq : tag = child
      · rw [hEq, if_neg hNot, if_pos rfl, if_pos (.inl rfl)]
      · simp only [hEq, if_false, false_or]
    · rw [hNext.queue, hFirst.queue, hFilter, hSplit, List.append_assoc]
    · rw [hNext.count, hFirst.count, hFilter, hSplit, List.length_append, Nat.add_assoc]
    · rw [hNext.calls, hFirst.calls]

/-! ### The second step -/

/-- The maps after some of the nodes that the first step found: those that are done or queued have the new
color, and the counts are of the parents that are not done. -/
structure Updating (nodes : AnimatedNodes F) (old color : Int64) (all done : List Tag) (s : BfsState) :
    Prop where
  ordered : Ordered nodes.childrenOf all done s.nodesQueue
  colors : ∀ tag ∈ all, s.bfsColors tag = some (if tag ∈ done ++ s.nodesQueue then color else old)
  counts : ∀ tag ∈ all, incoming nodes.childrenOf all tag ≠ 0 →
    s.incomingNodeCounts tag = some (waiting nodes.childrenOf all done tag : ℤ)
  count : s.nodesCount = (done ++ s.nodesQueue).length
  calls : s.calls = (done.filter fun tag => (nodes.getAnimatedNode tag).isSome).flatMap nodes.callsOf

def recordCalls (nodes : AnimatedNodes F) (id : Tag) (s : BfsState) : BfsState :=
  { s with calls :=
      s.calls ++ ([id].filter fun tag => (nodes.getAnimatedNode tag).isSome).flatMap nodes.callsOf }

theorem updateNode_eq (nodes : AnimatedNodes F) (color : Int64) (id : Tag) (s : BfsState) :
    updateNode nodes color id s
      = (nodes.childrenOf id).foldlM (releaseChild color) (recordCalls nodes id s) := by
  rw [updateNode, childrenOf, recordCalls]
  cases hNode : nodes.getAnimatedNode id with
  | none =>
    rw [List.filter_cons_of_neg (by simp [hNode]), List.filter_nil, List.flatMap_nil, List.append_nil]
    rfl
  | some node =>
    rw [List.filter_cons_of_pos (by simp [hNode]), List.filter_nil, List.flatMap_singleton]

section Step

variable {old : Int64} {starts all done rest : List Tag} {id : Tag} {s : BfsState}

theorem all_nodup (hFound : Searched nodes.childrenOf starts all []) : all.Nodup := by
  have hNodup := hFound.nodup
  rwa [List.append_nil] at hNodup

theorem all_closed (hFound : Searched nodes.childrenOf starts all []) :
    ∀ parent ∈ all, ∀ child ∈ nodes.childrenOf parent, child ∈ all := by
  intro parent hParent child hChild
  have hMem := hFound.closed parent hParent child hChild
  rwa [List.append_nil] at hMem

theorem incoming_of_child {child : Tag} (hId : id ∈ all) (hChild : child ∈ nodes.childrenOf id) :
    incoming nodes.childrenOf all child ≠ 0 := by
  rw [← waiting_nil, Ne, waiting_eq_zero_iff]
  intro hNone
  exact nomatch hNone id hId hChild

theorem Updating.listed (hFound : Searched nodes.childrenOf starts all [])
    (h : Updating nodes old color all done s) (hId : id ∈ all) :
    ∀ child ∈ nodes.childrenOf id, Listed s child := by
  intro child hChild
  have hAll := all_closed hFound id hId child hChild
  constructor
  · rw [h.colors child hAll]
    rfl
  · rw [h.counts child hAll (incoming_of_child hId hChild)]
    rfl

/-- A child waits for one parent if it gets ready without this one. -/
theorem Updating.waitsForOne_iff (hColors : old ≠ color) (hFound : Searched nodes.childrenOf starts all [])
    (h : Updating nodes old color all done s) (hQueue : s.nodesQueue = id :: rest) {child : Tag}
    (hChild : child ∈ nodes.childrenOf id) :
    waitsForOne color s child ↔
      child ∉ done ++ id :: rest ∧ waiting nodes.childrenOf all (done ++ [id]) child = 0 := by
  have hOrdered := h.ordered
  rw [hQueue] at hOrdered
  have hId : id ∈ all := hOrdered.subset id (List.mem_append_right _ List.mem_cons_self)
  have hNot : id ∉ done := fun hDone =>
    (List.nodup_append.mp hOrdered.nodup).2.2 id hDone id List.mem_cons_self rfl
  have hAll := all_closed hFound id hId child hChild
  have hStep := waiting_step nodes.childrenOf (all_nodup hFound) hId hNot child
  rw [if_pos hChild] at hStep
  rw [waitsForOne, h.colors child hAll, h.counts child hAll (incoming_of_child hId hChild), Ne,
    Option.some.injEq, Option.some.injEq, hQueue]
  split
  next hOld => simp [hOld]
  next hNew =>
    simp only [hColors, hNew, not_false_eq_true, true_and]
    omega

theorem Updating.step (hColors : old ≠ color) (hFound : Searched nodes.childrenOf starts all [])
    (h : Updating nodes old color all done s) (hQueue : s.nodesQueue = id :: rest) :
    ∃ s', updateNode nodes color id { s with nodesQueue := rest } = .ok s' ∧
      Updating nodes old color all (done ++ [id]) s' := by
  have hOrdered := h.ordered
  have hKnown := h.colors
  have hCount := h.count
  rw [hQueue] at hOrdered hKnown hCount
  have hId : id ∈ all := hOrdered.subset id (List.mem_append_right _ List.mem_cons_self)
  have hNot : id ∉ done := fun hDone =>
    (List.nodup_append.mp hOrdered.nodup).2.2 id hDone id List.mem_cons_self rfl
  have hChildren := childrenOf_nodup nodes id
  obtain ⟨s', hRun, hReleased⟩ := releaseChildren_spec color hChildren
    (s := recordCalls nodes id { s with nodesQueue := rest })
    (fun child hChild => h.listed hFound hId child hChild)
  have hWaits : ∀ child ∈ nodes.childrenOf id,
      (waitsForOne color (recordCalls nodes id { s with nodesQueue := rest }) child ↔
        child ∉ done ++ id :: rest ∧ waiting nodes.childrenOf all (done ++ [id]) child = 0) :=
    fun child hChild => h.waitsForOne_iff hColors hFound hQueue hChild
  have hReadied : (nodes.childrenOf id).filter
      (fun child => waitsForOne color (recordCalls nodes id { s with nodesQueue := rest }) child)
      = readied nodes.childrenOf all done rest id := by
    apply List.filter_congr
    intro child hChild
    rw [decide_eq_decide]
    exact hWaits child hChild
  have hQueue' : s'.nodesQueue = rest ++ readied nodes.childrenOf all done rest id := by
    rw [hReleased.queue, hReadied]
    rfl
  refine ⟨s', (updateNode_eq nodes color id _).trans hRun, ?_⟩
  constructor
  · rw [hQueue']
    exact hOrdered.step (all_nodup hFound) (all_closed hFound) hChildren
  · intro tag hAll
    have hNew : tag ∈ nodes.childrenOf id ∧
        waitsForOne color (recordCalls nodes id { s with nodesQueue := rest }) tag ↔
          tag ∈ readied nodes.childrenOf all done rest id := by
      rw [mem_readied_iff]
      exact and_congr_right (hWaits tag)
    have hMem : tag ∈ done ++ [id] ++ (rest ++ readied nodes.childrenOf all done rest id) ↔
        tag ∈ done ++ id :: rest ∨ tag ∈ readied nodes.childrenOf all done rest id := by
      rw [← append_done, List.mem_append]
    have hOld : (recordCalls nodes id { s with nodesQueue := rest }).bfsColors tag
        = some (if tag ∈ done ++ id :: rest then color else old) := hKnown tag hAll
    rw [hReleased.colors, hQueue', hOld]
    simp only [hNew, hMem]
    split_ifs <;> tauto
  · intro tag hAll hParents
    have hOld : (recordCalls nodes id { s with nodesQueue := rest }).incomingNodeCounts tag
        = some (waiting nodes.childrenOf all done tag : ℤ) := h.counts tag hAll hParents
    rw [hReleased.counts, hOld, waiting_step nodes.childrenOf (all_nodup hFound) hId hNot tag]
    by_cases hChild : tag ∈ nodes.childrenOf id
    · rw [if_pos hChild, if_pos hChild, Option.map_some]
      congr 1
      omega
    · rw [if_neg hChild, if_neg hChild, Nat.add_zero]
  · rw [hReleased.count, hReadied, hQueue']
    show s.nodesCount + _ = _
    rw [hCount]
    simp only [List.length_append, List.length_cons, List.length_nil]
    omega
  · rw [hReleased.calls, List.filter_append, List.flatMap_append, ← h.calls]
    rfl

end Step

variable (nodes color) in
theorem updateActive_drains : Drains BfsState.nodesQueue
    (fun s id rest => updateNode nodes color id { s with nodesQueue := rest }) (updateActive nodes color) := by
  constructor
  · intro fuel s hQueue
    rw [updateActive.eq_def]
    dsimp only
    rw [hQueue]
  · intro s id rest hQueue
    rw [updateActive.eq_def]
    dsimp only
    rw [hQueue]
  · intro fuel s id rest hQueue
    rw [updateActive.eq_def]
    dsimp only
    rw [hQueue]

variable {old : Int64} {all : List Tag}

theorem Updating.length_le (h : Updating nodes old color all done s) :
    (done ++ s.nodesQueue).length ≤ all.length :=
  (h.ordered.nodup.subperm h.ordered.subset).length_le

theorem updateActive_meets (hColors : old ≠ color)
    (hFound : Searched nodes.childrenOf starts all []) (fuel : ℕ)
    (h : Updating nodes old color all done s) :
    Meets (all.length ≤ done.length + fuel)
      (fun s' => ∃ done', Updating nodes old color all done' s' ∧ s'.nodesQueue = [])
      (updateActive nodes color fuel s) := by
  apply (updateActive_drains nodes color).meets
  · intro done s hUpdating
    exact hUpdating.length_le
  · intro done s id rest hUpdating hQueue
    exact hUpdating.step hColors hFound hQueue
  · exact h

/-! ### Between the steps -/

theorem enqueueSource_spec {id : Tag} {count : ℕ}
    (h : s.incomingNodeCounts id = if count = 0 then none else some (count : ℤ)) :
    enqueueSource color s id = .ok (if count = 0 then BfsState.visit color s id else s) := by
  rw [enqueueSource, h]
  by_cases hZero : count = 0
  · rw [if_pos hZero, if_pos hZero]
  · rw [if_neg hZero, if_neg hZero]
    exact if_neg (by simpa using hZero)

/-- The starts that have no parents are queued, in their order. -/
theorem enqueueSources_spec {counts : Tag → ℕ}
    (h : ∀ tag, s.incomingNodeCounts tag = if counts tag = 0 then none else some (counts tag : ℤ)) :
    starts.foldlM (enqueueSource color) s = .ok
      { s with
        bfsColors := fun tag =>
          if tag ∈ starts.filter (fun tag => counts tag = 0) then some color else s.bfsColors tag
        nodesQueue := s.nodesQueue ++ starts.filter (fun tag => counts tag = 0)
        nodesCount := s.nodesCount + (starts.filter fun tag => counts tag = 0).length } := by
  induction starts generalizing s with
  | nil =>
    rw [List.filter_nil, List.append_nil]
    rfl
  | cons start starts ih =>
    rw [List.foldlM_cons, enqueueSource_spec (h start)]
    show List.foldlM _ (if counts start = 0 then BfsState.visit color s start else s) starts = _
    by_cases hZero : counts start = 0
    · rw [if_pos hZero, ih (by exact h), List.filter_cons_of_pos (by simpa using hZero)]
      simp only [BfsState.visit_nodesQueue, BfsState.visit_nodesCount, BfsState.visit_counts,
        BfsState.visit_calls, List.append_assoc, List.singleton_append, List.length_cons, Nat.add_assoc,
        Nat.add_comm 1]
      congr 2
      funext tag
      rw [BfsState.visit_colors]
      simp only [List.mem_cons]
      split_ifs <;> tauto
    · rw [if_neg hZero, ih h, List.filter_cons_of_neg (by simpa using hZero)]

variable (color) in
theorem Updating.start (hStarts : starts.Nodup) (h : Active nodes old starts all s)
    (hQueue : s.nodesQueue = []) :
    ∃ s', starts.foldlM (enqueueSource color) { s with nodesCount := 0 } = .ok s' ∧
      Updating nodes old color all [] s' := by
  have hFound := h.searched
  have hColors := h.colors
  rw [hQueue] at hFound hColors
  have hCounts : ∀ tag, ({ s with nodesCount := 0 } : BfsState).incomingNodeCounts tag =
      if incoming nodes.childrenOf all tag = 0 then none
      else some (incoming nodes.childrenOf all tag : ℤ) := h.counts
  refine ⟨_, enqueueSources_spec hCounts, ?_⟩
  dsimp only
  rw [hQueue]
  constructor
  · constructor
    · exact hStarts.filter _
    · intro tag hMem
      have hStart := hFound.starts tag (List.mem_filter.mp hMem).1
      rwa [List.append_nil] at hStart
    · intro tag hAll
      rw [waiting_nil]
      constructor
      · intro hMem
        exact of_decide_eq_true (List.mem_filter.mp hMem).2
      · intro hZero
        refine List.mem_filter.mpr ⟨?_, decide_eq_true hZero⟩
        rcases hFound.parent hAll with hStart | ⟨parent, hParent, hChild⟩
        · exact hStart
        · exact absurd hZero (incoming_of_child hParent hChild)
    · intro before tag after hSplit
      exact absurd hSplit.symm (by simp)
  · intro tag hAll
    have hOld : s.bfsColors tag = some old := by
      rw [hColors, if_pos (List.mem_append_left _ hAll)]
    dsimp only
    rw [hOld]
    simp only [List.nil_append]
    split_ifs <;> rfl
  · intro tag _ hParents
    dsimp only
    rw [h.counts, if_neg hParents, waiting_nil]
  · exact Nat.zero_add _
  · exact h.calls

/-! ### Main results -/

theorem nextColor_ne (color : Int64) : color ≠ nextColor color := by
  have hOne : Int64.toBitVec 1 = 1#64 := rfl
  rw [nextColor]
  split
  next =>
    intro hEq
    have hBits := congrArg Int64.toBitVec hEq
    rw [Int64.toBitVec_add, Int64.toBitVec_add, hOne] at hBits
    bv_omega
  next =>
    intro hEq
    have hBits := congrArg Int64.toBitVec hEq
    rw [Int64.toBitVec_add, hOne] at hBits
    bv_omega

theorem updates_callsOf (nodes : AnimatedNodes F) (tag : Tag) : updates (nodes.callsOf tag) = [tag] := by
  rw [callsOf, updates]
  split_ifs <;> rfl

theorem updates_flatMap (nodes : AnimatedNodes F) (tags : List Tag) :
    updates (tags.flatMap nodes.callsOf) = tags := by
  induction tags with
  | nil => rfl
  | cons tag tags ih =>
    have hHead := updates_callsOf nodes tag
    rw [updates] at ih hHead ⊢
    rw [List.flatMap_cons, List.filterMap_append, ih, hHead, List.singleton_append]

theorem Updating.inOrder {starts : TagSet} (hFound : Searched nodes.childrenOf starts.tags all [])
    (h : Updating nodes old color all done s) (hQueue : s.nodesQueue = [])
    (hAcyclic : Acyclic nodes.childrenOf) :
    UpdatesInOrder nodes starts ⟨all.length, s.nodesCount, s.calls⟩ := by
  have hOrdered := h.ordered
  have hCount := h.count
  rw [hQueue] at hOrdered hCount
  rw [List.append_nil] at hCount
  have hNodup : done.Nodup := by
    have hNodup := hOrdered.nodup
    rwa [List.append_nil] at hNodup
  have hSubset : ∀ tag ∈ done, tag ∈ all := fun tag hMem =>
    hOrdered.subset tag (List.mem_append_left _ hMem)
  have hAll := hOrdered.all_done hAcyclic
  have hUpdates : updates s.calls = done.filter fun tag => (nodes.getAnimatedNode tag).isSome := by
    rw [h.calls, updates_flatMap]
  constructor
  · show (updates s.calls).Nodup
    rw [hUpdates]
    exact hNodup.filter _
  · intro tag
    show tag ∈ updates s.calls ↔ _
    rw [hUpdates, List.mem_filter, ← hFound.mem_iff]
    exact and_congr_left fun _ => ⟨hSubset tag, hAll tag⟩
  · intro before tag after hSplit parent hReaches hChild
    have hSplit' : (done.filter fun tag => (nodes.getAnimatedNode tag).isSome) = before ++ tag :: after :=
      hUpdates.symm.trans hSplit
    obtain ⟨first, second, hDone, hBefore, hRest⟩ := List.filter_eq_append_iff.mp hSplit'
    obtain ⟨skipped, third, hSecond, hSkipped, -, -⟩ := List.filter_eq_cons_iff.mp hRest
    have hParentAll := (hFound.mem_iff parent).mpr hReaches
    have hParent : parent ∈ first ++ skipped := by
      apply hOrdered.parents (first ++ skipped) tag third _ parent hParentAll hChild
      rw [hDone, hSecond, List.append_assoc]
    have hNode : (nodes.getAnimatedNode parent).isSome = true := by
      rw [childrenOf] at hChild
      split at hChild
      next node hNode => rw [hNode]; rfl
      next => cases hChild
    rcases List.mem_append.mp hParent with hFirst | hSkip
    · rw [← hBefore]
      exact List.mem_filter.mpr ⟨hFirst, hNode⟩
    · exact absurd hNode (hSkipped parent hSkip)
  · show all.length = s.nodesCount
    rw [hCount]
    apply Nat.le_antisymm
    · exact ((all_nodup hFound).subperm hAll).length_le
    · exact (hNodup.subperm hSubset).length_le

/-- `UpdateNodes` returns for every graph; where it has no cycle, each node that is reached is updated once and
after its parents. -/
theorem updateNodes_inOrder (nodes : AnimatedNodes F) (animatedGraphBFSColor : Int64) (starts : TagSet) :
    ∃ enough, ∀ fuel ≥ enough, ∃ result,
      nodes.updateNodes animatedGraphBFSColor starts fuel = .ok result ∧
        (Acyclic nodes.childrenOf → UpdatesInOrder nodes starts result) := by
  refine ⟨(nodes.knownTags starts).length, ?_⟩
  intro fuel hFuel
  have hFirst := findActive_meets fuel (Active.start nodes (nextColor animatedGraphBFSColor) starts)
  obtain ⟨active, hActive, all, hAll, hQueue⟩ := hFirst.exists_ok (by simpa using hFuel)
  have hFound := hAll.searched
  rw [hQueue] at hFound
  obtain ⟨sources, hSources, hStart⟩ := Updating.start
    (nextColor (nextColor animatedGraphBFSColor)) starts.nodup hAll hQueue
  have hSecond := updateActive_meets (nextColor_ne _) hFound fuel hStart
  have hLength : all.length ≤ (nodes.knownTags starts).length := by
    have hLe := hFound.length_le (nodes.knownTags starts) (nodes.starts_subset starts)
      (nodes.childrenOf_subset starts)
    rwa [List.append_nil] at hLe
  obtain ⟨updated, hUpdated, done, hDone, hEmpty⟩ := hSecond.exists_ok (by simpa using hLength.trans hFuel)
  refine ⟨⟨active.nodesCount, updated.nodesCount, updated.calls⟩, ?_, ?_⟩
  · rw [updateNodes, hActive]
    show (do
      let sources ← starts.tags.foldlM _ _
      let updated ← updateActive nodes _ fuel sources
      return (⟨active.nodesCount, updated.nodesCount, updated.calls⟩ : UpdateResult)) = _
    rw [hSources]
    show (do
      let updated ← updateActive nodes _ fuel sources
      return (⟨active.nodesCount, updated.nodesCount, updated.calls⟩ : UpdateResult)) = _
    rw [hUpdated]
    rfl
  · intro hAcyclic
    have hCount := hAll.count
    rw [hQueue, List.append_nil] at hCount
    rw [hCount]
    exact hDone.inOrder hFound hEmpty hAcyclic

end AnimatedNodes

end ReactNative.Animated
