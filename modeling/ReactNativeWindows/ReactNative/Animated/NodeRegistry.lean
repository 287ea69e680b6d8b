import ReactNativeWindows.Control.Traces
import ReactNativeWindows.ReactNative.Animated.AnimatedNodes

/-! Which nodes a `NativeAnimatedNodeManager` has while nodes are created, dropped and set. -/
namespace ReactNative.Animated

open Collections (Entries)
open Control (Along Allowed)

inductive AnimatedNodeType where
  | style | value | props | interpolation | addition | subtraction | division | multiplication
  | modulus | diffclamp | transform | tracking
  deriving DecidableEq

def AnimatedNodeType.fromString (string : String) : AnimatedNodeType :=
  if string = "style" then .style
  else if string = "value" then .value
  else if string = "props" then .props
  else if string = "interpolation" then .interpolation
  else if string = "addition" then .addition
  else if string = "subtraction" then .subtraction
  else if string = "division" then .division
  else if string = "multiplication" then .multiplication
  else if string = "modulus" then .modulus
  else if string = "diffclamp" then .diffclamp
  else if string = "transform" then .transform
  else .tracking

structure NodeConfig (F : Type*) where
  type : String
  useComposition : Bool
  value : Option F
  offset : Option F
  animationId : AnimationId
  toValue : Tag
  valueId : Tag

/-- The operations on numbers; `toFloat` is the value that a property set keeps. -/
structure Arithmetic (F : Type*) where
  ne : F → F → Bool
  add : F → F → F
  zero : F
  toFloat : F → F

def emplace {α : Type*} (tag : Tag) (node : α) (entries : Entries Tag α) : Entries Tag α :=
  if (entries.lookup tag).isSome then entries else (tag, node) :: entries

variable {F : Type*} (R : Arithmetic F)

def AnimatedNode.make (config : NodeConfig F) : AnimatedNode := ⟨config.useComposition, .empty⟩

def ValueAnimatedNode.make (config : NodeConfig F) : ValueAnimatedNode F :=
  let both := config.value.bind fun value => config.offset.map fun offset => (value, offset)
  let (value, offset) := both.getD (R.zero, R.zero)
  let keep := if config.useComposition then R.toFloat else id
  ⟨.make config, keep value, keep offset, .empty⟩

def TrackingAnimatedNode.make (config : NodeConfig F) : TrackingAnimatedNode :=
  ⟨.make config, config.animationId, config.toValue, config.valueId⟩

namespace AnimatedNodes

variable (nodes : AnimatedNodes F)

def setNode (tag : Tag) (node : ValueAnimatedNode F) : AnimatedNodes F :=
  { nodes with valueNodes := Entries.set tag node nodes.valueNodes }

def addActiveTrackingNode (tag trackingNodeTag : Tag) : AnimatedNodes F :=
  match nodes.valueNodes.lookup tag with
  | some node =>
    nodes.setNode tag { node with activeTrackingNodes := node.activeTrackingNodes.insert trackingNodeTag }
  | none => nodes

/-- What `TrackingAnimatedNode::StartAnimation` does to the nodes, and whether it starts an animation. -/
def startAnimation (tag : Tag) (node : TrackingAnimatedNode) : AnimatedNodes F × Bool :=
  match nodes.getValueAnimatedNode node.toValueId with
  | some _ =>
    (if node.useComposition then nodes.addActiveTrackingNode node.toValueId tag else nodes, true)
  | none => (nodes, false)

/-- Nothing is returned for the exception that the tag exists. -/
def createAnimatedNode (tag : Tag) (config : NodeConfig F) : Option (AnimatedNodes F) :=
  if (nodes.transformNodes.lookup tag).isSome ∨ (nodes.propsNodes.lookup tag).isSome ∨
      (nodes.styleNodes.lookup tag).isSome ∨ (nodes.valueNodes.lookup tag).isSome then none
  else
    match AnimatedNodeType.fromString config.type with
    | .style => some { nodes with styleNodes := emplace tag (.make config) nodes.styleNodes }
    | .props => some { nodes with propsNodes := emplace tag (.make config) nodes.propsNodes }
    | .transform => some { nodes with transformNodes := emplace tag (.make config) nodes.transformNodes }
    | .tracking =>
      let node := TrackingAnimatedNode.make config
      let nodes := if node.useComposition then (nodes.startAnimation tag node).1 else nodes
      some { nodes with trackingNodes := emplace tag node nodes.trackingNodes }
    | .value | .interpolation | .addition | .subtraction | .division | .multiplication | .modulus
    | .diffclamp => some { nodes with valueNodes := emplace tag (.make R config) nodes.valueNodes }

def dropAnimatedNode (tag : Tag) : AnimatedNodes F :=
  { nodes with
    valueNodes := Entries.without tag nodes.valueNodes
    propsNodes := Entries.without tag nodes.propsNodes
    styleNodes := Entries.without tag nodes.styleNodes
    transformNodes := Entries.without tag nodes.transformNodes }

abbrev Updated (F : Type*) := AnimatedNodes F × List Tag

def updateTrackingNode (updated : Updated F) (trackingNodeTag : Tag) : Updated F :=
  match updated.1.getTrackingAnimatedNode trackingNodeTag with
  | some node =>
    let (nodes, started) := updated.1.startAnimation trackingNodeTag node
    (nodes, if started then updated.2 ++ [trackingNodeTag] else updated.2)
  | none => updated

def updateTrackingNodes (updated : Updated F) (node : ValueAnimatedNode F) : Updated F :=
  node.activeTrackingNodes.tags.foldl updateTrackingNode updated

def setRawValue (tag : Tag) (value : F) (updated : Updated F) : Updated F :=
  match updated.1.getValueAnimatedNode tag with
  | none => updated
  | some node =>
    if R.ne node.rawValue value then
      if node.useComposition then
        updateTrackingNodes (updated.1.setNode tag { node with rawValue := R.toFloat value }, updated.2) node
      else (updated.1.setNode tag { node with rawValue := value }, updated.2)
    else updated

def setOffset (tag : Tag) (offset : F) (updated : Updated F) : Updated F :=
  match updated.1.getValueAnimatedNode tag with
  | none => updated
  | some node =>
    if R.ne node.offset offset then
      if node.useComposition then
        updateTrackingNodes (updated.1.setNode tag { node with offset := R.toFloat offset }, updated.2) node
      else (updated.1.setNode tag { node with offset := offset }, updated.2)
    else updated

def valueOf (tag : Tag) : F :=
  match nodes.getValueAnimatedNode tag with
  | some node => R.add node.rawValue node.offset
  | none => R.zero

def flattenOffset (tag : Tag) (updated : Updated F) : Updated F :=
  setOffset R tag R.zero (setRawValue R tag (valueOf R updated.1 tag) updated)

def extractOffset (tag : Tag) (updated : Updated F) : Updated F :=
  setRawValue R tag R.zero (setOffset R tag (valueOf R updated.1 tag) updated)

end AnimatedNodes

inductive RegistryCall (F : Type*) where
  | createAnimatedNode (tag : Tag) (config : NodeConfig F)
  | dropAnimatedNode (tag : Tag)
  | setAnimatedNodeValue (tag : Tag) (value : F)
  | setAnimatedNodeOffset (tag : Tag) (offset : F)
  | flattenAnimatedNodeOffset (tag : Tag)
  | extractAnimatedNodeOffset (tag : Tag)

/-- The nodes, the tags that were created and not dropped since, and of the last call whether it threw and
which tracking nodes started an animation as a value changed. -/
structure NodeRegistry (F : Type*) where
  nodes : AnimatedNodes F
  live : Tag → Bool
  threw : Bool
  started : List Tag

namespace NodeRegistry

variable (s : NodeRegistry F)

def initial : NodeRegistry F := ⟨.empty, fun _ => false, false, []⟩

/-- A call for a value node, of which `at` throws when there is none. -/
def update (tag : Tag) (change : AnimatedNodes.Updated F → AnimatedNodes.Updated F) : NodeRegistry F :=
  match s.nodes.getValueAnimatedNode tag with
  | some _ =>
    let (nodes, started) := change (s.nodes, [])
    { s with nodes := nodes, threw := false, started := started }
  | none => { s with threw := true, started := [] }

def call : RegistryCall F → NodeRegistry F
  | .createAnimatedNode tag config =>
    match s.nodes.createAnimatedNode R tag config with
    | some nodes => ⟨nodes, Function.update s.live tag true, false, []⟩
    | none => { s with threw := true, started := [] }
  | .dropAnimatedNode tag =>
    ⟨s.nodes.dropAnimatedNode tag, Function.update s.live tag false, false, []⟩
  | .setAnimatedNodeValue tag value => s.update tag (AnimatedNodes.setRawValue R tag (R.toFloat value))
  | .setAnimatedNodeOffset tag offset => s.update tag (AnimatedNodes.setOffset R tag (R.toFloat offset))
  | .flattenAnimatedNodeOffset tag => s.update tag (AnimatedNodes.flattenOffset R tag)
  | .extractAnimatedNodeOffset tag => s.update tag (AnimatedNodes.extractOffset R tag)

def step (call : RegistryCall F) : Option (NodeRegistry F) := some (s.call R call)

end NodeRegistry

def AnimatedNodes.inMaps (nodes : AnimatedNodes F) (tag : Tag) : List Bool :=
  [(nodes.valueNodes.lookup tag).isSome, (nodes.propsNodes.lookup tag).isSome,
    (nodes.styleNodes.lookup tag).isSome, (nodes.transformNodes.lookup tag).isSome,
    (nodes.trackingNodes.lookup tag).isSome]

/-- A tag is in one map at most, and there is a node for it exactly while it is live. -/
structure NodeRegistry.Consistent (s : NodeRegistry F) : Prop where
  one_map : ∀ tag, (s.nodes.inMaps tag).count true ≤ 1
  found_iff : ∀ tag, (s.nodes.getAnimatedNode tag).isSome = true ↔ s.live tag = true

structure NodeRegistry.Registers (s : NodeRegistry F) (call : RegistryCall F) (s' : NodeRegistry F) :
    Prop where
  consistent : s'.Consistent
  throws_iff : ∀ tag config, call = .createAnimatedNode tag config → (s'.threw = true ↔ s.live tag = true)
  started_live : ∀ tag ∈ s'.started, s.live tag = true

def NodeRegistry.SparesTracking (s : NodeRegistry F) : RegistryCall F → Prop
  | .createAnimatedNode tag _ => s.nodes.getTrackingAnimatedNode tag = none
  | .dropAnimatedNode tag => s.nodes.getTrackingAnimatedNode tag = none
  | _ => True

namespace AnimatedNodes

variable {R} {nodes : AnimatedNodes F} {tag : Tag}

theorem getAnimatedNode_isSome_iff (nodes : AnimatedNodes F) (tag : Tag) :
    (nodes.getAnimatedNode tag).isSome = true ↔ true ∈ nodes.inMaps tag := by
  rw [getAnimatedNode, inMaps]
  cases nodes.valueNodes.lookup tag with
  | some node => simp
  | none =>
    cases nodes.styleNodes.lookup tag with
    | some node => simp
    | none =>
      cases nodes.propsNodes.lookup tag with
      | some node => simp
      | none =>
        cases nodes.transformNodes.lookup tag with
        | some node => simp
        | none => cases nodes.trackingNodes.lookup tag <;> simp

theorem mem_inMaps_iff :
    true ∈ nodes.inMaps tag ↔ true ∈ (nodes.inMaps tag).dropLast ∨
      (nodes.trackingNodes.lookup tag).isSome = true := by
  simp only [inMaps, List.dropLast, List.mem_cons, List.not_mem_nil, or_false, eq_comm (a := true)]
  tauto

theorem count_inMaps (h : (nodes.trackingNodes.lookup tag).isSome = true) :
    (nodes.inMaps tag).count true = (nodes.inMaps tag).dropLast.count true + 1 := by
  have hSplit : nodes.inMaps tag = (nodes.inMaps tag).dropLast ++ [true] := by
    rw [inMaps, h]
    rfl
  rw [hSplit, List.count_append, List.dropLast_concat]
  rfl

theorem lookup_emplace_isSome {α : Type*} (tag other : Tag) (node : α) (entries : Entries Tag α) :
    ((emplace tag node entries).lookup other).isSome = (decide (other = tag) || (entries.lookup other).isSome) := by
  rw [emplace]
  by_cases hEq : other = tag
  · rw [hEq, decide_eq_true rfl, Bool.true_or]
    split
    next hOld => exact hOld
    next => rw [List.lookup_cons_self]; rfl
  · rw [decide_eq_false hEq, Bool.false_or]
    split
    next => rfl
    next => rw [Entries.lookup_cons_of_ne hEq]

theorem lookup_without_isSome {α : Type*} (tag other : Tag) (entries : Entries Tag α) :
    ((Entries.without tag entries).lookup other).isSome
      = (!decide (other = tag) && (entries.lookup other).isSome) := by
  by_cases hEq : other = tag
  · rw [hEq, Entries.lookup_without_self, decide_eq_true rfl]
    rfl
  · rw [Entries.lookup_without_of_ne hEq, decide_eq_false hEq]
    rfl

theorem inMaps_setNode (h : (nodes.valueNodes.lookup tag).isSome = true) (node : ValueAnimatedNode F)
    (other : Tag) : (nodes.setNode tag node).inMaps other = nodes.inMaps other := by
  have hValue : ((Entries.set tag node nodes.valueNodes).lookup other).isSome
      = (nodes.valueNodes.lookup other).isSome := by
    rw [Entries.lookup_set]
    by_cases hEq : other = tag
    · rw [hEq, List.lookup_cons_self, h]
      rfl
    · rw [Entries.lookup_cons_of_ne hEq]
  rw [inMaps, inMaps, ← hValue]
  rfl

theorem inMaps_addActiveTrackingNode (nodes : AnimatedNodes F) (tag trackingNodeTag other : Tag) :
    (nodes.addActiveTrackingNode tag trackingNodeTag).inMaps other = nodes.inMaps other := by
  rw [addActiveTrackingNode]
  split
  next node hNode =>
    apply inMaps_setNode
    rw [hNode]
    rfl
  next => rfl

theorem inMaps_startAnimation (nodes : AnimatedNodes F) (tag : Tag) (node : TrackingAnimatedNode) (other : Tag) :
    (nodes.startAnimation tag node).1.inMaps other = nodes.inMaps other := by
  rw [startAnimation]
  split
  next =>
    dsimp only
    split
    next => exact inMaps_addActiveTrackingNode nodes _ _ other
    next => rfl
  next => rfl

theorem tracking_of_inMaps {nodes nodes' : AnimatedNodes F} {tag : Tag}
    (h : nodes'.inMaps tag = nodes.inMaps tag) :
    (nodes'.trackingNodes.lookup tag).isSome = (nodes.trackingNodes.lookup tag).isSome := by
  rw [inMaps, inMaps] at h
  simp only [List.cons.injEq, and_true] at h
  exact h.2.2.2.2

/-- No map gets or loses a tag, and what starts is in the map of tracking nodes. -/
structure Frame (before : AnimatedNodes F) (updated : Updated F) : Prop where
  maps : ∀ tag, updated.1.inMaps tag = before.inMaps tag
  started : ∀ tag ∈ updated.2, (before.trackingNodes.lookup tag).isSome = true

namespace Frame

variable {before : AnimatedNodes F} {updated : Updated F}

theorem refl (nodes : AnimatedNodes F) : Frame nodes (nodes, []) := ⟨fun _ => rfl, nofun⟩

variable (h : Frame before updated)
include h

theorem updateTrackingNode (tag : Tag) :
    Frame before (AnimatedNodes.updateTrackingNode updated tag) := by
  rw [AnimatedNodes.updateTrackingNode]
  split
  next node hNode =>
    constructor
    · intro other
      exact (inMaps_startAnimation updated.1 tag node other).trans (h.maps other)
    · intro other hMem
      dsimp only at hMem
      split at hMem
      next =>
        rcases List.mem_append.mp hMem with hOld | hNew
        · exact h.started other hOld
        · rw [List.mem_singleton.mp hNew, ← tracking_of_inMaps (h.maps tag)]
          exact Option.isSome_of_eq_some hNode
      next => exact h.started other hMem
  next => exact h

theorem updateTrackingNodes (node : ValueAnimatedNode F) :
    Frame before (AnimatedNodes.updateTrackingNodes updated node) := by
  rw [AnimatedNodes.updateTrackingNodes]
  induction node.activeTrackingNodes.tags generalizing updated with
  | nil => exact h
  | cons tag tags ih => exact ih (h.updateTrackingNode tag)

theorem setNode {tag : Tag} {node : ValueAnimatedNode F}
    (hNode : updated.1.getValueAnimatedNode tag = some node) (node' : ValueAnimatedNode F) :
    Frame before (updated.1.setNode tag node', updated.2) := by
  constructor
  · intro other
    exact (inMaps_setNode (Option.isSome_of_eq_some hNode) node' other).trans (h.maps other)
  · exact h.started

theorem setRawValue (tag : Tag) (value : F) :
    Frame before (AnimatedNodes.setRawValue R tag value updated) := by
  rw [AnimatedNodes.setRawValue]
  split
  next => exact h
  next node hNode =>
    split
    next =>
      split
      next => exact (h.setNode hNode _).updateTrackingNodes node
      next => exact h.setNode hNode _
    next => exact h

theorem setOffset (tag : Tag) (offset : F) :
    Frame before (AnimatedNodes.setOffset R tag offset updated) := by
  rw [AnimatedNodes.setOffset]
  split
  next => exact h
  next node hNode =>
    split
    next =>
      split
      next => exact (h.setNode hNode _).updateTrackingNodes node
      next => exact h.setNode hNode _
    next => exact h

theorem flattenOffset (tag : Tag) : Frame before (AnimatedNodes.flattenOffset R tag updated) :=
  (h.setRawValue tag _).setOffset tag _

theorem extractOffset (tag : Tag) : Frame before (AnimatedNodes.extractOffset R tag updated) :=
  (h.setOffset tag _).setRawValue tag _

end Frame

/-- What creation looks for: the tag in all maps but that of tracking nodes. -/
theorem createAnimatedNode_none_iff (R : Arithmetic F) (nodes : AnimatedNodes F) (tag : Tag)
    (config : NodeConfig F) :
    createAnimatedNode R nodes tag config = none ↔ true ∈ (nodes.inMaps tag).dropLast := by
  have hMaps : true ∈ (nodes.inMaps tag).dropLast ↔
      (nodes.transformNodes.lookup tag).isSome ∨ (nodes.propsNodes.lookup tag).isSome ∨
        (nodes.styleNodes.lookup tag).isSome ∨ (nodes.valueNodes.lookup tag).isSome := by
    simp only [inMaps, List.dropLast, List.mem_cons, List.not_mem_nil, or_false, eq_comm (a := true)]
    tauto
  rw [hMaps, createAnimatedNode]
  split
  next hFound => exact iff_of_true rfl hFound
  next hNot =>
    refine iff_of_false ?_ hNot
    cases AnimatedNodeType.fromString config.type <;> nofun

theorem createAnimatedNode_maps {config : NodeConfig F} {nodes' : AnimatedNodes F}
    (h : createAnimatedNode R nodes tag config = some nodes') :
    (∀ other, other ≠ tag → nodes'.inMaps other = nodes.inMaps other) ∧
      ((nodes.trackingNodes.lookup tag).isSome = false → (nodes'.inMaps tag).count true = 1) := by
  rw [createAnimatedNode] at h
  split at h
  next => cases h
  next hNot =>
    simp only [not_or, Bool.not_eq_true] at hNot
    obtain ⟨hTransform, hProps, hStyle, hValue⟩ := hNot
    cases hType : AnimatedNodeType.fromString config.type with
    | tracking =>
      rw [hType] at h
      dsimp only at h
      split at h
      next =>
        cases h
        have hSame := inMaps_startAnimation nodes tag (.make config)
        constructor
        · intro other hOther
          rw [← hSame other]
          simp only [inMaps, lookup_emplace_isSome, hOther, decide_false, Bool.false_or]
        · intro hTracking
          have hTag := hSame tag
          simp only [inMaps, hTransform, hProps, hStyle, hValue, hTracking, List.cons.injEq, and_true] at hTag
          simp [inMaps, lookup_emplace_isSome, hTag]
      next =>
        cases h
        constructor
        · intro other hOther
          simp only [inMaps, lookup_emplace_isSome, hOther, decide_false, Bool.false_or]
        · intro hTracking
          simp [inMaps, lookup_emplace_isSome, hTransform, hProps, hStyle, hValue]
    | _ =>
      rw [hType] at h
      cases h
      constructor
      · intro other hOther
        simp only [inMaps, lookup_emplace_isSome, hOther, decide_false, Bool.false_or]
      · intro hTracking
        simp [inMaps, lookup_emplace_isSome, hTransform, hProps, hStyle, hValue, hTracking]

theorem dropAnimatedNode_maps (nodes : AnimatedNodes F) (tag : Tag) :
    (∀ other, other ≠ tag → (nodes.dropAnimatedNode tag).inMaps other = nodes.inMaps other) ∧
      (nodes.dropAnimatedNode tag).inMaps tag
        = [false, false, false, false, (nodes.trackingNodes.lookup tag).isSome] := by
  simp only [inMaps, dropAnimatedNode, lookup_without_isSome]
  constructor
  · intro other hOther
    simp only [hOther, decide_false, Bool.not_false, Bool.true_and]
  · simp only [decide_true, Bool.not_true, Bool.false_and]

end AnimatedNodes

namespace NodeRegistry

variable {R} {s : NodeRegistry F}

theorem consistent_iff :
    s.Consistent ↔ ∀ tag, (s.nodes.inMaps tag).count true ≤ 1 ∧
      (true ∈ s.nodes.inMaps tag ↔ s.live tag = true) := by
  constructor
  · intro h tag
    rw [← AnimatedNodes.getAnimatedNode_isSome_iff]
    exact ⟨h.one_map tag, h.found_iff tag⟩
  · intro h
    constructor
    · intro tag
      exact (h tag).1
    · intro tag
      rw [AnimatedNodes.getAnimatedNode_isSome_iff]
      exact (h tag).2

theorem consistent_initial : (initial : NodeRegistry F).Consistent := by
  rw [consistent_iff]
  intro tag
  constructor
  · show 0 ≤ 1
    exact Nat.zero_le 1
  · show true ∈ [false, false, false, false, false] ↔ false = true
    decide

theorem Consistent.of_maps {s' : NodeRegistry F} (h : s.Consistent)
    (hMaps : ∀ tag, s'.nodes.inMaps tag = s.nodes.inMaps tag) (hLive : s'.live = s.live) :
    s'.Consistent := by
  rw [consistent_iff] at h ⊢
  intro tag
  rw [hMaps, hLive]
  exact h tag

theorem Consistent.live_of_tracking (h : s.Consistent) {tag : Tag}
    (hTracking : (s.nodes.trackingNodes.lookup tag).isSome = true) : s.live tag = true := by
  rw [consistent_iff] at h
  rw [← (h tag).2, AnimatedNodes.inMaps, hTracking]
  simp

variable {change : AnimatedNodes.Updated F → AnimatedNodes.Updated F}

theorem Consistent.update (h : s.Consistent) (tag : Tag)
    (hChange : AnimatedNodes.Frame s.nodes (change (s.nodes, []))) :
    (s.update tag change).Consistent ∧ ∀ other ∈ (s.update tag change).started, s.live other = true := by
  rw [NodeRegistry.update]
  split
  next =>
    constructor
    · exact h.of_maps hChange.maps rfl
    · intro other hMem
      exact h.live_of_tracking (hChange.started other hMem)
  next => exact ⟨h.of_maps (fun _ => rfl) rfl, nofun⟩

variable {call : RegistryCall F}

theorem Consistent.registers_update {tag : Tag} (h : s.Consistent)
    (hCall : ∀ tag config, call = .createAnimatedNode tag config → False)
    (hChange : AnimatedNodes.Frame s.nodes (change (s.nodes, []))) :
    s.Registers call (s.update tag change) := by
  obtain ⟨hConsistent, hStarted⟩ := h.update tag hChange
  exact ⟨hConsistent, fun tag config hEq => (hCall tag config hEq).elim, hStarted⟩

theorem Consistent.registers_create (h : s.Consistent) (tag : Tag) (config : NodeConfig F)
    (hSpares : s.nodes.getTrackingAnimatedNode tag = none) :
    s.Registers (.createAnimatedNode tag config) (s.call R (.createAnimatedNode tag config)) := by
  have hMaps := consistent_iff.mp h
  have hTracking : (s.nodes.trackingNodes.lookup tag).isSome = false :=
    Option.isNone_iff_eq_none.mpr hSpares |> Option.isSome_eq_false_iff.mpr
  rw [NodeRegistry.call]
  cases hCreate : s.nodes.createAnimatedNode R tag config with
  | none =>
    have hFound := (AnimatedNodes.createAnimatedNode_none_iff R s.nodes tag config).mp hCreate
    constructor
    · exact h.of_maps (fun _ => rfl) rfl
    · rintro _ _ ⟨⟩
      exact iff_of_true rfl ((hMaps tag).2.mp (List.mem_of_mem_dropLast hFound))
    · nofun
  | some nodes' =>
    obtain ⟨hOthers, hTag⟩ := AnimatedNodes.createAnimatedNode_maps hCreate
    have hNot : true ∉ (s.nodes.inMaps tag).dropLast := by
      rw [← AnimatedNodes.createAnimatedNode_none_iff R s.nodes tag config, hCreate]
      nofun
    constructor
    · rw [consistent_iff]
      intro other
      dsimp only
      by_cases hEq : other = tag
      · rw [hEq, Function.update_self]
        have hOne := hTag hTracking
        exact ⟨hOne.le, iff_of_true (List.count_pos_iff.mp (by omega)) rfl⟩
      · rw [Function.update_of_ne hEq, hOthers other hEq]
        exact hMaps other
    · rintro _ _ ⟨⟩
      refine iff_of_false nofun ?_
      rw [← (hMaps tag).2, AnimatedNodes.mem_inMaps_iff, hTracking]
      simp [hNot]
    · nofun

theorem Consistent.registers_drop (h : s.Consistent) (tag : Tag)
    (hSpares : s.nodes.getTrackingAnimatedNode tag = none) :
    s.Registers (.dropAnimatedNode tag) (s.call R (.dropAnimatedNode tag)) := by
  have hMaps := consistent_iff.mp h
  have hTracking : (s.nodes.trackingNodes.lookup tag).isSome = false :=
    Option.isNone_iff_eq_none.mpr hSpares |> Option.isSome_eq_false_iff.mpr
  obtain ⟨hOthers, hTag⟩ := AnimatedNodes.dropAnimatedNode_maps s.nodes tag
  rw [NodeRegistry.call]
  constructor
  · rw [consistent_iff]
    intro other
    dsimp only
    by_cases hEq : other = tag
    · rw [hEq, Function.update_self, hTag, hTracking]
      decide
    · rw [Function.update_of_ne hEq, hOthers other hEq]
      exact hMaps other
  · nofun
  · nofun

theorem Consistent.registers (h : s.Consistent) (call : RegistryCall F) (hSpares : s.SparesTracking call) :
    s.Registers call (s.call R call) := by
  have hFrame := AnimatedNodes.Frame.refl s.nodes
  cases call with
  | createAnimatedNode tag config => exact h.registers_create tag config hSpares
  | dropAnimatedNode tag => exact h.registers_drop tag hSpares
  | setAnimatedNodeValue tag value => exact h.registers_update (fun _ _ hEq => by cases hEq) (hFrame.setRawValue tag _)
  | setAnimatedNodeOffset tag offset => exact h.registers_update (fun _ _ hEq => by cases hEq) (hFrame.setOffset tag _)
  | flattenAnimatedNodeOffset tag => exact h.registers_update (fun _ _ hEq => by cases hEq) (hFrame.flattenOffset tag)
  | extractAnimatedNodeOffset tag => exact h.registers_update (fun _ _ hEq => by cases hEq) (hFrame.extractOffset tag)

/-- A call that does what is claimed spares the tracking nodes. -/
theorem Consistent.spares (h : s.Consistent) (hRegisters : s.Registers call (s.call R call)) :
    s.SparesTracking call := by
  have hMaps := consistent_iff.mp h
  cases call with
  | createAnimatedNode tag config =>
    by_contra hSome
    have hTracking := Option.ne_none_iff_isSome.mp hSome
    have hThrew := (hRegisters.throws_iff tag config rfl).mpr (h.live_of_tracking hTracking)
    rw [NodeRegistry.call] at hThrew
    split at hThrew
    next => cases hThrew
    next hCreate =>
      -- The tag would be in two maps.
      have hFound := (AnimatedNodes.createAnimatedNode_none_iff R s.nodes tag config).mp hCreate
      have hCount := AnimatedNodes.count_inMaps hTracking
      have hPos := List.count_pos_iff.mpr hFound
      have hOne := (hMaps tag).1
      omega
  | dropAnimatedNode tag =>
    by_contra hSome
    have hTracking := Option.ne_none_iff_isSome.mp hSome
    have hAfter := (consistent_iff.mp hRegisters.consistent tag).2
    rw [NodeRegistry.call] at hAfter
    dsimp only at hAfter
    rw [(AnimatedNodes.dropAnimatedNode_maps s.nodes tag).2, Function.update_self] at hAfter
    have hLost := hAfter.mp (by
      show true ∈ [false, false, false, false, (s.nodes.getTrackingAnimatedNode tag).isSome]
      rw [hTracking]
      decide)
    cases hLost
  | setAnimatedNodeValue tag value => trivial
  | setAnimatedNodeOffset tag offset => trivial
  | flattenAnimatedNodeOffset tag => trivial
  | extractAnimatedNodeOffset tag => trivial

/-- In a run every call does what is claimed if and only if no call creates or drops the tag of a tracking
node: creation does not look for it in the map of tracking nodes, and dropping leaves it there. -/
theorem registers_iff (R : Arithmetic F) (calls : List (RegistryCall F)) :
    Along (NodeRegistry.step R) Registers initial calls ↔
      Allowed (NodeRegistry.step R) SparesTracking initial calls := by
  constructor
  · intro h
    apply h.allowed consistent_initial
    · intro s call t _ _ hRegisters
      exact hRegisters.consistent
    · intro s call hStart hRegisters
      exact hStart.spares (hRegisters _ rfl)
  · intro h
    apply h.along consistent_initial
    · intro s call t hStart hSpares hStep
      cases hStep
      exact (hStart.registers call hSpares).consistent
    · intro s call t hStart hSpares hStep
      cases hStep
      exact hStart.registers call hSpares

/-- A tracking node that is dropped is still found. -/
theorem dropped_tracking_node_found :
    ¬ Along (NodeRegistry.step ⟨fun first second => first != second, (· + ·), (0 : ℤ), id⟩) Registers initial
      [.createAnimatedNode 1 ⟨"tracking", true, none, none, 1, 2, 3⟩, .dropAnimatedNode 1] := by
  intro h
  obtain ⟨-, hRest⟩ := h _ rfl
  obtain ⟨hDrop, -⟩ := hRest _ rfl
  have hFound := (hDrop.consistent.found_iff 1).mp rfl
  cases hFound

end NodeRegistry

end ReactNative.Animated
