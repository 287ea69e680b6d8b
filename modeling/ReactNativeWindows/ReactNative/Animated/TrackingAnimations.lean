import ReactNativeWindows.Control.Traces
import ReactNativeWindows.ReactNative.Animated.AnimatedNodes
import ReactNativeWindows.ReactNative.JSValue.JSValue

/-! Animations that track the value of another node. They start again, with a configuration that is made from
their old one, whenever an animation of that node starts. -/
namespace ReactNative.Animated.Tracking

open Collections (Entries)
open Control (Throughout Allowed)
open Numbers (Double)

/-- `JSValueObject`. -/
abbrev AnimationConfig := Entries String (JSNode String)

/-- How a `JSValue` converts strings and numbers. -/
structure JSConverter where
  toJSString : Double → String
  toJSNumber : String → Double
  toBoolean : String → Bool

namespace JSConverter

variable (C : JSConverter)

def asString : JSNode String → String
  | .null => "null"
  | .string value => value
  | .boolean value => if value then "true" else "false"
  | .int64 value => toString value.toInt
  | .double value => C.toJSString value
  | .object _ | .array _ => ""

def asBoolean : JSNode String → Bool
  | .object properties => !properties.isEmpty
  | .array items => !items.isEmpty
  | .string value => C.toBoolean value
  | .boolean value => value
  | .int64 value => value != 0
  | .double value => value ≠ .nan && value ≠ .finite 0 Numbers.representable_zero
  | .null => false

def asDouble : JSNode String → Double
  | .string value => C.toJSNumber value
  | .boolean value => .ofInt64 (if value then 1 else 0)
  | .int64 value => .ofInt64 value
  | .double value => value
  | .null | .object _ | .array _ => .finite 0 Numbers.representable_zero

end JSConverter

def asArray : JSNode String → List (JSNode String)
  | .array items => items
  | _ => []

def asObject : JSNode String → AnimationConfig
  | .object properties => properties
  | _ => []

inductive AnimationType where
  | decay | frames | spring
  deriving DecidableEq

def AnimationType.fromString (string : String) : AnimationType :=
  if string = "decay" then .decay
  else if string = "frames" then .frames
  else .spring

namespace AnimationConfig

variable (C : JSConverter) (config : AnimationConfig)

/-- The constant `operator[]`. -/
def property (name : String) : JSNode String := (config.lookup name).getD .null

def type : AnimationType := .fromString (C.asString (config.property "type"))

/-- An array of the configuration, as a driver reads it. -/
def doubles (name : String) : List Double := (asArray (config.property name)).map C.asDouble

def shouldUseComposition : Bool :=
  match config.lookup "platformConfig" with
  | some platformConfig =>
    match (asObject platformConfig).lookup "useComposition" with
    | some useComposition => C.asBoolean useComposition
    | none => true
  | none => true

end AnimationConfig

structure AnimationDriver where
  animatedValueTag : Tag
  config : AnimationConfig

namespace AnimationDriver

variable (C : JSConverter) (driver : AnimationDriver)

def useComposition : Bool := AnimationConfig.shouldUseComposition C driver.config

def toValue : Double :=
  match AnimationConfig.type C driver.config with
  | .decay => .finite 0 Numbers.representable_zero
  | .frames | .spring => C.asDouble (AnimationConfig.property driver.config "toValue")

def frames : List Double :=
  match AnimationConfig.type C driver.config with
  | .frames => AnimationConfig.doubles C driver.config "frames"
  | .decay | .spring => []

end AnimationDriver

/-- The configuration that `StartTrackingAnimatedNode` passes on, by the active animation of the tracked
node. -/
def updatedAnimationConfig (C : JSConverter) (animationConfig : AnimationConfig) :
    Option AnimationDriver → AnimationConfig
  | none => animationConfig
  | some lead =>
    let updated := Entries.set "toValue" (.double (lead.toValue C)) animationConfig
    match AnimationConfig.type C animationConfig with
    | .frames =>
      let zeros := (asArray (AnimationConfig.property animationConfig "frames")).map fun _ =>
        JSNode.double (.finite 0 Numbers.representable_zero)
      Entries.emplace "frames" (.array (zeros ++ (lead.frames C).map .double)) updated
    | .spring => Entries.emplace "dynamicToValues" (.array ((lead.frames C).map .double)) updated
    | .decay => updated

/-- What the functions that have been called have left to do: the rest of the loop over the tracking
animations, and what follows it in `StartDeferredAnimationsForValueNode` and `RemoveStoppedAnimation`. -/
inductive Task where
  | restartTracking (animationId : AnimationId) (animatedToValueTag : Tag)
  | eraseDeferred (tag : Tag)
  | erasePending (animationId : AnimationId)

/-- The start of a driver that tracks a node: the configuration that was given, the active animation of the
node, and the configuration that the driver receives. -/
structure TrackingStart where
  animationConfig : AnimationConfig
  lead : Option AnimationDriver
  received : AnimationConfig

/-- The maps are in the order in which they are iterated. `starts` are the drivers that were started to track
a node, the last one first. -/
structure Manager where
  activeAnimations : Entries AnimationId AnimationDriver
  pendingCompletionAnimations : Entries AnimationId AnimationDriver
  valuesWithStoppedAnimation : Finset Tag
  deferredAnimationForValues : Entries Tag AnimationId
  trackingAndLeadNodeTags : List (AnimationId × Tag)
  tasks : List Task
  starts : List TrackingStart

namespace Manager

def initial : Manager := ⟨[], [], ∅, [], [], [], []⟩

variable (C : JSConverter) (s : Manager)

/-- The active animation that the loop over all of them finds for a node. -/
def lead (tag : Tag) : Option AnimationDriver :=
  (s.activeAnimations.find? fun item => item.2.animatedValueTag = tag).map Prod.snd

def stopAnimation (animationId : AnimationId) : Manager :=
  match s.activeAnimations.lookup animationId with
  | none => s
  | some animation =>
    let nodeTag := animation.animatedValueTag
    let active := Entries.without animationId s.activeAnimations
    if animation.useComposition C then
      let pending := Entries.emplace animationId animation s.pendingCompletionAnimations
      if nodeTag = -1 then
        { s with activeAnimations := active, pendingCompletionAnimations := pending }
      else if (s.deferredAnimationForValues.lookup nodeTag).isSome then
        { s with
          activeAnimations := active, pendingCompletionAnimations := pending
          deferredAnimationForValues := Entries.without nodeTag s.deferredAnimationForValues }
      else
        { s with
          activeAnimations := active, pendingCompletionAnimations := pending
          valuesWithStoppedAnimation := insert nodeTag s.valuesWithStoppedAnimation }
    else { s with activeAnimations := active }

/-- The restarts are left to do, before what was left already. -/
def startAnimationAndTrackingNodes (tag : AnimationId) (nodeTag : Tag) : Manager :=
  if (s.activeAnimations.lookup tag).isSome then
    let tracking := s.trackingAndLeadNodeTags.filter fun trackingAndLead => trackingAndLead.2 = nodeTag
    { s with tasks := tracking.map (fun entry => .restartTracking entry.1 entry.2) ++ s.tasks }
  else s

def startAnimatingNode (animationId : AnimationId) (animatedNodeTag : Tag)
    (animationConfig : AnimationConfig) : Manager :=
  let s := { s with
    activeAnimations := Entries.emplace animationId ⟨animatedNodeTag, animationConfig⟩ s.activeAnimations }
  match s.activeAnimations.lookup animationId with
  | some animation =>
    if animation.useComposition C then
      if animatedNodeTag ∈ s.valuesWithStoppedAnimation then
        { s with deferredAnimationForValues :=
            Entries.emplace animatedNodeTag animationId s.deferredAnimationForValues }
      else s.startAnimationAndTrackingNodes animationId animatedNodeTag
    else s
  | none => s

def startTrackingAnimatedNode (animationId : AnimationId) (animatedNodeTag animatedToValueTag : Tag)
    (animationConfig : AnimationConfig) (track : Bool) : Manager :=
  let updated := updatedAnimationConfig C animationConfig (s.lead animatedToValueTag)
  let tags := if track then s.trackingAndLeadNodeTags ++ [(animationId, animatedToValueTag)]
    else s.trackingAndLeadNodeTags
  let start := ⟨animationConfig, s.lead animatedToValueTag, updated⟩
  startAnimatingNode C { s with trackingAndLeadNodeTags := tags, starts := start :: s.starts }
    animationId animatedNodeTag updated

/-- The configuration is read where it was, in the driver that has been destroyed: `read` is what is found
there. -/
def restartTrackingAnimatedNode (read : AnimationConfig → AnimationConfig) (animationId : AnimationId)
    (animatedToValueTag : Tag) : Manager :=
  match s.activeAnimations.lookup animationId with
  | some animation =>
    startTrackingAnimatedNode C
      { s with activeAnimations := Entries.without animationId s.activeAnimations }
      animationId animation.animatedValueTag animatedToValueTag (read animation.config) false
  | none => s

/-- `TrackingAnimatedNode::StartAnimation`, for a node whose configuration is `animationConfig` and a tracked
node that has the value. -/
def startTrackingNode (node : TrackingAnimatedNode) (animationConfig : AnimationConfig) (value : Double) :
    Manager :=
  let s := s.stopAnimation C node.animationId
  let animationConfig := Entries.set "toValue" (.double value) animationConfig
  if node.useComposition then
    s.startTrackingAnimatedNode C node.animationId node.valueId node.toValueId animationConfig true
  else s.startAnimatingNode C node.animationId node.valueId animationConfig

def removeStoppedAnimation (animationId : AnimationId) : Manager :=
  match s.pendingCompletionAnimations.lookup animationId with
  | none => s
  | some animation =>
    let nodeTag := animation.animatedValueTag
    let after := { s with
      valuesWithStoppedAnimation := s.valuesWithStoppedAnimation.erase nodeTag
      tasks := .erasePending animationId :: s.tasks }
    if nodeTag ∈ s.valuesWithStoppedAnimation then
      match s.deferredAnimationForValues.lookup nodeTag with
      | some deferredAnimation =>
        startAnimationAndTrackingNodes { after with tasks := .eraseDeferred nodeTag :: after.tasks }
          deferredAnimation nodeTag
      | none => after
    else after

/-- The handler for the end of a scoped batch, which a driver that was stopped for a restart ignores. -/
def completeBatch (animationId : AnimationId) (ignoring : Bool) : Manager :=
  let s := if ignoring then s
    else { s with activeAnimations := Entries.without animationId s.activeAnimations }
  s.removeStoppedAnimation animationId

end Manager

inductive Event where
  | startAnimatingNode (animationId : AnimationId) (animatedNodeTag : Tag) (animationConfig : AnimationConfig)
  | stopAnimation (animationId : AnimationId)
  | startTrackingNode (node : TrackingAnimatedNode) (animationConfig : AnimationConfig) (value : Double)
  | completeBatch (animationId : AnimationId) (ignoring : Bool)
  | next

open Manager

variable (C : JSConverter) (read : AnimationConfig → AnimationConfig)

/-- What was called goes on until nothing is left to do, and then the next call can come. -/
def step (s : Manager) (event : Event) : Option Manager :=
  match s.tasks, event with
  | [], .startAnimatingNode animationId tag config => some (s.startAnimatingNode C animationId tag config)
  | [], .stopAnimation animationId => some (s.stopAnimation C animationId)
  | [], .startTrackingNode node config value => some (s.startTrackingNode C node config value)
  | [], .completeBatch animationId ignoring => some (s.completeBatch animationId ignoring)
  | .restartTracking animationId tag :: tasks, .next =>
    some (restartTrackingAnimatedNode C { s with tasks := tasks } read animationId tag)
  | .eraseDeferred tag :: tasks, .next =>
    some { s with
      tasks := tasks, deferredAnimationForValues := Entries.without tag s.deferredAnimationForValues }
  | .erasePending animationId :: tasks, .next =>
    some { s with
      tasks := tasks
      pendingCompletionAnimations := Entries.without animationId s.pendingCompletionAnimations }
  | _, _ => none

/-- The driver got the end value of the active animation, and its frames. -/
def Follows (start : TrackingStart) : Prop :=
  match start.lead with
  | none => True
  | some lead =>
    start.received.lookup "toValue" = some (.double (lead.toValue C)) ∧
      match AnimationConfig.type C start.animationConfig with
      | .frames =>
        AnimationConfig.doubles C start.received "frames" =
          (AnimationConfig.doubles C start.animationConfig "frames").map
            (fun _ => .finite 0 Numbers.representable_zero) ++ lead.frames C
      | .spring => AnimationConfig.doubles C start.received "dynamicToValues" = lead.frames C
      | .decay => True

def tracked (s : Manager) (event : Event) : Option (AnimationConfig × Option AnimationDriver) :=
  match s.tasks, event with
  | [], .startTrackingNode node config value =>
    if node.useComposition then
      some (Entries.set "toValue" (.double value) config,
        (s.stopAnimation C node.animationId).lead node.toValueId)
    else none
  | .restartTracking animationId tag :: _, .next =>
    (s.activeAnimations.lookup animationId).map fun animation =>
      (read animation.config,
        lead { s with activeAnimations := Entries.without animationId s.activeAnimations } tag)
  | _, _ => none

/-- The configuration has no frames that are not the active animation's own. -/
def Fresh (animationConfig : AnimationConfig) (lead : Option AnimationDriver) : Prop :=
  match lead with
  | none => True
  | some lead =>
    match AnimationConfig.type C animationConfig with
    | .frames =>
      animationConfig.lookup "frames" = none ∨
        lead.frames C = [] ∧ ∀ frame ∈ AnimationConfig.doubles C animationConfig "frames",
          frame = .finite 0 Numbers.representable_zero
    | .spring =>
      animationConfig.lookup "dynamicToValues" = none ∨
        AnimationConfig.doubles C animationConfig "dynamicToValues" = lead.frames C
    | .decay => True

def FreshStep (s : Manager) (event : Event) : Prop :=
  ∀ start, tracked C read s event = some start → Fresh C start.1 start.2

section Received
variable {C}

variable {config : AnimationConfig} {name : String}

theorem doubles_congr {other : AnimationConfig} (h : config.lookup name = other.lookup name) :
    AnimationConfig.doubles C config name = AnimationConfig.doubles C other name := by
  rw [AnimationConfig.doubles, AnimationConfig.doubles, AnimationConfig.property, AnimationConfig.property, h]

theorem doubles_of_array {items : List (JSNode String)}
    (h : config.lookup name = some (.array items)) :
    AnimationConfig.doubles C config name = items.map C.asDouble := by
  rw [AnimationConfig.doubles, AnimationConfig.property, h]
  rfl

theorem map_asDouble (frames : List Double) : (frames.map JSNode.double).map C.asDouble = frames := by
  rw [List.map_map]
  exact List.map_id frames

/-- An array with a new name is as the driver should read it, and one with an old name stays as it was. -/
theorem doubles_emplace_iff {given : AnimationConfig} {frames expected : List Double}
    (hSame : config.lookup name = given.lookup name)
    (hNew : given.lookup name = none → frames = expected) :
    AnimationConfig.doubles C (Entries.emplace name (.array (frames.map .double)) config) name = expected ↔
      given.lookup name = none ∨ AnimationConfig.doubles C given name = expected := by
  cases hGiven : given.lookup name with
  | none =>
    rw [hGiven] at hSame
    rw [doubles_of_array (Entries.lookup_emplace_self hSame), map_asDouble]
    exact iff_of_true (hNew hGiven) (.inl rfl)
  | some old =>
    rw [hGiven] at hSame
    rw [Entries.emplace_of_some hSame, doubles_congr (hSame.trans hGiven.symm)]
    constructor
    · exact .inr
    · rintro (hNone | hOld)
      · cases hNone
      · exact hOld

/-- Frames are their own zeros and those of another animation only if there are none of these. -/
theorem zeros_append_iff {frames lead : List Double} {zero : Double} :
    frames = frames.map (fun _ => zero) ++ lead ↔ lead = [] ∧ ∀ frame ∈ frames, frame = zero := by
  constructor
  · intro h
    have hLead : lead = [] := by
      have hLength := congrArg List.length h
      rw [List.length_append, List.length_map] at hLength
      exact List.eq_nil_of_length_eq_zero (by omega)
    rw [hLead, List.append_nil] at h
    constructor
    · exact hLead
    · intro frame hMem
      rw [h] at hMem
      obtain ⟨_, -, rfl⟩ := List.mem_map.mp hMem
      rfl
  · rintro ⟨rfl, hZero⟩
    rw [List.append_nil]
    apply List.ext_getElem
    · rw [List.length_map]
    · intro index hFirst hSecond
      rw [List.getElem_map]
      exact hZero _ (List.getElem_mem hFirst)

theorem zeros_of_array (config : AnimationConfig) (name : String) (zero : Double) :
    (asArray (config.property name)).map (fun _ => (JSNode.double zero : JSNode String))
      = ((AnimationConfig.doubles C config name).map fun _ => zero).map .double := by
  rw [AnimationConfig.doubles, List.map_map, List.map_map]
  rfl

theorem updated_toValue (config : AnimationConfig) (lead : AnimationDriver) :
    (updatedAnimationConfig C config (some lead)).lookup "toValue" = some (.double (lead.toValue C)) := by
  have hSet : (Entries.set "toValue" (.double (lead.toValue C)) config).lookup "toValue"
      = some (.double (lead.toValue C)) := by
    rw [Entries.lookup_set]
    exact List.lookup_cons_self
  rw [updatedAnimationConfig]
  split
  next => rw [Entries.lookup_emplace_of_ne (by decide), hSet]
  next => rw [Entries.lookup_emplace_of_ne (by decide), hSet]
  next => exact hSet

theorem lookup_set_toValue (h : name ≠ "toValue") (value : JSNode String) (config : AnimationConfig) :
    (Entries.set "toValue" value config).lookup name = config.lookup name := by
  rw [Entries.lookup_set]
  exact Entries.lookup_cons_of_ne h config

def startOf (C : JSConverter) (start : AnimationConfig × Option AnimationDriver) : TrackingStart :=
  ⟨start.1, start.2, updatedAnimationConfig C start.1 start.2⟩

/-- A driver follows the active animation if and only if the configuration had no frames of its own. -/
theorem follows_iff (config : AnimationConfig) (lead : Option AnimationDriver) :
    Follows C (startOf C (config, lead)) ↔ Fresh C config lead := by
  cases lead with
  | none => exact Iff.rfl
  | some lead =>
    have hToValue := updated_toValue (C := C) config lead
    rw [Follows, startOf, Fresh]
    dsimp only
    rw [and_iff_right hToValue]
    rw [updatedAnimationConfig]
    cases hType : AnimationConfig.type C config with
    | decay => exact Iff.rfl
    | spring =>
      dsimp only
      exact doubles_emplace_iff (lookup_set_toValue (by decide) _ config) fun _ => rfl
    | frames =>
      dsimp only
      rw [zeros_of_array (C := C) config, ← List.map_append]
      rw [doubles_emplace_iff (lookup_set_toValue (by decide) _ config) fun _ => rfl]
      rw [zeros_append_iff]

end Received

section Step
variable {C read} {s t : Manager}

namespace Manager

@[simp]
theorem startAnimationAndTrackingNodes_starts (s : Manager) (tag : AnimationId) (nodeTag : Tag) :
    (s.startAnimationAndTrackingNodes tag nodeTag).starts = s.starts := by
  rw [startAnimationAndTrackingNodes]
  split <;> rfl

@[simp]
theorem startAnimatingNode_starts (s : Manager) (animationId : AnimationId) (tag : Tag)
    (config : AnimationConfig) : (s.startAnimatingNode C animationId tag config).starts = s.starts := by
  rw [startAnimatingNode]
  dsimp only
  split
  next =>
    split_ifs
    · rfl
    · exact startAnimationAndTrackingNodes_starts _ animationId tag
    · rfl
  next => rfl

@[simp]
theorem stopAnimation_starts (s : Manager) (animationId : AnimationId) :
    (s.stopAnimation C animationId).starts = s.starts := by
  rw [stopAnimation]
  split
  next => rfl
  next =>
    dsimp only
    split_ifs <;> rfl

@[simp]
theorem removeStoppedAnimation_starts (s : Manager) (animationId : AnimationId) :
    (s.removeStoppedAnimation animationId).starts = s.starts := by
  rw [removeStoppedAnimation]
  split
  next => rfl
  next =>
    dsimp only
    split_ifs
    · split
      next => exact startAnimationAndTrackingNodes_starts _ _ _
      next => rfl
    · rfl

theorem completeBatch_starts (s : Manager) (animationId : AnimationId) (ignoring : Bool) :
    (s.completeBatch animationId ignoring).starts = s.starts := by
  rw [completeBatch, removeStoppedAnimation_starts]
  cases ignoring <;> rfl

theorem startTrackingAnimatedNode_starts (s : Manager) (animationId : AnimationId)
    (tag toValueTag : Tag) (config : AnimationConfig) (track : Bool) :
    (s.startTrackingAnimatedNode C animationId tag toValueTag config track).starts
      = startOf C (config, s.lead toValueTag) :: s.starts := by
  rw [startTrackingAnimatedNode]
  exact startAnimatingNode_starts _ animationId tag _

end Manager

/-- A step records the start of the driver that tracks a node, if it starts one. -/
theorem starts_of_step {event : Event} (h : step C read s event = some t) :
    t.starts = ((tracked C read s event).map (startOf C)).toList ++ s.starts := by
  rw [step.eq_def] at h
  rw [tracked.eq_def]
  split at h
  next hTasks =>
    cases h
    rw [hTasks]
    exact startAnimatingNode_starts s _ _ _
  next hTasks =>
    cases h
    rw [hTasks]
    exact stopAnimation_starts s _
  next node config value hTasks =>
    cases h
    rw [hTasks, startTrackingNode]
    dsimp only
    split_ifs
    · rw [startTrackingAnimatedNode_starts, stopAnimation_starts]
      rfl
    · rw [startAnimatingNode_starts, stopAnimation_starts]
      rfl
  next hTasks =>
    cases h
    rw [hTasks]
    exact completeBatch_starts s _ _
  next animationId tag tasks hTasks =>
    cases h
    rw [hTasks, restartTrackingAnimatedNode]
    dsimp only
    cases s.activeAnimations.lookup animationId with
    | none => rfl
    | some animation =>
      dsimp only
      rw [startTrackingAnimatedNode_starts]
      rfl
  next hTasks =>
    cases h
    rw [hTasks]
    rfl
  next hTasks =>
    cases h
    rw [hTasks]
    rfl
  next => cases h

theorem step_of_tracked {event : Event} {start : AnimationConfig × Option AnimationDriver}
    (h : tracked C read s event = some start) : ∃ t, step C read s event = some t := by
  rw [tracked.eq_def] at h
  rw [step.eq_def]
  split at h
  next hTasks =>
    rw [hTasks]
    exact ⟨_, rfl⟩
  next hTasks =>
    rw [hTasks]
    exact ⟨_, rfl⟩
  next => cases h

end Step

/-- The drivers started to track a node follow its active animation. -/
def AllFollow (s : Manager) : Prop := ∀ start ∈ s.starts, Follows C start

variable {C read}

theorem fresh_of_follows {events : List Event}
    (h : Throughout (step C read) (AllFollow C) .initial events) :
    Allowed (step C read) (FreshStep C read) .initial events := by
  apply h.allowed_of_step (P := fun _ => True) trivial
  · intro s event t _ _ _
    trivial
  · intro s event _ hAll start hTracked
    obtain ⟨t, hStep⟩ := step_of_tracked hTracked
    have hStarts := starts_of_step hStep
    rw [hTracked] at hStarts
    have hMem : startOf C start ∈ t.starts := by
      rw [hStarts]
      exact List.mem_append_left _ (List.mem_singleton_self _)
    exact (follows_iff start.1 start.2).mp (hAll t hStep _ hMem)

theorem allFollow_step {s t : Manager} {event : Event} (h : AllFollow C s) (hFresh : FreshStep C read s event)
    (hStep : step C read s event = some t) : AllFollow C t := by
  intro start hMem
  rw [starts_of_step hStep] at hMem
  rcases List.mem_append.mp hMem with hNew | hOld
  · obtain ⟨given, hTracked, rfl⟩ := Option.map_eq_some_iff.mp (Option.mem_toList.mp hNew)
    exact (follows_iff given.1 given.2).mpr (hFresh given hTracked)
  · exact h start hOld

variable (C read)

/-- In each run, the end value is that of the active animation. -/
theorem toValue_follows (events : List Event) :
    Throughout (step C read) (fun s => ∀ start ∈ s.starts, ∀ lead, start.lead = some lead →
      start.received.lookup "toValue" = some (.double (lead.toValue C))) .initial events := by
  apply Control.throughout_of_step
  · nofun
  · intro s event t h hStep start hMem
    rw [starts_of_step hStep] at hMem
    rcases List.mem_append.mp hMem with hNew | hOld
    · obtain ⟨⟨config, active⟩, -, rfl⟩ := Option.map_eq_some_iff.mp (Option.mem_toList.mp hNew)
      intro lead hLead
      cases (show active = some lead from hLead)
      exact updated_toValue config lead
    · exact h start hOld

/-- In all states of a run, the drivers that track a node follow its active animation, if and only if each of
them is started with a configuration that has no frames yet: they are inserted where they should be
overwritten. -/
theorem tracking_follows_iff (events : List Event) :
    Throughout (step C read) (AllFollow C) .initial events ↔
      Allowed (step C read) (FreshStep C read) .initial events := by
  constructor
  · exact fresh_of_follows
  · intro h
    apply h.throughout
    · nofun
    · intro s event t hFollow hFresh hStep
      exact allFollow_step hFollow hFresh hStep

/-- A timing animation with one frame, and another one that tracks its node. -/
theorem own_frames_stay :
    ¬ Throughout (step ⟨fun _ => "", fun _ => .nan, fun _ => false⟩ id)
      (AllFollow ⟨fun _ => "", fun _ => .nan, fun _ => false⟩) .initial
      [.startAnimatingNode 1 1 [("type", .string "frames"), ("frames", .array [.int64 1]), ("toValue", .int64 5)],
        .startTrackingNode ⟨⟨true, .empty⟩, 2, 1, 2⟩
          [("type", .string "frames"), ("frames", .array [.int64 1])] (.ofInt64 0)] := by
  intro h
  obtain ⟨-, hRest⟩ := fresh_of_follows h
  obtain ⟨hFresh, -⟩ := hRest _ rfl
  rcases hFresh _ rfl with hNone | ⟨hNone, -⟩
  · cases hNone
  · cases hNone

end ReactNative.Animated.Tracking
