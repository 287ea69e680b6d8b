import Mathlib.Data.Finset.Basic
import Mathlib.Data.Int.Basic

/-! Composition animations of a `NativeAnimatedNodeManager` and their drivers. No tracking node is
connected, so that there are no animations to restart when another one starts. -/
namespace ReactNative.Animated

abbrev AnimationId := ℤ
abbrev Tag := ℤ

structure AnimationDriver where
  animatedValueTag : Tag
  useComposition : Bool
  endCallback : Bool
  started : Bool
  stopped : Bool
  ignoreCompletedHandlers : Bool
  deriving DecidableEq

/-- The maps of drivers have the driver that `drivers` names for their keys. `startedBatches` are
the scoped batches that have ended but have not completed, and `endCallbacks` the calls of end
callbacks, the last one first. -/
structure NativeAnimatedNodeManager where
  valueNodes : Tag → Bool
  drivers : AnimationId → AnimationDriver
  activeAnimations : Finset AnimationId
  pendingCompletionAnimations : Finset AnimationId
  valuesWithStoppedAnimation : Finset Tag
  deferredAnimationForValues : Tag → Option AnimationId
  startedBatches : List AnimationId
  endCallbacks : List (AnimationId × Bool)

namespace NativeAnimatedNodeManager

def initial (valueNodes : Tag → Bool) : NativeAnimatedNodeManager where
  valueNodes := valueNodes
  drivers _ := ⟨-1, false, false, false, false, false⟩
  activeAnimations := ∅
  pendingCompletionAnimations := ∅
  valuesWithStoppedAnimation := ∅
  deferredAnimationForValues _ := none
  startedBatches := []
  endCallbacks := []

def setDriver (s : NativeAnimatedNodeManager) (animationId : AnimationId)
    (driver : AnimationDriver) : NativeAnimatedNodeManager :=
  { s with drivers := Function.update s.drivers animationId driver }

def doCallback (s : NativeAnimatedNodeManager) (animationId : AnimationId) (value : Bool) :
    NativeAnimatedNodeManager :=
  let driver := s.drivers animationId
  if driver.endCallback then
    { s.setDriver animationId { driver with endCallback := false } with
      endCallbacks := (animationId, value) :: s.endCallbacks }
  else s

def startDriver (s : NativeAnimatedNodeManager) (animationId : AnimationId) :
    Except String NativeAnimatedNodeManager :=
  let driver := s.drivers animationId
  if driver.useComposition then
    -- `MakeAnimation` reads the value of the node without a check.
    if s.valueNodes driver.animatedValueTag then
      .ok { s.setDriver animationId { driver with started := true } with
        startedBatches := animationId :: s.startedBatches }
    else .error "access violation"
  else .error "m_useComposition"

def stopDriver (s : NativeAnimatedNodeManager) (animationId : AnimationId)
    (ignoreCompletedHandlers : Bool) : NativeAnimatedNodeManager :=
  let driver := s.drivers animationId
  if driver.useComposition && driver.started then
    if s.valueNodes driver.animatedValueTag then
      s.setDriver animationId
        { driver with stopped := true, ignoreCompletedHandlers := ignoreCompletedHandlers }
    else s
  else s.doCallback animationId false

def stopAnimation (s : NativeAnimatedNodeManager) (animationId : AnimationId)
    (isTrackingAnimation : Bool) : Except String NativeAnimatedNodeManager :=
  if animationId ∈ s.activeAnimations then do
    let s := s.stopDriver animationId isTrackingAnimation
    let driver := s.drivers animationId
    let s ← if driver.useComposition then
        let s := { s with
          pendingCompletionAnimations := insert animationId s.pendingCompletionAnimations }
        let nodeTag := driver.animatedValueTag
        if nodeTag = -1 then .ok s
        else
          match s.deferredAnimationForValues nodeTag with
          | some deferredAnimation =>
            if deferredAnimation = animationId then
              .ok { s with deferredAnimationForValues :=
                Function.update s.deferredAnimationForValues nodeTag none }
            else .error "deferredAnimation->second == animationId"
          | none =>
            if nodeTag ∈ s.valuesWithStoppedAnimation then
              .error "!m_valuesWithStoppedAnimation.count(nodeTag)"
            else .ok { s with
              valuesWithStoppedAnimation := insert nodeTag s.valuesWithStoppedAnimation }
      else .ok s
    return { s with activeAnimations := s.activeAnimations.erase animationId }
  else .ok s

def startAnimationAndTrackingNodes (s : NativeAnimatedNodeManager) (animationId : AnimationId) :
    Except String NativeAnimatedNodeManager :=
  if animationId ∈ s.activeAnimations then s.startDriver animationId else .ok s

def startAnimatingNode (s : NativeAnimatedNodeManager) (animationId : AnimationId)
    (animatedNodeTag : Tag) (useComposition endCallback : Bool) :
    Except String NativeAnimatedNodeManager :=
  let s := if animationId ∈ s.activeAnimations then s
    else
      { s.setDriver animationId ⟨animatedNodeTag, useComposition, endCallback, false, false, false⟩
        with activeAnimations := insert animationId s.activeAnimations }
  if (s.drivers animationId).useComposition then
    if animatedNodeTag ∈ s.valuesWithStoppedAnimation then
      if (s.deferredAnimationForValues animatedNodeTag).isSome then
        .error "!m_deferredAnimationForValues.count(animatedNodeTag)"
      else
        .ok { s with deferredAnimationForValues :=
          Function.update s.deferredAnimationForValues animatedNodeTag (some animationId) }
    else s.startAnimationAndTrackingNodes animationId
  else .ok s

def startDeferredAnimationsForValueNode (s : NativeAnimatedNodeManager) (tag : Tag) :
    Except String NativeAnimatedNodeManager :=
  match s.deferredAnimationForValues tag with
  | some deferredAnimationTag => do
    let s ← s.startAnimationAndTrackingNodes deferredAnimationTag
    return { s with
      deferredAnimationForValues := Function.update s.deferredAnimationForValues tag none }
  | none => .ok s

def removeStoppedAnimation (s : NativeAnimatedNodeManager) (tag : AnimationId) :
    Except String NativeAnimatedNodeManager :=
  if tag ∈ s.pendingCompletionAnimations then do
    let nodeTag := (s.drivers tag).animatedValueTag
    let s ← if nodeTag ∈ s.valuesWithStoppedAnimation then
        let s := { s with
          valuesWithStoppedAnimation := s.valuesWithStoppedAnimation.erase nodeTag }
        s.startDeferredAnimationsForValueNode nodeTag
      else .ok s
    return { s with pendingCompletionAnimations := s.pendingCompletionAnimations.erase tag }
  else .ok s

/-- The handler for the completion of a batch. The destructor of a driver revokes it. -/
def completed (s : NativeAnimatedNodeManager) (id : AnimationId) :
    Except String NativeAnimatedNodeManager :=
  if id ∈ s.activeAnimations ∪ s.pendingCompletionAnimations then do
    let ignoreCompletedHandlers := (s.drivers id).ignoreCompletedHandlers
    let s := if ignoreCompletedHandlers then s
      else { s with activeAnimations := s.activeAnimations.erase id }
    let s ← s.removeStoppedAnimation id
    return if ignoreCompletedHandlers then s else s.doCallback id !(s.drivers id).stopped
  else .ok s

end NativeAnimatedNodeManager

/-- The manager, and what JS has asked for: the animations with their value nodes, those it has
stopped before their end was told, and those of them that were still deferred. -/
structure System where
  manager : NativeAnimatedNodeManager
  requested : List (AnimationId × Tag)
  stopped : List AnimationId
  stoppedDeferred : List AnimationId

inductive Action where
  | startAnimatingNode (animationId : AnimationId) (animatedNodeTag : Tag)
  | stopAnimation (animationId : AnimationId)
  | completeBatch (animationId : AnimationId)

namespace System

def initial (valueNodes : Tag → Bool) : System := ⟨.initial valueNodes, [], [], []⟩

def isEnded (s : System) (animationId : AnimationId) : Bool :=
  s.manager.endCallbacks.any fun call => call.1 = animationId

def isRequested (s : System) (animationId : AnimationId) : Bool :=
  s.requested.any fun request => request.1 = animationId

def isDeferred (s : System) (animationId : AnimationId) : Bool :=
  s.requested.any fun request => request.1 = animationId &&
    s.manager.deferredAnimationForValues request.2 = some animationId

/-- JS uses an id once, and has at most one animation of a node that it has not stopped and whose
end it was not told. The system completes batches that were started. -/
def Allowed (s : System) : Action → Prop
  | .startAnimatingNode animationId animatedNodeTag =>
    s.isRequested animationId = false ∧ s.manager.valueNodes animatedNodeTag = true ∧
      animatedNodeTag ≠ -1 ∧ ∀ request ∈ s.requested, request.2 = animatedNodeTag →
        request.1 ∈ s.stopped ∨ s.isEnded request.1 = true
  | .stopAnimation _ => True
  | .completeBatch animationId => animationId ∈ s.manager.startedBatches

instance (s : System) (action : Action) : Decidable (s.Allowed action) := by
  cases action <;> unfold Allowed <;> infer_instance

def step (s : System) : Action → Except String System
  | .startAnimatingNode animationId animatedNodeTag => do
    let manager ← s.manager.startAnimatingNode animationId animatedNodeTag true true
    return { s with
      manager := manager, requested := (animationId, animatedNodeTag) :: s.requested }
  | .stopAnimation animationId => do
    let manager ← s.manager.stopAnimation animationId false
    return { s with
      manager := manager
      stopped := if s.isRequested animationId && !s.isEnded animationId then
        animationId :: s.stopped else s.stopped
      stoppedDeferred := if s.isDeferred animationId then animationId :: s.stoppedDeferred
        else s.stoppedDeferred }
  | .completeBatch animationId => do
    let manager := { s.manager with
      startedBatches := s.manager.startedBatches.erase animationId }
    return { s with manager := ← manager.completed animationId }

inductive Reachable (valueNodes : Tag → Bool) : System → Prop where
  | initial : Reachable valueNodes (initial valueNodes)
  | step {s t : System} (action : Action) (prior : Reachable valueNodes s)
      (allowed : s.Allowed action) (last : s.step action = .ok t) : Reachable valueNodes t

end System

end ReactNative.Animated
