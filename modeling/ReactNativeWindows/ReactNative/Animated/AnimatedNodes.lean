import ReactNativeWindows.Collections.Entries
import ReactNativeWindows.ReactNative.Animated.NativeAnimatedNodeManager

/-! The nodes of a `NativeAnimatedNodeManager`, which are in a map for each kind of node. -/
namespace ReactNative.Animated

open Collections (Entries)

/-- A `std::unordered_set` of tags, in the order in which it is iterated. -/
structure TagSet where
  tags : List Tag
  nodup : tags.Nodup

namespace TagSet

def empty : TagSet := ⟨[], List.nodup_nil⟩

def insert (set : TagSet) (tag : Tag) : TagSet :=
  if h : tag ∈ set.tags then set
  else ⟨tag :: set.tags, List.nodup_cons.mpr ⟨h, set.nodup⟩⟩

end TagSet

structure AnimatedNode where
  useComposition : Bool
  children : TagSet

structure ValueAnimatedNode (F : Type*) extends AnimatedNode where
  rawValue : F
  offset : F
  activeTrackingNodes : TagSet

structure TrackingAnimatedNode extends AnimatedNode where
  animationId : AnimationId
  toValueId : Tag
  valueId : Tag

structure AnimatedNodes (F : Type*) where
  valueNodes : Entries Tag (ValueAnimatedNode F)
  propsNodes : Entries Tag AnimatedNode
  styleNodes : Entries Tag AnimatedNode
  transformNodes : Entries Tag AnimatedNode
  trackingNodes : Entries Tag TrackingAnimatedNode

namespace AnimatedNodes

variable {F : Type*} (nodes : AnimatedNodes F)

def empty : AnimatedNodes F := ⟨[], [], [], [], []⟩

def getAnimatedNode (tag : Tag) : Option AnimatedNode :=
  match nodes.valueNodes.lookup tag with
  | some node => some node.toAnimatedNode
  | none =>
    match nodes.styleNodes.lookup tag with
    | some node => some node
    | none =>
      match nodes.propsNodes.lookup tag with
      | some node => some node
      | none =>
        match nodes.transformNodes.lookup tag with
        | some node => some node
        | none => (nodes.trackingNodes.lookup tag).map TrackingAnimatedNode.toAnimatedNode

def getValueAnimatedNode (tag : Tag) : Option (ValueAnimatedNode F) := nodes.valueNodes.lookup tag

def getPropsAnimatedNode (tag : Tag) : Option AnimatedNode := nodes.propsNodes.lookup tag

def getTrackingAnimatedNode (tag : Tag) : Option TrackingAnimatedNode := nodes.trackingNodes.lookup tag

end AnimatedNodes

end ReactNative.Animated
