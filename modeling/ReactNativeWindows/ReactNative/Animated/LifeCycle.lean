import ReactNativeWindows.ReactNative.Animated.NativeAnimatedNodeManager

/-! The phases of an animation, and which animations of one value there are at a time. -/
namespace ReactNative.Animated

namespace NativeAnimatedNodeManager
variable {s : NativeAnimatedNodeManager} {id other : AnimationId} {tag : Tag}

/-- The driver of an animation before and after it is started, and when it is stopped. -/
def newDriver (tag : Tag) : AnimationDriver := ⟨tag, true, true, false, false, false⟩

def runningDriver (tag : Tag) : AnimationDriver := ⟨tag, true, true, true, false, false⟩

def stoppedDriver (tag : Tag) : AnimationDriver := ⟨tag, true, true, true, true, false⟩

def startDeferred (s : NativeAnimatedNodeManager) (id : AnimationId) (tag : Tag) :
    NativeAnimatedNodeManager :=
  { s.setDriver id (newDriver tag) with
    activeAnimations := insert id s.activeAnimations
    deferredAnimationForValues := Function.update s.deferredAnimationForValues tag (some id) }

def startRunning (s : NativeAnimatedNodeManager) (id : AnimationId) (tag : Tag) :
    NativeAnimatedNodeManager :=
  { s.setDriver id (runningDriver tag) with
    activeAnimations := insert id s.activeAnimations
    startedBatches := id :: s.startedBatches }

def stopRunning (s : NativeAnimatedNodeManager) (id : AnimationId) (tag : Tag) :
    NativeAnimatedNodeManager :=
  { s.setDriver id (stoppedDriver tag) with
    activeAnimations := s.activeAnimations.erase id
    pendingCompletionAnimations := insert id s.pendingCompletionAnimations
    valuesWithStoppedAnimation := insert tag s.valuesWithStoppedAnimation }

def tellEnd (s : NativeAnimatedNodeManager) (id : AnimationId) (value : Bool) :
    NativeAnimatedNodeManager :=
  { s.setDriver id { s.drivers id with endCallback := false } with
    activeAnimations := s.activeAnimations.erase id
    endCallbacks := (id, value) :: s.endCallbacks }

def stopDeferred (s : NativeAnimatedNodeManager) (id : AnimationId) (tag : Tag) :
    NativeAnimatedNodeManager :=
  { s.tellEnd id false with
    pendingCompletionAnimations := insert id s.pendingCompletionAnimations
    deferredAnimationForValues := Function.update s.deferredAnimationForValues tag none }

def completeStopped (s : NativeAnimatedNodeManager) (id : AnimationId) (tag : Tag) :
    NativeAnimatedNodeManager :=
  { s.tellEnd id false with
    pendingCompletionAnimations := s.pendingCompletionAnimations.erase id
    valuesWithStoppedAnimation := s.valuesWithStoppedAnimation.erase tag }

def startWaiting (s : NativeAnimatedNodeManager) (id : AnimationId) (tag : Tag) :
    NativeAnimatedNodeManager :=
  { s.setDriver id (runningDriver tag) with
    startedBatches := id :: s.startedBatches
    deferredAnimationForValues := Function.update s.deferredAnimationForValues tag none }

theorem startAnimatingNode_deferred (hActive : id ∉ s.activeAnimations)
    (hStopped : tag ∈ s.valuesWithStoppedAnimation)
    (hFree : s.deferredAnimationForValues tag = none) :
    s.startAnimatingNode id tag true true = .ok (s.startDeferred id tag) := by
  simp [startAnimatingNode, hActive, setDriver, hStopped, hFree, startDeferred, newDriver]

theorem startAnimatingNode_running (hActive : id ∉ s.activeAnimations)
    (hStopped : tag ∉ s.valuesWithStoppedAnimation) (hNode : s.valueNodes tag = true) :
    s.startAnimatingNode id tag true true = .ok (s.startRunning id tag) := by
  simp [startAnimatingNode, hActive, setDriver, hStopped, hNode, startRunning, runningDriver,
    startAnimationAndTrackingNodes, startDriver]

theorem stopAnimation_not_active (hActive : id ∉ s.activeAnimations) :
    s.stopAnimation id false = .ok s := if_neg hActive

theorem stopAnimation_running (hActive : id ∈ s.activeAnimations)
    (hDriver : s.drivers id = runningDriver tag) (hNode : s.valueNodes tag = true)
    (hTag : tag ≠ -1) (hFree : s.deferredAnimationForValues tag = none)
    (hStopped : tag ∉ s.valuesWithStoppedAnimation) :
    s.stopAnimation id false = .ok (s.stopRunning id tag) := by
  simp [stopAnimation, hActive, stopDriver, hDriver, runningDriver, setDriver, hNode, hTag, hFree,
    hStopped, stopRunning, stoppedDriver]

theorem stopAnimation_deferred (hActive : id ∈ s.activeAnimations)
    (hDriver : s.drivers id = newDriver tag) (hTag : tag ≠ -1)
    (hDeferred : s.deferredAnimationForValues tag = some id) :
    s.stopAnimation id false = .ok (s.stopDeferred id tag) := by
  simp [stopAnimation, hActive, stopDriver, hDriver, newDriver, doCallback, setDriver, hTag,
    hDeferred, stopDeferred, tellEnd]

/-- The batch of an animation that was not stopped has completed. -/
theorem completed_running (hActive : id ∈ s.activeAnimations)
    (hPending : id ∉ s.pendingCompletionAnimations) (hDriver : s.drivers id = runningDriver tag) :
    s.completed id = .ok (s.tellEnd id true) := by
  simp [completed, hActive, hDriver, runningDriver, removeStoppedAnimation, hPending, doCallback,
    setDriver, tellEnd]

/-- The batch of a stopped animation has completed, and no other one waits for it. -/
theorem completed_stopped (hPending : id ∈ s.pendingCompletionAnimations)
    (hDriver : s.drivers id = stoppedDriver tag) (hStopped : tag ∈ s.valuesWithStoppedAnimation)
    (hFree : s.deferredAnimationForValues tag = none) :
    s.completed id = .ok (s.completeStopped id tag) := by
  simp [completed, hDriver, stoppedDriver, removeStoppedAnimation, hPending, doCallback, setDriver,
    hStopped, startDeferredAnimationsForValueNode, hFree, completeStopped, tellEnd]

theorem completed_stopped_deferred (hPending : id ∈ s.pendingCompletionAnimations)
    (hDriver : s.drivers id = stoppedDriver tag) (hStopped : tag ∈ s.valuesWithStoppedAnimation)
    (hDeferred : s.deferredAnimationForValues tag = some other)
    (hActive : other ∈ s.activeAnimations) (hOther : other ≠ id)
    (hNew : s.drivers other = newDriver tag) (hNode : s.valueNodes tag = true) :
    s.completed id = .ok ((s.startWaiting other tag).completeStopped id tag) := by
  simp [completed, hDriver, stoppedDriver, removeStoppedAnimation, hPending, doCallback, setDriver,
    hStopped, startDeferredAnimationsForValueNode, hDeferred, startAnimationAndTrackingNodes,
    hActive, hOther, hOther.symm, startDriver, hNew, newDriver, runningDriver, hNode, startWaiting,
    completeStopped, tellEnd]

end NativeAnimatedNodeManager

open NativeAnimatedNodeManager

/-- An animation goes from `fresh` to one of the last three. It is `dropped` when it is stopped
while it waits for another one of its value, `interrupted` when it is stopped later. -/
inductive Phase where
  | fresh
  | deferred (tag : Tag)
  | running (tag : Tag)
  | stopping (tag : Tag)
  | dropped (tag : Tag)
  | interrupted (tag : Tag)
  | finished (tag : Tag)
  deriving DecidableEq

def advance (phase : AnimationId → Phase) (id : AnimationId) (p : Phase) : AnimationId → Phase :=
  fun other => if other = id then p else phase other

/-- The composition system has a batch of the animation, which is one of that value. -/
def Phase.hasBatch (tag : Tag) (phase : Phase) : Prop := phase = running tag ∨ phase = stopping tag

/-- Of the animations of one value at most one has a batch, and another one waits only for that
one to stop. -/
structure Orderly (phase : AnimationId → Phase) : Prop where
  alone : ∀ {tag id other}, (phase id).hasBatch tag → (phase other).hasBatch tag → id = other
  waits : ∀ {tag id}, phase id = .deferred tag → ∃ other, phase other = .stopping tag

section Phases
variable {phase : AnimationId → Phase} {p q : Phase} {id other : AnimationId} {tag value : Tag}

theorem advance_self (phase : AnimationId → Phase) (id : AnimationId) (p : Phase) :
    advance phase id p id = p := if_pos rfl

theorem advance_of_ne (h : other ≠ id) (phase : AnimationId → Phase) (p : Phase) :
    advance phase id p other = phase other := if_neg h

theorem exists_advance (h : phase id ≠ q) :
    (∃ other, advance phase id p other = q) ↔ p = q ∨ ∃ other, phase other = q := by
  constructor
  · rintro ⟨other, hOther⟩
    by_cases hSame : other = id
    · subst hSame
      exact .inl ((advance_self ..).symm.trans hOther)
    · exact .inr ⟨other, (advance_of_ne hSame ..).symm.trans hOther⟩
  · rintro (rfl | ⟨other, hOther⟩)
    · exact ⟨id, advance_self ..⟩
    · have hSame : other ≠ id := fun hEq => h (hEq ▸ hOther)
      exact ⟨other, (advance_of_ne hSame ..).trans hOther⟩

/-- The value of a stopped animation is free again when that one ends. -/
theorem exists_stopping_advance (hOrder : Orderly phase) (hId : phase id = .stopping tag)
    (hp : ∀ value, p ≠ .stopping value) :
    (∃ other, advance phase id p other = .stopping value) ↔
      value ≠ tag ∧ ∃ other, phase other = .stopping value := by
  constructor
  · rintro ⟨other, hOther⟩
    have hSame : other ≠ id := fun hEq => by
      rw [hEq, advance_self] at hOther
      exact hp value hOther
    rw [advance_of_ne hSame] at hOther
    refine ⟨?_, other, hOther⟩
    rintro rfl
    exact hSame (hOrder.alone (.inr hOther) (.inr hId))
  · rintro ⟨hValue, other, hOther⟩
    have hSame : other ≠ id := fun hEq => by
      rw [hEq, hId] at hOther
      exact hValue (Phase.stopping.inj hOther).symm
    exact ⟨other, (advance_of_ne hSame ..).trans hOther⟩

theorem Orderly.goesTo (hOrder : Orderly phase)
    (hAlone : ∀ tag, p.hasBatch tag → ∀ other ≠ id, ¬(phase other).hasBatch tag)
    (hWaits : ∀ tag, p = .deferred tag → ∃ other ≠ id, phase other = .stopping tag)
    (hLeft : ∀ tag, phase id = .stopping tag → ∀ other ≠ id, phase other ≠ .deferred tag) :
    Orderly (advance phase id p) where
  alone {tag one other} hOne hOther := by
    by_cases hSame : one = id <;> by_cases hSame' : other = id
    · rw [hSame, hSame']
    · rw [hSame, advance_self] at hOne
      rw [advance_of_ne hSame'] at hOther
      exact absurd hOther (hAlone tag hOne other hSame')
    · rw [hSame', advance_self] at hOther
      rw [advance_of_ne hSame] at hOne
      exact absurd hOne (hAlone tag hOther one hSame)
    · rw [advance_of_ne hSame] at hOne
      rw [advance_of_ne hSame'] at hOther
      exact hOrder.alone hOne hOther
  waits {tag one} hOne := by
    by_cases hSame : one = id
    · rw [hSame, advance_self] at hOne
      obtain ⟨other, hOther, hStopping⟩ := hWaits tag hOne
      exact ⟨other, (advance_of_ne hOther ..).trans hStopping⟩
    · rw [advance_of_ne hSame] at hOne
      obtain ⟨other, hStopping⟩ := hOrder.waits hOne
      have hOther : other ≠ id := fun hEq =>
        hLeft tag (hEq ▸ hStopping) one hSame hOne
      exact ⟨other, (advance_of_ne hOther ..).trans hStopping⟩

/-- The animation that waits for a stopped one starts when that one ends. -/
theorem Orderly.replace (hOrder : Orderly phase) (hId : phase id = .stopping tag)
    (hOther : phase other = .deferred tag)
    (hOne : ∀ one, phase one = .deferred tag → one = other) :
    Orderly (advance (advance phase id (.interrupted tag)) other (.running tag)) where
  alone {value one two} hOneBatch hTwoBatch := by
    have hBatch : ∀ {x}, (advance (advance phase id (.interrupted tag)) other (.running tag) x).hasBatch
        value → (x = other ∧ value = tag) ∨ (x ≠ id ∧ (phase x).hasBatch value) := by
      intro x hx
      by_cases hx' : x = other
      · rw [hx', advance_self] at hx
        rcases hx with hx | hx <;> cases hx
        exact .inl ⟨hx', rfl⟩
      · rw [advance_of_ne hx'] at hx
        by_cases hxId : x = id
        · rw [hxId, advance_self] at hx
          rcases hx with hx | hx <;> cases hx
        · rw [advance_of_ne hxId] at hx
          exact .inr ⟨hxId, hx⟩
    rcases hBatch hOneBatch with ⟨hSame, hValue⟩ | ⟨hNe, hOld⟩ <;>
      rcases hBatch hTwoBatch with ⟨hSame', hValue'⟩ | ⟨hNe', hOld'⟩
    · rw [hSame, hSame']
    · subst hValue
      exact absurd (hOrder.alone hOld' (.inr hId)) hNe'
    · subst hValue'
      exact absurd (hOrder.alone hOld (.inr hId)) hNe
    · exact hOrder.alone hOld hOld'
  waits {value one} hWaits := by
    have hDeferred : one ≠ other ∧ phase one = .deferred value := by
      by_cases hx : one = other
      · rw [hx, advance_self] at hWaits
        cases hWaits
      · rw [advance_of_ne hx] at hWaits
        by_cases hxId : one = id
        · rw [hxId, advance_self] at hWaits
          cases hWaits
        · exact ⟨hx, (advance_of_ne hxId ..).symm.trans hWaits⟩
    obtain ⟨stopping, hStopping⟩ := hOrder.waits hDeferred.2
    have hId' : stopping ≠ id := by
      rintro rfl
      rw [hId] at hStopping
      cases hStopping
      exact hDeferred.1 (hOne one hDeferred.2)
    have hOther' : stopping ≠ other := by
      rintro rfl
      rw [hOther] at hStopping
      cases hStopping
    exact ⟨stopping, by rw [advance_of_ne hOther', advance_of_ne hId', hStopping]⟩

end Phases

structure View where
  tags : List Tag
  active : Bool
  batches : ℕ
  pending : Bool
  driver : AnimationDriver
  calls : List Bool
  stopped : Bool
  stoppedDeferred : Bool

/-- What they say of an animation in that phase. -/
def Phase.Fits : Phase → View → Prop
  | fresh, v => ∃ driver, v = ⟨[], false, 0, false, driver, [], false, false⟩
  | deferred tag, v => v = ⟨[tag], true, 0, false, newDriver tag, [], false, false⟩
  | running tag, v => v = ⟨[tag], true, 1, false, runningDriver tag, [], false, false⟩
  | stopping tag, v => v = ⟨[tag], false, 1, true, stoppedDriver tag, [], true, false⟩
  | dropped tag, v => ∃ driver, v = ⟨[tag], false, 0, true, driver, [false], true, true⟩
  | interrupted tag, v => ∃ driver, v = ⟨[tag], false, 0, false, driver, [false], true, false⟩
  | finished tag, v => ∃ driver, v = ⟨[tag], false, 0, false, driver, [true], false, false⟩

namespace System

def callsOf (s : System) (id : AnimationId) : List Bool :=
  (s.manager.endCallbacks.filter fun call => call.1 = id).map Prod.snd

def view (s : System) (id : AnimationId) : View where
  tags := (s.requested.filter fun request => request.1 = id).map Prod.snd
  active := id ∈ s.manager.activeAnimations
  batches := s.manager.startedBatches.count id
  pending := id ∈ s.manager.pendingCompletionAnimations
  driver := s.manager.drivers id
  calls := s.callsOf id
  stopped := id ∈ s.stopped
  stoppedDeferred := id ∈ s.stoppedDeferred

structure Simulates (s : System) (phase : AnimationId → Phase) : Prop where
  views : ∀ id, (phase id).Fits (s.view id)
  stopped : ∀ tag, tag ∈ s.manager.valuesWithStoppedAnimation ↔ ∃ id, phase id = .stopping tag
  deferred : ∀ tag id,
    s.manager.deferredAnimationForValues tag = some id ↔ phase id = .deferred tag
  orderly : Orderly phase
  nodes : ∀ tag id, (phase id).hasBatch tag ∨ phase id = .deferred tag →
    s.manager.valueNodes tag = true ∧ tag ≠ -1

variable {s : System} {phase : AnimationId → Phase} {id : AnimationId} {tag : Tag}

theorem isRequested_eq (s : System) (id : AnimationId) :
    s.isRequested id = !(s.view id).tags.isEmpty := by
  unfold isRequested view
  induction s.requested with
  | nil => rfl
  | cons request requested ih =>
    by_cases hSame : request.1 = id
    · simp [hSame]
    · simpa [hSame] using ih

theorem isEnded_eq (s : System) (id : AnimationId) :
    s.isEnded id = !(s.view id).calls.isEmpty := by
  unfold isEnded view callsOf
  induction s.manager.endCallbacks with
  | nil => rfl
  | cons call calls ih =>
    by_cases hSame : call.1 = id
    · simp [hSame]
    · simpa [hSame] using ih

theorem mem_tags {s : System} : tag ∈ (s.view id).tags ↔ (id, tag) ∈ s.requested := by
  simp [view]

namespace Simulates

theorem initial (valueNodes : Tag → Bool) :
    Simulates (System.initial valueNodes) fun _ => .fresh where
  views _ := ⟨_, rfl⟩
  stopped tag := by simp [System.initial, NativeAnimatedNodeManager.initial]
  deferred tag id := by simp [System.initial, NativeAnimatedNodeManager.initial]
  orderly := ⟨fun h => by simp [Phase.hasBatch] at h, nofun⟩
  nodes _ _ h := by simp [Phase.hasBatch] at h

theorem fits (hSim : s.Simulates phase) {p : Phase} (h : phase id = p) : p.Fits (s.view id) :=
  h ▸ hSim.views id

theorem fresh_of_not_requested (hSim : s.Simulates phase) (h : s.isRequested id = false) :
    phase id = .fresh := by
  rw [isRequested_eq] at h
  cases hPhase : phase id with
  | fresh => rfl
  | deferred tag | running tag | stopping tag =>
    rw [hSim.fits hPhase] at h
    cases h
  | dropped tag | interrupted tag | finished tag =>
    obtain ⟨driver, hView⟩ := hSim.fits hPhase
    rw [hView] at h
    cases h

section Steps
variable {t : System} {p : Phase}

/-- One animation goes to another phase. -/
theorem views_update (hSim : s.Simulates phase) (hOthers : ∀ other ≠ id, t.view other = s.view other)
    (hView : p.Fits (t.view id)) (other : AnimationId) :
    (advance phase id p other).Fits (t.view other) := by
  by_cases hSame : other = id
  · subst hSame
    rwa [advance_self]
  · rw [advance_of_ne hSame, hOthers other hSame]
    exact hSim.views other

theorem nodes_advance {N : Tag → Prop}
    (h : ∀ tag id, (phase id).hasBatch tag ∨ phase id = .deferred tag → N tag)
    (hp : ∀ tag, p.hasBatch tag ∨ p = .deferred tag → N tag) (tag : Tag) (other : AnimationId)
    (hUses : (advance phase id p other).hasBatch tag ∨ advance phase id p other = .deferred tag) :
    N tag := by
  by_cases hSame : other = id
  · rw [hSame, advance_self] at hUses
    exact hp tag hUses
  · rw [advance_of_ne hSame] at hUses
    exact h tag other hUses

theorem free (hSim : s.Simulates phase) (h : ∀ other, phase other ≠ .deferred tag) :
    s.manager.deferredAnimationForValues tag = none :=
  Option.eq_none_iff_forall_ne_some.mpr fun other hOther =>
    h other ((hSim.deferred tag other).mp hOther)

theorem one_waits (hSim : s.Simulates phase) (h : phase id = .deferred tag) {other : AnimationId}
    (hOther : phase other = .deferred tag) : id = other :=
  Option.some.inj (((hSim.deferred tag id).mpr h).symm.trans ((hSim.deferred tag other).mpr hOther))

theorem start_deferred (hSim : s.Simulates phase) (hId : phase id = .fresh)
    (hStopped : ∃ other, phase other = .stopping tag) (hFree : ∀ other, phase other ≠ .deferred tag)
    (hNode : s.manager.valueNodes tag = true ∧ tag ≠ -1) :
    ∃ t, s.step (.startAnimatingNode id tag) = .ok t ∧
      t.Simulates (advance phase id (.deferred tag)) := by
  obtain ⟨driver, hView⟩ := hSim.fits hId
  have hActive : id ∉ s.manager.activeAnimations := of_decide_eq_false (congrArg View.active hView)
  refine ⟨{ s with
    manager := s.manager.startDeferred id tag, requested := (id, tag) :: s.requested }, ?_, ?_⟩
  · rw [step, startAnimatingNode_deferred hActive ((hSim.stopped tag).mpr hStopped)
      (hSim.free hFree)]
    rfl
  · constructor
    · apply hSim.views_update
      · intro other hOther
        simp [view, callsOf, setDriver, startDeferred, hOther, hOther.symm]
        rfl
      · simp [view, Phase.Fits, callsOf, startDeferred, setDriver] at hView ⊢
        grind
    · intro value
      rw [exists_advance (by rw [hId]; exact nofun)]
      exact (hSim.stopped value).trans (or_iff_right nofun).symm
    · intro value other
      simp [startDeferred, setDriver]
      grind [hSim.deferred, advance]
    · apply hSim.orderly.goesTo
      · exact fun _ hBatch => by rcases hBatch with hBatch | hBatch <;> cases hBatch
      · rintro _ ⟨⟩
        obtain ⟨other, hOther⟩ := hStopped
        exact ⟨other, fun hEq => (by rw [hEq, hId] at hOther; cases hOther), hOther⟩
      · exact fun _ hStopping => by rw [hId] at hStopping; cases hStopping
    · simp [startDeferred, setDriver]
      grind [Phase.hasBatch, hSim.nodes, advance]

theorem start_running (hSim : s.Simulates phase) (hId : phase id = .fresh)
    (hAlone : ∀ other, ¬(phase other).hasBatch tag)
    (hNode : s.manager.valueNodes tag = true ∧ tag ≠ -1) :
    ∃ t, s.step (.startAnimatingNode id tag) = .ok t ∧
      t.Simulates (advance phase id (.running tag)) := by
  obtain ⟨driver, hView⟩ := hSim.fits hId
  have hActive : id ∉ s.manager.activeAnimations := of_decide_eq_false (congrArg View.active hView)
  have hStopped : tag ∉ s.manager.valuesWithStoppedAnimation := fun hMem => by
    obtain ⟨other, hOther⟩ := (hSim.stopped tag).mp hMem
    exact hAlone other (.inr hOther)
  refine ⟨{ s with
    manager := s.manager.startRunning id tag, requested := (id, tag) :: s.requested }, ?_, ?_⟩
  · rw [step, startAnimatingNode_running hActive hStopped hNode.1]
    rfl
  · constructor
    · apply hSim.views_update
      · intro other hOther
        simp [view, callsOf, setDriver, startRunning, hOther, hOther.symm]
        rfl
      · simp [view, Phase.Fits, callsOf, startRunning, setDriver] at hView ⊢
        grind
    · intro value
      rw [exists_advance (by rw [hId]; exact nofun)]
      exact (hSim.stopped value).trans (or_iff_right nofun).symm
    · intro value other
      simp [startRunning, setDriver]
      grind [hSim.deferred, advance]
    · apply hSim.orderly.goesTo
      · rintro value (hBatch | hBatch) other -
        · cases hBatch
          exact hAlone other
        · cases hBatch
      · exact nofun
      · exact fun _ hStopping => by rw [hId] at hStopping; cases hStopping
    · simp [startRunning, setDriver]
      grind [Phase.hasBatch, hSim.nodes, advance]

theorem isEnded_false (h : (s.view id).calls = []) : s.isEnded id = false := by
  rw [isEnded_eq, h]
  rfl

theorem isRequested_true (h : (s.view id).tags = [tag]) : s.isRequested id = true := by
  rw [isRequested_eq, h]
  rfl

variable (hSim : s.Simulates phase)
include hSim

theorem isDeferred_iff : s.isDeferred id = true ↔ ∃ tag, phase id = .deferred tag := by
  simp only [isDeferred, List.any_eq_true, Bool.and_eq_true, decide_eq_true_eq, hSim.deferred]
  constructor
  · rintro ⟨request, -, -, hPhase⟩
    exact ⟨request.2, hPhase⟩
  · rintro ⟨tag, hPhase⟩
    have hTags : (s.view id).tags = [tag] := congrArg View.tags (hSim.fits hPhase)
    exact ⟨(id, tag), mem_tags.mp (hTags ▸ List.mem_singleton_self tag), rfl, hPhase⟩

theorem stop_running (hId : phase id = .running tag) :
    ∃ t, s.step (.stopAnimation id) = .ok t ∧ t.Simulates (advance phase id (.stopping tag)) := by
  have hView := hSim.fits hId
  have hActive : id ∈ s.manager.activeAnimations := of_decide_eq_true (congrArg View.active hView)
  obtain ⟨hNode, hTag⟩ := hSim.nodes _ _ (.inl (.inl hId))
  have hAlone : ∀ other, phase other ≠ .stopping tag := fun other hOther => by
    have hSame := hSim.orderly.alone (.inl hId) (.inr hOther)
    rw [← hSame, hId] at hOther
    cases hOther
  have hStopped : tag ∉ s.manager.valuesWithStoppedAnimation := fun hMem => by
    obtain ⟨other, hOther⟩ := (hSim.stopped tag).mp hMem
    exact hAlone other hOther
  have hFree : ∀ other, phase other ≠ .deferred tag := fun other hOther => by
    obtain ⟨stopping, hStopping⟩ := hSim.orderly.waits hOther
    exact hAlone stopping hStopping
  have hDeferred : s.isDeferred id = false := Bool.eq_false_iff.mpr fun h => by
    obtain ⟨value, hValue⟩ := hSim.isDeferred_iff.mp h
    rw [hId] at hValue
    cases hValue
  refine ⟨{ s with
    manager := s.manager.stopRunning id tag, stopped := id :: s.stopped }, ?_, ?_⟩
  · rw [step, stopAnimation_running hActive (congrArg View.driver hView) hNode hTag
      (hSim.free hFree) hStopped, isRequested_true (congrArg View.tags hView),
      isEnded_false (congrArg View.calls hView), hDeferred]
    rfl
  · constructor
    · apply hSim.views_update
      · intro other hOther
        simp [view, callsOf, setDriver, stopRunning, hOther]
      · simp [view, Phase.Fits, callsOf, stopRunning, setDriver] at hView ⊢
        grind
    · intro value
      rw [exists_advance (by rw [hId]; exact nofun)]
      simp [stopRunning, setDriver, hSim.stopped]
      grind
    · intro value other
      simp [stopRunning, setDriver]
      grind [hSim.deferred, advance]
    · apply hSim.orderly.goesTo
      · rintro value (hBatch | hBatch) other hOther hOtherBatch
        · cases hBatch
        · cases hBatch
          exact hOther (hSim.orderly.alone hOtherBatch (.inl hId))
      · exact nofun
      · exact fun _ hStopping => by rw [hId] at hStopping; cases hStopping
    · simp [stopRunning, setDriver]
      grind [Phase.hasBatch, hSim.nodes, advance]

theorem stop_deferred (hId : phase id = .deferred tag) :
    ∃ t, s.step (.stopAnimation id) = .ok t ∧ t.Simulates (advance phase id (.dropped tag)) := by
  have hView := hSim.fits hId
  have hActive : id ∈ s.manager.activeAnimations := of_decide_eq_true (congrArg View.active hView)
  have hTag := (hSim.nodes _ _ (.inr hId)).2
  refine ⟨{ s with
    manager := s.manager.stopDeferred id tag
    stopped := id :: s.stopped, stoppedDeferred := id :: s.stoppedDeferred }, ?_, ?_⟩
  · rw [step, stopAnimation_deferred hActive (congrArg View.driver hView) hTag
      ((hSim.deferred tag id).mpr hId), isRequested_true (congrArg View.tags hView),
      isEnded_false (congrArg View.calls hView), hSim.isDeferred_iff.mpr ⟨tag, hId⟩]
    rfl
  · constructor
    · apply hSim.views_update
      · intro other hOther
        simp [view, callsOf, setDriver, stopDeferred, tellEnd, hOther, hOther.symm]
      · simp [view, Phase.Fits, callsOf, stopDeferred, tellEnd, setDriver] at hView ⊢
        grind
    · intro value
      rw [exists_advance (by rw [hId]; exact nofun)]
      simp [stopDeferred, tellEnd, setDriver, hSim.stopped]
    · intro value other
      have hOnly : phase other = .deferred tag → id = other := hSim.one_waits hId
      simp [stopDeferred, tellEnd, setDriver]
      grind [hSim.deferred, advance]
    · apply hSim.orderly.goesTo
      · exact fun _ hBatch => by rcases hBatch with hBatch | hBatch <;> cases hBatch
      · exact nofun
      · exact fun _ hStopping => by rw [hId] at hStopping; cases hStopping
    · simp [stopDeferred, tellEnd, setDriver]
      grind [Phase.hasBatch, hSim.nodes, advance]

/-- An animation that JS knows of, and that is neither running nor waiting, was stopped. -/
theorem stopped_of_known (hRunning : ∀ tag, phase id ≠ .running tag)
    (hDeferred : ∀ tag, phase id ≠ .deferred tag)
    (hKnown : (s.isRequested id && !s.isEnded id) = true) : id ∈ s.stopped := by
  rw [isRequested_eq, isEnded_eq] at hKnown
  cases hPhase : phase id with
  | running tag => exact absurd hPhase (hRunning tag)
  | deferred tag => exact absurd hPhase (hDeferred tag)
  | stopping tag => exact of_decide_eq_true (congrArg View.stopped (hSim.fits hPhase))
  | fresh | dropped tag | interrupted tag | finished tag =>
    obtain ⟨driver, hView⟩ := hSim.fits hPhase
    rw [hView] at hKnown
    cases hKnown

/-- Nothing comes of stopping another animation. -/
theorem stop_other (hRunning : ∀ tag, phase id ≠ .running tag)
    (hDeferred : ∀ tag, phase id ≠ .deferred tag) :
    ∃ t, s.step (.stopAnimation id) = .ok t ∧ t.Simulates phase := by
  have hActive : id ∉ s.manager.activeAnimations := by
    have hView := hSim.views id
    cases hPhase : phase id with
    | running tag => exact absurd hPhase (hRunning tag)
    | deferred tag => exact absurd hPhase (hDeferred tag)
    | stopping tag =>
      rw [hPhase] at hView
      exact of_decide_eq_false (congrArg View.active hView)
    | fresh | dropped tag | interrupted tag | finished tag =>
      rw [hPhase] at hView
      obtain ⟨driver, hView⟩ := hView
      exact of_decide_eq_false (congrArg View.active hView)
  have hNot : s.isDeferred id = false := Bool.eq_false_iff.mpr fun h => by
    obtain ⟨tag, hTag⟩ := hSim.isDeferred_iff.mp h
    exact hDeferred tag hTag
  refine ⟨{ s with
    stopped := if s.isRequested id && !s.isEnded id then id :: s.stopped else s.stopped }, ?_, ?_⟩
  · rw [step, stopAnimation_not_active hActive, hNot]
    rfl
  · have hMem : ∀ other, other ∈ (if s.isRequested id && !s.isEnded id then id :: s.stopped
        else s.stopped) ↔ other ∈ s.stopped := by
      intro other
      split
      · rename_i hKnown
        have hStopped := hSim.stopped_of_known hRunning hDeferred hKnown
        exact List.mem_cons.trans (or_iff_right_of_imp fun hEq => hEq ▸ hStopped)
      · rfl
    refine ⟨fun other => ?_, hSim.stopped, hSim.deferred, hSim.orderly, hSim.nodes⟩
    have hView := hSim.views other
    simpa only [view, callsOf, hMem] using hView

theorem complete_running (hId : phase id = .running tag) :
    ∃ t, s.step (.completeBatch id) = .ok t ∧ t.Simulates (advance phase id (.finished tag)) := by
  have hView := hSim.fits hId
  have hActive : id ∈ s.manager.activeAnimations := of_decide_eq_true (congrArg View.active hView)
  have hPending : id ∉ s.manager.pendingCompletionAnimations :=
    of_decide_eq_false (congrArg View.pending hView)
  have hAlone : ∀ other, phase other ≠ .stopping tag := fun other hOther => by
    have hSame := hSim.orderly.alone (.inl hId) (.inr hOther)
    rw [← hSame, hId] at hOther
    cases hOther
  let manager := { s.manager with startedBatches := s.manager.startedBatches.erase id }
  refine ⟨{ s with manager := manager.tellEnd id true }, ?_, ?_⟩
  · have hCompleted : manager.completed id = .ok (manager.tellEnd id true) :=
      completed_running hActive hPending (congrArg View.driver hView)
    rw [step, hCompleted]
    rfl
  · constructor
    · apply hSim.views_update
      · intro other hOther
        simp [view, callsOf, setDriver, tellEnd, manager, hOther, hOther.symm,
          List.count_erase_of_ne]
        rfl
      · simp [view, Phase.Fits, callsOf, tellEnd, manager, setDriver] at hView ⊢
        grind
    · intro value
      rw [exists_advance (by rw [hId]; exact nofun)]
      simp [manager, tellEnd, setDriver, hSim.stopped]
    · intro value other
      simp [manager, tellEnd, setDriver]
      grind [hSim.deferred, advance]
    · apply hSim.orderly.goesTo
      · exact fun _ hBatch => by rcases hBatch with hBatch | hBatch <;> cases hBatch
      · exact nofun
      · exact fun _ hStopping => by rw [hId] at hStopping; cases hStopping
    · simp [manager, tellEnd, setDriver]
      grind [Phase.hasBatch, hSim.nodes, advance]

theorem complete_stopped (hId : phase id = .stopping tag)
    (hFree : ∀ other, phase other ≠ .deferred tag) :
    ∃ t, s.step (.completeBatch id) = .ok t ∧
      t.Simulates (advance phase id (.interrupted tag)) := by
  have hView := hSim.fits hId
  have hPending : id ∈ s.manager.pendingCompletionAnimations :=
    of_decide_eq_true (congrArg View.pending hView)
  have hStopped : tag ∈ s.manager.valuesWithStoppedAnimation := (hSim.stopped tag).mpr ⟨id, hId⟩
  let manager := { s.manager with startedBatches := s.manager.startedBatches.erase id }
  refine ⟨{ s with manager := manager.completeStopped id tag }, ?_, ?_⟩
  · have hCompleted : manager.completed id = .ok (manager.completeStopped id tag) :=
      completed_stopped hPending (congrArg View.driver hView) hStopped (hSim.free hFree)
    rw [step, hCompleted]
    rfl
  · constructor
    · apply hSim.views_update
      · intro other hOther
        simp [view, callsOf, setDriver, completeStopped, tellEnd, manager, hOther, hOther.symm,
          List.count_erase_of_ne]
      · simp [view, Phase.Fits, callsOf, completeStopped, tellEnd, manager, setDriver] at hView ⊢
        grind
    · intro value
      have hLeft : ∀ value, Phase.interrupted tag ≠ .stopping value := fun _ h => by cases h
      rw [exists_stopping_advance hSim.orderly hId hLeft]
      simp [completeStopped, manager, tellEnd, setDriver, hSim.stopped]
    · intro value other
      simp [completeStopped, manager, tellEnd, setDriver]
      grind [hSim.deferred, advance]
    · apply hSim.orderly.goesTo
      · exact fun _ hBatch => by rcases hBatch with hBatch | hBatch <;> cases hBatch
      · exact nofun
      · rintro value hStopping other -
        rw [hId] at hStopping
        cases hStopping
        exact hFree other
    · simp [completeStopped, manager, tellEnd, setDriver]
      grind [Phase.hasBatch, hSim.nodes, advance]

theorem complete_replace {other : AnimationId} (hId : phase id = .stopping tag)
    (hOther : phase other = .deferred tag) :
    ∃ t, s.step (.completeBatch id) = .ok t ∧
      t.Simulates (advance (advance phase id (.interrupted tag)) other (.running tag)) := by
  have hView := hSim.fits hId
  have hOtherView := hSim.fits hOther
  have hPending : id ∈ s.manager.pendingCompletionAnimations :=
    of_decide_eq_true (congrArg View.pending hView)
  have hActive : other ∈ s.manager.activeAnimations :=
    of_decide_eq_true (congrArg View.active hOtherView)
  have hStopped : tag ∈ s.manager.valuesWithStoppedAnimation := (hSim.stopped tag).mpr ⟨id, hId⟩
  have hNe : other ≠ id := fun hEq => by
    rw [hEq, hId] at hOther
    cases hOther
  let manager := { s.manager with startedBatches := s.manager.startedBatches.erase id }
  refine ⟨{ s with manager := (manager.startWaiting other tag).completeStopped id tag }, ?_, ?_⟩
  · have hCompleted : manager.completed id =
        .ok ((manager.startWaiting other tag).completeStopped id tag) :=
      completed_stopped_deferred hPending (congrArg View.driver hView) hStopped
        ((hSim.deferred tag other).mpr hOther) hActive hNe (congrArg View.driver hOtherView)
        (hSim.nodes _ _ (.inr hOther)).1
    rw [step, hCompleted]
    rfl
  · constructor
    · intro one
      by_cases hOne : one = other
      · subst hOne
        rw [advance_self]
        simp [view, Phase.Fits, callsOf, completeStopped, startWaiting, tellEnd, manager, setDriver,
          hNe, hNe.symm, List.count_erase_of_ne] at hOtherView ⊢
        grind
      · rw [advance_of_ne hOne]
        by_cases hOne' : one = id
        · subst hOne'
          rw [advance_self]
          simp [view, Phase.Fits, callsOf, completeStopped, startWaiting, tellEnd, manager,
            setDriver, hNe] at hView ⊢
          grind
        · rw [advance_of_ne hOne']
          have hSame : System.view { s with
              manager := (manager.startWaiting other tag).completeStopped id tag } one =
              s.view one := by
            simp [view, callsOf, completeStopped, startWaiting, tellEnd, manager, setDriver,
              hOne, hOne', Ne.symm hOne, Ne.symm hOne', List.count_erase_of_ne]
          rw [hSame]
          exact hSim.views one
    · intro value
      have hLeft : ∀ value, Phase.interrupted tag ≠ .stopping value := fun _ h => by cases h
      rw [exists_advance (by rw [advance_of_ne hNe, hOther]; exact nofun),
        exists_stopping_advance hSim.orderly hId hLeft, or_iff_right nofun]
      simp [completeStopped, startWaiting, manager, tellEnd, setDriver, hSim.stopped]
    · intro value one
      have hOnly : phase one = .deferred tag → other = one := hSim.one_waits hOther
      simp [completeStopped, startWaiting, manager, tellEnd, setDriver]
      grind [hSim.deferred, advance]
    · exact hSim.orderly.replace hId hOther fun one hOne => (hSim.one_waits hOther hOne).symm
    · apply nodes_advance (nodes_advance hSim.nodes ?_) ?_
      · exact fun _ hUses => by rcases hUses with (hUses | hUses) | hUses <;> cases hUses
      · intro value hUses
        rcases hUses with (hUses | hUses) | hUses <;> cases hUses
        exact hSim.nodes _ _ (.inr hOther)

/-- An allowed action does not fail, and keeps the phases those of the state. -/
theorem step {action : Action} (hAllowed : s.Allowed action) :
    ∃ t, s.step action = .ok t ∧ ∃ phase', t.Simulates phase' := by
  cases action with
  | startAnimatingNode id tag =>
    obtain ⟨hNew, hNode, hTag, hEarlier⟩ := hAllowed
    have hId := hSim.fresh_of_not_requested hNew
    have hOver : ∀ other, phase other ≠ .running tag ∧ phase other ≠ .deferred tag := by
      intro other
      constructor
      all_goals
        intro hPhase
        have hView := hSim.fits hPhase
        have hTags : (s.view other).tags = [tag] := congrArg View.tags hView
        have hMem : (other, tag) ∈ s.requested := mem_tags.mp (hTags ▸ List.mem_singleton_self tag)
        rcases hEarlier _ hMem rfl with hOld | hOld
        · exact of_decide_eq_false (congrArg View.stopped hView) hOld
        · rw [isEnded_false (congrArg View.calls hView)] at hOld
          cases hOld
    by_cases hStopped : ∃ other, phase other = .stopping tag
    · obtain ⟨t, hStep, hNext⟩ := hSim.start_deferred hId hStopped (fun other => (hOver other).2)
        ⟨hNode, hTag⟩
      exact ⟨t, hStep, _, hNext⟩
    · have hAlone : ∀ other, ¬(phase other).hasBatch tag := fun other hBatch =>
        hBatch.elim (hOver other).1 fun hOther => hStopped ⟨other, hOther⟩
      obtain ⟨t, hStep, hNext⟩ := hSim.start_running hId hAlone ⟨hNode, hTag⟩
      exact ⟨t, hStep, _, hNext⟩
  | stopAnimation id =>
    cases hPhase : phase id with
    | running tag =>
      obtain ⟨t, hStep, hNext⟩ := hSim.stop_running hPhase
      exact ⟨t, hStep, _, hNext⟩
    | deferred tag =>
      obtain ⟨t, hStep, hNext⟩ := hSim.stop_deferred hPhase
      exact ⟨t, hStep, _, hNext⟩
    | _ =>
      have hOther : ∃ t, s.step (.stopAnimation id) = .ok t ∧ t.Simulates phase :=
        hSim.stop_other (by simp [hPhase]) (by simp [hPhase])
      obtain ⟨t, hStep, hNext⟩ := hOther
      exact ⟨t, hStep, _, hNext⟩
  | completeBatch id =>
    have hBatch : 0 < (s.view id).batches := List.count_pos_iff.mpr hAllowed
    cases hPhase : phase id with
    | running tag =>
      obtain ⟨t, hStep, hNext⟩ := hSim.complete_running hPhase
      exact ⟨t, hStep, _, hNext⟩
    | stopping tag =>
      by_cases hWaits : ∃ other, phase other = .deferred tag
      · obtain ⟨other, hOther⟩ := hWaits
        obtain ⟨t, hStep, hNext⟩ := hSim.complete_replace hPhase hOther
        exact ⟨t, hStep, _, hNext⟩
      · obtain ⟨t, hStep, hNext⟩ :=
          hSim.complete_stopped hPhase fun other hOther => hWaits ⟨other, hOther⟩
        exact ⟨t, hStep, _, hNext⟩
    | deferred tag =>
      rw [hSim.fits hPhase] at hBatch
      cases hBatch
    | fresh | dropped tag | interrupted tag | finished tag =>
      obtain ⟨driver, hView⟩ := hSim.fits hPhase
      rw [hView] at hBatch
      cases hBatch

end Steps

end Simulates

end System

end ReactNative.Animated
