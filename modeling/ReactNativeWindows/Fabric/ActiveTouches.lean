import Mathlib.Data.List.Dedup
import Mathlib.Data.List.Perm.Subperm
import ReactNativeWindows.Collections.Entries
import ReactNativeWindows.Control.Alternation
import ReactNativeWindows.Control.Traces

/-! The active touches of a `CompositionEventHandler` with a root view, and the touch events that it
dispatches. The sets of a touch event compare touches by their identifiers, and are lists of these here. -/
namespace Fabric

open Collections (Entries)
open Control (Throughout Allowed Along Alternating isOpen)

inductive PointerDeviceType where
  | touch
  | pen
  | mouse
  | touchpad
  deriving DecidableEq

inductive TouchEventType where
  | touchStart
  | touchEnd
  | touchMove
  | touchCancel
  deriving DecidableEq

def isEndishEventType : TouchEventType → Bool
  | .touchEnd | .touchCancel => true
  | _ => false

variable {PointerId Emitter : Type}

/-- The device type stands for the `touchType`. -/
structure ActiveTouch (Emitter : Type) where
  identifier : ℕ
  eventEmitter : Emitter
  pointerDeviceType : PointerDeviceType

/-- A touch event as it is dispatched for a pointer: each receiver comes with its `targetTouches`. -/
structure TouchDispatch (PointerId Emitter : Type) where
  eventType : TouchEventType
  pointerId : PointerId
  changedTouch : Option (ActiveTouch Emitter)
  changedTouches : List ℕ
  touches : List ℕ
  receivers : List (Emitter × List ℕ)

structure ActiveTouches (PointerId Emitter : Type) where
  m_activeTouches : Entries PointerId (ActiveTouch Emitter)
  m_touchId : ℕ
  dispatched : List (TouchDispatch PointerId Emitter)

namespace ActiveTouches

def initial : ActiveTouches PointerId Emitter := ⟨[], 0, []⟩

def mousePointerId : ℕ := 1

def kMaxTouchIdentifier : ℕ := 20

def identifiers (activeTouches : Entries PointerId (ActiveTouch Emitter)) : List ℕ :=
  activeTouches.map fun entry => entry.2.identifier

/-- The identifier, and the next `m_touchId`. -/
def allocateTouchIdentifier (activeTouches : Entries PointerId (ActiveTouch Emitter)) (touchId : ℕ) :
    ℕ × ℕ :=
  let candidates := (List.range kMaxTouchIdentifier).map fun i => (touchId + i) % kMaxTouchIdentifier
  match candidates.find? fun candidate =>
      candidate ≠ mousePointerId ∧ candidate ∉ identifiers activeTouches with
  | some candidate => (candidate, (candidate + 1) % kMaxTouchIdentifier)
  | none =>
    let next := (touchId + 1) % kMaxTouchIdentifier
    if touchId = mousePointerId then (next, (next + 1) % kMaxTouchIdentifier) else (touchId, next)

section Handlers

variable [DecidableEq PointerId] [DecidableEq Emitter]

def touchEvent (activeTouches : Entries PointerId (ActiveTouch Emitter)) (eventType : TouchEventType)
    (pointerId : PointerId) : TouchDispatch PointerId Emitter :=
  let changedTouch := activeTouches.lookup pointerId
  let changedTouches := (changedTouch.map ActiveTouch.identifier).toList
  let touches := (identifiers activeTouches).filter fun identifier =>
    !(isEndishEventType eventType && decide (identifier ∈ changedTouches))
  let uniqueEventEmitters := (activeTouches.map fun entry => entry.2.eventEmitter).dedup
  let receivers := uniqueEventEmitters.map fun eventEmitter =>
    (eventEmitter, identifiers (activeTouches.filter fun entry => entry.2.eventEmitter = eventEmitter))
  ⟨eventType, pointerId, changedTouch, changedTouches, touches, receivers⟩

def dispatchTouchEvent (s : ActiveTouches PointerId Emitter) (eventType : TouchEventType)
    (pointerId : PointerId) : ActiveTouches PointerId Emitter :=
  { s with dispatched := touchEvent s.m_activeTouches eventType pointerId :: s.dispatched }

def touchCancelEvent (activeTouches : Entries PointerId (ActiveTouch Emitter))
    (pointerId : PointerId) (cancelledTouch : ActiveTouch Emitter) : TouchDispatch PointerId Emitter :=
  let changedTouches := [cancelledTouch.identifier]
  let touches := (identifiers activeTouches).filter fun identifier => identifier ∉ changedTouches
  let targetTouches := (identifiers (activeTouches.filter fun entry =>
    entry.2.eventEmitter = cancelledTouch.eventEmitter)).filter fun identifier =>
      identifier ∉ changedTouches
  ⟨.touchCancel, pointerId, some cancelledTouch, changedTouches, touches,
    [(cancelledTouch.eventEmitter, targetTouches)]⟩

def dispatchSynthesizedTouchCancel (s : ActiveTouches PointerId Emitter) (pointerId : PointerId)
    (cancelledTouch : ActiveTouch Emitter) : ActiveTouches PointerId Emitter :=
  { s with
    dispatched := touchCancelEvent s.m_activeTouches pointerId cancelledTouch :: s.dispatched }

def erase (s : ActiveTouches PointerId Emitter) (pointerId : PointerId) :
    ActiveTouches PointerId Emitter :=
  { s with m_activeTouches := s.m_activeTouches.without pointerId }

/-- `CancelActiveTouchForPointerInternal`, also what `onPointerPressed` does with a stale touch. -/
def cancelActiveTouch (s : ActiveTouches PointerId Emitter) (pointerId : PointerId) :
    ActiveTouches PointerId Emitter :=
  match s.m_activeTouches.lookup pointerId with
  | none => s
  | some activeTouch => (s.erase pointerId).dispatchSynthesizedTouchCancel pointerId activeTouch

def register (s : ActiveTouches PointerId Emitter) (pointerId : PointerId)
    (pointerDeviceType : PointerDeviceType) (eventEmitter : Emitter) :
    ActiveTouches PointerId Emitter :=
  let (identifier, touchId) :=
    if pointerDeviceType = .mouse then (mousePointerId, s.m_touchId)
    else allocateTouchIdentifier s.m_activeTouches s.m_touchId
  { s with
    m_activeTouches := (pointerId, ⟨identifier, eventEmitter, pointerDeviceType⟩) :: s.m_activeTouches
    m_touchId := touchId }

/-- The emitter is the first one on the way from the view that is hit to the root, if there are any. -/
def onPointerPressed (s : ActiveTouches PointerId Emitter) (pointerId : PointerId)
    (pointerDeviceType : PointerDeviceType) (eventEmitter : Option Emitter) :
    ActiveTouches PointerId Emitter :=
  let s := s.cancelActiveTouch pointerId
  match eventEmitter with
  | none => s
  | some eventEmitter =>
    (s.register pointerId pointerDeviceType eventEmitter).dispatchTouchEvent .touchStart pointerId

/-- `hit` says that the pointer has a target. -/
def onPointerMoved (s : ActiveTouches PointerId Emitter) (pointerId : PointerId) (hit : Bool) :
    ActiveTouches PointerId Emitter :=
  if hit && (s.m_activeTouches.lookup pointerId).isSome then
    s.dispatchTouchEvent .touchMove pointerId
  else s

def onPointerReleased (s : ActiveTouches PointerId Emitter) (pointerId : PointerId) (hit : Bool) :
    ActiveTouches PointerId Emitter :=
  match s.m_activeTouches.lookup pointerId with
  | none => s
  | some activeTouch =>
    if hit then (s.dispatchTouchEvent .touchEnd pointerId).erase pointerId
    else (s.dispatchSynthesizedTouchCancel pointerId activeTouch).erase pointerId

def onPointerCaptureLost (s : ActiveTouches PointerId Emitter) (pointerId : PointerId)
    (capturedPointers : List PointerId) : ActiveTouches PointerId Emitter :=
  (capturedPointers.foldl cancelActiveTouch s).cancelActiveTouch pointerId

inductive Event (PointerId Emitter : Type) where
  | pressed (pointerId : PointerId) (pointerDeviceType : PointerDeviceType)
      (eventEmitter : Option Emitter)
  | moved (pointerId : PointerId) (hit : Bool)
  | released (pointerId : PointerId) (hit : Bool)
  | captureLost (pointerId : PointerId) (capturedPointers : List PointerId)
  | routedAway (pointerId : PointerId)

def step (s : ActiveTouches PointerId Emitter) :
    Event PointerId Emitter → Option (ActiveTouches PointerId Emitter)
  | .pressed pointerId pointerDeviceType eventEmitter =>
    some (s.onPointerPressed pointerId pointerDeviceType eventEmitter)
  | .moved pointerId hit => some (s.onPointerMoved pointerId hit)
  | .released pointerId hit => some (s.onPointerReleased pointerId hit)
  | .captureLost pointerId capturedPointers => some (s.onPointerCaptureLost pointerId capturedPointers)
  | .routedAway pointerId => some (s.cancelActiveTouch pointerId)

/-! ### What is claimed -/

/-- What the touch of a pointer goes through. -/
inductive Phase where
  | started
  | ended
  | other
  deriving DecidableEq

def phase (pointerId : PointerId) (dispatch : TouchDispatch PointerId Emitter) : Phase :=
  if dispatch.pointerId = pointerId then
    match dispatch.eventType with
    | .touchStart => .started
    | .touchMove => .other
    | .touchEnd | .touchCancel => .ended
  else .other

def Delivered (dispatch : TouchDispatch PointerId Emitter) : Prop :=
  ∃ touch, dispatch.changedTouch = some touch ∧ touch.identifier ∈ dispatch.changedTouches ∧
    (dispatch.receivers.map Prod.fst).count touch.eventEmitter = 1

/-- The touch of a pointer as it was started last. -/
def startedTouch (pointerId : PointerId) :
    List (TouchDispatch PointerId Emitter) → Option (ActiveTouch Emitter)
  | [] => none
  | dispatch :: earlier =>
    if phase pointerId dispatch = .started then dispatch.changedTouch
    else startedTouch pointerId earlier

/-- Touches move and end as they were started. -/
def Resumed : List (TouchDispatch PointerId Emitter) → Prop
  | [] => True
  | dispatch :: earlier =>
    (phase dispatch.pointerId dispatch ≠ .started →
      startedTouch dispatch.pointerId earlier = dispatch.changedTouch) ∧ Resumed earlier

structure LifeCycle (s : ActiveTouches PointerId Emitter) : Prop where
  alternates : ∀ pointerId, Alternating .started .ended (s.dispatched.map (phase pointerId))
  active : ∀ pointerId, isOpen .started .ended (s.dispatched.map (phase pointerId)) =
    (s.m_activeTouches.lookup pointerId).isSome
  delivered : ∀ dispatch ∈ s.dispatched, Delivered dispatch
  started : ∀ pointerId touch, s.m_activeTouches.lookup pointerId = some touch →
    startedTouch pointerId s.dispatched = some touch
  resumed : Resumed s.dispatched

end Handlers

structure Identified (s : ActiveTouches PointerId Emitter) : Prop where
  distinct : (identifiers s.m_activeTouches).Nodup
  inRange : ∀ entry ∈ s.m_activeTouches, entry.2.identifier < kMaxTouchIdentifier
  mouse : ∀ entry ∈ s.m_activeTouches,
    entry.2.identifier = mousePointerId ↔ entry.2.pointerDeviceType = .mouse

/-- Only to the emitter of the changed touch, with `targetTouches` among the touches, and what has ended
in neither. -/
def WellSent (dispatch : TouchDispatch PointerId Emitter) : Prop :=
  ∃ touch, dispatch.changedTouch = some touch ∧ touch.identifier ∈ dispatch.changedTouches ∧
    ∀ receiver ∈ dispatch.receivers, receiver.1 = touch.eventEmitter ∧
      receiver.2 ⊆ dispatch.touches ∧
      (isEndishEventType dispatch.eventType = true →
        touch.identifier ∉ dispatch.touches ∧ touch.identifier ∉ receiver.2)

/-- At most one mouse, and at most 19 other pointers at a time. -/
def limited [DecidableEq PointerId] (s : ActiveTouches PointerId Emitter) :
    Event PointerId Emitter → Prop
  | .pressed pointerId .mouse _ => ∀ entry ∈ s.m_activeTouches.without pointerId,
    entry.2.pointerDeviceType ≠ .mouse
  | .pressed pointerId _ _ => ((s.m_activeTouches.without pointerId).filter fun entry =>
    entry.2.pointerDeviceType ≠ .mouse).length < 19
  | _ => True

/-- No active pointer is released where it has a target, and the touches that are active when one of them
starts or moves have its emitter. -/
def alike [DecidableEq PointerId] (s : ActiveTouches PointerId Emitter) :
    Event PointerId Emitter → Prop
  | .pressed pointerId _ (some eventEmitter) => ∀ entry ∈ s.m_activeTouches.without pointerId,
    entry.2.eventEmitter = eventEmitter
  | .moved pointerId true => ∀ touch, s.m_activeTouches.lookup pointerId = some touch →
    ∀ entry ∈ s.m_activeTouches, entry.2.eventEmitter = touch.eventEmitter
  | .released pointerId true => s.m_activeTouches.lookup pointerId = none
  | _ => True

/-! ### Identifiers -/

theorem candidate_exists (touchId : ℕ) {identifier : ℕ} (h : identifier < kMaxTouchIdentifier) :
    identifier ∈ (List.range kMaxTouchIdentifier).map fun i => (touchId + i) % kMaxTouchIdentifier := by
  simp only [kMaxTouchIdentifier] at h ⊢
  apply List.mem_map.mpr
  exists (identifier + 20 - touchId % 20) % 20
  refine ⟨List.mem_range.mpr (Nat.mod_lt _ (by decide)), ?_⟩
  omega

variable {activeTouches : Entries PointerId (ActiveTouch Emitter)}

theorem allocateTouchIdentifier_free (touchId : ℕ) {free : ℕ} (hRange : free < kMaxTouchIdentifier)
    (hNotMouse : free ≠ mousePointerId) (hFree : free ∉ identifiers activeTouches) :
    (allocateTouchIdentifier activeTouches touchId).1 < kMaxTouchIdentifier ∧
      (allocateTouchIdentifier activeTouches touchId).1 ≠ mousePointerId ∧
      (allocateTouchIdentifier activeTouches touchId).1 ∉ identifiers activeTouches := by
  rw [allocateTouchIdentifier]
  dsimp only
  split
  next candidate hFind =>
    have hCandidate := List.find?_some hFind
    rw [decide_eq_true_eq] at hCandidate
    refine ⟨?_, hCandidate.1, hCandidate.2⟩
    obtain ⟨i, -, hEq⟩ := List.mem_map.mp (List.mem_of_find?_eq_some hFind)
    rw [← hEq]
    exact Nat.mod_lt _ (by decide)
  next hNone =>
    have hNot := List.find?_eq_none.mp hNone free (candidate_exists touchId hRange)
    exact absurd (decide_eq_true ⟨hNotMouse, hFree⟩) hNot

theorem free_of_few (hMouse : ∀ entry ∈ activeTouches,
      entry.2.identifier = mousePointerId ↔ entry.2.pointerDeviceType = .mouse)
    (hFew : (activeTouches.filter fun entry => entry.2.pointerDeviceType ≠ .mouse).length < 19) :
    ∃ free, free < kMaxTouchIdentifier ∧ free ≠ mousePointerId ∧
      free ∉ identifiers activeTouches := by
  by_contra hNone
  have hAll : (List.range kMaxTouchIdentifier).erase mousePointerId ⊆
      identifiers (activeTouches.filter fun entry => entry.2.pointerDeviceType ≠ .mouse) := by
    intro identifier hMem
    have hNe : identifier ≠ mousePointerId := by
      intro hEq
      rw [hEq] at hMem
      exact (List.nodup_range.not_mem_erase) hMem
    have hRange : identifier < kMaxTouchIdentifier :=
      List.mem_range.mp (List.mem_of_mem_erase hMem)
    have hUsed : identifier ∈ identifiers activeTouches := by
      by_contra hFree
      exact hNone ⟨identifier, hRange, hNe, hFree⟩
    obtain ⟨entry, hEntry, hEq⟩ := List.mem_map.mp hUsed
    apply List.mem_map.mpr
    refine ⟨entry, List.mem_filter.mpr ⟨hEntry, decide_eq_true fun hDevice => ?_⟩, hEq⟩
    exact hNe (hEq.symm.trans ((hMouse entry hEntry).mpr hDevice))
  have hNodup : ((List.range kMaxTouchIdentifier).erase mousePointerId).Nodup :=
    List.nodup_range.erase mousePointerId
  have hLength := (hNodup.subperm hAll).length_le
  rw [identifiers, List.length_map] at hLength
  exact absurd (Nat.lt_of_le_of_lt hLength hFew) (by decide)

section LifeCycle

variable [DecidableEq PointerId] [DecidableEq Emitter] {s : ActiveTouches PointerId Emitter}
  {pointerId : PointerId} {activeTouch : ActiveTouch Emitter}
  {dispatch : TouchDispatch PointerId Emitter}

omit [DecidableEq Emitter] in
theorem startedTouch_start (hPhase : phase pointerId dispatch = .started)
    (earlier : List (TouchDispatch PointerId Emitter)) :
    startedTouch pointerId (dispatch :: earlier) = dispatch.changedTouch := if_pos hPhase

omit [DecidableEq Emitter] in
theorem startedTouch_other (hPhase : phase pointerId dispatch ≠ .started)
    (earlier : List (TouchDispatch PointerId Emitter)) :
    startedTouch pointerId (dispatch :: earlier) = startedTouch pointerId earlier := if_neg hPhase

theorem LifeCycle.start (h : s.LifeCycle) (hNone : s.m_activeTouches.lookup pointerId = none)
    (hPhase : ∀ other, phase other dispatch = if pointerId = other then .started else .other)
    (hPointer : dispatch.pointerId = pointerId) (hTouch : dispatch.changedTouch = some activeTouch)
    (hDelivered : Delivered dispatch) (touchId : ℕ) :
    LifeCycle ⟨(pointerId, activeTouch) :: s.m_activeTouches, touchId, dispatch :: s.dispatched⟩ := by
  constructor
  · intro other
    rw [List.map_cons, hPhase]
    split
    next hSame =>
      cases hSame
      apply (h.alternates pointerId).begin (by decide)
      rw [h.active, hNone]
      rfl
    next => exact (h.alternates other).other (by decide) (by decide)
  · intro other
    rw [List.map_cons, hPhase]
    split
    next hSame =>
      cases hSame
      rw [Control.isOpen_begins, List.lookup_cons_self]
      rfl
    next hOther =>
      rw [Control.isOpen_other (by decide) (by decide), h.active,
        Collections.Entries.lookup_cons_of_ne (Ne.symm hOther)]
  · intro other hMem
    rcases List.mem_cons.mp hMem with rfl | hOld
    · exact hDelivered
    · exact h.delivered other hOld
  · intro other touch hLookup
    have hOther := hPhase other
    split at hOther
    next hSame =>
      cases hSame
      rw [List.lookup_cons_self] at hLookup
      rw [startedTouch_start hOther, hTouch, hLookup]
    next hNe =>
      rw [Collections.Entries.lookup_cons_of_ne (Ne.symm hNe)] at hLookup
      rw [startedTouch_other (by rw [hOther]; decide)]
      exact h.started other touch hLookup
  · refine ⟨fun hNot => absurd ?_ hNot, h.resumed⟩
    rw [hPointer, hPhase, if_pos rfl]

theorem LifeCycle.finish (h : s.LifeCycle)
    (hActive : s.m_activeTouches.lookup pointerId = some activeTouch)
    (hPhase : ∀ other, phase other dispatch = if pointerId = other then .ended else .other)
    (hPointer : dispatch.pointerId = pointerId) (hTouch : dispatch.changedTouch = some activeTouch)
    (hDelivered : Delivered dispatch) :
    LifeCycle ⟨s.m_activeTouches.without pointerId, s.m_touchId, dispatch :: s.dispatched⟩ := by
  constructor
  · intro other
    rw [List.map_cons, hPhase]
    split
    next hSame =>
      cases hSame
      apply (h.alternates pointerId).end (by decide)
      rw [h.active, hActive]
      rfl
    next => exact (h.alternates other).other (by decide) (by decide)
  · intro other
    rw [List.map_cons, hPhase]
    split
    next hSame =>
      cases hSame
      rw [Control.isOpen_ends (by decide), Collections.Entries.lookup_without_self]
      rfl
    next hOther =>
      rw [Control.isOpen_other (by decide) (by decide), h.active,
        Collections.Entries.lookup_without_of_ne (Ne.symm hOther)]
  · intro other hMem
    rcases List.mem_cons.mp hMem with rfl | hOld
    · exact hDelivered
    · exact h.delivered other hOld
  · intro other touch hLookup
    have hOther := hPhase other
    split at hOther
    next hSame =>
      cases hSame
      rw [Collections.Entries.lookup_without_self] at hLookup
      cases hLookup
    next hNe =>
      rw [Collections.Entries.lookup_without_of_ne (Ne.symm hNe)] at hLookup
      rw [startedTouch_other (by rw [hOther]; decide)]
      exact h.started other touch hLookup
  · exact ⟨fun _ => by rw [hPointer, hTouch, h.started _ _ hActive], h.resumed⟩

theorem LifeCycle.move (h : s.LifeCycle)
    (hActive : s.m_activeTouches.lookup pointerId = some activeTouch)
    (hPhase : ∀ other, phase other dispatch = .other)
    (hPointer : dispatch.pointerId = pointerId) (hTouch : dispatch.changedTouch = some activeTouch)
    (hDelivered : Delivered dispatch) :
    LifeCycle { s with dispatched := dispatch :: s.dispatched } := by
  constructor
  · intro other
    rw [List.map_cons, hPhase]
    exact (h.alternates other).other (by decide) (by decide)
  · intro other
    rw [List.map_cons, hPhase, Control.isOpen_other (by decide) (by decide)]
    exact h.active other
  · intro other hMem
    rcases List.mem_cons.mp hMem with rfl | hOld
    · exact hDelivered
    · exact h.delivered other hOld
  · intro other touch hLookup
    rw [startedTouch_other (by rw [hPhase]; decide)]
    exact h.started other touch hLookup
  · exact ⟨fun _ => by rw [hPointer, hTouch, h.started _ _ hActive], h.resumed⟩

theorem delivered_touchEvent {activeTouches : Entries PointerId (ActiveTouch Emitter)}
    (hActive : activeTouches.lookup pointerId = some activeTouch) (eventType : TouchEventType) :
    Delivered (touchEvent activeTouches eventType pointerId) := by
  refine ⟨activeTouch, hActive, ?_, ?_⟩
  · simp [touchEvent, hActive]
  · have hReceivers : (touchEvent activeTouches eventType pointerId).receivers.map Prod.fst =
        (activeTouches.map fun entry => entry.2.eventEmitter).dedup := by
      simp [touchEvent, Function.comp_def]
    rw [hReceivers]
    apply List.count_eq_one_of_mem (List.nodup_dedup _)
    apply List.mem_dedup.mpr
    exact List.mem_map.mpr ⟨_, Collections.Entries.mem_of_lookup hActive, rfl⟩

omit [DecidableEq PointerId] in
theorem delivered_touchCancelEvent (activeTouches : Entries PointerId (ActiveTouch Emitter))
    (pointerId : PointerId) (cancelledTouch : ActiveTouch Emitter) :
    Delivered (touchCancelEvent activeTouches pointerId cancelledTouch) :=
  ⟨cancelledTouch, rfl, List.mem_singleton_self _, List.count_singleton_self⟩

theorem LifeCycle.cancelActiveTouch (h : s.LifeCycle) (pointerId : PointerId) :
    (s.cancelActiveTouch pointerId).LifeCycle := by
  rw [ActiveTouches.cancelActiveTouch]
  split
  next => exact h
  next activeTouch hActive =>
    apply h.finish hActive
    · exact fun other => rfl
    · rfl
    · rfl
    · exact delivered_touchCancelEvent _ _ _

theorem lookup_cancelActiveTouch (s : ActiveTouches PointerId Emitter) (pointerId : PointerId) :
    (s.cancelActiveTouch pointerId).m_activeTouches.lookup pointerId = none := by
  rw [ActiveTouches.cancelActiveTouch]
  split
  next hNone => exact hNone
  next => exact Collections.Entries.lookup_without_self _ _

theorem LifeCycle.cancelAll (h : s.LifeCycle) (pointers : List PointerId) :
    (pointers.foldl ActiveTouches.cancelActiveTouch s).LifeCycle := by
  induction pointers generalizing s with
  | nil => exact h
  | cons pointerId pointers ih => exact ih (h.cancelActiveTouch pointerId)

theorem LifeCycle.onPointerPressed (h : s.LifeCycle) (pointerId : PointerId)
    (pointerDeviceType : PointerDeviceType) (eventEmitter : Option Emitter) :
    (s.onPointerPressed pointerId pointerDeviceType eventEmitter).LifeCycle := by
  have hCancelled := h.cancelActiveTouch pointerId
  cases eventEmitter with
  | none => exact hCancelled
  | some eventEmitter =>
    apply hCancelled.start (s.lookup_cancelActiveTouch pointerId)
    · exact fun other => rfl
    · rfl
    · exact List.lookup_cons_self
    · exact delivered_touchEvent List.lookup_cons_self _

theorem LifeCycle.onPointerMoved (h : s.LifeCycle) (pointerId : PointerId) (hit : Bool) :
    (s.onPointerMoved pointerId hit).LifeCycle := by
  rw [ActiveTouches.onPointerMoved]
  split
  next hMove =>
    obtain ⟨activeTouch, hActive⟩ := Option.isSome_iff_exists.mp ((Bool.and_eq_true _ _).mp hMove).2
    apply h.move hActive
    · intro other
      by_cases hSame : pointerId = other
      · exact if_pos hSame
      · exact if_neg hSame
    · rfl
    · exact hActive
    · exact delivered_touchEvent hActive _
  next => exact h

theorem LifeCycle.onPointerReleased (h : s.LifeCycle) (pointerId : PointerId) (hit : Bool) :
    (s.onPointerReleased pointerId hit).LifeCycle := by
  rw [ActiveTouches.onPointerReleased]
  split
  next => exact h
  next activeTouch hActive =>
    cases hit with
    | true =>
      apply h.finish hActive
      · exact fun other => rfl
      · rfl
      · exact hActive
      · exact delivered_touchEvent hActive _
    | false =>
      apply h.finish hActive
      · exact fun other => rfl
      · rfl
      · rfl
      · exact delivered_touchCancelEvent _ _ _

theorem LifeCycle.next (h : s.LifeCycle) {event : Event PointerId Emitter}
    {t : ActiveTouches PointerId Emitter} (hStep : s.step event = some t) : t.LifeCycle := by
  cases event with
  | pressed pointerId pointerDeviceType eventEmitter =>
    cases hStep
    exact h.onPointerPressed pointerId pointerDeviceType eventEmitter
  | moved pointerId hit =>
    cases hStep
    exact h.onPointerMoved pointerId hit
  | released pointerId hit =>
    cases hStep
    exact h.onPointerReleased pointerId hit
  | captureLost pointerId capturedPointers =>
    cases hStep
    exact (h.cancelAll capturedPointers).cancelActiveTouch pointerId
  | routedAway pointerId =>
    cases hStep
    exact h.cancelActiveTouch pointerId

end LifeCycle

section Identified

variable [DecidableEq PointerId] [DecidableEq Emitter] {s : ActiveTouches PointerId Emitter}

variable {t : ActiveTouches PointerId Emitter}

omit [DecidableEq PointerId] [DecidableEq Emitter] in
/-- Fewer touches are identified as well. -/
theorem Identified.mono (h : s.Identified) (hSublist : t.m_activeTouches.Sublist s.m_activeTouches) :
    t.Identified := by
  constructor
  · have hIdentifiers : (identifiers t.m_activeTouches).Sublist (identifiers s.m_activeTouches) :=
      hSublist.map _
    exact hIdentifiers.nodup h.distinct
  · exact fun entry hMem => h.inRange entry (hSublist.subset hMem)
  · exact fun entry hMem => h.mouse entry (hSublist.subset hMem)

theorem cancelActiveTouch_sublist (s : ActiveTouches PointerId Emitter) (pointerId : PointerId) :
    (s.cancelActiveTouch pointerId).m_activeTouches.Sublist s.m_activeTouches := by
  rw [cancelActiveTouch]
  split
  next => exact List.Sublist.refl _
  next => exact List.filter_sublist

theorem cancelAll_sublist (s : ActiveTouches PointerId Emitter) (pointers : List PointerId) :
    (pointers.foldl cancelActiveTouch s).m_activeTouches.Sublist s.m_activeTouches := by
  induction pointers generalizing s with
  | nil => exact List.Sublist.refl _
  | cons pointerId pointers ih =>
    exact (ih (s.cancelActiveTouch pointerId)).trans (s.cancelActiveTouch_sublist pointerId)

omit [DecidableEq PointerId] [DecidableEq Emitter] in
theorem Identified.cons (h : s.Identified) (pointerId : PointerId) {activeTouch : ActiveTouch Emitter}
    (touchId : ℕ) (hRange : activeTouch.identifier < kMaxTouchIdentifier)
    (hMouse : activeTouch.identifier = mousePointerId ↔ activeTouch.pointerDeviceType = .mouse)
    (hFresh : activeTouch.identifier ∉ identifiers s.m_activeTouches)
    (dispatched : List (TouchDispatch PointerId Emitter)) :
    Identified ⟨(pointerId, activeTouch) :: s.m_activeTouches, touchId, dispatched⟩ := by
  constructor
  · exact List.nodup_cons.mpr ⟨hFresh, h.distinct⟩
  · intro entry hMem
    rcases List.mem_cons.mp hMem with rfl | hOld
    · exact hRange
    · exact h.inRange entry hOld
  · intro entry hMem
    rcases List.mem_cons.mp hMem with rfl | hOld
    · exact hMouse
    · exact h.mouse entry hOld

variable {pointerDeviceType : PointerDeviceType}

omit [DecidableEq PointerId] [DecidableEq Emitter] in
/-- The mouse has its own identifier, any other pointer a free one. -/
theorem Identified.register (h : s.Identified) (pointerId : PointerId) (eventEmitter : Emitter)
    (hMouse : pointerDeviceType = .mouse →
      ∀ entry ∈ s.m_activeTouches, entry.2.pointerDeviceType ≠ .mouse)
    (hFew : pointerDeviceType ≠ .mouse → (s.m_activeTouches.filter fun entry =>
      entry.2.pointerDeviceType ≠ .mouse).length < 19) :
    (s.register pointerId pointerDeviceType eventEmitter).Identified := by
  rw [ActiveTouches.register]
  by_cases hDevice : pointerDeviceType = .mouse
  · rw [if_pos hDevice]
    apply h.cons
    · exact Nat.lt_of_sub_eq_succ rfl
    · exact ⟨fun _ => hDevice, fun _ => rfl⟩
    · intro hMem
      obtain ⟨entry, hEntry, hEq⟩ := List.mem_map.mp hMem
      exact hMouse hDevice entry hEntry ((h.mouse entry hEntry).mp hEq)
  · rw [if_neg hDevice]
    obtain ⟨free, hRange, hNotMouse, hFree⟩ := free_of_few h.mouse (hFew hDevice)
    obtain ⟨hInRange, hNe, hFresh⟩ :=
      allocateTouchIdentifier_free s.m_touchId hRange hNotMouse hFree
    apply h.cons
    · exact hInRange
    · exact ⟨fun hEq => absurd hEq hNe, fun hEq => absurd hEq hDevice⟩
    · exact hFresh

theorem activeTouches_cancelActiveTouch (s : ActiveTouches PointerId Emitter)
    (pointerId : PointerId) :
    (s.cancelActiveTouch pointerId).m_activeTouches = s.m_activeTouches.without pointerId := by
  rw [cancelActiveTouch]
  split
  next hNone =>
    rw [Collections.Entries.without, List.filter_eq_self.mpr]
    intro entry hMem
    apply decide_eq_true
    intro hEq
    rw [List.lookup_eq_none_iff] at hNone
    exact bne_iff_ne.mp (hNone entry hMem) hEq.symm
  next => rfl

theorem Identified.onPointerPressed (h : s.Identified) {pointerId : PointerId}
    {eventEmitter : Option Emitter}
    (hLimited : s.limited (.pressed pointerId pointerDeviceType eventEmitter)) :
    (s.onPointerPressed pointerId pointerDeviceType eventEmitter).Identified := by
  have hCancelled := h.mono (s.cancelActiveTouch_sublist pointerId)
  have hOthers := s.activeTouches_cancelActiveTouch pointerId
  cases eventEmitter with
  | none => exact hCancelled
  | some eventEmitter =>
    have hRegistered : ((s.cancelActiveTouch pointerId).register pointerId pointerDeviceType
        eventEmitter).Identified := by
      apply hCancelled.register
      · intro hDevice entry hMem
        cases hDevice
        exact hLimited entry (hOthers ▸ hMem)
      · intro hDevice
        rw [hOthers]
        cases pointerDeviceType with
        | mouse => exact absurd rfl hDevice
        | touch | pen | touchpad => exact hLimited
    exact hRegistered.mono (List.Sublist.refl _)

theorem Identified.next (h : s.Identified) {event : Event PointerId Emitter}
    (hLimited : s.limited event) (hStep : s.step event = some t) : t.Identified := by
  cases event with
  | pressed pointerId pointerDeviceType eventEmitter =>
    cases hStep
    exact h.onPointerPressed hLimited
  | moved pointerId hit =>
    cases hStep
    apply h.mono
    rw [onPointerMoved]
    split
    next => exact List.Sublist.refl _
    next => exact List.Sublist.refl _
  | released pointerId hit =>
    cases hStep
    apply h.mono
    rw [onPointerReleased]
    split
    next => exact List.Sublist.refl _
    next =>
      cases hit with
      | true | false => exact List.filter_sublist
  | captureLost pointerId capturedPointers =>
    cases hStep
    apply h.mono
    exact (cancelActiveTouch_sublist _ pointerId).trans (s.cancelAll_sublist capturedPointers)
  | routedAway pointerId =>
    cases hStep
    exact h.mono (s.cancelActiveTouch_sublist pointerId)

end Identified

section WellSent

variable [DecidableEq PointerId] [DecidableEq Emitter] {s t : ActiveTouches PointerId Emitter}
  {pointerId : PointerId} {activeTouch : ActiveTouch Emitter}
  {activeTouches : Entries PointerId (ActiveTouch Emitter)}

def AllSent (s : ActiveTouches PointerId Emitter) : Prop :=
  ∀ dispatch ∈ s.dispatched, WellSent dispatch

omit [DecidableEq PointerId] in
/-- The canceled touch is left out of both sets. -/
theorem wellSent_touchCancelEvent (activeTouches : Entries PointerId (ActiveTouch Emitter))
    (pointerId : PointerId) (cancelledTouch : ActiveTouch Emitter) :
    WellSent (touchCancelEvent activeTouches pointerId cancelledTouch) := by
  refine ⟨cancelledTouch, rfl, List.mem_singleton_self _, ?_⟩
  intro receiver hMem
  cases List.mem_singleton.mp hMem
  refine ⟨rfl, ?_, fun _ => ⟨?_, ?_⟩⟩
  · intro identifier hTarget
    obtain ⟨hIdentifier, hOther⟩ := List.mem_filter.mp hTarget
    obtain ⟨entry, hEntry, hEq⟩ := List.mem_map.mp hIdentifier
    apply List.mem_filter.mpr
    exact ⟨List.mem_map.mpr ⟨entry, (List.mem_filter.mp hEntry).1, hEq⟩, hOther⟩
  · intro hTouches
    exact of_decide_eq_true (List.mem_filter.mp hTouches).2 (List.mem_singleton_self _)
  · intro hTarget
    exact of_decide_eq_true (List.mem_filter.mp hTarget).2 (List.mem_singleton_self _)

variable {eventType : TouchEventType}

theorem mem_receivers {entry : PointerId × ActiveTouch Emitter} (h : entry ∈ activeTouches) :
    (entry.2.eventEmitter, identifiers (activeTouches.filter fun other =>
      other.2.eventEmitter = entry.2.eventEmitter)) ∈
        (touchEvent activeTouches eventType pointerId).receivers := by
  apply List.mem_map.mpr
  exact ⟨entry.2.eventEmitter, List.mem_dedup.mpr (List.mem_map.mpr ⟨entry, h, rfl⟩), rfl⟩

/-- With one emitter for all touches, a start or move goes to it. -/
theorem wellSent_touchEvent (hActive : activeTouches.lookup pointerId = some activeTouch)
    (hAlike : ∀ entry ∈ activeTouches, entry.2.eventEmitter = activeTouch.eventEmitter)
    (hNotEndish : isEndishEventType eventType = false) :
    WellSent (touchEvent activeTouches eventType pointerId) := by
  refine ⟨activeTouch, hActive, by simp [touchEvent, hActive], ?_⟩
  intro receiver hMem
  obtain ⟨eventEmitter, hUnique, rfl⟩ := List.mem_map.mp hMem
  obtain ⟨entry, hEntry, rfl⟩ := List.mem_map.mp (List.mem_dedup.mp hUnique)
  refine ⟨hAlike entry hEntry, ?_, fun hEndish => ?_⟩
  · intro identifier hTarget
    obtain ⟨other, hOther, hEq⟩ := List.mem_map.mp hTarget
    apply List.mem_filter.mpr
    refine ⟨List.mem_map.mpr ⟨other, (List.mem_filter.mp hOther).1, hEq⟩, ?_⟩
    rw [hNotEndish]
    rfl
  · exact absurd (hNotEndish.symm.trans hEndish) Bool.noConfusion

theorem WellSent.alike (h : WellSent (touchEvent activeTouches eventType pointerId))
    (hActive : activeTouches.lookup pointerId = some activeTouch) :
    ∀ entry ∈ activeTouches, entry.2.eventEmitter = activeTouch.eventEmitter := by
  intro entry hEntry
  obtain ⟨touch, hTouch, -, hReceivers⟩ := h
  cases hActive.symm.trans hTouch
  exact (hReceivers _ (mem_receivers hEntry)).1

omit [DecidableEq PointerId] [DecidableEq Emitter] in
theorem AllSent.dispatch (h : s.AllSent) {dispatch : TouchDispatch PointerId Emitter}
    (hSent : WellSent dispatch) (activeTouches : Entries PointerId (ActiveTouch Emitter))
    (touchId : ℕ) : AllSent ⟨activeTouches, touchId, dispatch :: s.dispatched⟩ :=
  List.forall_mem_cons.mpr ⟨hSent, h⟩

theorem AllSent.cancelActiveTouch (h : s.AllSent) (pointerId : PointerId) :
    (s.cancelActiveTouch pointerId).AllSent := by
  rw [ActiveTouches.cancelActiveTouch]
  split
  next => exact h
  next => exact h.dispatch (wellSent_touchCancelEvent _ _ _) _ _

theorem AllSent.cancelAll (h : s.AllSent) (pointers : List PointerId) :
    (pointers.foldl ActiveTouches.cancelActiveTouch s).AllSent := by
  induction pointers generalizing s with
  | nil => exact h
  | cons pointerId pointers ih => exact ih (h.cancelActiveTouch pointerId)

variable {event : Event PointerId Emitter}

theorem AllSent.next (h : s.AllSent) (hAlike : s.alike event) (hStep : s.step event = some t) :
    t.AllSent := by
  cases event with
  | pressed pointerId pointerDeviceType eventEmitter =>
    cases hStep
    have hCancelled := h.cancelActiveTouch pointerId
    cases eventEmitter with
    | none => exact hCancelled
    | some eventEmitter =>
      apply hCancelled.dispatch
      apply wellSent_touchEvent List.lookup_cons_self
      · intro entry hMem
        rcases List.mem_cons.mp hMem with rfl | hOther
        · rfl
        · rw [activeTouches_cancelActiveTouch] at hOther
          exact hAlike entry hOther
      · rfl
  | moved pointerId hit =>
    cases hStep
    rw [onPointerMoved]
    split
    next hMove =>
      obtain ⟨rfl, hSome⟩ := (Bool.and_eq_true _ _).mp hMove
      obtain ⟨activeTouch, hActive⟩ := Option.isSome_iff_exists.mp hSome
      exact h.dispatch (wellSent_touchEvent hActive (hAlike activeTouch hActive) rfl) _ _
    next => exact h
  | released pointerId hit =>
    cases hStep
    rw [onPointerReleased]
    split
    next => exact h
    next activeTouch hActive =>
      cases hit with
      | true => exact absurd (hActive.symm.trans hAlike) (Option.some_ne_none activeTouch)
      | false => exact h.dispatch (wellSent_touchCancelEvent _ _ _) _ _
  | captureLost pointerId capturedPointers =>
    cases hStep
    exact (h.cancelAll capturedPointers).cancelActiveTouch pointerId
  | routedAway pointerId =>
    cases hStep
    exact h.cancelActiveTouch pointerId

end WellSent

end ActiveTouches

end Fabric
