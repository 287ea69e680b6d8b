import ReactNativeWindows.Fabric.ActiveTouches
import ReactNativeWindows.Fabric.HoveredViews

/-! How the pointer events of a `CompositionEventHandler` tell views that they are hovered. Moves and exits
carry the id of the mouse whatever their pointer is, and the events of active touches the identifier of
their touch. -/
namespace Fabric

open Control (Throughout Allowed Along)
open HoveredViews (hovers)

abbrev EventPath (View : Type) := { views : List View // views.Nodup }

variable {Emitter View : Type}

/-- Windows pointer ids are numbers. `shouldLeaveWhenReleased` is kept by the pointer of the touch, and
`overNothing` says that no living view was hovered when the pointer was pressed. -/
structure PointerHover (Emitter View : Type) where
  touches : ActiveTouches ℕ Emitter
  hovered : HoveredViews View
  shouldLeaveWhenReleased : ℕ → Bool
  overNothing : ℕ → Bool

namespace PointerHover

open ActiveTouches (mousePointerId)

def initial : PointerHover Emitter View :=
  ⟨ActiveTouches.initial, HoveredViews.initial, fun _ => false, fun _ => false⟩

section Handlers

variable [DecidableEq Emitter] [DecidableEq View]

/-- `HandleIncomingPointerEvent` for the active touch of a pointer, where it has one. -/
def handleTouchEvent (s : PointerHover Emitter View) (pointer pointerId : ℕ)
    (eventPathViews : List View) : HoveredViews View :=
  match s.touches.m_activeTouches.lookup pointerId with
  | none => s.hovered
  | some activeTouch =>
    s.hovered.handleIncomingPointerEvent pointer activeTouch.identifier eventPathViews

/-- Cancels the active touch of `pointerId`, with the point of `pointer`. -/
def cancelActiveTouch (pointer : ℕ) (s : PointerHover Emitter View) (pointerId : ℕ) :
    PointerHover Emitter View :=
  { s with
    touches := s.touches.cancelActiveTouch pointerId
    hovered := s.handleTouchEvent pointer pointerId [] }

/-- A stale touch is canceled. The hovered views are then looked up by the Windows pointer id. Without a
target or an emitter no touch is registered. -/
def onPointerPressed (s : PointerHover Emitter View) (pointer : ℕ)
    (pointerDeviceType : PointerDeviceType) (target : Option (Emitter × EventPath View)) :
    PointerHover Emitter View :=
  let touches := s.touches.onPointerPressed pointer pointerDeviceType (target.map Prod.fst)
  let hovered := s.handleTouchEvent pointer pointer []
  match target with
  | none => { s with touches, hovered := hovered.withoutTarget pointer }
  | some (_, path) =>
    let s := { s with
      touches, hovered
      shouldLeaveWhenReleased := Function.update s.shouldLeaveWhenReleased pointer
        (hovered.m_currentlyHoveredViewsPerPointer pointer).isEmpty
      overNothing := Function.update s.overNothing pointer (hovered.hoversNothing pointer) }
    { s with hovered := s.handleTouchEvent pointer pointer path }

/-- `target` is what the pointer points to, and `touchTarget` what is hit where its touch is. -/
def onPointerMoved (s : PointerHover Emitter View) (pointer : ℕ) (target : Option (EventPath View))
    (touchTarget : EventPath View) : PointerHover Emitter View :=
  match target with
  | none => { s with hovered := s.hovered.withoutTarget pointer }
  | some path =>
    let s := { s with
      hovered := s.hovered.handleIncomingPointerEvent pointer mousePointerId path }
    { s with
      touches := s.touches.onPointerMoved pointer true
      hovered := s.handleTouchEvent pointer pointer touchTarget }

def onPointerExited (s : PointerHover Emitter View) (pointer : ℕ) : PointerHover Emitter View :=
  { s with hovered := s.hovered.handleIncomingPointerEvent pointer mousePointerId [] }

def onPointerReleased (s : PointerHover Emitter View) (pointer : ℕ)
    (target : Option (EventPath View)) : PointerHover Emitter View :=
  let eventPathViews := match target with
    | none => []
    | some path => if s.shouldLeaveWhenReleased pointer then [] else path
  { s with
    touches := s.touches.onPointerReleased pointer target.isSome
    hovered := s.handleTouchEvent pointer pointer eventPathViews }

def onPointerCaptureLost (s : PointerHover Emitter View) (pointer : ℕ)
    (capturedPointers : List ℕ) : PointerHover Emitter View :=
  cancelActiveTouch pointer (capturedPointers.foldl (cancelActiveTouch pointer) s) pointer

inductive Event (Emitter View : Type) where
  | pressed (pointer : ℕ) (pointerDeviceType : PointerDeviceType)
      (target : Option (Emitter × EventPath View))
  | moved (pointer : ℕ) (target : Option (EventPath View)) (touchTarget : EventPath View)
  | exited (pointer : ℕ)
  | released (pointer : ℕ) (target : Option (EventPath View))
  | captureLost (pointer : ℕ) (capturedPointers : List ℕ)
  | routedAway (pointer : ℕ)
  | destroy (view : View)

def Event.views : Event Emitter View → List View
  | .pressed _ _ (some (_, path)) | .released _ (some path) => path
  | .moved _ (some path) touchTarget => path.1 ++ touchTarget
  | _ => []

/-- Only living views are on a path. -/
def step (s : PointerHover Emitter View) (event : Event Emitter View) :
    Option (PointerHover Emitter View) :=
  if event.views.any s.hovered.destroyed then none
  else match event with
    | .pressed pointer pointerDeviceType target =>
      some (s.onPointerPressed pointer pointerDeviceType target)
    | .moved pointer target touchTarget => some (s.onPointerMoved pointer target touchTarget)
    | .exited pointer => some (s.onPointerExited pointer)
    | .released pointer target => some (s.onPointerReleased pointer target)
    | .captureLost pointer capturedPointers => some (s.onPointerCaptureLost pointer capturedPointers)
    | .routedAway pointer => some (cancelActiveTouch pointer s pointer)
    | .destroy view =>
      some { s with hovered :=
        { s.hovered with destroyed := Function.update s.hovered.destroyed view true } }

/-! ### What is claimed -/

/-- Entered and exited alternate, and the living views that a pointer has entered and not exited are those
on its path. -/
structure Balanced (s : PointerHover Emitter View) : Prop where
  inTurn : HoveredViews.InTurn s.hovered.calls
  onPath : ∀ pointer view, s.hovered.destroyed view = false →
    (hovers s.hovered.calls pointer view = true ↔ view ∈ s.hovered.path pointer)

/-- No living view stays entered for a pointer whose touch ends and that hovered nothing when it was pressed. -/
def LeavesNothing (s : PointerHover Emitter View) (_ : Event Emitter View)
    (t : PointerHover Emitter View) : Prop :=
  ∀ pointer, (s.touches.m_activeTouches.lookup pointer).isSome = true →
    t.touches.m_activeTouches.lookup pointer = none → s.overNothing pointer = true →
      ∀ view, t.hovered.destroyed view = false → hovers t.hovered.calls pointer view = false

end Handlers

def Unhovered (s : PointerHover Emitter View) (pointer : ℕ) : Prop :=
  ∀ view ∈ s.hovered.path pointer, s.hovered.destroyed view = true

/-- What happens to one mouse with the Windows id 1 and to touches that do not move: only the mouse moves
over a target; a pointer that moves or is pressed without a target, or exits and is not the mouse, hovered
nothing; what is kept under the Windows id of a pressed pointer says whether it hovers; and a capture is lost
for no active pointer but the one of the event. -/
def orderly (s : PointerHover Emitter View) : Event Emitter View → Prop
  | .pressed pointer pointerDeviceType target =>
    (pointerDeviceType = .mouse ↔ pointer = mousePointerId) ∧
      s.touches.limited (.pressed pointer pointerDeviceType (target.map Prod.fst)) ∧
      (if pointer = mousePointerId then
        s.hovered.m_currentlyHoveredViewsPerPointer pointer ≠ [] → ¬ s.Unhovered pointer
      else s.hovered.m_currentlyHoveredViewsPerPointer pointer = []) ∧
      (target.isNone = true → s.touches.m_activeTouches.lookup pointer = none → s.Unhovered pointer)
  | .moved pointer (some _) _ => pointer = mousePointerId
  | .moved pointer none _ => s.Unhovered pointer
  | .exited pointer => pointer ≠ mousePointerId →
    s.Unhovered pointer ∧ ∀ view ∈ s.hovered.m_currentlyHoveredViewsPerPointer mousePointerId,
      s.hovered.destroyed view = true
  | .captureLost pointer capturedPointers => ∀ other ∈ capturedPointers, other ≠ pointer →
    s.touches.m_activeTouches.lookup other = none
  | _ => True

/-! ### Keys -/

def key (touches : ActiveTouches ℕ Emitter) (pointer : ℕ) : Option ℕ :=
  if pointer = mousePointerId then some mousePointerId
  else (touches.m_activeTouches.lookup pointer).map ActiveTouch.identifier

variable {touches touches' : ActiveTouches ℕ Emitter}

theorem key_congr (h : touches'.m_activeTouches = touches.m_activeTouches) :
    key touches' = key touches := by
  funext pointer
  rw [key, key, h]

theorem key_without {pointer : ℕ}
    (h : touches'.m_activeTouches = touches.m_activeTouches.without pointer) :
    key touches' = if pointer = mousePointerId then key touches
      else Function.update (key touches) pointer none := by
  funext other
  by_cases hMouse : pointer = mousePointerId
  · rw [if_pos hMouse, key, key]
    by_cases hOther : other = mousePointerId
    · rw [if_pos hOther, if_pos hOther]
    · rw [if_neg hOther, if_neg hOther, h, Collections.Entries.lookup_without_of_ne]
      rw [hMouse]
      exact hOther
  · rw [if_neg hMouse]
    by_cases hSame : other = pointer
    · rw [hSame, Function.update_self, key, if_neg hMouse, h,
        Collections.Entries.lookup_without_self]
      rfl
    · rw [Function.update_of_ne hSame, key, key, h,
        Collections.Entries.lookup_without_of_ne hSame]

theorem key_cons {pointer : ℕ} {activeTouch : ActiveTouch Emitter}
    (h : touches'.m_activeTouches = (pointer, activeTouch) :: touches.m_activeTouches) :
    key touches' = if pointer = mousePointerId then key touches
      else Function.update (key touches) pointer (some activeTouch.identifier) := by
  funext other
  by_cases hMouse : pointer = mousePointerId
  · rw [if_pos hMouse, key, key]
    by_cases hOther : other = mousePointerId
    · rw [if_pos hOther, if_pos hOther]
    · have hNe : other ≠ (pointer, activeTouch).1 := by
        rw [hMouse]
        exact hOther
      rw [if_neg hOther, if_neg hOther, h, Collections.Entries.lookup_cons_of_ne hNe]
  · rw [if_neg hMouse]
    by_cases hSame : other = pointer
    · rw [hSame, Function.update_self, key, if_neg hMouse, h, List.lookup_cons_self]
      rfl
    · have hNe : other ≠ (pointer, activeTouch).1 := hSame
      rw [Function.update_of_ne hSame, key, key, h, Collections.Entries.lookup_cons_of_ne hNe]

/-! ### Steps -/

structure Inv [DecidableEq View] (s : PointerHover Emitter View) : Prop where
  identified : s.touches.Identified
  mouse : ∀ entry ∈ s.touches.m_activeTouches,
    entry.2.pointerDeviceType = .mouse ↔ entry.1 = mousePointerId
  keyed : s.hovered.Keyed (key s.touches)
  leaves : ∀ pointer activeTouch, s.touches.m_activeTouches.lookup pointer = some activeTouch →
    s.overNothing pointer = true ∨ pointer ≠ mousePointerId →
      s.shouldLeaveWhenReleased pointer = true

variable [DecidableEq Emitter] [DecidableEq View] {s t : PointerHover Emitter View} {pointer : ℕ}
  {activeTouch : ActiveTouch Emitter}

omit [DecidableEq Emitter] in
theorem Inv.key_of_active (h : s.Inv)
    (hActive : s.touches.m_activeTouches.lookup pointer = some activeTouch) :
    key s.touches pointer = some activeTouch.identifier := by
  rw [key]
  split
  next hMouse =>
    have hMem := Collections.Entries.mem_of_lookup hActive
    have hDevice := (h.mouse _ hMem).mpr hMouse
    rw [(h.identified.mouse _ hMem).mpr hDevice]
  next =>
    rw [hActive]
    rfl

omit [DecidableEq Emitter] in
theorem Inv.finish (h : s.Inv)
    (hActive : s.touches.m_activeTouches.lookup pointer = some activeTouch)
    {eventPathViews : List View} (hNodup : eventPathViews.Nodup)
    (hAlive : ∀ view ∈ eventPathViews, s.hovered.destroyed view = false)
    (hLeave : pointer ≠ mousePointerId → eventPathViews = [])
    (hTouches : touches.m_activeTouches = s.touches.m_activeTouches.without pointer) :
    Inv { s with
      touches
      hovered := s.hovered.handleIncomingPointerEvent pointer activeTouch.identifier
        eventPathViews } := by
  have hKey := h.key_of_active hActive
  have hHandled := h.keyed.handle hKey hNodup hAlive
  have hSublist : touches.m_activeTouches.Sublist s.touches.m_activeTouches := by
    rw [hTouches]
    exact List.filter_sublist
  constructor
  · exact h.identified.mono hSublist
  · exact fun entry hMem => h.mouse entry (hSublist.subset hMem)
  · show HoveredViews.Keyed _ (key touches)
    rw [key_without hTouches]
    split
    next => exact hHandled
    next hNotMouse =>
      apply hHandled.drop hKey
      rw [HoveredViews.handle_hovered, Function.update_self]
      exact hLeave hNotMouse
  · intro other otherTouch hOther hReason
    have hNe : other ≠ pointer := by
      rintro rfl
      rw [hTouches, Collections.Entries.lookup_without_self] at hOther
      cases hOther
    rw [hTouches, Collections.Entries.lookup_without_of_ne hNe] at hOther
    exact h.leaves other otherTouch hOther hReason

theorem Inv.cancelActiveTouch (h : s.Inv) (pointer : ℕ) :
    (PointerHover.cancelActiveTouch pointer s pointer).Inv := by
  rw [PointerHover.cancelActiveTouch, handleTouchEvent]
  split
  next hNone =>
    rw [ActiveTouches.cancelActiveTouch, hNone]
    exact h
  next activeTouch hActive =>
    apply h.finish hActive
    · exact List.nodup_nil
    · exact fun view hMem => absurd hMem List.not_mem_nil
    · exact fun _ => rfl
    · exact s.touches.activeTouches_cancelActiveTouch pointer

omit [DecidableEq Emitter] in
/-- What keeps the touches keeps the rest where the views are kept. -/
theorem Inv.withHovered (h : s.Inv) (hTouches : touches.m_activeTouches = s.touches.m_activeTouches)
    {hovered : HoveredViews View} (hKeyed : hovered.Keyed (key s.touches)) :
    Inv { s with touches, hovered } := by
  constructor
  · apply h.identified.mono
    rw [hTouches]
  · intro entry hMem
    exact h.mouse entry (hTouches ▸ hMem)
  · show hovered.Keyed (key touches)
    rw [key_congr hTouches]
    exact hKeyed
  · intro other otherTouch hOther
    rw [hTouches] at hOther
    exact h.leaves other otherTouch hOther

omit [DecidableEq Emitter] in
theorem Inv.handleTouchEvent (h : s.Inv) (pointer : ℕ) (path : EventPath View)
    (hAlive : ∀ view ∈ path.1, s.hovered.destroyed view = false) :
    (s.handleTouchEvent pointer pointer path).Keyed (key s.touches) := by
  rw [PointerHover.handleTouchEvent]
  split
  next => exact h.keyed
  next activeTouch hActive => exact h.keyed.handle (h.key_of_active hActive) path.2 hAlive

theorem onPointerMoved_activeTouches (touches : ActiveTouches ℕ Emitter) (pointer : ℕ) (hit : Bool) :
    (touches.onPointerMoved pointer hit).m_activeTouches = touches.m_activeTouches := by
  rw [ActiveTouches.onPointerMoved]
  split
  next => rfl
  next => rfl

variable {target : Option (EventPath View)}

theorem Inv.onPointerMoved (h : s.Inv) {touchTarget : EventPath View}
    (hOrderly : s.orderly (.moved pointer target touchTarget))
    (hAlive : ∀ view ∈ Event.views (.moved pointer target touchTarget : Event Emitter View),
      s.hovered.destroyed view = false) : (s.onPointerMoved pointer target touchTarget).Inv := by
  cases target with
  | none => exact h.withHovered rfl (h.keyed.withoutTarget hOrderly)
  | some path =>
    have hKey : key s.touches pointer = some mousePointerId := if_pos hOrderly
    have hMoved : Inv { s with
        hovered := s.hovered.handleIncomingPointerEvent pointer mousePointerId path } := by
      apply h.withHovered rfl
      apply h.keyed.handle hKey path.2
      exact fun view hMem => hAlive view (List.mem_append_left _ hMem)
    apply hMoved.withHovered (onPointerMoved_activeTouches s.touches pointer true)
    apply hMoved.handleTouchEvent
    exact fun view hMem => hAlive view (List.mem_append_right _ hMem)

omit [DecidableEq Emitter] in
theorem Inv.onPointerExited (h : s.Inv) (hOrderly : s.orderly (.exited pointer)) :
    (s.onPointerExited pointer).Inv := by
  apply h.withHovered rfl
  by_cases hMouse : pointer = mousePointerId
  · apply h.keyed.handle (if_pos hMouse) List.nodup_nil
    exact fun view hMem => (nomatch hMem)
  · obtain ⟨hPath, hEmpty⟩ := hOrderly hMouse
    exact h.keyed.handleNothing hEmpty hPath

theorem Inv.onPointerReleased (h : s.Inv)
    (hAlive : ∀ view ∈ Event.views (.released pointer target : Event Emitter View),
      s.hovered.destroyed view = false) : (s.onPointerReleased pointer target).Inv := by
  simp only [PointerHover.onPointerReleased, PointerHover.handleTouchEvent]
  split
  next hNone =>
    apply h.withHovered _ h.keyed
    rw [ActiveTouches.onPointerReleased, hNone]
  next activeTouch hActive =>
    have hTouches : (s.touches.onPointerReleased pointer target.isSome).m_activeTouches =
        s.touches.m_activeTouches.without pointer := by
      rw [ActiveTouches.onPointerReleased, hActive]
      dsimp only
      split
      next => rfl
      next => rfl
    cases target with
    | none =>
      apply h.finish hActive List.nodup_nil _ (fun _ => rfl) hTouches
      exact fun view hMem => absurd hMem List.not_mem_nil
    | some path =>
      cases hLeave : s.shouldLeaveWhenReleased pointer with
      | true =>
        apply h.finish hActive List.nodup_nil _ (fun _ => rfl) hTouches
        exact fun view hMem => absurd hMem List.not_mem_nil
      | false =>
        apply h.finish hActive path.2 hAlive _ hTouches
        intro hNotMouse
        have hTrue := h.leaves pointer activeTouch hActive (Or.inr hNotMouse)
        exact absurd (hTrue.symm.trans hLeave) Bool.noConfusion

omit [DecidableEq View] in
theorem cancelActiveTouch_of_none [DecidableEq View] {other : ℕ}
    (hNone : s.touches.m_activeTouches.lookup other = none) :
    PointerHover.cancelActiveTouch pointer s other = s := by
  rw [PointerHover.cancelActiveTouch, PointerHover.handleTouchEvent,
    ActiveTouches.cancelActiveTouch, hNone]

theorem lookup_cancelActiveTouch (s : PointerHover Emitter View) (pointer : ℕ) :
    (PointerHover.cancelActiveTouch pointer s pointer).touches.m_activeTouches.lookup pointer = none :=
  s.touches.lookup_cancelActiveTouch pointer

theorem onPointerCaptureLost_eq {capturedPointers : List ℕ}
    (hOthers : ∀ other ∈ capturedPointers, other ≠ pointer →
      s.touches.m_activeTouches.lookup other = none) :
    s.onPointerCaptureLost pointer capturedPointers =
      PointerHover.cancelActiveTouch pointer s pointer := by
  rw [onPointerCaptureLost]
  induction capturedPointers generalizing s with
  | nil => rfl
  | cons other rest ih =>
    rw [List.foldl_cons]
    by_cases hSame : other = pointer
    · rw [hSame, ih, cancelActiveTouch_of_none (s.lookup_cancelActiveTouch pointer)]
      intro later hMem hNe
      show (s.touches.cancelActiveTouch pointer).m_activeTouches.lookup later = none
      rw [ActiveTouches.activeTouches_cancelActiveTouch,
        Collections.Entries.lookup_without_of_ne hNe]
      exact hOthers later (List.mem_cons_of_mem _ hMem) hNe
    · rw [cancelActiveTouch_of_none (hOthers other List.mem_cons_self hSame)]
      exact ih fun later hMem => hOthers later (List.mem_cons_of_mem _ hMem)

/-! ### Presses -/

omit [DecidableEq Emitter] in
theorem destroyed_handleTouchEvent (s : PointerHover Emitter View) (pointer pointerId : ℕ)
    (eventPathViews : List View) :
    (s.handleTouchEvent pointer pointerId eventPathViews).destroyed = s.hovered.destroyed := by
  rw [handleTouchEvent]
  split
  next => rfl
  next => rfl

theorem unhovered_of_stale (h : s.touches.m_activeTouches.lookup pointer = none → s.Unhovered pointer) :
    (PointerHover.cancelActiveTouch pointer s pointer).Unhovered pointer := by
  cases hActive : s.touches.m_activeTouches.lookup pointer with
  | none =>
    rw [cancelActiveTouch_of_none hActive]
    exact h hActive
  | some activeTouch =>
    intro view hMem
    rw [PointerHover.cancelActiveTouch, handleTouchEvent, hActive] at hMem
    simp only [HoveredViews.handle_path, Function.update_self] at hMem
    cases hMem

omit [DecidableEq Emitter] in
theorem Inv.isEmpty_of_hoversNothing (h : s.Inv)
    (hKept : if pointer = mousePointerId then
        s.hovered.m_currentlyHoveredViewsPerPointer pointer ≠ [] → ¬ s.Unhovered pointer
      else s.hovered.m_currentlyHoveredViewsPerPointer pointer = [])
    (hReason : (s.handleTouchEvent pointer pointer []).hoversNothing pointer = true ∨
      pointer ≠ mousePointerId) :
    (s.handleTouchEvent pointer pointer []).m_currentlyHoveredViewsPerPointer pointer = [] := by
  have hSame : s.hovered.m_currentlyHoveredViewsPerPointer pointer = [] →
      (s.handleTouchEvent pointer pointer []).m_currentlyHoveredViewsPerPointer pointer = [] := by
    intro hEmpty
    rw [PointerHover.handleTouchEvent]
    split
    next => exact hEmpty
    next activeTouch hActive =>
      rw [HoveredViews.handle_hovered]
      by_cases hId : pointer = activeTouch.identifier
      · rw [← hId, Function.update_self]
      · rw [Function.update_of_ne hId]
        exact hEmpty
  by_cases hMouse : pointer = mousePointerId
  · rw [if_pos hMouse] at hKept
    have hNothing := hReason.resolve_right fun hNe => hNe hMouse
    cases hActive : s.touches.m_activeTouches.lookup pointer with
    | none =>
      apply hSame
      by_contra hNe
      apply hKept hNe
      rw [PointerHover.handleTouchEvent, hActive] at hNothing
      intro view hMem
      by_contra hView
      have hAlive : s.hovered.destroyed view = false := Bool.eq_false_iff.mpr hView
      have hHovers := (h.keyed.onPath pointer view hAlive).mpr hMem
      have hNot := HoveredViews.hovers_of_hoversNothing hNothing hAlive
      exact absurd (hHovers.symm.trans hNot) Bool.noConfusion
    | some activeTouch =>
      have hId : activeTouch.identifier = pointer := by
        have hKey := h.key_of_active hActive
        rw [key, if_pos hMouse, ← hMouse] at hKey
        exact (Option.some.inj hKey).symm
      rw [PointerHover.handleTouchEvent, hActive]
      simp only [HoveredViews.handle_hovered, hId, Function.update_self]
  · rw [if_neg hMouse] at hKept
    exact hSame hKept

theorem onPointerPressed_activeTouches (touches : ActiveTouches ℕ Emitter) (pointer : ℕ)
    (pointerDeviceType : PointerDeviceType) (eventEmitter : Emitter) :
    ∃ activeTouch, activeTouch.pointerDeviceType = pointerDeviceType ∧
      (touches.onPointerPressed pointer pointerDeviceType (some eventEmitter)).m_activeTouches =
        (pointer, activeTouch) :: touches.m_activeTouches.without pointer := by
  rw [← ActiveTouches.activeTouches_cancelActiveTouch]
  exact ⟨_, rfl, rfl⟩

variable {pointerDeviceType : PointerDeviceType}

theorem Inv.register (h : s.Inv) {eventEmitter : Emitter} {path : EventPath View}
    (hOrderly : s.orderly (.pressed pointer pointerDeviceType (some (eventEmitter, path)))) :
    Inv { s with
      touches := s.touches.onPointerPressed pointer pointerDeviceType (some eventEmitter)
      hovered := s.handleTouchEvent pointer pointer []
      shouldLeaveWhenReleased := Function.update s.shouldLeaveWhenReleased pointer
        ((s.handleTouchEvent pointer pointer []).m_currentlyHoveredViewsPerPointer pointer).isEmpty
      overNothing := Function.update s.overNothing pointer
        ((s.handleTouchEvent pointer pointer []).hoversNothing pointer) } := by
  obtain ⟨hMouse, hLimited, hKept, -⟩ := hOrderly
  have hCanceled := h.cancelActiveTouch pointer
  have hCanceledTouches : (PointerHover.cancelActiveTouch pointer s pointer).touches.m_activeTouches =
      s.touches.m_activeTouches.without pointer :=
    s.touches.activeTouches_cancelActiveTouch pointer
  have hIdentified : (s.touches.onPointerPressed pointer pointerDeviceType
      (some eventEmitter)).Identified := h.identified.onPointerPressed hLimited
  obtain ⟨activeTouch, hDevice, hTouches⟩ :=
    onPointerPressed_activeTouches s.touches pointer pointerDeviceType eventEmitter
  have hFirst : (pointer, activeTouch) ∈
      (s.touches.onPointerPressed pointer pointerDeviceType (some eventEmitter)).m_activeTouches := by
    rw [hTouches]
    exact List.mem_cons_self
  constructor
  · exact hIdentified
  · intro entry hMem
    rw [hTouches] at hMem
    rcases List.mem_cons.mp hMem with rfl | hOld
    · rw [hDevice]
      exact hMouse
    · exact h.mouse entry (List.mem_filter.mp hOld).1
  · show HoveredViews.Keyed _ (key _)
    have hCons : (s.touches.onPointerPressed pointer pointerDeviceType
        (some eventEmitter)).m_activeTouches = (pointer, activeTouch) ::
          (PointerHover.cancelActiveTouch pointer s pointer).touches.m_activeTouches :=
      hTouches.trans (congrArg _ hCanceledTouches.symm)
    rw [key_cons hCons]
    split
    next => exact hCanceled.keyed
    next hNotMouse =>
      apply hCanceled.keyed.add
      · rw [key, if_neg hNotMouse, hCanceledTouches, Collections.Entries.lookup_without_self]
        rfl
      · intro other hOther
        rw [key] at hOther
        split at hOther
        next =>
          have hId := (hIdentified.mouse _ hFirst).mp (Option.some.inj hOther).symm
          exact hNotMouse (hMouse.mp (hDevice.symm.trans hId))
        next =>
          obtain ⟨otherTouch, hLookup, hSame⟩ := Option.map_eq_some_iff.mp hOther
          have hDistinct := hIdentified.distinct
          rw [hTouches] at hDistinct
          apply (List.nodup_cons.mp hDistinct).1
          rw [hCanceledTouches] at hLookup
          exact List.mem_map.mpr ⟨_, Collections.Entries.mem_of_lookup hLookup, hSame⟩
  · intro other otherTouch hOther hReason
    by_cases hSame : other = pointer
    · simp only [hSame, Function.update_self] at hReason ⊢
      rw [h.isEmpty_of_hoversNothing hKept hReason]
      rfl
    · simp only [Function.update_of_ne hSame] at hReason ⊢
      rw [hTouches, Collections.Entries.lookup_cons_of_ne (show other ≠ (pointer, activeTouch).1
        from hSame), Collections.Entries.lookup_without_of_ne hSame] at hOther
      exact h.leaves other otherTouch hOther hReason

theorem Inv.onPointerPressed (h : s.Inv) {target : Option (Emitter × EventPath View)}
    (hOrderly : s.orderly (.pressed pointer pointerDeviceType target))
    (hAlive : ∀ view ∈ Event.views (.pressed pointer pointerDeviceType target),
      s.hovered.destroyed view = false) :
    (s.onPointerPressed pointer pointerDeviceType target).Inv := by
  cases target with
  | none =>
    have hCanceled := h.cancelActiveTouch pointer
    apply hCanceled.withHovered rfl
    apply hCanceled.keyed.withoutTarget
    exact unhovered_of_stale (hOrderly.2.2.2 rfl)
  | some target =>
    obtain ⟨eventEmitter, path⟩ := target
    have hRegistered := h.register hOrderly
    apply hRegistered.withHovered rfl
    apply hRegistered.handleTouchEvent
    intro view hMem
    show (s.handleTouchEvent pointer pointer []).destroyed view = false
    rw [destroyed_handleTouchEvent]
    exact hAlive view hMem

variable {event : Event Emitter View}

theorem Inv.next (h : s.Inv) (hOrderly : s.orderly event) (hStep : s.step event = some t) :
    t.Inv := by
  rw [step.eq_def] at hStep
  split at hStep
  next => cases hStep
  next hViews =>
    have hAlive : ∀ view ∈ event.views, s.hovered.destroyed view = false := by
      intro view hMem
      apply Bool.eq_false_iff.mpr
      exact fun hDestroyed => hViews (List.any_eq_true.mpr ⟨view, hMem, hDestroyed⟩)
    cases event with
    | pressed pointer pointerDeviceType target =>
      cases hStep
      exact h.onPointerPressed hOrderly hAlive
    | moved pointer target touchTarget =>
      cases hStep
      exact h.onPointerMoved hOrderly hAlive
    | exited pointer =>
      cases hStep
      exact h.onPointerExited hOrderly
    | released pointer target =>
      cases hStep
      exact h.onPointerReleased hAlive
    | captureLost pointer capturedPointers =>
      cases hStep
      rw [onPointerCaptureLost_eq hOrderly]
      exact h.cancelActiveTouch pointer
    | routedAway pointer =>
      cases hStep
      exact h.cancelActiveTouch pointer
    | destroy view =>
      cases hStep
      exact h.withHovered rfl (h.keyed.destroy view)

/-! ### Touches that end -/

omit [DecidableEq Emitter] in
theorem Inv.balanced (h : s.Inv) : s.Balanced := ⟨h.keyed.inTurn, h.keyed.onPath⟩

omit [DecidableEq Emitter] in
theorem Inv.hovers_of_path (h : s.Inv) (hPath : s.hovered.path pointer = []) {view : View}
    (hView : s.hovered.destroyed view = false) : hovers s.hovered.calls pointer view = false := by
  apply Bool.eq_false_iff.mpr
  rw [Ne, h.keyed.onPath pointer view hView, hPath]
  exact List.not_mem_nil

def Ended (s t : PointerHover Emitter View) : Prop :=
  ∀ pointer, (s.touches.m_activeTouches.lookup pointer).isSome = true →
    t.touches.m_activeTouches.lookup pointer = none → s.overNothing pointer = true →
      t.hovered.path pointer = []

omit [DecidableEq Emitter] [DecidableEq View] in
theorem ended_of_same (h : t.touches.m_activeTouches = s.touches.m_activeTouches) : s.Ended t := by
  intro pointer hSome hNone
  rw [h] at hNone
  rw [hNone] at hSome
  cases hSome

omit [DecidableEq Emitter] [DecidableEq View] in
theorem ended_of_without (pointer : ℕ)
    (h : t.touches.m_activeTouches = s.touches.m_activeTouches.without pointer)
    (hPath : (s.touches.m_activeTouches.lookup pointer).isSome = true →
      s.overNothing pointer = true → t.hovered.path pointer = []) : s.Ended t := by
  intro other hSome hNone hNothing
  by_cases hSame : other = pointer
  · rw [hSame] at hSome hNothing ⊢
    exact hPath hSome hNothing
  · rw [h, Collections.Entries.lookup_without_of_ne hSame] at hNone
    rw [hNone] at hSome
    cases hSome

theorem ended_cancelActiveTouch (s : PointerHover Emitter View) (pointer : ℕ) :
    s.Ended (PointerHover.cancelActiveTouch pointer s pointer) := by
  apply ended_of_without pointer (s.touches.activeTouches_cancelActiveTouch pointer)
  intro hSome _
  obtain ⟨activeTouch, hActive⟩ := Option.isSome_iff_exists.mp hSome
  rw [PointerHover.cancelActiveTouch, PointerHover.handleTouchEvent, hActive]
  simp only [HoveredViews.handle_path, Function.update_self]

theorem Inv.ended_onPointerReleased (h : s.Inv) (pointer : ℕ) (target : Option (EventPath View)) :
    s.Ended (s.onPointerReleased pointer target) := by
  cases hActive : s.touches.m_activeTouches.lookup pointer with
  | none =>
    apply ended_of_same
    simp only [PointerHover.onPointerReleased, ActiveTouches.onPointerReleased, hActive]
  | some activeTouch =>
    apply ended_of_without pointer
    · simp only [PointerHover.onPointerReleased, ActiveTouches.onPointerReleased, hActive]
      split
      next => rfl
      next => rfl
    · intro _ hNothing
      have hLeave := h.leaves pointer activeTouch hActive (Or.inl hNothing)
      simp only [PointerHover.onPointerReleased, PointerHover.handleTouchEvent, hActive,
        HoveredViews.handle_path, Function.update_self, hLeave, if_true]
      cases target with
      | none | some path => rfl

theorem Inv.ended_of_step (h : s.Inv) (hOrderly : s.orderly event) (hStep : s.step event = some t) :
    s.Ended t := by
  rw [step.eq_def] at hStep
  split at hStep
  next => cases hStep
  next =>
    cases event with
    | pressed pointer pointerDeviceType target =>
      cases hStep
      cases target with
      | none =>
        apply ended_of_without pointer (s.touches.activeTouches_cancelActiveTouch pointer)
        intro _ _
        simp only [PointerHover.onPointerPressed, HoveredViews.withoutTarget, Function.update_self]
      | some target =>
        obtain ⟨eventEmitter, path⟩ := target
        obtain ⟨activeTouch, -, hTouches⟩ :=
          onPointerPressed_activeTouches s.touches pointer pointerDeviceType eventEmitter
        intro other hSome hNone
        replace hNone : (s.touches.onPointerPressed pointer pointerDeviceType
          (some eventEmitter)).m_activeTouches.lookup other = none := hNone
        rw [hTouches] at hNone
        by_cases hSame : other = pointer
        · rw [hSame, List.lookup_cons_self] at hNone
          cases hNone
        · have hNe : other ≠ (pointer, activeTouch).1 := hSame
          rw [Collections.Entries.lookup_cons_of_ne hNe,
            Collections.Entries.lookup_without_of_ne hSame] at hNone
          rw [hNone] at hSome
          cases hSome
    | moved pointer target touchTarget =>
      cases hStep
      apply ended_of_same
      cases target with
      | none => rfl
      | some path => exact onPointerMoved_activeTouches s.touches pointer true
    | exited pointer | destroy view =>
      cases hStep
      exact ended_of_same rfl
    | released pointer target =>
      cases hStep
      exact h.ended_onPointerReleased pointer target
    | captureLost pointer capturedPointers =>
      cases hStep
      rw [onPointerCaptureLost_eq hOrderly]
      exact s.ended_cancelActiveTouch pointer
    | routedAway pointer =>
      cases hStep
      exact s.ended_cancelActiveTouch pointer

omit [DecidableEq Emitter] in
theorem inv_initial : (initial : PointerHover Emitter View).Inv := by
  have hKey : ∀ pointer pointerId, key (initial : PointerHover Emitter View).touches pointer =
      some pointerId → pointer = mousePointerId := by
    intro pointer pointerId h
    by_contra hNe
    rw [key, if_neg hNe] at h
    cases h
  constructor
  · exact ⟨List.nodup_nil, fun entry hMem => (nomatch hMem), fun entry hMem => (nomatch hMem)⟩
  · exact fun entry hMem => (nomatch hMem)
  · constructor
    · intro pointer other pointerId hPointer hOther
      exact (hKey pointer pointerId hPointer).trans (hKey other pointerId hOther).symm
    · exact fun _ _ => trivial
    · exact fun _ => List.nodup_nil
    · exact fun _ _ _ _ _ => iff_of_false Bool.noConfusion List.not_mem_nil
    · exact fun _ _ _ _ => rfl
    · exact fun _ _ => rfl
    · exact fun _ _ _ => iff_of_false Bool.noConfusion List.not_mem_nil
  · exact fun pointer activeTouch hActive => (nomatch hActive)

/-- In an orderly run the calls for each pointer and view alternate, what a pointer has entered and not
exited is its path, and a touch that came over nothing leaves nothing. -/
theorem hover_balanced (events : List (Event Emitter View)) (h : Allowed step orderly initial events) :
    Throughout step Balanced initial events ∧ Along step LeavesNothing initial events := by
  have hStart : (initial : PointerHover Emitter View).Inv := inv_initial
  constructor
  · have hInv := h.throughout hStart fun s event t hInv hOk hStep => hInv.next hOk hStep
    exact hInv.imp fun s hState => hState.balanced
  · apply h.along hStart
    · exact fun s event t hInv hOk hStep => hInv.next hOk hStep
    · intro s event t hInv hOk hStep pointer hSome hNone hNothing view hView
      exact (hInv.next hOk hStep).hovers_of_path
        (hInv.ended_of_step hOk hStep pointer hSome hNone hNothing) hView

/-- The mouse hovers a view that a finger taps. -/
theorem tap_balanced :
    Throughout step Balanced (initial : PointerHover Bool Bool)
        [.moved 1 (some ⟨[true], List.nodup_singleton _⟩) ⟨[], List.nodup_nil⟩,
          .pressed 5 .touch (some (true, ⟨[true], List.nodup_singleton _⟩)),
          .released 5 (some ⟨[true], List.nodup_singleton _⟩), .exited 1] ∧
      Along step LeavesNothing (initial : PointerHover Bool Bool)
        [.moved 1 (some ⟨[true], List.nodup_singleton _⟩) ⟨[], List.nodup_nil⟩,
          .pressed 5 .touch (some (true, ⟨[true], List.nodup_singleton _⟩)),
          .released 5 (some ⟨[true], List.nodup_singleton _⟩), .exited 1] := by
  apply hover_balanced
  refine ⟨rfl, fun _ hMoved => ⟨?_, fun _ _ => ⟨trivial, fun _ _ => ⟨?_, fun _ _ => trivial⟩⟩⟩⟩
  · cases hMoved
    exact ⟨iff_of_false nofun (by decide), Nat.le_of_ble_eq_true rfl, rfl, nofun⟩
  · exact fun hNe => absurd rfl hNe

/-- A finger that moves is entered as the mouse as well; and the mouse stays on a view when it moves to
where nothing is. -/
theorem hover_unbalanced :
    ¬ Throughout step Balanced (initial : PointerHover Bool Bool)
        [.pressed 5 .touch (some (true, ⟨[true], List.nodup_singleton _⟩)),
          .moved 5 (some ⟨[true], List.nodup_singleton _⟩) ⟨[true], List.nodup_singleton _⟩] ∧
      ¬ Throughout step Balanced (initial : PointerHover Bool Bool)
        [.moved 1 (some ⟨[true], List.nodup_singleton _⟩) ⟨[], List.nodup_nil⟩,
          .moved 1 none ⟨[], List.nodup_nil⟩] := by
  constructor
  · intro h
    have hTwice := ((h.last rfl).inTurn 5 true).1 rfl
    cases hTwice
  · intro h
    have hPath := ((h.last rfl).onPath 1 true rfl).mp rfl
    cases hPath

end PointerHover

end Fabric
