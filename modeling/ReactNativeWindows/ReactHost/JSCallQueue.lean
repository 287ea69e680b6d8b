import ReactNativeWindows.Concurrency.Progress

/-! Calls of JS functions while an instance loads: they wait in a queue, which is drained when the
instance is loaded, and abandoned when it fails or is destroyed. -/
namespace ReactHost.JSCallQueue

open Concurrency

universe u

inductive ReactInstanceState where
  | loading
  | waitingForDebugger
  | loaded
  | hasError
  | unloaded
  deriving DecidableEq

abbrev JSCallEntry (Call : Type u) := ℕ × Call

/-- The instance is there until it is destroyed: it is made before it can be loaded. `calls` are all
calls in the order of their locked blocks, `accepted` those that were not ignored, `delivered` those
that the instance was given, and `late` those of them that were in the queue before it was emptied. -/
structure Heap (Call : Type u) where
  m_state : ReactInstanceState
  m_isLoaded : Bool
  m_isDestroyed : Bool
  m_jsCallQueue : List (JSCallEntry Call)
  m_bridgelessReactInstance : Bool
  failed : Bool
  abandoned : Bool
  calls : List Call
  accepted : List (JSCallEntry Call)
  delivered : List (JSCallEntry Call)
  late : List (JSCallEntry Call)

def Heap.initial (Call : Type u) : Heap Call :=
  { m_state := .loading, m_isLoaded := false, m_isDestroyed := false, m_jsCallQueue := [],
    m_bridgelessReactInstance := true, failed := false, abandoned := false, calls := [],
    accepted := [], delivered := [], late := [] }

/-- `bundleLoaded` is what runs in the JS queue after the script; `callEntry` calls an entry that was
taken out of the queue, and `callFunctionOnModule` one that did not wait. -/
inductive Frame (Call : Type u) where
  | callJsFunction (call : Call)
  | callFunctionOnModule (entry : JSCallEntry Call)
  | bundleLoaded
  | onReactInstanceLoaded (errorCode : Bool)
  | setLoaded
  | setLoadError
  | drainJSCallQueue
  | callEntry (entry : JSCallEntry Call)
  | onError
  | onJSError
  | abandonJSCallQueue
  | destroy
  | unload
  | releaseInstance
  | onWaitingForDebugger

variable {Call : Type u}

def Heap.deliver (h : Heap Call) (entry : JSCallEntry Call) (queued : Bool) : Heap Call :=
  if h.m_bridgelessReactInstance then
    { h with
      delivered := h.delivered ++ [entry]
      late := if queued ∧ h.abandoned then h.late ++ [entry] else h.late }
  else h

/-- The locked block of `CallJsFunction`, and whether the call is made at once. -/
def Heap.callJsFunction (h : Heap Call) (call : Call) : Bool × Heap Call :=
  let entry := (h.calls.length, call)
  let h := { h with calls := h.calls ++ [call] }
  if h.m_state = .loaded ∧ h.m_jsCallQueue = [] then
    (true, { h with accepted := h.accepted ++ [entry] })
  else if h.m_state = .loading ∨ h.m_state = .waitingForDebugger ∨ h.m_state = .loaded then
    (false, { h with
      accepted := h.accepted ++ [entry]
      m_jsCallQueue := h.m_jsCallQueue ++ [entry] })
  -- otherwise ignore the call
  else (false, h)

@[grind =]
def exec (h : Heap Call) (frame : Frame Call) :
    Outcome (Heap Call) (Frame Call) Empty :=
  match frame with
  | .callJsFunction call =>
    match h.callJsFunction call with
    | (true, next) => .next next [.callFunctionOnModule (h.calls.length, call)] []
    | (false, next) => .next next [] []
  | .callFunctionOnModule entry => .next (h.deliver entry false) [] []
  | .bundleLoaded =>
    if h.m_state ≠ .hasError then .next h [.onReactInstanceLoaded false] [] else .next h [] []
  | .onReactInstanceLoaded errorCode =>
    if h.m_isLoaded then .next h [] []
    else .next { h with m_isLoaded := true } [if errorCode then .setLoadError else .setLoaded] []
  | .setLoaded => .next { h with m_state := .loaded } [.drainJSCallQueue] []
  | .setLoadError => .next { h with m_state := .hasError, failed := true } [.onError] []
  | .drainJSCallQueue =>
    match h.m_state, h.m_jsCallQueue with
    | .loaded, entry :: entries => .next { h with m_jsCallQueue := entries } [.callEntry entry] []
    | _, _ => .next h [] []
  | .callEntry entry => .next (h.deliver entry true) [.drainJSCallQueue] []
  | .onError => .next { h with m_state := .hasError, failed := true } [.abandonJSCallQueue] []
  | .onJSError =>
    .next { h with m_state := .hasError, failed := true }
      [.abandonJSCallQueue, .onReactInstanceLoaded true] []
  | .abandonJSCallQueue =>
    if h.m_state = .hasError ∨ h.m_state = .unloaded then
      .next { h with m_jsCallQueue := [], abandoned := true } [] []
    else .next h [] []
  | .destroy =>
    if h.m_isDestroyed then .next h [] []
    else .next { h with m_isDestroyed := true } [.unload] []
  | .unload =>
    .next { h with m_state := .unloaded, failed := true } [.abandonJSCallQueue, .releaseInstance] []
  | .releaseInstance => .next { h with m_bridgelessReactInstance := false } [] []
  | .onWaitingForDebugger =>
    if h.m_state = .loading then .next { h with m_state := .waitingForDebugger } [] []
    else .next h [] []

def Frame.isCall : Frame Call → Bool
  | callJsFunction _ | bundleLoaded | onReactInstanceLoaded true | onError | onJSError | destroy
  | onWaitingForDebugger => true
  | _ => false

def machine (Call : Type u) : Machine (Heap Call) (Frame Call) Unit Empty where
  exec h frame _ := some (exec h frame)
  start h frame := if frame.isCall then some h else none

/-- A call that was taken out of the queue and is not made yet. -/
def Frame.isTaken : Frame Call → Bool
  | callEntry _ => true
  | _ => false

/-- A call that is made at once, and is not made yet. -/
def Frame.isDirect : Frame Call → Bool
  | callFunctionOnModule _ => true
  | _ => false

/-- A call is made at once only when no other one is still to be made, and the queue is emptied only
when no call that was in it is. -/
def Orderly (h : Heap Call) (frame : Frame Call) (F : Multiset (Frame Call)) : Prop :=
  match frame with
  | .callJsFunction _ => h.m_state = .loaded → h.m_jsCallQueue = [] →
      tally Frame.isTaken F = 0 ∧ tally Frame.isDirect F = 0
  | .abandonJSCallQueue => h.m_state = .hasError ∨ h.m_state = .unloaded → tally Frame.isTaken F = 0
  | _ => True

instance (h : Heap Call) (frame : Frame Call) (F : Multiset (Frame Call)) :
    Decidable (Orderly h frame F) :=
  match frame with
  | .callJsFunction _ => inferInstanceAs (Decidable (_ → _ → _))
  | .abandonJSCallQueue => inferInstanceAs (Decidable (_ → _))
  | .callFunctionOnModule _ | .bundleLoaded | .onReactInstanceLoaded _ | .setLoaded | .setLoadError
  | .drainJSCallQueue | .callEntry _ | .onError | .onJSError | .destroy | .unload | .releaseInstance
  | .onWaitingForDebugger => isTrue trivial

end ReactHost.JSCallQueue
