import ReactNativeWindows.ReactHost.AsyncActionQueue

/-! The host of a React instance and its view hosts, as they run in the native queue. -/
namespace ReactHost

universe u

inductive JSIEngine where
  | Hermes
  | V8
  deriving DecidableEq

structure ReactOptions (Options : Type u) where
  jsiEngine : JSIEngine
  useDirectDebugger : Bool
  rest : Options

inductive UnloadReason where
  | unload
  | closeHost
  deriving DecidableEq

/-- What the action queue has: actions of the host and of view hosts, which are named by numbers. -/
inductive Action (Options ViewOptions : Type u) where
  | unloadInstance (reason : UnloadReason) (unloadActionId : ℕ)
  | loadInstance (options : ReactOptions Options)
  | uninitViewInstance (view : ℕ) (uninitActionId : ℕ)
  | initViewInstance (view : ℕ) (options : Option ViewOptions)

inductive RootViewCall where
  | initRootView (instance_ : ℕ)
  | uninitRootView
  deriving DecidableEq

/-- `m_viewInstance` says whether a view instance is attached. `initedAgainst` is the instance that it
was initialised against, until `UninitRootView` has completed; `calls` are the calls of the view
instances, newest last. -/
structure ViewHost (ViewOptions : Type u) where
  m_viewInstance : Bool
  m_options : ViewOptions
  m_pendingUninitActionId : ℕ
  m_nextUninitActionId : ℕ
  m_isViewInstanceInited : Bool
  initedAgainst : Option ℕ
  calls : List RootViewCall

inductive ActionResult where
  | succeeded
  | failed
  | canceled
  deriving DecidableEq

/-- What the action in progress waits for: `WhenAllCompleted` of the `UninitRootView` futures of
`views` (those of `skipped` were canceled), the future of `Destroy`, that of the load, those of
`UpdateRootView`, or the future of a view instance; `completing` is before its result is set, and
`completed` before the next action is started. -/
inductive Stage where
  | idle
  | unloading (views skipped : List ℕ)
  | destroying (instance_ : ℕ)
  | loading
  | updating
  | initing (view : ℕ)
  | uniniting (view : ℕ)
  | completing (result : ActionResult)
  | completed
  deriving DecidableEq

/-- `current` is the action in progress. `instances` counts the instances that were made, `destroyed`
are those with a call of `Destroy`, `gone` those with its future completed. `whenClosed` is the action
whose result completes the closing promise, and `closed` what it was completed with. -/
structure Host (Options ViewOptions : Type u) where
  m_options : ReactOptions Options
  m_actionQueue : AsyncActionQueue (Action Options ViewOptions)
  m_viewHosts : List ℕ
  m_reactInstance : Option ℕ
  m_notifyWhenClosed : Bool
  m_pendingUnloadActionId : ℕ
  m_nextUnloadActionId : ℕ
  m_isInstanceUnloading : Bool
  m_inspectorPageId : Bool
  views : ℕ → ViewHost ViewOptions
  current : Option (Action Options ViewOptions)
  stage : Stage
  instances : ℕ
  destroyed : List ℕ
  gone : List ℕ
  whenClosed : Option ℕ
  closed : List ActionResult

inductive Crash where
  /-- "The viewInstance must be unloaded before the load with new options." -/
  | viewInstanceInited
  /-- "ViewInstance must not be previously attached." -/
  | viewInstanceAttached
  /-- "ViewInstance is not attached." -/
  | viewInstanceNotAttached
  deriving DecidableEq

/-- Calls of the host and of view hosts as they run in the queue, and the futures of instances and view
instances; the options of `ReloadInstance` were read when it was called. -/
inductive Event (Options ViewOptions : Type u) where
  | reloadInstance (options : ReactOptions Options)
  | unloadInstance
  | close
  | attachViewInstance (view : ℕ)
  | detachViewInstance (view : ℕ)
  | reloadViewInstance (view : ℕ) (options : Option ViewOptions)
  | unloadViewInstance (view : ℕ)
  | uninited (view : ℕ)
  | allUninited
  | destroyed
  | loaded (succeeded : Bool)
  | updated (succeeded : Bool)
  | inited (succeeded : Bool)
  | viewUninited (succeeded : Bool)
  | completeAction
  | startNext

variable {Options ViewOptions : Type u}

def ReactOptions.isInspectable (options : ReactOptions Options) : Bool :=
  options.jsiEngine = .Hermes && options.useDirectDebugger

namespace ViewHost

def initRootView (v : ViewHost ViewOptions) (instance_ : ℕ) : ViewHost ViewOptions :=
  { v with
    m_isViewInstanceInited := true
    initedAgainst := some instance_
    calls := v.calls ++ [.initRootView instance_] }

def uninitRootView (v : ViewHost ViewOptions) : ViewHost ViewOptions :=
  { v with m_isViewInstanceInited := false, calls := v.calls ++ [.uninitRootView] }

/-- The future of `UninitRootView` has completed. -/
def uninited (v : ViewHost ViewOptions) : ViewHost ViewOptions :=
  if v.m_isViewInstanceInited then v else { v with initedAgainst := none }

end ViewHost

namespace Host

def initial (options : ReactOptions Options) (viewOptions : ViewOptions) : Host Options ViewOptions :=
  { m_options := options, m_actionQueue := .empty _, m_viewHosts := [], m_reactInstance := none,
    m_notifyWhenClosed := true, m_pendingUnloadActionId := 0, m_nextUnloadActionId := 0,
    m_isInstanceUnloading := false, m_inspectorPageId := false,
    views := fun _ =>
      { m_viewInstance := false, m_options := viewOptions, m_pendingUninitActionId := 0,
        m_nextUninitActionId := 0, m_isViewInstanceInited := false, initedAgainst := none, calls := [] },
    current := none, stage := .idle, instances := 0, destroyed := [], gone := [],
    whenClosed := none, closed := [] }

def setView (h : Host Options ViewOptions) (view : ℕ) (v : ViewHost ViewOptions) :
    Host Options ViewOptions :=
  { h with views := Function.update h.views view v }

def isClosed (h : Host Options ViewOptions) : Bool := !h.m_notifyWhenClosed

/-- The conditions of `InitViewInstanceInQueue` for a call of `InitRootView`, behind the check whether
the view is inited. -/
def canInit (h : Host Options ViewOptions) (view : ℕ) : Bool :=
  !h.isClosed && h.m_pendingUnloadActionId = 0 && (h.views view).m_pendingUninitActionId = 0 &&
    !h.m_isInstanceUnloading && (h.views view).m_viewInstance

/-- `none` is a future that waits for `InitRootView`. -/
def initViewInstanceInQueue (h : Host Options ViewOptions) (view : ℕ) :
    Host Options ViewOptions × Option ActionResult :=
  if (h.views view).m_isViewInstanceInited then (h, some .succeeded)
  else
    match h.m_reactInstance with
    | some instance_ =>
      if h.canInit view then (h.setView view ((h.views view).initRootView instance_), none)
      else (h, some .canceled)
    | none => (h, some .canceled)

def initViewInstanceWithOptions (h : Host Options ViewOptions) (view : ℕ) (options : ViewOptions) :
    Except Crash (Host Options ViewOptions × Option ActionResult) :=
  let h := h.setView view { h.views view with m_options := options }
  if (h.views view).m_isViewInstanceInited then .error .viewInstanceInited
  else .ok (h.initViewInstanceInQueue view)

/-- `none` is a future that waits for `UninitRootView`. -/
def uninitViewInstanceInQueue (h : Host Options ViewOptions) (view unloadActionId : ℕ) :
    Host Options ViewOptions × Option ActionResult :=
  if unloadActionId ≠ (h.views view).m_pendingUninitActionId then (h, some .canceled)
  else
    let h := h.setView view { h.views view with m_pendingUninitActionId := 0 }
    if h.m_pendingUnloadActionId ≠ 0 then (h, some .canceled)
    else if (h.views view).m_viewInstance then (h.setView view (h.views view).uninitRootView, none)
    else (h, some .canceled)

def completes (h : Host Options ViewOptions) (result : ActionResult) : Host Options ViewOptions :=
  { h with stage := .completing result }

def waits (h : Host Options ViewOptions) (stage : Stage) : Option ActionResult → Host Options ViewOptions
  | none => { h with stage := stage }
  | some result => h.completes result

/-- `m_whenCreated` is set by the constructor of the instance, so the attached views are inited at once,
each with its own options; nobody waits for their futures. -/
def loadInQueue (h : Host Options ViewOptions) (options : ReactOptions Options) :
    Except Crash (Host Options ViewOptions) :=
  if h.isClosed then .ok (h.completes .canceled)
  else
    let h := { h with m_options := options }
    if h.m_pendingUnloadActionId ≠ 0 then .ok (h.completes .canceled)
    else
      let h := { h with
        m_inspectorPageId := options.isInspectable
        m_reactInstance := some h.instances
        instances := h.instances + 1 }
      if h.m_viewHosts.any fun view => (h.views view).m_isViewInstanceInited then
        .error .viewInstanceInited
      else
        .ok { h with
          views := fun view =>
            if view ∈ h.m_viewHosts ∧ h.canInit view then (h.views view).initRootView (h.instances - 1)
            else h.views view
          stage := .loading }

/-- What the first part of `UnloadInQueue` does with an attached view. -/
def unloadsView (h : Host Options ViewOptions) (view : ℕ) : Bool :=
  view ∈ h.m_viewHosts && (h.views view).m_pendingUninitActionId = 0

def unloadInQueue (h : Host Options ViewOptions) (unloadActionId : ℕ) : Host Options ViewOptions :=
  if unloadActionId ≠ h.m_pendingUnloadActionId then h.completes .canceled
  else
    { h with
      m_pendingUnloadActionId := 0
      m_isInstanceUnloading := true
      views := fun view => if h.unloadsView view then (h.views view).uninitRootView else h.views view
      stage := .unloading (h.m_viewHosts.filter h.unloadsView)
        (h.m_viewHosts.filter fun view => !h.unloadsView view) }

/-- The second part of `UnloadInQueue`. -/
def afterUnload (h : Host Options ViewOptions) (reason : UnloadReason) : Host Options ViewOptions :=
  let h := match h.m_reactInstance with
    | some instance_ => { h with
        m_reactInstance := none
        destroyed := h.destroyed ++ [instance_]
        stage := .destroying instance_ }
    | none => h.completes .succeeded
  { h with
    m_isInstanceUnloading := false
    m_inspectorPageId := if reason = .closeHost then false else h.m_inspectorPageId }

def invoke (h : Host Options ViewOptions) (action : Action Options ViewOptions) :
    Except Crash (Host Options ViewOptions) :=
  let h := { h with current := some action }
  match action with
  | .unloadInstance _ unloadActionId => .ok (h.unloadInQueue unloadActionId)
  | .loadInstance options => h.loadInQueue options
  | .uninitViewInstance view uninitActionId =>
    let (h, result) := h.uninitViewInstanceInQueue view uninitActionId
    .ok (h.waits (.uniniting view) result)
  | .initViewInstance view none =>
    let (h, result) := h.initViewInstanceInQueue view
    .ok (h.waits (.initing view) result)
  | .initViewInstance view (some options) =>
    match h.initViewInstanceWithOptions view options with
    | .ok (h, result) => .ok (h.waits (.initing view) result)
    | .error crash => .error crash

def invokeEntry (h : Host Options ViewOptions) :
    Option (Action Options ViewOptions) → Except Crash (Host Options ViewOptions)
  | some action => h.invoke action
  | none => .ok h

def postAction (h : Host Options ViewOptions) (action : Action Options ViewOptions) :
    Except Crash (Host Options ViewOptions) :=
  let (queue, entry) := h.m_actionQueue.postAction action
  { h with m_actionQueue := queue }.invokeEntry entry

def postActions (h : Host Options ViewOptions) :
    List (Action Options ViewOptions) → Except Crash (Host Options ViewOptions)
  | [] => .ok h
  | action :: actions =>
    match h.postAction action with
    | .ok h => h.postActions actions
    | .error crash => .error crash

def makeUnloadInstanceAction (h : Host Options ViewOptions) : Host Options ViewOptions × ℕ :=
  ({ h with
    m_nextUnloadActionId := h.m_nextUnloadActionId + 1
    m_pendingUnloadActionId := h.m_nextUnloadActionId + 1 }, h.m_nextUnloadActionId + 1)

def makeUninitViewInstanceAction (h : Host Options ViewOptions) (view : ℕ) :
    Host Options ViewOptions × ℕ :=
  let id := (h.views view).m_nextUninitActionId + 1
  (h.setView view { h.views view with m_nextUninitActionId := id, m_pendingUninitActionId := id }, id)

def reloadInstance (h : Host Options ViewOptions) (options : ReactOptions Options) :
    Except Crash (Host Options ViewOptions) :=
  let (h, id) := h.makeUnloadInstanceAction
  h.postActions [.unloadInstance .unload id, .loadInstance options]

def unloadInstance (h : Host Options ViewOptions) : Except Crash (Host Options ViewOptions) :=
  let (h, id) := h.makeUnloadInstanceAction
  h.postAction (.unloadInstance .unload id)

/-- The first call takes the promise. -/
def close (h : Host Options ViewOptions) : Except Crash (Host Options ViewOptions) :=
  let (h, id) := h.makeUnloadInstanceAction
  match h.postAction (.unloadInstance .closeHost id) with
  | .ok h => .ok { h with
      whenClosed := if h.m_notifyWhenClosed then some id else h.whenClosed
      m_notifyWhenClosed := false }
  | .error crash => .error crash

def attachViewInstance (h : Host Options ViewOptions) (view : ℕ) :
    Except Crash (Host Options ViewOptions) :=
  if (h.views view).m_viewInstance then .error .viewInstanceAttached
  else
    let h := h.setView view { h.views view with m_viewInstance := true, initedAgainst := none }
    .ok ({ h with m_viewHosts := h.m_viewHosts ++ [view] }.initViewInstanceInQueue view).1

def detachViewInstance (h : Host Options ViewOptions) (view : ℕ) :
    Except Crash (Host Options ViewOptions) :=
  if (h.views view).m_viewInstance then
    .ok ({ h with m_viewHosts := h.m_viewHosts.filter (· ≠ view) }.setView view
      { (h.views view).uninitRootView with m_viewInstance := false })
  else .error .viewInstanceNotAttached

def reloadViewInstance (h : Host Options ViewOptions) (view : ℕ) (options : Option ViewOptions) :
    Except Crash (Host Options ViewOptions) :=
  let (h, id) := h.makeUninitViewInstanceAction view
  h.postActions [.uninitViewInstance view id, .initViewInstance view options]

def unloadViewInstance (h : Host Options ViewOptions) (view : ℕ) :
    Except Crash (Host Options ViewOptions) :=
  let (h, id) := h.makeUninitViewInstanceAction view
  h.postAction (.uninitViewInstance view id)

def reason (h : Host Options ViewOptions) : UnloadReason :=
  match h.current with
  | some (.unloadInstance reason _) => reason
  | _ => .unload

/-- The result of an action is set; the closing promise may wait for it. -/
def completeAction (h : Host Options ViewOptions) (result : ActionResult) : Host Options ViewOptions :=
  let h := { h with stage := .completed }
  match h.current, h.whenClosed with
  | some (.unloadInstance _ id), some closing =>
    if id = closing then { h with closed := h.closed ++ [result] } else h
  | _, _ => h

def startNext (h : Host Options ViewOptions) : Except Crash (Host Options ViewOptions) :=
  let (queue, entry) := h.m_actionQueue.startNext
  { h with m_actionQueue := queue, current := none, stage := .idle }.invokeEntry entry

end Host

def ActionResult.of (succeeded : Bool) : ActionResult := if succeeded then .succeeded else .failed

/-- `none` when the event cannot happen. -/
def Host.step (h : Host Options ViewOptions) :
    Event Options ViewOptions → Option (Except Crash (Host Options ViewOptions))
  | .reloadInstance options => some (h.reloadInstance options)
  | .unloadInstance => some h.unloadInstance
  | .close => some h.close
  | .attachViewInstance view => some (h.attachViewInstance view)
  | .detachViewInstance view => some (h.detachViewInstance view)
  | .reloadViewInstance view options => some (h.reloadViewInstance view options)
  | .unloadViewInstance view => some (h.unloadViewInstance view)
  | .uninited view =>
    match h.stage with
    | .unloading views skipped =>
      if view ∈ views then
        some (.ok { h.setView view (h.views view).uninited with
          stage := .unloading (views.erase view) skipped })
      else none
    | _ => none
  | .allUninited =>
    match h.stage with
    | .unloading [] _ => some (.ok (h.afterUnload h.reason))
    | _ => none
  | .destroyed =>
    match h.stage with
    | .destroying instance_ => some (.ok ({ h with gone := h.gone ++ [instance_] }.completes .succeeded))
    | _ => none
  | .loaded succeeded =>
    match h.stage with
    | .loading =>
      some (.ok (if succeeded then { h with stage := .updating } else h.completes .failed))
    | _ => none
  | .updated succeeded =>
    match h.stage with
    | .updating => some (.ok (h.completes (.of succeeded)))
    | _ => none
  | .inited succeeded =>
    match h.stage with
    | .initing _ => some (.ok (h.completes (.of succeeded)))
    | _ => none
  | .viewUninited succeeded =>
    match h.stage with
    | .uniniting view =>
      some (.ok ((h.setView view (h.views view).uninited).completes (.of succeeded)))
    | _ => none
  | .completeAction =>
    match h.stage with
    | .completing result => some (.ok (h.completeAction result))
    | _ => none
  | .startNext =>
    match h.stage with
    | .completed => some h.startNext
    | _ => none

inductive Runs (ok : Host Options ViewOptions → Event Options ViewOptions → Prop)
    (h : Host Options ViewOptions) : Host Options ViewOptions → Prop where
  | refl : Runs ok h h
  | step {s t : Host Options ViewOptions} (event : Event Options ViewOptions) (prior : Runs ok h s)
      (allowed : ok s event) (last : s.step event = some (.ok t)) : Runs ok h t

end ReactHost
