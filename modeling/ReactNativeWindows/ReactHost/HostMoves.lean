import ReactNativeWindows.ReactHost.ReactHost

/-! What one step of a host can do: a call appends its actions, and the queue starts one. -/
namespace ReactHost

universe u

variable {Options ViewOptions : Type u} {h t : Host Options ViewOptions}

def Event.posts : Event Options ViewOptions → Bool
  | .reloadInstance _ | .unloadInstance | .close | .reloadViewInstance _ _ | .unloadViewInstance _ => true
  | _ => false

namespace Host

def appended (h : Host Options ViewOptions) (action : Action Options ViewOptions) :
    Host Options ViewOptions :=
  { h with m_actionQueue :=
      { h.m_actionQueue with m_actions := h.m_actionQueue.m_actions ++ [action] } }

def started (h : Host Options ViewOptions) (action : Action Options ViewOptions)
    (actions : List (Action Options ViewOptions)) : Host Options ViewOptions :=
  { h with
    m_actionQueue := { m_actions := actions, m_isInvoking := true }
    current := some action
    stage := .idle }

def rested (h : Host Options ViewOptions) : Host Options ViewOptions :=
  { h with
    m_actionQueue := { m_actions := [], m_isInvoking := false }
    current := none
    stage := .idle }

def postsUnload (h : Host Options ViewOptions) (reason : UnloadReason) : Host Options ViewOptions :=
  h.makeUnloadInstanceAction.1.appended (.unloadInstance reason h.makeUnloadInstanceAction.2)

def postsUninit (h : Host Options ViewOptions) (view : ℕ) : Host Options ViewOptions :=
  (h.makeUninitViewInstanceAction view).1.appended
    (.uninitViewInstance view (h.makeUninitViewInstanceAction view).2)

def closes (h : Host Options ViewOptions) (id : ℕ) : Host Options ViewOptions :=
  { h with
    whenClosed := if h.m_notifyWhenClosed then some id else h.whenClosed
    m_notifyWhenClosed := false }

def posted (h : Host Options ViewOptions) : Event Options ViewOptions → Host Options ViewOptions
  | .reloadInstance options => (h.postsUnload .unload).appended (.loadInstance options)
  | .unloadInstance => h.postsUnload .unload
  | .close => (h.postsUnload .closeHost).closes (h.m_nextUnloadActionId + 1)
  | .reloadViewInstance view options => (h.postsUninit view).appended (.initViewInstance view options)
  | .unloadViewInstance view => h.postsUninit view
  | _ => h

def beginsUnload (h : Host Options ViewOptions) : Host Options ViewOptions :=
  { h with
    m_pendingUnloadActionId := 0
    m_isInstanceUnloading := true
    views := fun view => if h.unloadsView view then (h.views view).uninitRootView else h.views view
    stage := .unloading (h.m_viewHosts.filter h.unloadsView)
      (h.m_viewHosts.filter fun view => !h.unloadsView view) }

def loads (h : Host Options ViewOptions) (options : ReactOptions Options) : Host Options ViewOptions :=
  { h with
    m_options := options
    m_inspectorPageId := options.isInspectable
    m_reactInstance := some h.instances
    instances := h.instances + 1
    views := fun view =>
      if view ∈ h.m_viewHosts ∧ h.canInit view then (h.views view).initRootView h.instances
      else h.views view
    stage := .loading }

def clearsUninit (h : Host Options ViewOptions) (view : ℕ) : Host Options ViewOptions :=
  h.setView view { h.views view with m_pendingUninitActionId := 0 }

def withViewOptions (h : Host Options ViewOptions) (view : ℕ) :
    Option ViewOptions → Host Options ViewOptions
  | some options => h.setView view { h.views view with m_options := options }
  | none => h

def initsView (h : Host Options ViewOptions) (view instance_ : ℕ) : Host Options ViewOptions :=
  h.setView view ((h.views view).initRootView instance_)

def unloads (h : Host Options ViewOptions) : Host Options ViewOptions :=
  { h with
    m_isInstanceUnloading := false
    m_inspectorPageId := if h.reason = .closeHost then false else h.m_inspectorPageId
    stage := .completing .succeeded }

def destroys (h : Host Options ViewOptions) (instance_ : ℕ) : Host Options ViewOptions :=
  { h.unloads with
    m_reactInstance := none
    destroyed := h.destroyed ++ [instance_]
    stage := .destroying instance_ }

/-- What the closing promise gets when the action in progress has a result. -/
def closingResult (h : Host Options ViewOptions) (result : ActionResult) : List ActionResult :=
  match h.current, h.whenClosed with
  | some (.unloadInstance _ id), some closing => if id = closing then [result] else []
  | _, _ => []

def Ready (h : Host Options ViewOptions) : Prop := h.stage = .idle ∨ h.stage = .completed

def attaches (h : Host Options ViewOptions) (view : ℕ) : Host Options ViewOptions :=
  { h.setView view { h.views view with m_viewInstance := true, initedAgainst := none } with
    m_viewHosts := h.m_viewHosts ++ [view] }

def detaches (h : Host Options ViewOptions) (view : ℕ) : Host Options ViewOptions :=
  { h with m_viewHosts := h.m_viewHosts.filter (· ≠ view) }.setView view
    { (h.views view).uninitRootView with m_viewInstance := false }

end Host

inductive Inits (h : Host Options ViewOptions) (view : ℕ) :
    Host Options ViewOptions → Option ActionResult → Prop where
  | already (inited : (h.views view).m_isViewInstanceInited = true) : Inits h view h (some .succeeded)
  | init (instance_ : ℕ) (uninited : (h.views view).m_isViewInstanceInited = false)
      (loaded : h.m_reactInstance = some instance_) (can : h.canInit view = true) :
      Inits h view (h.initsView view instance_) none
  | canceled (uninited : (h.views view).m_isViewInstanceInited = false)
      (cannot : h.m_reactInstance = none ∨ h.canInit view = false) :
      Inits h view h (some .canceled)

/-- What the call of an action does that does not end in a crash. -/
inductive Starts (h : Host Options ViewOptions) :
    Action Options ViewOptions → Host Options ViewOptions → Prop where
  | unload (reason : UnloadReason) (id : ℕ) (newest : id = h.m_pendingUnloadActionId) :
      Starts h (.unloadInstance reason id) h.beginsUnload
  | oldUnload (reason : UnloadReason) (id : ℕ) (old : id ≠ h.m_pendingUnloadActionId) :
      Starts h (.unloadInstance reason id) (h.completes .canceled)
  | closedLoad (options : ReactOptions Options) (closed : h.isClosed = true) :
      Starts h (.loadInstance options) (h.completes .canceled)
  | canceledLoad (options : ReactOptions Options) (opened : h.isClosed = false)
      (pending : h.m_pendingUnloadActionId ≠ 0) :
      Starts h (.loadInstance options) ({ h with m_options := options }.completes .canceled)
  | load (options : ReactOptions Options) (opened : h.isClosed = false)
      (current : h.m_pendingUnloadActionId = 0)
      (uninited : ∀ view ∈ h.m_viewHosts, (h.views view).m_isViewInstanceInited = false) :
      Starts h (.loadInstance options) (h.loads options)
  | oldUninit (view id : ℕ) (old : id ≠ (h.views view).m_pendingUninitActionId) :
      Starts h (.uninitViewInstance view id) (h.completes .canceled)
  | canceledUninit (view id : ℕ) (newest : id = (h.views view).m_pendingUninitActionId)
      (skipped : h.m_pendingUnloadActionId ≠ 0 ∨ (h.views view).m_viewInstance = false) :
      Starts h (.uninitViewInstance view id) ((h.clearsUninit view).completes .canceled)
  | uninit (view id : ℕ) (newest : id = (h.views view).m_pendingUninitActionId)
      (current : h.m_pendingUnloadActionId = 0) (attached : (h.views view).m_viewInstance = true) :
      Starts h (.uninitViewInstance view id)
        { (h.clearsUninit view).setView view ((h.clearsUninit view).views view).uninitRootView with
          stage := .uniniting view }
  | init (view : ℕ) (options : Option ViewOptions)
      (uninited : options.isSome → (h.views view).m_isViewInstanceInited = false)
      {next : Host Options ViewOptions} {result : Option ActionResult}
      (inits : Inits (h.withViewOptions view options) view next result) :
      Starts h (.initViewInstance view options) (next.waits (.initing view) result)

theorem inits_initViewInstanceInQueue (view : ℕ) :
    Inits h view (h.initViewInstanceInQueue view).1 (h.initViewInstanceInQueue view).2 := by
  unfold Host.initViewInstanceInQueue
  split
  next hInited => exact .already hInited
  next hInited =>
    have hUninited := Bool.eq_false_iff.mpr hInited
    split
    next instance_ hInstance =>
      split
      next hCan => exact .init instance_ hUninited hInstance hCan
      next hCan => exact .canceled hUninited (Or.inr (Bool.eq_false_iff.mpr hCan))
    next hInstance => exact .canceled hUninited (Or.inl hInstance)

theorem starts_unloadInQueue (reason : UnloadReason) (id : ℕ) :
    Starts h (.unloadInstance reason id) (h.unloadInQueue id) := by
  unfold Host.unloadInQueue
  split
  next hOld => exact .oldUnload reason id hOld
  next hNewest => exact .unload reason id (not_not.mp hNewest)

theorem starts_uninitViewInstanceInQueue (view id : ℕ) :
    Starts h (.uninitViewInstance view id)
      ((h.uninitViewInstanceInQueue view id).1.waits (.uniniting view)
        (h.uninitViewInstanceInQueue view id).2) := by
  by_cases hOld : id = (h.views view).m_pendingUninitActionId
  · by_cases hCurrent : h.m_pendingUnloadActionId = 0
    · by_cases hAttached : (h.views view).m_viewInstance = true
      · have hStart := Starts.uninit view id hOld hCurrent hAttached
        simpa [Host.uninitViewInstanceInQueue, hOld, hCurrent, hAttached, Host.setView,
          Host.clearsUninit, Host.waits] using hStart
      · have hDetached := Bool.eq_false_iff.mpr hAttached
        have hStart := Starts.canceledUninit view id hOld (Or.inr hDetached)
        simpa [Host.uninitViewInstanceInQueue, hOld, hCurrent, hDetached, Host.setView,
          Host.clearsUninit, Host.waits] using hStart
    · have hStart := Starts.canceledUninit view id hOld (Or.inl hCurrent)
      simpa [Host.uninitViewInstanceInQueue, hOld, hCurrent, Host.setView, Host.clearsUninit,
        Host.waits] using hStart
  · have hStart := Starts.oldUninit view id hOld
    simpa [Host.uninitViewInstanceInQueue, hOld, Host.waits] using hStart

variable {action : Action Options ViewOptions}

theorem starts_of_invoke (hInvoke : h.invoke action = .ok t) :
    Starts { h with current := some action } action t := by
  cases action with
  | unloadInstance reason id =>
    simp only [Host.invoke, Except.ok.injEq] at hInvoke
    subst hInvoke
    exact starts_unloadInQueue reason id
  | loadInstance options =>
    simp only [Host.invoke, Host.loadInQueue] at hInvoke
    split at hInvoke
    next hClosed =>
      obtain rfl := Except.ok.inj hInvoke
      exact .closedLoad options hClosed
    next hOpened =>
      have hOpened := Bool.eq_false_iff.mpr hOpened
      split at hInvoke
      next hPending =>
        obtain rfl := Except.ok.inj hInvoke
        exact .canceledLoad options hOpened hPending
      next hCurrent =>
        split at hInvoke
        next => cases hInvoke
        next hViews =>
          obtain rfl := Except.ok.inj hInvoke
          apply Starts.load options hOpened (not_not.mp hCurrent)
          intro view hView
          by_contra hInited
          exact hViews (List.any_eq_true.mpr ⟨view, hView, (Bool.not_eq_false _).mp hInited⟩)
  | uninitViewInstance view id =>
    simp only [Host.invoke, Except.ok.injEq] at hInvoke
    subst hInvoke
    exact starts_uninitViewInstanceInQueue view id
  | initViewInstance view options =>
    cases options with
    | none =>
      simp only [Host.invoke, Except.ok.injEq] at hInvoke
      subst hInvoke
      exact .init view none (fun hSome => absurd hSome Bool.false_ne_true)
        (inits_initViewInstanceInQueue view)
    | some options =>
      simp only [Host.invoke, Host.initViewInstanceWithOptions] at hInvoke
      split at hInvoke
      next next result hInit =>
        split at hInit
        next => cases hInit
        next hUninited =>
          obtain rfl := Except.ok.inj hInvoke
          simp only [Except.ok.injEq, Prod.eq_iff_fst_eq_snd_eq] at hInit
          obtain ⟨rfl, rfl⟩ := hInit
          apply Starts.init view (some options)
          · intro _
            simpa [Host.setView] using hUninited
          · exact inits_initViewInstanceInQueue view
      next => cases hInvoke

theorem Inits.withQueue {view : ℕ} {next : Host Options ViewOptions} {result : Option ActionResult}
    (hInit : Inits h view next result) (queue : AsyncActionQueue (Action Options ViewOptions)) :
    Inits { h with m_actionQueue := queue } view { next with m_actionQueue := queue } result := by
  cases hInit with
  | already inited => exact .already inited
  | init instance_ uninited loaded can => exact .init instance_ uninited loaded can
  | canceled uninited cannot => exact .canceled uninited cannot

theorem Host.withViewOptions_withQueue (view : ℕ) (options : Option ViewOptions)
    (queue : AsyncActionQueue (Action Options ViewOptions)) :
    { h with m_actionQueue := queue }.withViewOptions view options =
      { h.withViewOptions view options with m_actionQueue := queue } := by
  cases options <;> rfl

theorem Host.waits_withQueue (stage : Stage) (result : Option ActionResult)
    (queue : AsyncActionQueue (Action Options ViewOptions)) :
    { h with m_actionQueue := queue }.waits stage result =
      { h.waits stage result with m_actionQueue := queue } := by
  cases result <;> rfl

/-- An action does not look at the queue. -/
theorem Starts.withQueue (hStart : Starts h action t)
    (queue : AsyncActionQueue (Action Options ViewOptions)) :
    Starts { h with m_actionQueue := queue } action { t with m_actionQueue := queue } := by
  cases hStart with
  | unload reason id newest => exact .unload reason id newest
  | oldUnload reason id old => exact .oldUnload reason id old
  | closedLoad options closed => exact .closedLoad options closed
  | canceledLoad options opened pending => exact .canceledLoad options opened pending
  | load options opened current uninited => exact .load options opened current uninited
  | oldUninit view id old => exact .oldUninit view id old
  | canceledUninit view id newest skipped => exact .canceledUninit view id newest skipped
  | uninit view id newest current attached => exact .uninit view id newest current attached
  | @init view options uninited next result inits =>
    have hInits := inits.withQueue queue
    rw [← Host.withViewOptions_withQueue] at hInits
    rw [← Host.waits_withQueue]
    apply Starts.init view options
    · exact uninited
    · exact hInits

theorem Starts.actionQueue_eq (hStart : Starts h action t) : t.m_actionQueue = h.m_actionQueue := by
  cases hStart with
  | init view options uninited inits =>
    cases options <;> cases inits <;> rfl
  | _ => rfl

/-- Whether the host is closed matters to loads only. -/
theorem Starts.closes {reason : UnloadReason} {id : ℕ} (hStart : Starts h (.unloadInstance reason id) t)
    (closing : ℕ) : Starts (h.closes closing) (.unloadInstance reason id) (t.closes closing) := by
  cases hStart with
  | unload _ _ newest => exact .unload reason id newest
  | oldUnload _ _ old => exact .oldUnload reason id old

inductive Label (Options ViewOptions : Type u) where
  | call (event : Event Options ViewOptions)
  | start (action : Action Options ViewOptions) (actions : List (Action Options ViewOptions))

inductive Moves (h : Host Options ViewOptions) :
    Label Options ViewOptions → Host Options ViewOptions → Prop where
  | post (event : Event Options ViewOptions) (posts : event.posts = true) :
      Moves h (.call event) (h.posted event)
  | start (action : Action Options ViewOptions) (actions : List (Action Options ViewOptions))
      {next : Host Options ViewOptions} (ready : h.Ready)
      (first : h.m_actionQueue.m_actions = action :: actions)
      (starts : Starts (h.started action actions) action next) : Moves h (.start action actions) next
  | rest (completed : h.stage = .completed) (empty : h.m_actionQueue.m_actions = []) :
      Moves h (.call .startNext) h.rested
  | attach (view : ℕ) (detached : (h.views view).m_viewInstance = false)
      {next : Host Options ViewOptions} {result : Option ActionResult}
      (inits : Inits (h.attaches view) view next result) :
      Moves h (.call (.attachViewInstance view)) next
  | detach (view : ℕ) (attached : (h.views view).m_viewInstance = true) :
      Moves h (.call (.detachViewInstance view)) (h.detaches view)
  | uninited (view : ℕ) (views skipped : List ℕ) (unloading : h.stage = .unloading views skipped)
      (waits : view ∈ views) :
      Moves h (.call (.uninited view))
        { h.setView view (h.views view).uninited with stage := .unloading (views.erase view) skipped }
  | destroy (skipped : List ℕ) (instance_ : ℕ) (unloading : h.stage = .unloading [] skipped)
      (loaded : h.m_reactInstance = some instance_) :
      Moves h (.call .allUninited) (h.destroys instance_)
  | unloaded (skipped : List ℕ) (unloading : h.stage = .unloading [] skipped)
      (none_ : h.m_reactInstance = none) : Moves h (.call .allUninited) h.unloads
  | destroyed (instance_ : ℕ) (destroying : h.stage = .destroying instance_) :
      Moves h (.call .destroyed) ({ h with gone := h.gone ++ [instance_] }.completes .succeeded)
  | loaded (loading : h.stage = .loading) :
      Moves h (.call (.loaded true)) { h with stage := .updating }
  | failed (loading : h.stage = .loading) : Moves h (.call (.loaded false)) (h.completes .failed)
  | updated (succeeded : Bool) (updating : h.stage = .updating) :
      Moves h (.call (.updated succeeded)) (h.completes (.of succeeded))
  | inited (succeeded : Bool) (view : ℕ) (initing : h.stage = .initing view) :
      Moves h (.call (.inited succeeded)) (h.completes (.of succeeded))
  | viewUninited (succeeded : Bool) (view : ℕ) (uniniting : h.stage = .uniniting view) :
      Moves h (.call (.viewUninited succeeded))
        ((h.setView view (h.views view).uninited).completes (.of succeeded))
  | complete (result : ActionResult) (completing : h.stage = .completing result) :
      Moves h (.call .completeAction)
        { h with stage := .completed, closed := h.closed ++ h.closingResult result }

namespace Host

/-- While the queue rests, there is nothing in it. -/
structure Serial (h : Host Options ViewOptions) : Prop where
  empty : h.m_actionQueue.m_isInvoking = false → h.m_actionQueue.m_actions = []
  current_eq : h.m_actionQueue.m_isInvoking = false → h.current = none
  idle_iff : h.stage = .idle ↔ h.m_actionQueue.m_isInvoking = false

inductive StepMoves (h : Host Options ViewOptions) (event : Event Options ViewOptions) :
    Host Options ViewOptions → Prop where
  | call {next : Host Options ViewOptions}
      (invoking : event.posts = true → h.m_actionQueue.m_isInvoking = true)
      (move : Moves h (.call event) next) : StepMoves h event next
  | next {action : Action Options ViewOptions} {actions : List (Action Options ViewOptions)}
      {next : Host Options ViewOptions} (startNext : event = .startNext)
      (move : Moves h (.start action actions) next) : StepMoves h event next
  | post {action : Action Options ViewOptions} {actions : List (Action Options ViewOptions)}
      {next : Host Options ViewOptions} (rests : h.m_actionQueue.m_isInvoking = false)
      (posts : event.posts = true) (call : Moves h (.call event) (h.posted event))
      (move : Moves (h.posted event) (.start action actions) next) : StepMoves h event next

theorem Serial.eq_rested (hSerial : h.Serial) (hRests : h.m_actionQueue.m_isInvoking = false) :
    h = { h with
      m_actionQueue := { m_actions := [], m_isInvoking := false }, current := none, stage := .idle } := by
  have hEmpty := hSerial.empty hRests
  have hCurrent := hSerial.current_eq hRests
  have hStage := hSerial.idle_iff.mpr hRests
  rcases h with ⟨options, ⟨actions, isInvoking⟩⟩
  simp only at hRests hEmpty hCurrent hStage
  rw [hRests, hEmpty, hCurrent, hStage]

theorem postAction_of_invoking (hInvoking : h.m_actionQueue.m_isInvoking = true)
    (action : Action Options ViewOptions) : h.postAction action = .ok (h.appended action) := by
  simp [postAction, AsyncActionQueue.postAction, hInvoking, invokeEntry, appended]

theorem postAction_of_rests (hQueue : h.m_actionQueue = .empty _) (action : Action Options ViewOptions) :
    h.postAction action =
      { h with m_actionQueue := { m_actions := [], m_isInvoking := true } }.invoke action := by
  simp [postAction, hQueue, AsyncActionQueue.empty, AsyncActionQueue.postAction,
    AsyncActionQueue.invokeAction, invokeEntry]

theorem started_stage (action : Action Options ViewOptions)
    (actions : List (Action Options ViewOptions)) (hIdle : h.stage = .idle) :
    h.started action actions =
      { h with
        m_actionQueue := { m_actions := actions, m_isInvoking := true }, current := some action } := by
  unfold started
  rw [hIdle]

variable {action : Action Options ViewOptions}

/-- An action that is posted to a queue at rest is started at once; what it does does not depend on what
is posted behind it. -/
theorem starts_of_postAction (hQueue : h.m_actionQueue = .empty _) (hIdle : h.stage = .idle)
    (hPost : h.postAction action = .ok t) :
    t.m_actionQueue = { m_actions := [], m_isInvoking := true } ∧
      ∀ actions, Starts (h.started action actions) action
        { t with m_actionQueue := { m_actions := actions, m_isInvoking := true } } := by
  rw [postAction_of_rests hQueue] at hPost
  have hStart := starts_of_invoke hPost
  constructor
  · exact hStart.actionQueue_eq
  · intro actions
    rw [started_stage action actions hIdle]
    exact hStart.withQueue { m_actions := actions, m_isInvoking := true }

theorem postActions_pair {first second : Action Options ViewOptions}
    (hQueue : h.m_actionQueue = .empty _) (hIdle : h.stage = .idle)
    (hPost : h.postActions [first, second] = .ok t) :
    Starts (h.started first [second]) first t := by
  unfold postActions at hPost
  split at hPost
  next next hFirst =>
    obtain ⟨hInvoking, hStarts⟩ := starts_of_postAction hQueue hIdle hFirst
    have hSecond := postAction_of_invoking (congrArg (·.m_isInvoking) hInvoking) second
    simp only [postActions, hSecond, Except.ok.injEq] at hPost
    subst hPost
    have hStart := hStarts [second]
    unfold appended
    rw [hInvoking]
    exact hStart
  next => cases hPost

theorem starts_of_postAction_rests (hQueue : h.m_actionQueue = .empty _) (hIdle : h.stage = .idle)
    (hPost : h.postAction action = .ok t) : Starts (h.started action []) action t := by
  obtain ⟨hInvoking, hStarts⟩ := starts_of_postAction hQueue hIdle hPost
  have hStart := hStarts []
  rw [← hInvoking] at hStart
  exact hStart

variable {event : Event Options ViewOptions}

theorem step_post_of_rests (hSerial : h.Serial) (hRests : h.m_actionQueue.m_isInvoking = false)
    (hPosts : event.posts = true) (hStep : h.step event = some (.ok t)) :
    ∃ action actions, Moves (h.posted event) (.start action actions) t := by
  have hActions := hSerial.empty hRests
  have hQueue : h.m_actionQueue = .empty _ := by
    rw [hSerial.eq_rested hRests]
    rfl
  have hIdle : h.stage = .idle := hSerial.idle_iff.mpr hRests
  cases event with
  | reloadInstance options =>
    have hPost := Option.some.inj hStep
    have hStart := postActions_pair (h := h.makeUnloadInstanceAction.1) hQueue hIdle hPost
    refine ⟨_, _, .start _ _ (Or.inl hIdle) ?_ hStart⟩
    simp [posted, postsUnload, makeUnloadInstanceAction, appended, hActions]
  | unloadInstance =>
    have hPost := Option.some.inj hStep
    have hStart := starts_of_postAction_rests (h := h.makeUnloadInstanceAction.1) hQueue hIdle hPost
    refine ⟨_, _, .start _ _ (Or.inl hIdle) ?_ hStart⟩
    simp [posted, postsUnload, makeUnloadInstanceAction, appended, hActions]
  | close =>
    have hPost := Option.some.inj hStep
    simp only [close] at hPost
    split at hPost
    next next hUnload =>
      have hStart := starts_of_postAction_rests (h := h.makeUnloadInstanceAction.1) hQueue hIdle hUnload
      obtain rfl := Except.ok.inj hPost
      refine ⟨_, _, .start _ _ (Or.inl hIdle) ?_ (hStart.closes _)⟩
      simp [posted, postsUnload, makeUnloadInstanceAction, appended, closes, hActions]
    next => cases hPost
  | reloadViewInstance view options =>
    have hPost := Option.some.inj hStep
    have hStart := postActions_pair (h := (h.makeUninitViewInstanceAction view).1) hQueue hIdle hPost
    refine ⟨_, _, .start _ _ (Or.inl hIdle) ?_ hStart⟩
    simp [posted, postsUninit, makeUninitViewInstanceAction, appended, setView, hActions]
  | unloadViewInstance view =>
    have hPost := Option.some.inj hStep
    have hStart := starts_of_postAction_rests (h := (h.makeUninitViewInstanceAction view).1) hQueue
      hIdle hPost
    refine ⟨_, _, .start _ _ (Or.inl hIdle) ?_ hStart⟩
    simp [posted, postsUninit, makeUninitViewInstanceAction, appended, setView, hActions]
  | _ => cases hPosts

/-- A call that finds an action in progress only appends its actions. -/
theorem step_post_of_invoking (hInvoking : h.m_actionQueue.m_isInvoking = true)
    (hPosts : event.posts = true) : h.step event = some (.ok (h.posted event)) := by
  have hUnload := postAction_of_invoking (h := h.makeUnloadInstanceAction.1) hInvoking
  have hUninit := fun view => postAction_of_invoking (h := (h.makeUninitViewInstanceAction view).1)
    hInvoking
  have hSecond (first action : Action Options ViewOptions) {next : Host Options ViewOptions}
      (hNext : next.m_actionQueue.m_isInvoking = true) :
      (next.appended first).postAction action = .ok ((next.appended first).appended action) :=
    postAction_of_invoking (h := next.appended first) hNext action
  cases event with
  | reloadInstance options =>
    have hNext : h.makeUnloadInstanceAction.1.m_actionQueue.m_isInvoking = true := hInvoking
    simp only [step, reloadInstance, postActions, hUnload, hSecond _ _ hNext]
    rfl
  | unloadInstance => exact congrArg some (hUnload _)
  | close =>
    simp only [step, close, hUnload]
    rfl
  | reloadViewInstance view options =>
    have hNext : (h.makeUninitViewInstanceAction view).1.m_actionQueue.m_isInvoking = true :=
      hInvoking
    simp only [step, reloadViewInstance, postActions, hUninit, hSecond _ _ hNext]
    rfl
  | unloadViewInstance view => exact congrArg some (hUninit view _)
  | _ => cases hPosts

theorem moves_startNext (hCompleted : h.stage = .completed) (hStep : h.startNext = .ok t) :
    Moves h (.call .startNext) t ∨ ∃ action actions, Moves h (.start action actions) t := by
  unfold startNext AsyncActionQueue.startNext at hStep
  cases hActions : h.m_actionQueue.m_actions with
  | nil =>
    simp only [hActions, invokeEntry, Except.ok.injEq] at hStep
    subst hStep
    exact Or.inl (.rest hCompleted hActions)
  | cons action actions =>
    simp only [hActions, invokeEntry] at hStep
    exact Or.inr ⟨action, actions, .start action actions (Or.inr hCompleted) hActions
      (starts_of_invoke hStep)⟩

theorem afterUnload_of_some {instance_ : ℕ} (hInstance : h.m_reactInstance = some instance_) :
    h.afterUnload h.reason = h.destroys instance_ := by
  simp only [afterUnload, hInstance]
  rfl

theorem afterUnload_of_none (hInstance : h.m_reactInstance = none) :
    h.afterUnload h.reason = h.unloads := by
  simp only [afterUnload, hInstance]
  rfl

theorem completeAction_eq (result : ActionResult) :
    h.completeAction result =
      { h with stage := .completed, closed := h.closed ++ h.closingResult result } := by
  unfold completeAction closingResult
  cases hCurrent : h.current with
  | none => simp
  | some action =>
    cases action with
    | unloadInstance reason id =>
      cases hClosing : h.whenClosed with
      | none => simp
      | some closing => by_cases hId : id = closing <;> simp [hId]
    | _ => simp

/-- What an event does. -/
theorem step_moves (hSerial : h.Serial) (hStep : h.step event = some (.ok t)) :
    StepMoves h event t := by
  by_cases hPosts : event.posts = true
  · cases hRests : h.m_actionQueue.m_isInvoking with
    | false =>
      obtain ⟨action, actions, hStart⟩ := step_post_of_rests hSerial hRests hPosts hStep
      exact .post hRests hPosts (.post event hPosts) hStart
    | true =>
      rw [step_post_of_invoking hRests hPosts] at hStep
      obtain rfl := Except.ok.inj (Option.some.inj hStep)
      exact .call (fun _ => hRests) (.post event hPosts)
  · have hNone (hPost : event.posts = true) : h.m_actionQueue.m_isInvoking = true :=
      absurd hPost hPosts
    cases event with
    | attachViewInstance view =>
      simp only [step, attachViewInstance, Option.some.injEq] at hStep
      split at hStep
      next => cases hStep
      next hDetached =>
        obtain rfl := Except.ok.inj hStep
        exact .call hNone (.attach view (Bool.eq_false_iff.mpr hDetached)
          (inits_initViewInstanceInQueue view))
    | detachViewInstance view =>
      simp only [step, detachViewInstance, Option.some.injEq] at hStep
      split at hStep
      next hAttached =>
        obtain rfl := Except.ok.inj hStep
        exact .call hNone (.detach view hAttached)
      next => cases hStep
    | uninited view =>
      simp only [step] at hStep
      split at hStep
      next views skipped hStage =>
        split at hStep
        next hView =>
          obtain rfl := Except.ok.inj (Option.some.inj hStep)
          exact .call hNone (.uninited view views skipped hStage hView)
        next => cases hStep
      next => cases hStep
    | allUninited =>
      simp only [step] at hStep
      split at hStep
      next skipped hStage =>
        obtain rfl := Except.ok.inj (Option.some.inj hStep)
        cases hInstance : h.m_reactInstance with
        | some instance_ =>
          rw [afterUnload_of_some hInstance]
          exact .call hNone (.destroy skipped instance_ hStage hInstance)
        | none =>
          rw [afterUnload_of_none hInstance]
          exact .call hNone (.unloaded skipped hStage hInstance)
      next => cases hStep
    | destroyed =>
      simp only [step] at hStep
      split at hStep
      next instance_ hStage =>
        obtain rfl := Except.ok.inj (Option.some.inj hStep)
        exact .call hNone (.destroyed instance_ hStage)
      next => cases hStep
    | loaded succeeded =>
      simp only [step] at hStep
      split at hStep
      next hStage =>
        obtain rfl := Except.ok.inj (Option.some.inj hStep)
        cases succeeded with
        | true => exact .call hNone (.loaded hStage)
        | false => exact .call hNone (.failed hStage)
      next => cases hStep
    | updated succeeded =>
      simp only [step] at hStep
      split at hStep
      next hStage =>
        obtain rfl := Except.ok.inj (Option.some.inj hStep)
        exact .call hNone (.updated succeeded hStage)
      next => cases hStep
    | inited succeeded =>
      simp only [step] at hStep
      split at hStep
      next view hStage =>
        obtain rfl := Except.ok.inj (Option.some.inj hStep)
        exact .call hNone (.inited succeeded view hStage)
      next => cases hStep
    | viewUninited succeeded =>
      simp only [step] at hStep
      split at hStep
      next view hStage =>
        obtain rfl := Except.ok.inj (Option.some.inj hStep)
        exact .call hNone (.viewUninited succeeded view hStage)
      next => cases hStep
    | completeAction =>
      simp only [step] at hStep
      split at hStep
      next result hStage =>
        rw [completeAction_eq] at hStep
        obtain rfl := Except.ok.inj (Option.some.inj hStep)
        exact .call hNone (.complete result hStage)
      next => cases hStep
    | startNext =>
      simp only [step] at hStep
      split at hStep
      next hStage =>
        rcases moves_startNext hStage (Option.some.inj hStep) with hRest | ⟨action, actions, hStart⟩
        · exact .call hNone hRest
        · exact .next rfl hStart
      next => cases hStep
    | _ => exact absurd rfl hPosts

end Host
end ReactHost
