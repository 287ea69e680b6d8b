import ReactNativeWindows.ReactHost.AttachedViews
import ReactNativeWindows.ReactHost.InstanceLifeTime

/-! Runs of a host: its instances come one at a time, and the newest unload counts. -/
namespace ReactHost

universe u

variable {Options ViewOptions : Type u} {h t : Host Options ViewOptions}
  {options : ReactOptions Options} {viewOptions : ViewOptions}
  {ok : Host Options ViewOptions → Event Options ViewOptions → Prop}

namespace Host

/-- `Destroy` is called once the attached views are uninited and their futures have completed, but for
those whose own unload was pending when the instance began to unload. -/
structure DestroysAfterViews (h : Host Options ViewOptions) : Prop where
  destroy : ∀ event t i, h.step event = some (.ok t) → i ∈ t.destroyed → i ∉ h.destroyed →
    ∃ skipped, h.stage = .unloading [] skipped ∧ h.m_reactInstance = some i ∧
      ∀ view ∈ h.m_viewHosts, view ∉ skipped →
        (h.views view).m_isViewInstanceInited = false ∧ (h.views view).initedAgainst = none
  skip : ∀ event t views skipped, h.step event = some (.ok t) → t.stage = .unloading views skipped →
    (∃ before, h.stage = .unloading before skipped) ∨
      ∀ view, view ∈ skipped ↔ view ∈ t.m_viewHosts ∧ (t.views view).m_pendingUninitActionId ≠ 0

variable {action : Action Options ViewOptions}

theorem begins_skip (hStart : Starts h action t) {views skipped : List ℕ}
    (hStage : t.stage = .unloading views skipped) (view : ℕ) :
    view ∈ skipped ↔ view ∈ t.m_viewHosts ∧ (t.views view).m_pendingUninitActionId ≠ 0 := by
  cases hStart with
  | unload =>
    obtain ⟨rfl, rfl⟩ := Stage.unloading.inj hStage
    rw [(beginsUnload_views_ids view).1]
    have hHosts : h.beginsUnload.m_viewHosts = h.m_viewHosts := rfl
    rw [hHosts, List.mem_filter]
    apply and_congr_right
    intro hView
    simp [unloadsView, hView]
  | @init view options uninited next result inits =>
    cases result <;> exact absurd hStage Stage.noConfusion
  | _ => exact absurd hStage Stage.noConfusion

theorem call_skip {event : Event Options ViewOptions} (hMove : Moves h (.call event) t)
    {views skipped : List ℕ} (hStage : t.stage = .unloading views skipped) :
    ∃ before, h.stage = .unloading before skipped := by
  cases hMove with
  | post event => exact ⟨views, (posted_stage event).symm.trans hStage⟩
  | attach view detached inits => exact ⟨views, inits.actionQueue_eq.2.2.symm.trans hStage⟩
  | detach => exact ⟨views, hStage⟩
  | uninited view waiting skips unloading =>
    obtain ⟨rfl, rfl⟩ := Stage.unloading.inj hStage
    exact ⟨waiting, unloading⟩
  | _ => exact absurd hStage Stage.noConfusion

theorem destroysAfterViews (run : Runs ok (.initial options viewOptions) h) :
    h.DestroysAfterViews where
  destroy event t i hStep hAfter hBefore := by
    rcases step_instance run.serial run.queued (run.stepMoves hStep) with hSame | hDestroy | hLoad
    · rw [hSame.destroyed] at hAfter
      exact absurd hAfter hBefore
    · obtain ⟨j, skipped, hStage, hStored, -, -, hDestroyed⟩ := hDestroy
      rw [hDestroyed] at hAfter
      rcases List.mem_append.mp hAfter with hOld | hNew
      · exact absurd hOld hBefore
      · obtain rfl := List.mem_singleton.mp hNew
        have hUninits := run.uninits hStage
        refine ⟨skipped, hStage, hStored, ?_⟩
        intro view hView hSkipped
        exact ⟨hUninits.uninited view hView hSkipped,
          hUninits.left view hView hSkipped List.not_mem_nil⟩
    · obtain ⟨options, actions, -, -, -, -, -, rfl⟩ := hLoad
      exact absurd hAfter hBefore
  skip event t views skipped hStep hStage := by
    cases run.stepMoves hStep with
    | call invoking move => exact Or.inl (call_skip move hStage)
    | next startNext move | post rests posts call move =>
      cases move with
      | start _ _ ready first starts => exact Or.inr (begins_skip starts hStage)

/-- The pending id is that of an unload that has been posted and not started. -/
def PendingPosted (h : Host Options ViewOptions) : Prop :=
  h.m_pendingUnloadActionId ≠ 0 ↔
    ∃ reason, .unloadInstance reason h.m_pendingUnloadActionId ∈ h.m_actionQueue.m_actions

theorem unloadId_eq_some {id : ℕ} (hId : action.unloadId = some id) :
    ∃ reason, action = .unloadInstance reason id := by
  cases action with
  | unloadInstance reason found =>
    obtain rfl := Option.some.inj hId
    exact ⟨reason, rfl⟩
  | _ => cases hId

theorem Queued.pendingPosted (hQueued : h.Queued) : h.PendingPosted := by
  constructor
  · intro hPending
    have hIds : h.unloadIds ≠ [] := fun hNone =>
      hPending (hQueued.unloads.newest_eq_zero_iff.mpr hNone)
    obtain ⟨action, hAction, hId⟩ := List.mem_filterMap.mp (hQueued.unloads.newest_mem hIds)
    obtain ⟨reason, rfl⟩ := unloadId_eq_some hId
    exact ⟨reason, hAction⟩
  · rintro ⟨reason, hPosted⟩
    have hMem : h.m_pendingUnloadActionId ∈ h.unloadIds :=
      List.mem_filterMap.mpr ⟨_, hPosted, rfl⟩
    exact Nat.ne_of_gt (hQueued.unloads.bounds _ hMem).1

/-- An unload that starts unloads if none was posted behind it, and is canceled otherwise; the loads in
front of the last unload are canceled, and their options are kept while the host is open. -/
structure NewestUnloads (h : Host Options ViewOptions) : Prop where
  last : ∀ reason id actions, h.stage = .completed →
    h.m_actionQueue.m_actions = .unloadInstance reason id :: actions →
    (∀ later ∈ actions, later.unloadId = none) →
    h.step .startNext = some (.ok (h.started (.unloadInstance reason id) actions).beginsUnload)
  earlier : ∀ reason id actions, h.stage = .completed →
    h.m_actionQueue.m_actions = .unloadInstance reason id :: actions →
    (∃ later ∈ actions, later.unloadId ≠ none) →
    h.step .startNext =
      some (.ok ((h.started (.unloadInstance reason id) actions).completes .canceled))
  load : ∀ options actions, h.stage = .completed →
    h.m_actionQueue.m_actions = .loadInstance options :: actions →
    (∃ later ∈ actions, later.unloadId ≠ none) →
    h.step .startNext = some (.ok ({ h.started (.loadInstance options) actions with
      m_options := if h.isClosed then h.m_options else options }.completes .canceled))
  keep : ∀ event t, h.step event = some (.ok t) → t.m_options = h.m_options ∨
    ∃ options actions, event = .startNext ∧
      h.m_actionQueue.m_actions = .loadInstance options :: actions ∧ h.isClosed = false ∧
      t.m_options = options

theorem step_startNext (hCompleted : h.stage = .completed)
    {actions : List (Action Options ViewOptions)}
    (hActions : h.m_actionQueue.m_actions = action :: actions) :
    h.step .startNext = some ((h.started action actions).invoke action) := by
  simp only [step, hCompleted, startNext, AsyncActionQueue.startNext, hActions, invokeEntry]
  cases action with
  | initViewInstance view options => cases options <;> rfl
  | _ => rfl

theorem loadInQueue_of_pending (hPending : h.m_pendingUnloadActionId ≠ 0)
    (options : ReactOptions Options) :
    h.loadInQueue options = .ok ({ h with
      m_options := if h.isClosed then h.m_options else options }.completes .canceled) := by
  unfold loadInQueue
  cases hClosed : h.isClosed with
  | true => rfl
  | false => exact if_pos hPending

end Host

/-- Only a load of an open host sets the options. -/
theorem Starts.m_options_eq {action : Action Options ViewOptions} (hStart : Starts h action t) :
    t.m_options = h.m_options ∨
      ∃ options, action = .loadInstance options ∧ h.isClosed = false ∧ t.m_options = options := by
  cases hStart with
  | canceledLoad options opened | load options opened => exact Or.inr ⟨options, rfl, opened, rfl⟩
  | @init view options uninited next result inits =>
    cases options <;> cases inits <;> exact Or.inl rfl
  | _ => exact Or.inl rfl

theorem call_options {event : Event Options ViewOptions} (hMove : Moves h (.call event) t) :
    t.m_options = h.m_options := by
  cases hMove with
  | post event | attach view detached event => cases event <;> rfl
  | _ => rfl

namespace Host

theorem step_options (hSerial : h.Serial) (hQueued : h.Queued) {event : Event Options ViewOptions}
    (hStep : h.StepMoves event t) :
    t.m_options = h.m_options ∨ ∃ options actions, event = .startNext ∧
      h.m_actionQueue.m_actions = .loadInstance options :: actions ∧ h.isClosed = false ∧
      t.m_options = options := by
  cases hStep with
  | call invoking move => exact Or.inl (call_options move)
  | next startNext move =>
    cases move with
    | start _ _ ready first starts =>
      rcases starts.m_options_eq with hSame | ⟨options, rfl, opened, hOptions⟩
      · exact Or.inl hSame
      · exact Or.inr ⟨options, _, startNext, first, opened, hOptions⟩
  | post rests posts call move =>
    cases move with
    | start _ _ ready first starts =>
      rcases starts.m_options_eq with hSame | ⟨options, rfl, -⟩
      · have hCall : (h.posted event).m_options = h.m_options := call_options call
        exact Or.inl (hSame.trans hCall)
      · have hCurrent := (posted_current event).trans (hSerial.current_eq rests)
        obtain ⟨reason, id, hBefore⟩ := (hQueued.posted event).before_load first
        rw [hCurrent] at hBefore
        cases hBefore

theorem filterMap_ne_nil {actions : List (Action Options ViewOptions)}
    (hLater : ∃ later ∈ actions, later.unloadId ≠ none) : actions.filterMap Action.unloadId ≠ [] := by
  obtain ⟨later, hMem, hId⟩ := hLater
  obtain ⟨id, hSome⟩ := Option.ne_none_iff_exists'.mp hId
  exact List.ne_nil_of_mem (List.mem_filterMap.mpr ⟨later, hMem, hSome⟩)

theorem newestUnloads (run : Runs ok (.initial options viewOptions) h) : h.NewestUnloads where
  last reason id actions hCompleted hActions hLast := by
    have hTickets := run.queued.unloads
    unfold unloadIds at hTickets
    rw [hActions] at hTickets
    have hNone : actions.filterMap Action.unloadId = [] := List.filterMap_eq_nil_iff.mpr hLast
    have hNewest := hTickets.head_eq_newest_iff.mpr hNone
    rw [step_startNext hCompleted hActions]
    apply congrArg fun next => some (Except.ok next)
    exact if_neg (not_not.mpr hNewest)
  earlier reason id actions hCompleted hActions hLater := by
    have hTickets := run.queued.unloads
    unfold unloadIds at hTickets
    rw [hActions] at hTickets
    have hOld : id ≠ h.m_pendingUnloadActionId := fun hNewest =>
      filterMap_ne_nil hLater (hTickets.head_eq_newest_iff.mp hNewest)
    rw [step_startNext hCompleted hActions]
    apply congrArg fun next => some (Except.ok next)
    exact if_pos hOld
  load options actions hCompleted hActions hLater := by
    have hTickets := run.queued.unloads
    unfold unloadIds at hTickets
    rw [hActions] at hTickets
    have hPending : h.m_pendingUnloadActionId ≠ 0 := fun hZero =>
      filterMap_ne_nil hLater (hTickets.newest_eq_zero_iff.mp hZero)
    rw [step_startNext hCompleted hActions]
    have hStarted : (h.started (.loadInstance options) actions).m_pendingUnloadActionId ≠ 0 := hPending
    exact congrArg some (loadInQueue_of_pending hStarted options)
  keep event t hStep := step_options run.serial run.queued (run.stepMoves hStep)

/-- The next action may be started: an unload that is not canceled skips no inited view, and a load finds
the host open. -/
def startsWhole (h : Host Options ViewOptions) : Bool :=
  match h.m_actionQueue.m_actions with
  | .unloadInstance _ id :: _ =>
    id ≠ h.m_pendingUnloadActionId || h.m_viewHosts.all fun view =>
      !(h.views view).m_isViewInstanceInited || (h.views view).m_pendingUninitActionId = 0
  | .loadInstance _ :: _ => !h.isClosed
  | _ => true

def whole (h : Host Options ViewOptions) : Event Options ViewOptions → Bool
  | .startNext => h.startsWhole
  | _ => true

/-- `Destroy` is called once all attached views are uninited and their futures have completed, and a load
that is canceled keeps its options. -/
structure DestroysWhole (h : Host Options ViewOptions) : Prop where
  destroy : ∀ event t i, h.step event = some (.ok t) → i ∈ t.destroyed → i ∉ h.destroyed →
    ∀ view ∈ h.m_viewHosts,
      (h.views view).m_isViewInstanceInited = false ∧ (h.views view).initedAgainst = none
  load : ∀ options actions, h.startsWhole = true → h.stage = .completed →
    h.m_actionQueue.m_actions = .loadInstance options :: actions →
    (∃ later ∈ actions, later.unloadId ≠ none) →
    h.step .startNext = some (.ok ({ h.started (.loadInstance options) actions with
      m_options := options }.completes .canceled))

/-- An unload that is orderly waits for all attached views. -/
theorem uninits_all (hAttached : h.Attached) (hLeaves : h.LeavesViews) (hWhole : h.startsWhole = true)
    {actions : List (Action Options ViewOptions)} (hMove : Moves h (.start action actions) t)
    {views skipped : List ℕ} (hStage : t.stage = .unloading views skipped) : t.Uninits views [] := by
  cases hMove with
  | start _ _ ready first starts =>
    have hStarted : (h.started action actions).Attached := hAttached.of_eq rfl rfl
    cases starts with
    | unload reason id newest =>
      obtain ⟨rfl, rfl⟩ := Stage.unloading.inj hStage
      apply uninits_beginsUnload hStarted
      intro view hView _ hKept
      have hPending : (h.views view).m_pendingUninitActionId ≠ 0 := by
        intro hZero
        have hUnloads : (h.started (.unloadInstance reason id) actions).unloadsView view = true := by
          simp only [unloadsView, Bool.and_eq_true, decide_eq_true_eq]
          exact ⟨hView, hZero⟩
        exact absurd (hKept.symm.trans hUnloads) Bool.noConfusion
      have hUninited : (h.views view).m_isViewInstanceInited = false := by
        have hNewest : id = h.m_pendingUnloadActionId := newest
        have hView' : view ∈ h.m_viewHosts := hView
        simp only [startsWhole, first, hNewest] at hWhole
        simp only [ne_eq, not_true_eq_false, decide_false, Bool.false_or, List.all_eq_true] at hWhole
        have hSkips := hWhole view hView'
        simpa [hPending] using hSkips
      exact ⟨hUninited, hLeaves.left ready.not_awaits view hView hUninited⟩
    | @init view options uninited next result inits =>
      cases result <;> exact absurd hStage Stage.noConfusion
    | _ => exact absurd hStage Stage.noConfusion

/-- An action that is started at once finds no view with an unload of its own. -/
theorem posted_startsWhole (hQueued : h.Queued) (hEmpty : h.m_actionQueue.m_actions = [])
    (event : Event Options ViewOptions) : (h.posted event).startsWhole = true := by
  have hUninits (view : ℕ) : (h.views view).m_pendingUninitActionId = 0 := by
    apply (hQueued.uninits view).newest_eq_zero_iff.mpr
    rw [uninitIds, hEmpty]
    rfl
  cases event with
  | reloadInstance | unloadInstance =>
    simp [posted, postsUnload, makeUnloadInstanceAction, appended, hEmpty, startsWhole, hUninits]
  | close =>
    simp [posted, postsUnload, makeUnloadInstanceAction, appended, closes, hEmpty, startsWhole, hUninits]
  | reloadViewInstance | unloadViewInstance =>
    simp [posted, postsUninit, makeUninitViewInstanceAction, appended, setView, hEmpty, startsWhole]
  | _ => simp [posted, hEmpty, startsWhole]

end Host

theorem Runs.uninits_all (run : Runs (fun s event => s.whole event = true) (.initial options viewOptions) h) :
    ∀ views skipped, h.stage = .unloading views skipped → h.Uninits views [] := by
  induction run with
  | refl => exact fun _ _ hIdle => nomatch hIdle
  | @step s next event prior allowed last ih =>
    cases prior.stepMoves last with
    | call invoking move => exact Host.uninits_moves move prior.attached (fun _ => []) nofun ih
    | next startNext move =>
      subst startNext
      intro views skipped hStage
      exact Host.uninits_all prior.attached prior.leavesViews allowed move hStage
    | post rests posts call move =>
      intro views skipped hStage
      have hWhole := Host.posted_startsWhole prior.queued (prior.serial.empty rests) event
      exact Host.uninits_all (prior.attached.moves call) (prior.leavesViews.moves call) hWhole move hStage

namespace Host

theorem destroysWhole (run : Runs (fun s event => s.whole event = true) (.initial options viewOptions) h) :
    h.DestroysWhole where
  destroy event t i hStep hAfter hBefore view hView := by
    obtain ⟨skipped, hStage, -, -⟩ := (destroysAfterViews run).destroy event t i hStep hAfter hBefore
    have hUninits := run.uninits_all [] skipped hStage
    exact ⟨hUninits.uninited view hView List.not_mem_nil,
      hUninits.left view hView List.not_mem_nil List.not_mem_nil⟩
  load options actions hWhole hCompleted hActions hLater := by
    have hOpen : h.isClosed = false := by simpa [startsWhole, hActions] using hWhole
    have hStep := (newestUnloads run).load options actions hCompleted hActions hLater
    rwa [if_neg (Bool.eq_false_iff.mp hOpen)] at hStep

end Host

/-- In every run the instances of a host come one at a time, each is destroyed after its views, but for
those that have an unload of their own, and of the unloads that wait only the last one unloads. No view is
left out, and no options are lost, where every start finds no such view and an open host. -/
theorem one_instance_at_a_time (run : Runs (fun _ _ => True) (.initial options viewOptions) h) :
    h.OneInstance ∧ h.DestroysAfterViews ∧ h.PendingPosted ∧ h.NewestUnloads ∧
      (Runs (fun s event => s.whole event = true) (.initial options viewOptions) h → h.DestroysWhole) :=
  ⟨Host.oneInstance run, Host.destroysAfterViews run, run.queued.pendingPosted, Host.newestUnloads run,
    Host.destroysWhole⟩

/-- A view is inited by the first instance, uninited, and inited by the second. -/
theorem two_instances :
    ∃ h : Host Unit Unit,
      Runs (fun s event => s.whole event = true) (.initial ⟨.Hermes, false, ()⟩ ()) h ∧
      h.instances = 2 ∧ h.destroyed = [0] ∧ h.m_reactInstance = some 1 ∧
      (h.OneInstance ∧ h.DestroysAfterViews ∧ h.PendingPosted ∧ h.NewestUnloads ∧ h.DestroysWhole) := by
  have hEvents : ∃ h, (Host.initial (⟨.Hermes, false, ()⟩ : ReactOptions Unit) ()).after
      (fun s event => s.whole event) [.attachViewInstance 0, .reloadInstance ⟨.Hermes, false, ()⟩,
        .uninited 0, .allUninited, .completeAction, .startNext, .loaded true, .updated true,
        .reloadInstance ⟨.V8, false, ()⟩, .completeAction, .startNext, .uninited 0, .allUninited,
        .destroyed, .completeAction, .startNext] = some h ∧
      h.instances = 2 ∧ h.destroyed = [0] ∧ h.m_reactInstance = some 1 := ⟨_, rfl, rfl, rfl, rfl⟩
  obtain ⟨h, hAfter, hInstances, hDestroyed, hStored⟩ := hEvents
  have run : Runs (fun s event => s.whole event = true) _ h := Runs.refl.after (fun _ _ hOk => hOk) hAfter
  have hAll : Runs (fun _ _ => True) _ h := Runs.refl.after (fun _ _ _ => True.intro) hAfter
  obtain ⟨hOne, hViews, hPosted, hNewest, hWhole⟩ := one_instance_at_a_time hAll
  exact ⟨h, run, hInstances, hDestroyed, hStored, hOne, hViews, hPosted, hNewest, hWhole run⟩

/-- An unload of the instance skips a view whose own unload waits behind it: `Destroy` is called while the
view is inited by the instance. -/
theorem destroyed_before_view :
    ∃ h t : Host Unit Unit,
      Runs (fun _ _ => True) (.initial ⟨.Hermes, false, ()⟩ ()) h ∧
      h.step .allUninited = some (.ok t) ∧ h.destroyed = [] ∧ t.destroyed = [0] ∧
      0 ∈ h.m_viewHosts ∧ (h.views 0).initedAgainst = some 0 ∧
      (h.views 0).calls = [.initRootView 0] := by
  have hEvents : ∃ h t, (Host.initial (⟨.Hermes, false, ()⟩ : ReactOptions Unit) ()).after
      (fun _ _ => true) [.reloadInstance ⟨.Hermes, false, ()⟩, .allUninited, .completeAction,
        .startNext, .attachViewInstance 0, .reloadInstance ⟨.Hermes, false, ()⟩,
        .reloadViewInstance 0 none, .loaded true, .updated true, .completeAction, .startNext] =
        some h ∧
      h.step .allUninited = some (.ok t) ∧ h.destroyed = [] ∧ t.destroyed = [0] ∧
      h.m_viewHosts = [0] ∧ (h.views 0).initedAgainst = some 0 ∧
      (h.views 0).calls = [.initRootView 0] := ⟨_, _, rfl, rfl, rfl, rfl, rfl, rfl, rfl⟩
  obtain ⟨h, t, hAfter, hStep, hBefore, hDestroyed, hHosts, hAgainst, hCalls⟩ := hEvents
  have run : Runs (fun _ _ => True) _ h := Runs.refl.after (fun _ _ _ => True.intro) hAfter
  refine ⟨h, t, run, hStep, hBefore, hDestroyed, ?_, hAgainst, hCalls⟩
  rw [hHosts]
  exact List.mem_cons_self

end ReactHost
