import ReactNativeWindows.ReactHost.ViewInit

/-! Runs of a host and its view hosts: when the check of a view's init fails. -/
namespace ReactHost

universe u

variable {Options ViewOptions : Type u} {h t : Host Options ViewOptions}
  {options : ReactOptions Options} {viewOptions : ViewOptions}

/-- The checks of inits that fail. -/
theorem crash_of_invoke {action : Action Options ViewOptions} {crash : Crash}
    (hInvoke : h.invoke action = .error crash) :
    (∃ options, action = .loadInstance options ∧ h.m_pendingUnloadActionId = 0 ∧
        ∃ view ∈ h.m_viewHosts, (h.views view).m_isViewInstanceInited = true) ∨
      ∃ view options, action = .initViewInstance view (some options) ∧
        (h.views view).m_isViewInstanceInited = true := by
  cases action with
  | unloadInstance reason id | uninitViewInstance view id => cases hInvoke
  | loadInstance options =>
    simp only [Host.invoke, Host.loadInQueue] at hInvoke
    split at hInvoke
    next => cases hInvoke
    next =>
      split at hInvoke
      next => cases hInvoke
      next hCurrent =>
        split at hInvoke
        next hInited =>
          obtain ⟨view, hView, hTrue⟩ := List.any_eq_true.mp hInited
          exact Or.inl ⟨options, rfl, not_not.mp hCurrent, view, hView, hTrue⟩
        next => cases hInvoke
  | initViewInstance view options =>
    cases options with
    | none => cases hInvoke
    | some options =>
      simp only [Host.invoke, Host.initViewInstanceWithOptions] at hInvoke
      split at hInvoke
      next => cases hInvoke
      next hInit =>
        split at hInit
        next hInited =>
          refine Or.inr ⟨view, options, rfl, ?_⟩
          simpa [Host.setView] using hInited
        next => cases hInit

namespace Host

theorem postAction_ok
    (hQueue : h.m_actionQueue.m_isInvoking = false → h.m_actionQueue.m_actions = [])
    (action : Action Options ViewOptions) (hLeads : action.leads) :
    ∃ next, h.postAction action = .ok next ∧ next.m_actionQueue.m_isInvoking = true := by
  cases hRests : h.m_actionQueue.m_isInvoking with
  | true => exact ⟨h.appended action, postAction_of_invoking hRests action, hRests⟩
  | false =>
    have hPost : h.postAction action = { h with
        m_actionQueue := h.m_actionQueue.invokeAction }.invoke action := by
      simp [postAction, AsyncActionQueue.postAction, hRests, hQueue hRests, invokeEntry]
    have hInvoke : ∃ next, { h with
        m_actionQueue := h.m_actionQueue.invokeAction }.invoke action = .ok next := by
      cases action with
      | unloadInstance reason id | uninitViewInstance view id => exact ⟨_, rfl⟩
      | loadInstance options | initViewInstance view options => exact absurd hLeads id
    obtain ⟨next, hNext⟩ := hInvoke
    refine ⟨next, hPost.trans hNext, ?_⟩
    rw [(starts_of_invoke hNext).actionQueue_eq]
    rfl

theorem postActions_ok
    (hQueue : h.m_actionQueue.m_isInvoking = false → h.m_actionQueue.m_actions = [])
    (first second : Action Options ViewOptions) (hLeads : first.leads) :
    ∃ next, h.postActions [first, second] = .ok next := by
  obtain ⟨next, hFirst, hInvoking⟩ := postAction_ok hQueue first hLeads
  have hSecond := postAction_of_invoking hInvoking second
  refine ⟨next.appended second, ?_⟩
  simp only [postActions, hFirst, hSecond]

variable {event : Event Options ViewOptions}

/-- Posting never ends in a crash: what is started at once is an unload. -/
theorem step_posts_ok (hSerial : h.Serial) (hPosts : event.posts = true) :
    ∃ next, h.step event = some (.ok next) := by
  have hUnload : h.makeUnloadInstanceAction.1.m_actionQueue.m_isInvoking = false →
      h.makeUnloadInstanceAction.1.m_actionQueue.m_actions = [] := hSerial.empty
  have hUninit (view : ℕ) : (h.makeUninitViewInstanceAction view).1.m_actionQueue.m_isInvoking = false →
      (h.makeUninitViewInstanceAction view).1.m_actionQueue.m_actions = [] := hSerial.empty
  cases event with
  | reloadInstance options =>
    obtain ⟨next, hNext⟩ := postActions_ok hUnload
      (.unloadInstance .unload (h.m_nextUnloadActionId + 1)) (.loadInstance options) True.intro
    exact ⟨next, congrArg some hNext⟩
  | unloadInstance =>
    obtain ⟨next, hNext, -⟩ := postAction_ok hUnload
      (.unloadInstance .unload (h.m_nextUnloadActionId + 1)) True.intro
    exact ⟨next, congrArg some hNext⟩
  | close =>
    obtain ⟨next, hNext, -⟩ := postAction_ok hUnload
      (.unloadInstance .closeHost (h.m_nextUnloadActionId + 1)) True.intro
    have hClose : h.close = .ok (next.closes (h.m_nextUnloadActionId + 1)) := by
      have hPair : h.makeUnloadInstanceAction =
          (h.makeUnloadInstanceAction.1, h.m_nextUnloadActionId + 1) := rfl
      rw [close, hPair]
      simp only [hNext]
      rfl
    exact ⟨_, congrArg some hClose⟩
  | reloadViewInstance view options =>
    obtain ⟨next, hNext⟩ := postActions_ok (hUninit view)
      (.uninitViewInstance view ((h.views view).m_nextUninitActionId + 1))
      (.initViewInstance view options) True.intro
    exact ⟨next, congrArg some hNext⟩
  | unloadViewInstance view =>
    obtain ⟨next, hNext, -⟩ := postAction_ok (hUninit view)
      (.uninitViewInstance view ((h.views view).m_nextUninitActionId + 1)) True.intro
    exact ⟨next, congrArg some hNext⟩
  | _ => cases hPosts

theorem crash_of_step (hSerial : h.Serial)
    (hCrash : h.step event = some (.error .viewInstanceInited)) :
    ∃ action actions, event = .startNext ∧ h.m_actionQueue.m_actions = action :: actions ∧
      (h.started action actions).invoke action = .error .viewInstanceInited := by
  by_cases hPosts : event.posts = true
  · obtain ⟨next, hNext⟩ := step_posts_ok hSerial hPosts
    rw [hNext] at hCrash
    cases hCrash
  · cases event with
    | startNext =>
      simp only [step] at hCrash
      split at hCrash
      next hCompleted =>
        cases hActions : h.m_actionQueue.m_actions with
        | nil =>
          simp [startNext, AsyncActionQueue.startNext, hActions, invokeEntry] at hCrash
        | cons action actions =>
          refine ⟨action, actions, rfl, rfl, ?_⟩
          simp only [startNext, AsyncActionQueue.startNext, hActions, invokeEntry,
            Option.some.injEq] at hCrash
          rw [← hCrash]
          cases action with
          | initViewInstance view options => cases options <;> rfl
          | _ => rfl
      next => cases hCrash
    | attachViewInstance view =>
      simp only [step, attachViewInstance, Option.some.injEq] at hCrash
      split at hCrash
      next => cases hCrash
      next => cases hCrash
    | detachViewInstance view =>
      simp only [step, detachViewInstance, Option.some.injEq] at hCrash
      split at hCrash
      next => cases hCrash
      next => cases hCrash
    | uninited view =>
      simp only [step] at hCrash
      split at hCrash
      next =>
        split at hCrash
        next => cases hCrash
        next => cases hCrash
      next => cases hCrash
    | allUninited | destroyed | loaded | updated | inited | viewUninited | completeAction =>
      simp only [step] at hCrash
      split at hCrash
      next => cases hCrash
      next => cases hCrash
    | _ => exact absurd rfl hPosts

end Host

/-- Where every start and every attachment is orderly, no view is found inited when it is to be inited with
an instance or with new options, and no view is inited twice without being uninited. -/
theorem views_inited_once (run : Runs (fun s event => s.orderly event = true)
    (.initial options viewOptions) h) :
    (∀ event, h.step event ≠ some (.error .viewInstanceInited)) ∧
      ∀ view, (h.views view).calls.IsChain RootViewCall.follows := by
  constructor
  · intro event hCrash
    obtain ⟨action, actions, -, hActions, hInvoke⟩ := Host.crash_of_step run.serial hCrash
    have hUninited := run.uninited_views
    rcases crash_of_invoke hInvoke with ⟨options, rfl, hCurrent, view, hView, hInited⟩ | hInit
    · rcases hUninited.load options actions hActions with hPending | hViews
      · exact hPending hCurrent
      · exact absurd ((hViews view hView).symm.trans hInited) Bool.noConfusion
    · obtain ⟨view, options, rfl, hInited⟩ := hInit
      exact absurd ((hUninited.init view options actions hActions).symm.trans hInited) Bool.noConfusion
  · exact fun view => (run.balanced view).alternate

/-- A view is reloaded with new options. -/
theorem view_inited_twice :
    ∃ h : Host Unit Unit,
      Runs (fun s event => s.orderly event = true) (.initial ⟨.Hermes, false, ()⟩ ()) h ∧
      (h.views 0).calls = [.initRootView 0, .uninitRootView, .initRootView 0] ∧
      h.step .startNext ≠ some (.error .viewInstanceInited) := by
  have hEvents : ∃ h, (Host.initial (⟨.Hermes, false, ()⟩ : ReactOptions Unit) ()).after
      (fun s event => s.orderly event) [.reloadInstance ⟨.Hermes, false, ()⟩, .allUninited,
        .completeAction, .startNext, .attachViewInstance 0, .loaded true, .updated true,
        .reloadViewInstance 0 (some ()), .completeAction, .startNext, .viewUninited true,
        .completeAction, .startNext, .inited true, .completeAction] = some h ∧
      (h.views 0).calls = [.initRootView 0, .uninitRootView, .initRootView 0] := ⟨_, rfl, rfl⟩
  obtain ⟨h, hAfter, hCalls⟩ := hEvents
  have run : Runs (fun s event => s.orderly event = true) _ h :=
    Runs.refl.after (fun _ _ hOk => hOk) hAfter
  exact ⟨h, run, hCalls, (views_inited_once run).1 .startNext⟩

/-- These events, for a view attached to a host whose instance was loaded, lead to an action that finds a
view inited. -/
def FindsInited (events : List (Event Unit Unit)) : Prop :=
  ∃ h : Host Unit Unit,
    Runs (fun _ _ => True) (.initial ⟨.Hermes, false, ()⟩ ()) h ∧
    (Host.initial (⟨.Hermes, false, ()⟩ : ReactOptions Unit) ()).after (fun _ _ => true)
      ([.reloadInstance ⟨.Hermes, false, ()⟩, .allUninited, .completeAction, .startNext,
        .attachViewInstance 0] ++ events) = some h ∧
    h.step .startNext = some (.error .viewInstanceInited)

theorem FindsInited.of_after {events : List (Event Unit Unit)} {h : Host Unit Unit}
    (hAfter : (Host.initial (⟨.Hermes, false, ()⟩ : ReactOptions Unit) ()).after (fun _ _ => true)
      ([.reloadInstance ⟨.Hermes, false, ()⟩, .allUninited, .completeAction, .startNext,
        .attachViewInstance 0] ++ events) = some h)
    (hStep : h.step .startNext = some (.error .viewInstanceInited)) : FindsInited events :=
  ⟨h, Runs.refl.after (fun _ _ _ => True.intro) hAfter, hAfter, hStep⟩

/-- The check fails: for an instance that is loaded behind an unload that skipped a view; for new options
behind an unload of the view that a newer one or an unload of the instance canceled; and for new options
of a view that was attached again in between. -/
theorem view_found_inited :
    FindsInited [.reloadInstance ⟨.Hermes, false, ()⟩, .reloadViewInstance 0 none, .loaded true,
      .updated true, .completeAction, .startNext, .allUninited, .destroyed, .completeAction] ∧
    FindsInited [.reloadViewInstance 0 (some ()), .reloadViewInstance 0 (some ()), .loaded true,
      .updated true, .completeAction, .startNext, .completeAction] ∧
    FindsInited [.reloadViewInstance 0 (some ()), .unloadInstance, .loaded true, .updated true,
      .completeAction, .startNext, .completeAction] ∧
    FindsInited [.reloadViewInstance 0 (some ()), .loaded true, .updated true, .completeAction,
      .startNext, .detachViewInstance 0, .attachViewInstance 0, .viewUninited true,
      .completeAction] := by
  refine ⟨?_, ?_, ?_, ?_⟩ <;> exact FindsInited.of_after rfl rfl

end ReactHost
