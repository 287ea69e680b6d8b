import ReactNativeWindows.ReactHost.AttachedViews
import ReactNativeWindows.ReactHost.InstanceLifeTime

/-! The calls of view instances: when a view may be inited, and when the check of its init fails. -/
namespace ReactHost

universe u

variable {Options ViewOptions : Type u} {h t : Host Options ViewOptions}
  {options : ReactOptions Options} {viewOptions : ViewOptions}
  {ok : Host Options ViewOptions → Event Options ViewOptions → Prop}

/-- Two calls in a row: `InitRootView` comes only behind `UninitRootView`. -/
def RootViewCall.follows (before : RootViewCall) : RootViewCall → Prop
  | .initRootView _ => before = .uninitRootView
  | .uninitRootView => True

namespace ViewHost

/-- Between two calls of `InitRootView` is one of `UninitRootView`, and while a view is uninited the last
call was not `InitRootView`. -/
structure Balanced (v : ViewHost ViewOptions) : Prop where
  alternate : v.calls.IsChain RootViewCall.follows
  last : v.m_isViewInstanceInited = false → ∀ call ∈ v.calls.getLast?, call = .uninitRootView

variable {v w : ViewHost ViewOptions}

theorem Balanced.initRootView (hBalanced : v.Balanced) (hUninited : v.m_isViewInstanceInited = false)
    (instance_ : ℕ) : (v.initRootView instance_).Balanced where
  alternate := by
    apply List.isChain_append.mpr
    refine ⟨hBalanced.alternate, List.isChain_singleton _, ?_⟩
    intro before hBefore first hFirst
    obtain rfl := Option.some.inj hFirst
    exact hBalanced.last hUninited before hBefore
  last hInited := absurd hInited Bool.noConfusion

theorem Balanced.uninitRootView (hBalanced : v.Balanced) : v.uninitRootView.Balanced where
  alternate := by
    apply List.isChain_append.mpr
    refine ⟨hBalanced.alternate, List.isChain_singleton _, ?_⟩
    intro before _ first hFirst
    obtain rfl := Option.some.inj hFirst
    exact True.intro
  last _ call hCall := by
    change call ∈ (v.calls ++ [RootViewCall.uninitRootView]).getLast? at hCall
    rw [List.getLast?_concat] at hCall
    exact (Option.some.inj hCall).symm

theorem Balanced.of_same (hBalanced : v.Balanced) (hCalls : w.calls = v.calls)
    (hInited : w.m_isViewInstanceInited = v.m_isViewInstanceInited) : w.Balanced where
  alternate := hCalls ▸ hBalanced.alternate
  last hUninited := by
    rw [hCalls]
    exact hBalanced.last (hInited.symm.trans hUninited)

end ViewHost

namespace Host

def Balanced (h : Host Options ViewOptions) : Prop := ∀ view, (h.views view).Balanced

theorem Balanced.setView (hBalanced : h.Balanced) {view : ℕ} {v : ViewHost ViewOptions}
    (hView : v.Balanced) : (h.setView view v).Balanced := by
  intro other
  by_cases hOther : other = view
  · subst hOther
    rw [setView_views_self]
    exact hView
  · rw [setView_views_of_ne hOther]
    exact hBalanced other

end Host

theorem Inits.balanced (hBalanced : h.Balanced) {view : ℕ} {result : Option ActionResult}
    (hInit : Inits h view t result) : t.Balanced := by
  cases hInit with
  | already | canceled => exact hBalanced
  | init instance_ uninited => exact hBalanced.setView ((hBalanced view).initRootView uninited instance_)

namespace Host

theorem Balanced.withViewOptions (hBalanced : h.Balanced) (view : ℕ) (options : Option ViewOptions) :
    (h.withViewOptions view options).Balanced := by
  cases options with
  | none => exact hBalanced
  | some options => exact hBalanced.setView ((hBalanced view).of_same rfl rfl)

theorem Balanced.starts (hBalanced : h.Balanced) {action : Action Options ViewOptions}
    (hStart : Starts h action t) : t.Balanced := by
  cases hStart with
  | unload =>
    intro view
    unfold beginsUnload
    dsimp only
    split
    · exact (hBalanced view).uninitRootView
    · exact hBalanced view
  | load options opened current uninited =>
    intro view
    unfold loads
    dsimp only
    split
    next hCan => exact (hBalanced view).initRootView (uninited view hCan.1) _
    next => exact hBalanced view
  | canceledUninit view => exact hBalanced.setView ((hBalanced view).of_same rfl rfl)
  | uninit view =>
    have hClears : (h.clearsUninit view).Balanced :=
      hBalanced.setView ((hBalanced view).of_same rfl rfl)
    exact hClears.setView (hClears view).uninitRootView
  | @init view options uninited next result inits =>
    have hNext := inits.balanced (hBalanced.withViewOptions view options)
    cases result <;> exact hNext
  | _ => exact hBalanced

/-- No view is inited twice. -/
theorem Balanced.moves {label : Label Options ViewOptions} (hMove : Moves h label t)
    (hBalanced : h.Balanced) : t.Balanced := by
  cases hMove with
  | post event =>
    intro view
    exact (hBalanced view).of_same (posted_view event view).2.2.2 (posted_view event view).2.1
  | start action actions ready first starts =>
    have hStarted : (h.started action actions).Balanced := hBalanced
    exact hStarted.starts starts
  | attach view detached inits =>
    have hAttach : (h.attaches view).Balanced :=
      hBalanced.setView ((hBalanced view).of_same rfl rfl)
    exact inits.balanced hAttach
  | detach view =>
    have hUninit := (hBalanced view).uninitRootView
    have hDetach : (h.setView view
        { (h.views view).uninitRootView with m_viewInstance := false }).Balanced :=
      hBalanced.setView (hUninit.of_same rfl rfl)
    exact hDetach
  | uninited view | viewUninited _ view =>
    have hUninited : (h.setView view (h.views view).uninited).Balanced :=
      hBalanced.setView ((hBalanced view).of_same (by simp) (by simp))
    exact hUninited
  | _ => exact hBalanced

theorem balanced_initial (options : ReactOptions Options) (viewOptions : ViewOptions) :
    (initial options viewOptions).Balanced :=
  fun _ => ⟨.nil, fun _ _ hCall => nomatch hCall⟩

end Host

theorem Runs.balanced (run : Runs ok (.initial options viewOptions) h) : h.Balanced :=
  (run.invariant (Host.balanced_initial options viewOptions)
    fun _ hMove _ hBalanced => hBalanced.moves hMove).2

namespace Host

/-- The next action may be started: an unload that is not canceled leaves no attached view inited when a
load comes behind it, and an inited view is uninited when an init with new options comes behind. -/
def startsOrderly (h : Host Options ViewOptions) : Bool :=
  match h.m_actionQueue.m_actions with
  | .unloadInstance _ id :: .loadInstance _ :: _ =>
    id ≠ h.m_pendingUnloadActionId || h.m_viewHosts.all fun view =>
      !(h.views view).m_isViewInstanceInited || (h.views view).m_pendingUninitActionId = 0
  | .uninitViewInstance view id :: .initViewInstance _ (some _) :: _ =>
    !(h.views view).m_isViewInstanceInited ||
      (id = (h.views view).m_pendingUninitActionId && h.m_pendingUnloadActionId = 0)
  | _ => true

/-- An attached view is inited at once: no init of it with new options may be next. -/
def attachesOrderly (h : Host Options ViewOptions) (view : ℕ) : Bool :=
  match h.m_actionQueue.m_actions with
  | .initViewInstance inited (some _) :: _ => inited ≠ view
  | _ => true

def orderly (h : Host Options ViewOptions) : Event Options ViewOptions → Bool
  | .startNext => h.startsOrderly
  | .attachViewInstance view => h.attachesOrderly view
  | _ => true

structure Uninited (h : Host Options ViewOptions) : Prop where
  load : ∀ options actions, h.m_actionQueue.m_actions = .loadInstance options :: actions →
    h.m_pendingUnloadActionId ≠ 0 ∨
      ∀ view ∈ h.m_viewHosts, (h.views view).m_isViewInstanceInited = false
  init : ∀ view options actions,
    h.m_actionQueue.m_actions = .initViewInstance view (some options) :: actions →
    (h.views view).m_isViewInstanceInited = false

theorem posted_actions (event : Event Options ViewOptions) :
    ∃ suffix, (h.posted event).m_actionQueue.m_actions = h.m_actionQueue.m_actions ++ suffix ∧
      ∀ first ∈ suffix.head?, first.leads := by
  cases event with
  | reloadInstance | reloadViewInstance =>
    refine ⟨_, List.append_assoc .., ?_⟩
    rintro first ⟨⟩
    exact True.intro
  | unloadInstance | close | unloadViewInstance =>
    refine ⟨_, rfl, ?_⟩
    rintro first ⟨⟩
    exact True.intro
  | _ => exact ⟨[], (List.append_nil _).symm, fun _ hFirst => nomatch hFirst⟩

variable {action : Action Options ViewOptions} {actions : List (Action Options ViewOptions)}

/-- A posted action that does not lead is not the next one. -/
theorem posted_head {event : Event Options ViewOptions} (hLeads : ¬action.leads)
    (hActions : (h.posted event).m_actionQueue.m_actions = action :: actions) :
    ∃ rest, h.m_actionQueue.m_actions = action :: rest := by
  obtain ⟨suffix, hPosted, hFirst⟩ := posted_actions (h := h) event
  rw [hPosted] at hActions
  cases hBefore : h.m_actionQueue.m_actions with
  | nil =>
    rw [hBefore, List.nil_append] at hActions
    rw [hActions] at hFirst
    exact absurd (hFirst action rfl) hLeads
  | cons head rest =>
    rw [hBefore, List.cons_append] at hActions
    obtain ⟨rfl, -⟩ := List.cons.inj hActions
    exact ⟨rest, rfl⟩

theorem Uninited.posted (hUninited : h.Uninited) (event : Event Options ViewOptions) :
    (h.posted event).Uninited where
  load options actions hActions := by
    obtain ⟨rest, hBefore⟩ := posted_head id hActions
    rcases hUninited.load options rest hBefore with hPending | hViews
    · exact Or.inl (posted_pending event hPending)
    · apply Or.inr
      intro view hView
      rw [posted_m_viewHosts] at hView
      exact (posted_view event view).2.1.trans (hViews view hView)
  init view options actions hActions := by
    obtain ⟨rest, hBefore⟩ := posted_head id hActions
    exact (posted_view event view).2.1.trans (hUninited.init view options rest hBefore)

theorem Uninited.of_same (hUninited : h.Uninited) (hQueue : t.m_actionQueue = h.m_actionQueue)
    (hPending : t.m_pendingUnloadActionId = h.m_pendingUnloadActionId)
    (hHosts : ∀ view ∈ t.m_viewHosts, view ∈ h.m_viewHosts)
    (hViews : ∀ view, (h.views view).m_isViewInstanceInited = false →
      (t.views view).m_isViewInstanceInited = false) : t.Uninited where
  load options actions hActions := by
    rw [hQueue] at hActions
    rw [hPending]
    rcases hUninited.load options actions hActions with hNewer | hBefore
    · exact Or.inl hNewer
    · exact Or.inr fun view hView => hViews view (hBefore view (hHosts view hView))
  init view options actions hActions := by
    rw [hQueue] at hActions
    exact hViews view (hUninited.init view options actions hActions)

theorem uninited_of_start (hAttached : h.Attached)
    (hActions : h.m_actionQueue.m_actions = action :: actions) (hOrderly : h.startsOrderly = true)
    (hQueued : h.Queued) (hStart : Starts (h.started action actions) action t) : t.Uninited := by
  have hNext := hStart.queued hQueued hActions
  have hCurrent := hStart.current_eq
  have hQueue := hStart.actionQueue_eq
  unfold startsOrderly at hOrderly
  constructor
  · intro options rest hLoad
    obtain ⟨reason, id, hUnload⟩ := hNext.before_load hLoad
    obtain rfl := Option.some.inj (hCurrent.symm.trans hUnload)
    have hRest : actions = .loadInstance options :: rest := by
      rw [hQueue] at hLoad
      exact hLoad
    cases hStart with
    | oldUnload _ _ old =>
      apply Or.inl
      have hTickets := hQueued.unloads
      unfold unloadIds at hTickets
      rw [hActions] at hTickets
      intro hZero
      cases hTickets.newest_eq_zero_iff.mp hZero
    | unload _ _ newest =>
      apply Or.inr
      intro view hView
      have hNewest : id = h.m_pendingUnloadActionId := newest
      have hMember : view ∈ h.m_viewHosts := hView
      rw [hActions, hRest] at hOrderly
      simp only [hNewest, ne_eq, not_true, decide_false, Bool.false_or, List.all_eq_true] at hOrderly
      have hUninited := hOrderly view hMember
      unfold beginsUnload
      dsimp only
      split
      next => rfl
      next hSkipped =>
        by_contra hInited
        have hInited : (h.views view).m_isViewInstanceInited = true := (Bool.not_eq_false _).mp hInited
        rw [hInited, Bool.not_true, Bool.false_or] at hUninited
        apply hSkipped
        unfold unloadsView
        rw [Bool.and_eq_true]
        exact ⟨decide_eq_true hMember, hUninited⟩
  · intro view options rest hInit
    obtain ⟨id, hUninit⟩ := hNext.before_init hInit
    obtain rfl := Option.some.inj (hCurrent.symm.trans hUninit)
    have hRest : actions = .initViewInstance view (some options) :: rest := by
      rw [hQueue] at hInit
      exact hInit
    rw [hActions, hRest] at hOrderly
    have hDone (hInited : (h.views view).m_isViewInstanceInited = true) :
        id = (h.views view).m_pendingUninitActionId ∧ h.m_pendingUnloadActionId = 0 := by
      simpa [hInited] using hOrderly
    cases hStart with
    | oldUninit _ _ old =>
      by_contra hInited
      exact old (hDone ((Bool.not_eq_false _).mp hInited)).1
    | canceledUninit _ _ newest skipped =>
      by_contra hInited
      have hBefore : (h.views view).m_isViewInstanceInited = true := by
        simpa [completes, clearsUninit, setView, started] using hInited
      rcases skipped with hPending | hDetached
      · exact hPending (hDone hBefore).2
      · exact absurd (hDetached.symm.trans (hAttached.inited view hBefore)) Bool.noConfusion
    | uninit => exact congrArg ViewHost.m_isViewInstanceInited (setView_views_self ..)

theorem uninited_of_attach {view : ℕ} (hAttached : h.Attached) (hOwns : h.Owns) (hQueued : h.Queued)
    (hUnloading : ∀ views skipped, h.stage = .unloading views skipped → h.m_isInstanceUnloading = true)
    (hOrderly : h.attachesOrderly view = true) (hDetached : (h.views view).m_viewInstance = false)
    {result : Option ActionResult} (hInit : Inits (h.attaches view) view t result)
    (hUninited : h.Uninited) : t.Uninited := by
  have hFalse : (h.views view).m_isViewInstanceInited = false := by
    by_contra hInited
    have hInstance := hAttached.inited view ((Bool.not_eq_false _).mp hInited)
    exact absurd (hDetached.symm.trans hInstance) Bool.noConfusion
  have hViews (other : ℕ) (hBefore : (h.views other).m_isViewInstanceInited = false) :
      ((h.attaches view).views other).m_isViewInstanceInited = false := by
    by_cases hOther : other = view
    · subst hOther
      exact (congrArg ViewHost.m_isViewInstanceInited (setView_views_self ..)).trans hBefore
    · have hSame : (h.attaches view).views other = h.views other := setView_views_of_ne hOther _
      rw [hSame]
      exact hBefore
  have hAttach : (h.attaches view).Uninited := by
    constructor
    · intro options actions hActions
      rcases hUninited.load options actions hActions with hNewer | hBefore
      · exact Or.inl hNewer
      · apply Or.inr
        intro other hMem
        rcases List.mem_append.mp hMem with hOld | hNew
        · exact hViews other (hBefore other hOld)
        · rw [List.mem_singleton.mp hNew]
          exact hViews view hFalse
    · intro other options actions hActions
      exact hViews other (hUninited.init other options actions hActions)
  cases hInit with
  | already | canceled => exact hAttach
  | init instance_ uninited loaded can =>
    simp only [canInit, Bool.and_eq_true, Bool.not_eq_true', decide_eq_true_eq] at can
    constructor
    · intro options actions hActions
      obtain ⟨reason, id, hCurrent⟩ := hQueued.before_load hActions
      rcases hOwns.unloaded reason id hCurrent with ⟨views, skipped, hStage⟩ | hNone | hNewer
      · have hBusy : (h.attaches view).m_isInstanceUnloading = true := hUnloading views skipped hStage
        exact absurd (can.1.2.symm.trans hBusy) Bool.noConfusion
      · have hSome : h.m_reactInstance = some instance_ := loaded
        rw [hNone] at hSome
        cases hSome
      · exact Or.inl hNewer
    · intro other options actions hActions
      have hOther : other ≠ view := by
        unfold attachesOrderly at hOrderly
        have hQueue : h.m_actionQueue.m_actions = .initViewInstance other (some options) :: actions :=
          hActions
        rw [hQueue] at hOrderly
        exact of_decide_eq_true hOrderly
      have hSame : ((h.attaches view).initsView view instance_).views other =
          (h.attaches view).views other := setView_views_of_ne hOther _
      rw [hSame]
      exact hAttach.init other options actions hActions

theorem Uninited.moves (hAttached : h.Attached) (hOwns : h.Owns) (hQueued : h.Queued)
    (hUnloading : ∀ views skipped, h.stage = .unloading views skipped → h.m_isInstanceUnloading = true)
    {label : Label Options ViewOptions} (hMove : Moves h label t)
    (hOrderly : ∀ event, label = .call event → h.orderly event = true)
    (hStarts : ∀ action actions, label = .start action actions → h.startsOrderly = true)
    (hUninited : h.Uninited) : t.Uninited := by
  cases hMove with
  | post event => exact hUninited.posted event
  | start action actions ready first starts =>
    exact uninited_of_start hAttached first (hStarts action actions rfl) hQueued starts
  | rest =>
    constructor
    · exact fun _ _ hActions => nomatch hActions
    · exact fun _ _ _ hActions => nomatch hActions
  | attach view detached inits =>
    exact uninited_of_attach hAttached hOwns hQueued hUnloading (hOrderly _ rfl) detached inits hUninited
  | detach view attached =>
    apply hUninited.of_same
    · rfl
    · rfl
    · exact fun other hMem => (List.mem_filter.mp hMem).1
    · intro other hBefore
      by_cases hOther : other = view
      · subst hOther
        exact congrArg ViewHost.m_isViewInstanceInited (setView_views_self ..)
      · have hViews : (h.detaches view).views other = h.views other := setView_views_of_ne hOther _
        rw [hViews]
        exact hBefore
  | uninited view | viewUninited _ view =>
    apply hUninited.of_same
    · rfl
    · rfl
    · exact fun _ => id
    · intro other hBefore
      by_cases hOther : other = view
      · subst hOther
        have hViews := setView_views_self (h := h) other (h.views other).uninited
        exact (congrArg ViewHost.m_isViewInstanceInited hViews).trans (by simpa using hBefore)
      · have hViews := setView_views_of_ne (h := h) hOther (h.views view).uninited
        exact (congrArg ViewHost.m_isViewInstanceInited hViews).trans hBefore
  | _ => exact ⟨hUninited.load, hUninited.init⟩

/-- A start at once is orderly: nothing else waits. -/
theorem posted_startsOrderly (hQueued : h.Queued) (hEmpty : h.m_actionQueue.m_actions = [])
    (event : Event Options ViewOptions) : (h.posted event).startsOrderly = true := by
  have hUninits (view : ℕ) : (h.views view).m_pendingUninitActionId = 0 := by
    apply (hQueued.uninits view).newest_eq_zero_iff.mpr
    rw [uninitIds, hEmpty]
    rfl
  have hUnloads : h.m_pendingUnloadActionId = 0 := by
    apply hQueued.unloads.newest_eq_zero_iff.mpr
    rw [unloadIds, hEmpty]
    rfl
  cases event with
  | reloadInstance options =>
    simp [posted, postsUnload, makeUnloadInstanceAction, appended, hEmpty, startsOrderly, hUninits]
  | unloadInstance =>
    simp [posted, postsUnload, makeUnloadInstanceAction, appended, hEmpty, startsOrderly]
  | close =>
    simp [posted, postsUnload, makeUnloadInstanceAction, appended, closes, hEmpty, startsOrderly]
  | reloadViewInstance view options =>
    cases options <;>
      simp [posted, postsUninit, makeUninitViewInstanceAction, appended, setView, hEmpty,
        startsOrderly, hUnloads]
  | unloadViewInstance view =>
    simp [posted, postsUninit, makeUninitViewInstanceAction, appended, setView, hEmpty, startsOrderly]
  | _ => simp [posted, hEmpty, startsOrderly]

end Host

theorem Runs.uninited_views (run : Runs (fun s event => s.orderly event = true)
    (.initial options viewOptions) h) : h.Uninited := by
  induction run with
  | refl =>
    constructor
    · exact fun _ _ hActions => nomatch hActions
    · exact fun _ _ _ hActions => nomatch hActions
  | @step s next event prior allowed last ih =>
    have hAttached := prior.attached
    have hOwns := prior.owns
    have hQueued := prior.queued
    have hUnloading (views skipped : List ℕ) (hStage : s.stage = .unloading views skipped) :
        s.m_isInstanceUnloading = true := (prior.uninits hStage).unloading
    have hAllowed (called : Event Options ViewOptions)
        (hLabel : Label.call event = Label.call called) : s.orderly called = true := by
      obtain rfl := Label.call.inj hLabel
      exact allowed
    cases prior.stepMoves last with
    | call invoking move => exact ih.moves hAttached hOwns hQueued hUnloading move hAllowed nofun
    | next startNext move =>
      subst startNext
      exact ih.moves hAttached hOwns hQueued hUnloading move nofun fun _ _ _ => allowed
    | post rests posts call move =>
      have hOrderly := Host.posted_startsOrderly hQueued (prior.serial.empty rests) event
      have hIdle := (Host.posted_stage event).trans (prior.serial.idle_iff.mpr rests)
      apply (ih.posted event).moves (hAttached.moves call) (hOwns.moves hQueued call)
        (hQueued.posted event) _ move nofun fun _ _ _ => hOrderly
      intro views skipped hStage
      cases hIdle.symm.trans hStage

end ReactHost
