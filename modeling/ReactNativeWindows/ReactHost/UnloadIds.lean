import ReactNativeWindows.Control.Tickets
import ReactNativeWindows.ReactHost.HostMoves

/-! The ids of unloads: the pending one is that of the last unload in the queue. -/
namespace ReactHost

open Control

universe u

variable {Options ViewOptions : Type u} {h t : Host Options ViewOptions}

def Action.unloadId : Action Options ViewOptions → Option ℕ
  | .unloadInstance _ id => some id
  | _ => none

def Action.uninitId (view : ℕ) : Action Options ViewOptions → Option ℕ
  | .uninitViewInstance unloaded id => if unloaded = view then some id else none
  | _ => none

/-- A load comes right behind an unload. -/
def Action.follows (before : Action Options ViewOptions) : Action Options ViewOptions → Prop
  | .loadInstance _ => ∃ reason id, before = .unloadInstance reason id
  | .initViewInstance view _ => ∃ id, before = .uninitViewInstance view id
  | _ => True

/-- Only an unload may come first. -/
def Action.leads : Action Options ViewOptions → Prop
  | .unloadInstance _ _ | .uninitViewInstance _ _ => True
  | _ => False

/-- What an action may wait for. -/
def Stage.fits : Stage → Action Options ViewOptions → Prop
  | .unloading _ _, .unloadInstance _ _ | .destroying _, .unloadInstance _ _ => True
  | .loading, .loadInstance _ | .updating, .loadInstance _ => True
  | .initing view, .initViewInstance inited _ => view = inited
  | .uniniting view, .uninitViewInstance uninited _ => view = uninited
  | .completing _, _ | .completed, _ => True
  | _, _ => False

namespace Host

def unloadIds (h : Host Options ViewOptions) : List ℕ :=
  h.m_actionQueue.m_actions.filterMap Action.unloadId

def uninitIds (h : Host Options ViewOptions) (view : ℕ) : List ℕ :=
  h.m_actionQueue.m_actions.filterMap (Action.uninitId view)

structure Queued (h : Host Options ViewOptions) : Prop where
  unloads : Tickets h.unloadIds h.m_pendingUnloadActionId h.m_nextUnloadActionId
  uninits : ∀ view, Tickets (h.uninitIds view) (h.views view).m_pendingUninitActionId
    (h.views view).m_nextUninitActionId
  fits : ∀ action, h.current = some action → h.stage.fits action
  paired : (h.current.toList ++ h.m_actionQueue.m_actions).IsChain Action.follows
  led : h.current = none → ∀ first ∈ h.m_actionQueue.m_actions.head?, first.leads

end Host

namespace ViewHost
variable (v : ViewHost ViewOptions)

@[simp] theorem initRootView_m_pendingUninitActionId (instance_ : ℕ) :
    (v.initRootView instance_).m_pendingUninitActionId = v.m_pendingUninitActionId := rfl

@[simp] theorem initRootView_m_nextUninitActionId (instance_ : ℕ) :
    (v.initRootView instance_).m_nextUninitActionId = v.m_nextUninitActionId := rfl

@[simp] theorem uninitRootView_m_pendingUninitActionId :
    v.uninitRootView.m_pendingUninitActionId = v.m_pendingUninitActionId := rfl

@[simp] theorem uninitRootView_m_nextUninitActionId :
    v.uninitRootView.m_nextUninitActionId = v.m_nextUninitActionId := rfl

@[simp] theorem uninited_m_pendingUninitActionId :
    v.uninited.m_pendingUninitActionId = v.m_pendingUninitActionId := by
  unfold uninited
  split <;> rfl

@[simp] theorem uninited_m_nextUninitActionId :
    v.uninited.m_nextUninitActionId = v.m_nextUninitActionId := by
  unfold uninited
  split <;> rfl

end ViewHost

namespace Host

structure SameIds (h t : Host Options ViewOptions) : Prop where
  unload : t.m_pendingUnloadActionId = h.m_pendingUnloadActionId
  nextUnload : t.m_nextUnloadActionId = h.m_nextUnloadActionId
  uninit : ∀ view, (t.views view).m_pendingUninitActionId = (h.views view).m_pendingUninitActionId
  nextUninit : ∀ view, (t.views view).m_nextUninitActionId = (h.views view).m_nextUninitActionId

theorem SameIds.refl : SameIds h h where
  unload := rfl
  nextUnload := rfl
  uninit _ := rfl
  nextUninit _ := rfl

theorem sameIds_setView {view : ℕ} {v : ViewHost ViewOptions}
    (hPending : v.m_pendingUninitActionId = (h.views view).m_pendingUninitActionId)
    (hNext : v.m_nextUninitActionId = (h.views view).m_nextUninitActionId) :
    SameIds h (h.setView view v) where
  unload := rfl
  nextUnload := rfl
  uninit other := by
    by_cases hOther : other = view
    · subst hOther
      simpa [setView] using hPending
    · simp [setView, hOther]
  nextUninit other := by
    by_cases hOther : other = view
    · subst hOther
      simpa [setView] using hNext
    · simp [setView, hOther]

theorem SameIds.trans {s : Host Options ViewOptions} (hFirst : SameIds h s) (hSecond : SameIds s t) :
    SameIds h t where
  unload := hSecond.unload.trans hFirst.unload
  nextUnload := hSecond.nextUnload.trans hFirst.nextUnload
  uninit view := (hSecond.uninit view).trans (hFirst.uninit view)
  nextUninit view := (hSecond.nextUninit view).trans (hFirst.nextUninit view)

theorem sameIds_withViewOptions (view : ℕ) (options : Option ViewOptions) :
    SameIds h (h.withViewOptions view options) := by
  cases options with
  | none => exact .refl
  | some options => exact sameIds_setView rfl rfl

theorem sameIds_waits (stage : Stage) (result : Option ActionResult) :
    SameIds h (h.waits stage result) := by
  cases result <;> exact ⟨rfl, rfl, fun _ => rfl, fun _ => rfl⟩

theorem sameIds_completes (result : ActionResult) : SameIds h (h.completes result) :=
  sameIds_waits .idle (some result)

end Host

variable {view : ℕ} {result : Option ActionResult}

theorem Inits.sameIds (hInit : Inits h view t result) : h.SameIds t := by
  cases hInit with
  | already | canceled => exact .refl
  | init => exact Host.sameIds_setView rfl rfl

theorem Host.loads_views_ids (options : ReactOptions Options) (view : ℕ) :
    ((h.loads options).views view).m_pendingUninitActionId = (h.views view).m_pendingUninitActionId ∧
      ((h.loads options).views view).m_nextUninitActionId = (h.views view).m_nextUninitActionId := by
  unfold Host.loads
  dsimp only
  split
  · exact ⟨rfl, rfl⟩
  · exact ⟨rfl, rfl⟩

theorem Host.beginsUnload_views_ids (view : ℕ) :
    (h.beginsUnload.views view).m_pendingUninitActionId = (h.views view).m_pendingUninitActionId ∧
      (h.beginsUnload.views view).m_nextUninitActionId = (h.views view).m_nextUninitActionId := by
  unfold Host.beginsUnload
  dsimp only
  split
  · exact ⟨rfl, rfl⟩
  · exact ⟨rfl, rfl⟩

theorem Starts.sameIds_of_load {options : ReactOptions Options}
    (hStart : Starts h (.loadInstance options) t) : h.SameIds t := by
  cases hStart with
  | closedLoad => exact Host.sameIds_completes _
  | canceledLoad => exact ⟨rfl, rfl, fun _ => rfl, fun _ => rfl⟩
  | load =>
    exact ⟨rfl, rfl, fun view => (Host.loads_views_ids options view).1,
      fun view => (Host.loads_views_ids options view).2⟩

theorem Starts.sameIds_of_init {options : Option ViewOptions}
    (hStart : Starts h (.initViewInstance view options) t) : h.SameIds t := by
  cases hStart with
  | init _ _ uninited inits =>
    have hInit := (Host.sameIds_withViewOptions view options).trans inits.sameIds
    exact hInit.trans (Host.sameIds_waits _ _)

variable {action : Action Options ViewOptions} {actions : List (Action Options ViewOptions)}

/-- The ids of the host's unloads when an action is started. -/
theorem Starts.unloads (hStart : Starts h action t)
    (hTickets : Tickets ((action :: actions).filterMap Action.unloadId) h.m_pendingUnloadActionId
      h.m_nextUnloadActionId) :
    Tickets (actions.filterMap Action.unloadId) t.m_pendingUnloadActionId t.m_nextUnloadActionId := by
  cases action with
  | unloadInstance reason id =>
    cases hStart with
    | unload _ _ newest => exact hTickets.taken newest
    | oldUnload _ _ old => exact hTickets.superseded old
  | loadInstance options =>
    have hSame := hStart.sameIds_of_load
    rw [hSame.unload, hSame.nextUnload]
    exact hTickets
  | uninitViewInstance view id => cases hStart <;> exact hTickets
  | initViewInstance view options =>
    have hSame := hStart.sameIds_of_init
    rw [hSame.unload, hSame.nextUnload]
    exact hTickets

/-- The ids of a view's unloads when an action is started. -/
theorem Starts.uninits (hStart : Starts h action t) (view : ℕ)
    (hTickets : Tickets ((action :: actions).filterMap (Action.uninitId view))
      (h.views view).m_pendingUninitActionId (h.views view).m_nextUninitActionId) :
    Tickets (actions.filterMap (Action.uninitId view)) (t.views view).m_pendingUninitActionId
      (t.views view).m_nextUninitActionId := by
  cases action with
  | unloadInstance reason id =>
    cases hStart with
    | unload =>
      rw [(Host.beginsUnload_views_ids view).1, (Host.beginsUnload_views_ids view).2]
      exact hTickets
    | oldUnload => exact hTickets
  | loadInstance options =>
    have hSame := hStart.sameIds_of_load
    rw [hSame.uninit, hSame.nextUninit]
    exact hTickets
  | uninitViewInstance unloaded id =>
    by_cases hView : view = unloaded
    · subst hView
      have hMine : (Action.uninitViewInstance view id : Action Options ViewOptions).uninitId view =
          some id := if_pos rfl
      rw [List.filterMap_cons_some hMine] at hTickets
      cases hStart with
      | oldUninit _ _ old => exact hTickets.superseded old
      | canceledUninit _ _ newest =>
        simpa [Host.completes, Host.clearsUninit, Host.setView] using hTickets.taken newest
      | uninit _ _ newest =>
        simpa [Host.clearsUninit, Host.setView] using hTickets.taken newest
    · have hOther : (Action.uninitViewInstance unloaded id : Action Options ViewOptions).uninitId view =
          none := if_neg (Ne.symm hView)
      rw [List.filterMap_cons_none hOther] at hTickets
      cases hStart with
      | oldUninit => exact hTickets
      | canceledUninit =>
        simpa [Host.completes, Host.clearsUninit, Host.setView, hView] using hTickets
      | uninit => simpa [Host.clearsUninit, Host.setView, hView] using hTickets
  | initViewInstance _ options =>
    have hSame := hStart.sameIds_of_init
    rw [hSame.uninit, hSame.nextUninit]
    exact hTickets

theorem Starts.current_eq (hStart : Starts h action t) : t.current = h.current := by
  cases hStart with
  | @init view options uninited next result inits =>
    cases options <;> cases inits <;> rfl
  | _ => rfl

theorem Starts.fits (hStart : Starts h action t) : t.stage.fits action := by
  cases hStart with
  | @init view options uninited next result inits =>
    cases result with
    | none => exact rfl
    | some result => exact True.intro
  | uninit => exact rfl
  | _ => exact True.intro

theorem Starts.stage_ne (hStart : Starts h action t) : t.stage ≠ .idle := by
  intro hIdle
  have hFits := hStart.fits
  rw [hIdle] at hFits
  cases action <;> exact hFits

/-- The start of an action keeps the ids. -/
theorem Starts.queued (hQueued : h.Queued)
    (hActions : h.m_actionQueue.m_actions = action :: actions)
    (hStart : Starts (h.started action actions) action t) : t.Queued where
  unloads := by
    have hTickets := hQueued.unloads
    unfold Host.unloadIds at hTickets ⊢
    rw [hActions] at hTickets
    rw [hStart.actionQueue_eq]
    exact hStart.unloads hTickets
  uninits view := by
    have hTickets := hQueued.uninits view
    unfold Host.uninitIds at hTickets ⊢
    rw [hActions] at hTickets
    rw [hStart.actionQueue_eq]
    exact hStart.uninits view hTickets
  fits started hStarted := by
    rw [hStart.current_eq] at hStarted
    obtain rfl := Option.some.inj hStarted
    exact hStart.fits
  paired := by
    have hPaired := hQueued.paired
    rw [hActions] at hPaired
    rw [hStart.current_eq, hStart.actionQueue_eq]
    exact hPaired.right_of_append
  led hNone := by
    rw [hStart.current_eq] at hNone
    cases hNone

namespace Host

variable {action : Action Options ViewOptions}

theorem paired_appended
    (hPaired : (h.current.toList ++ h.m_actionQueue.m_actions).IsChain Action.follows)
    (hLast : ∀ last ∈ (h.current.toList ++ h.m_actionQueue.m_actions).getLast?, last.follows action) :
    (h.current.toList ++ (h.m_actionQueue.m_actions ++ [action])).IsChain Action.follows := by
  rw [← List.append_assoc]
  apply List.isChain_append.mpr
  refine ⟨hPaired, List.isChain_singleton _, ?_⟩
  intro last hMem first hFirst
  obtain rfl := Option.some.inj hFirst
  exact hLast last hMem

theorem led_appended
    (hLed : h.current = none → ∀ first ∈ h.m_actionQueue.m_actions.head?, first.leads)
    (hFirst : h.current = none → h.m_actionQueue.m_actions = [] → action.leads)
    (hCurrent : h.current = none) :
    ∀ first ∈ (h.m_actionQueue.m_actions ++ [action]).head?, first.leads := by
  intro first hMem
  cases hActions : h.m_actionQueue.m_actions with
  | nil =>
    rw [hActions] at hMem
    obtain rfl := Option.some.inj hMem
    exact hFirst hCurrent hActions
  | cons head actions =>
    rw [hActions] at hMem
    apply hLed hCurrent
    rw [hActions]
    exact hMem

theorem Queued.appended (hQueued : h.Queued) (hUnload : action.unloadId = none)
    (hUninit : ∀ view, action.uninitId view = none) (hBusy : h.m_actionQueue.m_actions ≠ [])
    (hLast : ∀ last ∈ (h.current.toList ++ h.m_actionQueue.m_actions).getLast?, last.follows action) :
    (h.appended action).Queued where
  unloads := by
    have hIds : (h.appended action).unloadIds = h.unloadIds := by
      simp [unloadIds, Host.appended, List.filterMap_append, hUnload]
    rw [hIds]
    exact hQueued.unloads
  uninits view := by
    have hIds : (h.appended action).uninitIds view = h.uninitIds view := by
      simp [uninitIds, Host.appended, List.filterMap_append, hUninit]
    rw [hIds]
    exact hQueued.uninits view
  fits := hQueued.fits
  paired := paired_appended hQueued.paired hLast
  led := led_appended hQueued.led fun _ hEmpty => absurd hEmpty hBusy

theorem Queued.postsUnload (hQueued : h.Queued) (reason : UnloadReason) :
    (h.postsUnload reason).Queued where
  unloads := by
    have hIds : (h.postsUnload reason).unloadIds = h.unloadIds ++ [h.m_nextUnloadActionId + 1] := by
      simp [unloadIds, Host.postsUnload, makeUnloadInstanceAction, Host.appended,
        List.filterMap_append, Action.unloadId]
    rw [hIds]
    exact hQueued.unloads.issue
  uninits view := by
    have hIds : (h.postsUnload reason).uninitIds view = h.uninitIds view := by
      simp [uninitIds, Host.postsUnload, makeUnloadInstanceAction, Host.appended,
        List.filterMap_append, List.filterMap_cons, Action.uninitId]
    rw [hIds]
    exact hQueued.uninits view
  fits := hQueued.fits
  paired := paired_appended hQueued.paired fun _ _ => True.intro
  led := led_appended hQueued.led fun _ _ => True.intro

theorem Queued.postsUninit (hQueued : h.Queued) (view : ℕ) : (h.postsUninit view).Queued where
  unloads := by
    have hIds : (h.postsUninit view).unloadIds = h.unloadIds := by
      simp [unloadIds, Host.postsUninit, makeUninitViewInstanceAction, setView, Host.appended,
        List.filterMap_append, List.filterMap_cons, Action.unloadId]
    rw [hIds]
    exact hQueued.unloads
  uninits other := by
    by_cases hOther : other = view
    · subst hOther
      have hIds : (h.postsUninit other).uninitIds other =
          h.uninitIds other ++ [(h.views other).m_nextUninitActionId + 1] := by
        simp [uninitIds, Host.postsUninit, makeUninitViewInstanceAction, setView, Host.appended,
          List.filterMap_append, Action.uninitId]
      rw [hIds]
      simpa [Host.postsUninit, makeUninitViewInstanceAction, setView, Host.appended] using
        (hQueued.uninits other).issue
    · have hIds : (h.postsUninit view).uninitIds other = h.uninitIds other := by
        simp [uninitIds, Host.postsUninit, makeUninitViewInstanceAction, setView, Host.appended,
          List.filterMap_append, Action.uninitId, Ne.symm hOther]
      rw [hIds]
      simpa [Host.postsUninit, makeUninitViewInstanceAction, setView, Host.appended, hOther] using
        hQueued.uninits other
  fits := hQueued.fits
  paired := paired_appended hQueued.paired fun _ _ => True.intro
  led := led_appended hQueued.led fun _ _ => True.intro

theorem appended_ne_nil (action : Action Options ViewOptions) :
    (h.appended action).m_actionQueue.m_actions ≠ [] :=
  List.append_ne_nil_of_right_ne_nil _ (List.cons_ne_nil _ _)

theorem getLast?_appended (action : Action Options ViewOptions) :
    ((h.appended action).current.toList ++ (h.appended action).m_actionQueue.m_actions).getLast? =
      some action := by
  change (h.current.toList ++ (h.m_actionQueue.m_actions ++ [action])).getLast? = some action
  rw [← List.append_assoc, List.getLast?_concat]

/-- Calls of the host keep the ids. -/
theorem Queued.posted (hQueued : h.Queued) (event : Event Options ViewOptions) :
    (h.posted event).Queued := by
  cases event with
  | reloadInstance options =>
    apply (hQueued.postsUnload .unload).appended rfl (fun _ => rfl) (appended_ne_nil _)
    intro last hLast
    rw [Host.postsUnload, getLast?_appended] at hLast
    obtain rfl := Option.some.inj hLast
    exact ⟨_, _, rfl⟩
  | unloadInstance => exact hQueued.postsUnload .unload
  | close =>
    have hPost := hQueued.postsUnload .closeHost
    exact ⟨hPost.unloads, hPost.uninits, hPost.fits, hPost.paired, hPost.led⟩
  | reloadViewInstance view options =>
    apply (hQueued.postsUninit view).appended rfl (fun _ => rfl) (appended_ne_nil _)
    intro last hLast
    rw [Host.postsUninit, getLast?_appended] at hLast
    obtain rfl := Option.some.inj hLast
    exact ⟨_, rfl⟩
  | unloadViewInstance view => exact hQueued.postsUninit view
  | _ => exact hQueued

/-- Changes that leave the ids, the queue and the action in progress alone. -/
theorem Queued.of_sameIds (hQueued : h.Queued) (hSame : h.SameIds t)
    (hActions : t.m_actionQueue = h.m_actionQueue) (hCurrent : t.current = h.current)
    (hFits : ∀ action, h.current = some action → t.stage.fits action) : t.Queued where
  unloads := by
    rw [unloadIds, hActions, hSame.unload, hSame.nextUnload]
    exact hQueued.unloads
  uninits view := by
    rw [uninitIds, hActions, hSame.uninit, hSame.nextUninit]
    exact hQueued.uninits view
  fits action hAction := hFits action (hCurrent ▸ hAction)
  paired := by
    rw [hActions, hCurrent]
    exact hQueued.paired
  led := by
    rw [hActions, hCurrent]
    exact hQueued.led

end Host

theorem Inits.actionQueue_eq (hInit : Inits h view t result) :
    t.m_actionQueue = h.m_actionQueue ∧ t.current = h.current ∧ t.stage = h.stage := by
  cases hInit <;> exact ⟨rfl, rfl, rfl⟩

namespace Host

theorem SameIds.of_views (hSame : h.SameIds t) {s : Host Options ViewOptions}
    (hPending : s.m_pendingUnloadActionId = t.m_pendingUnloadActionId)
    (hNext : s.m_nextUnloadActionId = t.m_nextUnloadActionId) (hViews : s.views = t.views) :
    h.SameIds s where
  unload := hPending.trans hSame.unload
  nextUnload := hNext.trans hSame.nextUnload
  uninit view := hViews ▸ hSame.uninit view
  nextUninit view := hViews ▸ hSame.nextUninit view

theorem sameIds_uninited (view : ℕ) : h.SameIds (h.setView view (h.views view).uninited) :=
  sameIds_setView (by simp) (by simp)

/-- What one step keeps. -/
theorem Queued.moves (hQueued : h.Queued) {label : Label Options ViewOptions}
    (hMove : Moves h label t) : t.Queued := by
  have hSame : h.SameIds h := .refl
  cases hMove with
  | post event => exact hQueued.posted event
  | start action actions ready first starts => exact starts.queued hQueued first
  | rest completed empty =>
    refine ⟨?_, ?_, ?_, ?_, ?_⟩
    · have hTickets := hQueued.unloads
      rw [unloadIds, empty] at hTickets
      exact hTickets
    · intro view
      have hTickets := hQueued.uninits view
      rw [uninitIds, empty] at hTickets
      exact hTickets
    · intro action hAction
      cases hAction
    · exact .nil
    · intro _ first hFirst
      cases hFirst
  | attach view detached inits =>
    obtain ⟨hQueue, hCurrent, hStage⟩ := inits.actionQueue_eq
    apply hQueued.of_sameIds
    · have hSet : h.SameIds (h.setView view
          { h.views view with m_viewInstance := true, initedAgainst := none }) :=
        sameIds_setView rfl rfl
      have hAttach : h.SameIds (h.attaches view) := hSet.of_views rfl rfl rfl
      exact hAttach.trans inits.sameIds
    · exact hQueue
    · exact hCurrent
    · intro action hAction
      rw [hStage]
      exact hQueued.fits action hAction
  | detach view attached =>
    apply hQueued.of_sameIds
    · have hSet : h.SameIds (h.setView view
          { (h.views view).uninitRootView with m_viewInstance := false }) :=
        sameIds_setView rfl rfl
      exact hSet.of_views rfl rfl rfl
    · rfl
    · rfl
    · exact hQueued.fits
  | uninited view views skipped unloading waits =>
    apply hQueued.of_sameIds
    · exact (sameIds_uninited view).of_views rfl rfl rfl
    · rfl
    · rfl
    · intro action hAction
      have hFits := hQueued.fits action hAction
      rw [unloading] at hFits
      cases action <;> exact hFits
  | destroy skipped instance_ unloading loaded | loaded unloading =>
    apply hQueued.of_sameIds
    · exact hSame.of_views rfl rfl rfl
    · rfl
    · rfl
    · intro action hAction
      have hFits := hQueued.fits action hAction
      rw [unloading] at hFits
      cases action <;> exact hFits
  | viewUninited succeeded view uniniting =>
    apply hQueued.of_sameIds
    · exact (sameIds_uninited view).of_views rfl rfl rfl
    · rfl
    · rfl
    · exact fun _ _ => True.intro
  | _ =>
    apply hQueued.of_sameIds
    · exact hSame.of_views rfl rfl rfl
    · rfl
    · rfl
    · exact fun _ _ => True.intro

variable {event : Event Options ViewOptions}

theorem Queued.stepMoves (hQueued : h.Queued) (hStep : StepMoves h event t) : t.Queued := by
  cases hStep with
  | call invoking move | next startNext move => exact hQueued.moves move
  | post rests posts call move => exact (hQueued.posted event).moves move

theorem posted_m_isInvoking (event : Event Options ViewOptions) :
    (h.posted event).m_actionQueue.m_isInvoking = h.m_actionQueue.m_isInvoking := by
  cases event <;> rfl

theorem posted_stage (event : Event Options ViewOptions) : (h.posted event).stage = h.stage := by
  cases event <;> rfl

theorem Serial.of_same (hSerial : h.Serial) (hActions : t.m_actionQueue = h.m_actionQueue)
    (hCurrent : t.current = h.current) (hStage : t.stage = .idle ↔ h.stage = .idle) : t.Serial where
  empty := by
    rw [hActions]
    exact hSerial.empty
  current_eq := by
    rw [hActions, hCurrent]
    exact hSerial.current_eq
  idle_iff := by
    rw [hActions]
    exact hStage.trans hSerial.idle_iff

theorem serial_of_invoking (hInvoking : h.m_actionQueue.m_isInvoking = true)
    (hStage : h.stage ≠ .idle) : h.Serial where
  empty hRests := absurd (hInvoking.symm.trans hRests) Bool.noConfusion
  current_eq hRests := absurd (hInvoking.symm.trans hRests) Bool.noConfusion
  idle_iff := ⟨fun hIdle => absurd hIdle hStage,
    fun hRests => absurd (hInvoking.symm.trans hRests) Bool.noConfusion⟩

variable {actions : List (Action Options ViewOptions)}

theorem serial_of_start {action : Action Options ViewOptions}
    (hMove : Moves h (.start action actions) t) : t.Serial := by
  cases hMove with
  | start _ _ ready first starts =>
    apply serial_of_invoking
    · rw [starts.actionQueue_eq]
      rfl
    · exact starts.stage_ne

theorem Serial.stepMoves (hSerial : h.Serial) (hStep : StepMoves h event t) : t.Serial := by
  cases hStep with
  | next startNext move | post rests posts call move => exact serial_of_start move
  | call invoking move =>
    cases move with
    | post _ posts =>
      apply serial_of_invoking
      · rw [posted_m_isInvoking]
        exact invoking posts
      · rw [posted_stage]
        intro hIdle
        exact absurd ((invoking posts).symm.trans (hSerial.idle_iff.mp hIdle)) Bool.noConfusion
    | rest => exact ⟨fun _ => rfl, fun _ => rfl, ⟨fun _ => rfl, fun _ => rfl⟩⟩
    | attach view detached inits =>
      obtain ⟨hQueue, hCurrent, hStage⟩ := inits.actionQueue_eq
      apply hSerial.of_same hQueue hCurrent
      rw [hStage]
      exact Iff.rfl
    | detach view attached => exact hSerial.of_same rfl rfl Iff.rfl
    | uninited _ _ _ hStage | destroy _ _ hStage | unloaded _ hStage | destroyed _ hStage
    | loaded hStage | failed hStage | updated _ hStage | inited _ _ hStage | viewUninited _ _ hStage
    | complete _ hStage =>
      apply hSerial.of_same
      · rfl
      · rfl
      · rw [hStage]
        exact ⟨fun hIdle => Stage.noConfusion hIdle, fun hIdle => Stage.noConfusion hIdle⟩

theorem serial_initial (options : ReactOptions Options) (viewOptions : ViewOptions) :
    (initial options viewOptions).Serial where
  empty _ := rfl
  current_eq _ := rfl
  idle_iff := ⟨fun _ => rfl, fun _ => rfl⟩

theorem queued_initial (options : ReactOptions Options) (viewOptions : ViewOptions) :
    (initial options viewOptions).Queued where
  unloads := .empty
  uninits _ := .empty
  fits _ hAction := nomatch hAction
  paired := .nil
  led _ _ hFirst := nomatch hFirst

/-- An action that does not lead starts behind one that it may follow. -/
theorem Queued.before {action : Action Options ViewOptions} (hQueued : h.Queued)
    (hActions : h.m_actionQueue.m_actions = action :: actions) (hLeads : ¬action.leads) :
    ∃ before, h.current = some before ∧ before.follows action := by
  cases hCurrent : h.current with
  | none =>
    have hLed := hQueued.led hCurrent action
    rw [hActions] at hLed
    exact absurd (hLed rfl) hLeads
  | some before =>
    have hPaired := hQueued.paired
    rw [hCurrent, hActions] at hPaired
    exact ⟨before, rfl, (List.isChain_cons_cons.mp hPaired).1⟩

/-- Before a load starts, the unload that was posted with it was in progress. -/
theorem Queued.before_load (hQueued : h.Queued) {options : ReactOptions Options}
    (hActions : h.m_actionQueue.m_actions = .loadInstance options :: actions) :
    ∃ reason id, h.current = some (.unloadInstance reason id) := by
  obtain ⟨before, hCurrent, reason, id, rfl⟩ := hQueued.before hActions id
  exact ⟨reason, id, hCurrent⟩

theorem Queued.before_init (hQueued : h.Queued) {view : ℕ} {options : Option ViewOptions}
    (hActions : h.m_actionQueue.m_actions = .initViewInstance view options :: actions) :
    ∃ id, h.current = some (.uninitViewInstance view id) := by
  obtain ⟨before, hCurrent, id, rfl⟩ := hQueued.before hActions id
  exact ⟨id, hCurrent⟩

end Host

variable {options : ReactOptions Options} {viewOptions : ViewOptions}
  {ok : Host Options ViewOptions → Event Options ViewOptions → Prop}

theorem Runs.serial (run : Runs ok (.initial options viewOptions) h) : h.Serial := by
  induction run with
  | refl => exact Host.serial_initial options viewOptions
  | step event prior allowed last ih => exact ih.stepMoves (Host.step_moves ih last)

theorem Runs.stepMoves (run : Runs ok (.initial options viewOptions) h)
    {event : Event Options ViewOptions} (hStep : h.step event = some (.ok t)) :
    h.StepMoves event t :=
  Host.step_moves run.serial hStep

/-- What every step keeps that the run allows holds in the run. -/
theorem Runs.invariant {I : Host Options ViewOptions → Prop} (hInitial : I (.initial options viewOptions))
    (hMoves : ∀ {s next : Host Options ViewOptions} {label : Label Options ViewOptions},
      s.Queued → Moves s label next → (∀ event, label = .call event → ok s event) → I s → I next)
    (run : Runs ok (.initial options viewOptions) h) : h.Queued ∧ I h := by
  induction run with
  | refl => exact ⟨Host.queued_initial options viewOptions, hInitial⟩
  | step event prior allowed last ih =>
    obtain ⟨hQueued, hHolds⟩ := ih
    have hStep := prior.stepMoves last
    refine ⟨hQueued.stepMoves hStep, ?_⟩
    cases hStep with
    | call invoking move =>
      apply hMoves hQueued move _ hHolds
      rintro _ ⟨⟩
      exact allowed
    | next startNext move => exact hMoves hQueued move nofun hHolds
    | post rests posts call move =>
      apply hMoves (hQueued.posted event) move nofun
      apply hMoves hQueued call _ hHolds
      rintro _ ⟨⟩
      exact allowed

theorem Runs.queued (run : Runs ok (.initial options viewOptions) h) : h.Queued :=
  (run.invariant (I := fun _ => True) True.intro fun _ _ _ _ => True.intro).1

def Host.after (allowed : Host Options ViewOptions → Event Options ViewOptions → Bool)
    (h : Host Options ViewOptions) : List (Event Options ViewOptions) → Option (Host Options ViewOptions)
  | [] => some h
  | event :: events =>
    if allowed h event then
      match h.step event with
      | some (.ok next) => next.after allowed events
      | _ => none
    else none

theorem Runs.after {start : Host Options ViewOptions} (run : Runs ok start h)
    {allowed : Host Options ViewOptions → Event Options ViewOptions → Bool}
    (hAllowed : ∀ s event, allowed s event = true → ok s event)
    {events : List (Event Options ViewOptions)} (hAfter : h.after allowed events = some t) :
    Runs ok start t := by
  induction events generalizing h with
  | nil =>
    obtain rfl := Option.some.inj hAfter
    exact run
  | cons event events ih =>
    unfold Host.after at hAfter
    split at hAfter
    next hOk =>
      split at hAfter
      next next hStep => exact ih (.step event run (hAllowed h event hOk) hStep) hAfter
      next => cases hAfter
    next => cases hAfter

end ReactHost
