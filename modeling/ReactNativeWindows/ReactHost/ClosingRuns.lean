import ReactNativeWindows.Control.Inevitably
import ReactNativeWindows.ReactHost.Closing

/-! Runs in which a host is closed. -/
namespace ReactHost

open Control

universe u

variable {Options ViewOptions : Type u} {h t : Host Options ViewOptions}
  {options : ReactOptions Options} {viewOptions : ViewOptions}

/-- No unload of the instance is posted while the one that closes the host waits in the queue. -/
def Undisturbed (h : Host Options ViewOptions) (event : Event Options ViewOptions) : Prop :=
  event.postsUnload = true → h.closingWaits = false

theorem Runs.closing (run : Runs Undisturbed (.initial options viewOptions) h) :
    h.Owns ∧ h.Gone ∧ h.Closing := by
  have hInvariant := run.invariant (I := fun s => s.Owns ∧ s.Dated ∧ s.Gone ∧ s.Closing)
    ⟨Host.owns_initial options viewOptions, Host.dated_initial options viewOptions,
      Host.gone_initial options viewOptions, Host.closing_initial options viewOptions⟩
    (by
      intro s next label hQueued hMove hAllowed hHolds
      obtain ⟨hOwns, hDated, hGone, hClosing⟩ := hHolds
      refine ⟨hOwns.moves hQueued hMove, hDated.moves hQueued hMove, hGone.moves hMove, ?_⟩
      exact hClosing.moves hQueued hOwns hDated hGone hMove hAllowed)
  exact ⟨hInvariant.2.1, hInvariant.2.2.2.1, hInvariant.2.2.2.2⟩

/-- A call of the queue, of an instance or of a view instance; the others are calls of the host and its
view hosts. -/
def Event.completes : Event Options ViewOptions → Bool
  | .uninited _ | .allUninited | .destroyed | .loaded _ | .updated _ | .inited _ | .viewUninited _
  | .completeAction | .startNext => true
  | _ => false

variable {event : Event Options ViewOptions}

theorem posts_of_completes (hCompletes : event.completes = true) :
    event.posts = false ∧ event.postsUnload = false := by
  cases event with
  | reloadInstance | unloadInstance | close | reloadViewInstance | unloadViewInstance =>
    cases hCompletes
  | _ => exact ⟨rfl, rfl⟩

def Progresses (h t : Host Options ViewOptions) : Prop :=
  ∃ event, event.completes = true ∧ h.step event = some (.ok t)

def Stage.rank : Stage → ℕ
  | .idle => 0
  | .completed => 1
  | .completing _ => 2
  | .destroying _ | .updating | .initing _ | .uniniting _ => 3
  | .loading => 4
  | .unloading views _ => views.length + 4

namespace Host

def rank (h : Host Options ViewOptions) : ℕ :=
  h.m_actionQueue.m_actions.length * (h.m_viewHosts.length + 6) + h.stage.rank

end Host

variable {action : Action Options ViewOptions}

theorem Starts.rank_le (hStart : Starts h action t) :
    t.m_viewHosts = h.m_viewHosts ∧ t.stage.rank ≤ h.m_viewHosts.length + 4 := by
  cases hStart with
  | unload =>
    refine ⟨rfl, ?_⟩
    exact Nat.add_le_add_right (List.length_filter_le _ _) 4
  | @init view options uninited next result inits =>
    have hHosts : next.m_viewHosts = h.m_viewHosts := by cases options <;> cases inits <;> rfl
    cases result with
    | none | some result => exact ⟨hHosts, Nat.le_add_left_of_le (Nat.le_of_ble_eq_true rfl)⟩
  | _ => exact ⟨rfl, Nat.le_add_left_of_le (Nat.le_of_ble_eq_true rfl)⟩

/-- Every completion brings the host closer to rest. -/
theorem call_rank (hCompletes : event.completes = true) (hMove : Moves h (.call event) t) :
    t.rank < h.rank := by
  have hLess (hActions : t.m_actionQueue = h.m_actionQueue) (hHosts : t.m_viewHosts = h.m_viewHosts)
      (hStage : t.stage.rank < h.stage.rank) : t.rank < h.rank := by
    unfold Host.rank
    rw [hActions, hHosts]
    exact Nat.add_lt_add_left hStage _
  cases hMove with
  | post _ posts => exact absurd ((posts_of_completes hCompletes).1.symm.trans posts) Bool.noConfusion
  | rest completed empty =>
    simp [Host.rank, Host.rested, empty, completed, Stage.rank]
  | attach | detach => cases hCompletes
  | uninited view views skipped unloading waits =>
    apply hLess
    · rfl
    · rfl
    · rw [unloading]
      change (views.erase view).length + 4 < views.length + 4
      have hLength := List.length_erase_of_mem waits
      have hPositive := List.length_pos_of_mem waits
      omega
  | destroy _ _ hStage | unloaded _ hStage | destroyed _ hStage | loaded hStage | failed hStage
  | updated _ hStage | inited _ _ hStage | viewUninited _ _ hStage | complete _ hStage =>
    apply hLess
    · rfl
    · rfl
    · rw [hStage]
      exact Nat.le_of_ble_eq_true rfl

theorem start_rank {actions : List (Action Options ViewOptions)}
    (hMove : Moves h (.start action actions) t) : t.rank < h.rank := by
  cases hMove with
  | start _ _ ready first starts =>
    obtain ⟨hHosts, hStage⟩ := starts.rank_le
    have hHosts' : t.m_viewHosts.length = h.m_viewHosts.length := congrArg List.length hHosts
    unfold Host.rank
    rw [starts.actionQueue_eq, hHosts', first]
    change actions.length * (h.m_viewHosts.length + 6) + t.stage.rank <
      (actions.length + 1) * (h.m_viewHosts.length + 6) + h.stage.rank
    have hStage' : t.stage.rank ≤ h.m_viewHosts.length + 4 := hStage
    rw [Nat.add_mul]
    omega

theorem rank_lt (run : Runs Undisturbed (.initial options viewOptions) h) (hStep : Progresses h t) :
    Runs Undisturbed (.initial options viewOptions) t ∧ t.rank < h.rank := by
  obtain ⟨event, hCompletes, hStep⟩ := hStep
  constructor
  · apply Runs.step event run _ hStep
    intro hPosts
    exact absurd ((posts_of_completes hCompletes).2.symm.trans hPosts) Bool.noConfusion
  · cases run.stepMoves hStep with
    | call invoking move => exact call_rank hCompletes move
    | next startNext move => exact start_rank move
    | post rests posts =>
      exact absurd ((posts_of_completes hCompletes).1.symm.trans posts) Bool.noConfusion

/-- Until the host is at rest something is outstanding, and nothing but the start of an action crashes. -/
theorem exists_progress (hSerial : h.Serial) (hBusy : h.m_actionQueue.m_isInvoking = true) :
    (∃ t, Progresses h t) ∨ ∃ crash, h.step .startNext = some (.error crash) := by
  cases hStage : h.stage with
  | idle => exact absurd ((hSerial.idle_iff.mp hStage).symm.trans hBusy) Bool.noConfusion
  | unloading views skipped =>
    apply Or.inl
    cases views with
    | nil => exact ⟨_, .allUninited, rfl, by simp only [Host.step, hStage]; rfl⟩
    | cons view views =>
      have hStep : ∃ t, h.step (.uninited view) = some (.ok t) := by simp [Host.step, hStage]
      obtain ⟨t, hStep⟩ := hStep
      exact ⟨t, .uninited view, rfl, hStep⟩
  | destroying i => exact Or.inl ⟨_, .destroyed, rfl, by simp only [Host.step, hStage]; rfl⟩
  | loading => exact Or.inl ⟨_, .loaded false, rfl, by simp only [Host.step, hStage]; rfl⟩
  | updating => exact Or.inl ⟨_, .updated true, rfl, by simp only [Host.step, hStage]; rfl⟩
  | initing view => exact Or.inl ⟨_, .inited true, rfl, by simp only [Host.step, hStage]; rfl⟩
  | uniniting view => exact Or.inl ⟨_, .viewUninited true, rfl, by simp only [Host.step, hStage]; rfl⟩
  | completing result => exact Or.inl ⟨_, .completeAction, rfl, by simp only [Host.step, hStage]; rfl⟩
  | completed =>
    have hStep : h.step .startNext = some h.startNext := by simp only [Host.step, hStage]
    cases hNext : h.startNext with
    | ok t =>
      rw [hNext] at hStep
      exact Or.inl ⟨t, .startNext, rfl, hStep⟩
    | error crash =>
      rw [hNext] at hStep
      exact Or.inr ⟨crash, hStep⟩

/-- A host that is closed and at rest has completed the closing promise. -/
theorem closed_of_rests (hSerial : h.Serial) (hClosing : h.Closing) (hShut : h.m_notifyWhenClosed = false)
    (hRests : h.m_actionQueue.m_isInvoking = false) : h.closed.length = 1 := by
  obtain ⟨closing, -, -, hAt⟩ := hClosing.closing hShut
  have hIdle := hSerial.idle_iff.mpr hRests
  cases hAt with
  | waiting posted =>
    rw [hSerial.empty hRests] at posted
    cases posted
  | unloading current views skipped stage => cases hIdle.symm.trans stage
  | leaving current left stage =>
    rcases stage with ⟨i, hStage⟩ | ⟨result, hStage⟩
    · cases hIdle.symm.trans hStage
    · cases hIdle.symm.trans hStage
  | ended later left gone result closed =>
    rw [closed]
    rfl

/-- A closed host stays closed and makes no instance. -/
theorem stepMoves_of_closed (hShut : h.m_notifyWhenClosed = false) (hSerial : h.Serial)
    (hQueued : h.Queued) (hStep : h.StepMoves event t) :
    t.m_notifyWhenClosed = false ∧ t.instances = h.instances := by
  have hMoves {s next : Host Options ViewOptions} {label : Label Options ViewOptions}
      (hMove : Moves s label next) (hBefore : s.m_notifyWhenClosed = false) :
      next.m_notifyWhenClosed = false := by
    by_cases hLabel : label = .call .close
    · subst hLabel
      cases hMove
      rfl
    · exact (Host.moves_whenClosed hMove hLabel).1.trans hBefore
  constructor
  · cases hStep with
    | call invoking move | next startNext move => exact hMoves move hShut
    | post rests posts call move => exact hMoves move (hMoves call hShut)
  · rcases step_instance hSerial hQueued hStep with hSame | hDestroy | hLoad
    · exact hSame.instances
    · obtain ⟨i, skipped, -, -, -, hInstances, -⟩ := hDestroy
      exact hInstances
    · obtain ⟨options, actions, -, -, hOpened, -⟩ := hLoad
      unfold Host.isClosed at hOpened
      rw [hShut] at hOpened
      cases hOpened

/-- Once it is closed, whatever completes in whatever order, the closing promise is completed, unless a
view is found inited when an action starts. -/
theorem inevitably_closed (run : Runs Undisturbed (.initial options viewOptions) h)
    (hShut : h.m_notifyWhenClosed = false) :
    Inevitably Progresses
      (fun s => s.closed.length = 1 ∨ ∃ crash, s.step .startNext = some (.error crash)) h := by
  apply Inevitably.of_rank (I := fun s => Runs Undisturbed (.initial options viewOptions) s ∧
    s.m_notifyWhenClosed = false) Host.rank
  · rintro s ⟨hRun, hClosed⟩
    cases hBusy : s.m_actionQueue.m_isInvoking with
    | false => exact Or.inl (Or.inl (closed_of_rests hRun.serial hRun.closing.2.2 hClosed hBusy))
    | true =>
      rcases exists_progress hRun.serial hBusy with hNext | hCrash
      · refine Or.inr ⟨hNext, ?_⟩
        intro next hStep
        obtain ⟨hNextRun, hLess⟩ := rank_lt hRun hStep
        obtain ⟨event, -, hEvent⟩ := hStep
        have hShut := stepMoves_of_closed hClosed hRun.serial hRun.queued (hRun.stepMoves hEvent)
        exact ⟨⟨hNextRun, hShut.1⟩, hLess⟩
      · exact Or.inl (Or.inr hCrash)
  · exact ⟨run, hShut⟩

/-- Where no unload is posted while the one that closes the host waits, the closing promise is completed
once, with every instance destroyed and no inspector page, and a closed host makes no instance. -/
theorem closes_once (run : Runs Undisturbed (.initial options viewOptions) h) :
    h.closed.length ≤ 1 ∧
    (h.closed ≠ [] → h.m_notifyWhenClosed = false ∧ h.m_reactInstance = none ∧
      (∀ i < h.instances, i ∈ h.gone) ∧ h.m_inspectorPageId = false) ∧
    (h.m_notifyWhenClosed = false →
      (∀ event t, h.step event = some (.ok t) →
        t.m_notifyWhenClosed = false ∧ t.instances = h.instances) ∧
      Inevitably Progresses
        (fun s => s.closed.length = 1 ∨ ∃ crash, s.step .startNext = some (.error crash)) h) := by
  have hClosing := run.closing.2.2
  have hClosed (hSome : h.closed ≠ []) : h.m_notifyWhenClosed = false := by
    by_contra hOpen
    exact hSome (hClosing.opened ((Bool.not_eq_false _).mp hOpen)).2
  refine ⟨?_, ?_, ?_⟩
  · by_cases hNone : h.closed = []
    · rw [hNone]
      exact Nat.zero_le 1
    · obtain ⟨closing, -, -, hAt⟩ := hClosing.closing (hClosed hNone)
      cases hAt with
      | ended later left gone result closed =>
        rw [closed]
        exact Nat.le_refl 1
      | waiting posted newest unclosed | unloading current views skipped stage unclosed
      | leaving current left stage unclosed => exact absurd unclosed hNone
  · intro hSome
    obtain ⟨closing, -, -, hAt⟩ := hClosing.closing (hClosed hSome)
    cases hAt with
    | ended later left gone result closed =>
      exact ⟨hClosed hSome, left.reactInstance, gone, left.page⟩
    | waiting posted newest unclosed | unloading current views skipped stage unclosed
    | leaving current left stage unclosed => exact absurd unclosed hSome
  · intro hShut
    refine ⟨?_, inevitably_closed run hShut⟩
    intro event t hStep
    exact stepMoves_of_closed hShut run.serial run.queued (run.stepMoves hStep)

theorem undisturbed_of_allowed (s : Host Options ViewOptions) (event : Event Options ViewOptions)
    (hAllowed : (!(event.postsUnload && s.closingWaits)) = true) : Undisturbed s event := by
  intro hPosts
  rw [hPosts, Bool.true_and, Bool.not_eq_true'] at hAllowed
  exact hAllowed

/-- An instance with an inspector page is loaded, and the host is closed while it loads. -/
theorem closed_while_loading :
    ∃ h : Host Unit Unit,
      Runs Undisturbed (.initial ⟨.Hermes, true, ()⟩ ()) h ∧ h.closed = [.succeeded] ∧
      h.instances = 1 ∧ 0 ∈ h.gone ∧ h.m_inspectorPageId = false := by
  have hEvents : ∃ h, (Host.initial (⟨.Hermes, true, ()⟩ : ReactOptions Unit) ()).after
      (fun s event => !(event.postsUnload && s.closingWaits)) [.attachViewInstance 0,
        .reloadInstance ⟨.Hermes, true, ()⟩, .uninited 0, .allUninited, .completeAction, .startNext,
        .close, .loaded true, .updated true, .completeAction, .startNext, .uninited 0, .allUninited,
        .destroyed, .completeAction] = some h ∧
      h.closed = [.succeeded] ∧ h.instances = 1 := ⟨_, rfl, rfl, rfl⟩
  obtain ⟨h, hAfter, hClosed, hInstances⟩ := hEvents
  have run : Runs Undisturbed _ h := Runs.refl.after undisturbed_of_allowed hAfter
  have hSome : h.closed ≠ [] := by
    rw [hClosed]
    exact List.cons_ne_nil _ _
  obtain ⟨-, -, hGone, hPage⟩ := (closes_once run).2.1 hSome
  refine ⟨h, run, hClosed, hInstances, ?_, hPage⟩
  apply hGone
  rw [hInstances]
  exact Nat.one_pos

/-- `UnloadInstance` is called while the unload of `Close` waits: the promise is completed while the host
still has its instance, and the inspector page is never removed. -/
theorem closed_too_early :
    (∃ h : Host Unit Unit,
      Runs (fun _ _ => True) (.initial ⟨.Hermes, true, ()⟩ ()) h ∧ h.closed = [.canceled] ∧
      h.m_reactInstance = some 0 ∧ h.destroyed = [] ∧ h.m_inspectorPageId = true) ∧
    ∃ h : Host Unit Unit,
      Runs (fun _ _ => True) (.initial ⟨.Hermes, true, ()⟩ ()) h ∧ h.closed = [.canceled] ∧
      h.m_reactInstance = none ∧ h.stage = .idle ∧ h.m_inspectorPageId = true := by
  constructor
  · have hEvents : ∃ h, (Host.initial (⟨.Hermes, true, ()⟩ : ReactOptions Unit) ()).after
        (fun _ _ => true) [.reloadInstance ⟨.Hermes, true, ()⟩, .allUninited, .completeAction,
          .startNext, .close, .unloadInstance, .loaded true, .updated true, .completeAction,
          .startNext, .completeAction] = some h ∧
        h.closed = [.canceled] ∧ h.m_reactInstance = some 0 ∧ h.destroyed = [] ∧
        h.m_inspectorPageId = true := ⟨_, rfl, rfl, rfl, rfl, rfl⟩
    obtain ⟨h, hAfter, hFacts⟩ := hEvents
    exact ⟨h, Runs.refl.after (fun _ _ _ => True.intro) hAfter, hFacts⟩
  · have hEvents : ∃ h, (Host.initial (⟨.Hermes, true, ()⟩ : ReactOptions Unit) ()).after
        (fun _ _ => true) [.reloadInstance ⟨.Hermes, true, ()⟩, .allUninited, .completeAction,
          .startNext, .close, .unloadInstance, .loaded true, .updated true, .completeAction,
          .startNext, .completeAction, .startNext, .allUninited, .destroyed, .completeAction,
          .startNext] = some h ∧
        h.closed = [.canceled] ∧ h.m_reactInstance = none ∧ h.stage = .idle ∧
        h.m_inspectorPageId = true := ⟨_, rfl, rfl, rfl, rfl, rfl⟩
    obtain ⟨h, hAfter, hFacts⟩ := hEvents
    exact ⟨h, Runs.refl.after (fun _ _ _ => True.intro) hAfter, hFacts⟩

end ReactHost
