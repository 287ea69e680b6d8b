import ReactNativeWindows.Control.Traces

/-! Mount transactions of the surfaces of a `FabricUIManager`, all on the UI thread. -/
namespace Fabric

open Control (Throughout Allowed)

variable {Coordinator : Type}

inductive TransactionEvent (Coordinator : Type) where
  | requested (coordinator : Coordinator)
  | performed (coordinator : Coordinator)

/-- `running` are the coordinators of the calls of `initiateTransaction` that are in their loop, the
innermost first. The history has its newest event first. -/
structure FabricUIManager (Coordinator : Type) where
  m_transactionInFlight : Bool
  m_followUpTransactionRequired : Bool
  running : List Coordinator
  history : List (TransactionEvent Coordinator)

namespace FabricUIManager

def initial : FabricUIManager Coordinator := ⟨false, false, [], []⟩

/-- A round of the loop, to the point where `performTransaction` runs the code of the views. -/
def performTransaction (m : FabricUIManager Coordinator) (mountingCoordinator : Coordinator) :
    FabricUIManager Coordinator :=
  { m with
    m_followUpTransactionRequired := false
    m_transactionInFlight := true
    history := .performed mountingCoordinator :: m.history }

def initiateTransaction (m : FabricUIManager Coordinator) (mountingCoordinator : Coordinator) :
    FabricUIManager Coordinator :=
  let m := { m with history := .requested mountingCoordinator :: m.history }
  if m.m_transactionInFlight then { m with m_followUpTransactionRequired := true }
  else performTransaction { m with running := mountingCoordinator :: m.running } mountingCoordinator

/-- The innermost `performTransaction` returns to its loop. -/
def transactionPerformed (m : FabricUIManager Coordinator) : Option (FabricUIManager Coordinator) :=
  match m.running with
  | [] => none
  | mountingCoordinator :: callers =>
    let m := { m with m_transactionInFlight := false }
    if m.m_followUpTransactionRequired then some (performTransaction m mountingCoordinator)
    else some { m with running := callers }

end FabricUIManager

/-- What happens on the UI thread: someone calls `initiateTransaction`, be it the code of a view that a
transaction runs, or a `performTransaction` returns. -/
inductive TransactionAction (Coordinator : Type) where
  | initiateTransaction (mountingCoordinator : Coordinator)
  | transactionPerformed

namespace FabricUIManager

def step (m : FabricUIManager Coordinator) :
    TransactionAction Coordinator → Option (FabricUIManager Coordinator)
  | .initiateTransaction mountingCoordinator => some (m.initiateTransaction mountingCoordinator)
  | .transactionPerformed => m.transactionPerformed

/-- The last request for the coordinator has not been followed by a transaction of it. -/
def Pending (coordinator : Coordinator) : List (TransactionEvent Coordinator) → Prop
  | [] => False
  | .requested other :: history => other = coordinator ∨ Pending coordinator history
  | .performed other :: history => other ≠ coordinator ∧ Pending coordinator history

/-- Once the outermost call has returned, no request is pending. -/
def Served (m : FabricUIManager Coordinator) : Prop :=
  m.running = [] → ∀ coordinator, ¬ Pending coordinator m.history

/-- The request is made while no transaction is in flight, or one of its own coordinator. -/
def own (m : FabricUIManager Coordinator) : TransactionAction Coordinator → Prop
  | .initiateTransaction mountingCoordinator => ∀ other ∈ m.running, other = mountingCoordinator
  | .transactionPerformed => True

/-- At most one call is in its loop, and the flags say whether one is. -/
structure InTurn (m : FabricUIManager Coordinator) : Prop where
  never_nested : m.running.length ≤ 1
  inFlight : m.m_transactionInFlight = !m.running.isEmpty
  followUp : m.running = [] → m.m_followUpTransactionRequired = false

theorem inTurn_initial : (initial : FabricUIManager Coordinator).InTurn :=
  ⟨Nat.zero_le 1, rfl, fun _ => rfl⟩

variable {m : FabricUIManager Coordinator}

/-- A call starts a loop when none runs, and leaves a mark for the one that does otherwise. -/
theorem InTurn.initiateTransaction_cases (h : m.InTurn) (coordinator : Coordinator) :
    (m.running = [] ∧ m.initiateTransaction coordinator =
        ⟨true, false, [coordinator], .performed coordinator :: .requested coordinator :: m.history⟩) ∨
      ∃ current, m.running = [current] ∧ m.initiateTransaction coordinator =
        ⟨true, true, [current], .requested coordinator :: m.history⟩ := by
  obtain ⟨inFlight, followUp, running, history⟩ := m
  obtain ⟨hNested, hInFlight, -⟩ := h
  cases running with
  | nil =>
    cases hInFlight
    exact Or.inl ⟨rfl, rfl⟩
  | cons current callers =>
    cases hInFlight
    cases callers with
    | nil => exact Or.inr ⟨current, rfl, rfl⟩
    | cons caller callers => exact absurd hNested (by simp)

theorem InTurn.transactionPerformed_cases {t : FabricUIManager Coordinator} (h : m.InTurn)
    (hStep : m.transactionPerformed = some t) :
    ∃ current, m.running = [current] ∧
      ((m.m_followUpTransactionRequired = true ∧
          t = ⟨true, false, [current], .performed current :: m.history⟩) ∨
        (m.m_followUpTransactionRequired = false ∧ t = ⟨false, false, [], m.history⟩)) := by
  obtain ⟨inFlight, followUp, running, history⟩ := m
  cases running with
  | nil => cases hStep
  | cons current callers =>
    have hNested := h.never_nested
    cases callers with
    | nil =>
      refine ⟨current, rfl, ?_⟩
      cases followUp with
      | true =>
        cases hStep
        exact Or.inl ⟨rfl, rfl⟩
      | false =>
        cases hStep
        exact Or.inr ⟨rfl, rfl⟩
    | cons caller callers => exact absurd hNested (by simp)

variable {action : TransactionAction Coordinator}

theorem InTurn.next {t : FabricUIManager Coordinator} (h : m.InTurn)
    (hStep : m.step action = some t) : t.InTurn := by
  cases action with
  | initiateTransaction coordinator =>
    cases hStep
    rcases h.initiateTransaction_cases coordinator with ⟨-, hNext⟩ | ⟨current, -, hNext⟩
    · rw [hNext]
      exact ⟨Nat.le_refl 1, rfl, fun hNil => absurd hNil (List.cons_ne_nil _ _)⟩
    · rw [hNext]
      exact ⟨Nat.le_refl 1, rfl, fun hNil => absurd hNil (List.cons_ne_nil _ _)⟩
  | transactionPerformed =>
    obtain ⟨current, -, ⟨-, rfl⟩ | ⟨-, rfl⟩⟩ := h.transactionPerformed_cases hStep
    · exact ⟨Nat.le_refl 1, rfl, fun hNil => absurd hNil (List.cons_ne_nil _ _)⟩
    · exact ⟨Nat.zero_le 1, rfl, fun _ => rfl⟩

/-- Only the coordinator that runs may wait, and then another round follows. -/
def Serving (m : FabricUIManager Coordinator) : Prop :=
  ∀ coordinator, Pending coordinator m.history →
    m.running = [coordinator] ∧ m.m_followUpTransactionRequired = true

theorem Serving.served (h : m.Serving) : m.Served := by
  intro hNone coordinator hPending
  have hRunning := (h coordinator hPending).1
  rw [hNone] at hRunning
  cases hRunning

theorem Serving.next {t : FabricUIManager Coordinator} (h : m.Serving) (hTurn : m.InTurn)
    (hOwn : m.own action) (hStep : m.step action = some t) : t.Serving := by
  cases action with
  | initiateTransaction requested =>
    cases hStep
    rcases hTurn.initiateTransaction_cases requested with ⟨hNone, hNext⟩ | ⟨current, hCurrent, hNext⟩
    · rw [hNext]
      rintro coordinator ⟨hOther, hRequested | hPending⟩
      · exact absurd hRequested hOther
      · exact absurd hPending (h.served hNone coordinator)
    · have hSame : current = requested := hOwn current (hCurrent ▸ List.mem_singleton_self current)
      rw [hNext, hSame]
      rintro coordinator (hRequested | hPending)
      · exact ⟨congrArg (fun c => [c]) hRequested, rfl⟩
      · have hRunning := (h coordinator hPending).1
        rw [hCurrent, hSame] at hRunning
        exact ⟨hRunning, rfl⟩
  | transactionPerformed =>
    obtain ⟨current, hCurrent, ⟨-, rfl⟩ | ⟨hDone, rfl⟩⟩ := hTurn.transactionPerformed_cases hStep
    · rintro coordinator ⟨hOther, hPending⟩
      have hRunning := (h coordinator hPending).1
      rw [hCurrent] at hRunning
      exact absurd (List.cons.inj hRunning).1 hOther
    · intro coordinator hPending
      exact absurd ((h coordinator hPending).2.symm.trans hDone) Bool.noConfusion

variable {actions : List (TransactionAction Coordinator)} {last : FabricUIManager Coordinator}

theorem waits_on {current coordinator : Coordinator} (hTurn : m.InTurn)
    (hCurrent : m.running = [current]) (hOther : current ≠ coordinator)
    (hPending : Pending coordinator m.history) (hRun : actions.foldlM step m = some last)
    (hReturned : last.running = []) : ¬ Throughout step Served m actions := by
  intro hServed
  induction actions generalizing m with
  | nil =>
    cases hRun
    exact absurd (hCurrent.symm.trans hReturned) (List.cons_ne_nil _ _)
  | cons action actions ih =>
    rw [List.foldlM_cons, Option.bind_eq_bind, Option.bind_eq_some_iff] at hRun
    obtain ⟨t, hStep, hRest⟩ := hRun
    have hNext := hTurn.next hStep
    have hLater := hServed.2 t hStep
    cases action with
    | initiateTransaction requested =>
      cases hStep
      rcases hTurn.initiateTransaction_cases requested with ⟨hNone, -⟩ | ⟨now, hNow, hEq⟩
      · exact absurd (hCurrent.symm.trans hNone) (List.cons_ne_nil _ _)
      · cases (List.cons.inj (hCurrent.symm.trans hNow)).1
        apply ih hNext _ _ hRest hLater
        · rw [hEq]
        · rw [hEq]
          exact Or.inr hPending
    | transactionPerformed =>
      obtain ⟨now, hNow, ⟨-, rfl⟩ | ⟨-, rfl⟩⟩ := hTurn.transactionPerformed_cases hStep
      · cases (List.cons.inj (hCurrent.symm.trans hNow)).1
        exact ih hNext rfl ⟨hOther, hPending⟩ hRest hLater
      · exact hLater.first rfl coordinator hPending

/-- From a state where nothing but the running coordinator waits, all is served where each request that
comes in flight is for that one. -/
theorem Serving.throughout_iff (h : m.Serving) (hTurn : m.InTurn)
    (hRun : actions.foldlM step m = some last) (hReturned : last.running = []) :
    Throughout step Served m actions ↔ Allowed step own m actions := by
  constructor
  · intro hServed
    induction actions generalizing m with
    | nil => trivial
    | cons action actions ih =>
      rw [List.foldlM_cons, Option.bind_eq_bind, Option.bind_eq_some_iff] at hRun
      obtain ⟨t, hStep, hRest⟩ := hRun
      have hOwn : m.own action := by
        cases action with
        | transactionPerformed => trivial
        | initiateTransaction requested =>
          rcases hTurn.initiateTransaction_cases requested with ⟨hNone, -⟩ | ⟨current, hCurrent, hEq⟩
          · intro other hMem
            rw [hNone] at hMem
            cases hMem
          · intro other hMem
            rw [hCurrent, List.mem_singleton] at hMem
            by_contra hOther
            have hNext := hTurn.next hStep
            have hLater := hServed.2 t hStep
            cases hStep
            apply waits_on hNext _ (hMem ▸ hOther) _ hRest hReturned hLater
            · rw [hEq]
            · rw [hEq]
              exact Or.inl rfl
      refine ⟨hOwn, fun next hNext => ?_⟩
      cases hStep.symm.trans hNext
      exact ih (h.next hTurn hOwn hStep) (hTurn.next hStep) hRest (hServed.2 t hStep)
  · intro hOwn
    have hBoth : Throughout step (fun s => s.Serving ∧ s.InTurn) m actions :=
      hOwn.throughout ⟨h, hTurn⟩ fun s action t hInv hOk hStep =>
        ⟨hInv.1.next hInv.2 hOk hStep, hInv.2.next hStep⟩
    exact hBoth.imp fun s hInv => hInv.1.served

theorem serving_initial : (initial : FabricUIManager Coordinator).Serving := fun _ hPending => nomatch hPending

/-- In every run transactions are never nested and the flags are false when the outermost call has
returned; and each request is served by then exactly where those that come while a transaction is in
flight are for its own coordinator. -/
theorem requests_served_iff (actions : List (TransactionAction Coordinator))
    (last : FabricUIManager Coordinator) (hRun : actions.foldlM step initial = some last)
    (hReturned : last.running = []) :
    Throughout step (fun m => m.running.length ≤ 1 ∧
      (m.running = [] → m.m_transactionInFlight = false ∧ m.m_followUpTransactionRequired = false))
      initial actions ∧
    (Throughout step Served initial actions ↔ Allowed step own initial actions) := by
  constructor
  · have hTurn : Throughout step InTurn (initial : FabricUIManager Coordinator) actions :=
      Control.throughout_of_step inTurn_initial fun _ _ _ hInv hStep => hInv.next hStep
    apply hTurn.imp
    intro m hInv
    refine ⟨hInv.never_nested, fun hNone => ⟨?_, hInv.followUp hNone⟩⟩
    rw [hInv.inFlight, hNone]
    rfl
  · exact serving_initial.throughout_iff inTurn_initial hRun hReturned

/-- A request for the surface whose transaction is in flight makes another round. -/
theorem request_in_flight_served :
    Throughout step Served (initial : FabricUIManager Bool)
      [.initiateTransaction true, .initiateTransaction true, .transactionPerformed,
        .transactionPerformed] := by
  apply (requests_served_iff _ _ rfl rfl).2.mpr
  refine ⟨fun other hMem => ?_, fun t hFirst => ⟨fun other hMem => ?_, fun u hSecond => ?_⟩⟩
  · cases hMem
  · cases hFirst
    exact List.mem_singleton.mp hMem
  · exact ⟨trivial, fun _ _ => ⟨trivial, fun _ _ => trivial⟩⟩

/-- A request for another surface makes another round of the first one, and none of its own. -/
theorem request_of_other_surface_lost :
    ¬ Throughout step Served (initial : FabricUIManager Bool)
      [.initiateTransaction true, .initiateTransaction false, .transactionPerformed,
        .transactionPerformed] := by
  intro hServed
  have hLast := hServed.last (t := ⟨false, false, [], [.performed true, .requested false,
    .performed true, .requested true]⟩) rfl
  exact hLast rfl false ⟨Bool.noConfusion, Or.inl rfl⟩

end FabricUIManager

end Fabric
