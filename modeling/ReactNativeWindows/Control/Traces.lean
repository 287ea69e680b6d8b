import Mathlib.Data.List.Basic

/-! Machines that take events one after the other, and what holds in every state on their way. An event
that cannot happen in a state has no next one. -/
namespace Control

universe u v

variable {σ : Type u} {ι : Type v} (step : σ → ι → Option σ)

/-- What holds in each state that the events lead through, the first and the last among them. -/
def Throughout (P : σ → Prop) (s : σ) : List ι → Prop
  | [] => P s
  | event :: events => P s ∧ ∀ t, step s event = some t → Throughout P t events

def Allowed (ok : σ → ι → Prop) (s : σ) : List ι → Prop
  | [] => True
  | event :: events => ok s event ∧ ∀ t, step s event = some t → Allowed ok t events

def Along (R : σ → ι → σ → Prop) (s : σ) : List ι → Prop
  | [] => True
  | event :: events => ∀ t, step s event = some t → R s event t ∧ Along R t events

instance decidableAllowed (ok : σ → ι → Prop) [∀ s event, Decidable (ok s event)] (s : σ) :
    (events : List ι) → Decidable (Allowed step ok s events)
  | [] => isTrue trivial
  | event :: events =>
    match hStep : step s event with
    | none =>
      decidable_of_iff (ok s event)
        ⟨fun hOk => ⟨hOk, fun _ hNext => nomatch hStep.symm.trans hNext⟩, fun h => h.1⟩
    | some t =>
      have := decidableAllowed ok t events
      decidable_of_iff (ok s event ∧ Allowed step ok t events)
        ⟨fun h => ⟨h.1, fun _ hNext => Option.some.inj (hStep.symm.trans hNext) ▸ h.2⟩,
          fun h => ⟨h.1, h.2 t hStep⟩⟩

variable {step} {P Q : σ → Prop} {ok : σ → ι → Prop}

variable {s : σ} {events : List ι}

theorem Throughout.first (h : Throughout step P s events) : P s := by
  cases events with
  | nil => exact h
  | cons event events => exact h.1

theorem Throughout.last {t : σ} (h : Throughout step P s events)
    (hRun : events.foldlM step s = some t) : P t := by
  induction events generalizing s with
  | nil =>
    cases hRun
    exact h
  | cons event events ih =>
    rw [List.foldlM_cons, Option.bind_eq_bind, Option.bind_eq_some_iff] at hRun
    obtain ⟨next, hStep, hRest⟩ := hRun
    exact ih (h.2 next hStep) hRest

theorem Throughout.imp (h : Throughout step P s events) (hImp : ∀ s, P s → Q s) :
    Throughout step Q s events := by
  induction events generalizing s with
  | nil => exact hImp s h
  | cons event events ih => exact ⟨hImp s h.1, fun t hStep => ih (h.2 t hStep)⟩

theorem Allowed.throughout (h : Allowed step ok s events) (hStart : P s)
    (hStep : ∀ s event t, P s → ok s event → step s event = some t → P t) :
    Throughout step P s events := by
  induction events generalizing s with
  | nil => exact hStart
  | cons event events ih =>
    refine ⟨hStart, fun t hNext => ?_⟩
    exact ih (h.2 t hNext) (hStep s event t hStart h.1 hNext)

/-- What every step keeps holds throughout. -/
theorem throughout_of_step (hStart : P s) (hStep : ∀ s event t, P s → step s event = some t → P t) :
    Throughout step P s events := by
  induction events generalizing s with
  | nil => exact hStart
  | cons event events ih =>
    exact ⟨hStart, fun t hNext => ih (hStep s event t hStart hNext)⟩

variable {R : σ → ι → σ → Prop}

/-- What an allowed step does from a state of the invariant, each step of an allowed run does. -/
theorem Allowed.along (h : Allowed step ok s events) (hStart : P s)
    (hKeep : ∀ s event t, P s → ok s event → step s event = some t → P t)
    (hStep : ∀ s event t, P s → ok s event → step s event = some t → R s event t) :
    Along step R s events := by
  induction events generalizing s with
  | nil => trivial
  | cons event events ih =>
    intro t hNext
    exact ⟨hStep s event t hStart h.1 hNext, ih (h.2 t hNext) (hKeep s event t hStart h.1 hNext)⟩

theorem along_of_step (hStart : P s) (hKeep : ∀ s event t, P s → step s event = some t → P t)
    (hStep : ∀ s event t, P s → step s event = some t → R s event t) : Along step R s events := by
  induction events generalizing s with
  | nil => trivial
  | cons event events ih =>
    intro t hNext
    exact ⟨hStep s event t hStart hNext, ih (hKeep s event t hStart hNext)⟩

/-- A step that does what it should was allowed. -/
theorem Along.allowed (h : Along step R s events) (hStart : P s)
    (hKeep : ∀ s event t, P s → step s event = some t → R s event t → P t)
    (hNext : ∀ s event, P s → (∀ t, step s event = some t → R s event t) → ok s event) :
    Allowed step ok s events := by
  induction events generalizing s with
  | nil => trivial
  | cons event events ih =>
    refine ⟨hNext s event hStart fun t hStep => (h t hStep).1, fun t hStep => ?_⟩
    exact ih (h t hStep).2 (hKeep s event t hStart hStep (h t hStep).1)

/-- What was lost stays lost, so it is not lost where the run ends. -/
theorem Throughout.not_doomed {D : σ → Prop} {t : σ} (h : Throughout step Q s events)
    (hRun : events.foldlM step s = some t) (hEnd : Q t → ¬ D t)
    (hDoomed : ∀ s event t, D s → step s event = some t → Q t → D t) : ¬ D s := by
  induction events generalizing s with
  | nil =>
    cases hRun
    exact hEnd h
  | cons event events ih =>
    rw [List.foldlM_cons, Option.bind_eq_bind, Option.bind_eq_some_iff] at hRun
    obtain ⟨next, hStep, hRest⟩ := hRun
    have hLater := h.2 next hStep
    intro hLost
    exact ih hLater hRest (hDoomed s event next hLost hStep hLater.first)

/-- A run that is right throughout made only allowed steps, where a step that is not allowed loses what is
not found again before the end. -/
theorem Throughout.allowed {D : σ → Prop} {t : σ} (h : Throughout step Q s events)
    (hRun : events.foldlM step s = some t) (hEnd : Q t → ¬ D t) (hStart : P s)
    (hKeep : ∀ s event t, P s → ok s event → step s event = some t → P t)
    (hSlip : ∀ s event t, P s → ¬ ok s event → step s event = some t → Q t → D t)
    (hDoomed : ∀ s event t, D s → step s event = some t → Q t → D t) :
    Allowed step ok s events := by
  induction events generalizing s with
  | nil => trivial
  | cons event events ih =>
    rw [List.foldlM_cons, Option.bind_eq_bind, Option.bind_eq_some_iff] at hRun
    obtain ⟨next, hStep, hRest⟩ := hRun
    have hLater := h.2 next hStep
    have hOk : ok s event := by
      by_contra hNot
      have hLost := hSlip s event next hStart hNot hStep hLater.first
      exact hLater.not_doomed hRest hEnd hDoomed hLost
    refine ⟨hOk, fun other hNext => ?_⟩
    cases hStep.symm.trans hNext
    exact ih hLater hRest (hKeep s event next hStart hOk hStep)

/-- A run that is right throughout made only allowed steps, where a step is allowed that leads to what is
right. -/
theorem Throughout.allowed_of_step (h : Throughout step Q s events) (hStart : P s)
    (hKeep : ∀ s event t, P s → ok s event → step s event = some t → P t)
    (hNext : ∀ s event, P s → (∀ t, step s event = some t → Q t) → ok s event) :
    Allowed step ok s events := by
  induction events generalizing s with
  | nil => trivial
  | cons event events ih =>
    have hOk := hNext s event hStart fun t hStep => (h.2 t hStep).first
    exact ⟨hOk, fun t hStep => ih (h.2 t hStep) (hKeep s event t hStart hOk hStep)⟩

end Control
