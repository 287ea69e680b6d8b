import Mathlib.Data.List.Pairwise

/-! Loops that get one answer from outside in each round. -/
namespace Control

universe u v w

variable {σ : Type u} {ι : Type v} {ρ : Type w}

/-- The states in which the rounds of a loop start. A round ends the loop with a
result, or leaves the state of the next one; without an answer it stays open. -/
def rounds (step : σ → ι → ρ ⊕ σ) : σ → List ι → List σ
  | s, [] => [s]
  | s, i :: rest =>
    match step s i with
    | .inl _ => [s]
    | .inr next => s :: rounds step next rest

def outcome (step : σ → ι → ρ ⊕ σ) : σ → List ι → Option ρ
  | _, [] => none
  | s, i :: rest =>
    match step s i with
    | .inl result => some result
    | .inr next => outcome step next rest

variable {step : σ → ι → ρ ⊕ σ}

@[simp] theorem rounds_nil (s : σ) : rounds step s [] = [s] := rfl

variable {s : σ} {i : ι} {result : ρ}

theorem rounds_cons_inl (h : step s i = .inl result) (rest : List ι) :
    rounds step s (i :: rest) = [s] := by
  rw [rounds, h]

theorem rounds_cons_inr {next : σ} (h : step s i = .inr next) (rest : List ι) :
    rounds step s (i :: rest) = s :: rounds step next rest := by
  rw [rounds, h]

theorem outcome_cons_inl (h : step s i = .inl result) (rest : List ι) :
    outcome step s (i :: rest) = some result := by
  rw [outcome, h]

theorem outcome_cons_inr {next : σ} (h : step s i = .inr next) (rest : List ι) :
    outcome step s (i :: rest) = outcome step next rest := by
  rw [outcome, h]

theorem rounds_eq_cons (step : σ → ι → ρ ⊕ σ) (s : σ) (answers : List ι) :
    ∃ later, rounds step s answers = s :: later := by
  cases answers with
  | nil => exact ⟨[], rfl⟩
  | cons i rest =>
    cases h : step s i with
    | inl result => exact ⟨[], rounds_cons_inl h rest⟩
    | inr next => exact ⟨_, rounds_cons_inr h rest⟩

theorem rounds_head (s : σ) (answers : List ι) : (rounds step s answers)[0]? = some s := by
  obtain ⟨later, h⟩ := rounds_eq_cons step s answers
  rw [h, List.getElem?_cons_zero]

variable {answers : List ι} {k : Nat}

/-- Two rounds that follow each other are joined by the answer of the first. -/
theorem rounds_next {before after : σ} (hBefore : (rounds step s answers)[k]? = some before)
    (hAfter : (rounds step s answers)[k + 1]? = some after) :
    ∃ i, answers[k]? = some i ∧ step before i = .inr after := by
  induction answers generalizing s k with
  | nil => simp at hAfter
  | cons i rest ih =>
    cases h : step s i with
    | inl result =>
      rw [rounds_cons_inl h] at hAfter
      simp at hAfter
    | inr next =>
      rw [rounds_cons_inr h] at hBefore hAfter
      cases k with
      | zero =>
        rw [List.getElem?_cons_zero, Option.some.injEq] at hBefore
        rw [List.getElem?_cons_succ, rounds_head, Option.some.injEq] at hAfter
        exact ⟨i, rfl, hBefore ▸ hAfter ▸ h⟩
      | succ k =>
        rw [List.getElem?_cons_succ] at hBefore hAfter ⊢
        exact ih hBefore hAfter

/-- What holds in the first round and is kept from one round to the next. -/
theorem rounds_invariant {P : Nat → σ → Prop} (hStart : P 0 s)
    (hStep : ∀ k before i after, answers[k]? = some i → P k before →
      step before i = .inr after → P (k + 1) after) {state : σ}
    (hState : (rounds step s answers)[k]? = some state) : P k state := by
  induction k generalizing state with
  | zero =>
    rw [rounds_head, Option.some.injEq] at hState
    exact hState ▸ hStart
  | succ k ih =>
    have hLength := (List.getElem?_eq_some_iff.mp hState).1
    obtain ⟨before, hBefore⟩ : ∃ before, (rounds step s answers)[k]? = some before :=
      ⟨_, List.getElem?_eq_getElem (Nat.lt_of_succ_lt hLength)⟩
    obtain ⟨i, hAnswer, hNext⟩ := rounds_next hBefore hState
    exact hStep k before i state hAnswer (ih hBefore) hNext

/-- What the rounds keep stays from a round on. -/
theorem rounds_stays {Q : σ → Prop}
    (hStep : ∀ before i after, Q before → step before i = .inr after → Q after) {d : Nat}
    {state later : σ} (hState : (rounds step s answers)[k]? = some state)
    (hLater : (rounds step s answers)[k + d]? = some later) (hQ : Q state) : Q later := by
  induction d generalizing later with
  | zero =>
    rw [Nat.add_zero, hState, Option.some.injEq] at hLater
    exact hLater ▸ hQ
  | succ d ih =>
    have hLength := (List.getElem?_eq_some_iff.mp hLater).1
    obtain ⟨before, hBefore⟩ : ∃ before, (rounds step s answers)[k + d]? = some before :=
      ⟨_, List.getElem?_eq_getElem (Nat.lt_of_succ_lt hLength)⟩
    obtain ⟨i, -, hNext⟩ := rounds_next hBefore hLater
    exact hStep before i later (ih hBefore) hNext

/-- The loop ends in its last round, with the answer of that round. -/
theorem outcome_last (h : outcome step s answers = some result) :
    ∃ k state i, (rounds step s answers).length = k + 1 ∧
      (rounds step s answers)[k]? = some state ∧ answers[k]? = some i ∧
      step state i = .inl result := by
  induction answers generalizing s with
  | nil => exact absurd h (by simp [outcome])
  | cons i rest ih =>
    cases hStep : step s i with
    | inl last =>
      rw [outcome_cons_inl hStep, Option.some.injEq] at h
      rw [rounds_cons_inl hStep]
      exact ⟨0, s, i, rfl, rfl, rfl, h ▸ hStep⟩
    | inr next =>
      rw [outcome_cons_inr hStep] at h
      obtain ⟨k, state, last, hLength, hState, hLast, hResult⟩ := ih h
      rw [rounds_cons_inr hStep]
      exact ⟨k + 1, state, last, by rw [List.length_cons, hLength],
        by rw [List.getElem?_cons_succ, hState], by rw [List.getElem?_cons_succ, hLast],
        hResult⟩

theorem outcome_of_last {state : σ} (hState : (rounds step s answers)[k]? = some state)
    (hAnswer : answers[k]? = some i) (hResult : step state i = .inl result) :
    outcome step s answers = some result ∧ (rounds step s answers).length = k + 1 := by
  induction answers generalizing s k with
  | nil => cases hAnswer
  | cons first rest ih =>
    cases hStep : step s first with
    | inl last =>
      rw [rounds_cons_inl hStep] at hState ⊢
      rw [outcome_cons_inl hStep]
      cases k with
      | zero =>
        rw [List.getElem?_cons_zero, Option.some.injEq] at hState hAnswer
        rw [hState, hAnswer, hResult, Sum.inl.injEq] at hStep
        exact ⟨congrArg some hStep.symm, rfl⟩
      | succ k => simp at hState
    | inr next =>
      rw [rounds_cons_inr hStep] at hState ⊢
      rw [outcome_cons_inr hStep]
      cases k with
      | zero =>
        rw [List.getElem?_cons_zero, Option.some.injEq] at hState hAnswer
        rw [hState, hAnswer, hResult] at hStep
        cases hStep
      | succ k =>
        rw [List.getElem?_cons_succ] at hState hAnswer
        obtain ⟨hOutcome, hLength⟩ := ih hState hAnswer
        exact ⟨hOutcome, by rw [List.length_cons, hLength]⟩

end Control
