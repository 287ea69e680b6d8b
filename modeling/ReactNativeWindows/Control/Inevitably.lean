import Mathlib.Data.Nat.Basic

/-! States from which something comes about whatever steps are taken. -/
namespace Control

universe u

variable {σ : Type u}

/-- `P` holds, or some step is possible and `P` comes about after every one. -/
inductive Inevitably (step : σ → σ → Prop) (P : σ → Prop) : σ → Prop where
  | here {s : σ} (h : P s) : Inevitably step P s
  | next {s : σ} (enabled : ∃ t, step s t) (later : ∀ t, step s t → Inevitably step P t) :
      Inevitably step P s

variable {step : σ → σ → Prop} {P I : σ → Prop}

theorem Inevitably.mono {Q : σ → Prop} (hPQ : ∀ s, P s → Q s) {s : σ} (h : Inevitably step P s) :
    Inevitably step Q s := by
  induction h with
  | here h => exact .here (hPQ _ h)
  | next enabled _ ih => exact .next enabled ih

/-- As long as `P` does not hold, some step is possible and every step makes `rank` smaller. -/
theorem Inevitably.of_rank (rank : σ → ℕ)
    (h : ∀ s, I s → P s ∨ (∃ t, step s t) ∧ ∀ t, step s t → I t ∧ rank t < rank s) (s : σ)
    (hs : I s) : Inevitably step P s := by
  induction hRank : rank s using Nat.strong_induction_on generalizing s with
  | _ n ih =>
    rcases h s hs with hP | ⟨hEnabled, hSteps⟩
    · exact .here hP
    · apply Inevitably.next hEnabled
      intro t hStep
      obtain ⟨hInv, hLess⟩ := hSteps t hStep
      exact ih (rank t) (hRank ▸ hLess) t hInv rfl

end Control
