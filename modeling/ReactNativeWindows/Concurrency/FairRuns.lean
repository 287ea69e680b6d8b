import Mathlib.Order.Basic

/-! Tasks that take turns as a schedule says, each of them again and again. -/
namespace Concurrency

universe u v

variable {σ : Type u} {ι : Type v}

def afterTurns (turn : ι → σ → σ) (schedule : ℕ → ι) (s : σ) : ℕ → σ
  | 0 => s
  | turns + 1 => turn (schedule turns) (afterTurns turn schedule s turns)

/-- No task that is live is kept waiting forever. -/
def Fair (live : ι → Prop) (schedule : ℕ → ι) : Prop :=
  ∀ i, live i → ∀ turns, ∃ later, turns ≤ later ∧ schedule later = i

variable {turn : ι → σ → σ} {schedule : ℕ → ι} {live : ι → Prop} {s : σ}

theorem afterTurns_keeps {I : σ → Prop} (hStart : I s) (hTurn : ∀ i s, I s → I (turn i s))
    (turns : ℕ) : I (afterTurns turn schedule s turns) := by
  induction turns with
  | zero => exact hStart
  | succ turns ih => exact hTurn _ _ ih

/-- If each turn makes the rank smaller or changes nothing, a moment comes after which nothing
changes, and then no live task could change anything. -/
theorem Fair.settles (hFair : Fair live schedule) (rank : σ → ℕ)
    (hTurn : ∀ i s, turn i s = s ∨ rank (turn i s) < rank s) (s : σ) :
    ∃ turns, ∀ i, live i → turn i (afterTurns turn schedule s turns) =
      afterTurns turn schedule s turns := by
  have hLeast : ∃ turns, ∀ other, rank (afterTurns turn schedule s turns) ≤
      rank (afterTurns turn schedule s other) := by
    by_contra hNone
    have hBelow : ∀ bound turns, bound ≤ rank (afterTurns turn schedule s turns) := by
      intro bound
      induction bound with
      | zero => exact fun _ => Nat.zero_le _
      | succ bound ih =>
        intro turns
        obtain ⟨other, hOther⟩ := not_forall.mp (not_exists.mp hNone turns)
        exact Nat.lt_of_le_of_lt (ih other) (Nat.lt_of_not_le hOther)
    exact absurd (hBelow (rank s + 1) 0) (Nat.not_succ_le_self _)
  obtain ⟨turns, hTurns⟩ := hLeast
  have hStays : ∀ more, afterTurns turn schedule s (turns + more) =
      afterTurns turn schedule s turns := by
    intro more
    induction more with
    | zero => rfl
    | succ more ih =>
      have hStep : afterTurns turn schedule s (turns + more + 1) =
          turn (schedule (turns + more)) (afterTurns turn schedule s turns) := by
        rw [afterTurns, ih]
      rcases hTurn (schedule (turns + more)) (afterTurns turn schedule s turns) with hSame | hLess
      · exact hStep.trans hSame
      · have hLow := hTurns (turns + more + 1)
        rw [hStep] at hLow
        exact absurd hLess (Nat.not_lt.mpr hLow)
  refine ⟨turns, fun i hLive => ?_⟩
  obtain ⟨later, hLater, rfl⟩ := hFair i hLive turns
  obtain ⟨more, rfl⟩ := Nat.exists_eq_add_of_le hLater
  have hNext := hStays (more + 1)
  rw [← Nat.add_assoc, afterTurns, hStays more] at hNext
  exact hNext

/-- Turns one after the other are fair. -/
theorem fair_mod (count : ℕ) : Fair (· < count) (· % count) := by
  intro i hLive turns
  refine ⟨turns * count + i, ?_, ?_⟩
  · have hMul : turns * 1 ≤ turns * count := Nat.mul_le_mul_left _ (Nat.one_le_of_lt hLive)
    omega
  · show (turns * count + i) % count = i
    rw [Nat.mul_add_mod', Nat.mod_eq_of_lt hLive]

end Concurrency
