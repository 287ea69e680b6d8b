import Mathlib.Data.List.Basic

/-! Machines that stop for good at a call they do not accept, and their images. -/
namespace Control

universe u v w

variable {σ : Type u} {τ : Type v} {ι : Type w} {step : σ → ι → Option σ} {step' : τ → ι → Option τ}

/-- Where every step of one machine is the image of a step of the other, so is every run. -/
theorem foldlM_image {image : σ → τ} (h : ∀ s i, step' (image s) i = (step s i).map image)
    (s : σ) (calls : List ι) :
    calls.foldlM step' (image s) = (calls.foldlM step s).map image := by
  induction calls generalizing s with
  | nil => rfl
  | cons i calls ih =>
    rw [List.foldlM_cons, List.foldlM_cons, h]
    cases step s i with
    | none => rfl
    | some next => exact ih next

/-- Where each step that one machine takes is taken by the other, so is each of its runs. -/
theorem foldlM_follows {image : σ → τ}
    (h : ∀ s i next, step s i = some next → step' (image s) i = some (image next))
    {s last : σ} {calls : List ι} (hRun : calls.foldlM step s = some last) :
    calls.foldlM step' (image s) = some (image last) := by
  induction calls generalizing s with
  | nil =>
    cases hRun
    rfl
  | cons i calls ih =>
    rw [List.foldlM_cons, Option.bind_eq_bind, Option.bind_eq_some_iff] at hRun
    obtain ⟨next, hStep, hRest⟩ := hRun
    rw [List.foldlM_cons, h s i next hStep, Option.bind_eq_bind, Option.bind_some]
    exact ih hRest

end Control
