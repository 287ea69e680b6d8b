import Mathlib.Data.List.Basic

/-! Loops over a list: what every round keeps. -/
namespace Control

universe u v

variable {σ : Type u} {α : Type v} {step : σ → α → σ} {P : σ → Prop}

theorem foldl_keeps {items : List α} {s : σ} (h : P s)
    (hKeep : ∀ s, ∀ item ∈ items, P s → P (step s item)) : P (items.foldl step s) := by
  induction items generalizing s with
  | nil => exact h
  | cons item items ih =>
    rw [List.foldl_cons]
    apply ih
    · exact hKeep s item List.mem_cons_self h
    · intro s other hMem hOther
      exact hKeep s other (List.mem_cons_of_mem _ hMem) hOther

end Control
