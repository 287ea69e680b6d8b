import Mathlib.Data.List.Basic

/-! Loops `while (cursor.next(key)) body` over a cursor that body and condition move. -/
namespace Control

universe u v w

variable {σ : Type u} {κ : Type v} {α : Type w}

/-- At most `fuel` times: ask the cursor for the next key, and run the body for it. The loop
ends with the first `none`; `none` as a result says that fuel or the body gave out. -/
def whileNext (next : σ → Option κ × σ) (body : κ → α → σ → Option (α × σ)) :
    ℕ → α → σ → Option (α × σ)
  | 0, _, _ => none
  | fuel + 1, a, s =>
    match next s with
    | (none, s) => some (a, s)
    | (some key, s) => (body key a s).bind fun (a, s) => whileNext next body fuel a s

variable {next : σ → Option κ × σ} {body : κ → α → σ → Option (α × σ)}

theorem whileNext_none {s s' : σ} (h : next s = (none, s')) (fuel : ℕ) (a : α) :
    whileNext next body (fuel + 1) a s = some (a, s') := by
  rw [whileNext, h]

theorem whileNext_some {s s₁ s₂ : σ} {key : κ} {a a' : α} (h : next s = (some key, s₁))
    (hBody : body key a s₁ = some (a', s₂)) (fuel : ℕ) :
    whileNext next body (fuel + 1) a s = whileNext next body fuel a' s₂ := by
  rw [whileNext, h]
  simp only [hBody, Option.bind_some]

end Control
