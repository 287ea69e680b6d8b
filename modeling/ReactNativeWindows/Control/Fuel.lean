import Mathlib.Data.Nat.Notation
import Mathlib.Logic.Basic

/-! Computations that run on fuel and may fail: what they promise when there is enough of it. -/
namespace Control

universe u v w

inductive Stop (φ : Type u) where
  | fuel
  | fault (fault : φ)

variable {φ : Type u} {α : Type v} {β : Type v}

/-- A step that gives no value when its fuel gives out. -/
def fueled : Option α → Except (Stop φ) α
  | some a => .ok a
  | none => .error .fuel

/-- Values have a property, there is one when there is enough fuel, and nothing fails. -/
def Meets (enough : Prop) (post : α → Prop) : Except (Stop φ) α → Prop
  | .ok a => post a
  | .error .fuel => ¬enough
  | .error (.fault _) => False

namespace Meets

variable {enough : Prop} {post : α → Prop} {x : Except (Stop φ) α}

theorem imp {weaker : α → Prop} (h : Meets enough post x) (hImp : ∀ a, post a → weaker a) :
    Meets enough weaker x := by
  cases x with
  | ok a => exact hImp a h
  | error stop =>
    cases stop with
    | fuel | fault fault => exact h

theorem bind {f : α → Except (Stop φ) β} {last : β → Prop} (h : Meets enough post x)
    (hNext : ∀ a, post a → Meets enough last (f a)) : Meets enough last (x >>= f) := by
  cases x with
  | ok a => exact hNext a h
  | error stop =>
    cases stop with
    | fuel | fault fault => exact h

theorem of_fueled {found : Option α} (hPost : ∀ a, found = some a → post a)
    (hEnough : enough → ∃ a, found = some a) :
    Meets enough post (fueled found : Except (Stop φ) α) := by
  cases found with
  | none => exact fun h => nomatch hEnough h
  | some a => exact hPost a rfl

theorem of_eq_ok {a : α} (h : Meets enough post x) (hEq : x = .ok a) : post a := by
  rw [hEq] at h
  exact h

theorem exists_ok (h : Meets enough post x) (hEnough : enough) : ∃ a, x = .ok a ∧ post a := by
  cases x with
  | ok a => exact ⟨a, rfl, h⟩
  | error stop =>
    cases stop with
    | fuel => exact absurd hEnough h
    | fault fault => exact h.elim

end Meets

section Worklist
universe t
variable {σ : Type v} {ι : Type t} {queue : σ → List ι} {next : σ → ι → List ι → Except (Stop φ) σ}
  {loop : ℕ → σ → Except (Stop φ) σ}

/-- A loop that takes the items of a queue one after another until there are none, each for one unit of fuel. -/
structure Drains (queue : σ → List ι) (next : σ → ι → List ι → Except (Stop φ) σ)
    (loop : ℕ → σ → Except (Stop φ) σ) : Prop where
  nil : ∀ fuel s, queue s = [] → loop fuel s = .ok s
  zero : ∀ s item rest, queue s = item :: rest → loop 0 s = .error .fuel
  succ : ∀ fuel s item rest, queue s = item :: rest → loop (fuel + 1) s = next s item rest >>= loop fuel

/-- What each item keeps holds when the queue is empty; fuel for as many items as can come is enough. -/
theorem Drains.meets (hLoop : Drains queue next loop) {Inv : List ι → σ → Prop} (bound : ℕ)
    (hBound : ∀ done s, Inv done s → (done ++ queue s).length ≤ bound)
    (hStep : ∀ done s item rest, Inv done s → queue s = item :: rest →
      ∃ s', next s item rest = .ok s' ∧ Inv (done ++ [item]) s')
    (fuel : ℕ) {done : List ι} {s : σ} (h : Inv done s) :
    Meets (bound ≤ done.length + fuel) (fun s' => ∃ done', Inv done' s' ∧ queue s' = []) (loop fuel s) := by
  induction fuel generalizing done s with
  | zero =>
    cases hQueue : queue s with
    | nil =>
      rw [hLoop.nil 0 s hQueue]
      exact ⟨done, h, hQueue⟩
    | cons item rest =>
      rw [hLoop.zero s item rest hQueue]
      intro hEnough
      have hLength := hBound done s h
      rw [hQueue, List.length_append, List.length_cons] at hLength
      omega
  | succ fuel ih =>
    cases hQueue : queue s with
    | nil =>
      rw [hLoop.nil (fuel + 1) s hQueue]
      exact ⟨done, h, hQueue⟩
    | cons item rest =>
      obtain ⟨s', hRun, hInv⟩ := hStep done s item rest h hQueue
      rw [hLoop.succ fuel s item rest hQueue, hRun]
      have hNext := ih hInv
      rw [List.length_append, List.length_singleton, Nat.add_assoc, Nat.add_comm 1 fuel] at hNext
      exact hNext

end Worklist
end Control
