import Mathlib.Data.List.Basic

/-! Histories of operations with their results, newest first, against a sequential
object that says what each operation returns. -/
namespace Concurrency

universe u v w

variable {State : Type u} {Op : Type v} {Result : Type w}

/-- The object answers the operations of a history, in their order, with the results
of the history, and is in `s` after them. -/
inductive Replays (apply : State → Op → State × Result) (initial : State) :
    List (Op × Result) → State → Prop where
  | nil : Replays apply initial [] initial
  | cons {history : List (Op × Result)} {s s' : State} {op : Op} {result : Result}
      (prior : Replays apply initial history s) (last : apply s op = (s', result)) :
      Replays apply initial ((op, result) :: history) s'

namespace Replays
variable {apply : State → Op → State × Result} {initial : State}

/-- What all operations of a stretch of the history preserve. -/
theorem stretch {P : State → Prop} {recent old : List (Op × Result)} {t : State}
    (h : Replays apply initial (recent ++ old) t)
    (hStep : ∀ event ∈ recent, ∀ s, P s → P (apply s event.1).1) :
    ∃ s, Replays apply initial old s ∧ (P s → P t) := by
  induction recent generalizing t with
  | nil => exact ⟨t, h, id⟩
  | cons event recent ih =>
    cases h with
    | cons prior last =>
      obtain ⟨s, hOld, hKept⟩ := ih prior fun e hMem => hStep e (List.mem_cons_of_mem _ hMem)
      refine ⟨s, hOld, fun hs => ?_⟩
      have hNext := hStep _ List.mem_cons_self _ (hKept hs)
      rwa [last] at hNext

end Replays
end Concurrency
