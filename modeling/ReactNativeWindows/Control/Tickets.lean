import Mathlib.Data.List.Basic

/-! Numbered requests that wait in a queue, of which only the newest counts. -/
namespace Control

/-- `waiting` are the numbers of the requests that wait, oldest first. `newest` is the last of them, 0
when none waits, and `issued` the last number that was given out. -/
structure Tickets (waiting : List ℕ) (newest issued : ℕ) : Prop where
  newest_eq : newest = waiting.getLast?.getD 0
  increasing : waiting.Pairwise (· < ·)
  bounds : ∀ ticket ∈ waiting, 0 < ticket ∧ ticket ≤ issued

namespace Tickets
variable {waiting : List ℕ} {newest issued ticket : ℕ}

theorem empty : Tickets [] 0 issued where
  newest_eq := rfl
  increasing := .nil
  bounds _ hTicket := absurd hTicket List.not_mem_nil

theorem issue (h : Tickets waiting newest issued) :
    Tickets (waiting ++ [issued + 1]) (issued + 1) (issued + 1) where
  newest_eq := by
    rw [List.getLast?_concat]
    rfl
  increasing := by
    apply List.pairwise_append.mpr
    refine ⟨h.increasing, List.pairwise_singleton _ _, ?_⟩
    intro earlier hEarlier last hLast
    rw [List.mem_singleton.mp hLast]
    exact Nat.lt_succ_of_le (h.bounds earlier hEarlier).2
  bounds := by
    intro earlier hEarlier
    rcases List.mem_append.mp hEarlier with hOld | hNew
    · exact ⟨(h.bounds earlier hOld).1, Nat.le_succ_of_le (h.bounds earlier hOld).2⟩
    · rw [List.mem_singleton.mp hNew]
      exact ⟨Nat.succ_pos issued, Nat.le_refl _⟩

theorem newest_mem (h : Tickets waiting newest issued) (hWaiting : waiting ≠ []) :
    newest ∈ waiting := by
  rw [h.newest_eq, List.getLast?_eq_some_getLast hWaiting]
  exact List.getLast_mem hWaiting

theorem newest_eq_zero_iff (h : Tickets waiting newest issued) : newest = 0 ↔ waiting = [] := by
  constructor
  · intro hZero
    by_contra hWaiting
    have hPositive := (h.bounds newest (h.newest_mem hWaiting)).1
    omega
  · rintro rfl
    exact h.newest_eq

variable (h : Tickets (ticket :: waiting) newest issued)
include h

/-- Of the requests that wait only the last is the newest. -/
theorem head_eq_newest_iff : ticket = newest ↔ waiting = [] := by
  constructor
  · intro hTicket
    by_contra hWaiting
    have hMem : newest ∈ waiting := by
      rw [h.newest_eq, List.getLast?_cons, List.getLast?_eq_some_getLast hWaiting]
      exact List.getLast_mem hWaiting
    have hLess := (List.pairwise_cons.mp h.increasing).1 newest hMem
    omega
  · rintro rfl
    exact h.newest_eq.symm

theorem head_pos : 0 < ticket :=
  (h.bounds ticket List.mem_cons_self).1

/-- Once the newest request has been taken, none waits. -/
theorem taken (hNewest : ticket = newest) : Tickets waiting 0 issued := by
  rw [h.head_eq_newest_iff.mp hNewest]
  exact empty

theorem superseded (hOld : ticket ≠ newest) :
    Tickets waiting newest issued where
  newest_eq := by
    have hWaiting : waiting ≠ [] := fun hNone => hOld (h.head_eq_newest_iff.mpr hNone)
    rw [h.newest_eq, List.getLast?_cons, List.getLast?_eq_some_getLast hWaiting]
    rfl
  increasing := (List.pairwise_cons.mp h.increasing).2
  bounds earlier hEarlier := h.bounds earlier (List.mem_cons_of_mem _ hEarlier)

end Tickets
end Control
