import Mathlib.Data.List.Basic

/-! Things that begin and end in turn, in a history with its newest event first. -/
namespace Control

universe u

variable {ε : Type u} [DecidableEq ε] (begins ends : ε)

/-- What the history began last has not ended. -/
def isOpen : List ε → Bool
  | [] => false
  | event :: history => if event = begins then true else if event = ends then false else isOpen history

/-- Each beginning finds nothing open, and each end what it ends. -/
def Alternating : List ε → Prop
  | [] => True
  | event :: history =>
    (event = begins → isOpen begins ends history = false) ∧
      (event = ends → isOpen begins ends history = true) ∧ Alternating history

variable {begins ends} {event : ε} {history : List ε}

@[simp]
theorem isOpen_begins : isOpen begins ends (begins :: history) = true := if_pos rfl

theorem isOpen_ends (hNe : ends ≠ begins) : isOpen begins ends (ends :: history) = false := by
  rw [isOpen, if_neg hNe, if_pos rfl]

theorem isOpen_other (hBegins : event ≠ begins) (hEnds : event ≠ ends) :
    isOpen begins ends (event :: history) = isOpen begins ends history := by
  rw [isOpen, if_neg hBegins, if_neg hEnds]

theorem mem_of_isOpen (h : isOpen begins ends history = true) : begins ∈ history := by
  induction history with
  | nil => cases h
  | cons event history ih =>
    by_cases hBegins : event = begins
    · rw [hBegins]
      exact List.mem_cons_self
    · by_cases hEnds : event = ends
      · rw [hEnds, isOpen_ends (hEnds ▸ hBegins)] at h
        cases h
      · rw [isOpen_other hBegins hEnds] at h
        exact List.mem_cons_of_mem _ (ih h)

theorem Alternating.begin (h : Alternating begins ends history) (hNe : begins ≠ ends)
    (hClosed : isOpen begins ends history = false) : Alternating begins ends (begins :: history) :=
  ⟨fun _ => hClosed, fun hEq => absurd hEq hNe, h⟩

theorem Alternating.end (h : Alternating begins ends history) (hNe : ends ≠ begins)
    (hOpen : isOpen begins ends history = true) : Alternating begins ends (ends :: history) :=
  ⟨fun hEq => absurd hEq hNe, fun _ => hOpen, h⟩

theorem Alternating.other (h : Alternating begins ends history) (hBegins : event ≠ begins)
    (hEnds : event ≠ ends) : Alternating begins ends (event :: history) :=
  ⟨fun hEq => absurd hEq hBegins, fun hEq => absurd hEq hEnds, h⟩

end Control
