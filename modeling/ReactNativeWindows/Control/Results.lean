import Mathlib.Data.List.Forall2

/-! Computations that may throw, seen from the value they return. -/
namespace Control

universe u v

variable {ε α β : Type}

theorem bind_eq_ok {x : Except ε α} {f : α → Except ε β} {b : β} :
    (x >>= f) = .ok b ↔ ∃ a, x = .ok a ∧ f a = .ok b := by
  cases x with
  | error error =>
    constructor
    · rintro ⟨⟩
    · rintro ⟨a, ⟨⟩, -⟩
  | ok a =>
    constructor
    · exact fun h => ⟨a, rfl, h⟩
    · rintro ⟨a, ⟨⟩, h⟩
      exact h

theorem ok_bind {ε : Type u} {α β : Type v} (a : α) (f : α → Except ε β) :
    (Except.ok a >>= f) = f a := rfl

theorem pure_eq_ok {a b : α} : (pure a : Except ε α) = .ok b ↔ a = b := by
  constructor
  · rintro ⟨⟩
    rfl
  · rintro rfl
    rfl

variable {xs : List α}

theorem mapM_eq_ok {f : α → Except ε β} {ys : List β} (h : xs.mapM f = .ok ys) :
    List.Forall₂ (fun x y => f x = .ok y) xs ys := by
  induction xs generalizing ys with
  | nil =>
    cases h
    exact .nil
  | cons x xs ih =>
    rw [List.mapM_cons] at h
    obtain ⟨y, hHead, h⟩ := bind_eq_ok.mp h
    obtain ⟨rest, hTail, h⟩ := bind_eq_ok.mp h
    obtain rfl := pure_eq_ok.mp h
    exact .cons hHead (ih hTail)

/-- A loop that undoes a map returns what was mapped. -/
theorem mapM_map_eq_ok {f : α → β} {g : β → Except ε α} (h : ∀ x ∈ xs, g (f x) = .ok x) :
    (xs.map f).mapM g = .ok xs := by
  induction xs with
  | nil => rfl
  | cons x xs ih =>
    rw [List.map_cons, List.mapM_cons, h x List.mem_cons_self,
      ih fun y hMem => h y (List.mem_cons_of_mem x hMem)]
    rfl

section Forall₂

variable {P Q : α → β → Prop} {xs : List α} {ys : List β}

theorem exists_left_of_mem (h : List.Forall₂ P xs ys) {y : β} (hMem : y ∈ ys) :
    ∃ x ∈ xs, P x y := by
  induction h with
  | nil => cases hMem
  | cons hHead _ ih =>
    rcases List.mem_cons.mp hMem with rfl | hTail
    · exact ⟨_, List.mem_cons_self, hHead⟩
    · obtain ⟨x, hx, hFound⟩ := ih hTail
      exact ⟨x, List.mem_cons_of_mem _ hx, hFound⟩

theorem exists_right_of_mem (h : List.Forall₂ P xs ys) {x : α} (hMem : x ∈ xs) :
    ∃ y ∈ ys, P x y :=
  exists_left_of_mem h.flip hMem

theorem forall₂_imp_of_mem (h : List.Forall₂ P xs ys)
    (hImp : ∀ x ∈ xs, ∀ y ∈ ys, P x y → Q x y) : List.Forall₂ Q xs ys := by
  induction h with
  | nil => exact .nil
  | cons hHead _ ih =>
    refine .cons (hImp _ List.mem_cons_self _ List.mem_cons_self hHead) (ih fun x hx y hy => ?_)
    exact hImp x (List.mem_cons_of_mem _ hx) y (List.mem_cons_of_mem _ hy)

theorem map_eq_map_of_forall₂ {γ : Type} {f : α → γ} {g : β → γ} (h : List.Forall₂ P xs ys)
    (hEq : ∀ x y, P x y → g y = f x) : ys.map g = xs.map f := by
  induction h with
  | nil => rfl
  | cons hHead _ ih => rw [List.map_cons, List.map_cons, ih, hEq _ _ hHead]

end Forall₂

end Control
