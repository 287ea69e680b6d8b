import Mathlib.Data.List.Nodup
import Mathlib.Data.List.Perm.Basic

/-! Trees whose nodes know their parents and their children, and walks over all nodes within one. -/
namespace Collections.Forest

universe u v

variable {ι : Type u}

/-- The node is reached from the top, which may be the node itself. -/
def Within (parent : ι → Option ι) (top x : ι) : Prop :=
  Relation.ReflTransGen (fun a b => parent a = some b) x top

/-- Parents and children fit together, there are no cycles, and all branches are finite. -/
structure IsForest (parent : ι → Option ι) (children : ι → List ι) : Prop where
  mem_children : ∀ c p, c ∈ children p ↔ parent c = some p
  nodup : ∀ p, (children p).Nodup
  ranked : ∃ up down : ι → ℕ, ∀ c p, parent c = some p → up p < up c ∧ down c < down p

variable {parent : ι → Option ι} {children : ι → List ι}

namespace Within

theorem refl (x : ι) : Within parent x x := Relation.ReflTransGen.refl

theorem trans {top middle x : ι} (h : Within parent top middle) (hBelow : Within parent middle x) :
    Within parent top x :=
  Relation.ReflTransGen.trans hBelow h

theorem of_parent {c p : ι} (h : parent c = some p) : Within parent p c := .single h

/-- Of two nodes above a third one, one is above the other. -/
theorem total {a b x : ι} (ha : Within parent a x) (hb : Within parent b x) :
    Within parent a b ∨ Within parent b a := by
  have hUnique : Relator.RightUnique fun a b => parent a = some b := by
    intro x y z hy hz
    rw [hy] at hz
    exact Option.some.inj hz
  exact (Relation.ReflTransGen.total_of_right_unique hUnique hb ha).imp (fun h => h) fun h => h

/-- Above a node without a parent there is nothing else. -/
theorem eq_of_parent_none {top x : ι} (h : Within parent top x) (hNone : parent x = none) :
    top = x := by
  rcases Relation.ReflTransGen.cases_head h with hEq | ⟨p, hParent, -⟩
  · exact hEq.symm
  · rw [hNone] at hParent
    cases hParent

/-- Above a node that is not the top itself, there is its parent. -/
theorem of_ne {top x : ι} (h : Within parent top x) (hNe : x ≠ top) :
    ∃ p, parent x = some p ∧ Within parent top p := by
  rcases Relation.ReflTransGen.cases_head h with hEq | ⟨p, hParent, hAbove⟩
  · exact absurd hEq hNe
  · exact ⟨p, hParent, hAbove⟩

end Within

/-- What holds of the top and is handed down holds of all nodes within it. -/
theorem Within.induction {P : ι → Prop} {top x : ι} (h : Within parent top x) (hTop : P top)
    (hStep : ∀ c p, parent c = some p → Within parent top p → P p → P c) : P x := by
  induction h using Relation.ReflTransGen.head_induction_on with
  | refl => exact hTop
  | head hParent hAbove ih => exact hStep _ _ hParent hAbove ih

namespace IsForest

/-- A node is not within its own child. -/
theorem not_within_parent (h : IsForest parent children) {c p : ι} (hParent : parent c = some p) :
    ¬Within parent c p := by
  obtain ⟨up, down, hRank⟩ := h.ranked
  intro hWithin
  have hLe : up c ≤ up p := hWithin.induction (P := fun x => up c ≤ up x) (Nat.le_refl _)
    fun a b hAbove _ ih => Nat.le_trans ih (Nat.le_of_lt (hRank a b hAbove).1)
  exact absurd (hRank c p hParent).1 (Nat.not_lt.mpr hLe)

/-- Nothing is within two children of a node. -/
theorem eq_of_within_children (h : IsForest parent children) {v c d x : ι} (hc : c ∈ children v)
    (hd : d ∈ children v) (hWithinC : Within parent c x) (hWithinD : Within parent d x) : c = d := by
  by_contra hNe
  rw [h.mem_children] at hc hd
  rcases hWithinC.total hWithinD with hAbove | hAbove
  · obtain ⟨p, hParent, hUp⟩ := hAbove.of_ne (Ne.symm hNe)
    rw [hd] at hParent
    cases hParent
    exact h.not_within_parent hc hUp
  · obtain ⟨p, hParent, hUp⟩ := hAbove.of_ne hNe
    rw [hc] at hParent
    cases hParent
    exact h.not_within_parent hd hUp

theorem within_iff (h : IsForest parent children) {v x : ι} :
    Within parent v x ↔ x = v ∨ ∃ c ∈ children v, Within parent c x := by
  constructor
  · intro hWithin
    rcases Relation.ReflTransGen.cases_tail hWithin with hEq | ⟨c, hBelow, hParent⟩
    · exact .inl hEq.symm
    · exact .inr ⟨c, (h.mem_children c v).mpr hParent, hBelow⟩
  · rintro (rfl | ⟨c, hMem, hWithin⟩)
    · exact .refl x
    · exact (Within.of_parent ((h.mem_children c v).mp hMem)).trans hWithin

theorem not_within_child (h : IsForest parent children) {v c : ι} (hMem : c ∈ children v) :
    ¬Within parent c v :=
  h.not_within_parent ((h.mem_children c v).mp hMem)

variable {parent' : ι → Option ι} {children' : ι → List ι} {c p : ι}

theorem Within_mono (h : ∀ a b, parent a = some b → parent' a = some b) {top x : ι}
    (hWithin : Within parent top x) : Within parent' top x :=
  Relation.ReflTransGen.mono h _ _ hWithin

section Attach

variable (hNone : parent c = none) (hNot : ¬Within parent c p)
  (hParent : ∀ x, x ≠ c → parent' x = parent x) (hNew : parent' c = some p)

include hNone hParent hNew in
theorem within_attach (top x : ι) : Within parent' top x ↔
    Within parent top x ∨ (Within parent c x ∧ Within parent top p) := by
  have hKept : ∀ a b, parent a = some b → parent' a = some b := by
    intro a b hAbove
    rw [hParent a, hAbove]
    rintro rfl
    rw [hNone] at hAbove
    cases hAbove
  constructor
  · intro hWithin
    induction hWithin using Relation.ReflTransGen.head_induction_on with
    | refl => exact .inl (.refl top)
    | @head a b hAbove _ ih =>
      by_cases hEq : a = c
      · rw [hEq, hNew] at hAbove
        cases hAbove
        rw [hEq]
        exact .inr ⟨.refl c, ih.elim id fun hBoth => hBoth.2⟩
      · rw [hParent a hEq] at hAbove
        have hBelow := Within.of_parent hAbove
        exact ih.imp (fun hTop => hTop.trans hBelow) fun hBoth => ⟨hBoth.1.trans hBelow, hBoth.2⟩
  · rintro (hWithin | ⟨hBelow, hAbove⟩)
    · exact Within_mono hKept hWithin
    · exact ((Within_mono hKept hAbove).trans (.of_parent hNew)).trans (Within_mono hKept hBelow)

include hNone hNot hParent hNew in
theorem attach (h : IsForest parent children) (hOwn : (children' p).Perm (c :: children p))
    (hOther : ∀ x, x ≠ p → children' x = children x) : IsForest parent' children' := by
  classical
  constructor
  · intro x y
    by_cases hy : y = p
    · rw [hy, hOwn.mem_iff, List.mem_cons, h.mem_children]
      by_cases hx : x = c
      · simp [hx, hNew]
      · simp [hx, hParent x hx]
    · rw [hOther y hy, h.mem_children]
      by_cases hx : x = c
      · simp [hx, hNew, hNone, Ne.symm hy]
      · rw [hParent x hx]
  · intro y
    by_cases hy : y = p
    · rw [hy, hOwn.nodup_iff, List.nodup_cons, h.mem_children, hNone]
      exact ⟨nofun, h.nodup p⟩
    · rw [hOther y hy]
      exact h.nodup y
  · obtain ⟨up, down, hRank⟩ := h.ranked
    -- what is within `c` goes further down, and what is above `p` further up
    refine ⟨fun x => up x + if Within parent c x then up p + 1 else 0,
      fun x => down x + if Within parent x p then down c + 1 else 0, fun a b hAbove => ?_⟩
    by_cases hEq : a = c
    · rw [hEq, hNew] at hAbove
      cases hAbove
      rw [hEq]
      simp only [if_neg hNot, if_pos (Within.refl c : Within parent c c),
        if_pos (Within.refl p : Within parent p p)]
      omega
    · rw [hParent a hEq] at hAbove
      obtain ⟨hUp, hDown⟩ := hRank a b hAbove
      have hSame : Within parent c a ↔ Within parent c b := by
        constructor
        · intro hWithin
          obtain ⟨d, hd, hTop⟩ := hWithin.of_ne hEq
          rw [hAbove] at hd
          cases hd
          exact hTop
        · exact fun hWithin => hWithin.trans (.of_parent hAbove)
      have hUpper : Within parent a p → Within parent b p := (Within.of_parent hAbove).trans
      simp only [hSame]
      split_ifs with hOne hTwo hThree <;> first
        | omega
        | exact absurd (hUpper hTwo) hThree
        | exact absurd (hUpper ‹_›) ‹_›

end Attach

section Detach

variable (hOld : parent c = some p) (hParent : ∀ x, x ≠ c → parent' x = parent x)
  (hNone : parent' c = none)

include hParent hNone in
theorem parent_of_detach {a b : ι} (h : parent' a = some b) : a ≠ c ∧ parent a = some b := by
  by_cases hEq : a = c
  · rw [hEq, hNone] at h
    cases h
  · exact ⟨hEq, hParent a hEq ▸ h⟩

include hParent hNone in
theorem within_detach (h : IsForest parent children) (top x : ι) : Within parent' top x ↔
    Within parent top x ∧ (Within parent c x → Within parent c top) := by
  constructor
  · intro hWithin
    induction hWithin using Relation.ReflTransGen.head_induction_on with
    | refl => exact ⟨.refl top, id⟩
    | @head a b hAbove _ ih =>
      obtain ⟨hNe, hUp⟩ := parent_of_detach hParent hNone hAbove
      refine ⟨ih.1.trans (.of_parent hUp), fun hWithin => ih.2 ?_⟩
      obtain ⟨d, hd, hTop⟩ := hWithin.of_ne hNe
      rw [hUp] at hd
      cases hd
      exact hTop
  · rintro ⟨hWithin, hInside⟩
    induction hWithin using Relation.ReflTransGen.head_induction_on with
    | refl => exact .refl top
    | @head a b hAbove hRest ih =>
      have hNe : a ≠ c := by
        rintro rfl
        exact h.not_within_parent hAbove ((hInside (.refl a)).trans hRest)
      have hUp : parent' a = some b := hParent a hNe ▸ hAbove
      exact (ih fun hBelow => hInside (hBelow.trans (.of_parent hAbove))).trans (.of_parent hUp)

include hOld hParent hNone in
theorem detach (h : IsForest parent children) (hOwn : (c :: children' p).Perm (children p))
    (hOther : ∀ x, x ≠ p → children' x = children x) : IsForest parent' children' := by
  have hNodup : (c :: children' p).Nodup := hOwn.nodup_iff.mpr (h.nodup p)
  constructor
  · intro x y
    by_cases hy : y = p
    · have hMem : x ∈ c :: children' p ↔ parent x = some p := by
        rw [hOwn.mem_iff, h.mem_children]
      rw [hy]
      by_cases hx : x = c
      · rw [hx, hNone]
        exact ⟨fun hIn => absurd hIn (List.nodup_cons.mp hNodup).1, nofun⟩
      · rw [hParent x hx, ← hMem, List.mem_cons]
        exact (or_iff_right hx).symm
    · rw [hOther y hy, h.mem_children]
      by_cases hx : x = c
      · simp [hx, hNone, hOld, Ne.symm hy]
      · rw [hParent x hx]
  · intro y
    by_cases hy : y = p
    · exact hy ▸ (List.nodup_cons.mp hNodup).2
    · rw [hOther y hy]
      exact h.nodup y
  · obtain ⟨up, down, hRank⟩ := h.ranked
    exact ⟨up, down, fun a b hAbove => hRank a b (parent_of_detach hParent hNone hAbove).2⟩

end Detach

end IsForest

variable {γ : Type v} [DecidableEq ι]

/-- Enters the cell of a node, walks its children and leaves the cell; a cell that is not entered
ends the walk there. `none` says that fuel gave out. -/
def walk (children : γ → List ι) (enter : γ → Option γ) (leave : γ → γ) :
    ℕ → ι → (ι → γ) → Option (ι → γ)
  | 0, _, _ => none
  | fuel + 1, v, s =>
    match enter (s v) with
    | none => some s
    | some cell => do
      let s ← (children cell).foldlM (fun s c => walk children enter leave fuel c s)
        (Function.update s v cell)
      return Function.update s v (leave (s v))

section Walk

variable {kids : γ → List ι} {enter : γ → Option γ} {leave : γ → γ}
  (hEnter : ∀ cell next, enter cell = some next → kids next = kids cell)
  (hLeave : ∀ cell, kids (leave cell) = kids cell)

def walkChild (kids : γ → List ι) (enter : γ → Option γ) (leave : γ → γ) (fuel : ℕ) (s : ι → γ)
    (c : ι) : Option (ι → γ) :=
  walk kids enter leave fuel c s

theorem walk_succ (fuel : ℕ) (v : ι) (s : ι → γ) : walk kids enter leave (fuel + 1) v s =
    match enter (s v) with
    | none => some s
    | some cell => ((kids cell).foldlM (walkChild kids enter leave fuel)
        (Function.update s v cell)).map fun t => Function.update t v (leave (t v)) := by
  rw [walk]
  cases enter (s v) with
  | none => rfl
  | some cell =>
    show ((kids cell).foldlM (walkChild kids enter leave fuel) (Function.update s v cell)).bind
      (fun t => some (Function.update t v (leave (t v)))) = Option.map _ _
    cases (kids cell).foldlM (walkChild kids enter leave fuel) (Function.update s v cell) <;> rfl

variable {fuel : ℕ}

include hEnter hLeave in
theorem walk_kids {v : ι} {s t : ι → γ} (h : walk kids enter leave fuel v s = some t) (x : ι) :
    kids (t x) = kids (s x) := by
  induction fuel generalizing v s t with
  | zero => cases h
  | succ fuel ih =>
    rw [walk_succ] at h
    cases hCell : enter (s v) with
    | none =>
      rw [hCell] at h
      cases h
      rfl
    | some cell =>
      rw [hCell] at h
      obtain ⟨u, hFold, rfl⟩ := Option.map_eq_some_iff.mp h
      have hLoop : ∀ (cs : List ι) (s t : ι → γ),
          cs.foldlM (walkChild kids enter leave fuel) s = some t → kids (t x) = kids (s x) := by
        intro cs
        induction cs with
        | nil =>
          intro s t hEnd
          cases hEnd
          rfl
        | cons c cs ihs =>
          intro s t hRun
          rw [List.foldlM_cons] at hRun
          obtain ⟨next, hNext, hRest⟩ := Option.bind_eq_some_iff.mp hRun
          rw [ihs next t hRest, ih hNext]
      have hUpdate : ∀ (s : ι → γ) (cell : γ), kids cell = kids (s v) →
          kids (Function.update s v cell x) = kids (s x) := by
        intro s cell hCells
        by_cases hEq : x = v
        · rw [hEq, Function.update_self, hCells]
        · rw [Function.update_of_ne hEq]
      rw [hUpdate _ _ (hLeave _), hLoop _ _ _ hFold, hUpdate _ _ (hEnter _ _ hCell)]

variable (hForest : IsForest parent children)

include hEnter hLeave hForest in
/-- With fuel for the depth of a node, the walk ends. -/
theorem exists_walk {down : ι → ℕ} (hDown : ∀ c p, parent c = some p → down c < down p) {v : ι}
    {s : ι → γ} (hKids : ∀ x, kids (s x) = children x) (hFuel : down v < fuel) :
    ∃ t, walk kids enter leave fuel v s = some t := by
  induction fuel generalizing v s with
  | zero => exact absurd hFuel (Nat.not_lt_zero _)
  | succ fuel ih =>
    rw [walk_succ]
    cases hCell : enter (s v) with
    | none => exact ⟨s, rfl⟩
    | some cell =>
      have hLoop : ∀ (cs : List ι), (∀ c ∈ cs, c ∈ children v) → ∀ s : ι → γ,
          (∀ x, kids (s x) = children x) →
            ∃ t, cs.foldlM (walkChild kids enter leave fuel) s = some t := by
        intro cs
        induction cs with
        | nil => exact fun _ s _ => ⟨s, rfl⟩
        | cons c cs ihs =>
          intro hMem s hSame
          have hChild := (hForest.mem_children c v).mp (hMem c List.mem_cons_self)
          obtain ⟨next, hNext⟩ := ih hSame
            (Nat.lt_of_lt_of_le (hDown c v hChild) (Nat.le_of_lt_succ hFuel))
          obtain ⟨t, hRest⟩ := ihs (fun d hd => hMem d (List.mem_cons_of_mem c hd)) next
            fun x => (walk_kids hEnter hLeave hNext x).trans (hSame x)
          refine ⟨t, ?_⟩
          rw [List.foldlM_cons]
          exact Option.bind_eq_some_iff.mpr ⟨next, hNext, hRest⟩
      have hCellKids : kids cell = children v := (hEnter _ _ hCell).trans (hKids v)
      have hStart : ∀ x, kids (Function.update s v cell x) = children x := by
        intro x
        by_cases hEq : x = v
        · rw [hEq, Function.update_self, hCellKids]
        · rw [Function.update_of_ne hEq, hKids]
      obtain ⟨t, hFold⟩ := hLoop (kids cell) (fun c hc => hCellKids ▸ hc) _ hStart
      exact ⟨_, by simp only [hFold]; rfl⟩

include hEnter hLeave hForest in
/-- What a walk does to each node within the one where it starts, given what it does to a cell that is
entered and what holds within a node that is not. -/
theorem walk_spec {R : ι → γ → γ → Prop} {s₀ : ι → γ} {top : ι}
    (hVisit : ∀ x cell, Within parent top x → enter (s₀ x) = some cell → R x (s₀ x) (leave cell))
    (hSkip : ∀ x, Within parent top x → enter (s₀ x) = none →
      ∀ y, Within parent x y → R y (s₀ y) (s₀ y)) {v : ι} {s t : ι → γ} (hTop : Within parent top v)
    (hKids : ∀ x, kids (s x) = children x) (hSame : ∀ x, Within parent v x → s x = s₀ x)
    (h : walk kids enter leave fuel v s = some t) :
    (∀ x, ¬Within parent v x → t x = s x) ∧ ∀ x, Within parent v x → R x (s₀ x) (t x) := by
  induction fuel generalizing v s t with
  | zero => cases h
  | succ fuel ih =>
    rw [walk_succ] at h
    have hOwn := hSame v (.refl v)
    cases hCell : enter (s v) with
    | none =>
      rw [hCell] at h
      cases h
      refine ⟨fun _ _ => rfl, fun x hx => ?_⟩
      rw [hSame x hx]
      exact hSkip v hTop (hOwn ▸ hCell) x hx
    | some cell =>
      rw [hCell] at h
      obtain ⟨u, hFold, rfl⟩ := Option.map_eq_some_iff.mp h
      have hLoop : ∀ (cs : List ι), cs.Nodup → (∀ c ∈ cs, c ∈ children v) → ∀ s t : ι → γ,
          (∀ x, kids (s x) = children x) → (∀ c ∈ cs, ∀ x, Within parent c x → s x = s₀ x) →
          cs.foldlM (walkChild kids enter leave fuel) s = some t →
            (∀ x, (∀ c ∈ cs, ¬Within parent c x) → t x = s x) ∧
              ∀ c ∈ cs, ∀ x, Within parent c x → R x (s₀ x) (t x) := by
        intro cs
        induction cs with
        | nil =>
          intro _ _ s t _ _ hEnd
          cases hEnd
          exact ⟨fun _ _ => rfl, nofun⟩
        | cons c cs ihs =>
          intro hNodup hMem s t hKidsS hSameS hRun
          rw [List.foldlM_cons] at hRun
          obtain ⟨next, hNext, hRest⟩ := Option.bind_eq_some_iff.mp hRun
          obtain ⟨hNew, hNodup⟩ := List.nodup_cons.mp hNodup
          have hOthers : ∀ d ∈ cs, ∀ x, Within parent d x → ¬Within parent c x := by
            intro d hd x hWithinD hWithinC
            have hEq := hForest.eq_of_within_children (hMem c List.mem_cons_self)
              (hMem d (List.mem_cons_of_mem c hd)) hWithinC hWithinD
            exact hNew (hEq ▸ hd)
          have hChild := (hForest.mem_children c v).mp (hMem c List.mem_cons_self)
          obtain ⟨hOutside, hInside⟩ := ih (hTop.trans (.of_parent hChild)) hKidsS
            (fun x hx => hSameS c List.mem_cons_self x hx) hNext
          have hKidsNext : ∀ x, kids (next x) = children x :=
            fun x => (walk_kids hEnter hLeave hNext x).trans (hKidsS x)
          obtain ⟨hOutsideCs, hInsideCs⟩ := ihs hNodup
            (fun d hd => hMem d (List.mem_cons_of_mem c hd)) next t hKidsNext
            (fun d hd x hx => (hOutside x (hOthers d hd x hx)).trans
              (hSameS d (List.mem_cons_of_mem c hd) x hx)) hRest
          constructor
          · intro x hx
            rw [hOutsideCs x fun d hd => hx d (List.mem_cons_of_mem c hd),
              hOutside x (hx c List.mem_cons_self)]
          · intro d hd x hx
            rcases List.mem_cons.mp hd with rfl | hd
            · rw [hOutsideCs x fun e he hWithin => hOthers e he x hWithin hx]
              exact hInside x hx
            · exact hInsideCs d hd x hx
      have hCellKids : kids cell = children v := (hEnter _ _ hCell).trans (hKids v)
      have hStart : ∀ x, kids (Function.update s v cell x) = children x := by
        intro x
        by_cases hEq : x = v
        · rw [hEq, Function.update_self, hCellKids]
        · rw [Function.update_of_ne hEq, hKids]
      have hNotTop : ∀ c ∈ children v, ¬Within parent c v :=
        fun c hc => hForest.not_within_child hc
      have hBelow : ∀ c ∈ children v, ∀ x, Within parent c x →
          Function.update s v cell x = s₀ x := by
        intro c hc x hx
        have hNe : x ≠ v := by
          rintro rfl
          exact hNotTop c hc hx
        rw [Function.update_of_ne hNe]
        exact hSame x (hForest.within_iff.mpr (.inr ⟨c, hc, hx⟩))
      obtain ⟨hOutside, hInside⟩ := hLoop (kids cell) (hCellKids ▸ hForest.nodup v)
        (fun c hc => hCellKids ▸ hc) _ _ hStart (fun c hc => hBelow c (hCellKids ▸ hc)) hFold
      rw [hCellKids] at hOutside hInside
      have hEntered : u v = cell := by
        rw [hOutside v hNotTop, Function.update_self]
      constructor
      · intro x hx
        have hNe : x ≠ v := by
          rintro rfl
          exact hx (.refl x)
        rw [Function.update_of_ne hNe, hOutside x, Function.update_of_ne hNe]
        exact fun c hc hWithin => hx (hForest.within_iff.mpr (.inr ⟨c, hc, hWithin⟩))
      · intro x hx
        by_cases hEq : x = v
        · rw [hEq, Function.update_self, hEntered]
          exact hVisit v cell hTop (hOwn ▸ hCell)
        · rw [Function.update_of_ne hEq]
          obtain ⟨c, hc, hWithin⟩ := (hForest.within_iff.mp hx).resolve_left hEq
          exact hInside c hc x hWithin

end Walk
end Collections.Forest
