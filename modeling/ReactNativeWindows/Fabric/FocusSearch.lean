import ReactNativeWindows.Fabric.ComponentTree
import ReactNativeWindows.Fabric.RootComponentView

/-! What the search for focusable views finds, what handlers leave, and which root is answered. -/
namespace Fabric

open Collections Collections.Forest Control

universe u

variable {ι Θ : Type u} [DecidableEq ι] {answers : FocusAnswers ι} {views next : Views ι Θ} {fuel : ℕ}

variable {find : ι → Option (Option ι)} {result : Option ι}

omit [DecidableEq ι] in
theorem firstFound_spec {vs : List ι} (h : firstFound find vs = some result) :
    (∀ x, result = some x → ∃ v ∈ vs, find v = some (some x)) ∧
      (result = none → ∀ v ∈ vs, find v = some none) := by
  induction vs with
  | nil =>
    cases h
    exact ⟨nofun, fun _ => nofun⟩
  | cons v vs ih =>
    rw [firstFound] at h
    obtain ⟨found, hFind, h⟩ := Option.bind_eq_some_iff.mp h
    cases found with
    | some x =>
      cases h
      refine ⟨fun y hy => ?_, nofun⟩
      cases hy
      exact ⟨v, List.mem_cons_self, hFind⟩
    | none =>
      obtain ⟨hSome, hNone⟩ := ih h
      constructor
      · intro x hx
        obtain ⟨w, hMem, hw⟩ := hSome x hx
        exact ⟨w, List.mem_cons_of_mem v hMem, hw⟩
      · intro hx w hw
        rcases List.mem_cons.mp hw with rfl | hw
        · exact hFind
        · exact hNone hx w hw

omit [DecidableEq ι] in
theorem exists_firstFound {vs : List ι} (h : ∀ v ∈ vs, ∃ found, find v = some found) :
    ∃ found, firstFound find vs = some found := by
  induction vs with
  | nil => exact ⟨none, rfl⟩
  | cons v vs ih =>
    obtain ⟨found, hFind⟩ := h v List.mem_cons_self
    rw [firstFound, hFind]
    cases found with
    | some x => exact ⟨some x, rfl⟩
    | none => exact ih fun w hw => h w (List.mem_cons_of_mem v hw)

def Focusable (answers : FocusAnswers ι) (views : Views ι Θ) (v : ι) : Prop :=
  ∃ x, Within views.parent v x ∧ answers.focusable x = true

variable (hForest : IsForest views.parent views.children)
include hForest

variable {reason : FocusNavigationReason}

omit [DecidableEq ι] in
/-- The search finds something within the view that takes focus, unless nothing does. -/
theorem navigateFocusHelper_spec (hReason : reason ≠ .restore) {v : ι}
    (h : navigateFocusHelper answers views reason fuel v = some result) :
    (∀ x, result = some x → Within views.parent v x ∧ answers.focusable x = true) ∧
      (result = none → ¬Focusable answers views v) := by
  induction fuel generalizing v result with
  | zero => cases h
  | succ fuel ih =>
    rw [navigateFocusHelper] at h
    split at h
    · rename_i hFirst
      cases h
      refine ⟨fun x hx => ?_, nofun⟩
      cases hx
      exact ⟨.refl v, hFirst.2⟩
    rename_i hNotFirst
    obtain ⟨found, hFound, h⟩ := Option.bind_eq_some_iff.mp h
    have hMem : ∀ c, c ∈ (if reason = .first then (views v).m_children
        else (views v).m_children.reverse) ↔ views.parent c = some v := by
      intro c
      rw [← hForest.mem_children]
      split
      · rfl
      · exact List.mem_reverse
    obtain ⟨hSome, hNone⟩ := firstFound_spec hFound
    cases found with
    | some x =>
      cases h
      refine ⟨fun y hy => ?_, nofun⟩
      cases hy
      obtain ⟨c, hc, hx⟩ := hSome x rfl
      obtain ⟨hWithin, hFocusable⟩ := (ih hx).1 x rfl
      exact ⟨(Within.of_parent ((hMem c).mp hc)).trans hWithin, hFocusable⟩
    | none =>
      simp only at h
      split at h
      · rename_i hLast
        cases h
        refine ⟨fun x hx => ?_, nofun⟩
        cases hx
        exact ⟨.refl v, hLast.2⟩
      rename_i hNotLast
      cases h
      refine ⟨nofun, fun _ ⟨x, hWithin, hFocusable⟩ => ?_⟩
      rcases hForest.within_iff.mp hWithin with rfl | ⟨c, hc, hBelow⟩
      · cases reason with
        | restore => exact hReason rfl
        | first => exact hNotFirst ⟨rfl, hFocusable⟩
        | last => exact hNotLast ⟨rfl, hFocusable⟩
      · have hSearched := hNone rfl c ((hMem c).mpr ((hForest.mem_children c v).mp hc))
        exact (ih hSearched).2 rfl ⟨x, hBelow, hFocusable⟩

variable {down : ι → ℕ}

omit [DecidableEq ι] in
theorem exists_navigateFocusHelper (hDown : ∀ c p, views.parent c = some p → down c < down p)
    {v : ι} (hFuel : down v < fuel) :
    ∃ found, navigateFocusHelper answers views reason fuel v = some found := by
  induction fuel generalizing v with
  | zero => exact absurd hFuel (Nat.not_lt_zero _)
  | succ fuel ih =>
    rw [navigateFocusHelper]
    split
    · exact ⟨_, rfl⟩
    have hChildren : ∀ c ∈ (if reason = .first then (views v).m_children
        else (views v).m_children.reverse),
        ∃ found, navigateFocusHelper answers views reason fuel c = some found := by
      intro c hc
      have hMem : c ∈ views.children v := by
        split at hc
        · exact hc
        · exact List.mem_reverse.mp hc
      have hLt := hDown c v ((hForest.mem_children c v).mp hMem)
      exact ih (Nat.lt_of_lt_of_le hLt (Nat.le_of_lt_succ hFuel))
    obtain ⟨found, hFound⟩ := exists_firstFound hChildren
    simp only [hFound, Option.bind_eq_bind, Option.bind_some]
    cases found with
    | some x => exact ⟨_, rfl⟩
    | none =>
      simp only
      split
      · exact ⟨_, rfl⟩
      · exact ⟨_, rfl⟩

omit hForest

/-- The requests of handlers end with a component in the tree: one that a handler sets, or what there
was before, if it is settled, or what a handler that cancels goes back to, if it may be kept. -/
def Settles (found : ι → Prop) (kept : Prop) : Prop → List (FocusRequest ι) → Prop
  | settled, [] => settled
  | _, .tryCancel :: requests => Settles found kept kept requests
  | settled, .trySetNewFocusedComponent v :: requests =>
    Settles found kept (settled ∨ found v) requests

variable {requests : List (FocusRequest ι)}

omit [DecidableEq ι] in
theorem Settles.imp {found found' : ι → Prop} {kept settled settled' : Prop}
    (h : Settles found kept settled requests)
    (hFound : ∀ v, .trySetNewFocusedComponent v ∈ requests → found v → found' v)
    (hSettled : settled → settled') : Settles found' kept settled' requests := by
  induction requests generalizing settled settled' with
  | nil => exact hSettled h
  | cons request requests ih =>
    have hRest : ∀ v, .trySetNewFocusedComponent v ∈ requests → found v → found' v :=
      fun v hv => hFound v (List.mem_cons_of_mem request hv)
    cases request with
    | tryCancel => exact ih h hRest id
    | trySetNewFocusedComponent v =>
      exact ih h hRest (Or.imp hSettled (hFound v List.mem_cons_self))

omit [DecidableEq ι] in
theorem settles_true (found : ι → Prop) (requests : List (FocusRequest ι)) :
    Settles found True True requests := by
  induction requests with
  | nil => trivial
  | cons request requests ih =>
    cases request with
    | tryCancel => exact ih
    | trySetNewFocusedComponent v => exact ih.imp (fun _ _ h => h) Or.inl

include hForest

omit [DecidableEq ι] in
/-- What the handlers leave is as it should be when the requests settle. -/
theorem newFocusedComponent_spec {ok : Option ι → Prop} {top : ι} {old new : Option ι}
    {kept settled : Prop}
    (hRequests : ∀ v, .trySetNewFocusedComponent v ∈ requests → Within views.parent top v)
    (hTop : ∀ x, Within views.parent top x → ok (some x)) (hOld : kept → ok old)
    (hNew : settled → ok new) (hSettles : Settles (Focusable answers views) kept settled requests)
    (h : newFocusedComponent answers views fuel old requests new = some result) : ok result := by
  induction requests generalizing new settled with
  | nil =>
    cases h
    exact hNew hSettles
  | cons request requests ih =>
    rw [newFocusedComponent, List.foldlM_cons] at h
    obtain ⟨next, hNext, hTail⟩ := Option.bind_eq_some_iff.mp h
    have hRest := fun v hv => hRequests v (List.mem_cons_of_mem request hv)
    cases request with
    | tryCancel =>
      cases hNext
      exact ih hRest hOld hSettles hTail
    | trySetNewFocusedComponent v =>
      have hAsked := hRequests v List.mem_cons_self
      refine ih hRest (fun hOr => ?_) hSettles hTail
      rw [FocusRequest.newFocusedComponent] at hNext
      split at hNext
      · cases hNext
        exact hTop v hAsked
      obtain ⟨found, hFound, hNext⟩ := Option.bind_eq_some_iff.mp hNext
      have hFirst : FocusNavigationReason.first ≠ .restore := nofun
      obtain ⟨hSome, hNone⟩ := navigateFocusHelper_spec hForest hFirst hFound
      cases found with
      | some x =>
        cases hNext
        exact hTop x (hAsked.trans (hSome x rfl).1)
      | none =>
        cases hNext
        exact hNew (hOr.resolve_right (hNone rfl))

omit [DecidableEq ι] in
theorem exists_newFocusedComponent (hDown : ∀ c p, views.parent c = some p → down c < down p)
    {old : Option ι} (new : Option ι)
    (hFuel : ∀ v, .trySetNewFocusedComponent v ∈ requests → down v < fuel) :
    ∃ result, newFocusedComponent answers views fuel old requests new = some result := by
  induction requests generalizing new with
  | nil => exact ⟨new, rfl⟩
  | cons request requests ih =>
    have hRest := fun v hv => hFuel v (List.mem_cons_of_mem request hv)
    have hHead : ∃ next, request.newFocusedComponent answers views fuel old new = some next := by
      cases request with
      | tryCancel => exact ⟨old, rfl⟩
      | trySetNewFocusedComponent v =>
        rw [FocusRequest.newFocusedComponent]
        split
        · exact ⟨_, rfl⟩
        obtain ⟨found, hFound⟩ :=
          exists_navigateFocusHelper hForest hDown (hFuel v List.mem_cons_self)
        rw [findFirstFocusableElement, hFound]
        cases found with
        | some x | none => exact ⟨_, rfl⟩
    obtain ⟨next, hNext⟩ := hHead
    obtain ⟨result, hResult⟩ := ih next hRest
    refine ⟨result, ?_⟩
    rw [newFocusedComponent, List.foldlM_cons, hNext]
    exact hResult

omit hForest

/-- Views remember this root, or none. -/
def Caches (root : ι) (views : Views ι Θ) : Prop :=
  ∀ x r, (views x).m_rootView = some r → r = root

/-- Views in the tree of a root answer it, and others answer it or none. -/
theorem rootComponentView_own {root v : ι} {found : Option ι} (hCaches : Caches root views)
    (h : rootComponentView (· = root) fuel v views = some (found, next)) :
    Caches root next ∧ (∀ r, found = some r → r = root) ∧
      (Within views.parent root v → found = some root) := by
  induction fuel generalizing v found next with
  | zero => cases h
  | succ fuel ih =>
    rw [rootComponentView] at h
    split at h
    · rename_i hOwn
      cases h
      rw [decide_eq_true_iff] at hOwn
      refine ⟨hCaches, fun r hr => ?_, fun _ => congrArg some hOwn⟩
      rw [← hOwn]
      exact (Option.some.inj hr).symm
    rename_i hOwn
    rw [decide_eq_true_iff] at hOwn
    split at h
    · rename_i r hRemembered
      cases h
      refine ⟨hCaches, fun r hr => ?_, fun _ => congrArg some (hCaches v _ hRemembered)⟩
      cases hr
      exact hCaches v r hRemembered
    split at h
    · rename_i hNone
      cases h
      refine ⟨hCaches, fun r hSome => (by cases hSome), fun hWithin => ?_⟩
      exact absurd (hWithin.eq_of_parent_none hNone).symm hOwn
    rename_i parent hParent
    obtain ⟨⟨above, asked⟩, hAbove, h⟩ := Option.bind_eq_some_iff.mp h
    cases h
    obtain ⟨hCachesAbove, hRoot, hWithinAbove⟩ := ih hAbove
    refine ⟨fun x r hr => ?_, hRoot, fun hWithin => ?_⟩
    · by_cases hEq : x = v
      · rw [hEq, Function.update_self] at hr
        exact hRoot r hr
      · rw [Function.update_of_ne hEq] at hr
        exact hCachesAbove x r hr
    · obtain ⟨p, hp, hUp⟩ := hWithin.of_ne hOwn
      have hSome : views.parent v = some parent := hParent
      rw [hSome] at hp
      cases hp
      exact hWithinAbove hUp

/-- A view within another one is asked with fuel for what lies between and above. -/
theorem exists_rootComponentView_within {isRoot : ι → Bool} {up : ι → ℕ}
    (hRank : ∀ c p, views.parent c = some p → up p < up c ∧ down c < down p) {top x : ι}
    (hWithin : Within views.parent top x) (hFuel : up top + down top < fuel + down x) :
    ∃ result, rootComponentView isRoot fuel x views = some result := by
  induction fuel generalizing x with
  | zero =>
    have hLe : down x ≤ down top := hWithin.induction (P := fun x => down x ≤ down top)
      (Nat.le_refl _) fun c p hParent _ ih => Nat.le_trans (Nat.le_of_lt (hRank c p hParent).2) ih
    omega
  | succ fuel ih =>
    by_cases hEq : x = top
    · subst hEq
      exact exists_rootComponentView (fun c p hParent => (hRank c p hParent).1) (by omega)
    obtain ⟨p, hParent, hUp⟩ := hWithin.of_ne hEq
    rw [rootComponentView]
    split
    · exact ⟨_, rfl⟩
    split
    · exact ⟨_, rfl⟩
    split
    · exact ⟨_, rfl⟩
    rename_i parent hOwn
    have hSame : views.parent x = some parent := hOwn
    rw [hParent] at hSame
    cases hSame
    have hDown := (hRank x p hParent).2
    obtain ⟨⟨above, asked⟩, hAbove⟩ := ih hUp (by omega)
    exact ⟨_, by rw [hAbove]; rfl⟩

end Fabric
