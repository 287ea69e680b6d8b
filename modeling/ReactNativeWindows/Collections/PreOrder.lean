import Mathlib
import ReactNativeWindows.Collections.ForestOrder

/-! The nodes of a tree in pre-order: each node comes before those within it, and children come in
their order. What a node has before it and after it is known from its parent. -/
namespace Collections.Forest.IsForest

universe u

variable {ι : Type u} {parent : ι → Option ι} {children : ι → List ι}

theorem exists_preOrder (h : IsForest parent children) :
    ∃ order : ι → List ι, ∀ v, order v = v :: (children v).flatMap order := by
  obtain ⟨_, down, hRank⟩ := h.ranked
  have hWell : WellFounded fun c p : ι => c ∈ children p :=
    Subrelation.wf (fun {c p} hMem => (hRank c p ((h.mem_children c p).mp hMem)).2)
      (InvImage.wf down Nat.lt_wfRel.wf)
  refine ⟨hWell.fix fun v ih => v :: (children v).attach.flatMap fun c => ih c.1 c.2, fun v => ?_⟩
  rw [hWell.fix_eq]
  refine congrArg (v :: ·) ?_
  rw [List.flatMap_def, List.flatMap_def]
  exact congrArg List.flatten List.attach_map_val

noncomputable def preOrder (h : IsForest parent children) : ι → List ι := h.exists_preOrder.choose

variable (h : IsForest parent children)

theorem preOrder_eq (v : ι) : h.preOrder v = v :: (children v).flatMap h.preOrder :=
  h.exists_preOrder.choose_spec v

variable {v : ι}

theorem preOrder_leaf (hLeaf : children v = []) : h.preOrder v = [v] := by
  rw [h.preOrder_eq, hLeaf]
  rfl

/-- A property that nodes have when all their children do. -/
theorem children_induction {P : ι → Prop} (hStep : ∀ v, (∀ c ∈ children v, P c) → P v)
    (h : IsForest parent children) (v : ι) : P v := by
  obtain ⟨_, down, hRank⟩ := h.ranked
  induction hDown : down v using Nat.strong_induction_on generalizing v with
  | _ n ih =>
    refine hStep v fun c hMem => ?_
    exact ih (down c) (hDown ▸ (hRank c v ((h.mem_children c v).mp hMem)).2) c rfl

theorem mem_preOrder {x : ι} : x ∈ h.preOrder v ↔ Within parent v x := by
  induction v using h.children_induction with
  | _ v ih =>
    rw [h.preOrder_eq, List.mem_cons, List.mem_flatMap, h.within_iff]
    constructor
    · rintro (rfl | ⟨c, hMem, hx⟩)
      · exact .inl rfl
      · exact .inr ⟨c, hMem, (ih c hMem).mp hx⟩
    · rintro (rfl | ⟨c, hMem, hx⟩)
      · exact .inl rfl
      · exact .inr ⟨c, hMem, (ih c hMem).mpr hx⟩

theorem nodup_preOrder (v : ι) : (h.preOrder v).Nodup := by
  induction v using h.children_induction with
  | _ v ih =>
    rw [h.preOrder_eq, List.nodup_cons, List.nodup_flatMap]
    refine ⟨fun hMem => ?_, ih, ?_⟩
    · obtain ⟨c, hc, hWithin⟩ := List.mem_flatMap.mp hMem
      exact h.not_within_child hc (h.mem_preOrder.mp hWithin)
    · refine (h.nodup v).imp_of_mem fun hc hd hNe x hx hy => hNe ?_
      exact h.eq_of_within_children hc hd (h.mem_preOrder.mp hx) (h.mem_preOrder.mp hy)

variable [DecidableEq ι]

theorem exists_afterNode : ∃ after : ι → List ι, (∀ v, parent v = none → after v = []) ∧
    ∀ c p, parent c = some p →
      after c = ((children p).drop ((children p).idxOf c + 1)).flatMap h.preOrder ++ after p :=
  h.exists_of_parent [] fun c p above =>
    ((children p).drop ((children p).idxOf c + 1)).flatMap h.preOrder ++ above

theorem exists_beforeNode : ∃ before : ι → List ι, (∀ v, parent v = none → before v = []) ∧
    ∀ c p, parent c = some p →
      before c = before p ++ p :: ((children p).take ((children p).idxOf c)).flatMap h.preOrder :=
  h.exists_of_parent [] fun c p above =>
    above ++ p :: ((children p).take ((children p).idxOf c)).flatMap h.preOrder

noncomputable def afterNode : ι → List ι := h.exists_afterNode.choose

noncomputable def beforeNode : ι → List ι := h.exists_beforeNode.choose

theorem afterNode_of_none (hNone : parent v = none) : h.afterNode v = [] :=
  h.exists_afterNode.choose_spec.1 v hNone

variable {c p : ι}

theorem afterNode_of_parent (hParent : parent c = some p) : h.afterNode c =
    ((children p).drop ((children p).idxOf c + 1)).flatMap h.preOrder ++ h.afterNode p :=
  h.exists_afterNode.choose_spec.2 c p hParent

theorem beforeNode_of_none (hNone : parent v = none) : h.beforeNode v = [] :=
  h.exists_beforeNode.choose_spec.1 v hNone

theorem beforeNode_of_parent (hParent : parent c = some p) : h.beforeNode c =
    h.beforeNode p ++ p :: ((children p).take ((children p).idxOf c)).flatMap h.preOrder :=
  h.exists_beforeNode.choose_spec.2 c p hParent

include h in
theorem idxOf_lt (hParent : parent c = some p) : (children p).idxOf c < (children p).length :=
  List.idxOf_lt_length_iff.mpr ((h.mem_children c p).mpr hParent)

theorem preOrder_split {top : ι} (hTop : parent top = none) (hWithin : Within parent top v) :
    h.preOrder top = h.beforeNode v ++ h.preOrder v ++ h.afterNode v := by
  refine hWithin.induction (P := fun v =>
    h.preOrder top = h.beforeNode v ++ h.preOrder v ++ h.afterNode v) ?_ fun c p hParent _ ih => ?_
  · simp [h.beforeNode_of_none hTop, h.afterNode_of_none hTop]
  · have hLt := h.idxOf_lt hParent
    have hSelf : (children p)[(children p).idxOf c] = c := List.getElem_idxOf hLt
    have hCut : children p = (children p).take ((children p).idxOf c) ++
        c :: (children p).drop ((children p).idxOf c + 1) := by
      conv_lhs => rw [← List.take_append_drop ((children p).idxOf c) (children p),
        List.drop_eq_getElem_cons hLt, hSelf]
    have hFlat : (children p).flatMap h.preOrder =
        ((children p).take ((children p).idxOf c)).flatMap h.preOrder ++ (h.preOrder c ++
          ((children p).drop ((children p).idxOf c + 1)).flatMap h.preOrder) := by
      conv_lhs => rw [hCut]
      rw [List.flatMap_append, List.flatMap_cons]
    rw [ih, h.preOrder_eq p, hFlat, h.beforeNode_of_parent hParent, h.afterNode_of_parent hParent]
    simp

/-- A node with children is followed by the first of them. -/
theorem preOrder_append_after {cs : List ι} (hChildren : children v = c :: cs) :
    h.preOrder v ++ h.afterNode v = v :: (h.preOrder c ++ h.afterNode c) := by
  have hParent : parent c = some v := (h.mem_children c v).mp (hChildren ▸ List.mem_cons_self)
  rw [h.preOrder_eq v, h.afterNode_of_parent hParent, hChildren]
  simp

theorem afterNode_of_sibling {s : ι} (hParent : parent c = some p)
    (hNext : (children p)[(children p).idxOf c + 1]? = some s) :
    h.afterNode c = h.preOrder s ++ h.afterNode s := by
  obtain ⟨hLt, hs⟩ := List.getElem?_eq_some_iff.mp hNext
  have hMem : s ∈ children p := List.mem_of_getElem? hNext
  have hIdx : (children p).idxOf s = (children p).idxOf c + 1 := by
    rw [← hs]
    exact (h.nodup p).idxOf_getElem _ hLt
  rw [h.afterNode_of_parent hParent, h.afterNode_of_parent ((h.mem_children s p).mp hMem), hIdx,
    List.drop_eq_getElem_cons hLt, hs, List.flatMap_cons, List.append_assoc]

theorem afterNode_of_last (hParent : parent c = some p)
    (hNext : (children p)[(children p).idxOf c + 1]? = none) : h.afterNode c = h.afterNode p := by
  rw [h.afterNode_of_parent hParent, List.drop_eq_nil_of_le (List.getElem?_eq_none_iff.mp hNext)]
  rfl

theorem beforeNode_of_first (hParent : parent c = some p) (hFirst : (children p).idxOf c = 0) :
    h.beforeNode c = h.beforeNode p ++ [p] := by
  rw [h.beforeNode_of_parent hParent, hFirst]
  simp

theorem beforeNode_of_sibling {s : ι} {i : ℕ} (hParent : parent c = some p)
    (hIdx : (children p).idxOf c = i + 1) (hPrevious : (children p)[i]? = some s) :
    h.beforeNode c = h.beforeNode s ++ h.preOrder s := by
  obtain ⟨hLt, hs⟩ := List.getElem?_eq_some_iff.mp hPrevious
  have hMem : s ∈ children p := List.mem_of_getElem? hPrevious
  have hOwn : (children p).idxOf s = i := by
    rw [← hs]
    exact (h.nodup p).idxOf_getElem _ hLt
  rw [h.beforeNode_of_parent hParent, h.beforeNode_of_parent ((h.mem_children s p).mp hMem), hIdx, hOwn,
    List.take_succ_eq_append_getElem hLt, hs]
  simp

/-- The nodes within a last child come last. -/
theorem beforeNode_of_last (hLast : (children v).getLast? = some c) :
    h.beforeNode v ++ h.preOrder v = h.beforeNode c ++ h.preOrder c := by
  obtain ⟨cs, hChildren⟩ := List.getLast?_eq_some_iff.mp hLast
  have hMem : c ∈ children v := List.mem_of_getLast? hLast
  have hNew : c ∉ cs := by
    intro hIn
    have hNodup := h.nodup v
    rw [hChildren] at hNodup
    exact List.disjoint_of_nodup_append hNodup hIn (List.mem_singleton_self c)
  have hIdx : (children v).idxOf c = cs.length := by
    rw [hChildren, List.idxOf_append_of_notMem hNew, List.idxOf_cons_self, Nat.add_zero]
  rw [h.beforeNode_of_parent ((h.mem_children c v).mp hMem), hIdx, h.preOrder_eq v, hChildren,
    List.take_left]
  simp

end Collections.Forest.IsForest
