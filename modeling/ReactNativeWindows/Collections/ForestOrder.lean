import Mathlib.Algebra.GroupWithZero.Nat
import Mathlib.Algebra.BigOperators.Group.List.Basic
import ReactNativeWindows.Collections.Forest

/-! How many nodes come before and after a node, when each node comes before its children and
children come in order. -/
namespace Collections.Forest.IsForest

universe u v

variable {ι : Type u} {parent : ι → Option ι} {children : ι → List ι}

/-- Values that are handed down from parents to children. -/
theorem exists_of_parent {α : Type v} (h : IsForest parent children) (top : α) (step : ι → ι → α → α) :
    ∃ f : ι → α, (∀ c, parent c = none → f c = top) ∧
      ∀ c p, parent c = some p → f c = step c p (f p) := by
  obtain ⟨up, _, hRank⟩ := h.ranked
  have hWell : WellFounded fun p c : ι => parent c = some p :=
    Subrelation.wf (fun {p c} hParent => (hRank c p hParent).1) (InvImage.wf up Nat.lt_wfRel.wf)
  let f : ι → α := hWell.fix fun c ih =>
    match hParent : parent c with
    | none => top
    | some p => step c p (ih p hParent)
  have hf : ∀ c, f c = (parent c).elim top fun p => step c p (f p) := by
    intro c
    show hWell.fix _ c = _
    rw [hWell.fix_eq]
    split
    all_goals
      rename_i hParent
      conv_rhs => rw [hParent]
      rfl
  refine ⟨f, fun c hNone => ?_, fun c p hParent => ?_⟩
  · rw [hf, hNone]
    rfl
  · rw [hf, hParent]
    rfl

/-- The number of nodes within each node. -/
theorem exists_size (h : IsForest parent children) :
    ∃ size : ι → ℕ, ∀ v, size v = 1 + ((children v).map size).sum := by
  obtain ⟨_, down, hRank⟩ := h.ranked
  have hWell : WellFounded fun c p : ι => c ∈ children p :=
    Subrelation.wf (fun {c p} hMem => (hRank c p ((h.mem_children c p).mp hMem)).2)
      (InvImage.wf down Nat.lt_wfRel.wf)
  refine ⟨hWell.fix fun v ih => 1 + ((children v).attach.map fun c => ih c.1 c.2).sum, fun v => ?_⟩
  rw [hWell.fix_eq]
  exact congrArg (fun sizes => 1 + List.sum sizes) List.attach_map_val

variable [DecidableEq ι] (h : IsForest parent children) {size : ι → ℕ}
  (hSize : ∀ v, size v = 1 + ((children v).map size).sum)
include h hSize

/-- The number of nodes that come after all nodes within each node. -/
theorem exists_rest : ∃ rest : ι → ℕ,
    (∀ v c cs, children v = c :: cs → size c + rest c < size v + rest v) ∧
      ∀ c p, parent c = some p →
        (∀ s, (children p)[(children p).idxOf c + 1]? = some s → size s + rest s = rest c) ∧
          ((children p)[(children p).idxOf c + 1]? = none → rest c = rest p) := by
  obtain ⟨rest, -, hRest⟩ := h.exists_of_parent 0
    fun c p above => (((children p).drop ((children p).idxOf c + 1)).map size).sum + above
  refine ⟨rest, fun v c cs hChildren => ?_, fun c p hParent => ⟨fun s hNext => ?_, fun hLast => ?_⟩⟩
  · have hMem : c ∈ children v := hChildren ▸ List.mem_cons_self
    rw [hRest c v ((h.mem_children c v).mp hMem), hSize v, hChildren, List.idxOf_cons_self,
      List.drop_one, List.tail_cons, List.map_cons, List.sum_cons]
    omega
  · obtain ⟨hLt, hs⟩ := List.getElem?_eq_some_iff.mp hNext
    have hMem : s ∈ children p := List.mem_of_getElem? hNext
    have hIdx : (children p).idxOf s = (children p).idxOf c + 1 := by
      rw [← hs]
      exact (h.nodup p).idxOf_getElem _ hLt
    rw [hRest c p hParent, hRest s p ((h.mem_children s p).mp hMem), hIdx,
      List.drop_eq_getElem_cons hLt, hs, List.map_cons, List.sum_cons]
    omega
  · rw [hRest c p hParent, List.drop_eq_nil_of_le (List.getElem?_eq_none_iff.mp hLast)]
    exact Nat.zero_add _

/-- The number of nodes that come before each node. -/
theorem exists_before : ∃ before : ι → ℕ,
    (∀ v c, (children v).getLast? = some c → before c + size c = before v + size v) ∧
      ∀ c p, parent c = some p → before p < before c ∧
        ∀ i s, (children p).idxOf c = i + 1 → (children p)[i]? = some s →
          before s + size s = before c := by
  obtain ⟨before, -, hBefore⟩ := h.exists_of_parent 0
    fun c p above => 1 + (((children p).take ((children p).idxOf c)).map size).sum + above
  refine ⟨before, fun v c hLast => ?_, fun c p hParent => ⟨?_, fun i s hIdx hPrevious => ?_⟩⟩
  · obtain ⟨cs, hChildren⟩ := List.getLast?_eq_some_iff.mp hLast
    have hMem : c ∈ children v := List.mem_of_getLast? hLast
    have hNew : c ∉ cs := by
      intro hIn
      have hNodup := h.nodup v
      rw [hChildren] at hNodup
      exact List.disjoint_of_nodup_append hNodup hIn (List.mem_singleton_self c)
    rw [hBefore c v ((h.mem_children c v).mp hMem), hSize v, hChildren, List.idxOf_append_of_notMem hNew,
      List.idxOf_cons_self, Nat.add_zero, List.take_left, List.map_append, List.sum_append]
    simp only [List.map_cons, List.map_nil, List.sum_singleton]
    omega
  · rw [hBefore c p hParent]
    omega
  · obtain ⟨hLt, hs⟩ := List.getElem?_eq_some_iff.mp hPrevious
    have hMem : s ∈ children p := List.mem_of_getElem? hPrevious
    have hOwn : (children p).idxOf s = i := by
      rw [← hs]
      exact (h.nodup p).idxOf_getElem _ hLt
    rw [hBefore c p hParent, hBefore s p ((h.mem_children s p).mp hMem), hIdx, hOwn,
      List.take_succ_eq_append_getElem hLt, hs, List.map_append, List.sum_append]
    simp only [List.map_cons, List.map_nil, List.sum_singleton]
    omega

end Collections.Forest.IsForest
