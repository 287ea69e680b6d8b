import Mathlib.Data.Set.Finite.Basic
import Mathlib.Order.WellFounded

/-! Searches of a graph with a queue: all that is reached, and an order in which parents come first. -/
namespace Collections

universe u

variable {V : Type u} (children : V → List V)

def Edge (v w : V) : Prop := w ∈ children v

def Reaches (starts : List V) (v : V) : Prop := ∃ start ∈ starts, Relation.ReflTransGen (Edge children) start v

def Acyclic : Prop := ∀ v, ¬ Relation.TransGen (Edge children) v v

/-- A search that is through with some nodes, and has others in its queue. -/
structure Searched (starts done queue : List V) : Prop where
  nodup : (done ++ queue).Nodup
  reached : ∀ v ∈ done ++ queue, Reaches children starts v
  starts : ∀ v ∈ starts, v ∈ done ++ queue
  closed : ∀ v ∈ done, ∀ w ∈ children v, w ∈ done ++ queue

def fresh [DecidableEq V] (known : List V) (v : V) : List V := (children v).filter fun w => w ∉ known

/-- The first node of the queue is done, and what comes new is last. -/
theorem append_done (done queue : List V) (v : V) (more : List V) :
    done ++ v :: queue ++ more = done ++ [v] ++ (queue ++ more) := by
  simp only [List.append_assoc, List.cons_append, List.nil_append]

variable {children} in
theorem mem_fresh_iff [DecidableEq V] {known : List V} {v w : V} :
    w ∈ fresh children known v ↔ w ∈ children v ∧ w ∉ known := by
  rw [fresh, List.mem_filter, decide_eq_true_eq]

namespace Searched

variable {children} {starts done queue : List V} {v : V}

theorem start {starts : List V} (h : starts.Nodup) : Searched children starts [] starts := by
  constructor
  · exact h
  · intro v hMem
    exact ⟨v, hMem, .refl⟩
  · intro v hMem
    exact hMem
  · nofun

theorem step [DecidableEq V] (h : Searched children starts done (v :: queue)) (hNodup : (children v).Nodup) :
    Searched children starts (done ++ [v]) (queue ++ fresh children (done ++ v :: queue) v) := by
  have hSame := (append_done done queue v (fresh children (done ++ v :: queue) v)).symm
  constructor
  · rw [hSame, List.nodup_append]
    refine ⟨h.nodup, hNodup.filter _, ?_⟩
    rintro known hKnown _ hFresh rfl
    exact (mem_fresh_iff.mp hFresh).2 hKnown
  · rw [hSame]
    intro w hMem
    rcases List.mem_append.mp hMem with hKnown | hFresh
    · exact h.reached w hKnown
    · obtain ⟨first, hFirst, hPath⟩ := h.reached v (List.mem_append_right _ List.mem_cons_self)
      exact ⟨first, hFirst, hPath.tail (mem_fresh_iff.mp hFresh).1⟩
  · rw [hSame]
    intro w hStart
    exact List.mem_append_left _ (h.starts w hStart)
  · rw [hSame]
    intro w hDone child hChild
    rcases List.mem_append.mp hDone with hOld | hLast
    · exact List.mem_append_left _ (h.closed w hOld child hChild)
    · cases List.mem_singleton.mp hLast
      by_cases hKnown : child ∈ done ++ v :: queue
      · exact List.mem_append_left _ hKnown
      · exact List.mem_append_right _ (mem_fresh_iff.mpr ⟨hChild, hKnown⟩)

/-- When the queue is empty, all that is reached is done. -/
theorem mem_iff (h : Searched children starts done []) (v : V) : v ∈ done ↔ Reaches children starts v := by
  have hStarts := h.starts
  have hReached := h.reached
  have hClosed := h.closed
  rw [List.append_nil] at hStarts hReached hClosed
  constructor
  · exact hReached v
  · rintro ⟨first, hFirst, hPath⟩
    induction hPath with
    | refl => exact hStarts first hFirst
    | tail _ hEdge ih => exact hClosed _ ih _ hEdge

theorem length_le [DecidableEq V] (h : Searched children starts done queue) (nodes : List V)
    (hStarts : ∀ v ∈ starts, v ∈ nodes) (hChildren : ∀ v, ∀ w ∈ children v, w ∈ nodes) :
    (done ++ queue).length ≤ nodes.length := by
  have hSubset : done ++ queue ⊆ nodes := by
    intro v hMem
    obtain ⟨first, hFirst, hPath⟩ := h.reached v hMem
    rcases Relation.ReflTransGen.cases_tail hPath with rfl | ⟨parent, -, hEdge⟩
    · exact hStarts v hFirst
    · exact hChildren parent v hEdge
  exact (h.nodup.subperm hSubset).length_le

theorem parent (h : Searched children starts done []) (hMem : v ∈ done) :
    v ∈ starts ∨ ∃ parent ∈ done, v ∈ children parent := by
  obtain ⟨first, hFirst, hPath⟩ := (h.mem_iff v).mp hMem
  rcases Relation.ReflTransGen.cases_tail hPath with rfl | ⟨parent, hBefore, hEdge⟩
  · exact .inl hFirst
  · exact .inr ⟨parent, (h.mem_iff parent).mpr ⟨first, hFirst, hBefore⟩, hEdge⟩

end Searched

variable [DecidableEq V]

def incoming (nodes : List V) (v : V) : ℕ := nodes.countP fun parent => v ∈ children parent

def waiting (nodes done : List V) (v : V) : ℕ :=
  nodes.countP fun parent => parent ∉ done ∧ v ∈ children parent

/-- A search that is through with some of the nodes, each after its parents, and has those in its queue whose
parents are done. -/
structure Ordered (nodes done queue : List V) : Prop where
  nodup : (done ++ queue).Nodup
  subset : ∀ v ∈ done ++ queue, v ∈ nodes
  ready_iff : ∀ v ∈ nodes, v ∈ done ++ queue ↔ waiting children nodes done v = 0
  parents : ∀ before v after, done = before ++ v :: after → ∀ parent ∈ nodes, v ∈ children parent →
    parent ∈ before

/-- The children that were not ready, and are so without this parent. -/
def readied (nodes done queue : List V) (v : V) : List V :=
  (children v).filter fun w => w ∉ done ++ v :: queue ∧ waiting children nodes (done ++ [v]) w = 0

variable {children} in
theorem mem_readied_iff {nodes done queue : List V} {v w : V} :
    w ∈ readied children nodes done queue v ↔
      w ∈ children v ∧ w ∉ done ++ v :: queue ∧ waiting children nodes (done ++ [v]) w = 0 := by
  rw [readied, List.mem_filter, decide_eq_true_eq]

section Waiting
variable {children} {nodes done : List V} {v w : V}

theorem incoming_concat (nodes : List V) (parent v : V) :
    incoming children (nodes ++ [parent]) v
      = incoming children nodes v + if v ∈ children parent then 1 else 0 := by
  rw [incoming, incoming, List.countP_append, List.countP_singleton]
  simp only [decide_eq_true_eq]

theorem waiting_nil (nodes : List V) (v : V) : waiting children nodes [] v = incoming children nodes v := by
  rw [waiting, incoming]
  apply List.countP_congr
  intro parent _
  simp only [decide_eq_true_eq, List.not_mem_nil, not_false_eq_true, true_and]

theorem waiting_eq_zero_iff :
    waiting children nodes done v = 0 ↔ ∀ parent ∈ nodes, v ∈ children parent → parent ∈ done := by
  rw [waiting, List.countP_eq_zero]
  constructor
  · intro h parent hNode hChild
    by_contra hNot
    exact h parent hNode (decide_eq_true ⟨hNot, hChild⟩)
  · intro h parent hNode hWaits
    obtain ⟨hNot, hChild⟩ := of_decide_eq_true hWaits
    exact hNot (h parent hNode hChild)

variable (children done) in
theorem waiting_of_notMem (h : v ∉ nodes) (w : V) :
    waiting children nodes (done ++ [v]) w = waiting children nodes done w := by
  rw [waiting, waiting]
  apply List.countP_congr
  intro parent hParent
  have hNe : parent ≠ v := fun hEq => h (hEq ▸ hParent)
  simp only [decide_eq_true_eq, List.mem_append, List.mem_singleton, hNe, or_false]

variable (children) in
/-- One parent less is waited for. -/
theorem waiting_step (hNodup : nodes.Nodup) (hNode : v ∈ nodes) (hDone : v ∉ done) (w : V) :
    waiting children nodes done w
      = waiting children nodes (done ++ [v]) w + if w ∈ children v then 1 else 0 := by
  induction nodes with
  | nil => cases hNode
  | cons node nodes ih =>
    obtain ⟨hNot, hRest⟩ := List.nodup_cons.mp hNodup
    rw [waiting, waiting, List.countP_cons, List.countP_cons]
    rcases List.mem_cons.mp hNode with rfl | hMem
    · have hSame := waiting_of_notMem children done hNot w
      rw [waiting, waiting] at hSame
      rw [hSame]
      simp only [decide_eq_true_eq, List.mem_append, List.mem_singleton, or_true, not_true_eq_false,
        false_and, if_false, Nat.add_zero, hDone, not_false_eq_true, true_and]
    · have hNext := ih hRest hMem
      have hNe : node ≠ v := fun hEq => hNot (hEq ▸ hMem)
      rw [waiting, waiting] at hNext
      rw [hNext]
      simp only [decide_eq_true_eq, List.mem_append, List.mem_singleton, hNe, or_false]
      omega

end Waiting

omit [DecidableEq V] in
/-- Without a cycle, some node of a list has no parent in it. -/
theorem Acyclic.exists_source {children : V → List V} (h : Acyclic children) {nodes : List V}
    (hNodes : nodes ≠ []) : ∃ v ∈ nodes, ∀ parent ∈ nodes, v ∉ children parent := by
  let Below : {v // v ∈ nodes} → {v // v ∈ nodes} → Prop :=
    fun v w => Relation.TransGen (Edge children) v.1 w.1
  have hFinite : Finite {v // v ∈ nodes} := (List.finite_toSet nodes).to_subtype
  have hTrans : IsTrans {v // v ∈ nodes} Below := ⟨fun _ _ _ hFirst hSecond => hFirst.trans hSecond⟩
  have hIrrefl : Std.Irrefl Below := ⟨fun v hCycle => h v.1 hCycle⟩
  have hFounded : WellFounded Below := Finite.wellFounded_of_trans_of_irrefl Below
  obtain ⟨first, hFirst⟩ := List.exists_mem_of_ne_nil nodes hNodes
  obtain ⟨source, -, hSource⟩ := hFounded.has_min Set.univ ⟨⟨first, hFirst⟩, trivial⟩
  refine ⟨source.1, source.2, ?_⟩
  intro parent hParent hChild
  exact hSource ⟨parent, hParent⟩ trivial (.single hChild)

namespace Ordered

variable {children} {nodes done queue : List V} {v : V}

theorem step (h : Ordered children nodes done (v :: queue)) (hNodes : nodes.Nodup)
    (hClosed : ∀ p ∈ nodes, ∀ w ∈ children p, w ∈ nodes) (hNodup : (children v).Nodup) :
    Ordered children nodes (done ++ [v]) (queue ++ readied children nodes done queue v) := by
  have hSame := (append_done done queue v (readied children nodes done queue v)).symm
  have hKnown : v ∈ done ++ v :: queue := List.mem_append_right _ List.mem_cons_self
  have hNode := h.subset v hKnown
  have hNot : v ∉ done := fun hDone =>
    (List.nodup_append.mp h.nodup).2.2 v hDone v List.mem_cons_self rfl
  constructor
  · rw [hSame, List.nodup_append]
    refine ⟨h.nodup, hNodup.filter _, ?_⟩
    rintro known hOld _ hNew rfl
    exact (mem_readied_iff.mp hNew).2.1 hOld
  · rw [hSame]
    intro w hMem
    rcases List.mem_append.mp hMem with hOld | hNew
    · exact h.subset w hOld
    · exact hClosed v hNode w (mem_readied_iff.mp hNew).1
  · rw [hSame]
    intro w hMem
    have hStep := waiting_step children hNodes hNode hNot w
    constructor
    · intro hReady
      rcases List.mem_append.mp hReady with hOld | hNew
      · have hZero := (h.ready_iff w hMem).mp hOld
        omega
      · exact (mem_readied_iff.mp hNew).2.2
    · intro hZero
      by_cases hOld : w ∈ done ++ v :: queue
      · exact List.mem_append_left _ hOld
      · by_cases hChild : w ∈ children v
        · exact List.mem_append_right _ (mem_readied_iff.mpr ⟨hChild, hOld, hZero⟩)
        · rw [hZero, if_neg hChild] at hStep
          exact absurd ((h.ready_iff w hMem).mpr hStep) hOld
  · intro before w after hSplit parent hParent hChild
    rcases List.eq_nil_or_concat after with rfl | ⟨after', last, rfl⟩
    · obtain ⟨rfl, hLast⟩ := List.append_inj' hSplit rfl
      cases hLast
      exact waiting_eq_zero_iff.mp ((h.ready_iff v hNode).mp hKnown) parent hParent hChild
    · rw [List.concat_eq_append, ← List.cons_append, ← List.append_assoc] at hSplit
      obtain ⟨hSplit', -⟩ := List.append_inj' hSplit rfl
      exact h.parents before w after' hSplit' parent hParent hChild

/-- Without a cycle, all nodes get done. -/
theorem all_done (h : Ordered children nodes done []) (hAcyclic : Acyclic children) :
    ∀ v ∈ nodes, v ∈ done := by
  by_contra hSome
  push Not at hSome
  obtain ⟨v, hNode, hNot⟩ := hSome
  have hRest : nodes.filter (fun w => w ∉ done) ≠ [] :=
    List.ne_nil_of_mem (List.mem_filter.mpr ⟨hNode, decide_eq_true hNot⟩)
  obtain ⟨source, hSource, hParents⟩ := hAcyclic.exists_source hRest
  obtain ⟨hSourceNode, hSourceNot⟩ := List.mem_filter.mp hSource
  have hReady : source ∈ done ++ [] := by
    rw [h.ready_iff source hSourceNode, waiting_eq_zero_iff]
    intro parent hParent hChild
    by_contra hWaits
    exact hParents parent (List.mem_filter.mpr ⟨hParent, decide_eq_true hWaits⟩) hChild
  rw [List.append_nil] at hReady
  exact of_decide_eq_true hSourceNot hReady

end Ordered

end Collections
