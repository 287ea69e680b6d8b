import ReactNativeWindows.Fabric.ComponentTree

/-! The root views that component views remember, and what every run of mounting and unmounting
promises. -/
namespace Fabric

open Collections Collections.Forest

universe u v

variable {ι : Type u} {Θ : Type v} {isRoot : ι → Bool} {emptyTheme : Θ} [DecidableEq ι]

/-- Only views above the one that is asked remember something new. -/
theorem rootComponentView_above {fuel : ℕ} {v : ι} {views next : Views ι Θ} {root : Option ι}
    (h : rootComponentView isRoot fuel v views = some (root, next)) {x : ι}
    (hNot : ¬Within views.parent x v) : next x = views x := by
  induction fuel generalizing v root next with
  | zero => cases h
  | succ fuel ih =>
    rw [rootComponentView] at h
    split at h
    · cases h
      rfl
    split at h
    · cases h
      rfl
    split at h
    · cases h
      rfl
    rename_i parent hParent
    obtain ⟨⟨found, above⟩, hAbove, h⟩ := Option.bind_eq_some_iff.mp h
    cases h
    have hNe : x ≠ v := by
      rintro rfl
      exact hNot (.refl x)
    rw [Function.update_of_ne hNe]
    exact ih hAbove fun hWithin => hNot (hWithin.trans (.of_parent hParent))

omit [DecidableEq ι] in
theorem Sound.congr {views next : Views ι Θ} (h : Sound isRoot views)
    (hRemember : ∀ x, (next x).m_rootView = (views x).m_rootView)
    (hParent : next.parent = views.parent) : Sound isRoot next := by
  intro x root hRoot
  rw [hRemember] at hRoot
  rw [hParent]
  exact h x root hRoot

variable [DecidableEq Θ] {fuel index : ℕ} {v child : ι} {views next : Views ι Θ}

omit [DecidableEq Θ] in
theorem children_changed (views : Views ι Θ) (v : ι) (children : List ι) :
    Views.parent (Function.update views v { views v with m_children := children }) = views.parent ∧
      ∀ x, (Function.update views v { views v with m_children := children } x).m_rootView =
        (views x).m_rootView := by
  constructor
  · funext x
    by_cases hEq : x = v
    · rw [hEq]
      simp only [Views.parent, Function.update_self]
    · simp only [Views.parent, Function.update_of_ne hEq]
  · intro x
    by_cases hEq : x = v
    · rw [hEq, Function.update_self]
    · rw [Function.update_of_ne hEq]

/-- A view that is mounted has no root yet, and the views above are not changed. -/
theorem Sound.of_mount (h : Tree isRoot emptyTheme views) (hSound : Sound isRoot views)
    (hEnabled : Event.Enabled isRoot views (.mount v child index))
    (hRun : mountChildComponentView isRoot emptyTheme fuel v child index views = some next) :
    Sound isRoot next := by
  obtain ⟨asked, linked, root, hAsked, rfl, hLinked, hOut, hIn⟩ := mount_cells h hEnabled hRun
  obtain ⟨-, -, hKept⟩ := mounted_linked h hEnabled hLinked
  obtain ⟨hParents, hRemembered⟩ :=
    children_changed views v ((views v).m_children.insertIdx index child)
  obtain ⟨hSoundAsked, -⟩ := rootComponentView_sound (fun r hr => by rw [hParents]; exact h.roots r hr)
    (hSound.congr hRemembered hParents) hAsked
  have hCells : ∀ x, (next x).m_rootView = (Function.update asked child
      { asked child with m_rootView := none, m_parent := some v } x).m_rootView ∧
        next.parent x = Views.parent (Function.update asked child
          { asked child with m_rootView := none, m_parent := some v }) x := by
    intro x
    by_cases hx : Within views.parent child x
    · rw [Views.parent, Views.parent, hIn x hx]
      exact ⟨rfl, rfl⟩
    · rw [Views.parent, Views.parent, hOut x hx]
      exact ⟨rfl, rfl⟩
  apply Sound.congr (fun x r hr => ?_) (fun x => (hCells x).1) (funext fun x => (hCells x).2)
  by_cases hChild : x = child
  · rw [hChild, Function.update_self] at hr
    cases hr
  · rw [Function.update_of_ne hChild] at hr
    obtain ⟨hRoot, hWithin⟩ := hSoundAsked x r hr
    rw [(rootComponentView_remembers hAsked).parent, hParents] at hWithin
    exact ⟨hRoot, hKept r x hWithin⟩

theorem unmount_remembers (h : Tree isRoot emptyTheme views)
    (hEnabled : Event.Enabled isRoot views (.unmount v child index))
    (hRun : unmountChildComponentView isRoot emptyTheme fuel v child index views = some next) :
    (next child).m_rootView = none ∧
      (∀ x, Within views.parent child x → x ≠ child → (next x).m_rootView = (views x).m_rootView) ∧
      (∀ x r, Sound isRoot views → ¬Within views.parent child x → (next x).m_rootView = some r →
        isRoot r = true ∧ Within views.parent r x) ∧
      ∀ top x, Within next.parent top x ↔
        Within views.parent top x ∧ (Within views.parent child x → Within views.parent child top) := by
  obtain ⟨asked, linked, root, hAsked, rfl, hLinked, hOut, hIn⟩ := h.unmount_cells hEnabled hRun
  obtain ⟨-, -, hWithin⟩ := h.unmounted_linked hEnabled hLinked
  obtain ⟨hParents, hRemembered⟩ := children_changed views v ((views v).m_children.eraseIdx index)
  have hCells : ∀ x, (next x).m_rootView = (Function.update asked child
      { asked child with m_rootView := none, m_parent := none } x).m_rootView ∧
        next.parent x = Views.parent (Function.update asked child
          { asked child with m_rootView := none, m_parent := none }) x := by
    intro x
    by_cases hx : Within views.parent child x
    · rw [Views.parent, Views.parent, hIn x hx]
      exact ⟨rfl, rfl⟩
    · rw [Views.parent, Views.parent, hOut x hx]
      exact ⟨rfl, rfl⟩
  refine ⟨?_, ?_, ?_, ?_⟩
  · rw [(hCells child).1, Function.update_self]
  · intro x hBelow hNe
    -- the question goes up, so that it does not come by
    have hNotAbove : ¬Within views.parent x child := by
      intro hAbove
      obtain ⟨p, hParent, hUp⟩ := hBelow.of_ne hNe
      exact h.forest.not_within_parent hParent (hAbove.trans hUp)
    rw [← hParents] at hNotAbove
    rw [(hCells x).1, Function.update_of_ne hNe, rootComponentView_above hAsked hNotAbove,
      hRemembered]
  · intro x r hSound hNot hr
    have hNe : x ≠ child := by
      rintro rfl
      exact hNot (.refl x)
    obtain ⟨hSoundAsked, -⟩ :=
      rootComponentView_sound (fun r hr => by rw [hParents]; exact h.roots r hr)
        (hSound.congr hRemembered hParents) hAsked
    rw [(hCells x).1, Function.update_of_ne hNe] at hr
    obtain ⟨hRoot, hAbove⟩ := hSoundAsked x r hr
    rw [(rootComponentView_remembers hAsked).parent, hParents] at hAbove
    exact ⟨hRoot, hAbove⟩
  · intro top x
    have hEq : next.parent = _ := funext fun x => (hCells x).2
    rw [hEq]
    exact hWithin top x

/-- After a child is unmounted, what is remembered is right when the views within it remember
nothing, and not otherwise. -/
theorem sound_unmount_iff (h : Tree isRoot emptyTheme views) (hSound : Sound isRoot views)
    (hEnabled : Event.Enabled isRoot views (.unmount v child index))
    (hRun : unmountChildComponentView isRoot emptyTheme fuel v child index views = some next) :
    Sound isRoot next ↔ Event.Forgets views (.unmount v child index) := by
  obtain ⟨hChild, hBelow, hOther, hWithin⟩ := unmount_remembers h hEnabled hRun
  constructor
  · intro hNext x hx hNe
    cases hRoot : (views x).m_rootView with
    | none => rfl
    | some r =>
      obtain ⟨hr, hAbove⟩ := hNext x r ((hBelow x hx hNe).trans hRoot)
      have hInside := ((hWithin r x).mp hAbove).2 hx
      have hOld := h.parent_of_listed hEnabled
      rw [hInside.eq_of_parent_none (h.roots r hr), h.roots r hr] at hOld
      cases hOld
  · intro hForgets x r hr
    by_cases hx : Within views.parent child x
    · by_cases hNe : x = child
      · rw [hNe, hChild] at hr
        cases hr
      · rw [hBelow x hx hNe, hForgets x hx hNe] at hr
        cases hr
    · obtain ⟨hRoot, hAbove⟩ := hOther x r hSound hx hr
      exact ⟨hRoot, (hWithin r x).mpr ⟨hAbove, fun hBoth => absurd hBoth hx⟩⟩

/-- When no unmounted view leaves remembered roots behind, what is remembered is right. -/
theorem Reachable.sound {accepted : Views ι Θ → Event ι → Prop}
    (hAccepted : ∀ views event, accepted views event → event.Forgets views)
    (h : Reachable isRoot emptyTheme accepted views) : Sound isRoot views := by
  induction h with
  | initial hInitial =>
    intro x root hRoot
    rw [hInitial.rootView] at hRoot
    cases hRoot
  | @step views next event fuel prior enabled accept last ih =>
    cases event with
    | mount v child index => exact ih.of_mount prior.tree enabled last
    | unmount v child index =>
      exact (sound_unmount_iff prior.tree ih enabled last).mpr (hAccepted _ _ accept)
    | askRoot v =>
      obtain ⟨⟨root, asked⟩, hAsked, hEq⟩ := Option.map_eq_some_iff.mp last
      cases hEq
      exact (rootComponentView_sound prior.tree.roots ih hAsked).1

section Ends

variable {parent : ι → Option ι} {children : ι → List ι} (hForest : IsForest parent children)
  {down : ι → ℕ} (hDown : ∀ c p, parent c = some p → down c < down p)
  (hKids : ∀ x, (views x).m_children = children x) (hFuel : down child < fuel)
include hForest hDown hKids hFuel

theorem exists_theme (value : Θ) : ∃ next, theme value fuel child views = some next ∧
    ∀ x, (next x).m_children = (views x).m_children := by
  have hEnter : ∀ cell next : ComponentView ι Θ,
      (if cell.m_theme = some value then none else some cell) = some next →
        next.m_children = cell.m_children := by
    intro cell next hEnter
    split at hEnter <;> cases hEnter
    rfl
  have hLeave : ∀ cell : ComponentView ι Θ,
      ({ cell with m_theme := some value } : ComponentView ι Θ).m_children = cell.m_children :=
    fun _ => rfl
  obtain ⟨next, hNext⟩ := exists_walk hEnter hLeave hForest hDown hKids hFuel
  exact ⟨next, hNext, walk_kids hEnter hLeave hNext⟩

omit [DecidableEq Θ] in
theorem exists_onMounted : ∃ next, onMounted fuel child views = some next := by
  apply exists_walk _ _ hForest hDown hKids hFuel
  · intro cell next hEnter
    cases hEnter
    rfl
  · exact fun _ => rfl

omit [DecidableEq Θ] in
theorem exists_onUnmounted : ∃ next, onUnmounted fuel child views = some next := by
  apply exists_walk _ _ hForest hDown hKids hFuel
  · intro cell next hEnter
    split at hEnter <;> cases hEnter
    rfl
  · exact fun _ => rfl

end Ends

def relinked (views : Views ι Θ) (v child : ι) (parent : Option ι) (children : List ι) : Views ι Θ :=
  fun x => { views x with
    m_children := if x = v then children else (views x).m_children
    m_parent := if x = child then parent else (views x).m_parent }

omit [DecidableEq Θ] in
theorem Relinked.of_relinked (views : Views ι Θ) (v child : ι) (parent : Option ι)
    (children : List ι) :
    Relinked views (relinked views v child parent children) v child parent children :=
  fun x => ⟨(views x).m_rootView, rfl⟩

omit [DecidableEq Θ] in
theorem Relinked.parent_eq_relinked {linked : Views ι Θ} {parent : Option ι} {children : List ι}
    (h : Relinked views linked v child parent children) :
    linked.parent = (relinked views v child parent children).parent := by
  funext x
  rw [h.parent_eq, (Relinked.of_relinked views v child parent children).parent_eq]

theorem exists_mount (h : Tree isRoot emptyTheme views)
    (hEnabled : Event.Enabled isRoot views (.mount v child index)) :
    ∃ bound, ∀ fuel, bound < fuel →
      ∃ next, mountChildComponentView isRoot emptyTheme fuel v child index views = some next := by
  obtain ⟨hNone, -, hNot, -⟩ := id hEnabled
  have hNe : child ≠ v := by
    rintro rfl
    exact hNot (.refl child)
  obtain ⟨up, _, hUp⟩ := h.forest.ranked
  obtain ⟨_, down, hDown⟩ := (mounted_linked h hEnabled (.of_relinked _ _ _ _ _)).1.ranked
  refine ⟨up child + down child, fun fuel hFuel => ?_⟩
  have hUpFuel : up child < fuel := by omega
  have hDownFuel : down child < fuel := by omega
  obtain ⟨hParents, -⟩ := children_changed views v ((views v).m_children.insertIdx index child)
  obtain ⟨⟨root, asked⟩, hAsked⟩ : ∃ result, rootComponentView isRoot _ child _ = some result :=
    exists_rootComponentView (fun c p hParent => (hUp c p (hParents ▸ hParent)).1) hUpFuel
  have hLinked : Relinked views _ v child (some v) _ :=
    .of_asked (rootComponentView_remembers hAsked)
  obtain ⟨hForest, -, -⟩ := mounted_linked h hEnabled hLinked
  have hDownLinked : ∀ c p, Views.parent _ c = some p → down c < down p :=
    fun c p hParent => (hDown c p (hLinked.parent_eq_relinked ▸ hParent)).2
  obtain ⟨themed, hTheme, hKids⟩ := exists_theme hForest hDownLinked (fun _ => rfl) hDownFuel
    ((views v).m_theme.getD emptyTheme)
  obtain ⟨mounted, hMounted⟩ := exists_onMounted hForest hDownLinked hKids hDownFuel
  have hSet : setParent isRoot emptyTheme fuel child (some v)
      (Function.update views v
        { views v with m_children := (views v).m_children.insertIdx index child }) = some themed := by
    rw [setParent, if_neg]
    · rw [← hLinked.theme_eq v] at hTheme
      exact Option.bind_eq_some_iff.mpr ⟨(root, asked), hAsked, hTheme⟩
    · rw [Function.update_of_ne hNe, hNone]
      simp
  rw [mountChildComponentView]
  simp only [hSet, Option.bind_eq_bind, Option.bind_some]
  split
  · exact ⟨mounted, hMounted⟩
  · exact ⟨themed, rfl⟩

theorem exists_unmount (h : Tree isRoot emptyTheme views)
    (hEnabled : Event.Enabled isRoot views (.unmount v child index)) :
    ∃ bound, ∀ fuel, bound < fuel →
      ∃ next, unmountChildComponentView isRoot emptyTheme fuel v child index views = some next := by
  have hOld := h.parent_of_listed hEnabled
  have hNe : child ≠ v := by
    rintro rfl
    exact h.forest.not_within_parent hOld (.refl child)
  obtain ⟨up, _, hUp⟩ := h.forest.ranked
  obtain ⟨_, down, hDown⟩ := (h.unmounted_linked hEnabled (.of_relinked _ _ _ _ _)).1.ranked
  refine ⟨up child + down child, fun fuel hFuel => ?_⟩
  have hUpFuel : up child < fuel := by omega
  have hDownFuel : down child < fuel := by omega
  obtain ⟨hParents, -⟩ := children_changed views v ((views v).m_children.eraseIdx index)
  obtain ⟨⟨root, asked⟩, hAsked⟩ : ∃ result, rootComponentView isRoot _ child _ = some result :=
    exists_rootComponentView (fun c p hParent => (hUp c p (hParents ▸ hParent)).1) hUpFuel
  have hLinked : Relinked views _ v child none _ :=
    .of_asked (rootComponentView_remembers hAsked)
  obtain ⟨hForest, -, -⟩ := h.unmounted_linked hEnabled hLinked
  obtain ⟨unmounted, hUnmounted⟩ := exists_onUnmounted hForest
    (fun c p hParent => (hDown c p (hLinked.parent_eq_relinked ▸ hParent)).2) (fun _ => rfl) hDownFuel
  refine ⟨unmounted, Option.bind_eq_some_iff.mpr ⟨_, ?_, hUnmounted⟩⟩
  rw [setParent, if_neg]
  · exact Option.bind_eq_some_iff.mpr ⟨(root, asked), hAsked, rfl⟩
  · rw [Function.update_of_ne hNe]
    intro hNone
    cases hOld.symm.trans hNone

/-- Every event of a tree comes to an end. -/
theorem exists_apply (h : Tree isRoot emptyTheme views) {event : Event ι}
    (hEnabled : event.Enabled isRoot views) :
    ∃ fuel next, event.apply isRoot emptyTheme fuel views = some next := by
  cases event with
  | mount v child index =>
    obtain ⟨bound, hEnds⟩ := exists_mount h hEnabled
    exact ⟨bound + 1, hEnds _ (Nat.lt_succ_self bound)⟩
  | unmount v child index =>
    obtain ⟨bound, hEnds⟩ := exists_unmount h hEnabled
    exact ⟨bound + 1, hEnds _ (Nat.lt_succ_self bound)⟩
  | askRoot v =>
    obtain ⟨up, _, hUp⟩ := h.forest.ranked
    obtain ⟨⟨root, next⟩, hAsked⟩ : ∃ result, rootComponentView isRoot _ v views = some result :=
      exists_rootComponentView (fun c p hParent => (hUp c p hParent).1) (Nat.lt_succ_self (up v))
    exact ⟨up v + 1, next, Option.map_eq_some_iff.mpr ⟨_, hAsked, rfl⟩⟩

theorem mount_theme (h : Tree isRoot emptyTheme views)
    (hEnabled : Event.Enabled isRoot views (.mount v child index))
    (hRun : mountChildComponentView isRoot emptyTheme fuel v child index views = some next) {value : Θ}
    (hTheme : (views v).m_theme = some value) {x : ι} (hWithin : Within next.parent child x) :
    (next x).m_theme = some value := by
  obtain ⟨asked, linked, root, -, -, -, -, hIn⟩ := mount_cells h hEnabled hRun
  apply (h.of_mount hEnabled hRun).themed_within _ hWithin
  rw [hIn child (.refl child), hTheme, Option.getD_some]

/-- What holds in every run. That views answer the roots that they are within takes that no view is
unmounted while views within it remember a root. -/
theorem Reachable.component_tree {accepted : Views ι Θ → Event ι → Prop}
    (h : Reachable isRoot emptyTheme accepted views) :
    (∀ c p, c ∈ (views p).m_children ↔ (views c).m_parent = some p) ∧
    (∀ p, (views p).m_children.Nodup) ∧
    (∀ x, (views x).m_mounted = true ↔
      ∃ r, isRoot r = true ∧ (views r).m_mounted = true ∧ Within views.parent r x) ∧
    (∀ x, List.IsChain (· ≠ ·) ((views x).notified ++ [false]) ∧ (views x).asserted = false ∧
      (isRoot x = false → (views x).m_mounted = (views x).notified.head?.getD false)) ∧
    (∀ event : Event ι, event.Enabled isRoot views →
      ∃ fuel next, event.apply isRoot emptyTheme fuel views = some next) ∧
    (∀ v child index fuel next value, Event.Enabled isRoot views (.mount v child index) →
      mountChildComponentView isRoot emptyTheme fuel v child index views = some next →
      (views v).m_theme = some value →
        ∀ x, Within next.parent child x → (next x).m_theme = some value) ∧
    ((∀ views event, accepted views event → event.Forgets views) →
      ∀ x fuel root next, rootComponentView isRoot fuel x views = some (root, next) →
        ∀ r, root = some r ↔ isRoot r = true ∧ Within views.parent r x) := by
  have hTree := h.tree
  refine ⟨hTree.forest.mem_children, hTree.forest.nodup, hTree.mounted_iff, fun x => ?_,
    fun event => exists_apply hTree, ?_, ?_⟩
  · exact ⟨hTree.alternate x, hTree.asserted x, hTree.told x⟩
  · intro v child index fuel next value hEnabled hRun hTheme x hWithin
    exact mount_theme hTree hEnabled hRun hTheme hWithin
  · intro hAccepted x fuel root next hAsked
    exact (rootComponentView_sound hTree.roots (h.sound hAccepted) hAsked).2

omit [DecidableEq ι] [DecidableEq Θ] in
theorem alone_enabled (hView : (views v).m_parent = none) (hChild : (views child).m_parent = none)
    (hNe : child ≠ v) (hRoot : isRoot child = false) :
    Event.Enabled isRoot views (.mount v child 0) :=
  ⟨hChild, hRoot, fun hWithin => hNe (hWithin.eq_of_parent_none hView), Nat.zero_le _⟩

omit [DecidableEq ι] [DecidableEq Θ] in
theorem listed_enabled (hListed : (views v).m_children[index]? = some child) :
    Event.Enabled isRoot views (.unmount v child index) := hListed

def lonelyViews : Views ℕ Unit := fun x =>
  { m_children := [], m_parent := none, m_mounted := x = 0, m_rootView := none, m_theme := none,
    notified := [], asserted := false }

theorem lonelyViews_initial : lonelyViews.Initial (· = 0) := by
  constructor <;> intro x
  · rfl
  · rfl
  · exact id
  · rfl
  · rfl
  · rfl

omit [DecidableEq ι] [DecidableEq Θ] in
theorem childless_forgets (h : Tree isRoot emptyTheme views) (hNone : (views child).m_children = []) :
    Event.Forgets views (.unmount v child index) := by
  intro x hWithin hNe
  refine absurd ?_ hNe
  refine hWithin.induction (P := fun x => x = child) rfl fun c p hParent _ hp => ?_
  have hMem : c ∈ (views p).m_children := (h.forest.mem_children c p).mpr hParent
  rw [hp, hNone] at hMem
  cases hMem

/-- Two views are mounted below the root, one into the other, and the lower one is unmounted again. -/
theorem mounted_component_tree : ∃ views next : Views ℕ Unit,
    unmountChildComponentView (· = 0) () 4 1 2 0 views = some next ∧ (views 2).m_mounted = true ∧
      (next 1).m_mounted = true ∧ (next 2).m_mounted = false ∧
      ∀ x fuel root last, rootComponentView (· = 0) fuel x next = some (root, last) →
        ∀ r, root = some r ↔ r = 0 ∧ Within next.parent r x := by
  have hOne : Reachable (· = 0) () (fun views event => event.Forgets views) _ :=
    .step (.initial lonelyViews_initial) (alone_enabled rfl rfl (by decide) rfl) trivial
      (rfl : Event.apply (· = 0) () 2 _ (.mount 1 2 0) = some _)
  have hTwo : Reachable (· = 0) () (fun views event => event.Forgets views) _ :=
    .step hOne (alone_enabled rfl rfl (by decide) rfl) trivial
      (rfl : Event.apply (· = 0) () 3 _ (.mount 0 1 0) = some _)
  have hThree : Reachable (· = 0) () (fun views event => event.Forgets views) _ :=
    .step hTwo (listed_enabled rfl) (childless_forgets hTwo.tree rfl)
      (rfl : Event.apply (· = 0) () 4 _ (.unmount 1 2 0) = some _)
  obtain ⟨views, next, -, hLast, hUnmounted, hBefore, hAfter⟩ : ∃ views next : Views ℕ Unit,
      Reachable (· = 0) () (fun views event => event.Forgets views) views ∧
      Reachable (· = 0) () (fun views event => event.Forgets views) next ∧
      unmountChildComponentView (· = 0) () 4 1 2 0 views = some next ∧ (views 2).m_mounted = true ∧
        (next 1).m_mounted = true ∧ (next 2).m_mounted = false :=
    ⟨_, _, hTwo, hThree, rfl, rfl, rfl, rfl⟩
  refine ⟨views, next, hUnmounted, hBefore, hAfter.1, hAfter.2, fun x fuel root last hAsked r => ?_⟩
  have hAnswer := hLast.component_tree.2.2.2.2.2.2 (fun _ _ hAccept => hAccept) x fuel root last hAsked r
  rw [hAnswer, decide_eq_true_iff]

/-- Views are put together below the root. When the last one is taken out, those above it remember the
root, and go on to after the first one is taken out. -/
theorem remembered_after_unmount : ∃ views : Views ℕ Unit,
    Reachable (· = 0) () (fun _ _ => True) views ∧ (views 2).m_parent = some 1 ∧
      (views 1).m_parent = none ∧ rootComponentView (· = 0) 1 2 views = some (some 0, views) := by
  have hOne : Reachable (· = 0) () (fun _ _ => True) _ :=
    .step (.initial lonelyViews_initial) (alone_enabled rfl rfl (by decide) rfl) trivial
      (rfl : Event.apply (· = 0) () 2 _ (.mount 2 3 0) = some _)
  have hTwo : Reachable (· = 0) () (fun _ _ => True) _ :=
    .step hOne (alone_enabled rfl rfl (by decide) rfl) trivial
      (rfl : Event.apply (· = 0) () 3 _ (.mount 1 2 0) = some _)
  have hThree : Reachable (· = 0) () (fun _ _ => True) _ :=
    .step hTwo (alone_enabled rfl rfl (by decide) rfl) trivial
      (rfl : Event.apply (· = 0) () 4 _ (.mount 0 1 0) = some _)
  have hFour : Reachable (· = 0) () (fun _ _ => True) _ :=
    .step hThree (listed_enabled rfl) trivial
      (rfl : Event.apply (· = 0) () 5 _ (.unmount 2 3 0) = some _)
  have hFive : Reachable (· = 0) () (fun _ _ => True) _ :=
    .step hFour (listed_enabled rfl) trivial
      (rfl : Event.apply (· = 0) () 5 _ (.unmount 0 1 0) = some _)
  exact ⟨_, hFive, rfl, rfl, rfl⟩

end Fabric
