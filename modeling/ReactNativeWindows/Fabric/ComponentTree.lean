import Mathlib.Data.Nat.Basic
import ReactNativeWindows.Fabric.ComponentView

/-! What holds of the component tree in every run. -/
namespace Fabric

open Collections Collections.Forest

universe u v

variable {ι : Type u} {Θ : Type v} {isRoot : ι → Bool} {emptyTheme : Θ}

/-! ### The root that is asked for -/

def Remembers (views next : Views ι Θ) : Prop :=
  ∀ x, ∃ root, next x = { views x with m_rootView := root }

theorem Remembers.refl (views : Views ι Θ) : Remembers views views :=
  fun x => ⟨(views x).m_rootView, rfl⟩

theorem Remembers.trans {views next last : Views ι Θ} (h : Remembers views next)
    (hNext : Remembers next last) : Remembers views last := by
  intro x
  obtain ⟨root, hx⟩ := h x
  obtain ⟨other, hOther⟩ := hNext x
  exact ⟨other, by rw [hOther, hx]⟩

theorem Remembers.parent {views next : Views ι Θ} (h : Remembers views next) :
    next.parent = views.parent := by
  funext x
  obtain ⟨root, hx⟩ := h x
  show (next x).m_parent = _
  rw [hx]
  rfl

theorem Remembers.children {views next : Views ι Θ} (h : Remembers views next) :
    next.children = views.children := by
  funext x
  obtain ⟨root, hx⟩ := h x
  show (next x).m_children = _
  rw [hx]
  rfl

def Sound (isRoot : ι → Bool) (views : Views ι Θ) : Prop :=
  ∀ x root, (views x).m_rootView = some root → isRoot root = true ∧ Within views.parent root x

variable [DecidableEq ι]

theorem rootComponentView_remembers {fuel : ℕ} {v : ι} {views next : Views ι Θ} {root : Option ι}
    (h : rootComponentView isRoot fuel v views = some (root, next)) : Remembers views next := by
  induction fuel generalizing v root next with
  | zero => cases h
  | succ fuel ih =>
    rw [rootComponentView] at h
    split at h
    · cases h
      exact .refl views
    split at h
    · cases h
      exact .refl views
    split at h
    · cases h
      exact .refl views
    obtain ⟨⟨found, above⟩, hAbove, h⟩ := Option.bind_eq_some_iff.mp h
    cases h
    have hRemembers := ih hAbove
    apply hRemembers.trans
    intro x
    by_cases hEq : x = v
    · rw [hEq, Function.update_self]
      exact ⟨root, rfl⟩
    · rw [Function.update_of_ne hEq]
      exact ⟨(above x).m_rootView, rfl⟩

omit [DecidableEq ι] in
theorem root_unique {views : Views ι Θ} (hRoots : ∀ r, isRoot r = true → views.parent r = none)
    {r root v : ι} (hr : isRoot r = true) (hAbove : Within views.parent r v)
    (hRoot : isRoot root = true) (hOther : Within views.parent root v) : r = root := by
  rcases hAbove.total hOther with hWithin | hWithin
  · exact hWithin.eq_of_parent_none (hRoots root hRoot)
  · exact (hWithin.eq_of_parent_none (hRoots r hr)).symm

/-- When what is remembered is right, so is the answer. -/
theorem rootComponentView_sound {fuel : ℕ} {v : ι} {views next : Views ι Θ} {root : Option ι}
    (hRoots : ∀ r, isRoot r = true → views.parent r = none) (hSound : Sound isRoot views)
    (h : rootComponentView isRoot fuel v views = some (root, next)) :
    Sound isRoot next ∧ ∀ r, root = some r ↔ isRoot r = true ∧ Within views.parent r v := by
  induction fuel generalizing v root next with
  | zero => cases h
  | succ fuel ih =>
    rw [rootComponentView] at h
    split at h
    · rename_i hOwn
      cases h
      refine ⟨hSound, fun r => ⟨?_, fun hr => ?_⟩⟩
      · rintro ⟨⟩
        exact ⟨hOwn, .refl v⟩
      · rw [hr.2.eq_of_parent_none (hRoots v hOwn)]
    rename_i hOwn
    split at h
    · rename_i remembered hRemembered
      cases h
      obtain ⟨hRoot, hAbove⟩ := hSound v remembered hRemembered
      refine ⟨hSound, fun r => ⟨?_, fun hr => ?_⟩⟩
      · rintro ⟨⟩
        exact ⟨hRoot, hAbove⟩
      · rw [root_unique hRoots hr.1 hr.2 hRoot hAbove]
    split at h
    · rename_i hNone
      cases h
      refine ⟨hSound, fun r => ⟨fun hSome => (by cases hSome), fun hr => ?_⟩⟩
      rw [hr.2.eq_of_parent_none hNone] at hr
      exact absurd hr.1 hOwn
    rename_i parent hParent
    obtain ⟨⟨found, above⟩, hAbove, h⟩ := Option.bind_eq_some_iff.mp h
    cases h
    obtain ⟨hSoundAbove, hAnswer⟩ := ih hAbove
    have hSame := rootComponentView_remembers hAbove
    have hHere : ∀ r, root = some r ↔ isRoot r = true ∧ Within views.parent r v := by
      intro r
      rw [hAnswer]
      refine and_congr_right fun hr => ⟨fun hWithin => hWithin.trans (.of_parent hParent), ?_⟩
      intro hWithin
      have hNe : v ≠ r := fun hEq => hOwn (hEq ▸ hr)
      obtain ⟨p, hp, hUp⟩ := hWithin.of_ne hNe
      have hSome : views.parent v = some parent := hParent
      rw [hSome] at hp
      cases hp
      exact hUp
    refine ⟨?_, hHere⟩
    have hParents : Views.parent (Function.update above v { above v with m_rootView := root }) =
        views.parent := by
      rw [← hSame.parent]
      funext x
      by_cases hEq : x = v
      · rw [hEq]
        simp only [Views.parent, Function.update_self]
      · simp only [Views.parent, Function.update_of_ne hEq]
    intro x r hr
    rw [hParents]
    by_cases hEq : x = v
    · rw [hEq, Function.update_self] at hr
      rw [hEq]
      exact (hHere r).mp hr
    · rw [Function.update_of_ne hEq] at hr
      exact hSame.parent ▸ hSoundAbove x r hr

theorem exists_rootComponentView {views : Views ι Θ} {up : ι → ℕ}
    (hUp : ∀ c p, views.parent c = some p → up p < up c) {fuel : ℕ} {v : ι} (hFuel : up v < fuel) :
    ∃ result, rootComponentView isRoot fuel v views = some result := by
  induction fuel generalizing v with
  | zero => exact absurd hFuel (Nat.not_lt_zero _)
  | succ fuel ih =>
    rw [rootComponentView]
    split
    · exact ⟨_, rfl⟩
    split
    · exact ⟨_, rfl⟩
    split
    · exact ⟨_, rfl⟩
    rename_i parent hParent
    obtain ⟨⟨found, above⟩, hAbove⟩ :=
      ih (Nat.lt_of_lt_of_le (hUp v parent hParent) (Nat.le_of_lt_succ hFuel))
    exact ⟨_, by rw [hAbove]; rfl⟩

/-! ### What holds in every run -/

/-- Parents and children fit together. A view is mounted when its parent is, it has the theme of its
parent, and it was told of each change of being mounted. -/
structure Tree (isRoot : ι → Bool) (emptyTheme : Θ) (views : Views ι Θ) : Prop where
  forest : IsForest views.parent views.children
  roots : ∀ r, isRoot r = true → views.parent r = none
  mounted : ∀ c p, views.parent c = some p → (views c).m_mounted = (views p).m_mounted
  tops : ∀ x, isRoot x = false → views.parent x = none → (views x).m_mounted = false
  themed : ∀ c p, views.parent c = some p →
    (views c).m_theme = some ((views p).m_theme.getD emptyTheme)
  told : ∀ x, isRoot x = false → (views x).m_mounted = (views x).notified.head?.getD false
  alternate : ∀ x, List.IsChain (· ≠ ·) ((views x).notified ++ [false])
  asserted : ∀ x, (views x).asserted = false

namespace Tree

variable {views next : Views ι Θ}

omit [DecidableEq ι] in
theorem of_remembers (h : Tree isRoot emptyTheme views) (hSame : Remembers views next) :
    Tree isRoot emptyTheme next := by
  have hFields : ∀ x, (next x).m_mounted = (views x).m_mounted ∧
      (next x).m_theme = (views x).m_theme ∧ (next x).notified = (views x).notified ∧
        (next x).asserted = (views x).asserted := by
    intro x
    obtain ⟨root, hx⟩ := hSame x
    rw [hx]
    exact ⟨rfl, rfl, rfl, rfl⟩
  constructor
  · rw [hSame.parent, hSame.children]
    exact h.forest
  · rw [hSame.parent]
    exact h.roots
  · intro c p hParent
    rw [hSame.parent] at hParent
    rw [(hFields c).1, (hFields p).1]
    exact h.mounted c p hParent
  · intro x hx hTop
    rw [hSame.parent] at hTop
    rw [(hFields x).1]
    exact h.tops x hx hTop
  · intro c p hParent
    rw [hSame.parent] at hParent
    rw [(hFields c).2.1, (hFields p).2.1]
    exact h.themed c p hParent
  · intro x hx
    rw [(hFields x).1, (hFields x).2.2.1]
    exact h.told x hx
  · intro x
    rw [(hFields x).2.2.1]
    exact h.alternate x
  · intro x
    rw [(hFields x).2.2.2]
    exact h.asserted x

omit [DecidableEq ι] in
theorem mounted_within (h : Tree isRoot emptyTheme views) {top x : ι}
    (hWithin : Within views.parent top x) : (views x).m_mounted = (views top).m_mounted :=
  hWithin.induction (P := fun x => (views x).m_mounted = (views top).m_mounted) rfl
    fun c p hParent _ ih => (h.mounted c p hParent).trans ih

omit [DecidableEq ι] in
theorem mounted_iff (h : Tree isRoot emptyTheme views) (x : ι) : (views x).m_mounted = true ↔
    ∃ r, isRoot r = true ∧ (views r).m_mounted = true ∧ Within views.parent r x := by
  constructor
  · obtain ⟨up, down, hRank⟩ := h.forest.ranked
    induction hUp : up x using Nat.strong_induction_on generalizing x with
    | _ n ih =>
      intro hMounted
      cases hParent : views.parent x with
      | none =>
        by_cases hRoot : isRoot x = true
        · exact ⟨x, hRoot, hMounted, .refl x⟩
        · rw [h.tops x (Bool.not_eq_true _ ▸ hRoot) hParent] at hMounted
          cases hMounted
      | some p =>
        obtain ⟨r, hRoot, hTop, hWithin⟩ := ih (up p) (hUp ▸ (hRank x p hParent).1) p rfl
          ((h.mounted x p hParent) ▸ hMounted)
        exact ⟨r, hRoot, hTop, hWithin.trans (.of_parent hParent)⟩
  · rintro ⟨r, -, hTop, hWithin⟩
    rw [h.mounted_within hWithin, hTop]

omit [DecidableEq ι] in
theorem themed_within (h : Tree isRoot emptyTheme views) {top x : ι} {value : Θ}
    (hTop : (views top).m_theme = some value) (hWithin : Within views.parent top x) :
    (views x).m_theme = some value :=
  hWithin.induction (P := fun x => (views x).m_theme = some value) hTop
    fun c p hParent _ ih => by rw [h.themed c p hParent, ih, Option.getD_some]

end Tree

/-! ### Mounting and unmounting -/

def Relinked (views next : Views ι Θ) (v child : ι) (parent : Option ι) (children : List ι) : Prop :=
  ∀ x, ∃ root, next x = { views x with
    m_children := if x = v then children else (views x).m_children
    m_parent := if x = child then parent else (views x).m_parent
    m_rootView := root }

namespace Relinked

variable {views next : Views ι Θ} {v child : ι} {parent : Option ι} {children : List ι}

variable (h : Relinked views next v child parent children)
include h

theorem parent_eq (x : ι) : next.parent x = if x = child then parent else views.parent x := by
  obtain ⟨root, hx⟩ := h x
  show (next x).m_parent = _
  rw [hx]
  rfl

theorem children_eq (x : ι) : next.children x = if x = v then children else views.children x := by
  obtain ⟨root, hx⟩ := h x
  show (next x).m_children = _
  rw [hx]
  rfl

theorem mounted_eq (x : ι) : (next x).m_mounted = (views x).m_mounted := by
  obtain ⟨root, hx⟩ := h x
  rw [hx]

theorem theme_eq (x : ι) : (next x).m_theme = (views x).m_theme := by
  obtain ⟨root, hx⟩ := h x
  rw [hx]

theorem notified_eq (x : ι) : (next x).notified = (views x).notified := by
  obtain ⟨root, hx⟩ := h x
  rw [hx]

theorem asserted_eq (x : ι) : (next x).asserted = (views x).asserted := by
  obtain ⟨root, hx⟩ := h x
  rw [hx]

omit h

theorem of_asked {asked : Views ι Θ}
    (hAsked : Remembers (Function.update views v { views v with m_children := children }) asked) :
    Relinked views (Function.update asked child
      { asked child with m_rootView := none, m_parent := parent }) v child parent children := by
  intro x
  obtain ⟨root, hx⟩ := hAsked x
  by_cases hChild : x = child
  · subst hChild
    refine ⟨none, ?_⟩
    simp only [Function.update_self, hx, if_true]
    by_cases hEq : x = v
    · subst hEq
      simp only [Function.update_self, if_true]
    · simp only [Function.update_of_ne hEq, if_neg hEq]
  · refine ⟨root, ?_⟩
    simp only [Function.update_of_ne hChild, hx, if_neg hChild]
    by_cases hEq : x = v
    · subst hEq
      simp only [Function.update_self, if_true]
    · simp only [Function.update_of_ne hEq, if_neg hEq]

end Relinked

variable [DecidableEq Θ] {fuel index : ℕ} {v child : ι} {views next : Views ι Θ}

theorem mountChildComponentView_steps (hNone : (views child).m_parent = none) (hNe : child ≠ v)
    (h : mountChildComponentView isRoot emptyTheme fuel v child index views = some next) :
    ∃ (asked linked themed : Views ι Θ) (root : Option ι),
      rootComponentView isRoot fuel child (Function.update views v
        { views v with m_children := (views v).m_children.insertIdx index child }) =
          some (root, asked) ∧
      linked = Function.update asked child
        { asked child with m_rootView := none, m_parent := some v } ∧
      Relinked views linked v child (some v) ((views v).m_children.insertIdx index child) ∧
      theme ((views v).m_theme.getD emptyTheme) fuel child linked = some themed ∧
      (if (themed v).m_mounted then onMounted fuel child themed else some themed) = some next := by
  obtain ⟨themed, hSet, h⟩ := Option.bind_eq_some_iff.mp h
  rw [setParent, if_neg] at hSet
  swap
  · rw [Function.update_of_ne hNe, hNone]
    simp
  obtain ⟨⟨root, asked⟩, hAsked, hSet⟩ := Option.bind_eq_some_iff.mp hSet
  have hLinked : Relinked views (Function.update asked child
      { asked child with m_rootView := none, m_parent := some v }) v child (some v)
      ((views v).m_children.insertIdx index child) :=
    .of_asked (rootComponentView_remembers hAsked)
  refine ⟨asked, _, themed, root, hAsked, rfl, hLinked, ?_, h⟩
  rw [← hLinked.theme_eq v]
  exact hSet

theorem unmountChildComponentView_steps (hSome : (views child).m_parent = some v) (hNe : child ≠ v)
    (h : unmountChildComponentView isRoot emptyTheme fuel v child index views = some next) :
    ∃ (asked linked : Views ι Θ) (root : Option ι),
      rootComponentView isRoot fuel child (Function.update views v
        { views v with m_children := (views v).m_children.eraseIdx index }) = some (root, asked) ∧
      linked = Function.update asked child { asked child with m_rootView := none, m_parent := none } ∧
      Relinked views linked v child none ((views v).m_children.eraseIdx index) ∧
      onUnmounted fuel child linked = some next := by
  obtain ⟨linked, hSet, h⟩ := Option.bind_eq_some_iff.mp h
  rw [setParent, if_neg] at hSet
  swap
  · rw [Function.update_of_ne hNe, hSome]
    exact nofun
  obtain ⟨⟨root, asked⟩, hAsked, hSet⟩ := Option.bind_eq_some_iff.mp hSet
  cases hSet
  exact ⟨asked, _, root, hAsked, rfl, .of_asked (rootComponentView_remembers hAsked), h⟩

section Walks

variable (hForest : IsForest views.parent views.children)
include hForest

theorem theme_spec {value : Θ} (hBelow : ∀ x, Within views.parent child x →
      (views x).m_theme = some value → ∀ y, Within views.parent x y → (views y).m_theme = some value)
    (h : theme value fuel child views = some next) :
    (∀ x, ¬Within views.parent child x → next x = views x) ∧
      ∀ x, Within views.parent child x → next x = { views x with m_theme := some value } := by
  have hKids : ∀ x, (views x).m_children = views.children x := fun _ => rfl
  apply walk_spec
    (R := fun (_ : ι) (old new : ComponentView ι Θ) => new = { old with m_theme := some value })
    _ _ hForest _ _ (.refl child) hKids (fun _ _ => rfl) h
  · intro cell other hEnter
    split at hEnter <;> cases hEnter
    rfl
  · exact fun _ => rfl
  · intro x cell _ hEnter
    split at hEnter <;> cases hEnter
    rfl
  · intro x hx hSkip y hy
    have hTheme : (views x).m_theme = some value := by
      by_contra hNot
      rw [if_neg hNot] at hSkip
      cases hSkip
    rw [← hBelow x hx hTheme y hy]

omit [DecidableEq Θ] in
theorem onMounted_spec (h : onMounted fuel child views = some next) :
    (∀ x, ¬Within views.parent child x → next x = views x) ∧
      ∀ x, Within views.parent child x → next x = { views x with
        m_mounted := true
        asserted := (views x).asserted || (views x).m_mounted
        notified := true :: (views x).notified } := by
  have hKids : ∀ x, (views x).m_children = views.children x := fun _ => rfl
  apply walk_spec (R := fun (_ : ι) (old new : ComponentView ι Θ) => new = { old with
      m_mounted := true
      asserted := old.asserted || old.m_mounted
      notified := true :: old.notified }) _ _ hForest _ _ (.refl child) hKids (fun _ _ => rfl) h
  · intro cell other hEnter
    cases hEnter
    rfl
  · exact fun _ => rfl
  · intro x cell _ hEnter
    cases hEnter
    rfl
  · exact nofun

omit [DecidableEq Θ] in
theorem onUnmounted_spec (hBelow : ∀ x, Within views.parent child x →
      (views x).m_mounted = false → ∀ y, Within views.parent x y → (views y).m_mounted = false)
    (h : onUnmounted fuel child views = some next) :
    (∀ x, ¬Within views.parent child x → next x = views x) ∧
      ∀ x, Within views.parent child x → next x =
        if (views x).m_mounted then { views x with
          m_mounted := false
          notified := false :: (views x).notified }
        else views x := by
  have hKids : ∀ x, (views x).m_children = views.children x := fun _ => rfl
  apply walk_spec (R := fun (_ : ι) (old new : ComponentView ι Θ) => new =
      if old.m_mounted then { old with
        m_mounted := false
        notified := false :: old.notified }
      else old) _ _ hForest _ _ (.refl child) hKids (fun _ _ => rfl) h
  · intro cell other hEnter
    split at hEnter <;> cases hEnter
    rfl
  · exact fun _ => rfl
  · intro x cell _ hEnter
    split at hEnter <;> cases hEnter
    rename_i hMounted
    rw [if_pos hMounted]
  · intro x hx hSkip y hy
    have hNot : (views x).m_mounted = false := by
      by_contra hMounted
      rw [if_pos (Bool.not_eq_false _ ▸ hMounted)] at hSkip
      cases hSkip
    rw [hBelow x hx hNot y hy]
    rfl

end Walks

/-! ### Each step keeps what holds -/

omit [DecidableEq Θ] in
theorem mounted_linked (h : Tree isRoot emptyTheme views) {linked : Views ι Θ}
    (hEnabled : Event.Enabled isRoot views (.mount v child index))
    (hLinked : Relinked views linked v child (some v) ((views v).m_children.insertIdx index child)) :
    IsForest linked.parent linked.children ∧
      (∀ x, Within linked.parent child x ↔ Within views.parent child x) ∧
        ∀ x y, Within views.parent x y → Within linked.parent x y := by
  obtain ⟨hNone, -, hNot, hIndex⟩ := hEnabled
  have hParent : ∀ x, x ≠ child → linked.parent x = views.parent x := by
    intro x hx
    rw [hLinked.parent_eq, if_neg hx]
  have hNew : linked.parent child = some v := by rw [hLinked.parent_eq, if_pos rfl]
  refine ⟨?_, ?_, ?_⟩
  · apply IsForest.attach hNone hNot hParent hNew h.forest
    · rw [hLinked.children_eq, if_pos rfl]
      exact List.perm_insertIdx _ _ hIndex
    · intro x hx
      rw [hLinked.children_eq, if_neg hx]
  · intro x
    rw [IsForest.within_attach hNone hParent hNew]
    exact or_iff_left fun hBoth => hNot hBoth.2
  · intro x y hWithin
    exact (IsForest.within_attach hNone hParent hNew x y).mpr (.inl hWithin)

theorem mount_cells (h : Tree isRoot emptyTheme views)
    (hEnabled : Event.Enabled isRoot views (.mount v child index))
    (hRun : mountChildComponentView isRoot emptyTheme fuel v child index views = some next) :
    ∃ (asked linked : Views ι Θ) (root : Option ι),
      rootComponentView isRoot fuel child (Function.update views v
        { views v with m_children := (views v).m_children.insertIdx index child }) =
          some (root, asked) ∧
      linked = Function.update asked child
        { asked child with m_rootView := none, m_parent := some v } ∧
      Relinked views linked v child (some v) ((views v).m_children.insertIdx index child) ∧
      (∀ x, ¬Within views.parent child x → next x = linked x) ∧
      ∀ x, Within views.parent child x → next x = { linked x with
        m_theme := some ((views v).m_theme.getD emptyTheme)
        m_mounted := (views v).m_mounted
        notified := if (views v).m_mounted then true :: (views x).notified else (views x).notified } := by
  obtain ⟨hNone, hRoot, hNot, -⟩ := id hEnabled
  have hNe : child ≠ v := by
    rintro rfl
    exact hNot (.refl child)
  obtain ⟨asked, linked, themed, root, hAsked, hLinkedEq, hLinked, hTheme, hMount⟩ :=
    mountChildComponentView_steps hNone hNe hRun
  obtain ⟨hForest, hWithin, -⟩ := mounted_linked h hEnabled hLinked
  refine ⟨asked, linked, root, hAsked, hLinkedEq, hLinked, ?_⟩
  -- within the child the themes were handed down before
  have hBelow : ∀ x, Within linked.parent child x →
      (linked x).m_theme = some ((views v).m_theme.getD emptyTheme) →
        ∀ y, Within linked.parent x y →
          (linked y).m_theme = some ((views v).m_theme.getD emptyTheme) := by
    intro x hx hOwn y hy
    refine hy.induction (P := fun y => (linked y).m_theme = _) hOwn fun c p hParent hAbove ih => ?_
    have hChild : c ≠ child := by
      rintro rfl
      exact hForest.not_within_parent hParent (hx.trans hAbove)
    rw [hLinked.parent_eq, if_neg hChild] at hParent
    rw [hLinked.theme_eq] at ih ⊢
    rw [h.themed c p hParent, ih, Option.getD_some]
  obtain ⟨hOutTheme, hInTheme⟩ := theme_spec hForest hBelow hTheme
  have hUnmounted : ∀ x, Within views.parent child x → (views x).m_mounted = false := by
    intro x hx
    rw [h.mounted_within hx]
    exact h.tops child hRoot hNone
  have hParent : themed v = linked v := hOutTheme v (mt (hWithin v).mp hNot)
  rw [hParent, hLinked.mounted_eq] at hMount
  by_cases hMounted : (views v).m_mounted = true
  · rw [if_pos hMounted] at hMount
    have hLinks : ∀ x, (themed x).m_parent = (linked x).m_parent ∧
        (themed x).m_children = (linked x).m_children := by
      intro x
      by_cases hx : Within linked.parent child x
      · rw [hInTheme x hx]
        exact ⟨rfl, rfl⟩
      · rw [hOutTheme x hx]
        exact ⟨rfl, rfl⟩
    have hParents : themed.parent = linked.parent := funext fun x => (hLinks x).1
    have hChildren : themed.children = linked.children := funext fun x => (hLinks x).2
    obtain ⟨hOutMount, hInMount⟩ :=
      onMounted_spec (by rw [hParents, hChildren]; exact hForest) hMount
    rw [hParents] at hOutMount hInMount
    refine ⟨fun x hx => ?_, fun x hx => ?_⟩
    · rw [← hWithin] at hx
      rw [hOutMount x hx, hOutTheme x hx]
    · have hCells := hUnmounted x hx
      rw [← hWithin] at hx
      rw [hInMount x hx, hInTheme x hx]
      simp only [hLinked.mounted_eq, hCells, hMounted, if_true, hLinked.notified_eq, Bool.or_false]
  · rw [if_neg hMounted] at hMount
    cases hMount
    rw [Bool.not_eq_true] at hMounted
    refine ⟨fun x hx => hOutTheme x (mt (hWithin x).mp hx), fun x hx => ?_⟩
    rw [hInTheme x ((hWithin x).mpr hx), hMounted, ← hLinked.notified_eq, ← hUnmounted x hx,
      ← hLinked.mounted_eq]
    simp only [hLinked.mounted_eq, hUnmounted x hx]
    rfl

omit [DecidableEq ι] in
theorem within_parent_iff {parent : ι → Option ι} {top c p : ι} (hParent : parent c = some p)
    (hNe : c ≠ top) : Within parent top c ↔ Within parent top p := by
  constructor
  · intro hWithin
    obtain ⟨q, hq, hAbove⟩ := hWithin.of_ne hNe
    rw [hParent] at hq
    cases hq
    exact hAbove
  · exact fun hAbove => hAbove.trans (.of_parent hParent)

/-- One more change is told to a view that was told of the last one. -/
theorem alternate_cons {told : List Bool} (h : List.IsChain (· ≠ ·) (told ++ [false])) {now : Bool}
    (hNow : now ≠ told.head?.getD false) : List.IsChain (· ≠ ·) (now :: told ++ [false]) := by
  cases told with
  | nil => simpa using hNow
  | cons last told => exact List.isChain_cons_cons.mpr ⟨hNow, h⟩

namespace Tree

omit [DecidableEq ι] [DecidableEq Θ] in
theorem not_root_of_within (h : Tree isRoot emptyTheme views) {x : ι} (hChild : isRoot child = false)
    (hWithin : Within views.parent child x) : isRoot x = false := by
  by_contra hRoot
  rw [Bool.not_eq_false] at hRoot
  rw [hWithin.eq_of_parent_none (h.roots x hRoot), hRoot] at hChild
  cases hChild

theorem of_mount (h : Tree isRoot emptyTheme views)
    (hEnabled : Event.Enabled isRoot views (.mount v child index))
    (hRun : mountChildComponentView isRoot emptyTheme fuel v child index views = some next) :
    Tree isRoot emptyTheme next := by
  obtain ⟨asked, linked, root, -, -, hLinked, hOut, hIn⟩ := mount_cells h hEnabled hRun
  obtain ⟨hForest, -, -⟩ := mounted_linked h hEnabled hLinked
  obtain ⟨hNone, hRoot, hNot, -⟩ := hEnabled
  have hLinks : ∀ x, (next x).m_parent = (linked x).m_parent ∧
      (next x).m_children = (linked x).m_children := by
    intro x
    by_cases hx : Within views.parent child x
    · rw [hIn x hx]
      exact ⟨rfl, rfl⟩
    · rw [hOut x hx]
      exact ⟨rfl, rfl⟩
  have hParents : next.parent = linked.parent := funext fun x => (hLinks x).1
  have hChildren : next.children = linked.children := funext fun x => (hLinks x).2
  have hUnmounted : ∀ x, Within views.parent child x → (views x).m_mounted = false := by
    intro x hx
    rw [h.mounted_within hx]
    exact h.tops child hRoot hNone
  constructor
  case forest =>
    rw [hParents, hChildren]
    exact hForest
  case roots =>
    intro r hr
    have hNe : r ≠ child := by
      rintro rfl
      rw [hr] at hRoot
      cases hRoot
    rw [hParents, hLinked.parent_eq, if_neg hNe]
    exact h.roots r hr
  case mounted =>
    intro c p hParent
    rw [hParents, hLinked.parent_eq] at hParent
    split at hParent
    · rename_i hChild
      cases hParent
      rw [hChild, hIn child (.refl child), hOut v hNot, hLinked.mounted_eq]
    · rename_i hChild
      by_cases hp : Within views.parent child p
      · rw [hIn c ((within_parent_iff hParent hChild).mpr hp), hIn p hp]
      · rw [hOut c (mt (within_parent_iff hParent hChild).mp hp), hOut p hp, hLinked.mounted_eq,
          hLinked.mounted_eq]
        exact h.mounted c p hParent
  case tops =>
    intro x hx hTop
    rw [hParents, hLinked.parent_eq] at hTop
    split at hTop
    · cases hTop
    · rename_i hChild
      have hx' : ¬Within views.parent child x :=
        fun hWithin => hChild (hWithin.eq_of_parent_none hTop).symm
      rw [hOut x hx', hLinked.mounted_eq]
      exact h.tops x hx hTop
  case themed =>
    intro c p hParent
    rw [hParents, hLinked.parent_eq] at hParent
    split at hParent
    · rename_i hChild
      cases hParent
      rw [hChild, hIn child (.refl child), hOut v hNot, hLinked.theme_eq]
    · rename_i hChild
      by_cases hp : Within views.parent child p
      · rw [hIn c ((within_parent_iff hParent hChild).mpr hp), hIn p hp]
        rfl
      · rw [hOut c (mt (within_parent_iff hParent hChild).mp hp), hOut p hp, hLinked.theme_eq,
          hLinked.theme_eq]
        exact h.themed c p hParent
  case told =>
    intro x hx
    by_cases hWithin : Within views.parent child x
    · rw [hIn x hWithin]
      cases hMounted : (views v).m_mounted with
      | true => rfl
      | false => exact (hUnmounted x hWithin).symm.trans (h.told x hx)
    · rw [hOut x hWithin, hLinked.mounted_eq, hLinked.notified_eq]
      exact h.told x hx
  case alternate =>
    intro x
    by_cases hWithin : Within views.parent child x
    · rw [hIn x hWithin]
      cases hMounted : (views v).m_mounted with
      | true =>
        apply alternate_cons (h.alternate x)
        rw [← h.told x (h.not_root_of_within hRoot hWithin), hUnmounted x hWithin]
        exact nofun
      | false => exact h.alternate x
    · rw [hOut x hWithin, hLinked.notified_eq]
      exact h.alternate x
  case asserted =>
    intro x
    by_cases hWithin : Within views.parent child x
    · rw [hIn x hWithin]
      exact (hLinked.asserted_eq x).trans (h.asserted x)
    · rw [hOut x hWithin, hLinked.asserted_eq]
      exact h.asserted x

omit [DecidableEq ι] [DecidableEq Θ] in
theorem parent_of_listed (h : Tree isRoot emptyTheme views)
    (hEnabled : Event.Enabled isRoot views (.unmount v child index)) :
    views.parent child = some v :=
  (h.forest.mem_children child v).mp (List.mem_of_getElem? hEnabled)

variable {linked : Views ι Θ}

variable (h : Tree isRoot emptyTheme views)
include h

omit [DecidableEq Θ] in
theorem unmounted_linked (hEnabled : Event.Enabled isRoot views (.unmount v child index))
    (hLinked : Relinked views linked v child none ((views v).m_children.eraseIdx index)) :
    IsForest linked.parent linked.children ∧
      (∀ x, Within linked.parent child x ↔ Within views.parent child x) ∧
        ∀ top x, Within linked.parent top x ↔
          Within views.parent top x ∧ (Within views.parent child x → Within views.parent child top) := by
  have hOld := h.parent_of_listed hEnabled
  have hParent : ∀ x, x ≠ child → linked.parent x = views.parent x := by
    intro x hx
    rw [hLinked.parent_eq, if_neg hx]
  have hNone : linked.parent child = none := by rw [hLinked.parent_eq, if_pos rfl]
  have hWithin := IsForest.within_detach hParent hNone h.forest
  refine ⟨?_, fun x => ?_, hWithin⟩
  · apply IsForest.detach hOld hParent hNone h.forest
    · rw [hLinked.children_eq, if_pos rfl]
      obtain ⟨hIndex, hAt⟩ := List.getElem?_eq_some_iff.mp hEnabled
      rw [← hAt]
      exact List.getElem_cons_eraseIdx_perm hIndex
    · intro x hx
      rw [hLinked.children_eq, if_neg hx]
  · rw [hWithin]
    exact and_iff_left fun _ => .refl child

omit [DecidableEq Θ] in
theorem unlinked_cells (hEnabled : Event.Enabled isRoot views (.unmount v child index))
    (hLinked : Relinked views linked v child none ((views v).m_children.eraseIdx index))
    (hUnmount : onUnmounted fuel child linked = some next) :
    (∀ x, ¬Within views.parent child x → next x = linked x) ∧
      ∀ x, Within views.parent child x → next x = { linked x with
        m_mounted := false
        notified := if (views x).m_mounted then false :: (views x).notified
          else (views x).notified } := by
  obtain ⟨hForest, hWithin, -⟩ := h.unmounted_linked hEnabled hLinked
  have hSame : ∀ x, Within views.parent child x → (views x).m_mounted = (views child).m_mounted :=
    fun x hx => h.mounted_within hx
  have hBelow : ∀ x, Within linked.parent child x → (linked x).m_mounted = false →
      ∀ y, Within linked.parent x y → (linked y).m_mounted = false := by
    intro x hx hNot y hy
    have hy' := (hWithin y).mp (hx.trans hy)
    rw [hLinked.mounted_eq] at hNot ⊢
    rw [hSame y hy', ← hSame x ((hWithin x).mp hx), hNot]
  obtain ⟨hOut, hIn⟩ := onUnmounted_spec hForest hBelow hUnmount
  refine ⟨fun x hx => hOut x (mt (hWithin x).mp hx), fun x hx => ?_⟩
  rw [hIn x ((hWithin x).mpr hx), hLinked.mounted_eq, hLinked.notified_eq]
  cases hMounted : (views x).m_mounted with
  | true => rfl
  | false =>
    have hLinkedMounted : (linked x).m_mounted = false := (hLinked.mounted_eq x).trans hMounted
    show linked x = { linked x with m_mounted := false, notified := (views x).notified }
    rw [← hLinked.notified_eq, ← hLinkedMounted]

theorem unmount_cells (hEnabled : Event.Enabled isRoot views (.unmount v child index))
    (hRun : unmountChildComponentView isRoot emptyTheme fuel v child index views = some next) :
    ∃ (asked linked : Views ι Θ) (root : Option ι),
      rootComponentView isRoot fuel child (Function.update views v
        { views v with m_children := (views v).m_children.eraseIdx index }) = some (root, asked) ∧
      linked = Function.update asked child { asked child with m_rootView := none, m_parent := none } ∧
      Relinked views linked v child none ((views v).m_children.eraseIdx index) ∧
      (∀ x, ¬Within views.parent child x → next x = linked x) ∧
      ∀ x, Within views.parent child x → next x = { linked x with
        m_mounted := false
        notified := if (views x).m_mounted then false :: (views x).notified
          else (views x).notified } := by
  have hOld := h.parent_of_listed hEnabled
  have hNe : child ≠ v := by
    rintro rfl
    exact h.forest.not_within_parent hOld (.refl child)
  obtain ⟨asked, linked, root, hAsked, hLinkedEq, hLinked, hUnmount⟩ :=
    unmountChildComponentView_steps hOld hNe hRun
  exact ⟨asked, linked, root, hAsked, hLinkedEq, hLinked,
    h.unlinked_cells hEnabled hLinked hUnmount⟩

omit [DecidableEq Θ] in
/-- What is left when a child is unlinked and told. -/
theorem of_unlinked (hEnabled : Event.Enabled isRoot views (.unmount v child index))
    (hLinked : Relinked views linked v child none ((views v).m_children.eraseIdx index))
    (hUnmount : onUnmounted fuel child linked = some next) : Tree isRoot emptyTheme next := by
  have hOld := h.parent_of_listed hEnabled
  have hRoot : isRoot child = false := by
    by_contra hRoot
    rw [Bool.not_eq_false] at hRoot
    rw [h.roots child hRoot] at hOld
    cases hOld
  obtain ⟨hOut, hIn⟩ := h.unlinked_cells hEnabled hLinked hUnmount
  obtain ⟨hForest, -, -⟩ := h.unmounted_linked hEnabled hLinked
  have hLinks : ∀ x, (next x).m_parent = (linked x).m_parent ∧
      (next x).m_children = (linked x).m_children ∧ (next x).m_theme = (linked x).m_theme ∧
        (next x).asserted = (linked x).asserted := by
    intro x
    by_cases hx : Within views.parent child x
    · rw [hIn x hx]
      exact ⟨rfl, rfl, rfl, rfl⟩
    · rw [hOut x hx]
      exact ⟨rfl, rfl, rfl, rfl⟩
  have hParents : next.parent = linked.parent := funext fun x => (hLinks x).1
  have hChildren : next.children = linked.children := funext fun x => (hLinks x).2.1
  constructor
  case forest =>
    rw [hParents, hChildren]
    exact hForest
  case roots =>
    intro r hr
    rw [hParents, hLinked.parent_eq]
    split
    · rfl
    · exact h.roots r hr
  case mounted =>
    intro c p hParent
    rw [hParents, hLinked.parent_eq] at hParent
    split at hParent
    · cases hParent
    · rename_i hChild
      by_cases hp : Within views.parent child p
      · rw [hIn c ((within_parent_iff hParent hChild).mpr hp), hIn p hp]
      · rw [hOut c (mt (within_parent_iff hParent hChild).mp hp), hOut p hp, hLinked.mounted_eq,
          hLinked.mounted_eq]
        exact h.mounted c p hParent
  case tops =>
    intro x hx hTop
    rw [hParents, hLinked.parent_eq] at hTop
    by_cases hWithin : Within views.parent child x
    · rw [hIn x hWithin]
    · rw [hOut x hWithin, hLinked.mounted_eq]
      split at hTop
      · rename_i hChild
        exact absurd (hChild ▸ Within.refl x) hWithin
      · exact h.tops x hx hTop
  case themed =>
    intro c p hParent
    rw [hParents, hLinked.parent_eq] at hParent
    split at hParent
    · cases hParent
    · rw [(hLinks c).2.2.1, (hLinks p).2.2.1, hLinked.theme_eq, hLinked.theme_eq]
      exact h.themed c p hParent
  case told =>
    intro x hx
    by_cases hWithin : Within views.parent child x
    · rw [hIn x hWithin]
      cases hMounted : (views x).m_mounted with
      | true => rfl
      | false => exact hMounted.symm.trans (h.told x hx)
    · rw [hOut x hWithin, hLinked.mounted_eq, hLinked.notified_eq]
      exact h.told x hx
  case alternate =>
    intro x
    by_cases hWithin : Within views.parent child x
    · rw [hIn x hWithin]
      cases hMounted : (views x).m_mounted with
      | true =>
        apply alternate_cons (h.alternate x)
        rw [← h.told x (h.not_root_of_within hRoot hWithin), hMounted]
        exact nofun
      | false => exact h.alternate x
    · rw [hOut x hWithin, hLinked.notified_eq]
      exact h.alternate x
  case asserted =>
    intro x
    rw [(hLinks x).2.2.2, hLinked.asserted_eq]
    exact h.asserted x

theorem of_unmount (hEnabled : Event.Enabled isRoot views (.unmount v child index))
    (hRun : unmountChildComponentView isRoot emptyTheme fuel v child index views = some next) :
    Tree isRoot emptyTheme next := by
  have hOld := h.parent_of_listed hEnabled
  have hNe : child ≠ v := by
    rintro rfl
    exact h.forest.not_within_parent hOld (.refl child)
  obtain ⟨asked, linked, root, -, -, hLinked, hUnmount⟩ :=
    unmountChildComponentView_steps hOld hNe hRun
  exact h.of_unlinked hEnabled hLinked hUnmount

theorem of_apply {event : Event ι} (hEnabled : event.Enabled isRoot views)
    (hRun : event.apply isRoot emptyTheme fuel views = some next) :
    Tree isRoot emptyTheme next := by
  cases event with
  | mount v child index => exact h.of_mount hEnabled hRun
  | unmount v child index => exact h.of_unmount hEnabled hRun
  | askRoot v =>
    obtain ⟨⟨root, asked⟩, hAsked, hEq⟩ := Option.map_eq_some_iff.mp hRun
    cases hEq
    exact h.of_remembers (rootComponentView_remembers hAsked)

omit h

omit [DecidableEq ι] [DecidableEq Θ] in
theorem of_initial (h : views.Initial isRoot) : Tree isRoot emptyTheme views := by
  have hNone : ∀ c p, views.parent c ≠ some p := by
    intro c p hParent
    have hTop : views.parent c = none := h.parent c
    rw [hTop] at hParent
    cases hParent
  have hEmpty : ∀ p, views.children p = [] := h.children
  constructor
  · refine ⟨fun c p => ?_, fun p => ?_, fun _ => 0, fun _ => 0, fun c p hParent => ?_⟩
    · rw [hEmpty]
      exact ⟨nofun, fun hParent => absurd hParent (hNone c p)⟩
    · rw [hEmpty]
      exact List.nodup_nil
    · exact absurd hParent (hNone c p)
  · exact fun r _ => h.parent r
  · exact fun c p hParent => absurd hParent (hNone c p)
  · exact fun x hx _ => h.mounted x hx
  · exact fun c p hParent => absurd hParent (hNone c p)
  · intro x hx
    rw [h.mounted x hx, h.notified]
    rfl
  · intro x
    rw [h.notified]
    exact .singleton false
  · exact h.asserted

end Tree

theorem Reachable.tree {accepted : Views ι Θ → Event ι → Prop}
    (h : Reachable isRoot emptyTheme accepted views) : Tree isRoot emptyTheme views := by
  induction h with
  | initial hInitial => exact .of_initial hInitial
  | step _ enabled _ last ih => exact ih.of_apply enabled last

end Fabric
