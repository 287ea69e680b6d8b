import Mathlib.Data.List.Nodup
import Mathlib.Algebra.GroupWithZero.Nat

/-! Objects as lists of entries, where setting a key replaces its entry or adds one. -/
namespace Collections

universe u v w

variable {κ : Type u} {ω : Type v}

abbrev Entries (κ : Type u) (ω : Type v) := List (κ × ω)

namespace Entries

section Lookup

variable [BEq κ] [LawfulBEq κ]

variable {key : κ}

theorem lookup_cons_of_ne {entry : κ × ω} (h : key ≠ entry.1) (rest : Entries κ ω) :
    List.lookup key (entry :: rest) = List.lookup key rest := by
  rw [List.lookup_cons, beq_eq_false_iff_ne.mpr h]

variable {entries : Entries κ ω}

theorem lookup_isSome_iff :
    (List.lookup key entries).isSome = true ↔ key ∈ entries.map Prod.fst := by
  simp only [List.lookup_isSome_iff, List.mem_map, beq_iff_eq]
  exact exists_congr fun entry => and_congr_right fun _ => eq_comm

theorem isSome_lookup_reverse (key : κ) (entries : Entries κ ω) :
    (List.lookup key entries.reverse).isSome = (List.lookup key entries).isSome := by
  apply Bool.eq_iff_iff.mpr
  rw [lookup_isSome_iff, lookup_isSome_iff, List.map_reverse, List.mem_reverse]

theorem lookup_of_mem {value : ω} (hNodup : (entries.map Prod.fst).Nodup)
    (h : (key, value) ∈ entries) : List.lookup key entries = some value := by
  induction entries with
  | nil => cases h
  | cons entry rest ih =>
    rw [List.map_cons, List.nodup_cons] at hNodup
    rcases List.mem_cons.mp h with rfl | hRest
    · exact List.lookup_cons_self
    · have hNe : key ≠ entry.1 := fun hEq =>
        hNodup.1 (hEq ▸ List.mem_map_of_mem hRest)
      rw [lookup_cons_of_ne hNe, ih hNodup.2 hRest]

theorem mem_of_lookup {value : ω} (h : List.lookup key entries = some value) :
    (key, value) ∈ entries := by
  obtain ⟨before, after, rfl, -⟩ := List.lookup_eq_some_iff.mp h
  exact List.mem_append_right _ List.mem_cons_self

theorem lookup_reverse (hNodup : (entries.map Prod.fst).Nodup) (key : κ) :
    List.lookup key entries.reverse = List.lookup key entries := by
  have hReverse : (entries.reverse.map Prod.fst).Nodup := by
    rwa [List.map_reverse, List.nodup_reverse]
  apply Option.ext
  intro value
  constructor
  · exact fun h => lookup_of_mem hNodup (List.mem_reverse.mp (mem_of_lookup h))
  · exact fun h => lookup_of_mem hReverse (List.mem_reverse.mpr (mem_of_lookup h))

/-- Keys and values under maps, where the one for the keys is injective on those in use. -/
theorem lookup_map {κ' : Type u} {ω' : Type w} [BEq κ'] [LawfulBEq κ'] {f : κ → κ'} {g : ω → ω'}
    (h : ∀ entry ∈ entries, f entry.1 = f key → entry.1 = key) :
    List.lookup (f key) (entries.map fun entry => (f entry.1, g entry.2)) =
      (List.lookup key entries).map g := by
  induction entries with
  | nil => rfl
  | cons entry rest ih =>
    rw [List.map_cons]
    by_cases hKey : key = entry.1
    · obtain ⟨name, value⟩ := entry
      cases hKey
      rw [List.lookup_cons_self, List.lookup_cons_self, Option.map_some]
    · have hNe : f key ≠ f entry.1 := fun hEq =>
        hKey (h entry List.mem_cons_self hEq.symm).symm
      rw [lookup_cons_of_ne (show f key ≠ (f entry.1, g entry.2).1 from hNe), lookup_cons_of_ne hKey,
        ih fun other hMem => h other (List.mem_cons_of_mem _ hMem)]

omit [LawfulBEq κ] in
/-- An entry that is there already stays. -/
def emplace (key : κ) (value : ω) (entries : Entries κ ω) : Entries κ ω :=
  if (List.lookup key entries).isSome then entries else (key, value) :: entries

section Emplace
variable {key other : κ} {value old : ω} {entries : Entries κ ω}

omit [LawfulBEq κ] in
theorem emplace_of_some (h : List.lookup key entries = some old) : emplace key value entries = entries := by
  rw [emplace, h]
  rfl

theorem lookup_emplace_self (h : List.lookup key entries = none) :
    List.lookup key (emplace key value entries) = some value := by
  rw [emplace, h]
  exact List.lookup_cons_self

theorem lookup_emplace_of_ne (h : other ≠ key) (value : ω) (entries : Entries κ ω) :
    List.lookup other (emplace key value entries) = List.lookup other entries := by
  rw [emplace]
  split
  next => rfl
  next => exact lookup_cons_of_ne h entries

end Emplace

end Lookup

variable [DecidableEq κ]

@[grind =]
def set (key : κ) (value : ω) : Entries κ ω → Entries κ ω
  | [] => [(key, value)]
  | entry :: rest => if entry.1 = key then (key, value) :: rest else entry :: set key value rest

def setAll (entries : List (κ × ω)) (object : Entries κ ω) : Entries κ ω :=
  entries.foldl (fun object entry => set entry.1 entry.2 object) object

variable {key : κ} {object : Entries κ ω}

theorem set_of_notMem (h : key ∉ object.map Prod.fst) (value : ω) :
    set key value object = object ++ [(key, value)] := by
  induction object with
  | nil => rfl
  | cons entry rest ih =>
    rw [List.map_cons, List.mem_cons, not_or] at h
    rw [set, if_neg fun hEq => h.1 hEq.symm, ih h.2, List.cons_append]

variable {entries : List (κ × ω)}

/-- New keys are put behind the old ones. -/
theorem setAll_of_nodup (h : ((object ++ entries).map Prod.fst).Nodup) :
    setAll entries object = object ++ entries := by
  induction entries generalizing object with
  | nil => exact (List.append_nil object).symm
  | cons entry rest ih =>
    have hNew : entry.1 ∉ object.map Prod.fst := by
      rw [List.map_append, List.map_cons, List.nodup_append] at h
      exact fun hMem => h.2.2 entry.1 hMem entry.1 List.mem_cons_self rfl
    have hRest : ((object ++ [entry]) ++ rest).map Prod.fst = (object ++ entry :: rest).map
        Prod.fst := by rw [List.append_assoc, List.singleton_append]
    calc setAll (entry :: rest) object
        = setAll rest (set entry.1 entry.2 object) := rfl
      _ = setAll rest (object ++ [entry]) := by rw [set_of_notMem hNew]
      _ = object ++ entry :: rest := by
          rw [ih (hRest ▸ h), List.append_assoc, List.singleton_append]

theorem keys_set (key : κ) (value : ω) (object : Entries κ ω) :
    (set key value object).map Prod.fst =
      if key ∈ object.map Prod.fst then object.map Prod.fst else object.map Prod.fst ++ [key] := by
  induction object with
  | nil => rfl
  | cons entry rest ih =>
    rw [set]
    by_cases hKey : entry.1 = key
    · rw [if_pos hKey, List.map_cons, List.map_cons, hKey, if_pos List.mem_cons_self]
    · rw [if_neg hKey, List.map_cons, ih, List.map_cons]
      by_cases hMem : key ∈ rest.map Prod.fst
      · rw [if_pos hMem, if_pos (List.mem_cons_of_mem _ hMem)]
      · have hNew : key ∉ entry.1 :: rest.map Prod.fst :=
          List.not_mem_cons_of_ne_of_not_mem (fun hEq => hKey hEq.symm) hMem
        rw [if_neg hMem, if_neg hNew, List.cons_append]

theorem mem_keys_setAll (h : key ∈ (setAll entries []).map Prod.fst) :
    key ∈ entries.map Prod.fst := by
  have hKeys : ∀ object : Entries κ ω, key ∈ (setAll entries object).map Prod.fst →
      key ∈ object.map Prod.fst ++ entries.map Prod.fst := by
    clear h
    induction entries with
    | nil => exact fun object hMem => List.mem_append_left _ hMem
    | cons entry rest ih =>
      intro object hMem
      have hSet := ih (set entry.1 entry.2 object) hMem
      rw [keys_set] at hSet
      split at hSet
      · rcases List.mem_append.mp hSet with hObject | hRest
        · exact List.mem_append_left _ hObject
        · exact List.mem_append_right _ (List.mem_cons_of_mem _ hRest)
      · rwa [List.append_assoc, List.singleton_append] at hSet
  exact hKeys [] h

theorem nodup_set (h : (object.map Prod.fst).Nodup) (key : κ) (value : ω) :
    ((set key value object).map Prod.fst).Nodup := by
  rw [keys_set]
  split
  · exact h
  · rename_i hNew
    exact List.concat_eq_append ▸ h.concat hNew

/-- An object has each of its keys once. -/
theorem nodup_setAll (entries : List (κ × ω)) (h : (object.map Prod.fst).Nodup) :
    ((setAll entries object).map Prod.fst).Nodup := by
  induction entries generalizing object with
  | nil => exact h
  | cons entry rest ih => exact ih (nodup_set h entry.1 entry.2)

def erase (key : κ) (object : Entries κ ω) : Entries κ ω :=
  object.eraseP fun entry => decide (entry.1 = key)

theorem nodup_erase (h : (object.map Prod.fst).Nodup) (key : κ) :
    ((erase key object).map Prod.fst).Nodup :=
  (List.eraseP_sublist.map Prod.fst).nodup h

theorem mem_keys_erase (h : (object.map Prod.fst).Nodup) {other : κ}
    (hMem : other ∈ (erase key object).map Prod.fst) :
    other ≠ key ∧ other ∈ object.map Prod.fst := by
  induction object with
  | nil => cases hMem
  | cons entry rest ih =>
    rw [List.map_cons, List.nodup_cons] at h
    by_cases hKey : entry.1 = key
    · have hErase : erase key (entry :: rest) = rest :=
        List.eraseP_cons_of_pos (decide_eq_true hKey)
      rw [hErase] at hMem
      refine ⟨fun hEq => h.1 ?_, List.mem_cons_of_mem _ hMem⟩
      rwa [hKey, ← hEq]
    · have hErase : erase key (entry :: rest) = entry :: erase key rest :=
        List.eraseP_cons_of_neg fun hEq => hKey (of_decide_eq_true hEq)
      rw [hErase, List.map_cons] at hMem
      rcases List.mem_cons.mp hMem with rfl | hRest
      · exact ⟨hKey, List.mem_cons_self⟩
      · exact (ih h.2 hRest).imp id (List.mem_cons_of_mem _)

def without (key : κ) (object : Entries κ ω) : Entries κ ω :=
  object.filter fun entry => entry.1 ≠ key

section Map

variable {κ' : Type u} {ω' : Type w} [DecidableEq κ'] {f : κ → κ'} {g : ω → ω'}

theorem map_set (hInjective : Function.Injective f) (key : κ) (value : ω) (object : Entries κ ω) :
    (set key value object).map (Prod.map f g) =
      set (f key) (g value) (object.map (Prod.map f g)) := by
  induction object with
  | nil => rfl
  | cons entry rest ih =>
    rw [set, List.map_cons, set]
    by_cases hKey : entry.1 = key
    · have hSame : (Prod.map f g entry).1 = f key := congrArg f hKey
      rw [if_pos hKey, if_pos hSame, List.map_cons]
      rfl
    · have hOther : (Prod.map f g entry).1 ≠ f key := fun hEq => hKey (hInjective hEq)
      rw [if_neg hKey, if_neg hOther, List.map_cons, ih]

/-- Renaming the keys one to one, before or after they are set. -/
theorem map_setAll (hInjective : Function.Injective f) (entries : List (κ × ω))
    (object : Entries κ ω) :
    (setAll entries object).map (Prod.map f g) =
      setAll (entries.map (Prod.map f g)) (object.map (Prod.map f g)) := by
  induction entries generalizing object with
  | nil => rfl
  | cons entry rest ih =>
    calc (setAll (entry :: rest) object).map (Prod.map f g)
        = (setAll rest (set entry.1 entry.2 object)).map (Prod.map f g) := rfl
      _ = _ := by
          rw [ih, map_set hInjective]
          rfl

end Map

def weigh (weight : ω → ℕ) (object : Entries κ ω) : ℕ :=
  (object.map fun entry => weight entry.2).sum

omit [DecidableEq κ] in
theorem weigh_cons (weight : ω → ℕ) (key : κ) (value : ω) (rest : Entries κ ω) :
    weigh weight ((key, value) :: rest) = weight value + weigh weight rest := by
  rw [weigh, List.map_cons, List.sum_cons, weigh]

variable [BEq κ] [LawfulBEq κ]

theorem lookup_set (key other : κ) (value : ω) (object : Entries κ ω) :
    List.lookup other (set key value object) = List.lookup other ((key, value) :: object) := by
  induction object with
  | nil => rfl
  | cons entry rest ih =>
    rw [set]
    by_cases hEntry : entry.1 = key
    · rw [if_pos hEntry]
      by_cases hOther : other = key
      · rw [hOther, List.lookup_cons_self, List.lookup_cons_self]
      · rw [lookup_cons_of_ne hOther, lookup_cons_of_ne hOther,
          lookup_cons_of_ne (hEntry ▸ hOther)]
    · rw [if_neg hEntry]
      by_cases hOther : other = key
      · have hNe : other ≠ entry.1 := fun hEq => hEntry (hEq.symm.trans hOther)
        rw [lookup_cons_of_ne hNe, ih, hOther, List.lookup_cons_self, List.lookup_cons_self]
      · by_cases hSame : other = entry.1
        · obtain ⟨name, old⟩ := entry
          cases hSame
          rw [List.lookup_cons_self, lookup_cons_of_ne hOther, List.lookup_cons_self]
        · rw [lookup_cons_of_ne hSame, ih, lookup_cons_of_ne hOther, lookup_cons_of_ne hOther,
            lookup_cons_of_ne hSame]

/-- The last value that was set for a key stays. -/
theorem lookup_setAll (key : κ) (entries : List (κ × ω)) (object : Entries κ ω) :
    List.lookup key (setAll entries object) = List.lookup key (entries.reverse ++ object) := by
  induction entries generalizing object with
  | nil => rfl
  | cons entry rest ih =>
    rw [show setAll (entry :: rest) object = setAll rest (set entry.1 entry.2 object) from rfl,
      ih, List.lookup_append, lookup_set, List.reverse_cons, List.append_assoc, List.lookup_append,
      List.singleton_append]

theorem lookup_without_self (key : κ) (object : Entries κ ω) :
    List.lookup key (without key object) = none := by
  rw [List.lookup_eq_none_iff]
  intro entry hMem
  have hNe : entry.1 ≠ key := of_decide_eq_true (List.mem_filter.mp hMem).2
  exact bne_iff_ne.mpr hNe.symm

theorem lookup_without_of_ne {other : κ} (h : other ≠ key) (object : Entries κ ω) :
    List.lookup other (without key object) = List.lookup other object := by
  induction object with
  | nil => rfl
  | cons entry rest ih =>
    by_cases hKey : entry.1 = key
    · have hWithout : without key (entry :: rest) = without key rest :=
        List.filter_cons_of_neg (by simpa using hKey)
      rw [hWithout, ih, lookup_cons_of_ne (hKey ▸ h)]
    · have hWithout : without key (entry :: rest) = entry :: without key rest :=
        List.filter_cons_of_pos (by simpa using hKey)
      rw [hWithout, List.lookup_cons, List.lookup_cons, ih]

theorem lookup_erase_of_ne {other : κ} (h : other ≠ key) (object : Entries κ ω) :
    List.lookup other (erase key object) = List.lookup other object := by
  induction object with
  | nil => rfl
  | cons entry rest ih =>
    by_cases hKey : entry.1 = key
    · have hErase : erase key (entry :: rest) = rest :=
        List.eraseP_cons_of_pos (decide_eq_true hKey)
      rw [hErase, lookup_cons_of_ne (hKey ▸ h)]
    · have hErase : erase key (entry :: rest) = entry :: erase key rest :=
        List.eraseP_cons_of_neg fun hEq => hKey (of_decide_eq_true hEq)
      rw [hErase, List.lookup_cons, List.lookup_cons, ih]

variable (weight : ω → ℕ)

/-- Setting a key takes away its old value, if there is one, and adds the new one. -/
theorem weigh_set (key : κ) (value : ω) (object : Entries κ ω) :
    weigh weight (set key value object) + ((List.lookup key object).map weight).getD 0 =
      weigh weight object + weight value := by
  induction object with
  | nil => exact Nat.add_comm _ _
  | cons entry rest ih =>
    obtain ⟨name, old⟩ := entry
    rw [set]
    by_cases hKey : name = key
    · rw [if_pos hKey, hKey, List.lookup_cons_self, weigh_cons, weigh_cons, Option.map_some,
        Option.getD_some]
      omega
    · rw [if_neg hKey, lookup_cons_of_ne fun hEq => hKey hEq.symm, weigh_cons, weigh_cons]
      omega

theorem weigh_erase (key : κ) (object : Entries κ ω) :
    weigh weight (erase key object) + ((List.lookup key object).map weight).getD 0 =
      weigh weight object := by
  induction object with
  | nil => rfl
  | cons entry rest ih =>
    obtain ⟨name, old⟩ := entry
    by_cases hKey : name = key
    · have hErase : erase key ((name, old) :: rest) = rest :=
        List.eraseP_cons_of_pos (decide_eq_true hKey)
      rw [hErase, hKey, List.lookup_cons_self, weigh_cons, Option.map_some, Option.getD_some,
        Nat.add_comm]
    · have hErase : erase key ((name, old) :: rest) = (name, old) :: erase key rest :=
        List.eraseP_cons_of_neg fun hEq => hKey (of_decide_eq_true hEq)
      rw [hErase, lookup_cons_of_ne fun hEq => hKey hEq.symm, weigh_cons, weigh_cons,
        Nat.add_assoc, ih]

end Entries

end Collections
