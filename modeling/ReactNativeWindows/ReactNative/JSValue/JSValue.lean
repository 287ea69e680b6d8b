import ReactNativeWindows.Collections.Entries
import ReactNativeWindows.Control.WhileNext
import ReactNativeWindows.Numbers.Double

/-! `JSValue`, and how it is read from an `IJSValueReader` and written to an `IJSValueWriter`. -/
namespace ReactNative

open Collections (Entries)
open Numbers (Double)
open Control (whileNext whileNext_none whileNext_some)

abbrev StdString := List UInt8

/-- The code units of an `hstring`, and of a `std::wstring`. -/
abbrev HString := List UInt16

/-- `to_hstring` and `to_string` of the Windows runtime. -/
structure StringConversions where
  toHString : StdString → HString
  toString : HString → StdString

inductive JSValueType where
  | null | object | array | string | boolean | int64 | double
  deriving DecidableEq

/-- The data of a `JSValue` over one of the two kinds of strings. -/
inductive JSNode (S : Type) where
  | null
  | object (properties : List (S × JSNode S))
  | array (items : List (JSNode S))
  | string (value : S)
  | boolean (value : Bool)
  | int64 (value : Int64)
  | double (value : Double)

/-- The entries of a `std::map`, in the order of their keys. -/
abbrev StdMap (κ ω : Type) := List (κ × ω)

namespace StdMap

variable {κ ω : Type} [LT κ] [DecidableEq κ] [DecidableLT κ]

/-- `emplace` and `try_emplace`: an entry that is there already stays. -/
def emplace (key : κ) (value : ω) : StdMap κ ω → StdMap κ ω
  | [] => [(key, value)]
  | entry :: rest =>
    if key < entry.1 then (key, value) :: entry :: rest
    else if key = entry.1 then entry :: rest
    else entry :: emplace key value rest

def emplaceAll (entries : List (κ × ω)) (map : StdMap κ ω) : StdMap κ ω :=
  entries.foldl (fun map entry => emplace entry.1 entry.2 map) map

def Sorted (map : StdMap κ ω) : Prop := map.Pairwise fun a b => a.1 < b.1

variable {map : StdMap κ ω} {key : κ}

theorem emplace_last [Std.Irrefl (α := κ) (· < ·)] [Std.Asymm (α := κ) (· < ·)]
    (h : ∀ entry ∈ map, entry.1 < key) (value : ω) :
    emplace key value map = map ++ [(key, value)] := by
  induction map with
  | nil => rfl
  | cons entry rest ih =>
    have hLt : entry.1 < key := h entry List.mem_cons_self
    have hNe : key ≠ entry.1 := fun hEq =>
      Std.Irrefl.irrefl (r := (· < ·)) key (hEq.symm ▸ hLt)
    rw [emplace, if_neg (Std.Asymm.asymm _ _ hLt), if_neg hNe,
      ih fun other hMem => h other (List.mem_cons_of_mem _ hMem), List.cons_append]

theorem mem_emplace {value : ω} {entry : κ × ω} (h : entry ∈ emplace key value map) :
    entry ∈ map ∨ entry = (key, value) := by
  induction map with
  | nil => exact Or.inr (List.mem_singleton.mp h)
  | cons first rest ih =>
    rw [emplace] at h
    split at h
    next => exact (List.mem_cons.mp h).symm
    next =>
      split at h
      next => exact Or.inl h
      next =>
        rcases List.mem_cons.mp h with rfl | hRest
        · exact Or.inl List.mem_cons_self
        · exact (ih hRest).imp_left (List.mem_cons_of_mem _)

variable {entries : List (κ × ω)}

/-- Sorted entries that follow the map's own are put behind them. -/
theorem emplaceAll_sorted [Std.Irrefl (α := κ) (· < ·)] [Std.Asymm (α := κ) (· < ·)]
    (h : Sorted (map ++ entries)) : emplaceAll entries map = map ++ entries := by
  induction entries generalizing map with
  | nil => rw [List.append_nil]; rfl
  | cons entry rest ih =>
    have hLast : ∀ other ∈ map, other.1 < entry.1 := fun other hMem =>
      (List.pairwise_append.mp h).2.2 other hMem entry List.mem_cons_self
    have hRest : Sorted ((map ++ [entry]) ++ rest) := by
      rwa [List.append_assoc, List.singleton_append]
    calc emplaceAll (entry :: rest) map
        = emplaceAll rest (emplace entry.1 entry.2 map) := rfl
      _ = emplaceAll rest (map ++ [entry]) := by rw [emplace_last hLast]
      _ = map ++ entry :: rest := by rw [ih hRest, List.append_assoc, List.singleton_append]

theorem emplace_perm (h : key ∉ map.map Prod.fst) (value : ω) :
    (emplace key value map).Perm ((key, value) :: map) := by
  induction map with
  | nil => rfl
  | cons entry rest ih =>
    rw [List.map_cons, List.mem_cons, not_or] at h
    rw [emplace]
    split
    · rfl
    · rw [if_neg h.1]
      exact ((ih h.2).cons entry).trans (.swap _ _ _)

/-- Entries under new keys all come into the map. -/
theorem emplaceAll_perm (h : ((map ++ entries).map Prod.fst).Nodup) :
    (emplaceAll entries map).Perm (map ++ entries) := by
  induction entries generalizing map with
  | nil => rw [List.append_nil]; rfl
  | cons entry rest ih =>
    have hNew : entry.1 ∉ map.map Prod.fst := by
      rw [List.map_append, List.map_cons, List.nodup_append] at h
      exact fun hMem => h.2.2 entry.1 hMem entry.1 List.mem_cons_self rfl
    have hMap := emplace_perm hNew entry.2
    have hMove : (emplace entry.1 entry.2 map ++ rest).Perm (map ++ entry :: rest) :=
      (hMap.append_right rest).trans List.perm_middle.symm
    exact (ih ((hMove.map Prod.fst).nodup_iff.mpr h)).trans hMove

omit [DecidableEq κ] [DecidableLT κ] in
theorem Sorted.nodup [Std.Irrefl (α := κ) (· < ·)] (h : Sorted map) : (map.map Prod.fst).Nodup := by
  apply List.pairwise_map.mpr
  apply List.Pairwise.imp _ h
  intro a b hLt hEq
  exact Std.Irrefl.irrefl (r := (· < ·)) b.1 (hEq ▸ hLt)

/-- A new key takes its place in the order. -/
theorem Sorted.emplace [IsTrans κ (· < ·)] [Std.Trichotomous (α := κ) (· < ·)] (h : Sorted map)
    (key : κ) (value : ω) : Sorted (emplace key value map) := by
  induction map with
  | nil => exact List.pairwise_singleton _ _
  | cons entry rest ih =>
    obtain ⟨hFirst, hRest⟩ := List.pairwise_cons.mp h
    rw [StdMap.emplace]
    by_cases hLt : key < entry.1
    · rw [if_pos hLt]
      apply List.pairwise_cons.mpr
      refine ⟨fun other hMem => ?_, h⟩
      rcases List.mem_cons.mp hMem with rfl | hLater
      · exact hLt
      · exact IsTrans.trans _ _ _ hLt (hFirst other hLater)
    · rw [if_neg hLt]
      by_cases hKey : key = entry.1
      · rw [if_pos hKey]
        exact h
      · rw [if_neg hKey]
        have hGt : entry.1 < key := by
          by_contra hNot
          exact hKey (Std.Trichotomous.trichotomous key entry.1 hLt hNot)
        apply List.pairwise_cons.mpr
        refine ⟨fun other hMem => ?_, ih hRest⟩
        rcases mem_emplace hMem with hOld | rfl
        · exact hFirst other hOld
        · exact hGt

/-- A key that is there keeps its value. -/
theorem lookup_emplace [BEq κ] [LawfulBEq κ] [Std.Irrefl (α := κ) (· < ·)] [IsTrans κ (· < ·)]
    (h : Sorted map) (key other : κ) (value : ω) :
    List.lookup other (emplace key value map) = List.lookup other (map ++ [(key, value)]) := by
  induction map with
  | nil => rfl
  | cons entry rest ih =>
    obtain ⟨hFirst, hRest⟩ := List.pairwise_cons.mp h
    rw [emplace]
    by_cases hLt : key < entry.1
    · rw [if_pos hLt]
      by_cases hOther : other = key
      · have hNew : ∀ old ∈ entry :: rest, key < old.1 := by
          intro old hMem
          rcases List.mem_cons.mp hMem with rfl | hLater
          · exact hLt
          · exact IsTrans.trans _ _ _ hLt (hFirst old hLater)
        have hNone : List.lookup key (entry :: rest) = none := by
          apply List.lookup_eq_none_iff.mpr
          intro old hMem
          apply bne_iff_ne.mpr
          intro hEq
          exact Std.Irrefl.irrefl (r := (· < ·)) key (Eq.subst hEq.symm (hNew old hMem))
        rw [hOther, List.lookup_append, hNone, List.lookup_cons_self, Option.none_or,
          List.lookup_cons_self]
      · have hNe : other ≠ ((key, value) : κ × ω).1 := hOther
        have hNone : List.lookup other [(key, value)] = none := Entries.lookup_cons_of_ne hNe []
        rw [Entries.lookup_cons_of_ne hNe, List.lookup_append, hNone, Option.or_none]
    · rw [if_neg hLt]
      by_cases hKey : key = entry.1
      · rw [if_pos hKey, List.lookup_append]
        by_cases hOther : other = key
        · obtain ⟨name, old⟩ := entry
          cases hKey
          rw [hOther, List.lookup_cons_self, Option.some_or]
        · have hNe : other ≠ ((key, value) : κ × ω).1 := hOther
          have hNone : List.lookup other [(key, value)] = none := Entries.lookup_cons_of_ne hNe []
          rw [hNone, Option.or_none]
      · rw [if_neg hKey, List.cons_append]
        by_cases hOther : other = entry.1
        · obtain ⟨name, old⟩ := entry
          cases hOther
          rw [List.lookup_cons_self, List.lookup_cons_self]
        · rw [Entries.lookup_cons_of_ne hOther, Entries.lookup_cons_of_ne hOther, ih hRest]

theorem Sorted.emplaceAll [IsTrans κ (· < ·)] [Std.Trichotomous (α := κ) (· < ·)]
    (entries : List (κ × ω)) (h : Sorted map) : Sorted (emplaceAll entries map) := by
  induction entries generalizing map with
  | nil => exact h
  | cons entry rest ih => exact ih (h.emplace entry.1 entry.2)

/-- The first value that comes for a key stays. -/
theorem lookup_emplaceAll [BEq κ] [LawfulBEq κ] [Std.Irrefl (α := κ) (· < ·)] [IsTrans κ (· < ·)]
    [Std.Trichotomous (α := κ) (· < ·)] (key : κ) (entries : List (κ × ω)) (h : Sorted map) :
    List.lookup key (emplaceAll entries map) = List.lookup key (map ++ entries) := by
  induction entries generalizing map with
  | nil => rw [List.append_nil]; rfl
  | cons entry rest ih =>
    rw [show StdMap.emplaceAll (entry :: rest) map =
        StdMap.emplaceAll rest (StdMap.emplace entry.1 entry.2 map) from rfl,
      ih (h.emplace entry.1 entry.2), List.lookup_append, lookup_emplace h, List.lookup_append,
      List.lookup_append, Option.or_assoc, ← List.lookup_append, List.singleton_append]

end StdMap

namespace JSNode

mutual

/-- Every object of the tree is a map. -/
def Ordered : JSNode StdString → Prop
  | .object properties => StdMap.Sorted properties ∧ OrderedProperties properties
  | .array items => OrderedItems items
  | _ => True

def OrderedProperties : List (StdString × JSNode StdString) → Prop
  | [] => True
  | (_, value) :: rest => value.Ordered ∧ OrderedProperties rest

def OrderedItems : List (JSNode StdString) → Prop
  | [] => True
  | value :: rest => value.Ordered ∧ OrderedItems rest

end

mutual

def strings {S : Type} : JSNode S → List S
  | .object properties => stringsOfProperties properties
  | .array items => stringsOfItems items
  | .string value => [value]
  | _ => []

def stringsOfProperties {S : Type} : List (S × JSNode S) → List S
  | [] => []
  | (name, value) :: rest => name :: (value.strings ++ stringsOfProperties rest)

def stringsOfItems {S : Type} : List (JSNode S) → List S
  | [] => []
  | value :: rest => value.strings ++ stringsOfItems rest

end

mutual

/-- A bound on the rounds and calls that reading the tree takes. -/
def fuel {S : Type} : JSNode S → ℕ
  | .object properties => fuelOfProperties properties + 1
  | .array items => fuelOfItems items + 1
  | _ => 1

def fuelOfProperties {S : Type} : List (S × JSNode S) → ℕ
  | [] => 1
  | (_, value) :: rest => value.fuel + fuelOfProperties rest

def fuelOfItems {S : Type} : List (JSNode S) → ℕ
  | [] => 1
  | value :: rest => value.fuel + fuelOfItems rest

end

end JSNode

/-- A `JSValue`: a tree whose objects are maps. -/
structure JSValue where
  node : JSNode StdString
  ordered : node.Ordered

/-- The methods of a reader; a getter leaves the reader as it is. Without a next property the
name is set to the empty string. -/
structure IJSValueReader (σ : Type) where
  valueType : σ → JSValueType
  getNextObjectProperty : σ → Option HString × σ
  getNextArrayItem : σ → Option Unit × σ
  getString : σ → HString
  getBoolean : σ → Bool
  getInt64 : σ → Int64
  getDouble : σ → Double

variable {σ S : Type}

/-- `JSValue::ReadFrom`, with `JSValueObject::ReadFrom` and `JSValueArray::ReadFrom`; the two
ask for the value type once more, which changes nothing. -/
def readFrom (C : StringConversions) (R : IJSValueReader σ) :
    ℕ → σ → Option (JSNode StdString × σ)
  | 0, _ => none
  | fuel + 1, s =>
    match R.valueType s with
    | .null => some (.null, s)
    | .object =>
      (whileNext R.getNextObjectProperty
        (fun name object s => (readFrom C R fuel s).map fun (value, s) =>
          (StdMap.emplace (C.toString name) value object, s))
        fuel [] s).map fun (object, s) => (.object object, s)
    | .array =>
      (whileNext R.getNextArrayItem
        (fun _ array s => (readFrom C R fuel s).map fun (value, s) => (array ++ [value], s))
        fuel [] s).map fun (array, s) => (.array array, s)
    | .string => some (.string (C.toString (R.getString s)), s)
    | .boolean => some (.boolean (R.getBoolean s), s)
    | .int64 => some (.int64 (R.getInt64 s), s)
    | .double => some (.double (R.getDouble s), s)

mutual

/-- The reader shows the tree from the state `s` on, and is behind it in `s'`. -/
inductive Presents (R : IJSValueReader σ) : σ → JSNode HString → σ → Prop where
  | null {s : σ} (h : R.valueType s = .null) : Presents R s .null s
  | object {s s' : σ} {properties : List (HString × JSNode HString)}
      (h : R.valueType s = .object) (hProperties : PresentsProperties R s properties s') :
      Presents R s (.object properties) s'
  | array {s s' : σ} {items : List (JSNode HString)}
      (h : R.valueType s = .array) (hItems : PresentsItems R s items s') :
      Presents R s (.array items) s'
  | string {s : σ} (h : R.valueType s = .string) : Presents R s (.string (R.getString s)) s
  | boolean {s : σ} (h : R.valueType s = .boolean) : Presents R s (.boolean (R.getBoolean s)) s
  | int64 {s : σ} (h : R.valueType s = .int64) : Presents R s (.int64 (R.getInt64 s)) s
  | double {s : σ} (h : R.valueType s = .double) : Presents R s (.double (R.getDouble s)) s

inductive PresentsProperties (R : IJSValueReader σ) :
    σ → List (HString × JSNode HString) → σ → Prop where
  | nil {s s' : σ} (h : R.getNextObjectProperty s = (none, s')) : PresentsProperties R s [] s'
  | cons {s s₁ s₂ s' : σ} {name : HString} {value : JSNode HString}
      {rest : List (HString × JSNode HString)}
      (h : R.getNextObjectProperty s = (some name, s₁)) (hValue : Presents R s₁ value s₂)
      (hRest : PresentsProperties R s₂ rest s') :
      PresentsProperties R s ((name, value) :: rest) s'

inductive PresentsItems (R : IJSValueReader σ) : σ → List (JSNode HString) → σ → Prop where
  | nil {s s' : σ} (h : R.getNextArrayItem s = (none, s')) : PresentsItems R s [] s'
  | cons {s s₁ s₂ s' : σ} {value : JSNode HString} {rest : List (JSNode HString)}
      (h : R.getNextArrayItem s = (some (), s₁)) (hValue : Presents R s₁ value s₂)
      (hRest : PresentsItems R s₂ rest s') : PresentsItems R s (value :: rest) s'

end

namespace JSNode

mutual

/-- The tree with the strings that its reader hands out. -/
def present (C : StringConversions) : JSNode StdString → JSNode HString
  | .null => .null
  | .object properties => .object (presentProperties C properties)
  | .array items => .array (presentItems C items)
  | .string value => .string (C.toHString value)
  | .boolean value => .boolean value
  | .int64 value => .int64 value
  | .double value => .double value

def presentProperties (C : StringConversions) :
    List (StdString × JSNode StdString) → List (HString × JSNode HString)
  | [] => []
  | (name, value) :: rest => (C.toHString name, value.present C) :: presentProperties C rest

def presentItems (C : StringConversions) : List (JSNode StdString) → List (JSNode HString)
  | [] => []
  | value :: rest => value.present C :: presentItems C rest

end

mutual

/-- What `ReadFrom` makes of the tree that a reader shows. -/
def collect (C : StringConversions) : JSNode HString → JSNode StdString
  | .null => .null
  | .object properties => .object (StdMap.emplaceAll (collectProperties C properties) [])
  | .array items => .array (collectItems C items)
  | .string value => .string (C.toString value)
  | .boolean value => .boolean value
  | .int64 value => .int64 value
  | .double value => .double value

def collectProperties (C : StringConversions) :
    List (HString × JSNode HString) → List (StdString × JSNode StdString)
  | [] => []
  | (name, value) :: rest => (C.toString name, collect C value) :: collectProperties C rest

def collectItems (C : StringConversions) : List (JSNode HString) → List (JSNode StdString)
  | [] => []
  | value :: rest => collect C value :: collectItems C rest

end

theorem fuel_pos (v : JSNode S) : 0 < v.fuel := by
  cases v <;> simp [fuel]

theorem fuelOfProperties_pos (properties : List (S × JSNode S)) :
    0 < fuelOfProperties properties := by
  induction properties with
  | nil => exact Nat.one_pos
  | cons property rest ih => exact Nat.add_pos_right _ ih

theorem fuelOfItems_pos (items : List (JSNode S)) : 0 < fuelOfItems items := by
  induction items with
  | nil => exact Nat.one_pos
  | cons value rest ih => exact Nat.add_pos_right _ ih

end JSNode

mutual

/-- `ReadFrom` takes in what the reader shows, however it moves between its states. -/
theorem readFrom_of_presents (C : StringConversions) {R : IJSValueReader σ} {s s' : σ}
    {v : JSNode HString} (h : Presents R s v s') {fuel : ℕ} (hFuel : v.fuel ≤ fuel) :
    readFrom C R fuel s = some (v.collect C, s') := by
  cases fuel with
  | zero => exact absurd hFuel (Nat.not_le.mpr v.fuel_pos)
  | succ fuel =>
    cases h with
    | null h | string h | boolean h | int64 h | double h => simp only [readFrom, h, JSNode.collect]
    | object h hProperties =>
      rw [JSNode.fuel] at hFuel
      have hLoop := readFrom_properties C hProperties (Nat.le_of_succ_le_succ hFuel)
        (Nat.le_of_succ_le_succ hFuel) []
      simp only [readFrom, h, hLoop, JSNode.collect, Option.map_some]
    | array h hItems =>
      rw [JSNode.fuel] at hFuel
      have hLoop := readFrom_items C hItems (Nat.le_of_succ_le_succ hFuel)
        (Nat.le_of_succ_le_succ hFuel) []
      simp only [readFrom, h, hLoop, JSNode.collect, Option.map_some, List.nil_append]

theorem readFrom_properties (C : StringConversions) {R : IJSValueReader σ} {s s' : σ}
    {properties : List (HString × JSNode HString)} (h : PresentsProperties R s properties s')
    {fuel rounds : ℕ} (hFuel : JSNode.fuelOfProperties properties ≤ fuel)
    (hRounds : JSNode.fuelOfProperties properties ≤ rounds) (object : StdMap StdString _) :
    whileNext R.getNextObjectProperty
      (fun name object s => (readFrom C R fuel s).map fun (value, s) =>
        (StdMap.emplace (C.toString name) value object, s)) rounds object s =
      some (StdMap.emplaceAll (JSNode.collectProperties C properties) object, s') := by
  cases rounds with
  | zero => exact absurd hRounds (Nat.not_le.mpr (JSNode.fuelOfProperties_pos properties))
  | succ rounds =>
    cases h with
    | nil h => exact whileNext_none h rounds object
    | @cons _ s₁ s₂ _ name value rest h hValue hRest =>
      rw [JSNode.fuelOfProperties] at hFuel hRounds
      have hPos := value.fuel_pos
      have hRead : readFrom C R fuel s₁ = some (value.collect C, s₂) :=
        readFrom_of_presents C hValue (by omega)
      rw [whileNext_some h (by rw [hRead, Option.map_some])]
      exact readFrom_properties C hRest (by omega) (by omega) _

theorem readFrom_items (C : StringConversions) {R : IJSValueReader σ} {s s' : σ}
    {items : List (JSNode HString)} (h : PresentsItems R s items s')
    {fuel rounds : ℕ} (hFuel : JSNode.fuelOfItems items ≤ fuel)
    (hRounds : JSNode.fuelOfItems items ≤ rounds) (array : List (JSNode StdString)) :
    whileNext R.getNextArrayItem
      (fun _ array s => (readFrom C R fuel s).map fun (value, s) => (array ++ [value], s))
      rounds array s = some (array ++ JSNode.collectItems C items, s') := by
  cases rounds with
  | zero => exact absurd hRounds (Nat.not_le.mpr (JSNode.fuelOfItems_pos items))
  | succ rounds =>
    cases h with
    | nil h =>
      rw [whileNext_none h rounds array, JSNode.collectItems, List.append_nil]
    | @cons _ s₁ s₂ _ value rest h hValue hRest =>
      rw [JSNode.fuelOfItems] at hFuel hRounds
      have hPos := value.fuel_pos
      have hRead : readFrom C R fuel s₁ = some (value.collect C, s₂) :=
        readFrom_of_presents C hValue (by omega)
      rw [whileNext_some h (by rw [hRead, Option.map_some]),
        readFrom_items C hRest (by omega) (by omega), List.append_assoc,
        List.singleton_append, JSNode.collectItems]

end

inductive Yield where
  | property (name : HString) (value : JSNode HString)
  | item (value : JSNode HString)
  | done

/-- The value at the cursor, without the members of a container. -/
def peek (R : IJSValueReader σ) (s : σ) : JSNode HString :=
  match R.valueType s with
  | .null => .null
  | .object => .object []
  | .array => .array []
  | .string => .string (R.getString s)
  | .boolean => .boolean (R.getBoolean s)
  | .int64 => .int64 (R.getInt64 s)
  | .double => .double (R.getDouble s)

/-- The reader, with a log of its answers and of the values at the cursor then. -/
def recording (R : IJSValueReader σ) : IJSValueReader (σ × List Yield) where
  valueType s := R.valueType s.1
  getNextObjectProperty s :=
    match R.getNextObjectProperty s.1 with
    | (some name, s') => (some name, s', s.2 ++ [.property name (peek R s')])
    | (none, s') => (none, s', s.2 ++ [.done])
  getNextArrayItem s :=
    match R.getNextArrayItem s.1 with
    | (some (), s') => (some (), s', s.2 ++ [.item (peek R s')])
    | (none, s') => (none, s', s.2 ++ [.done])
  getString s := R.getString s.1
  getBoolean s := R.getBoolean s.1
  getInt64 s := R.getInt64 s.1
  getDouble s := R.getDouble s.1

namespace JSNode

def shallow : JSNode S → JSNode S
  | .object _ => .object []
  | .array _ => .array []
  | v => v

mutual

/-- Each member of the tree once and in order, with the end of each container. -/
def yields : JSNode HString → List Yield
  | .object properties => yieldsOfProperties properties
  | .array items => yieldsOfItems items
  | _ => []

def yieldsOfProperties : List (HString × JSNode HString) → List Yield
  | [] => [.done]
  | (name, value) :: rest =>
    .property name value.shallow :: (value.yields ++ yieldsOfProperties rest)

def yieldsOfItems : List (JSNode HString) → List Yield
  | [] => [.done]
  | value :: rest => .item value.shallow :: (value.yields ++ yieldsOfItems rest)

end

end JSNode

theorem Presents.peek {R : IJSValueReader σ} {s s' : σ} {v : JSNode HString}
    (h : Presents R s v s') : ReactNative.peek R s = v.shallow := by
  cases h with
  | null h | object h | array h | string h | boolean h | int64 h | double h =>
    simp only [ReactNative.peek, h, JSNode.shallow]

mutual

theorem Presents.recording {R : IJSValueReader σ} {s s' : σ} {v : JSNode HString}
    (h : Presents R s v s') (log : List Yield) :
    Presents (ReactNative.recording R) (s, log) v (s', log ++ v.yields) := by
  cases h with
  | null h =>
    simp only [JSNode.yields, List.append_nil]
    exact .null h
  | object h hProperties =>
    rw [JSNode.yields]
    exact .object h (hProperties.recording log)
  | array h hItems =>
    rw [JSNode.yields]
    exact .array h (hItems.recording log)
  | string h =>
    simp only [JSNode.yields, List.append_nil]
    exact .string (R := ReactNative.recording R) (s := (s, log)) h
  | boolean h =>
    simp only [JSNode.yields, List.append_nil]
    exact .boolean (R := ReactNative.recording R) (s := (s, log)) h
  | int64 h =>
    simp only [JSNode.yields, List.append_nil]
    exact .int64 (R := ReactNative.recording R) (s := (s, log)) h
  | double h =>
    simp only [JSNode.yields, List.append_nil]
    exact .double (R := ReactNative.recording R) (s := (s, log)) h

theorem PresentsProperties.recording {R : IJSValueReader σ} {s s' : σ}
    {properties : List (HString × JSNode HString)} (h : PresentsProperties R s properties s')
    (log : List Yield) :
    PresentsProperties (ReactNative.recording R) (s, log) properties
      (s', log ++ JSNode.yieldsOfProperties properties) := by
  cases h with
  | nil h => exact .nil (by simp only [ReactNative.recording, h, JSNode.yieldsOfProperties])
  | @cons _ s₁ s₂ _ name value rest h hValue hRest =>
    have hFirst : (ReactNative.recording R).getNextObjectProperty (s, log) =
        (some name, s₁, log ++ [.property name value.shallow]) := by
      simp only [ReactNative.recording, h, hValue.peek]
    have hLog : log ++ JSNode.yieldsOfProperties ((name, value) :: rest) =
        log ++ [.property name value.shallow] ++ value.yields ++
          JSNode.yieldsOfProperties rest := by
      simp only [JSNode.yieldsOfProperties, List.append_assoc, List.cons_append, List.nil_append]
    rw [hLog]
    exact .cons hFirst (hValue.recording _) (hRest.recording _)

theorem PresentsItems.recording {R : IJSValueReader σ} {s s' : σ}
    {items : List (JSNode HString)} (h : PresentsItems R s items s') (log : List Yield) :
    PresentsItems (ReactNative.recording R) (s, log) items
      (s', log ++ JSNode.yieldsOfItems items) := by
  cases h with
  | nil h => exact .nil (by simp only [ReactNative.recording, h, JSNode.yieldsOfItems])
  | @cons _ s₁ s₂ _ value rest h hValue hRest =>
    have hFirst : (ReactNative.recording R).getNextArrayItem (s, log) =
        (some (), s₁, log ++ [.item value.shallow]) := by
      simp only [ReactNative.recording, h, hValue.peek]
    have hLog : log ++ JSNode.yieldsOfItems (value :: rest) =
        log ++ [.item value.shallow] ++ value.yields ++ JSNode.yieldsOfItems rest := by
      simp only [JSNode.yieldsOfItems, List.append_assoc, List.cons_append, List.nil_append]
    rw [hLog]
    exact .cons hFirst (hValue.recording _) (hRest.recording _)

end

inductive WriterCall where
  | writeNull
  | writeBoolean (value : Bool)
  | writeInt64 (value : Int64)
  | writeDouble (value : Double)
  | writeString (value : HString)
  | writeObjectBegin
  | writePropertyName (name : HString)
  | writeObjectEnd
  | writeArrayBegin
  | writeArrayEnd
  deriving DecidableEq

namespace JSNode

mutual

/-- The calls that `JSValue::WriteTo` makes on a writer, in their order. -/
def writeTo (C : StringConversions) : JSNode StdString → List WriterCall
  | .null => [.writeNull]
  | .object properties =>
    .writeObjectBegin :: (writePropertiesTo C properties ++ [.writeObjectEnd])
  | .array items => .writeArrayBegin :: (writeItemsTo C items ++ [.writeArrayEnd])
  | .string value => [.writeString (C.toHString value)]
  | .boolean value => [.writeBoolean value]
  | .int64 value => [.writeInt64 value]
  | .double value => [.writeDouble value]

def writePropertiesTo (C : StringConversions) :
    List (StdString × JSNode StdString) → List WriterCall
  | [] => []
  | (name, value) :: rest =>
    .writePropertyName (C.toHString name) :: (value.writeTo C ++ writePropertiesTo C rest)

def writeItemsTo (C : StringConversions) : List (JSNode StdString) → List WriterCall
  | [] => []
  | value :: rest => value.writeTo C ++ writeItemsTo C rest

end

end JSNode

end ReactNative
