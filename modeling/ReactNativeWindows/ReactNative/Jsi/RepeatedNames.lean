import ReactNativeWindows.ReactNative.JSValue.TreeWriterProtocol
import ReactNativeWindows.ReactNative.Jsi.DynamicWriter

/-! What `JSValueTreeWriter` and `DynamicWriter` make of the same calls, where an object may name
a property more than once. -/
namespace ReactNative

open Collections (Entries)
open Unicode

namespace JSNode

mutual

/-- The tree of a `JSValue` is that of a `folly::dynamic`: objects with the same properties, in
whatever order. -/
def SameTree : JSNode StdString → Dynamic → Prop
  | .null, .null => True
  | .boolean a, .boolean b => a = b
  | .int64 a, .int64 b => a = b
  | .double a, .double b => a = b
  | .string a, .string b => a = b
  | .array items, .array others => SameItems items others
  | .object properties, .object members =>
    SameProperties properties members ∧
      ∀ name, (members.lookup name).isSome = true → (properties.lookup name).isSome = true
  | _, _ => False

def SameProperties : List (StdString × JSNode StdString) → List (Utf8 × Dynamic) → Prop
  | [], _ => True
  | (name, value) :: rest, members =>
    (∃ member, members.lookup name = some member ∧ value.SameTree member) ∧
      SameProperties rest members

def SameItems : List (JSNode StdString) → List Dynamic → Prop
  | [], [] => True
  | value :: rest, other :: others => value.SameTree other ∧ SameItems rest others
  | _, _ => False

end

mutual

/-- The one value with the first of the values under each name of its objects is the other with
the last of them. -/
def FirstIsLast : Written → Written → Prop
  | .null, .null => True
  | .boolean a, .boolean b => a = b
  | .int64 a, .int64 b => a = b
  | .double a, .double b => a = b
  | .string a, .string b => a = b
  | .array items, .array others => FirstIsLastItems items others
  | .object properties, .object others =>
    FirstIsLastProperties [] properties others ∧
      ∀ name, (others.lookup name).isSome = true → (properties.lookup name).isSome = true
  | _, _ => False

/-- The first value of each name that is not among these, against the last one. -/
def FirstIsLastProperties (names : List (List Char)) :
    List (List Char × Written) → List (List Char × Written) → Prop
  | [], _ => True
  | (name, value) :: rest, others =>
    (name ∈ names ∨ ∃ other, others.reverse.lookup name = some other ∧ value.FirstIsLast other) ∧
      FirstIsLastProperties (name :: names) rest others

def FirstIsLastItems : List Written → List Written → Prop
  | [], [] => True
  | value :: rest, other :: others => value.FirstIsLast other ∧ FirstIsLastItems rest others
  | _, _ => False

end

theorem sameProperties_iff {properties : List (StdString × JSNode StdString)}
    {members : List (Utf8 × Dynamic)} (hNodup : (properties.map Prod.fst).Nodup) :
    SameProperties properties members ↔ ∀ name value, properties.lookup name = some value →
      ∃ member, members.lookup name = some member ∧ value.SameTree member := by
  have hMem : SameProperties properties members ↔ ∀ property ∈ properties,
      ∃ member, members.lookup property.1 = some member ∧ property.2.SameTree member := by
    clear hNodup
    induction properties with
    | nil => simp [SameProperties]
    | cons property rest ih => rw [SameProperties, ih, List.forall_mem_cons]
  rw [hMem]
  constructor
  · intro h name value hLookup
    exact h (name, value) (Entries.mem_of_lookup hLookup)
  · intro h property hProperty
    exact h property.1 property.2 (Entries.lookup_of_mem hNodup hProperty)

variable {properties : List (List Char × Written)}

theorem firstIsLastProperties_iff {names : List (List Char)} {others : List (List Char × Written)} :
    FirstIsLastProperties names properties others ↔ ∀ name value, name ∉ names →
      properties.lookup name = some value →
        ∃ other, others.reverse.lookup name = some other ∧ value.FirstIsLast other := by
  induction properties generalizing names with
  | nil => simp [FirstIsLastProperties]
  | cons property rest ih =>
    obtain ⟨first, firstValue⟩ := property
    rw [FirstIsLastProperties, ih]
    constructor
    · intro h name value hNew hLookup
      by_cases hName : name = first
      · rw [hName, List.lookup_cons_self, Option.some_inj] at hLookup
        rw [hName, ← hLookup]
        exact h.1.resolve_left (hName ▸ hNew)
      · rw [Entries.lookup_cons_of_ne hName] at hLookup
        exact h.2 name value (List.not_mem_cons_of_ne_of_not_mem hName hNew) hLookup
    · intro h
      constructor
      · by_cases hFirst : first ∈ names
        · exact Or.inl hFirst
        · exact Or.inr (h first firstValue hFirst List.lookup_cons_self)
      · intro name value hNew hLookup
        rw [List.mem_cons, not_or] at hNew
        apply h name value hNew.2
        rwa [Entries.lookup_cons_of_ne hNew.1]

theorem lookup_toJSValue (properties : List (List Char × Written)) (name : List Char) :
    List.lookup (utf8 name) (StdMap.emplaceAll (toJSValueProperties properties) []) =
      (List.lookup name properties).map toJSValue := by
  rw [StdMap.lookup_emplaceAll _ _ List.Pairwise.nil, List.nil_append, toJSValueProperties_eq_map]
  exact Entries.lookup_map fun _ _ hEq => utf8_injective hEq

theorem lookup_toDynamic (properties : List (List Char × Written)) (name : List Char) :
    List.lookup (utf8 name) (Entries.setAll (toDynamicMembers properties) []) =
      (List.lookup name properties.reverse).map toDynamic := by
  rw [Entries.lookup_setAll, List.append_nil, toDynamicMembers_eq_map, ← List.map_reverse]
  exact Entries.lookup_map fun _ _ hEq => utf8_injective hEq

/-- The names in an object of a `JSValue` are those that were written. -/
theorem name_of_lookup_toJSValue {key : StdString} {value : JSNode StdString}
    (h : List.lookup key (StdMap.emplaceAll (toJSValueProperties properties) []) = some value) :
    ∃ name, utf8 name = key := by
  rw [StdMap.lookup_emplaceAll _ _ List.Pairwise.nil, List.nil_append,
    toJSValueProperties_eq_map] at h
  obtain ⟨property, -, hKey⟩ := List.mem_map.mp (Entries.mem_of_lookup h)
  exact ⟨property.1, congrArg Prod.fst hKey⟩

theorem name_of_lookup_toDynamic {key : Utf8}
    (h : (List.lookup key (Entries.setAll (toDynamicMembers properties) [])).isSome = true) :
    ∃ name, utf8 name = key := by
  have hKey := Entries.mem_keys_setAll (Entries.lookup_isSome_iff.mp h)
  rw [toDynamicMembers_eq_map, List.map_map] at hKey
  obtain ⟨property, -, hName⟩ := List.mem_map.mp hKey
  exact ⟨property.1, hName⟩

mutual

/-- The `JSValue` of one value is the `folly::dynamic` of the other where its first values are the
last ones of that. -/
theorem sameTree_iff : ∀ v w : Written, v.toJSValue.SameTree w.toDynamic ↔ v.FirstIsLast w
  | .object properties, .object others => by
    rw [toJSValue, toDynamic, SameTree, FirstIsLast,
      sameProperties_iff (StdMap.Sorted.emplaceAll _ List.Pairwise.nil).nodup,
      firstIsLastProperties_iff]
    have hValues := sameTree_values properties
    apply and_congr
    · constructor
      · intro h name value _ hLookup
        obtain ⟨member, hMember, hSame⟩ := h (utf8 name) value.toJSValue
          (by rw [lookup_toJSValue, hLookup, Option.map_some])
        rw [lookup_toDynamic, Option.map_eq_some_iff] at hMember
        obtain ⟨other, hOther, rfl⟩ := hMember
        exact ⟨other, hOther, (hValues name value (Entries.mem_of_lookup hLookup) other).mp hSame⟩
      · intro h key node hNode
        obtain ⟨name, rfl⟩ := name_of_lookup_toJSValue hNode
        rw [lookup_toJSValue, Option.map_eq_some_iff] at hNode
        obtain ⟨value, hLookup, rfl⟩ := hNode
        obtain ⟨other, hOther, hFirst⟩ := h name value List.not_mem_nil hLookup
        refine ⟨other.toDynamic, ?_, ?_⟩
        · rw [lookup_toDynamic, hOther, Option.map_some]
        · exact (hValues name value (Entries.mem_of_lookup hLookup) other).mpr hFirst
    · constructor
      · intro h name hName
        have hKey := h (utf8 name)
        rw [lookup_toDynamic, lookup_toJSValue, Option.isSome_map, Option.isSome_map,
          Entries.isSome_lookup_reverse] at hKey
        exact hKey hName
      · intro h key hKey
        obtain ⟨name, rfl⟩ := name_of_lookup_toDynamic hKey
        rw [lookup_toDynamic, Option.isSome_map, Entries.isSome_lookup_reverse] at hKey
        rw [lookup_toJSValue, Option.isSome_map]
        exact h name hKey
  | .array items, .array others => by
    rw [toJSValue, toDynamic, SameTree, FirstIsLast]
    exact sameItems_iff items others
  | .string a, .string b => by
    rw [toJSValue, toDynamic, SameTree, FirstIsLast]
    exact utf8_injective.eq_iff
  | .null, .null => Iff.rfl
  | .boolean _, .boolean _ => Iff.rfl
  | .int64 _, .int64 _ => Iff.rfl
  | .double _, .double _ => Iff.rfl
  | .null, .object _ | .null, .array _ | .null, .string _ | .null, .boolean _ | .null, .int64 _
  | .null, .double _ => Iff.rfl
  | .object _, .null | .object _, .array _ | .object _, .string _ | .object _, .boolean _
  | .object _, .int64 _ | .object _, .double _ => Iff.rfl
  | .array _, .null | .array _, .object _ | .array _, .string _ | .array _, .boolean _
  | .array _, .int64 _ | .array _, .double _ => Iff.rfl
  | .string _, .null | .string _, .object _ | .string _, .array _ | .string _, .boolean _
  | .string _, .int64 _ | .string _, .double _ => Iff.rfl
  | .boolean _, .null | .boolean _, .object _ | .boolean _, .array _ | .boolean _, .string _
  | .boolean _, .int64 _ | .boolean _, .double _ => Iff.rfl
  | .int64 _, .null | .int64 _, .object _ | .int64 _, .array _ | .int64 _, .string _
  | .int64 _, .boolean _ | .int64 _, .double _ => Iff.rfl
  | .double _, .null | .double _, .object _ | .double _, .array _ | .double _, .string _
  | .double _, .boolean _ | .double _, .int64 _ => Iff.rfl

theorem sameTree_values : ∀ (properties : List (List Char × Written)) (name : List Char)
    (value : Written), (name, value) ∈ properties →
      ∀ w : Written, value.toJSValue.SameTree w.toDynamic ↔ value.FirstIsLast w
  | [], _, _, hMem => absurd hMem List.not_mem_nil
  | (first, firstValue) :: rest, name, value, hMem => by
    have hFirst := sameTree_iff firstValue
    rcases List.mem_cons.mp hMem with hEq | hRest
    · cases hEq
      exact hFirst
    · exact sameTree_values rest name value hRest

theorem sameItems_iff : ∀ items others : List Written,
    SameItems (toJSValueItems items) (toDynamicItems others) ↔ FirstIsLastItems items others
  | [], [] => Iff.rfl
  | [], _ :: _ => Iff.rfl
  | _ :: _, [] => Iff.rfl
  | value :: rest, other :: others =>
    and_congr (sameTree_iff value other) (sameItems_iff rest others)

end

end JSNode

def Writes (calls : List WriterCall) (value : Written) : Prop :=
  calls.foldlM WriterState.write .start = some (.finished value)

/-- Both writers take the calls, and the values taken from them are the same tree. -/
def SameResult (calls : List WriterCall) : Prop :=
  ∃ tree dynamic, calls.foldlM (JSValueTreeWriter.write windowsStrings) .make = some tree ∧
    calls.foldlM DynamicWriter.write .make = some dynamic ∧
    tree.takeValue.SameTree dynamic.takeValue

theorem Writes.sameResult_iff {calls : List WriterCall} {value : Written} (h : Writes calls value) :
    SameResult calls ↔ value.toJSValue.SameTree value.toDynamic := by
  have hTree := JSValueTreeWriter.foldlM_write h
  have hDynamic : calls.foldlM DynamicWriter.write .make =
      some (DynamicWriter.ofState (.finished value)) := by
    rw [DynamicWriter.foldlM_write, h]
    rfl
  constructor
  · rintro ⟨tree, dynamic, hTaken, hOther, hSame⟩
    cases hTaken.symm.trans hTree
    cases hOther.symm.trans hDynamic
    exact hSame
  · intro hSame
    exact ⟨_, _, hTree, hDynamic, hSame⟩

/-- The two writers make the same tree exactly where, for each name in each object, the first value
under it is the last one: the first as the one writer reads it, the last as the other does. -/
theorem same_result_where_first_is_last (calls : List WriterCall) (value : Written)
    (h : Writes calls value) : SameResult calls ↔ value.FirstIsLast value := by
  rw [h.sameResult_iff]
  exact JSNode.sameTree_iff value value

/-- `{ a: 1, a: 1 }` is the same tree for both. -/
theorem equal_values_same_result :
    SameResult [.writeObjectBegin, .writePropertyName [97], .writeInt64 1, .writePropertyName [97],
      .writeInt64 1, .writeObjectEnd] := by
  have hWrites : Writes [.writeObjectBegin, .writePropertyName [97], .writeInt64 1,
      .writePropertyName [97], .writeInt64 1, .writeObjectEnd]
        (.object [(['a'], .int64 1), (['a'], .int64 1)]) := rfl
  apply (same_result_where_first_is_last _ _ hWrites).mpr
  refine ⟨⟨Or.inr ⟨.int64 1, rfl, rfl⟩, Or.inl List.mem_cons_self, trivial⟩, fun _ hName => hName⟩

/-- `{ a: 1, a: 2 }` is `{ a: 1 }` for the one and `{ a: 2 }` for the other. -/
theorem repeated_name_differs :
    Writes [.writeObjectBegin, .writePropertyName [97], .writeInt64 1, .writePropertyName [97],
      .writeInt64 2, .writeObjectEnd] (.object [(['a'], .int64 1), (['a'], .int64 2)]) ∧
    ¬ SameResult [.writeObjectBegin, .writePropertyName [97], .writeInt64 1,
      .writePropertyName [97], .writeInt64 2, .writeObjectEnd] := by
  refine ⟨rfl, ?_⟩
  rintro ⟨tree, dynamic, hTree, hDynamic, hSame⟩
  cases hTree
  cases hDynamic
  obtain ⟨⟨⟨member, hMember, hValue⟩, -⟩, -⟩ := hSame
  cases hMember
  have hEq : (1 : Int64) = 2 := hValue
  exact absurd hEq (by decide)

end ReactNative
