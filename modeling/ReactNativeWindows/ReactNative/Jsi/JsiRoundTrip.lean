import ReactNativeWindows.ReactNative.Jsi.JsiReader
import ReactNativeWindows.ReactNative.Jsi.JsiWriter

/-! Which JavaScript values come back from `JSValue::ReadFrom` and `JSValue::WriteTo`. -/
namespace ReactNative

open Collections (Entries)
open Numbers (Double)
open Unicode
open JsiWriter (keyOf keyOf_plain plain_of_keyOf)

namespace JsiValue

mutual

def numbers : PlainValue → List Double
  | .number value => [value]
  | .array items => numbersOfItems items
  | .object properties => numbersOfProperties properties
  | _ => []

def numbersOfProperties : List (Utf16 × PlainValue) → List Double
  | [] => []
  | (_, value) :: rest => value.numbers ++ numbersOfProperties rest

def numbersOfItems : List PlainValue → List Double
  | [] => []
  | value :: rest => value.numbers ++ numbersOfItems rest

end

mutual

/-- What a `JSValue` and its writer can hold: integral numbers of 64 bits, strings without lone
surrogates, plain property names other than `__proto__`, and containers that an `int` can count. -/
def Fits : PlainValue → Prop
  | .number value => value.isFloor = true → ∃ i, value.IsInt64 i
  | .string value => WellFormed value
  | .array items => items.length < 2 ^ 31 ∧ FitsInItems items
  | .object properties => properties.length < 2 ^ 31 ∧ FitsInProperties properties
  | _ => True

def FitsInProperties : List (Utf16 × PlainValue) → Prop
  | [] => True
  | (name, value) :: rest =>
    (PlainUnits name ∧ name ≠ protoName) ∧ value.Fits ∧ FitsInProperties rest

def FitsInItems : List PlainValue → Prop
  | [] => True
  | value :: rest => value.Fits ∧ FitsInItems rest

end

variable (E : JsiPlatform)

def back (value : PlainValue) : BuiltValue :=
  ((value.shown E).collect windowsStrings).texts.render (keyOf E) id

theorem readFrom_make {value : PlainValue} (hDistinct : value.Distinct) {fuel : ℕ}
    (hFuel : (value.shown E).fuel ≤ fuel) :
    readFrom windowsStrings (jsiReader E) fuel (JsiReader.make value) =
      some ((value.shown E).collect windowsStrings, JsiReader.closed value []) :=
  readFrom_of_presents windowsStrings (JsiReader.presents E value [] hDistinct) hFuel

theorem moveResult_writeTo (node : JSNode StdString) :
    ((node.writeTo windowsStrings).foldlM (JsiWriter.write E) JsiWriter.make).bind
      JsiWriter.moveResult = some (node.texts.render (keyOf E) id) := by
  rw [JsiWriter.foldlM_write, WriterState.write_node]
  exact JsiWriter.moveResult_finished node.texts

theorem back_number (value : Double) :
    back E (.number value) =
      .number (if value.isFloor then .ofInt64 (value.toInt64 E.undefinedInt64) else value) := by
  rw [back, shown]
  by_cases h : value.isFloor = true
  · rw [if_pos h, if_pos h]
    rfl
  · rw [if_neg h, if_neg h]
    rfl

theorem back_string (value : Utf16) :
    back E (.string value) = .string (utf16 (decodeUtf16 value)) := by
  have hString : windowsStrings.toString (toUtf16 (utf8 value)) = toUtf8 value :=
    toUtf8_toUtf16_toUtf8 value
  rw [back, shown, JSNode.collect, hString, JSNode.texts, JSNode.render, toUtf8, decodeUtf8_utf8]

theorem back_items (count : ℕ) (items : List PlainValue) :
    JSNode.renderItems (keyOf E) id (JSNode.textsOfItems
      (JSNode.collectItems windowsStrings (shownItems E count items))) =
      (items.take count).map (back E) := by
  induction items generalizing count with
  | nil => rw [List.take_nil]; rfl
  | cons value rest ih =>
    cases count with
    | zero => rfl
    | succ count =>
      rw [shownItems, if_neg (Nat.succ_ne_zero count), Nat.add_sub_cancel, List.take_succ_cons,
        List.map_cons, ← ih count]
      rfl

theorem back_array (items : List PlainValue) :
    back E (.array items) = .array ((items.take (limit items.length)).map (back E)) := by
  rw [back, shown, JSNode.collect, JSNode.texts, JSNode.render, back_items]

def collectProperty (property : Utf16 × PlainValue) : StdString × JSNode StdString :=
  (toUtf8 property.1, (property.2.shown E).collect windowsStrings)

theorem collect_properties (count : ℕ) (properties : List (Utf16 × PlainValue)) :
    JSNode.collectProperties windowsStrings (shownProperties E count properties) =
      (properties.take count).map (collectProperty E) := by
  induction properties generalizing count with
  | nil => rw [List.take_nil]; rfl
  | cons property rest ih =>
    obtain ⟨name, value⟩ := property
    cases count with
    | zero => rfl
    | succ count =>
      have hName : windowsStrings.toString (toUtf16 (utf8 name)) = toUtf8 name :=
        toUtf8_toUtf16_toUtf8 name
      rw [shownProperties, if_neg (Nat.succ_ne_zero count), Nat.add_sub_cancel,
        List.take_succ_cons, List.map_cons, ← ih count, JSNode.collectProperties, hName]
      rfl

theorem toUtf8_inj {a b : Utf16} (ha : WellFormed a) (hb : WellFormed b)
    (h : toUtf8 a = toUtf8 b) : a = b := by
  have hText : decodeUtf16 a = decodeUtf16 b := utf8_injective h
  rw [← ha, ← hb, hText]

theorem keyOf_toUtf8 {name : Utf16} (h : PlainUnits name) :
    keyOf E (decodeUtf8 (toUtf8 name)) = name := by
  have hFormed : utf16 (decodeUtf16 name) = name := wellFormed_of_plain h
  have hText : PlainText (decodeUtf16 name) := plainText_of_units (by rwa [hFormed])
  rw [toUtf8, decodeUtf8_utf8, keyOf_plain E hText, hFormed]

/-- The properties that are written, in the order of the map. -/
def writtenProperties (properties : List (Utf16 × PlainValue)) : List (Utf16 × BuiltValue) :=
  JSNode.renderProperties (keyOf E) id
    (JSNode.textsOfProperties (StdMap.emplaceAll (properties.map (collectProperty E)) []))

theorem back_object (properties : List (Utf16 × PlainValue)) :
    back E (.object properties) = .object (setProperties
      (writtenProperties E (properties.take (limit properties.length))) []) := by
  rw [back, shown, JSNode.collect, collect_properties, JSNode.texts, JSNode.render, writtenProperties,
    id_eq]

theorem writtenProperties_perm {properties : List (Utf16 × PlainValue)}
    (hDistinct : (properties.map Prod.fst).Nodup)
    (hPlain : ∀ name ∈ properties.map Prod.fst, PlainUnits name) :
    (writtenProperties E properties).Perm (properties.map (Prod.map id (back E))) := by
  have hKeys : ((properties.map (collectProperty E)).map Prod.fst).Nodup := by
    have hFst : (properties.map (collectProperty E)).map Prod.fst =
        (properties.map Prod.fst).map toUtf8 := by
      rw [List.map_map, List.map_map]
      rfl
    rw [hFst]
    exact hDistinct.map_on fun a ha b hb hEq => toUtf8_inj (wellFormed_of_plain (hPlain a ha))
      (wellFormed_of_plain (hPlain b hb)) hEq
  have hMap : (StdMap.emplaceAll (properties.map (collectProperty E)) []).Perm
      (properties.map (collectProperty E)) := StdMap.emplaceAll_perm (by rwa [List.nil_append])
  have hEntries : ((properties.map (collectProperty E)).map (Prod.map decodeUtf8 JSNode.texts)).map
      (fun p => (keyOf E p.1, p.2.render (keyOf E) id)) = properties.map (Prod.map id (back E)) := by
    rw [List.map_map, List.map_map]
    refine List.map_congr_left fun property hMem => ?_
    exact Prod.ext (keyOf_toUtf8 E (hPlain property.1 (List.mem_map_of_mem hMem))) rfl
  have hPerm := (hMap.map (Prod.map decodeUtf8 JSNode.texts)).map
    fun p => (keyOf E p.1, p.2.render (keyOf E) id)
  rwa [hEntries, ← JSNode.renderProperties_eq_map, ← JSNode.textsOfProperties_eq_map] at hPerm

theorem writtenProperties_nodup {properties : List (Utf16 × PlainValue)}
    (hDistinct : (properties.map Prod.fst).Nodup)
    (hPlain : ∀ name ∈ properties.map Prod.fst, PlainUnits name) :
    ((writtenProperties E properties).map Prod.fst).Nodup := by
  rw [((writtenProperties_perm E hDistinct hPlain).map Prod.fst).nodup_iff, List.map_map]
  exact hDistinct

/-- Each property is set once, and none of them by the setter. -/
theorem setProperties_written {properties : List (Utf16 × PlainValue)}
    (hDistinct : (properties.map Prod.fst).Nodup)
    (hNames : ∀ name ∈ properties.map Prod.fst, PlainUnits name ∧ name ≠ protoName) :
    (setProperties (writtenProperties E properties) []).Perm
      (properties.map (Prod.map .property (back E))) := by
  have hPlain := fun name hMem => (hNames name hMem).1
  have hPerm := writtenProperties_perm E hDistinct hPlain
  have hOther : ∀ name ∈ (writtenProperties E properties).map Prod.fst, name ≠ protoName := by
    intro name hMem
    rw [(hPerm.map Prod.fst).mem_iff, List.map_map] at hMem
    exact (hNames name hMem).2
  have hSlots : ((writtenProperties E properties).map (Prod.map JsiSlot.property id)).map Prod.fst =
      ((writtenProperties E properties).map Prod.fst).map .property := by
    rw [List.map_map, List.map_map]
    rfl
  have hNodup := (writtenProperties_nodup E hDistinct hPlain).map
    (f := JsiSlot.property) fun _ _ => JsiSlot.property.inj
  rw [setProperties_of_ne hOther, Entries.setAll_of_nodup (by rwa [List.nil_append, hSlots]),
    List.nil_append]
  have hValues : (properties.map (Prod.map id (back E))).map (Prod.map JsiSlot.property id) =
      properties.map (Prod.map .property (back E)) := by
    rw [List.map_map]
    rfl
  rw [← hValues]
  exact hPerm.map _

variable {E}

theorem take_limit {α : Type} {members : List α} (h : members.length < 2 ^ 31) :
    members.take (limit members.length) = members := by
  rw [limit_eq_iff.mpr h, List.take_length]

theorem FitsInProperties.name {properties : List (Utf16 × PlainValue)}
    (h : FitsInProperties properties) {name : Utf16} (hMem : name ∈ properties.map Prod.fst) :
    PlainUnits name ∧ name ≠ protoName := by
  induction properties with
  | nil => cases hMem
  | cons property rest ih =>
    obtain ⟨hName, -, hRest⟩ := h
    rcases List.mem_cons.mp hMem with rfl | hLater
    · exact hName
    · exact ih hRest hLater

theorem nodup_built {properties : List (Utf16 × PlainValue)}
    (hDistinct : (properties.map Prod.fst).Nodup) :
    ((builtProperties properties).map Prod.fst).Nodup := by
  rw [builtProperties_eq_map, List.map_map]
  have hSlots := hDistinct.map (f := JsiSlot.property) fun _ _ => JsiSlot.property.inj
  rwa [List.map_map] at hSlots

theorem mem_built {properties : List (Utf16 × PlainValue)} {name : Utf16} {value : PlainValue}
    (h : (name, value) ∈ properties) : (.property name, value.built) ∈ builtProperties properties := by
  rw [builtProperties_eq_map]
  exact List.mem_map_of_mem (f := Prod.map JsiSlot.property built) h

/-- Equal objects, where the entries are those of the properties in some order. -/
theorem same_object {properties : List (Utf16 × PlainValue)} {entries : List (JsiSlot × BuiltValue)}
    {f : PlainValue → BuiltValue} (hDistinct : (properties.map Prod.fst).Nodup)
    (hPerm : entries.Perm (properties.map (Prod.map .property f)))
    (hSame : ∀ name value, (name, value) ∈ properties → Same (f value) value.built) :
    Same (.object entries) (built (.object properties)) := by
  rw [built, Same, sameProperties_iff]
  constructor
  · intro slot shown hMem
    obtain ⟨⟨name, value⟩, hProperty, hEq⟩ := List.mem_map.mp (hPerm.subset hMem)
    cases hEq
    exact ⟨value.built, Entries.lookup_of_mem (nodup_built hDistinct) (mem_built hProperty),
      hSame name value hProperty⟩
  · intro slot hSlot
    rw [Entries.lookup_isSome_iff] at hSlot ⊢
    rw [builtProperties_eq_map, List.map_map] at hSlot
    rw [(hPerm.map Prod.fst).mem_iff, List.map_map]
    exact hSlot

mutual

theorem same_back : ∀ value : PlainValue, value.Distinct → value.Fits →
    Same (back E value) value.built
  | .null, _, _ => trivial
  | .boolean _, _, _ => rfl
  | .number value, _, hFits => by
    rw [back_number]
    by_cases h : value.isFloor = true
    · obtain ⟨i, hInt⟩ := hFits h
      rw [if_pos h, Double.toInt64_eq _ hInt, Double.ofInt64_eq hInt]
      exact rfl
    · rw [if_neg h]
      exact rfl
  | .string value, _, hFits => by
    rw [back_string]
    exact hFits
  | .array items, hDistinct, hFits => by
    rw [back_array, take_limit hFits.1]
    exact same_back_items items hDistinct hFits.2
  | .object properties, hDistinct, hFits => by
    rw [back_object, take_limit hFits.1]
    exact same_object hDistinct.1
      (setProperties_written E hDistinct.1 fun name hMem => hFits.2.name hMem)
      (same_back_properties properties hDistinct.2 hFits.2)

theorem same_back_properties : ∀ properties : List (Utf16 × PlainValue),
    DistinctInProperties properties → FitsInProperties properties →
    ∀ name value, (name, value) ∈ properties → Same (back E value) value.built
  | [], _, _, _, _, hMem => by cases hMem
  | (_, first) :: rest, hDistinct, hFits, name, value, hMem => by
    rcases List.mem_cons.mp hMem with hFirst | hRest
    · cases hFirst
      exact same_back first hDistinct.1 hFits.2.1
    · exact same_back_properties rest hDistinct.2 hFits.2.2 name value hRest

theorem same_back_items : ∀ items : List PlainValue, DistinctInItems items → FitsInItems items →
    SameItems (items.map (back E)) (builtItems items)
  | [], _, _ => trivial
  | value :: rest, hDistinct, hFits =>
    ⟨same_back value hDistinct.1 hFits.1, same_back_items rest hDistinct.2 hFits.2⟩

end

theorem SameItems.length {items others : List BuiltValue} (h : SameItems items others) :
    items.length = others.length := by
  induction items generalizing others with
  | nil =>
    cases others with
    | nil => rfl
    | cons other others => exact h.elim
  | cons value rest ih =>
    cases others with
    | nil => exact h.elim
    | cons other others => rw [List.length_cons, List.length_cons, ih h.2]

theorem length_lt_of_take {α : Type} {members : List α}
    (h : members.length ≤ (members.take (limit members.length)).length) :
    members.length < 2 ^ 31 := by
  rw [List.length_take] at h
  refine limit_eq_iff.mp (le_antisymm ?_ (h.trans (Nat.min_le_left _ _)))
  have hLe := intOfSize_le members.length
  rw [limit]
  omega

theorem built_slot {properties : List (Utf16 × PlainValue)} {name : Utf16}
    (hMem : name ∈ properties.map Prod.fst) :
    ((builtProperties properties).lookup (.property name)).isSome = true := by
  rw [Entries.lookup_isSome_iff, builtProperties_eq_map, List.map_map]
  obtain ⟨property, hProperty, rfl⟩ := List.mem_map.mp hMem
  exact List.mem_map_of_mem (f := Prod.fst ∘ Prod.map JsiSlot.property built) hProperty

theorem plain_of_back {properties : List (Utf16 × PlainValue)}
    (h : ∀ E, Same (back E (.object properties)) (built (.object properties))) {name : Utf16}
    (hMem : name ∈ properties.map Prod.fst) : PlainUnits name := by
  by_cases hName : name = protoName
  · rw [hName]
    exact plainUnits_of_text protoText_plain
  refine plain_of_keyOf fun E => ?_
  have hSame := h E
  rw [back_object, built, Same] at hSame
  have hFound := hSame.2 (.property name) (built_slot hMem)
  rw [lookup_setProperties_property (Or.inl hName), List.lookup_nil, Option.or_none,
    Entries.isSome_lookup_reverse, Entries.lookup_isSome_iff, writtenProperties,
    JSNode.renderProperties_eq_map, List.map_map] at hFound
  obtain ⟨property, -, hKey⟩ := List.mem_map.mp hFound
  exact ⟨property.1, hKey⟩

/-- A property `__proto__` is no property of the object that comes back. -/
theorem proto_of_back {properties : List (Utf16 × PlainValue)}
    (hDistinct : (properties.map Prod.fst).Nodup)
    (hPlain : ∀ name ∈ properties.map Prod.fst, PlainUnits name)
    (hSame : Same (back E (.object properties)) (built (.object properties))) :
    protoName ∉ properties.map Prod.fst := by
  intro hMem
  rw [back_object, built, Same] at hSame
  have hTaken : ((properties.take (limit properties.length)).map Prod.fst).Sublist
      (properties.map Prod.fst) := (List.take_sublist _ _).map Prod.fst
  have hNodup := writtenProperties_nodup E (hTaken.nodup hDistinct)
    fun name hName => hPlain name (hTaken.subset hName)
  have hFound := hSame.2 (.property protoName) (built_slot hMem)
  rw [lookup_setProperties (setterStays_of_nodup hNodup), slotValue, if_pos rfl] at hFound
  cases hFound

mutual

theorem fits_of_back : ∀ value : PlainValue, value.Distinct →
    (∀ x ∈ value.numbers, x.isFloor = true → ∃ i, x.IsInt64 i) →
    (∀ E, Same (back E value) value.built) → value.Fits
  | .null, _, _, _ => trivial
  | .boolean _, _, _, _ => trivial
  | .number value, _, hNumbers, _ => hNumbers value (List.mem_singleton_self value)
  | .string value, _, _, hSame => by
    have hBack := hSame (JsiWriter.otherwise [])
    rw [back_string] at hBack
    exact hBack
  | .array items, hDistinct, hNumbers, hSame => by
    have hItems : ∀ E, SameItems ((items.take (limit items.length)).map (back E))
        (builtItems items) := by
      intro E
      have hBack := hSame E
      rw [back_array, built, Same] at hBack
      exact hBack
    have hLength : items.length < 2 ^ 31 := by
      have hBack := (hItems (JsiWriter.otherwise [])).length
      rw [List.length_map, builtItems_eq_map, List.length_map] at hBack
      exact length_lt_of_take hBack.ge
    rw [take_limit hLength] at hItems
    exact ⟨hLength, fits_of_back_items items hDistinct hNumbers hItems⟩
  | .object properties, hDistinct, hNumbers, hSame => by
    have hPlain : ∀ name ∈ properties.map Prod.fst, PlainUnits name := fun name hMem =>
      plain_of_back hSame hMem
    have hNames : ∀ name ∈ properties.map Prod.fst, PlainUnits name ∧ name ≠ protoName := by
      intro name hMem
      refine ⟨hPlain name hMem, ?_⟩
      rintro rfl
      exact proto_of_back hDistinct.1 hPlain (hSame (JsiWriter.otherwise [])) hMem
    have hTaken : ((properties.take (limit properties.length)).map Prod.fst).Sublist
        (properties.map Prod.fst) := (List.take_sublist _ _).map Prod.fst
    have hEntries : ∀ E, ∃ entries, Same (.object entries) (built (.object properties)) ∧
        entries.Perm
          ((properties.take (limit properties.length)).map (Prod.map .property (back E))) := by
      intro E
      refine ⟨_, back_object E properties ▸ hSame E, ?_⟩
      exact setProperties_written E (hTaken.nodup hDistinct.1) fun name hMem =>
        hNames name (hTaken.subset hMem)
    have hLength : properties.length < 2 ^ 31 := by
      obtain ⟨entries, hObject, hPerm⟩ := hEntries (JsiWriter.otherwise [])
      rw [built, Same] at hObject
      have hSubset : properties.map Prod.fst ⊆
          (properties.take (limit properties.length)).map Prod.fst := by
        intro name hMem
        have hFound := hObject.2 (.property name) (built_slot hMem)
        rw [Entries.lookup_isSome_iff, (hPerm.map Prod.fst).mem_iff, List.map_map] at hFound
        obtain ⟨property, hProperty, hEq⟩ := List.mem_map.mp hFound
        cases hEq
        exact List.mem_map_of_mem hProperty
      have hLe := (List.Nodup.subperm hDistinct.1 hSubset).length_le
      rw [List.length_map, List.length_map] at hLe
      exact length_lt_of_take hLe
    refine ⟨hLength, fits_of_back_properties properties hDistinct.2 hNumbers hNames ?_⟩
    intro name value hMem E
    obtain ⟨entries, hObject, hPerm⟩ := hEntries E
    rw [take_limit hLength] at hPerm
    rw [built, Same, sameProperties_iff] at hObject
    have hEntry : (.property name, back E value) ∈ entries :=
      hPerm.symm.subset (List.mem_map.mpr ⟨(name, value), hMem, rfl⟩)
    obtain ⟨other, hOther, hValue⟩ := hObject.1 _ _ hEntry
    rw [Entries.lookup_of_mem (nodup_built hDistinct.1) (mem_built hMem), Option.some_inj] at hOther
    rwa [← hOther] at hValue

theorem fits_of_back_properties : ∀ properties : List (Utf16 × PlainValue),
    DistinctInProperties properties →
    (∀ x ∈ numbersOfProperties properties, x.isFloor = true → ∃ i, x.IsInt64 i) →
    (∀ name ∈ properties.map Prod.fst, PlainUnits name ∧ name ≠ protoName) →
    (∀ name value, (name, value) ∈ properties → ∀ E, Same (back E value) value.built) →
    FitsInProperties properties
  | [], _, _, _, _ => trivial
  | (name, value) :: rest, hDistinct, hNumbers, hNames, hSame => by
    rw [numbersOfProperties, List.forall_mem_append] at hNumbers
    rw [List.map_cons, List.forall_mem_cons] at hNames
    refine ⟨hNames.1, ?_, ?_⟩
    · exact fits_of_back value hDistinct.1 hNumbers.1 (hSame name value List.mem_cons_self)
    · exact fits_of_back_properties rest hDistinct.2 hNumbers.2 hNames.2
        fun other later hMem => hSame other later (List.mem_cons_of_mem _ hMem)

theorem fits_of_back_items : ∀ items : List PlainValue, DistinctInItems items →
    (∀ x ∈ numbersOfItems items, x.isFloor = true → ∃ i, x.IsInt64 i) →
    (∀ E, SameItems (items.map (back E)) (builtItems items)) → FitsInItems items
  | [], _, _, _ => trivial
  | value :: rest, hDistinct, hNumbers, hSame => by
    rw [numbersOfItems, List.forall_mem_append] at hNumbers
    exact ⟨fits_of_back value hDistinct.1 hNumbers.1 fun E => (hSame E).1,
      fits_of_back_items rest hDistinct.2 hNumbers.2 fun E => (hSame E).2⟩

end

mutual

theorem Fits.numbers : ∀ {value : PlainValue}, value.Fits →
    ∀ x ∈ value.numbers, x.isFloor = true → ∃ i, x.IsInt64 i
  | .null, _, _, hMem | .boolean _, _, _, hMem | .string _, _, _, hMem => by cases hMem
  | .number value, hFits, x, hMem => by
    cases List.mem_singleton.mp hMem
    exact hFits
  | .array items, hFits, x, hMem => FitsInItems.numbers hFits.2 x hMem
  | .object properties, hFits, x, hMem => FitsInProperties.numbers hFits.2 x hMem

theorem FitsInProperties.numbers : ∀ {properties : List (Utf16 × PlainValue)},
    FitsInProperties properties →
    ∀ x ∈ numbersOfProperties properties, x.isFloor = true → ∃ i, x.IsInt64 i
  | [], _, _, hMem => by cases hMem
  | (_, value) :: rest, hFits, x, hMem => by
    rcases List.mem_append.mp hMem with hFirst | hRest
    · exact Fits.numbers hFits.2.1 x hFirst
    · exact FitsInProperties.numbers hFits.2.2 x hRest

theorem FitsInItems.numbers : ∀ {items : List PlainValue}, FitsInItems items →
    ∀ x ∈ numbersOfItems items, x.isFloor = true → ∃ i, x.IsInt64 i
  | [], _, _, hMem => by cases hMem
  | value :: rest, hFits, x, hMem => by
    rcases List.mem_append.mp hMem with hFirst | hRest
    · exact Fits.numbers hFits.1 x hFirst
    · exact FitsInItems.numbers hFits.2 x hRest

end

end JsiValue

/-- A JavaScript value: an object has no two properties of one name. -/
structure ScriptValue where
  value : PlainValue
  distinct : value.Distinct

namespace ScriptValue

/-- The trip through `JSValue` gives back an equal value, and where the reader reports an
integer it has exactly this integer. -/
def Survives (E : JsiPlatform) (v : ScriptValue) : Prop :=
  (∃ n node r result,
    (∀ fuel, n ≤ fuel →
      readFrom windowsStrings (jsiReader E) fuel (JsiReader.make v.value) = some (node, r)) ∧
    ((node.writeTo windowsStrings).foldlM (JsiWriter.write E) JsiWriter.make).bind
      JsiWriter.moveResult = some result ∧ result.Same v.value.built) ∧
    ∀ x ∈ v.value.numbers, ∀ r : JsiReader, r.currentPrimitiveValue = some (.number x) →
      r.valueType = .int64 → ∃ i, x.IsInt64 i ∧ r.getInt64 E = i

theorem same_of_survives {E : JsiPlatform} {v : ScriptValue} (h : v.Survives E) :
    (v.value.back E).Same v.value.built := by
  obtain ⟨⟨n, node, r, result, hRead, hWrite, hSame⟩, -⟩ := h
  have hNode := hRead (max n (v.value.shown E).fuel) (le_max_left _ _)
  rw [JsiValue.readFrom_make E v.distinct (le_max_right _ _), Option.some_inj,
    Prod.mk.injEq] at hNode
  rw [← hNode.1, JsiValue.moveResult_writeTo, Option.some_inj] at hWrite
  rw [JsiValue.back, hWrite]
  exact hSame

theorem valueType_number {r : JsiReader} {x : Double}
    (h : r.currentPrimitiveValue = some (.number x)) :
    r.valueType = .int64 ↔ x.isFloor = true := by
  simp only [JsiReader.valueType, h]
  by_cases hFloor : x.isFloor = true
  · rw [if_pos hFloor]
    exact iff_of_true rfl hFloor
  · rw [if_neg hFloor]
    exact iff_of_false (by decide) hFloor

theorem getInt64_number {E : JsiPlatform} {r : JsiReader} {x : Double} {i : Int64}
    (h : r.currentPrimitiveValue = some (.number x)) (hInt : x.IsInt64 i) :
    r.getInt64 E = i := by
  simp only [JsiReader.getInt64, h, if_pos (Double.isFloor_of_isInt64 hInt)]
  exact Double.toInt64_eq _ hInt

/-- Exactly the values that fit survive on every engine. -/
theorem survives_iff (v : ScriptValue) : (∀ E, v.Survives E) ↔ v.value.Fits := by
  constructor
  · intro h
    refine v.value.fits_of_back v.distinct (fun x hMem hFloor => ?_) fun E =>
      same_of_survives (h E)
    obtain ⟨i, hInt, -⟩ := (h (JsiWriter.otherwise [])).2 x hMem ⟨some (.number x), []⟩ rfl
      ((valueType_number rfl).mpr hFloor)
    exact ⟨i, hInt⟩
  · intro hFits E
    constructor
    · exact ⟨_, _, _, _, fun fuel hFuel => JsiValue.readFrom_make E v.distinct hFuel,
        JsiValue.moveResult_writeTo E _, JsiValue.same_back v.value v.distinct hFits⟩
    · intro x hMem r hPrimitive hType
      obtain ⟨i, hInt⟩ := hFits.numbers x hMem ((valueType_number hPrimitive).mp hType)
      exact ⟨i, hInt, getInt64_number hPrimitive hInt⟩

/-- Infinity is its own floor, so the reader takes it for an integer. -/
def infinity : ScriptValue := ⟨.number (.infinity false), trivial⟩

theorem infinity_lost : ¬ infinity.Survives (JsiWriter.otherwise []) := by
  intro h
  obtain ⟨i, ⟨_, hInt⟩, -⟩ := h.2 (.infinity false) (List.mem_singleton_self _)
    ⟨some (.number (.infinity false)), []⟩ rfl rfl
  cases hInt

end ScriptValue

end ReactNative
