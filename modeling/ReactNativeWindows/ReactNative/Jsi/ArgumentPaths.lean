import ReactNativeWindows.ReactNative.Jsi.CallInvokerWriter

/-! When the fast and the slow path pass on the same arguments: a property name that is not
plain ASCII comes out of `setProperty` as another key, and a value that was set under `__proto__`
decides on those that follow. -/
namespace ReactNative

open Collections (Entries)
open Unicode
open JsiValue (Same setProperties protoText protoName protoText_plain)

namespace JSNode

/-- What the setter `__proto__` takes. -/
def isPrototype : Written → Bool
  | .null | .array _ | .object _ => true
  | _ => false

/-- Whether `setProperty` can make `__proto__` of a name. What it makes of bytes that are not ASCII is
left open. -/
def MayBeProto (name : List Char) : Prop :=
  cString (utf8 name) = utf8 protoText ∨ ∃ byte ∈ cString (utf8 name), 128 ≤ byte.toNat

mutual

/-- An object with this prototype still finds the setter. -/
def KeepsSetter : Written → Prop
  | .array _ => True
  | .object properties => KeepsSetterInProperties properties
  | _ => False

def KeepsSetterInProperties : List (List Char × Written) → Prop
  | [] => True
  | (name, value) :: rest =>
    (MayBeProto name → value.isPrototype = true → value.KeepsSetter) ∧ KeepsSetterInProperties rest

end

/-- A value that is replaced under `__proto__` leaves the setter to the last one, if it is a prototype. -/
def SetterStays : List (List Char × Written) → Prop
  | [] => True
  | (name, value) :: rest =>
    (name = protoText → value.isPrototype = true → ∀ last, rest.reverse.lookup protoText = some last →
      value.KeepsSetter ∧ last.isPrototype = true) ∧ SetterStays rest

mutual

/-- The names in what was written are plain and the setter `__proto__` stays, where no later property of
the name replaces it. -/
def SetAlike : Written → Prop
  | .object properties => SetAlikeInProperties properties ∧ SetterStays properties
  | .array items => SetAlikeInItems items
  | _ => True

def SetAlikeInProperties : List (List Char × Written) → Prop
  | [] => True
  | (name, value) :: rest =>
    PlainText name ∧ (name ∉ rest.map Prod.fst → value.SetAlike) ∧ SetAlikeInProperties rest

def SetAlikeInItems : List Written → Prop
  | [] => True
  | value :: rest => value.SetAlike ∧ SetAlikeInItems rest

end

example : ¬SetAlike (.object [(protoText, .object []), (protoText, .int64 5)]) := by
  rintro ⟨-, hFirst, -⟩
  cases (hFirst rfl rfl (.int64 5) rfl).2

variable {properties : List (List Char × Written)}

theorem SetAlikeInProperties.name (h : SetAlikeInProperties properties) {name : List Char}
    (hMem : name ∈ properties.map Prod.fst) : PlainText name := by
  induction properties with
  | nil => cases hMem
  | cons property rest ih =>
    obtain ⟨hName, -, hRest⟩ := h
    rcases List.mem_cons.mp hMem with rfl | hLater
    · exact hName
    · exact ih hRest hLater

theorem lookup_reverse_isSome {name : List Char} (h : name ∈ properties.map Prod.fst) :
    (properties.reverse.lookup name).isSome = true := by
  rwa [Entries.isSome_lookup_reverse, Entries.lookup_isSome_iff]

/-- The last property of a name is either the first one or among the others. -/
theorem lookup_reverse_cons (name first : List Char) (value : Written)
    (rest : List (List Char × Written)) :
    ((first, value) :: rest).reverse.lookup name =
      (rest.reverse.lookup name).or (List.lookup name [(first, value)]) := by
  rw [List.reverse_cons, List.lookup_append]

theorem mem_of_lookup_reverse {name : List Char} {value : Written}
    (h : properties.reverse.lookup name = some value) : name ∈ properties.map Prod.fst := by
  have hSome : (properties.reverse.lookup name).isSome = true := by rw [h]; rfl
  rwa [Entries.lookup_isSome_iff, List.map_reverse, List.mem_reverse] at hSome

variable {key : List Char → Utf16} {members : List (Utf16 × BuiltValue) → List (Utf16 × BuiltValue)}

theorem isPrototype_render (value : Written) :
    (value.render key members).isPrototype = value.isPrototype := by
  cases value <;> rfl

theorem lookup_renderProperties {name : List Char}
    (h : ∀ other ∈ properties.map Prod.fst, key other = key name → other = name) :
    (renderProperties key members properties).reverse.lookup (key name) =
      (properties.reverse.lookup name).map (render key members) := by
  rw [renderProperties_eq_map, ← List.map_reverse]
  refine Entries.lookup_map fun property hMem hEq => h property.1 ?_ hEq
  exact List.mem_map_of_mem (List.mem_reverse.mp hMem)

theorem exists_name_of_lookup {text : Utf16}
    (h : ((renderProperties key members properties).reverse.lookup text).isSome = true) :
    ∃ name ∈ properties.map Prod.fst, key name = text := by
  rw [Entries.isSome_lookup_reverse, Entries.lookup_isSome_iff, renderProperties_eq_map,
    List.map_map] at h
  obtain ⟨property, hMem, rfl⟩ := List.mem_map.mp h
  exact ⟨property.1, List.mem_map_of_mem hMem, rfl⟩

/-! ### The slow path -/

theorem nodup_lastMembers (entries : List (Utf16 × BuiltValue)) :
    ((lastMembers entries).map Prod.fst).Nodup :=
  Entries.nodup_setAll entries List.nodup_nil

theorem lookup_lastMembers (entries : List (Utf16 × BuiltValue)) (name : Utf16) :
    (lastMembers entries).reverse.lookup name = entries.reverse.lookup name := by
  have hLast : (lastMembers entries).lookup name = entries.reverse.lookup name := by
    rw [lastMembers, Entries.lookup_setAll, List.append_nil]
  rw [← hLast, Entries.lookup_reverse (nodup_lastMembers entries)]

theorem lookup_slow (properties : List (List Char × Written)) (slot : JsiSlot) :
    (setProperties (lastMembers (renderProperties utf16 lastMembers properties)) []).lookup slot =
      JsiValue.slotValue (lastMembers (renderProperties utf16 lastMembers properties)) slot :=
  JsiValue.lookup_setProperties (JsiValue.setterStays_of_nodup (nodup_lastMembers _)) slot

theorem lookup_slow_name (properties : List (List Char × Written)) (name : List Char) :
    (lastMembers (renderProperties utf16 lastMembers properties)).reverse.lookup (utf16 name) =
      (properties.reverse.lookup name).map (render utf16 lastMembers) := by
  rw [lookup_lastMembers, lookup_renderProperties fun other _ hEq => utf16_injective hEq]

/-! ### The fast path -/

open JsiWriter (keyOf keyOf_plain keyOf_otherwise plain_of_keyOf otherwise)

variable {E : JsiPlatform}

theorem keyOf_eq_protoName {name : List Char} (hPlain : PlainText name) :
    keyOf E name = protoName ↔ name = protoText := by
  rw [keyOf_plain E hPlain, protoName, utf16_injective.eq_iff]

theorem mayBeProto_of_keyOf {name : List Char} (h : keyOf E name = protoName) : MayBeProto name := by
  by_cases hAscii : ∀ byte ∈ cString (utf8 name), byte.toNat < 128
  · left
    rw [keyOf, JsiWriter.propertyKey, E.createFromAscii_ascii _ hAscii, protoName,
      ← widen_utf8 protoText_plain] at h
    exact widen_injective h
  · right
    push Not at hAscii
    exact hAscii

/-- An engine that makes `__proto__` of everything that it can. -/
theorem keyOf_of_mayBeProto {name : List Char} (h : MayBeProto name) :
    keyOf (otherwise protoName) name = protoName := by
  show (if ∀ byte ∈ cString (utf8 name), byte.toNat < 128 then _ else _) = protoName
  split
  next hAscii =>
    rcases h with hProto | ⟨byte, hMem, hHigh⟩
    · rw [hProto, widen_utf8 protoText_plain, protoName]
    · exact absurd (hAscii byte hMem) (Nat.not_lt.mpr hHigh)
  next => rfl

theorem hasSetter_render_object :
    ((object properties).render key id).hasSetter = true ↔ ∀ property ∈ properties,
      key property.1 = protoName → property.2.isPrototype = true →
        (property.2.render key id).hasSetter = true := by
  have hNew : (JsiValue.object []).hasSetter = true := rfl
  rw [render, id_eq, JsiValue.hasSetter_setProperties, and_iff_right hNew, renderProperties_eq_map,
    List.forall_mem_map]
  simp only [isPrototype_render]

mutual

theorem KeepsSetter.hasSetter : ∀ {value : Written}, value.KeepsSetter →
    (value.render (keyOf E) id).hasSetter = true
  | .array _, _ => rfl
  | .object _, h => hasSetter_render_object.mpr (KeepsSetterInProperties.hasSetter h)
  | .null, h | .boolean _, h | .int64 _, h | .double _, h | .string _, h => h.elim

theorem KeepsSetterInProperties.hasSetter : ∀ {properties : List (List Char × Written)},
    KeepsSetterInProperties properties → ∀ property ∈ properties,
      keyOf E property.1 = protoName → property.2.isPrototype = true →
        (property.2.render (keyOf E) id).hasSetter = true
  | [], _, _, hMem, _, _ => by cases hMem
  | (_, value) :: rest, h, property, hMem, hKey, hValue => by
    rcases List.mem_cons.mp hMem with rfl | hLater
    · exact KeepsSetter.hasSetter (h.1 (mayBeProto_of_keyOf hKey) hValue)
    · exact KeepsSetterInProperties.hasSetter h.2 property hLater hKey hValue

end

mutual

theorem keepsSetter_of_hasSetter : ∀ value : Written,
    (value.render (keyOf (otherwise protoName)) id).hasSetter = true → value.KeepsSetter
  | .array _, _ => trivial
  | .object properties, h =>
    keepsSetter_of_properties properties (hasSetter_render_object.mp h)
  | .null, h | .boolean _, h | .int64 _, h | .double _, h | .string _, h => by cases h

theorem keepsSetter_of_properties : ∀ properties : List (List Char × Written),
    (∀ property ∈ properties, keyOf (otherwise protoName) property.1 = protoName →
      property.2.isPrototype = true →
        (property.2.render (keyOf (otherwise protoName)) id).hasSetter = true) →
      KeepsSetterInProperties properties
  | [], _ => trivial
  | (name, value) :: rest, h => by
    rw [List.forall_mem_cons] at h
    refine ⟨fun hName hValue => ?_, keepsSetter_of_properties rest h.2⟩
    exact keepsSetter_of_hasSetter value (h.1 (keyOf_of_mayBeProto hName) hValue)

end

theorem lookup_fast_proto (hPlain : ∀ name ∈ properties.map Prod.fst, PlainText name) :
    (renderProperties (keyOf E) id properties).reverse.lookup protoName =
      (properties.reverse.lookup protoText).map (render (keyOf E) id) := by
  have hProto : keyOf E protoText = protoName := (keyOf_eq_protoName protoText_plain).mpr rfl
  rw [← hProto]
  refine lookup_renderProperties fun other hMem hEq => ?_
  exact (keyOf_eq_protoName (hPlain other hMem)).mp (hEq.trans hProto)

theorem setterStays_render_cons {name : List Char} {value : Written} {rest : List (List Char × Written)}
    (hName : PlainText name) (hPlain : ∀ name ∈ rest.map Prod.fst, PlainText name) :
    JsiValue.SetterStays (renderProperties (keyOf E) id ((name, value) :: rest)) ↔
      (name = protoText → value.isPrototype = true → ∀ last, rest.reverse.lookup protoText = some last →
        (value.render (keyOf E) id).hasSetter = true ∧ last.isPrototype = true) ∧
        JsiValue.SetterStays (renderProperties (keyOf E) id rest) := by
  rw [renderProperties, JsiValue.SetterStays, keyOf_eq_protoName hName, isPrototype_render,
    lookup_fast_proto hPlain]
  refine and_congr_left fun _ => imp_congr_right fun _ => imp_congr_right fun _ => ?_
  cases rest.reverse.lookup protoText with
  | none => exact iff_of_true nofun nofun
  | some last =>
    simp only [Option.map_some, Option.some_inj, forall_eq', isPrototype_render]

/-- The setter stays on every engine. -/
theorem setterStays_render (hPlain : ∀ name ∈ properties.map Prod.fst, PlainText name) :
    (∀ E, JsiValue.SetterStays (renderProperties (keyOf E) id properties)) ↔ SetterStays properties := by
  induction properties with
  | nil => exact iff_of_true (fun _ => trivial) trivial
  | cons property rest ih =>
    obtain ⟨name, value⟩ := property
    rw [List.map_cons, List.forall_mem_cons] at hPlain
    rw [SetterStays, ← ih hPlain.2]
    constructor
    · intro h
      have hParts := fun E => (setterStays_render_cons hPlain.1 hPlain.2).mp (h E)
      refine ⟨fun hName hValue last hLast => ?_, fun E => (hParts E).2⟩
      obtain ⟨hSetter, hTaken⟩ := (hParts (otherwise protoName)).1 hName hValue last hLast
      exact ⟨keepsSetter_of_hasSetter value hSetter, hTaken⟩
    · intro h E
      refine (setterStays_render_cons hPlain.1 hPlain.2).mpr ⟨fun hName hValue last hLast => ?_, h.2 E⟩
      obtain ⟨hKeeps, hTaken⟩ := h.1 hName hValue last hLast
      exact ⟨hKeeps.hasSetter, hTaken⟩

/-- Equal objects, where the values that are left are equal. -/
theorem same_render_object (hPlain : ∀ name ∈ properties.map Prod.fst, PlainText name)
    (hStays : SetterStays properties)
    (hSame : ∀ name value, properties.reverse.lookup name = some value →
      Same (value.render (keyOf E) id) (value.render utf16 lastMembers)) :
    Same ((object properties).render (keyOf E) id) ((object properties).render utf16 lastMembers) := by
  rw [render, render, id_eq, JsiValue.same_object_iff (JsiValue.nodup_new _)]
  intro slot
  rw [JsiValue.lookup_setProperties ((setterStays_render hPlain).mpr hStays E), lookup_slow]
  refine JsiValue.rel_slotValue (fun text => ?_) slot
  by_cases hName : ∃ name ∈ properties.map Prod.fst, utf16 name = text
  · obtain ⟨name, hMem, rfl⟩ := hName
    have hFast : (renderProperties (keyOf E) id properties).reverse.lookup (utf16 name) =
        (properties.reverse.lookup name).map (render (keyOf E) id) := by
      rw [← keyOf_plain E (hPlain name hMem)]
      refine lookup_renderProperties fun other hOther hEq => utf16_injective ?_
      rw [← keyOf_plain E (hPlain other hOther), ← keyOf_plain E (hPlain name hMem), hEq]
    rw [hFast, lookup_slow_name]
    cases hLast : properties.reverse.lookup name with
    | none => exact .none
    | some value => exact .some (hSame name value hLast)
  · have hFast : (renderProperties (keyOf E) id properties).reverse.lookup text = none := by
      rw [← Option.not_isSome_iff_eq_none]
      intro hSome
      obtain ⟨name, hMem, hKey⟩ := exists_name_of_lookup hSome
      exact hName ⟨name, hMem, (keyOf_plain E (hPlain name hMem)).symm.trans hKey⟩
    have hSlow : (lastMembers (renderProperties utf16 lastMembers properties)).reverse.lookup text =
        none := by
      rw [lookup_lastMembers, ← Option.not_isSome_iff_eq_none]
      exact fun hSome => hName (exists_name_of_lookup hSome)
    rw [hFast, hSlow]
    exact .none

mutual

theorem same_render : ∀ value : Written, value.SetAlike →
    Same (value.render (keyOf E) id) (value.render utf16 lastMembers)
  | .object properties, hAlike =>
    same_render_object (fun _ hMem => hAlike.1.name hMem) hAlike.2
      (same_render_last properties hAlike.1)
  | .array items, hAlike => same_renderItems items hAlike
  | .null, _ => trivial
  | .boolean _, _ | .int64 _, _ | .double _, _ | .string _, _ => rfl

theorem same_render_last : ∀ properties : List (List Char × Written),
    SetAlikeInProperties properties →
      ∀ name value, properties.reverse.lookup name = some value →
        Same (value.render (keyOf E) id) (value.render utf16 lastMembers)
  | [], _, _, _, hLast => by cases hLast
  | (first, value) :: rest, hAlike, name, last, hLast => by
    obtain ⟨-, hValue, hRest⟩ := hAlike
    rw [lookup_reverse_cons] at hLast
    cases hLater : rest.reverse.lookup name with
    | some later =>
      rw [hLater, Option.some_or] at hLast
      exact same_render_last rest hRest name last (hLater.trans hLast)
    | none =>
      rw [hLater, Option.none_or] at hLast
      obtain ⟨rfl, rfl⟩ : name = first ∧ value = last := by
        by_cases hName : name = first
        · rw [hName, List.lookup_cons_self, Option.some_inj] at hLast
          exact ⟨hName, hLast⟩
        · rw [Entries.lookup_cons_of_ne hName] at hLast
          cases hLast
      have hNew : name ∉ rest.map Prod.fst := fun hMem => by
        have hSome := lookup_reverse_isSome hMem
        rw [hLater] at hSome
        cases hSome
      exact same_render value (hValue hNew)

theorem same_renderItems : ∀ items : List Written, SetAlikeInItems items →
    JsiValue.SameItems (renderItems (keyOf E) id items) (renderItems utf16 lastMembers items)
  | [], _ => trivial
  | value :: rest, hAlike =>
    ⟨same_render value hAlike.1, same_renderItems rest hAlike.2⟩

end

/-- What objects that come out equal have in their slots. -/
theorem rel_slots (hSame : Same ((object properties).render (keyOf E) id)
      ((object properties).render utf16 lastMembers)) (slot : JsiSlot) :
    Option.Rel Same ((setProperties (renderProperties (keyOf E) id properties) []).lookup slot)
      (JsiValue.slotValue (lastMembers (renderProperties utf16 lastMembers properties)) slot) := by
  rw [render, render, id_eq, JsiValue.same_object_iff (JsiValue.nodup_new _)] at hSame
  rw [← lookup_slow]
  exact hSame slot

theorem isSome_of_rel {a b : Option BuiltValue} (h : Option.Rel Same a b) : a.isSome = b.isSome := by
  cases h <;> rfl

theorem key_of_rel {name : List Char} (hMem : name ∈ properties.map Prod.fst) (hName : name ≠ protoText)
    (hSlot : Option.Rel Same
      ((setProperties (renderProperties (keyOf E) id properties) []).lookup (.property (utf16 name)))
      (JsiValue.slotValue (lastMembers (renderProperties utf16 lastMembers properties))
        (.property (utf16 name)))) :
    ∃ source ∈ properties.map Prod.fst, keyOf E source = utf16 name := by
  have hText : utf16 name ≠ protoName := fun hEq => hName (utf16_injective hEq)
  have hFound := isSome_of_rel hSlot
  rw [JsiValue.slotValue, if_neg hText, lookup_slow_name, Option.isSome_map,
    lookup_reverse_isSome hMem, JsiValue.lookup_setProperties_property (Or.inl hText),
    List.lookup_nil, Option.or_none] at hFound
  exact exists_name_of_lookup hFound

variable (hSlots : ∀ (E : JsiPlatform) (slot : JsiSlot),
  Option.Rel Same ((setProperties (renderProperties (keyOf E) id properties) []).lookup slot)
    (JsiValue.slotValue (lastMembers (renderProperties utf16 lastMembers properties)) slot))

include hSlots

/-- Each name is found with an engine that makes some other key of what is not ASCII. -/
theorem plain_of_slots : ∀ name ∈ properties.map Prod.fst, PlainText name := by
  intro name hMem
  by_cases hProto : name = protoText
  · exact hProto ▸ protoText_plain
  refine plainText_of_units (plain_of_keyOf fun E => ?_)
  obtain ⟨source, -, hSource⟩ := key_of_rel hMem hProto (hSlots E _)
  exact ⟨source, hSource⟩

theorem setterStays_of_slots : SetterStays properties := by
  have hPlain := plain_of_slots hSlots
  rw [← setterStays_render hPlain]
  intro E
  have hNew : (JsiValue.object []).hasSetter = true := rfl
  refine JsiValue.setterStays_of_lookup hNew ?_ ?_
  · have hOwn := isSome_of_rel (hSlots E (.property protoName))
    rwa [JsiValue.slotValue, if_pos rfl, Option.isSome_none, Option.isSome_eq_false_iff,
      Option.isNone_iff_eq_none] at hOwn
  · intro last hLast hSome
    rw [lookup_fast_proto hPlain, Option.map_eq_some_iff] at hLast
    obtain ⟨value, hValue, rfl⟩ := hLast
    rw [isSome_of_rel (hSlots E .prototype), JsiValue.slotValue, protoName, lookup_slow_name, hValue,
      Option.map_some] at hSome
    rw [isPrototype_render]
    cases hTaken : value.isPrototype with
    | true => rfl
    | false =>
      rw [Option.filter_some_neg ((isPrototype_render value).trans hTaken)] at hSome
      cases hSome

theorem same_of_slots (name : List Char) (value : Written)
    (hLast : properties.reverse.lookup name = some value) (E : JsiPlatform) :
    Same (value.render (keyOf E) id) (value.render utf16 lastMembers) := by
  have hPlain := plain_of_slots hSlots
  have hFast := JsiValue.lookup_setProperties
    ((setterStays_render hPlain).mpr (setterStays_of_slots hSlots) E)
  by_cases hName : name = protoText
  · cases hName
    cases hTaken : value.isPrototype with
    | true =>
      have hSlot := hSlots E .prototype
      rw [hFast, JsiValue.slotValue, JsiValue.slotValue, lookup_fast_proto hPlain, hLast,
        protoName, lookup_slow_name, hLast, Option.map_some, Option.map_some,
        Option.filter_some_pos ((isPrototype_render value).trans hTaken),
        Option.filter_some_pos ((isPrototype_render value).trans hTaken), Option.rel_some_some] at hSlot
      exact hSlot
    | false => cases value <;> first | rfl | cases hTaken
  · have hText : utf16 name ≠ protoName := fun hEq => hName (utf16_injective hEq)
    have hKey : (renderProperties (keyOf E) id properties).reverse.lookup (utf16 name) =
        some (value.render (keyOf E) id) := by
      rw [← keyOf_plain E (hPlain name (mem_of_lookup_reverse hLast)), lookup_renderProperties, hLast,
        Option.map_some]
      intro other hOther hEq
      rw [keyOf_plain E (hPlain other hOther),
        keyOf_plain E (hPlain name (mem_of_lookup_reverse hLast))] at hEq
      exact utf16_injective hEq
    have hSlot := hSlots E (.property (utf16 name))
    rw [hFast, JsiValue.slotValue, JsiValue.slotValue, if_neg hText, if_neg hText, hKey,
      lookup_slow_name, hLast, Option.map_some, Option.rel_some_some] at hSlot
    exact hSlot

omit hSlots

mutual

theorem setAlike_of_same : ∀ value : Written,
    (∀ E, Same (value.render (keyOf E) id) (value.render utf16 lastMembers)) → value.SetAlike
  | .object properties, hSame => by
    have hSlots := fun E => rel_slots (hSame E)
    exact ⟨setAlike_of_last properties (plain_of_slots hSlots) (same_of_slots hSlots),
      setterStays_of_slots hSlots⟩
  | .array items, hSame => setAlike_of_sameItems items hSame
  | .null, _ | .boolean _, _ | .int64 _, _ | .double _, _ | .string _, _ => trivial

theorem setAlike_of_last : ∀ properties : List (List Char × Written),
    (∀ name ∈ properties.map Prod.fst, PlainText name) →
    (∀ name value, properties.reverse.lookup name = some value →
      ∀ E, Same (value.render (keyOf E) id) (value.render utf16 lastMembers)) →
    SetAlikeInProperties properties
  | [], _, _ => trivial
  | (name, value) :: rest, hPlain, hSame => by
    rw [List.map_cons, List.forall_mem_cons] at hPlain
    refine ⟨hPlain.1, fun hNew => ?_, ?_⟩
    · refine setAlike_of_same value (hSame name value ?_)
      have hNone : rest.reverse.lookup name = none := by
        rw [← Option.not_isSome_iff_eq_none, Entries.lookup_isSome_iff, List.map_reverse,
          List.mem_reverse]
        exact hNew
      rw [lookup_reverse_cons, hNone, Option.none_or, List.lookup_cons_self]
    · refine setAlike_of_last rest hPlain.2 fun other last hLast => hSame other last ?_
      rw [lookup_reverse_cons, hLast, Option.some_or]

theorem setAlike_of_sameItems : ∀ items : List Written,
    (∀ E, JsiValue.SameItems (renderItems (keyOf E) id items)
      (renderItems utf16 lastMembers items)) →
      SetAlikeInItems items
  | [], _ => trivial
  | value :: rest, hSame =>
    ⟨setAlike_of_same value fun E => (hSame E).1,
      setAlike_of_sameItems rest fun E => (hSame E).2⟩

end

end JSNode

/-- `JsiWriter` accepts the calls exactly when `DynamicWriter` does, and the handler gets the
same arguments on the fast path as on a slow one. -/
def PathsAgree (E : JsiPlatform) (calls : List WriterCall) : Prop :=
  ((calls.foldlM (JsiWriter.write E) .make).isSome = true ↔
    (calls.foldlM DynamicWriter.write .make).isSome = true) ∧
    ∀ (site : CallSite) (w : CallInvokerWriter), w.writer = none →
      (site.onThread && w.fastPath) = false →
      Option.Rel (Option.Rel JsiValue.SameItems) (CallInvokerWriter.make.invoke E ⟨true, true⟩ calls)
        (w.invoke E site calls)

theorem accepts_iff (E : JsiPlatform) (calls : List WriterCall) :
    (calls.foldlM (JsiWriter.write E) .make).isSome = true ↔
      (calls.foldlM DynamicWriter.write .make).isSome = true := by
  rw [JsiWriter.foldlM_write, DynamicWriter.foldlM_write, Option.isSome_map, Option.isSome_map]

/-- With every engine the paths agree exactly on arguments whose properties both writers set alike. -/
theorem pathsAgree_iff (calls : List WriterCall) :
    (∀ E, PathsAgree E calls) ↔
      ∀ items, writtenItems calls = some items → JSNode.SetAlikeInItems items := by
  constructor
  · intro h items hItems
    refine JSNode.setAlike_of_sameItems items fun E => ?_
    have hAgree := (h E).2 ⟨false, true⟩ .make rfl rfl
    rw [CallInvokerWriter.invoke_fast, CallInvokerWriter.invoke_slow rfl rfl, hItems,
      Option.map_some, Option.map_some, Option.rel_some_some, Option.rel_some_some] at hAgree
    exact hAgree
  · intro h E
    refine ⟨accepts_iff E calls, fun site w hNew hSlow => ?_⟩
    rw [CallInvokerWriter.invoke_fast, CallInvokerWriter.invoke_slow hNew hSlow]
    cases hItems : writtenItems calls with
    | none => exact .none
    | some items => exact .some (.some (JSNode.same_renderItems items (h items hItems)))

/-- An argument whose property name has a NUL in it; the fast path drops what follows. -/
def nulInName : List WriterCall :=
  [.writeArrayBegin, .writeObjectBegin, .writePropertyName [97, 0, 98], .writeNull,
    .writeObjectEnd, .writeArrayEnd]

theorem nul_in_name_disagrees : ¬ PathsAgree (JsiWriter.otherwise []) nulInName := by
  intro h
  have hAgree := h.2 ⟨false, true⟩ .make rfl rfl
  have hItems : writtenItems nulInName =
      some [.object [([Char.ofNat 97, Char.ofNat 0, Char.ofNat 98], .null)]] := rfl
  rw [CallInvokerWriter.invoke_fast, CallInvokerWriter.invoke_slow rfl rfl, hItems,
    Option.map_some, Option.map_some, Option.rel_some_some, Option.rel_some_some] at hAgree
  obtain ⟨source, hSource, hKey⟩ :=
    JSNode.key_of_rel List.mem_cons_self (by decide) (JSNode.rel_slots hAgree.1 _)
  cases List.mem_singleton.mp hSource
  have hZero : UInt16.ofNat 0 ∈ utf16 [Char.ofNat 97, Char.ofNat 0, Char.ofNat 98] :=
    List.mem_flatMap.mpr ⟨Char.ofNat 0, List.mem_cons_of_mem _ List.mem_cons_self,
      List.mem_singleton_self _⟩
  rw [← hKey] at hZero
  rcases JsiWriter.keyOf_otherwise [] [Char.ofNat 97, Char.ofNat 0, Char.ofNat 98] with
    hNone | hPlain
  · rw [hNone] at hZero
    cases hZero
  · exact absurd (hPlain _ hZero).1 (Nat.lt_irrefl 0)

end ReactNative
