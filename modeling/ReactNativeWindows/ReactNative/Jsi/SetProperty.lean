import ReactNativeWindows.ReactNative.Jsi.JsiValue

/-! `Object::setProperty` of the JSI, which is the `[[Set]]` of the engine: objects inherit a setter with
the name `__proto__` from `Object.prototype`. -/
namespace ReactNative

open Collections (Entries)
open Unicode (Utf16)

namespace JsiValue

def protoText : List Char := ['_', '_', 'p', 'r', 'o', 't', 'o', '_', '_']

def protoName : Utf16 := Unicode.utf16 protoText

theorem protoText_plain : Unicode.PlainText protoText := by
  intro c hMem
  simp only [protoText, List.mem_cons, List.not_mem_nil, or_false] at hMem
  rcases hMem with rfl | rfl | rfl | rfl | rfl | rfl | rfl | rfl | rfl <;> decide

/-- What the setter takes for a prototype. It ignores other values. -/
def isPrototype {Key : Type} : JsiValue Key → Bool
  | .null | .array _ | .object _ => true
  | _ => false

mutual

/-- Whether the setter is found in this value or above it. A property of its own hides it, and null has
nothing above it. -/
def hasSetter : BuiltValue → Bool
  | .array _ => true
  | .object properties =>
    (properties.lookup (.property protoName)).isNone && prototypeHasSetter properties
  | _ => false

def prototypeHasSetter : List (JsiSlot × BuiltValue) → Bool
  | [] => true
  | (.prototype, value) :: _ => value.hasSetter
  | (.property _, _) :: rest => prototypeHasSetter rest

end

def setProperty (name : Utf16) (value : BuiltValue) (object : Entries JsiSlot BuiltValue) :
    Entries JsiSlot BuiltValue :=
  if name = protoName ∧ (JsiValue.object object).hasSetter = true then
    if value.isPrototype then Entries.set .prototype value object else object
  else Entries.set (.property name) value object

def setProperties (entries : List (Utf16 × BuiltValue)) (object : Entries JsiSlot BuiltValue) :
    Entries JsiSlot BuiltValue :=
  entries.foldl (fun object entry => setProperty entry.1 entry.2 object) object

variable {object : Entries JsiSlot BuiltValue} {name other : Utf16} {value : BuiltValue}

theorem prototypeHasSetter_eq (properties : List (JsiSlot × BuiltValue)) :
    prototypeHasSetter properties = (properties.lookup .prototype).all hasSetter := by
  induction properties with
  | nil => rfl
  | cons property rest ih =>
    obtain ⟨slot, value⟩ := property
    cases slot with
    | prototype => rfl
    | property name => exact ih

theorem hasSetter_object : (JsiValue.object object).hasSetter = true ↔
    object.lookup (.property protoName) = none ∧
      ∀ prototype, object.lookup .prototype = some prototype → prototype.hasSetter = true := by
  rw [hasSetter, prototypeHasSetter_eq, Bool.and_eq_true, Option.isNone_iff_eq_none,
    Option.all_eq_true]

theorem nodup_setProperty (h : (object.map Prod.fst).Nodup) (name : Utf16) (value : BuiltValue) :
    ((setProperty name value object).map Prod.fst).Nodup := by
  rw [setProperty]
  split
  next =>
    split
    next => exact Entries.nodup_set h _ _
    next => exact h
  next => exact Entries.nodup_set h _ _

theorem nodup_setProperties (entries : List (Utf16 × BuiltValue)) (h : (object.map Prod.fst).Nodup) :
    ((setProperties entries object).map Prod.fst).Nodup := by
  induction entries generalizing object with
  | nil => exact h
  | cons entry rest ih => exact ih (nodup_setProperty h entry.1 entry.2)

theorem nodup_new (entries : List (Utf16 × BuiltValue)) :
    ((setProperties entries []).map Prod.fst).Nodup :=
  nodup_setProperties entries List.nodup_nil

theorem setProperty_of_ne (h : name ≠ protoName) (value : BuiltValue)
    (object : Entries JsiSlot BuiltValue) :
    setProperty name value object = Entries.set (.property name) value object :=
  if_neg fun hBoth => h hBoth.1

/-! ### Other names -/

theorem lookup_set_of_ne {slot key : JsiSlot} (h : slot ≠ key) :
    (Entries.set key value object).lookup slot = object.lookup slot := by
  rw [Entries.lookup_set, Entries.lookup_cons_of_ne h]

theorem setProperties_of_ne {entries : List (Utf16 × BuiltValue)}
    (h : ∀ name ∈ entries.map Prod.fst, name ≠ protoName) :
    setProperties entries object = Entries.setAll (entries.map (Prod.map .property id)) object := by
  induction entries generalizing object with
  | nil => rfl
  | cons entry rest ih =>
    rw [List.map_cons, List.forall_mem_cons] at h
    rw [show setProperties (entry :: rest) object =
      setProperties rest (setProperty entry.1 entry.2 object) from rfl, setProperty_of_ne h.1, ih h.2]
    rfl

/-! ### The setter -/

theorem hasSetter_set_property (h : name ≠ protoName) (value : BuiltValue) :
    (JsiValue.object (Entries.set (.property name) value object)).hasSetter =
      (JsiValue.object object).hasSetter := by
  have hOwn : JsiSlot.property protoName ≠ .property name := fun hEq => h (JsiSlot.property.inj hEq).symm
  have hPrototype : JsiSlot.prototype ≠ .property name := nofun
  rw [hasSetter, hasSetter, prototypeHasSetter_eq, prototypeHasSetter_eq, lookup_set_of_ne hOwn,
    lookup_set_of_ne hPrototype]

/-- What a call of the setter leaves of it. -/
theorem hasSetter_setProperty (hSetter : (JsiValue.object object).hasSetter = true) :
    (JsiValue.object (setProperty protoName value object)).hasSetter = true ↔
      (value.isPrototype = true → value.hasSetter = true) := by
  rw [setProperty, if_pos ⟨rfl, hSetter⟩]
  have hOwn := (hasSetter_object.mp hSetter).1
  by_cases hValue : value.isPrototype = true
  · rw [if_pos hValue, hasSetter_object, lookup_set_of_ne (by nofun), Entries.lookup_set,
      List.lookup_cons_self]
    constructor
    · exact fun h _ => h.2 value rfl
    · intro h
      refine ⟨hOwn, fun prototype hEq => ?_⟩
      cases hEq
      exact h hValue
  · rw [if_neg hValue]
    exact iff_of_true hSetter fun h => absurd h hValue

/-- Where the setter is hidden, it stays hidden. -/
theorem setter_stays_hidden (h : (JsiValue.object object).hasSetter ≠ true) :
    (JsiValue.object (setProperty name value object)).hasSetter ≠ true := by
  rw [setProperty, if_neg fun hBoth => h hBoth.2]
  by_cases hName : name = protoName
  · rw [hName, Ne, hasSetter_object, Entries.lookup_set, List.lookup_cons_self]
    exact fun hBoth => nomatch hBoth.1
  · rwa [hasSetter_set_property hName]

/-- Properties that the setter does not keep are what they were set to last. -/
theorem lookup_setProperties_property
    (h : name ≠ protoName ∨ (JsiValue.object object).hasSetter ≠ true)
    (entries : List (Utf16 × BuiltValue)) :
    (setProperties entries object).lookup (.property name) =
      (entries.reverse.lookup name).or (object.lookup (.property name)) := by
  induction entries generalizing object with
  | nil => rfl
  | cons entry rest ih =>
    obtain ⟨first, value⟩ := entry
    have hFirst : (setProperty first value object).lookup (.property name) =
        (List.lookup name [(first, value)]).or (object.lookup (.property name)) := by
      by_cases hName : name = first
      · have hPlain : ¬(first = protoName ∧ (JsiValue.object object).hasSetter = true) := by
          rintro ⟨hProto, hSetter⟩
          exact h.elim (fun hNe => hNe (hName.trans hProto)) fun hHidden => hHidden hSetter
        rw [hName, List.lookup_cons_self, Option.some_or, setProperty, if_neg hPlain,
          Entries.lookup_set, List.lookup_cons_self]
      · rw [Entries.lookup_cons_of_ne hName, List.lookup_nil, Option.none_or, setProperty]
        have hSlot : JsiSlot.property name ≠ .property first := fun hEq =>
          hName (JsiSlot.property.inj hEq)
        split
        next =>
          split
          next => exact lookup_set_of_ne nofun
          next => rfl
        next => exact lookup_set_of_ne hSlot
    rw [show setProperties ((first, value) :: rest) object =
      setProperties rest (setProperty first value object) from rfl,
      ih (h.imp_right setter_stays_hidden), hFirst, List.reverse_cons, List.lookup_append,
      Option.or_assoc]

theorem hasSetter_setProperties (entries : List (Utf16 × BuiltValue)) :
    (JsiValue.object (setProperties entries object)).hasSetter = true ↔
      (JsiValue.object object).hasSetter = true ∧ ∀ entry ∈ entries, entry.1 = protoName →
        entry.2.isPrototype = true → entry.2.hasSetter = true := by
  induction entries generalizing object with
  | nil => exact ⟨fun h => ⟨h, nofun⟩, fun h => h.1⟩
  | cons entry rest ih =>
    obtain ⟨name, value⟩ := entry
    rw [show setProperties ((name, value) :: rest) object =
      setProperties rest (setProperty name value object) from rfl, ih, List.forall_mem_cons]
    by_cases hSetter : (JsiValue.object object).hasSetter = true
    · by_cases hName : name = protoName
      · cases hName
        rw [hasSetter_setProperty hSetter]
        exact ⟨fun h => ⟨hSetter, fun _ => h.1, h.2⟩, fun h => ⟨h.2.1 rfl, h.2.2⟩⟩
      · rw [setProperty_of_ne hName, hasSetter_set_property hName]
        exact and_congr_right fun _ => ⟨fun h => ⟨fun hEq => absurd hEq hName, h⟩, fun h => h.2⟩
    · exact iff_of_false (fun h => setter_stays_hidden hSetter h.1) fun h => hSetter h.1

/-- Where a value is replaced under `__proto__` that the setter takes, the setter stays, and takes the last
value too. -/
def SetterStays : List (Utf16 × BuiltValue) → Prop
  | [] => True
  | (name, value) :: rest =>
    (name = protoName → value.isPrototype = true → ∀ last, rest.reverse.lookup protoName = some last →
      value.hasSetter = true ∧ last.isPrototype = true) ∧ SetterStays rest

variable {entries : List (Utf16 × BuiltValue)}

theorem setterStays_of_none (h : entries.reverse.lookup protoName = none) : SetterStays entries := by
  induction entries with
  | nil => trivial
  | cons entry rest ih =>
    obtain ⟨name, value⟩ := entry
    rw [List.reverse_cons, List.lookup_append, Option.or_eq_none_iff] at h
    refine ⟨fun _ _ last hLast => ?_, ih h.1⟩
    rw [h.1] at hLast
    cases hLast

theorem lookup_setProperty_own (hName : name ≠ protoName ∨ (JsiValue.object object).hasSetter = true)
    (value : BuiltValue) : (setProperty name value object).lookup (.property protoName) =
      object.lookup (.property protoName) := by
  by_cases hProto : name = protoName
  · rw [setProperty, if_pos ⟨hProto, hName.resolve_left fun h => h hProto⟩]
    split
    next => exact lookup_set_of_ne nofun
    next => rfl
  · rw [setProperty_of_ne hProto]
    exact lookup_set_of_ne fun hEq => hProto (JsiSlot.property.inj hEq).symm

theorem lookup_setProperty_prototype (hSetter : (JsiValue.object object).hasSetter = true) :
    (setProperty name value object).lookup .prototype =
      if name = protoName ∧ value.isPrototype = true then some value else object.lookup .prototype := by
  by_cases hName : name = protoName
  · rw [setProperty, if_pos ⟨hName, hSetter⟩]
    by_cases hValue : value.isPrototype = true
    · rw [if_pos hValue, if_pos ⟨hName, hValue⟩, Entries.lookup_set, List.lookup_cons_self]
    · rw [if_neg hValue, if_neg fun hBoth => hValue hBoth.2]
  · rw [setProperty_of_ne hName, if_neg fun hBoth => hName hBoth.1]
    exact lookup_set_of_ne nofun

/-- Other names leave the prototype and a property `__proto__` alone. -/
theorem lookup_setProperties_of_none (h : entries.reverse.lookup protoName = none) {slot : JsiSlot}
    (hSlot : ∀ name, slot = .property name → name = protoName) :
    (setProperties entries object).lookup slot = object.lookup slot := by
  induction entries generalizing object with
  | nil => rfl
  | cons entry rest ih =>
    obtain ⟨name, value⟩ := entry
    rw [List.reverse_cons, List.lookup_append, Option.or_eq_none_iff] at h
    have hName : name ≠ protoName := by
      rintro rfl
      rw [List.lookup_cons_self] at h
      cases h.2
    rw [show setProperties ((name, value) :: rest) object =
      setProperties rest (setProperty name value object) from rfl, ih h.1, setProperty_of_ne hName]
    exact lookup_set_of_ne fun hEq => hName (hSlot name hEq)

/-- The last value under `__proto__` is the prototype, where the setter stays and takes it. -/
theorem lookup_of_setterStays (hSetter : (JsiValue.object object).hasSetter = true)
    (h : SetterStays entries) :
    (setProperties entries object).lookup (.property protoName) = none ∧
      (setProperties entries object).lookup .prototype =
        ((entries.reverse.lookup protoName).filter isPrototype).or (object.lookup .prototype) := by
  induction entries generalizing object with
  | nil => exact ⟨(hasSetter_object.mp hSetter).1, rfl⟩
  | cons entry rest ih =>
    obtain ⟨name, value⟩ := entry
    have hPrototype : (setProperty name value object).lookup .prototype =
        if name = protoName ∧ value.isPrototype = true then some value
        else object.lookup .prototype := lookup_setProperty_prototype hSetter
    rw [show setProperties ((name, value) :: rest) object =
      setProperties rest (setProperty name value object) from rfl, List.reverse_cons,
      List.lookup_append]
    cases hLater : rest.reverse.lookup protoName with
    | none =>
      have hSlot : ∀ other, JsiSlot.property protoName = .property other → other = protoName :=
        fun _ hEq => (JsiSlot.property.inj hEq).symm
      have hOther : ∀ other, JsiSlot.prototype = .property other → other = protoName := nofun
      rw [lookup_setProperties_of_none hLater hSlot, lookup_setProperties_of_none hLater hOther,
        lookup_setProperty_own (Or.inr hSetter), hPrototype, Option.none_or]
      refine ⟨(hasSetter_object.mp hSetter).1, ?_⟩
      by_cases hName : name = protoName
      · rw [hName, List.lookup_cons_self]
        by_cases hValue : value.isPrototype = true
        · rw [if_pos ⟨rfl, hValue⟩, Option.filter_some_pos hValue, Option.some_or]
        · rw [if_neg fun hBoth => hValue hBoth.2,
            Option.filter_some_neg (Bool.eq_false_iff.mpr hValue), Option.none_or]
      · rw [if_neg fun hBoth => hName hBoth.1, Entries.lookup_cons_of_ne (Ne.symm hName)]
        rfl
    | some last =>
      have hStill : (JsiValue.object (setProperty name value object)).hasSetter = true := by
        by_cases hName : name = protoName
        · cases hName
          exact (hasSetter_setProperty hSetter).mpr fun hValue => (h.1 rfl hValue last hLater).1
        · rwa [setProperty_of_ne hName, hasSetter_set_property hName]
      obtain ⟨hOwn, hLast⟩ := ih hStill h.2
      refine ⟨hOwn, ?_⟩
      rw [hLast, hLater, Option.some_or]
      by_cases hTaken : last.isPrototype = true
      · rw [Option.filter_some_pos hTaken, Option.some_or, Option.some_or]
      · rw [hPrototype, if_neg fun hBoth => hTaken (h.1 hBoth.1 hBoth.2 last hLater).2]

/-- The slots of an object whose setter stays. -/
def slotValue (entries : List (Utf16 × BuiltValue)) : JsiSlot → Option BuiltValue
  | .property name => if name = protoName then none else entries.reverse.lookup name
  | .prototype => (entries.reverse.lookup protoName).filter isPrototype

theorem lookup_setProperties (h : SetterStays entries) (slot : JsiSlot) :
    (setProperties entries []).lookup slot = slotValue entries slot := by
  have hNew : (JsiValue.object []).hasSetter = true := rfl
  cases slot with
  | prototype =>
    rw [(lookup_of_setterStays hNew h).2, List.lookup_nil, Option.or_none]
    rfl
  | property name =>
    rw [slotValue]
    split
    next hName => rw [hName, (lookup_of_setterStays hNew h).1]
    next hName => rw [lookup_setProperties_property (Or.inl hName), List.lookup_nil, Option.or_none]

theorem isPrototype_of_same {value other : BuiltValue} (h : value.Same other) :
    value.isPrototype = other.isPrototype := by
  cases value <;> cases other <;> first | rfl | cases h

/-- Equal values under the same names. -/
theorem rel_slotValue {others : List (Utf16 × BuiltValue)}
    (h : ∀ name, Option.Rel Same (entries.reverse.lookup name) (others.reverse.lookup name))
    (slot : JsiSlot) : Option.Rel Same (slotValue entries slot) (slotValue others slot) := by
  cases slot with
  | property name =>
    rw [slotValue, slotValue]
    split
    next => exact .none
    next => exact h name
  | prototype =>
    have hProto := h protoName
    rw [slotValue, slotValue]
    generalize entries.reverse.lookup protoName = value at hProto ⊢
    generalize others.reverse.lookup protoName = other at hProto ⊢
    cases hProto with
    | none => exact .none
    | @some value other hSame =>
      have hTaken := isPrototype_of_same hSame
      cases hValue : value.isPrototype with
      | true =>
        rw [Option.filter_some_pos hValue, Option.filter_some_pos (hTaken ▸ hValue)]
        exact .some hSame
      | false =>
        rw [Option.filter_some_neg hValue, Option.filter_some_neg (hTaken ▸ hValue)]
        exact .none

theorem setterStays_of_nodup (h : (entries.map Prod.fst).Nodup) : SetterStays entries := by
  induction entries with
  | nil => trivial
  | cons entry rest ih =>
    obtain ⟨name, value⟩ := entry
    rw [List.map_cons, List.nodup_cons] at h
    refine ⟨fun hName _ last hLast => ?_, ih h.2⟩
    have hMem := Entries.mem_of_lookup hLast
    rw [List.mem_reverse] at hMem
    exact absurd (List.mem_map_of_mem hMem) (hName ▸ h.1)

theorem prototype_stays (h : (object.lookup .prototype).isSome = true)
    (entries : List (Utf16 × BuiltValue)) :
    ((setProperties entries object).lookup .prototype).isSome = true := by
  induction entries generalizing object with
  | nil => exact h
  | cons entry rest ih =>
    apply ih
    show ((setProperty entry.1 entry.2 object).lookup .prototype).isSome = true
    rw [setProperty]
    split
    next =>
      split
      next =>
        rw [Entries.lookup_set, List.lookup_cons_self]
        rfl
      next => exact h
    next =>
      have hSlot : JsiSlot.prototype ≠ .property entry.1 := nofun
      rwa [lookup_set_of_ne hSlot]

/-- Where no property `__proto__` comes about, and a prototype only if the last value is one, the setter
has stayed. -/
theorem setterStays_of_lookup (hSetter : (JsiValue.object object).hasSetter = true)
    (hOwn : (setProperties entries object).lookup (.property protoName) = none)
    (hTaken : ∀ last, entries.reverse.lookup protoName = some last →
      ((setProperties entries object).lookup .prototype).isSome = true → last.isPrototype = true) :
    SetterStays entries := by
  induction entries generalizing object with
  | nil => trivial
  | cons entry rest ih =>
    obtain ⟨name, value⟩ := entry
    rw [List.reverse_cons, List.lookup_append] at hTaken
    have hRest : setProperties ((name, value) :: rest) object =
        setProperties rest (setProperty name value object) := rfl
    rw [hRest] at hOwn hTaken
    cases hLater : rest.reverse.lookup protoName with
    | none =>
      refine ⟨fun _ _ last hLast => ?_, setterStays_of_none hLater⟩
      cases hLater.symm.trans hLast
    | some last =>
      have hStill : (JsiValue.object (setProperty name value object)).hasSetter = true := by
        by_contra hHidden
        rw [lookup_setProperties_property (Or.inr hHidden), hLater] at hOwn
        cases hOwn
      rw [hLater] at hTaken
      refine ⟨fun hName hValue other hLast => ?_, ih hStill hOwn fun other hLast hSome => ?_⟩
      · cases hLater.symm.trans hLast
        cases hName
        refine ⟨(hasSetter_setProperty hSetter).mp hStill hValue, hTaken last rfl ?_⟩
        apply prototype_stays
        rw [lookup_setProperty_prototype hSetter, if_pos ⟨rfl, hValue⟩]
        rfl
      · cases hLater.symm.trans hLast
        exact hTaken last rfl hSome

end JsiValue

end ReactNative
