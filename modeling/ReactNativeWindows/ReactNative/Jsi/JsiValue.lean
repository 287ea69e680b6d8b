import ReactNativeWindows.Collections.Entries
import ReactNativeWindows.Numbers.Double
import ReactNativeWindows.Unicode.Transcoding

/-! JavaScript values as the JSI shows them. -/
namespace ReactNative

open Collections (Entries)
open Numbers (Double)
open Unicode (Utf8 Utf16)

/-- Null, booleans, numbers, strings, arrays and objects. The keys of plain objects are the names of their
properties, in the order of `getPropertyNames`; those of objects that are being built are slots. -/
inductive JsiValue (Key : Type) where
  | null
  | boolean (value : Bool)
  | number (value : Double)
  | string (value : Utf16)
  | array (items : List (JsiValue Key))
  | object (properties : List (Key × JsiValue Key))

/-- What an object has of its own: a property, or a prototype in place of `Object.prototype`. -/
inductive JsiSlot where
  | property (name : Utf16)
  | prototype
  deriving DecidableEq

abbrev PlainValue := JsiValue Utf16

abbrev BuiltValue := JsiValue JsiSlot

/-- What C++ and the JSI leave open: the characters that an engine makes of bytes that are not
ASCII, and the conversion of a number that does not fit. -/
structure JsiPlatform where
  createFromAscii : Utf8 → Utf16
  createFromAscii_ascii : ∀ bytes : Utf8, (∀ byte ∈ bytes, byte.toNat < 128) →
    createFromAscii bytes = Unicode.widen bytes
  undefinedInt64 : Double → Int64

namespace JsiValue

/-- The characters that the JSI makes of UTF-8. -/
def createFromUtf8 (bytes : Utf8) : Utf16 := Unicode.toUtf16 bytes

def utf8 (text : Utf16) : Utf8 := Unicode.toUtf8 text

mutual

/-- A plain object has its properties and `Object.prototype`. -/
def built : PlainValue → BuiltValue
  | .null => .null
  | .boolean value => .boolean value
  | .number value => .number value
  | .string value => .string value
  | .array items => .array (builtItems items)
  | .object properties => .object (builtProperties properties)

def builtProperties : List (Utf16 × PlainValue) → List (JsiSlot × BuiltValue)
  | [] => []
  | (name, value) :: rest => (.property name, value.built) :: builtProperties rest

def builtItems : List PlainValue → List BuiltValue
  | [] => []
  | value :: rest => value.built :: builtItems rest

end

theorem builtItems_eq_map (items : List PlainValue) : builtItems items = items.map built := by
  induction items with
  | nil => rfl
  | cons value rest ih => rw [builtItems, ih, List.map_cons]

theorem builtProperties_eq_map (properties : List (Utf16 × PlainValue)) :
    builtProperties properties = properties.map (Prod.map .property built) := by
  induction properties with
  | nil => rfl
  | cons property rest ih =>
    rw [builtProperties, ih, List.map_cons]
    rfl

mutual

def Same : BuiltValue → BuiltValue → Prop
  | .null, .null => True
  | .boolean a, .boolean b => a = b
  | .number a, .number b => a = b
  | .string a, .string b => a = b
  | .array items, .array others => SameItems items others
  | .object properties, .object others =>
    SameProperties properties others ∧
      ∀ slot, (others.lookup slot).isSome = true → (properties.lookup slot).isSome = true
  | _, _ => False

def SameProperties : List (JsiSlot × BuiltValue) → List (JsiSlot × BuiltValue) → Prop
  | [], _ => True
  | (slot, value) :: rest, others =>
    (∃ other, others.lookup slot = some other ∧ value.Same other) ∧ SameProperties rest others

def SameItems : List BuiltValue → List BuiltValue → Prop
  | [], [] => True
  | value :: rest, other :: others => value.Same other ∧ SameItems rest others
  | _, _ => False

end

variable {properties others : List (JsiSlot × BuiltValue)}

theorem sameProperties_iff : SameProperties properties others ↔ ∀ slot value,
    (slot, value) ∈ properties → ∃ other, others.lookup slot = some other ∧ value.Same other := by
  induction properties with
  | nil => simp [SameProperties]
  | cons property rest ih =>
    obtain ⟨slot, value⟩ := property
    rw [SameProperties, ih]
    constructor
    · rintro ⟨hFirst, hRest⟩ other value' hMem
      rcases List.mem_cons.mp hMem with hEq | hLater
      · cases hEq
        exact hFirst
      · exact hRest other value' hLater
    · intro h
      exact ⟨h slot value List.mem_cons_self, fun other value' hMem =>
        h other value' (List.mem_cons_of_mem _ hMem)⟩

/-- Equal objects have equal values in their slots. -/
theorem same_object_iff (hNodup : (properties.map Prod.fst).Nodup) :
    Same (.object properties) (.object others) ↔
      ∀ slot, Option.Rel Same (properties.lookup slot) (others.lookup slot) := by
  rw [Same, sameProperties_iff]
  constructor
  · rintro ⟨hValues, hSlots⟩ slot
    cases hLookup : properties.lookup slot with
    | some value =>
      obtain ⟨other, hOther, hSame⟩ := hValues slot value (Entries.mem_of_lookup hLookup)
      rw [hOther]
      exact .some hSame
    | none =>
      have hNone : others.lookup slot = none := by
        rw [← Option.not_isSome_iff_eq_none]
        intro hSome
        have hFound := hSlots slot hSome
        rw [hLookup] at hFound
        cases hFound
      rw [hNone]
      exact .none
  · intro h
    constructor
    · intro slot value hMem
      have hValue := h slot
      rw [Entries.lookup_of_mem hNodup hMem] at hValue
      generalize others.lookup slot = found at hValue
      cases hValue with
      | some hSame => exact ⟨_, rfl, hSame⟩
    · intro slot hSome
      have hValue := h slot
      generalize properties.lookup slot = value at hValue ⊢
      generalize others.lookup slot = found at hValue hSome
      cases hValue with
      | some => rfl
      | none => cases hSome

end JsiValue

end ReactNative
