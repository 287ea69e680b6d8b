import Mathlib.Data.Int.ModEq
import ReactNativeWindows.ReactNative.JSValue.JSValue
import ReactNativeWindows.ReactNative.Jsi.JsiValue

/-! `JsiReader`, a cursor over a JavaScript value: the current primitive, and a stack of the
containers that are being read. -/
namespace ReactNative

open Numbers (Double)
open Unicode

/-- `JsiReader::Container`, with the index of the member that was read last. -/
inductive JsiReaderContainer where
  | object (currentObject : List (Utf16 × PlainValue)) (propertyNames : List Utf16) (index : ℤ)
  | array (currentArray : List PlainValue) (index : ℤ)
  | args (argElements : List PlainValue) (index : ℤ)

/-- The containers stand with the innermost one first. -/
structure JsiReader where
  currentPrimitiveValue : Option PlainValue
  containers : List JsiReaderContainer

/-- `static_cast<int>` of a `size_t`. -/
@[irreducible] def intOfSize (size : ℕ) : ℤ := Int.bmod size 0x100000000

namespace JsiReader

def getProperty (currentObject : List (Utf16 × PlainValue)) (name : Utf16) : PlainValue :=
  (currentObject.lookup name).getD .null

def setValue (r : JsiReader) (value : PlainValue) : JsiReader :=
  match value with
  | .array items => ⟨none, .array items (-1) :: r.containers⟩
  | .object properties =>
    ⟨none, .object properties (properties.map Prod.fst) (-1) :: r.containers⟩
  | value => { r with currentPrimitiveValue := some value }

def make (root : PlainValue) : JsiReader := setValue ⟨none, []⟩ root

def makeArgs (args : List PlainValue) : JsiReader := ⟨none, [.args args (-1)]⟩

def valueType (r : JsiReader) : JSValueType :=
  match r.currentPrimitiveValue with
  | some (.string _) => .string
  | some (.boolean _) => .boolean
  | some (.number number) => if number.isFloor then .int64 else .double
  | some _ => .null
  | none =>
    match r.containers with
    | .object .. :: _ => .object
    | _ :: _ => .array
    | [] => .null

/-- The container on top has no next member. -/
def leave (below : List JsiReaderContainer) : JsiReader := ⟨none, below⟩

def getNextObjectProperty (r : JsiReader) : Option HString × JsiReader :=
  match r.containers with
  | .object currentObject propertyNames index :: below =>
    if index + 1 < intOfSize propertyNames.length then
      let name := propertyNames.getD (index + 1).toNat []
      let top := .object currentObject propertyNames (index + 1)
      (some (toUtf16 (JsiValue.utf8 name)),
        { r with containers := top :: below }.setValue (getProperty currentObject name))
    else (none, leave below)
  | _ => (none, r)

def getNextArrayItem (r : JsiReader) : Option Unit × JsiReader :=
  match r.containers with
  | .array currentArray index :: below =>
    if index + 1 < intOfSize currentArray.length then
      let top := .array currentArray (index + 1)
      (some (), { r with containers := top :: below }.setValue
        (currentArray.getD (index + 1).toNat .null))
    else (none, leave below)
  | .args argElements index :: below =>
    if index + 1 < intOfSize argElements.length then
      let top := .args argElements (index + 1)
      (some (), { r with containers := top :: below }.setValue
        (argElements.getD (index + 1).toNat .null))
    else (none, leave below)
  | _ => (none, r)

def getString (r : JsiReader) : HString :=
  match r.currentPrimitiveValue with
  | some (.string value) => toUtf16 (JsiValue.utf8 value)
  | _ => []

def getBoolean (r : JsiReader) : Bool :=
  match r.currentPrimitiveValue with
  | some (.boolean value) => value
  | _ => false

def getInt64 (E : JsiPlatform) (r : JsiReader) : Int64 :=
  match r.currentPrimitiveValue with
  | some (.number number) => if number.isFloor then number.toInt64 E.undefinedInt64 else 0
  | _ => 0

def getDouble (r : JsiReader) : Double :=
  match r.currentPrimitiveValue with
  | some (.number number) => number
  | _ => .ofInt64 0

end JsiReader

def jsiReader (E : JsiPlatform) : IJSValueReader JsiReader where
  valueType := JsiReader.valueType
  getNextObjectProperty := JsiReader.getNextObjectProperty
  getNextArrayItem := JsiReader.getNextArrayItem
  getString := JsiReader.getString
  getBoolean := JsiReader.getBoolean
  getInt64 := JsiReader.getInt64 E
  getDouble := JsiReader.getDouble

namespace JsiValue

mutual

/-- Each object has its properties under names of their own. -/
def Distinct : PlainValue → Prop
  | .object properties =>
    (properties.map Prod.fst).Nodup ∧ DistinctInProperties properties
  | .array items => DistinctInItems items
  | _ => True

def DistinctInProperties : List (Utf16 × PlainValue) → Prop
  | [] => True
  | (_, value) :: rest => value.Distinct ∧ DistinctInProperties rest

def DistinctInItems : List PlainValue → Prop
  | [] => True
  | value :: rest => value.Distinct ∧ DistinctInItems rest

end

/-- How many members of a container the reader gets to: its index is an `int`. -/
def limit (size : ℕ) : ℕ := (intOfSize size).toNat

variable (E : JsiPlatform)

mutual

/-- The tree that the reader shows. -/
def shown : PlainValue → JSNode HString
  | .null => .null
  | .boolean value => .boolean value
  | .number x => if x.isFloor then .int64 (x.toInt64 E.undefinedInt64) else .double x
  | .string value => .string (toUtf16 (utf8 value))
  | .array items => .array (shownItems (limit items.length) items)
  | .object properties => .object (shownProperties (limit properties.length) properties)

def shownProperties (count : ℕ) : List (Utf16 × PlainValue) → List (HString × JSNode HString)
  | [] => []
  | (name, value) :: rest =>
    if count = 0 then []
    else (toUtf16 (utf8 name), value.shown) :: shownProperties (count - 1) rest

def shownItems (count : ℕ) : List PlainValue → List (JSNode HString)
  | [] => []
  | value :: rest => if count = 0 then [] else value.shown :: shownItems (count - 1) rest

end

end JsiValue

theorem intOfSize_le (size : ℕ) : intOfSize size ≤ size := by
  unfold intOfSize
  rw [Int.bmod_def]
  omega

/-- A container is read to its end exactly when its size fits an `int`. -/
theorem limit_eq_iff {size : ℕ} : JsiValue.limit size = size ↔ size < 2 ^ 31 := by
  unfold JsiValue.limit intOfSize
  rw [Int.bmod_def]
  omega

namespace JsiReader

variable (E : JsiPlatform)

/-- The reader has come to a value above these containers. -/
def opened (value : PlainValue) (below : List JsiReaderContainer) : JsiReader :=
  setValue ⟨none, below⟩ value

def closed (value : PlainValue) (below : List JsiReaderContainer) : JsiReader :=
  match value with
  | .array _ | .object _ => leave below
  | value => ⟨some value, below⟩

theorem setValue_eq_opened (r : JsiReader) (value : PlainValue) :
    r.setValue value = opened value r.containers := by
  cases value <;> rfl

/-- The reader is between two properties of an object: `done` of them are behind it. -/
def inObject (current : Option PlainValue) (properties : List (Utf16 × PlainValue)) (done : ℕ)
    (below : List JsiReaderContainer) : JsiReader :=
  ⟨current, .object properties (properties.map Prod.fst) (done - 1) :: below⟩

def inArray (current : Option PlainValue) (items : List PlainValue) (done : ℕ)
    (below : List JsiReaderContainer) : JsiReader :=
  ⟨current, .array items (done - 1) :: below⟩

variable {current : Option PlainValue} {below : List JsiReaderContainer}

theorem next_property {properties before rest : List (Utf16 × PlainValue)} {name : Utf16}
    {value : PlainValue} (hAll : properties = before ++ (name, value) :: rest)
    (hDistinct : (properties.map Prod.fst).Nodup)
    (hLimit : before.length < JsiValue.limit properties.length) :
    getNextObjectProperty (inObject current properties before.length below) =
      (some (toUtf16 (JsiValue.utf8 name)),
        opened value
          (.object properties (properties.map Prod.fst) before.length :: below)) := by
  have hIndex : ((before.length : ℤ) - 1 + 1) = before.length := by omega
  have hMore : (before.length : ℤ) < intOfSize (properties.map Prod.fst).length := by
    rw [List.length_map]
    rw [JsiValue.limit] at hLimit
    omega
  have hName : (properties.map Prod.fst).getD before.length [] = name := by
    rw [hAll, List.map_append, List.map_cons, List.getD_eq_getElem?_getD,
      List.getElem?_append_right (by rw [List.length_map]), List.length_map, Nat.sub_self]
    rfl
  have hValue : getProperty properties name = value := by
    have hMem : (name, value) ∈ properties := by
      rw [hAll]
      exact List.mem_append_right _ List.mem_cons_self
    rw [getProperty, Collections.Entries.lookup_of_mem hDistinct hMem, Option.getD_some]
  simp only [getNextObjectProperty, inObject, hIndex, if_pos hMore, Int.toNat_natCast, hName,
    hValue, setValue_eq_opened]

theorem last_property {properties : List (Utf16 × PlainValue)} {done : ℕ}
    (hLimit : JsiValue.limit properties.length ≤ done) :
    getNextObjectProperty (inObject current properties done below) = (none, leave below) := by
  have hEnd : ¬ ((done : ℤ) - 1 + 1) < intOfSize (properties.map Prod.fst).length := by
    rw [List.length_map]
    rw [JsiValue.limit] at hLimit
    omega
  simp only [getNextObjectProperty, inObject, if_neg hEnd]

theorem next_item {items before rest : List PlainValue} {value : PlainValue}
    (hAll : items = before ++ value :: rest)
    (hLimit : before.length < JsiValue.limit items.length) :
    getNextArrayItem (inArray current items before.length below) =
      (some (), opened value (.array items before.length :: below)) := by
  have hIndex : ((before.length : ℤ) - 1 + 1) = before.length := by omega
  have hMore : (before.length : ℤ) < intOfSize items.length := by
    rw [JsiValue.limit] at hLimit
    omega
  have hValue : items.getD before.length .null = value := by
    rw [hAll, List.getD_eq_getElem?_getD, List.getElem?_append_right (le_refl _), Nat.sub_self]
    rfl
  simp only [getNextArrayItem, inArray, hIndex, if_pos hMore, Int.toNat_natCast, hValue,
    setValue_eq_opened]

theorem last_item {items : List PlainValue} {done : ℕ}
    (hLimit : JsiValue.limit items.length ≤ done) :
    getNextArrayItem (inArray current items done below) = (none, leave below) := by
  have hEnd : ¬ ((done : ℤ) - 1 + 1) < intOfSize items.length := by
    rw [JsiValue.limit] at hLimit
    omega
  simp only [getNextArrayItem, inArray, if_neg hEnd]

/-- A number is an integer for the reader where it has no fraction. -/
theorem presents_number (number : Double) (below : List JsiReaderContainer) :
    Presents (jsiReader E) (opened (.number number) below) ((JsiValue.number number).shown E)
      (closed (.number number) below) := by
  have hInt : number.isFloor = true →
      (opened (.number number) below).getInt64 E = number.toInt64 E.undefinedInt64 :=
    fun h => if_pos h
  rw [JsiValue.shown]
  by_cases h : number.isFloor = true
  · rw [if_pos h, ← hInt h]
    exact .int64 (R := jsiReader E) (if_pos h)
  · rw [if_neg h]
    exact .double (R := jsiReader E) (s := opened (.number number) below) (if_neg h)

theorem closed_inObject (value : PlainValue) (properties : List (Utf16 × PlainValue)) (done : ℕ) :
    closed value (.object properties (properties.map Prod.fst) done :: below) =
      inObject (closed value below).currentPrimitiveValue properties (done + 1) below := by
  have hIndex : ((done + 1 : ℕ) : ℤ) - 1 = done := by omega
  rw [inObject, hIndex]
  cases value <;> rfl

theorem closed_inArray (value : PlainValue) (items : List PlainValue) (done : ℕ) :
    closed value (.array items done :: below) =
      inArray (closed value below).currentPrimitiveValue items (done + 1) below := by
  have hIndex : ((done + 1 : ℕ) : ℤ) - 1 = done := by omega
  rw [inArray, hIndex]
  cases value <;> rfl

mutual

/-- The reader shows the value that it has come to, and is done with it then. -/
theorem presents : ∀ (value : PlainValue) (below : List JsiReaderContainer), value.Distinct →
    Presents (jsiReader E) (opened value below) (value.shown E) (closed value below)
  | .null, _, _ => .null rfl
  | .boolean value, below, _ =>
    .boolean (R := jsiReader E) (s := opened (.boolean value) below) rfl
  | .number number, below, _ => presents_number E number below
  | .string value, below, _ => .string (R := jsiReader E) (s := opened (.string value) below) rfl
  | .array items, below, hDistinct => by
    have hItems := presentsItems items items [] none below hDistinct rfl
    rw [List.length_nil, Nat.sub_zero] at hItems
    exact .array rfl hItems
  | .object properties, below, hDistinct => by
    have hProperties :=
      presentsProperties properties properties [] none below hDistinct.1 hDistinct.2 rfl
    rw [List.length_nil, Nat.sub_zero] at hProperties
    exact .object rfl hProperties

theorem presentsProperties : ∀ (rest properties before : List (Utf16 × PlainValue))
    (current : Option PlainValue) (below : List JsiReaderContainer),
    (properties.map Prod.fst).Nodup → JsiValue.DistinctInProperties rest →
    properties = before ++ rest →
    PresentsProperties (jsiReader E) (inObject current properties before.length below)
      (JsiValue.shownProperties E (JsiValue.limit properties.length - before.length) rest)
      (leave below)
  | [], properties, before, current, below, _, _, hAll => by
    refine .nil (last_property ?_)
    rw [hAll, List.append_nil, JsiValue.limit]
    have hLe := intOfSize_le before.length
    omega
  | (name, value) :: rest, properties, before, current, below, hDistinct, hRest, hAll => by
    rw [JsiValue.shownProperties]
    by_cases hEnd : JsiValue.limit properties.length - before.length = 0
    · rw [if_pos hEnd]
      exact .nil (last_property (Nat.le_of_sub_eq_zero hEnd))
    · rw [if_neg hEnd]
      have hLater := presentsProperties rest properties (before ++ [(name, value)])
        (closed value below).currentPrimitiveValue below hDistinct hRest.2
        (by rw [hAll, List.append_assoc, List.singleton_append])
      rw [List.length_append, List.length_singleton, ← closed_inObject, ← Nat.sub_sub] at hLater
      exact .cons (next_property hAll hDistinct (by omega)) (presents value _ hRest.1) hLater

theorem presentsItems : ∀ (rest items before : List PlainValue) (current : Option PlainValue)
    (below : List JsiReaderContainer), JsiValue.DistinctInItems rest → items = before ++ rest →
    PresentsItems (jsiReader E) (inArray current items before.length below)
      (JsiValue.shownItems E (JsiValue.limit items.length - before.length) rest) (leave below)
  | [], items, before, current, below, _, hAll => by
    refine .nil (last_item ?_)
    rw [hAll, List.append_nil, JsiValue.limit]
    have hLe := intOfSize_le before.length
    omega
  | value :: rest, items, before, current, below, hRest, hAll => by
    rw [JsiValue.shownItems]
    by_cases hEnd : JsiValue.limit items.length - before.length = 0
    · rw [if_pos hEnd]
      exact .nil (last_item (Nat.le_of_sub_eq_zero hEnd))
    · rw [if_neg hEnd]
      have hLater := presentsItems rest items (before ++ [value])
        (closed value below).currentPrimitiveValue below hRest.2
        (by rw [hAll, List.append_assoc, List.singleton_append])
      rw [List.length_append, List.length_singleton, ← closed_inArray, ← Nat.sub_sub] at hLater
      exact .cons (next_item hAll (by omega)) (presents value _ hRest.1) hLater

end

end JsiReader

end ReactNative
