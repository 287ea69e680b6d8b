import Mathlib
import ReactNativeWindows.ReactNative.JSValue.WriterProtocol
import ReactNativeWindows.ReactNative.Jsi.SetProperty

/-! `JsiWriter`, which builds JavaScript values bottom up on a stack of open containers. -/
namespace ReactNative

open Collections (Entries)
open Unicode

inductive ContainerState where
  | acceptValueAndFinish | acceptArrayElement | acceptPropertyName | acceptPropertyValue
  deriving DecidableEq

structure JsiWriterContainer where
  state : ContainerState
  currentObject : Option (Entries JsiSlot BuiltValue)
  currentArrayElements : List BuiltValue
  propertyName : Utf8

def JsiWriterContainer.make (state : ContainerState)
    (currentObject : Option (Entries JsiSlot BuiltValue)) : JsiWriterContainer :=
  ⟨state, currentObject, [], []⟩

/-- The containers stand with the innermost one first. -/
structure JsiWriter where
  resultAsValue : Option BuiltValue
  resultAsContainer : Option JsiWriterContainer
  containers : List JsiWriterContainer

namespace JsiWriter

def push (w : JsiWriter) (container : JsiWriterContainer) : JsiWriter :=
  { w with containers := container :: w.containers }

def make : JsiWriter := push ⟨none, none, []⟩ (.make .acceptValueAndFinish none)

/-- The end of the root object: its bottom container has to be the last one. -/
def finish (w : JsiWriter) (below : List JsiWriterContainer) : Option JsiWriter :=
  if below = [] then some { w with containers := [] } else none

/-- The key that `setProperty` makes of the bytes before the first NUL. -/
def propertyKey (E : JsiPlatform) (name : Utf8) : Utf16 := E.createFromAscii (cString name)

def writeValue (E : JsiPlatform) (w : JsiWriter) (value : BuiltValue) : Option JsiWriter :=
  match w.containers with
  | [] => none
  | top :: below =>
    match top.state with
    | .acceptValueAndFinish => { w with resultAsValue := some value }.finish below
    | .acceptArrayElement =>
      let top := { top with currentArrayElements := top.currentArrayElements ++ [value] }
      some { w with containers := top :: below }
    | .acceptPropertyValue => do
      let createdObject ← top.currentObject
      let createdObject := JsiValue.setProperty (propertyKey E top.propertyName) value createdObject
      let top := { top with
        currentObject := some createdObject, state := .acceptPropertyName, propertyName := [] }
      some { w with containers := top :: below }
    | .acceptPropertyName => none

def containerToValue (container : JsiWriterContainer) : Option BuiltValue :=
  match container.state with
  | .acceptPropertyName => container.currentObject.map .object
  | .acceptArrayElement => some (.array container.currentArrayElements)
  | _ => none

def writeContainer (E : JsiPlatform) (w : JsiWriter) (container : JsiWriterContainer) :
    Option JsiWriter :=
  match w.containers with
  | [] => none
  | top :: below =>
    if top.state = .acceptValueAndFinish ∧ container.state = .acceptArrayElement then
      { w with resultAsContainer := some container }.finish below
    else do w.writeValue E (← containerToValue container)

/-- `WriteObjectBegin` and `WriteArrayBegin`, legal where a value is. -/
def writeBegin (w : JsiWriter) (container : JsiWriterContainer) : Option JsiWriter :=
  match w.containers with
  | [] => none
  | top :: _ => if top.state = .acceptPropertyName then none else some (w.push container)

def writeEnd (E : JsiPlatform) (w : JsiWriter) (state : ContainerState) : Option JsiWriter :=
  match w.containers with
  | [] => none
  | top :: below =>
    if top.state = state then { w with containers := below }.writeContainer E top else none

def writePropertyName (w : JsiWriter) (name : HString) : Option JsiWriter :=
  match w.containers with
  | [] => none
  | top :: below =>
    if top.state = .acceptPropertyName then
      let top := { top with state := .acceptPropertyValue, propertyName := toUtf8 name }
      some { w with containers := top :: below }
    else none

/-- A call of the writer; `none` where `VerifyElseCrash` stops the process. -/
def write (E : JsiPlatform) (w : JsiWriter) : WriterCall → Option JsiWriter
  | .writeNull => w.writeValue E .null
  | .writeBoolean value => w.writeValue E (.boolean value)
  | .writeInt64 value => w.writeValue E (.number (.ofInt64 value))
  | .writeDouble value => w.writeValue E (.number value)
  | .writeString value => w.writeValue E (.string (JsiValue.createFromUtf8 (toUtf8 value)))
  | .writeObjectBegin => w.writeBegin (.make .acceptPropertyName (some []))
  | .writePropertyName name => w.writePropertyName name
  | .writeObjectEnd => w.writeEnd E .acceptPropertyName
  | .writeArrayBegin => w.writeBegin (.make .acceptArrayElement none)
  | .writeArrayEnd => w.writeEnd E .acceptArrayElement

/-- `MoveResult`; a root array is still a container then. -/
def moveResult (w : JsiWriter) : Option BuiltValue :=
  if w.containers = [] then
    match w.resultAsContainer with
    | some container => containerToValue container
    | none => w.resultAsValue
  else none

def accessResultAsArgs (w : JsiWriter) : Option (List BuiltValue) :=
  w.resultAsContainer.map (·.currentArrayElements)

end JsiWriter

namespace JSNode

variable (key : List Char → Utf16)
  (members : List (Utf16 × BuiltValue) → List (Utf16 × BuiltValue))

mutual

/-- The JavaScript value of what was written, where `key` makes the keys of the properties and `members`
those of them that are set. -/
def render : Written → BuiltValue
  | .null => .null
  | .object properties => .object (JsiValue.setProperties (members (renderProperties properties)) [])
  | .array items => .array (renderItems items)
  | .string value => .string (utf16 value)
  | .boolean value => .boolean value
  | .int64 value => .number (.ofInt64 value)
  | .double value => .number value

def renderProperties : List (List Char × Written) → List (Utf16 × BuiltValue)
  | [] => []
  | (name, value) :: rest => (key name, value.render) :: renderProperties rest

def renderItems : List Written → List BuiltValue
  | [] => []
  | value :: rest => value.render :: renderItems rest

end

theorem renderItems_eq_map (items : List Written) :
    renderItems key members items = items.map (render key members) := by
  induction items with
  | nil => rfl
  | cons value rest ih => rw [renderItems, ih, List.map_cons]

theorem renderProperties_eq_map (properties : List (List Char × Written)) :
    renderProperties key members properties =
      properties.map fun p => (key p.1, p.2.render key members) := by
  induction properties with
  | nil => rfl
  | cons property rest ih => rw [renderProperties, ih, List.map_cons]

end JSNode

namespace JsiWriter

variable (E : JsiPlatform)

def keyOf (name : List Char) : Utf16 := propertyKey E (utf8 name)

def ofContainer : OpenContainer → JsiWriterContainer
  | .object entries none =>
    .make .acceptPropertyName
      (some (JsiValue.setProperties (JSNode.renderProperties (keyOf E) id entries) []))
  | .object entries (some name) =>
    ⟨.acceptPropertyValue,
      some (JsiValue.setProperties (JSNode.renderProperties (keyOf E) id entries) []), [], utf8 name⟩
  | .array items => ⟨.acceptArrayElement, none, JSNode.renderItems (keyOf E) id items, []⟩

def building (containers : List OpenContainer) : JsiWriter :=
  ⟨none, none, containers.map (ofContainer E) ++ [.make .acceptValueAndFinish none]⟩

def finished : Written → JsiWriter
  | .array items => ⟨none, some (ofContainer E (.array items)), []⟩
  | value => ⟨some (value.render (keyOf E) id), none, []⟩

def ofState : WriterState → JsiWriter
  | .start => building E []
  | .building top below => building E (top :: below)
  | .finished value => finished E value

variable {E}

theorem finished_containers (value : Written) : (finished E value).containers = [] := by
  cases value <;> rfl

theorem ofContainer_property (entries : List (List Char × Written)) (name : List Char)
    (value : Written) :
    ofContainer E (.object (entries ++ [(name, value)]) none) =
      .make .acceptPropertyName (some (JsiValue.setProperty (keyOf E name) (value.render (keyOf E) id)
        (JsiValue.setProperties (JSNode.renderProperties (keyOf E) id entries) []))) := by
  rw [ofContainer, JSNode.renderProperties_eq_map, JSNode.renderProperties_eq_map,
    List.map_append, JsiValue.setProperties, List.foldl_append]
  rfl

theorem ofContainer_item (items : List Written) (value : Written) :
    ofContainer E (.array (items ++ [value])) =
      ⟨.acceptArrayElement, none,
        JSNode.renderItems (keyOf E) id items ++ [value.render (keyOf E) id], []⟩ := by
  rw [ofContainer, JSNode.renderItems_eq_map, JSNode.renderItems_eq_map, List.map_append,
    List.map_singleton]

theorem writeValue_building (top : OpenContainer) (below : List OpenContainer) (value : Written) :
    (building E (top :: below)).writeValue E (value.render (keyOf E) id) =
      (WriterState.put value (.building top below)).map (ofState E) := by
  cases top with
  | object entries name =>
    cases name with
    | none => rfl
    | some name =>
      show _ = some (building E (.object (entries ++ [(name, value)]) none :: below))
      conv_rhs => rw [building, List.map_cons, ofContainer_property]
      rfl
  | array items =>
    show _ = some (building E (.array (items ++ [value]) :: below))
    conv_rhs => rw [building, List.map_cons, ofContainer_item]
    rfl

theorem writeValue_ofState (value : Written) (h : ∀ items, value ≠ .array items) (s : WriterState) :
    (ofState E s).writeValue E (value.render (keyOf E) id) =
      (WriterState.put value s).map (ofState E) := by
  cases s with
  | start =>
    cases value with
    | array items => exact absurd rfl (h items)
    | _ => rfl
  | building top below => exact writeValue_building top below value
  | finished result =>
    rw [ofState, writeValue, finished_containers]
    rfl

theorem writeContainer_object (below : List OpenContainer) (entries : List (List Char × Written)) :
    (building E below).writeContainer E (ofContainer E (.object entries none)) =
      (WriterState.ended (.object entries) below).map (ofState E) := by
  cases below with
  | nil => rfl
  | cons top below =>
    rw [WriterState.ended, ← writeValue_building, writeContainer]
    exact if_neg fun hBoth => (by cases hBoth.2)

theorem writeContainer_array (below : List OpenContainer) (items : List Written) :
    (building E below).writeContainer E (ofContainer E (.array items)) =
      (WriterState.ended (.array items) below).map (ofState E) := by
  cases below with
  | nil => rfl
  | cons top below =>
    have hState : (ofContainer E top).state ≠ .acceptValueAndFinish := by
      cases top with
      | object entries name => cases name <;> exact fun h => by cases h
      | array items => exact fun h => by cases h
    rw [WriterState.ended, ← writeValue_building, writeContainer]
    exact if_neg fun hBoth => hState hBoth.1

theorem writeBegin_ofState (container : OpenContainer) (s : WriterState) :
    (ofState E s).writeBegin (ofContainer E container) =
      (WriterState.begin container s).map (ofState E) := by
  cases s with
  | start => rfl
  | building top below =>
    cases top with
    | object entries name => cases name <;> rfl
    | array items => rfl
  | finished result =>
    rw [ofState, writeBegin, finished_containers]
    rfl

theorem writeEnd_finished (value : Written) (state : ContainerState) :
    (finished E value).writeEnd E state = none := by
  rw [writeEnd, finished_containers]

/-- The writer does at each call what the protocol does. -/
theorem write_ofState (s : WriterState) (call : WriterCall) :
    write E (ofState E s) call = (s.write call).map (ofState E) := by
  cases call with
  | writeNull => exact writeValue_ofState .null (fun _ h => by cases h) s
  | writeBoolean value =>
    exact writeValue_ofState (.boolean value) (fun _ h => by cases h) s
  | writeInt64 value =>
    exact writeValue_ofState (.int64 value) (fun _ h => by cases h) s
  | writeDouble value =>
    exact writeValue_ofState (.double value) (fun _ h => by cases h) s
  | writeString value =>
    have hString : JsiValue.createFromUtf8 (toUtf8 value) = utf16 (decodeUtf16 value) :=
      toUtf16_toUtf8 value
    rw [write, hString]
    exact writeValue_ofState (.string (decodeUtf16 value)) (fun _ h => by cases h) s
  | writeObjectBegin => exact writeBegin_ofState (.object [] none) s
  | writeArrayBegin => exact writeBegin_ofState (.array []) s
  | writePropertyName name =>
    cases s with
    | start => rfl
    | building top below =>
      cases top with
      | object entries waiting => cases waiting <;> rfl
      | array items => rfl
    | finished result =>
      show writePropertyName (finished E result) name = none
      rw [writePropertyName, finished_containers]
  | writeObjectEnd =>
    cases s with
    | start => rfl
    | building top below =>
      cases top with
      | object entries waiting =>
        cases waiting with
        | none => exact writeContainer_object below entries
        | some name => rfl
      | array items => rfl
    | finished result => exact writeEnd_finished result _
  | writeArrayEnd =>
    cases s with
    | start => rfl
    | building top below =>
      cases top with
      | object entries waiting => cases waiting <;> rfl
      | array items => exact writeContainer_array below items
    | finished result => exact writeEnd_finished result _

theorem foldlM_write (E : JsiPlatform) (calls : List WriterCall) :
    calls.foldlM (write E) make =
      (calls.foldlM WriterState.write .start).map (ofState E) :=
  Control.foldlM_image write_ofState .start calls

theorem moveResult_finished (value : Written) :
    (finished E value).moveResult = some (value.render (keyOf E) id) := by
  cases value <;> rfl

theorem keyOf_plain (E : JsiPlatform) {name : List Char} (h : PlainText name) :
    keyOf E name = utf16 name := by
  have hBytes : PlainBytes (utf8 name) := plainText_iff_bytes.mpr h
  rw [keyOf, propertyKey, cString_plain hBytes,
    E.createFromAscii_ascii _ fun byte hMem => (hBytes byte hMem).2, widen_utf8 h]

def otherwise (other : Utf16) : JsiPlatform where
  createFromAscii bytes := if ∀ byte ∈ bytes, byte.toNat < 128 then widen bytes else other
  createFromAscii_ascii _ h := if_pos h
  undefinedInt64 _ := .minValue

theorem keyOf_otherwise (other : Utf16) (name : List Char) :
    keyOf (otherwise other) name = other ∨ PlainUnits (keyOf (otherwise other) name) := by
  show (if _ then _ else _) = other ∨ PlainUnits (if _ then _ else _)
  split
  · rename_i hAscii
    exact Or.inr (plainUnits_widen hAscii)
  · exact Or.inl rfl

/-- A key that is found with every engine belongs to a plain name. -/
theorem plain_of_keyOf {name : Utf16} (h : ∀ E, ∃ source, keyOf E source = name) :
    PlainUnits name := by
  obtain ⟨source, hSource⟩ := h (otherwise (0 :: name))
  rcases keyOf_otherwise (0 :: name) source with hOther | hPlain
  · rw [hSource] at hOther
    exact absurd hOther (List.cons_ne_self 0 name).symm
  · rwa [hSource] at hPlain

end JsiWriter

end ReactNative
