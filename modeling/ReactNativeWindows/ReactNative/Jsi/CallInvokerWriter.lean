import ReactNativeWindows.ReactNative.Jsi.DynamicWriter
import ReactNativeWindows.ReactNative.Jsi.JsiWriter

/-! `CallInvokerWriter`: the arguments of a call into JavaScript are written by a `JsiWriter`
on the thread of the runtime and by a `DynamicWriter` elsewhere. -/
namespace ReactNative

open Collections (Entries)
open Unicode

mutual

def valueFromDynamic : Dynamic → BuiltValue
  | .null => .null
  | .boolean value => .boolean value
  | .int64 value => .number (.ofInt64 value)
  | .double value => .number value
  | .string value => .string (JsiValue.createFromUtf8 value)
  | .array items => .array (valuesFromItems items)
  | .object members => .object (JsiValue.setProperties (valuesFromMembers members) [])

def valuesFromMembers : List (Utf8 × Dynamic) → List (Utf16 × BuiltValue)
  | [] => []
  | (name, value) :: rest =>
    (JsiValue.createFromUtf8 name, valueFromDynamic value) :: valuesFromMembers rest

def valuesFromItems : List Dynamic → List BuiltValue
  | [] => []
  | value :: rest => valueFromDynamic value :: valuesFromItems rest

end

inductive ArgumentWriter where
  | jsi (writer : JsiWriter)
  | dynamic (writer : DynamicWriter)
  | noop

structure CallInvokerWriter where
  fastPath : Bool
  writer : Option ArgumentWriter

/-- Where the writer is used: on the thread that made it, and with the runtime still there. -/
structure CallSite where
  onThread : Bool
  runtime : Bool

namespace CallInvokerWriter

variable (E : JsiPlatform) (site : CallSite)

def make : CallInvokerWriter := ⟨true, none⟩

def exitCurrentCallInvokeScope (w : CallInvokerWriter) : CallInvokerWriter :=
  { w with fastPath := false }

def getWriter (w : CallInvokerWriter) : ArgumentWriter :=
  match w.writer with
  | some writer => writer
  | none =>
    if site.onThread && w.fastPath then if site.runtime then .jsi .make else .noop
    else .dynamic .make

/-- A call of the writer; `none` where `VerifyElseCrash` stops the process. -/
def write (w : CallInvokerWriter) (call : WriterCall) : Option CallInvokerWriter :=
  match w.getWriter site with
  | .jsi writer => do some { w with writer := some (.jsi (← writer.write E call)) }
  | .dynamic writer => do some { w with writer := some (.dynamic (← writer.write call)) }
  | .noop => some { w with writer := some .noop }

def withResultArgs (w : CallInvokerWriter) : Option (Option (List BuiltValue)) :=
  if site.onThread && w.fastPath then
    match w.writer with
    | some (.dynamic _) => none
    | some (.jsi writer) => if site.runtime then do some (some (← writer.accessResultAsArgs))
      else some none
    | _ => if site.runtime then none else some none
  else
    match w.writer with
    | some (.dynamic writer) =>
      match writer.takeValue with
      | .array items => some (some (valuesFromItems items))
      | _ => none
    | _ => none

/-- The arguments that these calls pass on. -/
def invoke (w : CallInvokerWriter) (calls : List WriterCall) : Option (Option (List BuiltValue)) :=
  do (← calls.foldlM (write E site) w).withResultArgs site

end CallInvokerWriter

def WriterState.items : WriterState → Option (List Written)
  | .finished (.array items) => some items
  | _ => none

def writtenItems (calls : List WriterCall) : Option (List Written) := do
  (← calls.foldlM WriterState.write .start).items

namespace JsiWriter

theorem accessResultAsArgs_ofState (E : JsiPlatform) (s : WriterState) :
    (ofState E s).accessResultAsArgs = s.items.map (JSNode.renderItems (keyOf E) id) := by
  cases s with
  | start | building top below => rfl
  | finished value => cases value <;> rfl

end JsiWriter

theorem valuesFromMembers_eq_map (members : List (Utf8 × Dynamic)) :
    valuesFromMembers members = members.map (Prod.map JsiValue.createFromUtf8 valueFromDynamic) := by
  induction members with
  | nil => rfl
  | cons member rest ih =>
    rw [valuesFromMembers, ih, List.map_cons]
    rfl

theorem createFromUtf8_utf8 (text : List Char) : JsiValue.createFromUtf8 (utf8 text) = utf16 text := by
  rw [JsiValue.createFromUtf8, toUtf16, decodeUtf8_utf8]

/-- The members that are left of these, where a later one of the name replaces an earlier one. -/
def lastMembers (members : List (Utf16 × BuiltValue)) : List (Utf16 × BuiltValue) :=
  Entries.setAll members []

theorem valuesFromMembers_setAll (properties : List (List Char × Written)) :
    valuesFromMembers (Entries.setAll (JSNode.toDynamicMembers properties) []) =
      lastMembers (properties.map (Prod.map utf16 fun value => valueFromDynamic value.toDynamic)) := by
  have hMembers : Entries.setAll (JSNode.toDynamicMembers properties) [] =
      (Entries.setAll properties []).map (Prod.map utf8 JSNode.toDynamic) := by
    rw [Entries.map_setAll utf8_injective, JSNode.toDynamicMembers_eq_map]
    rfl
  have hEntry : Prod.map JsiValue.createFromUtf8 valueFromDynamic ∘ Prod.map utf8 JSNode.toDynamic =
      Prod.map utf16 fun value : Written => valueFromDynamic value.toDynamic := by
    funext property
    exact Prod.ext (createFromUtf8_utf8 property.1) rfl
  rw [hMembers, valuesFromMembers_eq_map, List.map_map, hEntry, Entries.map_setAll utf16_injective]
  rfl

mutual

/-- The slow path renders the keys in full, and sets each of them once. -/
theorem valueFromDynamic_toDynamic : ∀ value : Written,
    valueFromDynamic value.toDynamic = value.render utf16 lastMembers
  | .object properties => by
    rw [JSNode.toDynamic, valueFromDynamic, valuesFromMembers_setAll,
      valueFromDynamic_properties properties, JSNode.render]
  | .array items => by
    rw [JSNode.toDynamic, valueFromDynamic, JSNode.render, valuesFromItems_toDynamic items]
  | .string value => by
    rw [JSNode.toDynamic, valueFromDynamic, JSNode.render, createFromUtf8_utf8]
  | .null | .boolean _ | .int64 _ | .double _ => rfl

theorem valueFromDynamic_properties : ∀ properties : List (List Char × Written),
    properties.map (Prod.map utf16 fun value => valueFromDynamic value.toDynamic) =
      JSNode.renderProperties utf16 lastMembers properties
  | [] => rfl
  | (name, value) :: rest => by
    rw [JSNode.renderProperties, ← valueFromDynamic_toDynamic value,
      ← valueFromDynamic_properties rest, List.map_cons]
    rfl

theorem valuesFromItems_toDynamic : ∀ items : List Written,
    valuesFromItems (JSNode.toDynamicItems items) = JSNode.renderItems utf16 lastMembers items
  | [] => rfl
  | value :: rest => by
    rw [JSNode.toDynamicItems, valuesFromItems, JSNode.renderItems,
      valueFromDynamic_toDynamic value, valuesFromItems_toDynamic rest]

end

namespace CallInvokerWriter

variable {E : JsiPlatform} {site : CallSite}

def ofJsi (writer : JsiWriter) : CallInvokerWriter := ⟨true, some (.jsi writer)⟩

def ofDynamic (fastPath : Bool) (writer : DynamicWriter) : CallInvokerWriter :=
  ⟨fastPath, some (.dynamic writer)⟩

theorem write_ofJsi (writer : JsiWriter) (call : WriterCall) :
    write E site (ofJsi writer) call = (writer.write E call).map ofJsi := by
  show Option.bind (writer.write E call) _ = _
  cases writer.write E call <;> rfl

theorem write_ofDynamic (fastPath : Bool) (writer : DynamicWriter) (call : WriterCall) :
    write E site (ofDynamic fastPath writer) call = (writer.write call).map (ofDynamic fastPath) := by
  show Option.bind (writer.write call) _ = _
  cases writer.write call <;> rfl

/-- The fast path: the creator's thread, inside the scope, with the runtime there. -/
theorem invoke_fast (calls : List WriterCall) :
    make.invoke E ⟨true, true⟩ calls =
      (writtenItems calls).map fun items => some (JSNode.renderItems (JsiWriter.keyOf E) id items) := by
  cases calls with
  | nil => rfl
  | cons call calls =>
    have hFirst : write E ⟨true, true⟩ make call =
        write E ⟨true, true⟩ (ofJsi .make) call := rfl
    have hRun : (call :: calls).foldlM (write E ⟨true, true⟩) make =
        ((call :: calls).foldlM (JsiWriter.write E) .make).map ofJsi := by
      rw [List.foldlM_cons, hFirst, ← List.foldlM_cons]
      exact Control.foldlM_image write_ofJsi JsiWriter.make (call :: calls)
    rw [invoke, hRun, JsiWriter.foldlM_write, writtenItems]
    cases (call :: calls).foldlM WriterState.write .start with
    | none => rfl
    | some s =>
      show (do some (some (← (JsiWriter.ofState E s).accessResultAsArgs))) = s.items.map _
      rw [JsiWriter.accessResultAsArgs_ofState]
      cases s.items <;> rfl

/-- The slow path: another thread, or behind the scope. -/
theorem invoke_slow {w : CallInvokerWriter} (hNew : w.writer = none)
    (hSlow : (site.onThread && w.fastPath) = false) (calls : List WriterCall) :
    w.invoke E site calls =
      (writtenItems calls).map fun items => some (JSNode.renderItems utf16 lastMembers items) := by
  obtain ⟨fastPath, writer⟩ := w
  cases hNew
  cases calls with
  | nil =>
    show withResultArgs site ⟨fastPath, none⟩ = none
    simp only [withResultArgs, hSlow]
    rfl
  | cons call calls =>
    have hFirst : write E site ⟨fastPath, none⟩ call =
        write E site (ofDynamic fastPath .make) call := by
      simp only [write, getWriter, hSlow]
      rfl
    have hRun : (call :: calls).foldlM (write E site) ⟨fastPath, none⟩ =
        ((call :: calls).foldlM DynamicWriter.write .make).map (ofDynamic fastPath) := by
      rw [List.foldlM_cons, hFirst, ← List.foldlM_cons]
      exact Control.foldlM_image (write_ofDynamic fastPath) DynamicWriter.make (call :: calls)
    rw [invoke, hRun, DynamicWriter.foldlM_write, writtenItems]
    cases (call :: calls).foldlM WriterState.write .start with
    | none => rfl
    | some s =>
      show withResultArgs site (ofDynamic fastPath (DynamicWriter.ofState s)) = s.items.map _
      simp only [withResultArgs, ofDynamic, hSlow]
      cases s with
      | start | building top below => rfl
      | finished value =>
        cases value with
        | array items =>
          show some (some (valuesFromItems (JSNode.toDynamicItems items))) = _
          rw [valuesFromItems_toDynamic]
          rfl
        | _ => rfl

end CallInvokerWriter

end ReactNative
