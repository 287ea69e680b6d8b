import ReactNativeWindows.ReactNative.JSValue.TreeReader
import ReactNativeWindows.ReactNative.JSValue.TreeWriter

/-! A `JSValue` survives its own reader and writer. -/
namespace ReactNative

variable (C : StringConversions)

def StringConversions.Keeps (s : StdString) : Prop := C.toString (C.toHString s) = s

namespace JSNode

variable {C}

mutual

theorem collect_present : ∀ (v : JSNode StdString), v.Ordered → (∀ s ∈ v.strings, C.Keeps s) →
    (v.present C).collect C = v
  | .object properties, hOrdered, hKeeps => by
    have hMap : StdMap.emplaceAll properties [] = properties :=
      StdMap.emplaceAll_sorted (show StdMap.Sorted ([] ++ properties) from hOrdered.1)
    rw [present, collect, collect_presentProperties properties hOrdered.2 hKeeps, hMap]
  | .array items, hOrdered, hKeeps => by
    rw [present, collect, collect_presentItems items hOrdered hKeeps]
  | .string value, _, hKeeps => by
    rw [present, collect, hKeeps value (List.mem_singleton_self value)]
  | .null, _, _ | .boolean _, _, _ | .int64 _, _, _ | .double _, _, _ => rfl

theorem collect_presentProperties : ∀ (properties : List (StdString × JSNode StdString)),
    OrderedProperties properties → (∀ s ∈ stringsOfProperties properties, C.Keeps s) →
    collectProperties C (presentProperties C properties) = properties
  | [], _, _ => rfl
  | (name, value) :: rest, hOrdered, hKeeps => by
    rw [stringsOfProperties, List.forall_mem_cons, List.forall_mem_append] at hKeeps
    obtain ⟨hName, hValue, hRest⟩ := hKeeps
    rw [presentProperties, collectProperties, hName, collect_present value hOrdered.1 hValue,
      collect_presentProperties rest hOrdered.2 hRest]

theorem collect_presentItems : ∀ (items : List (JSNode StdString)),
    OrderedItems items → (∀ s ∈ stringsOfItems items, C.Keeps s) →
    collectItems C (presentItems C items) = items
  | [], _, _ => rfl
  | value :: rest, hOrdered, hKeeps => by
    rw [stringsOfItems, List.forall_mem_append] at hKeeps
    rw [presentItems, collectItems, collect_present value hOrdered.1 hKeeps.1,
      collect_presentItems rest hOrdered.2 hKeeps.2]

end

variable (C)

mutual

theorem fuel_present : ∀ v : JSNode StdString, (v.present C).fuel = v.fuel
  | .object properties => by rw [present, fuel, fuel, fuel_presentProperties properties]
  | .array items => by rw [present, fuel, fuel, fuel_presentItems items]
  | .null | .string _ | .boolean _ | .int64 _ | .double _ => rfl

theorem fuel_presentProperties : ∀ properties : List (StdString × JSNode StdString),
    fuelOfProperties (presentProperties C properties) = fuelOfProperties properties
  | [] => rfl
  | (_, value) :: rest => by
    rw [presentProperties, fuelOfProperties, fuelOfProperties, fuel_present value,
      fuel_presentProperties rest]

theorem fuel_presentItems : ∀ items : List (JSNode StdString),
    fuelOfItems (presentItems C items) = fuelOfItems items
  | [] => rfl
  | value :: rest => by
    rw [presentItems, fuelOfItems, fuelOfItems, fuel_present value, fuel_presentItems rest]

end

end JSNode

namespace JSValueTreeReader

/-- `ReadFrom` takes in the value at the cursor and leaves the cursor behind it. -/
theorem readFrom_opened (v : JSNode StdString) (stack : List StackEntry) {fuel : ℕ}
    (hFuel : v.fuel ≤ fuel) :
    readFrom C (treeReader C) fuel (opened v stack) =
      some ((v.present C).collect C, closed v stack) :=
  readFrom_of_presents C (presents C v stack) (by rwa [JSNode.fuel_present])

/-- `ReadFrom` gets every member of the tree from the reader, each once and in order. -/
theorem readFrom_recording (v : JSNode StdString) (stack : List StackEntry) (log : List Yield)
    {fuel : ℕ} (hFuel : v.fuel ≤ fuel) :
    readFrom C (recording (treeReader C)) fuel (opened v stack, log) =
      some ((v.present C).collect C, closed v stack, log ++ (v.present C).yields) :=
  readFrom_of_presents C ((presents C v stack).recording log) (by rwa [JSNode.fuel_present])

end JSValueTreeReader

namespace JSValue

open JSValueTreeReader in
/-- A `JSValue` comes back from its tree reader and from a tree writer, and the reader hands
out each of its members exactly once and in order. -/
theorem serialization_round_trip (v : JSValue) (hKeeps : ∀ s ∈ v.node.strings, C.Keeps s) :
    (∀ fuel, v.node.fuel ≤ fuel →
      readFrom C (treeReader C) fuel (make v.node) = some (v.node, make v.node) ∧
        readFrom C (recording (treeReader C)) fuel (make v.node, []) =
          some (v.node, make v.node, (v.node.present C).yields)) ∧
      ((v.node.writeTo C).foldlM (JSValueTreeWriter.write C) JSValueTreeWriter.make).map
        JSValueTreeWriter.takeValue = some v.node := by
  have hNode : (v.node.present C).collect C = v.node :=
    JSNode.collect_present v.node v.ordered hKeeps
  refine ⟨fun fuel hFuel => ⟨?_, ?_⟩, ?_⟩
  · have h := readFrom_opened C v.node [] hFuel
    rwa [hNode, ← make_eq_opened, ← make_eq_closed] at h
  · have h := readFrom_recording C v.node [] [] hFuel
    rwa [hNode, ← make_eq_opened, ← make_eq_closed, List.nil_append] at h
  · rw [JSValueTreeWriter.write_node, hNode]
    rfl

def nested : JSValue :=
  ⟨.object [([97], .object []), ([98], .array [.array [], .int64 1])], by
    simp only [JSNode.Ordered, JSNode.OrderedProperties, JSNode.OrderedItems, StdMap.Sorted]
    decide⟩

def asciiConversions : StringConversions :=
  ⟨List.map fun b => b.toUInt16, List.map fun u => u.toUInt8⟩

theorem nested_round_trip :
    (∀ fuel, nested.node.fuel ≤ fuel →
      readFrom asciiConversions (treeReader asciiConversions) fuel
          (JSValueTreeReader.make nested.node) =
        some (nested.node, JSValueTreeReader.make nested.node) ∧
      readFrom asciiConversions (recording (treeReader asciiConversions)) fuel
          (JSValueTreeReader.make nested.node, []) =
        some (nested.node, JSValueTreeReader.make nested.node,
          [.property [97] (.object []), .done, .property [98] (.array []), .item (.array []), .done,
            .item (.int64 1), .done, .done])) ∧
      ((nested.node.writeTo asciiConversions).foldlM (JSValueTreeWriter.write asciiConversions)
        JSValueTreeWriter.make).map JSValueTreeWriter.takeValue = some nested.node :=
  serialization_round_trip asciiConversions nested (by
    intro s hMem
    simp only [nested, JSNode.strings, JSNode.stringsOfProperties, JSNode.stringsOfItems,
      List.append_nil, List.nil_append, List.mem_cons, List.not_mem_nil, or_false] at hMem
    rcases hMem with rfl | rfl <;> rfl)

end JSValue

end ReactNative
