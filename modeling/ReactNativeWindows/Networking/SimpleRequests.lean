import ReactNativeWindows.Networking.OriginPolicyHttpFilter

/-! Which requests `IsSimpleCorsRequest` takes for simple ones. -/
namespace Networking.OriginPolicyHttpFilter

/-- The headers of the content, which the platform keeps apart. -/
def headersOfContent (request : HttpRequestMessage) : Headers :=
  (request.content.map HttpContent.headers).getD []

def contentTypes (headers : Headers) : List String :=
  (headers.filter fun header => iequals header.1 "Content-Type").map Prod.snd

/-- What is required of a request but for the values of `Content-Type` in its own headers. -/
structure SimpleButForContentTypes (request : HttpRequestMessage) : Prop where
  method : containsName simpleCorsMethods request.method.text = true
  names : ∀ header ∈ request.headers, containsName simpleCorsRequestHeaderNames header.1 = true
  contentNames : ∀ header ∈ headersOfContent request,
    containsName simpleCorsRequestHeaderNames header.1 = true ∨ iequals header.1 "Content-Length" = true
  contentTypes : ∀ value ∈ contentTypes (headersOfContent request),
    containsName simpleCorsContentTypeValues value = true

/-- A simple request: the method, all names and all types are simple, wherever a header stands. -/
structure SimpleRequest (request : HttpRequestMessage) : Prop where
  method : containsName simpleCorsMethods request.method.text = true
  names : ∀ header ∈ request.headers, containsName simpleCorsRequestHeaderNames header.1 = true
  contentNames : ∀ header ∈ headersOfContent request,
    containsName simpleCorsRequestHeaderNames header.1 = true ∨ iequals header.1 "Content-Length" = true
  types : ∀ value ∈ contentTypes (request.headers ++ headersOfContent request),
    containsName simpleCorsContentTypeValues value = true

variable {request : HttpRequestMessage}

variable {headers : Headers}

theorem mem_contentTypes {value : String} :
    value ∈ contentTypes headers ↔
      ∃ header ∈ headers, iequals header.1 "Content-Type" = true ∧ header.2 = value := by
  rw [contentTypes, List.mem_map]
  constructor
  · rintro ⟨header, hMem, rfl⟩
    obtain ⟨hHeader, hName⟩ := List.mem_filter.mp hMem
    exact ⟨header, hHeader, hName, rfl⟩
  · rintro ⟨header, hHeader, hName, rfl⟩
    exact ⟨header, List.mem_filter.mpr ⟨hHeader, hName⟩, rfl⟩

theorem contentTypes_append (first second : Headers) :
    contentTypes (first ++ second) = contentTypes first ++ contentTypes second := by
  rw [contentTypes, List.filter_append, List.map_append]
  rfl

theorem simpleRequest_iff : SimpleRequest request ↔ SimpleButForContentTypes request ∧
    ∀ value ∈ contentTypes request.headers, containsName simpleCorsContentTypeValues value = true := by
  constructor
  · rintro ⟨hMethod, hNames, hContentNames, hTypes⟩
    rw [contentTypes_append] at hTypes
    refine ⟨⟨hMethod, hNames, hContentNames, ?_⟩, ?_⟩
    · exact fun value hMem => hTypes value (List.mem_append_right _ hMem)
    · exact fun value hMem => hTypes value (List.mem_append_left _ hMem)
  · rintro ⟨⟨hMethod, hNames, hContentNames, hContentTypes⟩, hTypes⟩
    refine ⟨hMethod, hNames, hContentNames, ?_⟩
    rw [contentTypes_append]
    intro value hMem
    rcases List.mem_append.mp hMem with hOwn | hContent
    · exact hTypes value hOwn
    · exact hContentTypes value hContent

/-- A loop that tests the names of headers, and those values that are types. -/
theorem headers_iff (simple : String × String → Bool) (rejected : String → Bool) :
    headers.all (fun header =>
        simple header && !(iequals header.1 "Content-Type" && rejected header.2)) = true ↔
      (∀ header ∈ headers, simple header = true) ∧ ∀ value ∈ contentTypes headers, rejected value = false := by
  rw [List.all_eq_true]
  constructor
  · intro hAll
    constructor
    · intro header hMem
      exact ((Bool.and_eq_true _ _).mp (hAll header hMem)).1
    · intro value hMem
      obtain ⟨header, hHeader, hName, rfl⟩ := mem_contentTypes.mp hMem
      have hTest := ((Bool.and_eq_true _ _).mp (hAll header hHeader)).2
      rw [hName, Bool.true_and, Bool.not_eq_true'] at hTest
      exact hTest
  · rintro ⟨hNames, hTypes⟩ header hMem
    rw [hNames header hMem, Bool.true_and, Bool.not_eq_true']
    cases hName : iequals header.1 "Content-Type" with
    | true => exact hTypes header.2 (mem_contentTypes.mpr ⟨header, hMem, hName, rfl⟩)
    | false => rfl

theorem headersOfContent_iff :
    headers.all (fun header => (containsName simpleCorsRequestHeaderNames header.1 ||
          iequals header.1 "Content-Length") &&
        !(iequals header.1 "Content-Type" && !containsName simpleCorsContentTypeValues header.2)) = true ↔
      (∀ header ∈ headers, containsName simpleCorsRequestHeaderNames header.1 = true ∨
          iequals header.1 "Content-Length" = true) ∧
        ∀ value ∈ contentTypes headers, containsName simpleCorsContentTypeValues value = true := by
  rw [headers_iff _ fun value => !containsName simpleCorsContentTypeValues value]
  simp only [Bool.or_eq_true, Bool.not_eq_false']

theorem isSimpleCorsRequest_eq : isSimpleCorsRequest request =
    (request.headers.all (fun header => containsName simpleCorsRequestHeaderNames header.1 &&
        !(iequals header.1 "Content-Type" && containsName simpleCorsContentTypeValues header.2)) &&
      (headersOfContent request).all (fun header =>
        (containsName simpleCorsRequestHeaderNames header.1 || iequals header.1 "Content-Length") &&
          !(iequals header.1 "Content-Type" && !containsName simpleCorsContentTypeValues header.2)) &&
      containsName simpleCorsMethods request.method.text) := by
  rw [isSimpleCorsRequest, headersOfContent]
  cases request.content <;> rfl

theorem isSimpleCorsRequest_iff : isSimpleCorsRequest request = true ↔
    SimpleButForContentTypes request ∧
      ∀ value ∈ contentTypes request.headers, containsName simpleCorsContentTypeValues value = false := by
  -- The test of the types is reversed in the loop over the request's own headers.
  rw [isSimpleCorsRequest_eq, Bool.and_eq_true, Bool.and_eq_true,
    headers_iff _ (containsName simpleCorsContentTypeValues), headersOfContent_iff]
  constructor
  · rintro ⟨⟨⟨hNames, hTypes⟩, hContentNames, hContentTypes⟩, hMethod⟩
    exact ⟨⟨hMethod, hNames, hContentNames, hContentTypes⟩, hTypes⟩
  · rintro ⟨⟨hMethod, hNames, hContentNames, hContentTypes⟩, hTypes⟩
    exact ⟨⟨⟨hNames, hTypes⟩, hContentNames, hContentTypes⟩, hMethod⟩

/-- All are of a kind exactly when none is, if there are none or there are both. -/
theorem all_iff_none {α : Type} {p : α → Bool} {xs : List α} :
    ((∀ x ∈ xs, p x = false) ↔ ∀ x ∈ xs, p x = true) ↔
      xs = [] ∨ (∃ x ∈ xs, p x = true) ∧ ∃ x ∈ xs, p x = false := by
  constructor
  · intro h
    rcases xs with _ | ⟨x, rest⟩
    · exact Or.inl rfl
    · right
      have hDiffer : ¬ ∀ y ∈ x :: rest, p y = true := by
        intro hAll
        have hNone := h.mpr hAll x List.mem_cons_self
        exact Bool.false_ne_true (hNone.symm.trans (hAll x List.mem_cons_self))
      have hSome : ¬ ∀ y ∈ x :: rest, p y = false := fun hNone => hDiffer (h.mp hNone)
      constructor
      · by_contra hNot
        apply hSome
        intro y hMem
        exact Bool.eq_false_iff.mpr fun hTrue => hNot ⟨y, hMem, hTrue⟩
      · by_contra hNot
        apply hDiffer
        intro y hMem
        exact Bool.not_eq_false _ ▸ fun hFalse => hNot ⟨y, hMem, hFalse⟩
  · rintro (rfl | ⟨⟨x, hMem, hTrue⟩, y, hOther, hFalse⟩)
    · exact ⟨fun _ x hMem => absurd hMem List.not_mem_nil, fun _ x hMem => absurd hMem List.not_mem_nil⟩
    · constructor
      · exact fun hNone => absurd ((hNone x hMem).symm.trans hTrue) Bool.false_ne_true
      · exact fun hAll => absurd (hFalse.symm.trans (hAll y hOther)) Bool.false_ne_true

/-- A request that is simple otherwise is classified rightly when its own headers have no `Content-Type`,
or have it with values of both kinds. -/
theorem classified_iff (request : HttpRequestMessage) :
    (isSimpleCorsRequest request = true ↔ SimpleRequest request) ↔
      (SimpleButForContentTypes request → contentTypes request.headers = [] ∨
        (∃ value ∈ contentTypes request.headers, containsName simpleCorsContentTypeValues value = true) ∧
          ∃ value ∈ contentTypes request.headers, containsName simpleCorsContentTypeValues value = false) := by
  rw [isSimpleCorsRequest_iff, simpleRequest_iff, ← all_iff_none]
  constructor
  · intro h hOther
    rw [and_iff_right hOther, and_iff_right hOther] at h
    exact h
  · intro h
    constructor
    · exact fun hBoth => ⟨hBoth.1, (h hBoth.1).mp hBoth.2⟩
    · exact fun hBoth => ⟨hBoth.1, (h hBoth.1).mpr hBoth.2⟩

/-- A request with a simple type in its own headers is not taken for a simple one. -/
theorem plain_text_not_simple :
    ¬ (isSimpleCorsRequest ⟨.Get, ⟨"http", "a.example", 80, "", "", "/"⟩,
        [("Content-Type", "text/plain")], none, ⟨none, none, none⟩⟩ = true ↔
      SimpleRequest ⟨.Get, ⟨"http", "a.example", 80, "", "", "/"⟩,
        [("Content-Type", "text/plain")], none, ⟨none, none, none⟩⟩) := by
  intro h
  have hSimple : isSimpleCorsRequest ⟨.Get, ⟨"http", "a.example", 80, "", "", "/"⟩,
      [("Content-Type", "text/plain")], none, ⟨none, none, none⟩⟩ = true := by
    apply h.mpr
    exact ⟨by decide, by decide, by decide, by decide⟩
  exact absurd hSimple (by decide)

end Networking.OriginPolicyHttpFilter
