import Mathlib.Data.List.Infix
import Mathlib.Data.List.Nodup

/-! The anchors that the link checker gives to the headings of a markdown document. -/
namespace Unbroken

abbrev Text := List Char

/-- White space of regular expressions. -/
def isSpace (c : Char) : Bool :=
  c ∈ ['\t', '\n', '\x0b', '\x0c', '\r', ' ', '\u00a0', '\u1680', '\u2028', '\u2029', '\u202f',
    '\u205f', '\u3000', '\ufeff'] || ('\u2000' ≤ c && c ≤ '\u200a')

/-- Where the dot of a regular expression stops. -/
def isLineTerminator (c : Char) : Bool := c ∈ ['\n', '\r', '\u2028', '\u2029']

def isWord (c : Char) : Bool := c.isAlphanum || c = '_'

/-- From the hashes on: `#+\s*([^\s].*)`. At the end of the document `#+` gives back a hash, if it
has two, for the title to begin with. -/
def matchTitle (text : Text) : Option (Text × Text) :=
  let afterHashes := text.dropWhile (· = '#')
  let title := afterHashes.dropWhile isSpace
  if title ≠ [] then
    some (title.takeWhile (!isLineTerminator ·), title.dropWhile (!isLineTerminator ·))
  else if 2 ≤ (text.takeWhile (· = '#')).length then
    some ('#' :: afterHashes.takeWhile (!isLineTerminator ·),
      afterHashes.dropWhile (!isLineTerminator ·))
  else none

/-- `(^#+|\n+#+)\s*([^\s].*)` at one place: the title, and what is left after the match. -/
def matchAnchor (atStart : Bool) (text : Text) : Option (Text × Text) :=
  match text with
  | '#' :: _ => if atStart then matchTitle text else none
  | '\n' :: _ =>
    match text.dropWhile (· = '\n') with
    | '#' :: rest => matchTitle ('#' :: rest)
    | _ => none
  | _ => none

/-- All matches, each after the end of the one before; `skip` characters belong to the last one. -/
def titlesFrom : (skip : ℕ) → (atStart : Bool) → Text → List Text
  | _, _, [] => []
  | skip + 1, _, _ :: text => titlesFrom skip false text
  | 0, atStart, c :: text =>
    match matchAnchor atStart (c :: text) with
    | none => titlesFrom 0 false text
    | some (title, rest) => title :: titlesFrom (text.length - rest.length) false text

/-- The title of a heading without the characters that anchors leave out. -/
def transform (title : Text) : Text :=
  (title.filter fun c => isWord c || isSpace c || c = '-').map fun c => if c = ' ' then '-' else c

def slugs (content : Text) : List Text := (titlesFrom 0 true content).map transform

def suffixed (slug : Text) (number : ℕ) : Text := slug ++ '-' :: Nat.toDigits 10 number

/-- The test of `new RegExp(slug + '-\\d+')`: somewhere in the anchor. The slug has no character
that is special there. -/
def hasNumbered (slug anchor : Text) : Bool :=
  anchor.tails.any fun rest =>
    (slug ++ ['-']).isPrefixOf rest && ((rest.drop (slug.length + 1)).head?.any Char.isDigit)

def newItem (anchors : List Text) (transformed : Text) : Text :=
  if transformed ∈ anchors then
    let newIndex :=
      match anchors.find? (hasNumbered transformed) with
      | some lastIndex => lastIndex.length + 1
      | none => 1
    suffixed transformed newIndex
  else transformed

def anchorsOf (slugs : List Text) : List Text :=
  slugs.foldl (fun anchors slug => anchors ++ [newItem anchors slug]) []

def getAnchors (content : Text) : List Text := anchorsOf (slugs content)

/-- The anchor of a heading whose slug came `count` times before. -/
def expected (count : ℕ) (slug : Text) : Text := if count = 0 then slug else suffixed slug count

/-- One anchor for each heading in order, no two alike, and numbered by what came before, unless
that name is taken. -/
structure Numbered (slugs anchors : List Text) : Prop where
  length_eq : anchors.length = slugs.length
  nodup : anchors.Nodup
  numbered : ∀ i slug, slugs[i]? = some slug →
    expected ((slugs.take i).count slug) slug ∉ anchors.take i →
      anchors[i]? = some (expected ((slugs.take i).count slug) slug)

/-- The names of the headings, numbered by what came before. -/
def numberedFrom (before : List Text) : List Text → List Text
  | [] => []
  | slug :: rest => expected (before.count slug) slug :: numberedFrom (before ++ [slug]) rest

/-- The slugs, each with the number 1 where it is taken. -/
def plainNames (slugs : List Text) : List Text :=
  slugs.foldl (fun names slug => names ++ [if slug ∈ names then suffixed slug 1 else slug]) []

/-- No slug that is taken comes after a name with the slug, a hyphen and a digit. -/
def RepeatsApart (slugs : List Text) : Prop :=
  ∀ before slug after, slugs = before ++ slug :: after → slug ∈ plainNames before →
    ∀ name ∈ plainNames before, hasNumbered slug name = false

variable {slug : Text}

theorem suffixed_inj {m n : ℕ} (h : suffixed slug m = suffixed slug n) : m = n := by
  have hDigits : Nat.toDigits 10 m = Nat.toDigits 10 n :=
    (List.cons.inj (List.append_cancel_left h)).2
  have hBack := congrArg (fun digits => Nat.ofDigitChars 10 digits 0) hDigits
  simpa only [Nat.ofDigitChars_ten_toDigits] using hBack

theorem hasNumbered_suffixed (slug : Text) (number : ℕ) :
    hasNumbered slug (suffixed slug number) = true := by
  have hSome : Nat.toDigits 10 number ≠ [] := Nat.toDigits_ne_nil
  obtain ⟨digit, digits, hDigits⟩ := List.exists_cons_of_ne_nil hSome
  have hDigit : digit.isDigit = true := by
    apply Nat.isDigit_of_mem_toDigits (b := 10) (n := number) (by decide) (by decide)
    rw [hDigits]
    exact List.mem_cons_self
  have hText : suffixed slug number = (slug ++ ['-']) ++ digit :: digits := by
    rw [suffixed, hDigits, List.append_assoc]
    rfl
  have hDrop : (suffixed slug number).drop (slug.length + 1) = digit :: digits := by
    have hLength : slug.length + 1 = (slug ++ ['-']).length := by
      rw [List.length_append, List.length_singleton]
    rw [hText, hLength, List.drop_left]
  rw [hasNumbered, List.any_eq_true]
  refine ⟨suffixed slug number, (List.mem_tails _ _).mpr List.suffix_rfl, ?_⟩
  rw [hDrop, Bool.and_eq_true]
  constructor
  · rw [List.isPrefixOf_iff_prefix, hText]
    exact List.prefix_append _ _
  · exact hDigit

/-- The slug, the hyphen and a digit. -/
theorem length_of_hasNumbered {anchor : Text} (h : hasNumbered slug anchor = true) :
    slug.length + 2 ≤ anchor.length := by
  rw [hasNumbered, List.any_eq_true] at h
  obtain ⟨rest, hRest, hMatch⟩ := h
  rw [Bool.and_eq_true] at hMatch
  have hShort : rest.length ≤ anchor.length := ((List.mem_tails _ _).mp hRest).length_le
  have hDrop : rest.drop (slug.length + 1) ≠ [] := by
    intro hNil
    rw [hNil] at hMatch
    cases hMatch.2
  have hLong : slug.length + 1 < rest.length := by
    by_contra hNot
    exact hDrop (List.drop_eq_nil_of_le (Nat.le_of_not_lt hNot))
  omega

section NewItem

variable {anchors : List Text} {slug lastIndex : Text}

theorem newItem_of_not_mem (h : slug ∉ anchors) : newItem anchors slug = slug := if_neg h

theorem newItem_first (h : slug ∈ anchors) (hFind : anchors.find? (hasNumbered slug) = none) :
    newItem anchors slug = suffixed slug 1 := by
  rw [newItem, if_pos h, hFind]

theorem newItem_next (h : slug ∈ anchors)
    (hFind : anchors.find? (hasNumbered slug) = some lastIndex) :
    newItem anchors slug = suffixed slug (lastIndex.length + 1) := by
  rw [newItem, if_pos h, hFind]

theorem hasNumbered_newItem (h : slug ∈ anchors) :
    hasNumbered slug (newItem anchors slug) = true := by
  cases hFind : anchors.find? (hasNumbered slug) with
  | none =>
    rw [newItem_first h hFind]
    exact hasNumbered_suffixed slug 1
  | some lastIndex =>
    rw [newItem_next h hFind]
    exact hasNumbered_suffixed slug _

theorem suffixed_not_mem (hFind : anchors.find? (hasNumbered slug) = none) (number : ℕ) :
    suffixed slug number ∉ anchors := by
  intro hMem
  exact List.find?_eq_none.mp hFind _ hMem (hasNumbered_suffixed slug number)

end NewItem

theorem anchorsOf_append (slugs : List Text) (slug : Text) :
    anchorsOf (slugs ++ [slug]) = anchorsOf slugs ++ [newItem (anchorsOf slugs) slug] := by
  rw [anchorsOf, List.foldl_append]
  rfl

theorem length_anchorsOf (slugs : List Text) : (anchorsOf slugs).length = slugs.length := by
  induction slugs using List.reverseRecOn with
  | nil => rfl
  | append_singleton slugs slug ih =>
    rw [anchorsOf_append, List.length_append, List.length_append, ih]
    rfl

/-- Every slug is taken once it came. -/
theorem mem_anchorsOf {slugs : List Text} (h : slug ∈ slugs) : slug ∈ anchorsOf slugs := by
  induction slugs using List.reverseRecOn with
  | nil => cases h
  | append_singleton slugs last ih =>
    rw [anchorsOf_append, List.mem_append]
    rcases List.mem_append.mp h with hBefore | hLast
    · exact Or.inl (ih hBefore)
    · cases List.mem_singleton.mp hLast
      by_cases hTaken : slug ∈ anchorsOf slugs
      · exact Or.inl hTaken
      · right
        rw [newItem_of_not_mem hTaken]
        exact List.mem_singleton_self slug

theorem mem_anchorsOf_of_count {slugs : List Text} (h : 1 ≤ slugs.count slug) :
    slug ∈ anchorsOf slugs :=
  mem_anchorsOf (List.count_pos_iff.mp h)

theorem find?_append_of_eq_some {anchors : List Text} {found : Text}
    (h : anchors.find? (hasNumbered slug) = some found) (more : List Text) :
    (anchors ++ more).find? (hasNumbered slug) = some found := by
  rw [List.find?_append, h]
  rfl

/-- The second heading with a slug leaves an anchor with its number. -/
theorem exists_numbered {slugs : List Text} (h : 2 ≤ slugs.count slug) :
    ∃ found, (anchorsOf slugs).find? (hasNumbered slug) = some found := by
  induction slugs using List.reverseRecOn with
  | nil => simp at h
  | append_singleton slugs last ih =>
    rw [anchorsOf_append]
    rw [List.count_append] at h
    by_cases hTwice : 2 ≤ slugs.count slug
    · obtain ⟨found, hFound⟩ := ih hTwice
      exact ⟨found, find?_append_of_eq_some hFound _⟩
    · have hLast : last = slug := by
        by_contra hNe
        rw [List.count_singleton, beq_eq_false_iff_ne.mpr hNe] at h
        exact hTwice h
      cases hLast
      rw [List.count_singleton_self] at h
      have hTaken : slug ∈ anchorsOf slugs := mem_anchorsOf_of_count (by omega)
      rw [← Option.isSome_iff_exists, List.find?_isSome]
      exact ⟨_, List.mem_append_right _ (List.mem_singleton_self _), hasNumbered_newItem hTaken⟩

/-- The third one takes the name that all later ones get as well. -/
theorem exists_repeated {slugs : List Text} (h : 3 ≤ slugs.count slug) :
    ∃ found, (anchorsOf slugs).find? (hasNumbered slug) = some found ∧
      suffixed slug (found.length + 1) ∈ anchorsOf slugs := by
  induction slugs using List.reverseRecOn with
  | nil => simp at h
  | append_singleton slugs last ih =>
    rw [anchorsOf_append]
    rw [List.count_append] at h
    by_cases hThrice : 3 ≤ slugs.count slug
    · obtain ⟨found, hFound, hMem⟩ := ih hThrice
      exact ⟨found, find?_append_of_eq_some hFound _, List.mem_append_left _ hMem⟩
    · have hLast : last = slug := by
        by_contra hNe
        rw [List.count_singleton, beq_eq_false_iff_ne.mpr hNe] at h
        exact hThrice h
      cases hLast
      rw [List.count_singleton_self] at h
      have hTwice : 2 ≤ slugs.count slug := by omega
      obtain ⟨found, hFound⟩ := exists_numbered hTwice
      have hTaken : slug ∈ anchorsOf slugs := mem_anchorsOf_of_count (by omega)
      refine ⟨found, find?_append_of_eq_some hFound _, List.mem_append_right _ ?_⟩
      rw [newItem_next hTaken hFound]
      exact List.mem_singleton_self _

theorem Numbered.nil : Numbered [] [] where
  length_eq := rfl
  nodup := List.nodup_nil
  numbered _ _ h := nomatch h

theorem numbered_append {slugs anchors : List Text} (hLength : anchors.length = slugs.length)
    (slug anchor : Text) :
    Numbered (slugs ++ [slug]) (anchors ++ [anchor]) ↔
      Numbered slugs anchors ∧ anchor ∉ anchors ∧
        (expected (slugs.count slug) slug ∉ anchors → anchor = expected (slugs.count slug) slug) := by
  have hTakeSlugs {i : ℕ} (h : i ≤ slugs.length) : (slugs ++ [slug]).take i = slugs.take i :=
    List.take_append_of_le_length h
  have hTakeAnchors {i : ℕ} (h : i ≤ slugs.length) : (anchors ++ [anchor]).take i = anchors.take i :=
    List.take_append_of_le_length (hLength ▸ h)
  have hLastSlug : (slugs ++ [slug])[slugs.length]? = some slug := List.getElem?_concat_length
  have hLastAnchor : (anchors ++ [anchor])[slugs.length]? = some anchor := by
    rw [← hLength]
    exact List.getElem?_concat_length
  have hAllSlugs : slugs.take slugs.length = slugs := List.take_length
  have hAllAnchors : anchors.take slugs.length = anchors := by rw [← hLength, List.take_length]
  constructor
  · intro h
    refine ⟨⟨hLength, ?_, ?_⟩, ?_, ?_⟩
    · exact (List.nodup_append.mp h.nodup).1
    · intro i other hOther hFree
      have hLt : i < slugs.length := (List.getElem?_eq_some_iff.mp hOther).1
      have hSame := h.numbered i other
      rw [List.getElem?_append_left hLt, List.getElem?_append_left (hLength ▸ hLt),
        hTakeSlugs hLt.le, hTakeAnchors hLt.le] at hSame
      exact hSame hOther hFree
    · intro hMem
      exact (List.nodup_append.mp h.nodup).2.2 _ hMem _ (List.mem_singleton_self _) rfl
    · intro hFree
      have hSame := h.numbered slugs.length slug hLastSlug
      rw [hTakeSlugs le_rfl, hTakeAnchors le_rfl, hAllSlugs, hAllAnchors, hLastAnchor] at hSame
      exact Option.some.inj (hSame hFree)
  · rintro ⟨h, hNew, hName⟩
    refine ⟨?_, ?_, ?_⟩
    · rw [List.length_append, List.length_append, hLength]
      rfl
    · rw [List.nodup_append]
      refine ⟨h.nodup, List.nodup_singleton _, ?_⟩
      intro other hOther last hLast hEq
      cases List.mem_singleton.mp hLast
      exact hNew (hEq ▸ hOther)
    · intro i other hOther hFree
      have hLt : i < slugs.length + 1 := by
        have hBound := (List.getElem?_eq_some_iff.mp hOther).1
        rwa [List.length_append] at hBound
      rcases Nat.lt_succ_iff_lt_or_eq.mp hLt with hBefore | rfl
      · rw [List.getElem?_append_left hBefore] at hOther
        rw [List.getElem?_append_left (hLength ▸ hBefore), hTakeSlugs hBefore.le]
        rw [hTakeSlugs hBefore.le, hTakeAnchors hBefore.le] at hFree
        exact h.numbered i other hOther hFree
      · cases Option.some.inj (hLastSlug.symm.trans hOther)
        rw [hTakeSlugs le_rfl, hAllSlugs, hTakeAnchors le_rfl, hAllAnchors] at hFree
        rw [hTakeSlugs le_rfl, hAllSlugs, hLastAnchor, hName hFree]

theorem expected_of_pos {count : ℕ} (h : count ≠ 0) (slug : Text) :
    expected count slug = suffixed slug count := if_neg h

/-- Without an anchor with the slug and a number, a heading gets a name that is new and is numbered by
what came before. -/
theorem newItem_numbered {slugs : List Text} {slug : Text}
    (hApart : slug ∈ anchorsOf slugs → (anchorsOf slugs).find? (hasNumbered slug) = none) :
    newItem (anchorsOf slugs) slug ∉ anchorsOf slugs ∧
      (expected (slugs.count slug) slug ∉ anchorsOf slugs →
        newItem (anchorsOf slugs) slug = expected (slugs.count slug) slug) := by
  by_cases hTaken : slug ∈ anchorsOf slugs
  · have hFind := hApart hTaken
    -- the first number, which no anchor has: the slug came at most once
    have hFew : slugs.count slug < 2 := by
      by_contra hMany
      obtain ⟨found, hFound⟩ := exists_numbered (Nat.le_of_not_lt hMany)
      cases hFind.symm.trans hFound
    rw [newItem_first hTaken hFind]
    refine ⟨suffixed_not_mem hFind 1, fun hFree => ?_⟩
    have hOnce : slugs.count slug = 1 := by
      have hPos : slugs.count slug ≠ 0 := by
        intro hZero
        rw [hZero] at hFree
        exact hFree hTaken
      omega
    rw [hOnce, expected_of_pos Nat.one_ne_zero]
  · have hNever : slugs.count slug = 0 := by
      by_contra hSome
      exact hTaken (mem_anchorsOf_of_count (Nat.one_le_iff_ne_zero.mpr hSome))
    rw [newItem_of_not_mem hTaken, hNever]
    exact ⟨hTaken, fun _ => rfl⟩

/-- A number that the branch for numbered anchors gives is too large, or given already. -/
theorem find?_eq_none_of_expected {slugs : List Text} {slug : Text} (hTaken : slug ∈ anchorsOf slugs)
    (hFree : expected (slugs.count slug) slug ∉ anchorsOf slugs)
    (hName : newItem (anchorsOf slugs) slug = expected (slugs.count slug) slug) :
    (anchorsOf slugs).find? (hasNumbered slug) = none := by
  cases hFind : (anchorsOf slugs).find? (hasNumbered slug) with
  | none => rfl
  | some lastIndex =>
    have hPos : slugs.count slug ≠ 0 := by
      intro hZero
      rw [hZero] at hFree
      exact hFree hTaken
    rw [newItem_next hTaken hFind, expected_of_pos hPos] at hName
    have hCount := suffixed_inj hName
    -- the number would be the length of an anchor with a hyphen and a digit in it
    have hLong := length_of_hasNumbered (List.find?_some hFind)
    have hMany : 3 ≤ slugs.count slug := by omega
    obtain ⟨again, hAgain, hMem⟩ := exists_repeated hMany
    cases hFind.symm.trans hAgain
    rw [expected_of_pos hPos, ← hCount] at hFree
    exact absurd hMem hFree

theorem plainNames_append (slugs : List Text) (slug : Text) :
    plainNames (slugs ++ [slug]) =
      plainNames slugs ++ [if slug ∈ plainNames slugs then suffixed slug 1 else slug] := by
  rw [plainNames, List.foldl_append]
  rfl

theorem numberedFrom_append (before slugs : List Text) (slug : Text) :
    numberedFrom before (slugs ++ [slug]) =
      numberedFrom before slugs ++ [expected ((before ++ slugs).count slug) slug] := by
  induction slugs generalizing before with
  | nil => rw [List.append_nil, List.nil_append, numberedFrom, numberedFrom, numberedFrom, List.nil_append]
  | cons first rest ih =>
    rw [List.cons_append, numberedFrom, ih, numberedFrom, List.append_assoc, List.singleton_append,
      List.cons_append]

theorem repeatsApart_append (slugs : List Text) (slug : Text) :
    RepeatsApart (slugs ++ [slug]) ↔ RepeatsApart slugs ∧
      (slug ∈ plainNames slugs → ∀ name ∈ plainNames slugs, hasNumbered slug name = false) := by
  constructor
  · intro h
    refine ⟨fun before other after hSplit => ?_, h slugs slug [] rfl⟩
    apply h before other (after ++ [slug])
    rw [hSplit, List.append_assoc, List.cons_append]
  · rintro ⟨hBefore, hLast⟩ before other after hSplit
    induction after using List.reverseRecOn with
    | nil =>
      obtain ⟨rfl, hSame⟩ := List.append_inj' hSplit rfl
      cases hSame
      exact hLast
    | append_singleton after final _ =>
      rw [← List.cons_append, ← List.append_assoc] at hSplit
      obtain ⟨rfl, -⟩ := List.append_inj' hSplit rfl
      exact hBefore before other after rfl

/-- While no number is looked up, the anchors are the plain names. -/
theorem anchorsOf_eq_plainNames {slugs : List Text} (h : RepeatsApart slugs) :
    anchorsOf slugs = plainNames slugs := by
  induction slugs using List.reverseRecOn with
  | nil => rfl
  | append_singleton slugs slug ih =>
    obtain ⟨hBefore, hLast⟩ := (repeatsApart_append slugs slug).mp h
    have hSame := ih hBefore
    rw [anchorsOf_append, plainNames_append, ← hSame]
    split
    next hTaken =>
      rw [← hSame] at hLast
      rw [newItem_first hTaken (List.find?_eq_none.mpr fun name hName => ?_)]
      rw [hLast hTaken name hName]
      exact Bool.false_ne_true
    next hNew => rw [newItem_of_not_mem hNew]

theorem numbered_of_repeatsApart {slugs : List Text} (h : RepeatsApart slugs) :
    Numbered slugs (anchorsOf slugs) := by
  induction slugs using List.reverseRecOn with
  | nil => exact Numbered.nil
  | append_singleton slugs slug ih =>
    obtain ⟨hBefore, hLast⟩ := (repeatsApart_append slugs slug).mp h
    rw [anchorsOf_append, numbered_append (length_anchorsOf slugs)]
    refine ⟨ih hBefore, newItem_numbered fun hTaken => ?_⟩
    rw [← anchorsOf_eq_plainNames hBefore] at hLast
    apply List.find?_eq_none.mpr
    intro name hName
    rw [hLast hTaken name hName]
    exact Bool.false_ne_true

/-- Where no name is taken, the right anchors are the numbered names. -/
theorem repeatsApart_of_numbered {slugs : List Text} (hNames : (numberedFrom [] slugs).Nodup)
    (h : Numbered slugs (anchorsOf slugs)) :
    anchorsOf slugs = numberedFrom [] slugs ∧ RepeatsApart slugs := by
  induction slugs using List.reverseRecOn with
  | nil => exact ⟨rfl, fun before slug after hEmpty => absurd hEmpty.symm (by simp)⟩
  | append_singleton slugs slug ih =>
    rw [numberedFrom_append, List.nil_append] at hNames ⊢
    rw [anchorsOf_append, numbered_append (length_anchorsOf slugs)] at h
    obtain ⟨hBefore, hNew, hName⟩ := h
    obtain ⟨hDistinct, -, hLast⟩ := List.nodup_append.mp hNames
    obtain ⟨hSame, hApart⟩ := ih hDistinct hBefore
    have hFree : expected (slugs.count slug) slug ∉ anchorsOf slugs := by
      intro hMem
      rw [hSame] at hMem
      exact hLast _ hMem _ (List.mem_singleton_self _) rfl
    constructor
    · rw [anchorsOf_append, hSame, ← hName hFree, ← hSame]
    · rw [repeatsApart_append, ← anchorsOf_eq_plainNames hApart]
      refine ⟨hApart, fun hTaken name hMem => ?_⟩
      have hFind := find?_eq_none_of_expected hTaken hFree (hName hFree)
      exact Bool.eq_false_iff.mpr (List.find?_eq_none.mp hFind name hMem)

/-- The anchors are the right ones where no slug that is taken comes after a name with the slug and a
number; and just then, if no two of the numbered names are alike. -/
theorem getAnchors_numbered_iff (content : Text) :
    (RepeatsApart (slugs content) → Numbered (slugs content) (getAnchors content)) ∧
      ((numberedFrom [] (slugs content)).Nodup →
        (Numbered (slugs content) (getAnchors content) ↔ RepeatsApart (slugs content))) := by
  refine ⟨numbered_of_repeatsApart, fun hNames => ⟨fun h => ?_, numbered_of_repeatsApart⟩⟩
  exact (repeatsApart_of_numbered hNames h).2

/-- Three headings with one title. -/
theorem getAnchors_third : ¬Numbered (slugs ['#', 'a', '\n', '#', 'a', '\n', '#', 'a'])
    (getAnchors ['#', 'a', '\n', '#', 'a', '\n', '#', 'a']) := by
  have hSlugs : slugs ['#', 'a', '\n', '#', 'a', '\n', '#', 'a'] = [['a'], ['a'], ['a']] := by
    decide
  have hAnchors : anchorsOf [['a'], ['a'], ['a']] = [['a'], ['a', '-', '1'], ['a', '-', '4']] := by
    decide
  rw [getAnchors, hSlugs, hAnchors]
  intro h
  have hThird := h.numbered 2 ['a'] rfl (by decide)
  revert hThird
  decide

end Unbroken
