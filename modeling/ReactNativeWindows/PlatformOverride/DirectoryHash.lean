import Mathlib.Data.Finmap
import Mathlib.Data.String.Basic
import ReactNativeWindows.PlatformOverride.FileRepository

/-! Which directories have the same hash. -/
namespace PlatformOverride

open GitReactFileRepository (Buffer)

/-- A text without the carriage returns before its line feeds. -/
def unixLines : List Char → List Char
  | [] => []
  | c :: rest =>
    if c = '\r' ∧ rest.head? = some '\n' then unixLines rest else c :: unixLines rest

def returnLines (text : List Char) : List Char :=
  text.flatMap fun c => if c = '\n' then ['\r', '\n'] else [c]

theorem head?_toCrlf_true (text : List Char) : (toCrlf true text).head? = text.head? := by
  cases text with
  | nil => rfl
  | cons c rest => simp [toCrlf]

theorem unixLines_toCrlf (afterReturn : Bool) (text : List Char) :
    unixLines (toCrlf afterReturn text) = unixLines text := by
  induction text generalizing afterReturn with
  | nil => rfl
  | cons c rest ih =>
    by_cases hFeed : c = '\n'
    · subst hFeed
      cases afterReturn <;> simp [toCrlf, unixLines, ih]
    · by_cases hReturn : c = '\r'
      · subst hReturn
        simp [toCrlf, unixLines, head?_toCrlf_true, ih]
      · simp [toCrlf, unixLines, hFeed, hReturn, ih]

/-- Between a carriage return and a line feed nothing more is put. -/
theorem return_toCrlf (text : List Char) :
    '\r' :: toCrlf true text =
      if text.head? = some '\n' then toCrlf false text else '\r' :: toCrlf false text := by
  cases text with
  | nil => rfl
  | cons c rest => by_cases hFeed : c = '\n' <;> simp [toCrlf, hFeed]

theorem toCrlf_eq_returnLines (text : List Char) :
    toCrlf false text = returnLines (unixLines text) := by
  induction text with
  | nil => rfl
  | cons c rest ih =>
    by_cases hReturn : c = '\r'
    · subst hReturn
      have hHead : toCrlf false ('\r' :: rest) = '\r' :: toCrlf true rest := by simp [toCrlf]
      rw [hHead, return_toCrlf, unixLines, ih]
      by_cases hNext : rest.head? = some '\n'
      · rw [if_pos hNext, if_pos ⟨rfl, hNext⟩]
      · rw [if_neg hNext, if_neg fun h => hNext h.2]
        rfl
    · by_cases hFeed : c = '\n' <;> simp [toCrlf, unixLines, returnLines, hReturn, hFeed, ih]

/-- What is hashed of two texts is the same when they differ only in their line endings. -/
theorem toCrlf_inj {text other : List Char} :
    toCrlf false text = toCrlf false other ↔ unixLines text = unixLines other := by
  constructor
  · intro h
    rw [← unixLines_toCrlf false text, h, unixLines_toCrlf]
  · intro h
    rw [toCrlf_eq_returnLines, h, ← toCrlf_eq_returnLines]

def utf8 (text : String) : Buffer := text.toByteArray.data.toList

theorem utf8_inj {text other : String} : utf8 text = utf8 other ↔ text = other := by
  constructor
  · intro h
    exact String.toByteArray_inj.mp (ByteArray.ext (Array.ext' h))
  · rintro rfl
    rfl

theorem utf8_append (text other : String) : utf8 (text ++ other) = utf8 text ++ utf8 other := by
  rw [utf8, String.toByteArray_append, ByteArray.data_append, Array.toList_append]
  rfl

def bytes : Content → Buffer
  | .inl text => utf8 text
  | .inr buffer => buffer

def stream (fed : List Content) : Buffer := fed.flatMap bytes

def texts (pieces : List (List Char)) : List Content := pieces.map (.inl ∘ String.ofList)

theorem texts_append (pieces more : List (List Char)) :
    texts (pieces ++ more) = texts pieces ++ texts more :=
  List.map_append

theorem stream_texts (pieces : List (List Char)) :
    stream (texts pieces) = utf8 (String.ofList pieces.flatten) := by
  induction pieces with
  | nil => rfl
  | cons piece rest ih =>
    have hStream : stream (texts (piece :: rest)) = utf8 (String.ofList piece) ++ stream (texts rest) :=
      rfl
    rw [hStream, ih, List.flatten_cons, String.ofList_append, utf8_append]

/-- What is relied on of the libraries: text goes through UTF-8 unchanged, the digest is injective
on the bytes fed to it, and `sort` orders texts by their first difference. -/
structure Libraries.Hashing (libs : Libraries) : Prop where
  toUtf8_utf8 : ∀ text, libs.toUtf8 (utf8 text) = some text
  digest_inj : ∀ fed other, libs.digest fed = libs.digest other ↔ stream fed = stream other
  sortLe_total : ∀ a b, libs.sortLe a b ∨ libs.sortLe b a
  sortLe_trans : ∀ a b c, libs.sortLe a b → libs.sortLe b c → libs.sortLe a c
  sortLe_antisymm : ∀ a b, libs.sortLe a b → libs.sortLe b a → a = b
  sortLe_append : ∀ directory a b,
    libs.sortLe (directory ++ a) (directory ++ b) = libs.sortLe a b

/-- The files of a directory, with their relative paths and texts. -/
abbrev Tree := AList fun _ : String => String

namespace Tree

def text (tree : Tree) (path : String) : List Char := ((tree.lookup path).getD "").toList

end Tree

/-- The files of the directory `name` are those of the tree: a file is listed at `root` and its
relative path in the separators of the platform. -/
structure Shows (libs : Libraries) (spelled : String → String) (repo : FileRepository)
    (name root : String) (tree : Tree) : Prop where
  stat : repo.stat name = .ok .directory
  listed : ∃ files, repo.listFiles (some [libs.unixPath name ++ "/**"]) = .ok files ∧
    files.Perm (tree.keys.map fun path => root ++ spelled path)
  read : ∀ path ∈ tree.keys,
    repo.readFile (root ++ spelled path) = .ok (some (utf8 (String.ofList (tree.text path))))
  relative : ∀ path ∈ tree.keys,
    libs.unixPath (libs.relative name (libs.normalizePath (root ++ spelled path))) = path

def SameTree (tree other : Tree) : Prop :=
  ∀ path, (tree.lookup path).map (fun text => unixLines text.toList) =
    (other.lookup path).map fun text => unixLines text.toList

section Order

variable (libs : Libraries) (spelled : String → String)

/-- The relative paths in the order in which the files are fed. -/
def fedPaths (tree : Tree) : List String :=
  tree.keys.insertionSort fun a b => libs.sortLe (spelled a) (spelled b)

def fedPieces (tree : Tree) : List (List Char) :=
  (fedPaths libs spelled tree).flatMap fun path =>
    [toCrlf false (tree.text path), toCrlf false path.toList]

/-- Two trees are told apart when what is fed of them is not one text that is cut in different
places, and no two names at the same place differ in line endings. -/
def ToldApart (tree other : Tree) : Prop :=
  (fedPieces libs spelled tree).flatten = (fedPieces libs spelled other).flatten →
    (fedPieces libs spelled tree).map List.length = (fedPieces libs spelled other).map List.length ∧
      ∀ names ∈ (fedPaths libs spelled tree).zip (fedPaths libs spelled other),
        toCrlf false names.1.toList = toCrlf false names.2.toList → names.1 = names.2

variable {libs spelled}

theorem mem_fedPaths {tree : Tree} {path : String} :
    path ∈ fedPaths libs spelled tree ↔ path ∈ tree.keys :=
  List.mem_insertionSort _

end Order

section Hash

variable {libs : Libraries} {spelled : String → String} {repo : FileRepository} {name root : String}
  {tree : Tree}

/-- Sorting does not depend on the order in which the files are listed. -/
theorem Libraries.Hashing.insertionSort_eq (h : libs.Hashing) {files listed : List String}
    (hPerm : files.Perm listed) :
    files.insertionSort (fun a b => libs.sortLe a b) =
      listed.insertionSort fun a b => libs.sortLe a b := by
  have : Std.Total fun a b : String => (libs.sortLe a b : Prop) := ⟨h.sortLe_total⟩
  have : IsTrans String fun a b => (libs.sortLe a b : Prop) := ⟨h.sortLe_trans⟩
  have : Std.Antisymm fun a b : String => (libs.sortLe a b : Prop) := ⟨h.sortLe_antisymm⟩
  apply List.Perm.eq_of_pairwise' (List.pairwise_insertionSort _ files)
    (List.pairwise_insertionSort _ listed)
  exact (List.perm_insertionSort _ files).trans
    (hPerm.trans (List.perm_insertionSort _ listed).symm)

/-- The files are fed in the order of their relative paths. -/
theorem Libraries.Hashing.insertionSort_map (h : libs.Hashing) (root : String) (tree : Tree) :
    (tree.keys.map fun path => root ++ spelled path).insertionSort
        (fun a b => libs.sortLe a b) =
      (fedPaths libs spelled tree).map fun path => root ++ spelled path := by
  rw [fedPaths, List.map_insertionSort _ (fun a b => (libs.sortLe a b : Prop))]
  intro a _ b _
  rw [h.sortLe_append]

theorem normalizeContent_text (text : List Char) :
    normalizeContent libs (.inl (String.ofList text)) none =
      .inl (String.ofList (toCrlf false text)) := by
  simp only [normalizeContent, Option.getD_none, String.toList_ofList]

theorem Libraries.Hashing.normalizeContent_utf8 (h : libs.Hashing) (text : List Char) :
    normalizeContent libs (.inr (utf8 (String.ofList text))) none =
      .inl (String.ofList (toCrlf false text)) := by
  simp only [normalizeContent, h.toUtf8_utf8, Option.getD_none, String.toList_ofList]

theorem feedFile_eq (h : libs.Hashing) (hShows : Shows libs spelled repo name root tree)
    {path : String} (hPath : path ∈ tree.keys) (fed : List Content) :
    feedFile libs name repo ⟨fed, none⟩ (root ++ spelled path) =
      .ok ⟨fed ++ texts [toCrlf false (tree.text path), toCrlf false path.toList], none⟩ := by
  have hRead : readToHash repo (root ++ spelled path) =
      .ok (.inr (utf8 (String.ofList (tree.text path)))) := by
    rw [readToHash, hShows.read path hPath]
    rfl
  have hName : normalizeContent libs (.inl path) none =
      .inl (String.ofList (toCrlf false path.toList)) := by
    rw [← normalizeContent_text, String.ofList_toList]
  rw [feedFile, hRead, hShows.relative path hPath]
  simp only [Hasher.feedContent, bind, Except.bind, h.normalizeContent_utf8, hName,
    List.append_assoc]
  rfl

theorem feedFiles_eq (h : libs.Hashing) (hShows : Shows libs spelled repo name root tree)
    (paths : List String) (hPaths : ∀ path ∈ paths, path ∈ tree.keys) (fed : List Content) :
    (paths.map fun path => root ++ spelled path).foldlM (feedFile libs name repo) ⟨fed, none⟩ =
      .ok ⟨fed ++ texts (paths.flatMap fun path =>
        [toCrlf false (tree.text path), toCrlf false path.toList]), none⟩ := by
  induction paths generalizing fed with
  | nil => simp [texts, pure, Except.pure]
  | cons path rest ih =>
    rw [List.map_cons, List.foldlM_cons, feedFile_eq h hShows (hPaths path List.mem_cons_self)]
    have hRest := ih (fun other hOther => hPaths other (List.mem_cons_of_mem path hOther))
      (fed ++ texts [toCrlf false (tree.text path), toCrlf false path.toList])
    rw [List.flatMap_cons, texts_append, ← List.append_assoc]
    exact hRest

theorem hashFileOrDirectory_eq (h : libs.Hashing)
    (hShows : Shows libs spelled repo name root tree) :
    hashFileOrDirectory libs name repo none =
      .ok (some (libs.digest (texts (fedPieces libs spelled tree)))) := by
  obtain ⟨files, hListed, hPerm⟩ := hShows.listed
  have hFed := feedFiles_eq h hShows (fedPaths libs spelled tree)
    (fun path hPath => mem_fedPaths.mp hPath) []
  rw [← h.insertionSort_map root tree, ← h.insertionSort_eq hPerm] at hFed
  rw [hashFileOrDirectory, hShows.stat]
  simp only [hListed, bind, Except.bind] at hFed ⊢
  rw [hFed]
  rfl

end Hash

section Trees

variable {libs : Libraries} {spelled : String → String} {tree other : Tree}

theorem Tree.map_lookup {path : String} (h : path ∈ tree.keys) :
    (tree.lookup path).map (fun text => unixLines text.toList) =
      some (unixLines (tree.text path)) := by
  obtain ⟨text, hText⟩ := Option.isSome_iff_exists.mp (AList.lookup_isSome.mpr h)
  rw [Tree.text, hText]
  rfl

theorem Tree.map_lookup_eq_none {path : String} :
    (tree.lookup path).map (fun text => unixLines text.toList) = none ↔ path ∉ tree.keys := by
  rw [Option.map_eq_none_iff, AList.lookup_eq_none]
  rfl

theorem SameTree.mem_keys_iff (h : SameTree tree other) (path : String) :
    path ∈ tree.keys ↔ path ∈ other.keys := by
  rw [← not_iff_not, ← Tree.map_lookup_eq_none, ← Tree.map_lookup_eq_none, h path]

theorem sameTree_of_texts (hKeys : ∀ path, path ∈ tree.keys ↔ path ∈ other.keys)
    (hTexts : ∀ path ∈ tree.keys, unixLines (tree.text path) = unixLines (other.text path)) :
    SameTree tree other := by
  intro path
  by_cases hPath : path ∈ tree.keys
  · rw [Tree.map_lookup hPath, Tree.map_lookup ((hKeys path).mp hPath), hTexts path hPath]
  · rw [Tree.map_lookup_eq_none.mpr hPath,
      Tree.map_lookup_eq_none.mpr fun h => hPath ((hKeys path).mpr h)]

variable {paths : List String}

/-- Two lists that are fed as the same pieces have the same contents and names fed, one by one. -/
theorem forall₂_of_pieces {others : List String} {f g : String → List Char}
    {name : String → List Char} (h : (paths.flatMap fun path => [f path, name path]) =
      others.flatMap fun path => [g path, name path]) :
    List.Forall₂ (fun path other => f path = g other ∧ name path = name other) paths others := by
  induction paths generalizing others with
  | nil =>
    cases others with
    | nil => exact .nil
    | cons other rest => simp at h
  | cons path rest ih =>
    cases others with
    | nil => simp at h
    | cons other rest' =>
      simp only [List.flatMap_cons, List.cons_append, List.nil_append, List.cons.injEq] at h
      obtain ⟨hContent, hName, hRest⟩ := h
      exact .cons ⟨hContent, hName⟩ (ih hRest)

/-- Lists that agree one by one are the same when the related ones are. -/
theorem eq_of_forall₂ {others : List String} {R : String → String → Prop}
    (hPaths : List.Forall₂ R paths others)
    (hSame : ∀ names ∈ paths.zip others, R names.1 names.2 → names.1 = names.2) :
    paths = others := by
  induction hPaths with
  | nil => rfl
  | cons hHead hTail ih =>
    have hRest := ih fun names hNames => hSame names (List.mem_cons_of_mem _ hNames)
    exact congrArg₂ List.cons (hSame _ List.mem_cons_self hHead) hRest

variable {repo : FileRepository} {name root : String}

theorem Shows.map_relative (hShows : Shows libs spelled repo name root tree)
    (hPaths : ∀ path ∈ paths, path ∈ tree.keys) :
    (paths.map fun path => root ++ spelled path).map
      (fun file => libs.unixPath (libs.relative name (libs.normalizePath file))) = paths := by
  induction paths with
  | nil => rfl
  | cons path rest ih =>
    rw [List.map_cons, List.map_cons, hShows.relative path (hPaths path List.mem_cons_self),
      ih fun other hOther => hPaths other (List.mem_cons_of_mem path hOther)]

theorem Libraries.Hashing.fedPaths_eq (h : libs.Hashing)
    (hShows : Shows libs spelled repo name root tree)
    (hKeys : ∀ path, path ∈ tree.keys ↔ path ∈ other.keys) :
    fedPaths libs spelled tree = fedPaths libs spelled other := by
  have hPerm : tree.keys.Perm other.keys :=
    (List.perm_ext_iff_of_nodup tree.keys_nodup other.keys_nodup).mpr hKeys
  have hMapped := h.insertionSort_eq (hPerm.map fun path => root ++ spelled path)
  rw [h.insertionSort_map, h.insertionSort_map] at hMapped
  have hOther : ∀ path ∈ fedPaths libs spelled other, path ∈ tree.keys :=
    fun path hPath => (hKeys path).mpr (mem_fedPaths.mp hPath)
  rw [← hShows.map_relative fun path hPath => mem_fedPaths.mp hPath, hMapped,
    hShows.map_relative hOther]

theorem SameTree.fedPieces_eq (hSame : SameTree tree other) (h : libs.Hashing)
    (hShows : Shows libs spelled repo name root tree) :
    fedPieces libs spelled tree = fedPieces libs spelled other := by
  rw [fedPieces, fedPieces, h.fedPaths_eq hShows hSame.mem_keys_iff]
  apply List.flatMap_congr
  intro path hPath
  have hOther : path ∈ other.keys := mem_fedPaths.mp hPath
  have hTree : path ∈ tree.keys := (hSame.mem_keys_iff path).mpr hOther
  have hText := hSame path
  rw [Tree.map_lookup hTree, Tree.map_lookup hOther, Option.some.injEq] at hText
  rw [toCrlf_inj.mpr hText]

theorem sameTree_of_fedPieces
    (hPieces : fedPieces libs spelled tree = fedPieces libs spelled other)
    (hNames : ∀ names ∈ (fedPaths libs spelled tree).zip (fedPaths libs spelled other),
      toCrlf false names.1.toList = toCrlf false names.2.toList → names.1 = names.2) :
    SameTree tree other := by
  have hOneByOne := forall₂_of_pieces hPieces
  have hPaths : fedPaths libs spelled tree = fedPaths libs spelled other :=
    eq_of_forall₂ (hOneByOne.imp fun path other hBoth => hBoth.2) hNames
  rw [← hPaths, List.forall₂_same] at hOneByOne
  apply sameTree_of_texts
  · intro path
    have hMem : path ∈ fedPaths libs spelled tree ↔ path ∈ tree.keys := mem_fedPaths
    rw [← hMem, hPaths, mem_fedPaths]
  · intro path hPath
    exact toCrlf_inj.mp (hOneByOne path (mem_fedPaths.mpr hPath)).1

theorem toldApart_iff (h : libs.Hashing) (hShows : Shows libs spelled repo name root tree) :
    ToldApart libs spelled tree other ↔
      ((fedPieces libs spelled tree).flatten = (fedPieces libs spelled other).flatten →
        SameTree tree other) := by
  constructor
  · intro hApart hText
    obtain ⟨hCuts, hNames⟩ := hApart hText
    exact sameTree_of_fedPieces (List.eq_iff_flatten_eq.mpr ⟨hText, hCuts⟩) hNames
  · intro hSame hText
    have hTree := hSame hText
    refine ⟨by rw [hTree.fedPieces_eq h hShows], ?_⟩
    rw [h.fedPaths_eq hShows hTree.mem_keys_iff]
    intro names hNames _
    exact List.forall₂_zip (List.forall₂_same.mpr fun _ _ => rfl) hNames

end Trees

/-- The hash is the same exactly for the same trees if and only if the trees are told apart. -/
theorem directory_hash_iff {libs : Libraries} (h : libs.Hashing) {spelled : String → String}
    {repo otherRepo : FileRepository} {name otherName root otherRoot : String} {tree other : Tree}
    (hTree : Shows libs spelled repo name root tree)
    (hOther : Shows libs spelled otherRepo otherName otherRoot other) :
    (hashFileOrDirectory libs name repo none = hashFileOrDirectory libs otherName otherRepo none ↔
        SameTree tree other) ↔
      ToldApart libs spelled tree other := by
  have hHash : hashFileOrDirectory libs name repo none =
        hashFileOrDirectory libs otherName otherRepo none ↔
      (fedPieces libs spelled tree).flatten = (fedPieces libs spelled other).flatten := by
    rw [hashFileOrDirectory_eq h hTree, hashFileOrDirectory_eq h hOther, Except.ok.injEq,
      Option.some.injEq, h.digest_inj, stream_texts, stream_texts, utf8_inj, String.ofList_inj]
  have hFed : SameTree tree other →
      (fedPieces libs spelled tree).flatten = (fedPieces libs spelled other).flatten :=
    fun hSame => by rw [hSame.fedPieces_eq h hTree]
  rw [toldApart_iff h hTree, hHash]
  exact ⟨Iff.mp, fun hSame => ⟨hSame, hFed⟩⟩

namespace MovedByte

def libs : Libraries where
  toUnix := id
  normalize := id
  relative name file := String.ofList (file.toList.drop (name.length + 1))
  join a b := a ++ "/" ++ b
  isAbsolute _ := false
  split path := [path]
  toUtf8 buffer := String.fromUTF8? ⟨buffer.toArray⟩
  digest fed := String.ofList ((stream fed).map fun byte => Char.ofNat byte.toNat)
  localeLe a b := a ≤ b
  sortLe a b := a ≤ b

def repo (path : String) (text : String) : FileRepository where
  listFiles globs := .ok (if globs = some ["d/**"] then ["d/" ++ path] else [])
  readFile file := .ok (if file = "d/" ++ path then some (utf8 text) else none)
  stat file := .ok
    (if file = "d" then .directory else if file = "d/" ++ path then .file else .none)

def tree (path : String) (text : String) : Tree := AList.singleton path text

theorem toUtf8_utf8 (text : String) : libs.toUtf8 (utf8 text) = some text :=
  dif_pos text.isValidUTF8

theorem ofNat_inj : Function.Injective fun byte : UInt8 => Char.ofNat byte.toNat := by
  intro a b h
  have hValid : ∀ byte : UInt8, byte.toNat.isValidChar :=
    fun byte => Or.inl (byte.toNat_lt.trans (by decide))
  have hToNat : ∀ byte : UInt8, (Char.ofNat byte.toNat).toNat = byte.toNat := by
    intro byte
    rw [Char.ofNat, dif_pos (hValid byte)]
    rfl
  have hSame := congrArg Char.toNat h
  rw [hToNat, hToNat] at hSame
  exact UInt8.toNat_inj.mp hSame

theorem sortLe_append (directory a b : String) :
    libs.sortLe (directory ++ a) (directory ++ b) = libs.sortLe a b := by
  have hMono : StrictMono fun text => directory ++ text := by
    intro a b h
    rw [String.lt_iff_toList_lt, String.toList_append, String.toList_append]
    exact List.append_left_lt (String.lt_iff_toList_lt.mp h)
  exact decide_eq_decide.mpr hMono.le_iff_le

theorem hashing : libs.Hashing where
  toUtf8_utf8 := toUtf8_utf8
  digest_inj fed other := by
    show String.ofList ((stream fed).map _) = String.ofList ((stream other).map _) ↔ _
    rw [String.ofList_inj, List.map_inj_right ofNat_inj]
  sortLe_total a b := by simpa [libs] using le_total a b
  sortLe_trans a b c := by simpa [libs] using le_trans (a := a)
  sortLe_antisymm a b := by simpa [libs] using le_antisymm (a := a)
  sortLe_append := sortLe_append

theorem relative_eq (path : String) : libs.relative "d" ("d/" ++ path) = path := by
  have hDrop : libs.relative "d" ("d/" ++ path) =
      String.ofList (("d/" ++ path).toList.drop 2) := rfl
  rw [hDrop, String.toList_append]
  exact String.ofList_toList

theorem shows (path text : String) :
    Shows libs id (repo path text) "d" "d/" (tree path text) where
  stat := rfl
  listed := ⟨["d/" ++ path], rfl, .refl _⟩
  read := by
    intro other hOther
    obtain rfl : other = path := List.mem_singleton.mp hOther
    simp [repo, tree, Tree.text, AList.lookup, AList.singleton]
  relative := fun other _ => relative_eq other

end MovedByte

/-- The file `ab` without text and the file `b` with the text `a` are fed as the same bytes. -/
theorem moved_byte_same_hash :
    MovedByte.libs.Hashing ∧
      Shows MovedByte.libs id (MovedByte.repo "ab" "") "d" "d/" (MovedByte.tree "ab" "") ∧
      Shows MovedByte.libs id (MovedByte.repo "b" "a") "d" "d/" (MovedByte.tree "b" "a") ∧
      hashFileOrDirectory MovedByte.libs "d" (MovedByte.repo "ab" "") none =
        hashFileOrDirectory MovedByte.libs "d" (MovedByte.repo "b" "a") none ∧
      ¬ SameTree (MovedByte.tree "ab" "") (MovedByte.tree "b" "a") :=
  ⟨MovedByte.hashing, MovedByte.shows _ _, MovedByte.shows _ _, by decide +kernel,
    fun h => absurd (h "b") (by decide)⟩

theorem empty_file_told_apart :
    (hashFileOrDirectory MovedByte.libs "d" (MovedByte.repo "b" "") none =
          hashFileOrDirectory MovedByte.libs "d" (MovedByte.repo "b" "a") none ↔
        SameTree (MovedByte.tree "b" "") (MovedByte.tree "b" "a")) ↔
      ToldApart MovedByte.libs id (MovedByte.tree "b" "") (MovedByte.tree "b" "a") :=
  directory_hash_iff MovedByte.hashing (MovedByte.shows _ _) (MovedByte.shows _ _)

end PlatformOverride
