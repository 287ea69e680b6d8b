import ReactNativeWindows.Concurrency.Threads
import ReactNativeWindows.PlatformOverride.BatchingQueue

/-! Calls on one `GitReactFileRepository`, with the git commands that they run one after the
other. -/
namespace PlatformOverride.GitReactFileRepository

open Concurrency

universe u

abbrev Version := String

/-- A string counts as true unless it is empty. -/
def truthy (version : Version) : Bool := version ≠ ""

abbrev Buffer := List UInt8

inductive Stat where
  | file | directory | none
  deriving DecidableEq

/-- What lies outside: the trees of the versions in the React Native repository and the names of
their refs, the files of a tree, and the commands of git that make one tree from others. The
scratch file `rnwgit.patch` is no part of a tree. -/
structure Workspace (Tree : Type u) where
  treeOf : Version → Tree
  fullRef : Version → String
  listFiles : Tree → Option (List String) → List String
  readFile : Tree → String → Option Buffer
  stat : Tree → String → Stat
  writeFile : Tree → String → Buffer → Tree
  /-- `checkout` without `--force`: from the tree of HEAD and the working tree to another tree. -/
  switch : Option Tree → Tree → Tree → Except String Tree
  diff : Tree → Tree → String → String
  apply : Tree → String → Tree × Option String

inductive Operation where
  | listFiles (globs : Option (List String))
  | readFile (filename : String)
  | stat (filename : String)
  | generatePatch (filename : String) (newContent : Buffer)
  | getPatchedFile (filename : String) (patchContent : String)
  deriving DecidableEq

inductive Result where
  | files (files : List String)
  | content (content : Option Buffer)
  | stat (stat : Stat)
  | patch (patch : String)
  | patched (patchedFile : Option Buffer) (hasConflicts : Bool)
  deriving DecidableEq

inductive Command where
  | checkoutLocal | fetchFullRef | fetch | checkoutBranch | checkoutForce
  | read | stat | writeFile | diff | apply | reset
  deriving DecidableEq

/-- A call, with the messages of those of its commands that fail without taking effect. -/
structure Call where
  id : ℕ
  version : Version
  operation : Operation
  failure : Command → Option String

/-- The local branches with the commits they are on, `FETCH_HEAD`, the commit of `HEAD`, the
working tree and the scratch file; and the calls in the order in which they were issued, started
and settled. A commit is named by the version it is the one of. -/
structure Heap (Tree : Type u) where
  batchingQueue : BatchingQueue Version Call
  checkedOutVersion : Option Version
  branches : Version → Option Version
  fetchHead : Option Version
  head : Option Version
  tree : Tree
  scratch : String
  used : List ℕ
  issued : List Call
  started : List Call
  settled : List (Call × Except String Result)

/-- A new repository object, over a directory with branches of some versions and any tree. -/
def Heap.initial {Tree : Type u} (branches : Version → Bool) (head : Option Version)
    (tree : Tree) : Heap Tree where
  batchingQueue := .empty
  checkedOutVersion := none
  branches version := if branches version then some version else none
  fetchHead := none
  head := head
  tree := tree
  scratch := ""
  used := []
  issued := []
  started := []
  settled := []

inductive Frame where
  | enqueue (call : Call)
  | pumpQueue (key : Version)
  | checkoutVersion (call : Call)
  | tryCheckoutLocal (call : Call)
  | fetchFullRef (call : Call)
  | fetch (call : Call)
  | checkoutBranch (call : Call)
  | checkoutForce (call : Call)
  | fn (call : Call)
  | write (call : Call)
  | diff (call : Call) (filename : String)
  | apply (call : Call) (filename : String)
  | readPatched (call : Call) (filename : String) (hasConflicts : Bool)
  | reset (call : Call) (outcome : Except String Result)
  | settle (call : Call) (outcome : Except String Result)

def includes (message part : String) : Bool := part.toList <:+: message.toList

section Exec
variable {Tree : Type u} (workspace : Workspace Tree)

def forceCheckout (h : Heap Tree) (call : Call) (commit : Version) : Heap Tree :=
  { h with
    head := some commit
    tree := workspace.treeOf commit
    checkedOutVersion := some call.version }

/-- The error that `fetchAndCheckout` makes of the one it catches. -/
def fetchError (call : Call) (message : String) : String :=
  "Failed to fetch '" ++ workspace.fullRef call.version ++ "'. Does it exist? (" ++ message ++ ")"

/-- The rest of a call that does not change the tree. -/
def reads (h : Heap Tree) (call : Call) (result : Result) : Outcome (Heap Tree) Frame String :=
  match call.failure .read with
  | some message => .next h [.settle call (.error message)] []
  | none => .next h [.settle call (.ok result)] []

def ensureFile (h : Heap Tree) (call : Call) (filename : String) :
    Outcome (Heap Tree) Frame String :=
  match call.failure .stat with
  | some message => .next h [.settle call (.error message)] []
  | none =>
    match workspace.stat h.tree filename with
    | .none =>
      .next h [.settle call (.error ("Cannot find file \"" ++ filename ++ "\" in react-native@" ++
        h.checkedOutVersion.getD "undefined"))] []
    | .directory =>
      .next h [.settle call (.error ("\"" ++ filename ++ "\" refers to a directory"))] []
    | .file => .next h [.write call] []

@[grind =]
def exec (h : Heap Tree) (frame : Frame) (_ : Unit) : Option (Outcome (Heap Tree) Frame String) :=
  some <| match frame with
  | .enqueue call =>
    let (queue, pump) := h.batchingQueue.enqueue truthy call.version call
    .next { h with batchingQueue := queue, issued := h.issued ++ [call] }
      (pump.map .pumpQueue).toList []
  | .pumpQueue key =>
    match h.batchingQueue.shift key with
    | some (call, queue) =>
      .next { h with batchingQueue := queue, started := h.started ++ [call] }
        [.checkoutVersion call] []
    | none =>
      let (queue, pump) := h.batchingQueue.finish
      .next { h with batchingQueue := queue } (pump.map .pumpQueue).toList []
  | .checkoutVersion call =>
    if h.checkedOutVersion = some call.version then .next h [.fn call] []
    else .next h [.tryCheckoutLocal call] []
  | .tryCheckoutLocal call =>
    match call.failure .checkoutLocal, h.branches call.version with
    | none, some commit => .next (forceCheckout workspace h call commit) [.fn call] []
    | _, _ => .next h [.fetchFullRef call] []
  | .fetchFullRef call =>
    match call.failure .fetchFullRef with
    | some message => .next h [.settle call (.error message)] []
    | none => .next h [.fetch call] []
  | .fetch call =>
    match call.failure .fetch with
    | some message => .next h [.settle call (.error (fetchError workspace call message))] []
    | none => .next { h with fetchHead := some call.version } [.checkoutBranch call] []
  | .checkoutBranch call =>
    match call.failure .checkoutBranch, h.branches call.version, h.fetchHead with
    | some message, _, _ =>
      .next h [.settle call (.error (fetchError workspace call message))] []
    | none, some _, _ =>
      .next h [.settle call (.error (fetchError workspace call
        ("fatal: a branch named '" ++ call.version ++ "' already exists")))] []
    | none, none, none =>
      .next h [.settle call (.error (fetchError workspace call
        "fatal: 'FETCH_HEAD' is not a commit"))] []
    | none, none, some commit =>
      match workspace.switch (h.head.map workspace.treeOf) h.tree (workspace.treeOf commit) with
      | .error message =>
        .next h [.settle call (.error (fetchError workspace call message))] []
      | .ok tree =>
        .next { h with
          branches := Function.update h.branches call.version (some commit)
          head := some commit
          tree := tree } [.checkoutForce call] []
  | .checkoutForce call =>
    match call.failure .checkoutForce, h.branches call.version with
    | some message, _ => .next h [.settle call (.error message)] []
    | none, some commit => .next (forceCheckout workspace h call commit) [.fn call] []
    | none, none =>
      .next h [.settle call (.error ("error: pathspec '" ++ call.version ++
        "' did not match any file(s) known to git"))] []
  | .fn call =>
    match call.operation with
    | .listFiles globs => reads h call (.files (workspace.listFiles h.tree globs))
    | .readFile filename => reads h call (.content (workspace.readFile h.tree filename))
    | .stat filename => reads h call (.stat (workspace.stat h.tree filename))
    | .generatePatch filename _ | .getPatchedFile filename _ =>
      ensureFile workspace h call filename
  | .write call =>
    match call.failure .writeFile, call.operation with
    | some message, _ => .next h [.reset call (.error message)] []
    | none, .generatePatch filename newContent =>
      .next { h with tree := workspace.writeFile h.tree filename newContent }
        [.diff call filename] []
    | none, .getPatchedFile filename patchContent =>
      .next { h with scratch := patchContent } [.apply call filename] []
    | none, _ => .next h [.reset call (.error "")] []
  | .diff call filename =>
    match call.failure .diff, h.head with
    | some message, _ => .next h [.reset call (.error message)] []
    | none, head =>
      .next h [.reset call (.ok (.patch (workspace.diff
        ((head.map workspace.treeOf).getD h.tree) h.tree filename)))] []
  | .apply call filename =>
    let (tree, error) := match call.failure .apply with
      | some message => (h.tree, some message)
      | none => workspace.apply h.tree h.scratch
    match error with
    | none => .next { h with tree := tree } [.readPatched call filename false] []
    | some message =>
      if includes message "with conflicts" then
        -- Git cannot represent the conflicts of a binary file.
        if includes message "Cannot merge binary files" then
          .next { h with tree := tree } [.reset call (.ok (.patched none true))] []
        else .next { h with tree := tree } [.readPatched call filename true] []
      else .next { h with tree := tree } [.reset call (.error message)] []
  | .readPatched call filename hasConflicts =>
    match call.failure .read with
    | some message => .next h [.reset call (.error message)] []
    | none =>
      .next h [.reset call (.ok (.patched (workspace.readFile h.tree filename) hasConflicts))] []
  | .reset call outcome =>
    match call.failure .reset with
    | some message => .next h [.settle call (.error message)] []
    | none =>
      .next { h with tree := (h.head.map workspace.treeOf).getD h.tree }
        [.settle call outcome] []
  | .settle call outcome =>
    .next { h with settled := h.settled ++ [(call, outcome)] } [.pumpQueue call.version] []

/-- Versions are not empty. The ids tell calls apart. -/
def repository : Machine (Heap Tree) Frame Unit String where
  exec := exec workspace
  start h frame :=
    match frame with
    | .enqueue call =>
      if call.id ∈ h.used ∨ call.version = "" then none
      else some { h with used := call.id :: h.used }
    | _ => none

end Exec

end PlatformOverride.GitReactFileRepository
