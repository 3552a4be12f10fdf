import Synchrony.Failure
import Synchrony.Text.Encoding

/-!
# Files by path

A path leads to a file or a directory, or fails to, and what it leads to is found out by whoever
keeps the files (`Found`). How a file is named in failures does not depend on how its path was
spelt: steps that stay in place and doubled slashes are left out (`plainPath`).

## Files in memory

A file tree (`FileTree`) keeps files by the steps that lead to them from the root. Looking a path up
goes step by step, so that the first step that cannot be made decides: a step out of a file is a
fault even if a later step would have undone it.
-/

set_option autoImplicit false

namespace Synchrony

/-- What a path leads to. -/
inductive Found where
  | missing
  | directory
  | file (bytes : List Nat)
  /-- One of the steps leads out of a file. -/
  | notDirectory
  /-- The path, or one of its steps, is longer than any can be. -/
  | tooLong
  /-- No path has the character zero. -/
  | illegal
  deriving Repr

/-- The steps of a path. -/
def pathSteps (path : List Char) : List (List Char) :=
  path.foldr (fun c steps =>
    match steps with
    | step :: more => if c = '/' then [] :: step :: more else (c :: step) :: more
    | [] => [[c]]) [[]]

/-- The steps of a path that lead somewhere else. -/
def realSteps (path : List Char) : List (List Char) :=
  (pathSteps path).filter fun step => step != [] && step != ['.']

/-- A path without steps that stay in place. Two slashes in front, and no more, stay two. -/
def plainPath (path : String) : String :=
  let cs := path.toList
  let slashes := (cs.takeWhile (· == '/')).length
  let root := if slashes = 0 then [] else if slashes = 2 then ['/', '/'] else ['/']
  let steps := (List.intersperse ['/'] (realSteps cs)).flatten
  if root.isEmpty && steps.isEmpty then "." else String.ofList (root ++ steps)

namespace Found

/-- The bytes of the file that a path leads to, or the failure to read any. -/
def bytes (path : String) : Found → Except Failure (List Nat)
  | .file bytes => .ok bytes
  | .missing => .error (.fault .missingFile (wording 2 "No such file or directory"))
  | .directory => .error (.fault .directory (wording 21 "Is a directory"))
  | .notDirectory => .error (.fault .notDirectory (wording 20 "Not a directory"))
  | .tooLong => .error (.fault .system (wording 36 "File name too long"))
  | .illegal => .error (.fault .value "embedded null byte")
where
  wording (number : Nat) (reason : String) : String :=
    "[Errno " ++ Decimal.natText number ++ "] " ++ reason ++ ": " ++ Text.quoted (plainPath path)

end Found

/-- Files by the steps that lead to them from the root. -/
structure FileTree where
  files : List (List String × List Nat)
  /-- Directories besides those that the files are in. -/
  directories : List (List String) := []
  /-- Where paths start that do not start at the root. -/
  home : List String := []

namespace FileTree

/-- What some steps lead to from the root, once each of them has been made. -/
def lookAt (tree : FileTree) (position : List String) : Found :=
  match tree.files.find? fun file => file.1 == position with
  | some file => .file file.2
  | none =>
    if tree.directories.any (position.isPrefixOf ·) || position.isPrefixOf tree.home ||
        tree.files.any (position.isPrefixOf ·.1) then .directory
    else .missing

/-- What more steps lead to from a position. -/
def follow (tree : FileTree) (position : List String) : List String → Found
  | [] => tree.lookAt position
  | step :: steps =>
    match tree.lookAt position with
    | .directory =>
      if step.utf8ByteSize > 255 then .tooLong
      else if step = ".." then follow tree position.dropLast steps
      else follow tree (position ++ [step]) steps
    | .file _ => .notDirectory
    | found => found

/-- What a path leads to. -/
def find (tree : FileTree) (path : String) : Found :=
  let plain := plainPath path
  let start := if plain.toList.head? = some '/' then [] else tree.home
  if plain.toList.contains (Char.ofNat 0) then .illegal
  else if plain.utf8ByteSize > 4095 then .tooLong
  else tree.follow start ((realSteps plain.toList).map String.ofList)

/-- Files by the paths that lead to them from a home. -/
def ofFiles (home : List String) (files : List (String × List Nat)) : FileTree where
  files := files.map fun (path, bytes) =>
    (home ++ (realSteps path.toList).map String.ofList, bytes)
  home := home

end FileTree

end Synchrony
