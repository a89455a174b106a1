import Mathlib.Data.List.Basic

/-!
Paths as texts, with the operations of `std::path` on a Unix system. Two paths
are the same when their components are: repeated separators, a separator at the
end and a dot that is not the first component make no difference.
-/

namespace Dvrft.Paths

/-- The path without the separators and dots at its end, last character first. -/
def trimmed : List Char → List Char
  | ['/'] => ['/']
  | '/' :: rest => trimmed rest
  | '.' :: '/' :: rest => trimmed ('/' :: rest)
  | reversed => reversed

def isAbsolute (path : String) : Bool := path.toList.head? == some '/'

/-- `base.join(path)`. -/
def join (base path : String) : String :=
  if isAbsolute path || base.isEmpty then path
  else if base.toList.getLast? = some '/' then base ++ path
  else base ++ "/" ++ path

/-- `path.parent()`. -/
def parent (path : String) : Option String :=
  match trimmed path.toList.reverse with
  | [] => none
  | ['/'] => none
  | reversed => some (String.ofList (trimmed (reversed.dropWhile (· ≠ '/'))).reverse)

/-- `path.file_name()`. -/
def fileName (path : String) : Option String :=
  let last := ((trimmed path.toList.reverse).takeWhile (· ≠ '/')).reverse
  if last = [] ∨ last = ['.'] ∨ last = ['.', '.'] then none else some (String.ofList last)

/-- Whether the path begins at the root, and its components. -/
def components (path : String) : Bool × List (List Char) :=
  let segments := path.toList.splitOn '/'
  (isAbsolute path, match segments with
    | ['.'] :: rest => ['.'] :: rest.filter fun s => s ≠ [] ∧ s ≠ ['.']
    | _ => segments.filter fun s => s ≠ [] ∧ s ≠ ['.'])

/-- Equality of `Path`s. -/
def SamePath (a b : String) : Prop := components a = components b

instance (a b : String) : Decidable (SamePath a b) :=
  inferInstanceAs (Decidable (components a = components b))

theorem SamePath.refl (a : String) : SamePath a a := rfl

theorem SamePath.symm {a b : String} (h : SamePath a b) : SamePath b a := Eq.symm h

theorem SamePath.trans {a b c : String} (hab : SamePath a b) (hbc : SamePath b c) :
    SamePath a c := Eq.trans hab hbc

example : parent "cases/one/" = some "cases" ∧ parent "one" = some "" ∧ parent "/" = none := by
  decide

example : fileName "/evidence/./disk.img/" = some "disk.img" ∧ fileName "a/.." = none := by decide

end Dvrft.Paths
