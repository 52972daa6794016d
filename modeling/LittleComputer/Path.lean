/-!
# Paths

A path is taken apart at its slashes; empty components and single dots mean nothing.  It is handed
to the system as it is written shortest.
-/

namespace LittleComputer

/-- A path, taken apart. -/
structure Path where
  /-- The slashes that it begins with, if it begins at the root and not at the working directory:
  two, or one for any other number of them. -/
  slashes : Nat
  /-- The names on the way. -/
  components : List String
  deriving DecidableEq, Repr

namespace Path

/-- The parts of a text between its slashes. -/
def parts : List Char → List (List Char)
  | [] => [[]]
  | '/' :: rest => [] :: parts rest
  | c :: rest =>
    match parts rest with
    | part :: more => (c :: part) :: more
    | [] => [[c]]

/-- The components of a path that mean something. -/
def componentsOf (s : String) : List String :=
  ((parts s.toList).filter fun part => part ≠ [] ∧ part ≠ ['.']).map String.ofList

/-- Takes a path apart. -/
def parse (s : String) : Path :=
  let slashes := (s.toList.takeWhile (· = '/')).length
  ⟨if slashes = 2 then 2 else min slashes 1, componentsOf s⟩

/-- The shortest way to write a path. -/
def render (p : Path) : String :=
  match p.slashes, p.components with
  | 0, [] => "."
  | slashes, names => String.ofList (List.replicate slashes '/') ++ "/".intercalate names

example : componentsOf "/./a//b/" = ["a", "b"] := by cbv
example : parse "//a" = ⟨2, ["a"]⟩ := by cbv
example : parse "///a" = ⟨1, ["a"]⟩ := by cbv
example : render ⟨2, ["a", "b"]⟩ = "//a/b" := by cbv
example : render ⟨0, []⟩ = "." := by cbv

end Path

end LittleComputer
