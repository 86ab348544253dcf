/-!
# Keys of the parameter tree

A key is a path through tables, written with slashes. Slashes only separate: those at the ends and
those that follow another one say nothing, so `/a//b/` and `a/b` are the same path, and a key of
nothing but slashes is no path at all.
-/

namespace ControlRig.Param

/-- The parts of a text between slashes, the empty ones included. -/
def splitAtSlashes : List Char → List (List Char)
  | [] => [[]]
  | c :: cs =>
    if c = '/' then [] :: splitAtSlashes cs
    else
      match splitAtSlashes cs with
      | [] => [[c]]
      | part :: parts => (c :: part) :: parts

/-- The names along the path of a key. -/
def segments (key : String) : List String :=
  ((splitAtSlashes key.toList).filter (fun part => !part.isEmpty)).map String.ofList

example : segments "/a//b/" = ["a", "b"] := by decide
example : segments "//" = [] := by decide

end ControlRig.Param
