import ControlRig.Param.Tree

/-!
# Single accesses to a parameter tree

Each access that somebody can make, as a value, and what comes of it. A text is published for good
or ill: where the tree refuses it the tree stays as it was, and all that remains is a warning.
-/

namespace ControlRig

namespace ParamTree

/-- The tree after a text has been published at a key, and what there is to warn of. -/
def publish (tree : ParamTree) (key text : String) : ParamTree × List String :=
  match tree.insert key (.string text) with
  | .ok tree => (tree, [])
  | .error e => (tree, ["failed to publish status '" ++ key ++ "': " ++ e.message])

end ParamTree

namespace Param

/-- An access to a parameter tree. -/
inductive Access where
  | get (key : String)
  | has (key : String)
  | insert (key : String) (value : Value)
  | remove (key : String)
  /-- Read a published text. -/
  | text (key : String)
  | publish (key text : String)
  deriving Repr

/-- What comes of an access. -/
inductive Finding where
  | value (value : Option Value)
  | isThere (isThere : Bool)
  | text (text : Option String)
  | done
  | refused (error : ParamError)
  deriving Repr

/-- What comes of an access, the tree after it, and what there is to warn of. -/
def Access.perform (tree : ParamTree) : Access → Finding × ParamTree × List String
  | .get key => (.value (tree.get? key), tree, [])
  | .has key => (.isThere (tree.hasEntry key), tree, [])
  | .insert key value =>
    match tree.insert key value with
    | .ok tree => (.done, tree, [])
    | .error e => (.refused e, tree, [])
  | .remove key => (.value (tree.get? key), tree.erase key, [])
  | .text key => (.text (tree.text? key), tree, [])
  | .publish key published => (.done, tree.publish key published)

end Param

end ControlRig
