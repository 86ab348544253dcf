import ControlRig.Param.Tree
import ControlRig.Toml.Document

/-!
# Parameter trees in documents

A parameter tree is kept as a document in a file. There is no tree without a file, nor with one
whose text is no document.
-/

namespace ControlRig.ParamTree

/-- The tree of a document. -/
def ofDocument (text : String) : Except ParamError ParamTree :=
  match (Toml.parse? text).bind Toml.Node.fieldValues? with
  | none => .error .notADocument
  | some root => .ok ⟨root⟩

/-- The tree in the text of a file, if the file could be read. -/
def ofFile : Option String → Except ParamError ParamTree
  | none => .error .unreadable
  | some text => ofDocument text

end ControlRig.ParamTree
