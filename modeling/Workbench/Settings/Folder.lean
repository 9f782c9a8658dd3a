/-
The folder that the program is started in: files by their names, and how a path
names one of them.
-/
import Workbench.Text.Line

namespace Workbench

/-- The files of a folder, and of the folders in it, with their texts. -/
structure Folder where
  files : List (String × String) := []
  deriving DecidableEq, Repr

namespace Folder

/-- The parts of a path, without those that lead nowhere; a path that begins at the root has an empty part
in front. -/
def parts (path : String) : List (List Char) :=
  let steps := (Text.splitAll '/' path.toList).filter fun part => part ≠ [] ∧ part ≠ ['.']
  if path.toList.head? = some '/' then [] :: steps else steps

/-- The text of the file that a path names. A path that ends like that of a folder names none. -/
def read? (f : Folder) (path : String) : Option String :=
  if path.toList.getLast? = some '/' then none
  else (f.files.find? fun file => parts file.1 = parts path).map (·.2)

/-- What follows the last point of the name of a file, unless the name begins there. -/
def ending? (path : String) : Option String :=
  match Text.splitLast '.' ((parts path).getLast?.getD []) with
  | some ([], _) => none
  | some (_, ending) => some (String.ofList ending)
  | none => none

end Folder

end Workbench
