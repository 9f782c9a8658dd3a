/-
Contexts: what a program runs in.

Chapter, library, globals and builtins are fixed when a context is made; the
list of faults grows with every fault reported in it.
-/
import Workbench.Environment.Library
import Workbench.Source.Fault

namespace Workbench

/-- The surroundings of a program. -/
structure Context where
  chapter : UInt8
  library : Library
  globals : List (String × Json)
  builtins : List String
  faults : List Fault := []

namespace Context

/-- A fresh context of a selection. -/
def ofSelection (s : Selection) (builtins : List String) : Context where
  chapter := s.chapter
  library := s.library
  globals := s.globals
  builtins := builtins

/-- The value of a global; of several of one name the first. -/
def global? (c : Context) (name : String) : Option Json := Json.lookup name c.globals

/-- Whether the library or the language itself shows the symbol. -/
def hasSymbol (c : Context) (name : String) : Bool :=
  c.library.symbols.contains name || c.builtins.contains name

/-- The context after more faults. -/
def report (c : Context) (faults : List Fault) : Context := { c with faults := c.faults ++ faults }

end Context

instance : Coded Context where
  encode c :=
    .obj [("chapter", encode c.chapter), ("external", encode c.library), ("globals", encode c.globals),
      ("builtins", encode c.builtins), ("errors", encode c.faults)]
  decode? j := do
    let [chapter, library, globals, builtins, faults] ←
      j.fields ["chapter", "external", "globals", "builtins", "errors"] | none
    return {
      chapter := ← chapter.required
      library := ← library.required
      globals := ← globals.required
      builtins := ← builtins.required
      faults := ← faults.withDefault [] }

end Workbench
