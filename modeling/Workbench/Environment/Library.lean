/-
External libraries, and what a context is built from.
-/
import Workbench.Json.Coding
import Workbench.Text.Line

namespace Workbench

/-- The external libraries there are. -/
inductive LibraryName where
  | none
  | runes
  | curves
  | sound
  deriving DecidableEq, Repr

namespace LibraryName

/-- The name as it is shown. -/
def text : LibraryName → String
  | .none => "NONE"
  | .runes => "RUNES"
  | .curves => "CURVES"
  | .sound => "SOUND"

/-- The library of a name in capitals. -/
def ofText? : String → Option LibraryName
  | "NONE" => some .none
  | "RUNES" => some .runes
  | "CURVES" => some .curves
  | "SOUND" => some .sound
  | _ => Option.none

/-- The library of a name, in capitals or not. -/
def read? (s : String) : Option LibraryName := ofText? (Text.upper s)

/-- The symbols that a program sees when the library is loaded. -/
def symbols : LibraryName → List String
  | .none => []
  | .runes => ["show", "beside", "stack", "flip_horiz", "flip_vert", "quarter_turn_left",
      "quarter_turn_right", "turn_upside_down", "heart", "nova", "circle", "square",
      "blank", "rcross", "sail", "corner", "ribbon"]
  | .curves => ["make_point", "x_of", "y_of", "draw_connected", "draw_points_on",
      "draw_connected_squeezed_to_window", "draw_connected_full_view", "unit_circle",
      "unit_line", "alternative_unit_circle", "arc", "translate", "rotate_around_origin"]
  | .sound => ["make_sound", "get_wave", "get_duration", "play", "stop", "sine_sound",
      "silence_sound", "consecutively", "simultaneously", "adsr"]

end LibraryName

/-- What is said of a name that no library has. -/
def unknownLibraryMessage (name : String) : String := "unknown external library: " ++ name

/-- A library and the symbols it shows. -/
structure Library where
  name : LibraryName := .none
  symbols : List String := []
  deriving DecidableEq, Repr

/-- The library with all the symbols of its name. -/
def Library.named (name : LibraryName) : Library := ⟨name, name.symbols⟩

/-- What a context is built from: a chapter of the language, a library, and the host's globals in order. -/
structure Selection where
  chapter : UInt8
  library : Library := {}
  globals : List (String × Json) := []

instance : Coded LibraryName := Coded.ofNames LibraryName.text LibraryName.ofText?

instance : Coded Library where
  encode l := .obj [("name", encode l.name), ("symbols", encode l.symbols)]
  decode? j := do
    let [name, symbols] ← j.fields ["name", "symbols"] | Option.none
    return { name := ← name.required, symbols := ← symbols.required }

instance : Coded Selection where
  encode s :=
    .obj [("chapter", encode s.chapter), ("external", encode s.library), ("globals", encode s.globals)]
  decode? j := do
    let [chapter, library, globals] ← j.fields ["chapter", "external", "globals"] | Option.none
    return { chapter := ← chapter.required, library := ← library.required, globals := ← globals.required }

end Workbench
