/-
Composed programs: the text in front of the editor's, the editor's text, the
text behind it and, for a testcase, its program. Each part that is not empty
stands on lines of its own, so a line of the editor's text is found in the
composed program further down by the number of lines in front.
-/
import Workbench.Source.LineSet
import Workbench.Workspace.State

namespace Workbench

/-- A program to run, and how many of its lines stand before the user's first one. -/
structure Composition where
  text : String
  prependLines : Int32
  deriving DecidableEq, Repr

namespace Composition

/-- How many lines a fragment takes up. -/
def lineCount (fragment : String) : Int32 := Int32.ofNat (Text.lineCount fragment)

/-- The fragments of a program, one after another. -/
def ofFragments (pre value post : String) (testcase : Option String) : Composition where
  text :=
    pre ++ (if pre = "" then "" else "\n") ++ value ++ "\n" ++ post
      ++ (match testcase with
        | some program => (if post = "" then "" else "\n") ++ program
        | none => "")
  prependLines := lineCount pre

/-- The editor's program, with a testcase's after it if one is given. -/
def ofState (s : WorkspaceState) (testcase : Option String) : Composition :=
  ofFragments s.editorPrepend s.editorValue s.editorPostpend testcase

/-- A text that is run as it stands. -/
def ofInput (input : String) : Composition := ⟨input, 0⟩

end Composition

/-- Breakpoints moved from the user's lines to those of the composed program. -/
def LineSet.shifted (s : LineSet) (by_ : Int32) : LineSet := s.map (· + by_)

/-- Likewise, if there are such lines. -/
def LineSet.shifted? (s : LineSet) (by_ : Int32) : Option LineSet :=
  (s.lines.mapM fun line => line? (line.toInt + by_.toInt)).map .ofList

/-- A place in the composed program as the lines to highlight. -/
def LineRange.ofLocation (l : Location) (by_ : Int32) : LineRange :=
  let user := l.shiftedUp by_
  ⟨user.start.line, user.stop.line⟩

/-- Likewise, if there are such lines. -/
def LineRange.ofLocation? (l : Location) (by_ : Int32) : Option LineRange :=
  (l.shiftedUp? by_).map fun user => ⟨user.start.line, user.stop.line⟩

end Workbench
