/-!
# Layouts

A layout is the structured text of a value: plain words, and brackets around further layouts. It is
written either in one line (`compact`) or with every part of a bracket on a line of its own
(`pretty`).

## Main definitions

* `Layout`, and `Bracket` for the three kinds of brackets.
* `Layout.compact`, `Layout.pretty`.
-/

namespace ApplicativeParsing.Text

/-- What encloses the parts of a layout. -/
inductive Bracket where
  /-- A possibly empty name and round brackets. -/
  | tuple (name : String)
  /-- A name and curly brackets, with a space inside them when in one line. -/
  | record (name : String)
  /-- Square brackets. -/
  | list
  deriving DecidableEq, Repr

namespace Bracket

/-- The text in front of the parts. -/
def opening : Bracket → String
  | tuple name => name ++ "("
  | record name => name ++ " \x7b"
  | list => "["

/-- The text behind the parts. -/
def closing : Bracket → String
  | tuple _ => ")"
  | record _ => "\x7d"
  | list => "]"

/-- What stands between a bracket and the nearest part in one line. -/
def padding : Bracket → String
  | record _ => " "
  | _ => ""

end Bracket

/-- A structured text. -/
inductive Layout where
  /-- A word that is not divided. -/
  | word (text : String)
  /-- A layout with a label in front. -/
  | labelled (label : String) (body : Layout)
  /-- Parts between brackets. -/
  | group (bracket : Bracket) (parts : List Layout)

namespace Layout

/-- A named value with positional parts. -/
def tuple (name : String) (parts : List Layout) : Layout := group (.tuple name) parts

/-- A named value with labelled parts. -/
def record (name : String) (parts : List (String × Layout)) : Layout :=
  group (.record name) (parts.map fun (label, body) => labelled label body)

/-- A sequence. -/
def list (parts : List Layout) : Layout := group .list parts

mutual

/-- Write a layout behind `done`, in one line. -/
def writeCompact (done : String) : Layout → String
  | word text => done ++ text
  | labelled label body => writeCompact (done ++ label ++ ": ") body
  | group b [] => done ++ b.opening ++ b.closing
  | group b (part :: parts) =>
    writeCompactParts (writeCompact (done ++ b.opening ++ b.padding) part) parts
      ++ b.padding ++ b.closing

/-- Write further parts behind `done`, in one line. -/
def writeCompactParts (done : String) : List Layout → String
  | [] => done
  | part :: parts => writeCompactParts (writeCompact (done ++ ", ") part) parts

end

mutual

/-- Write a layout behind `done`. A new line starts with `margin`. -/
def writePretty (margin done : String) : Layout → String
  | word text => done ++ text
  | labelled label body => writePretty margin (done ++ label ++ ": ") body
  | group b [] => done ++ b.opening ++ b.closing
  | group b (part :: parts) =>
    writePrettyParts (margin ++ "    ") (done ++ b.opening) (part :: parts)
      ++ "\n" ++ margin ++ b.closing

/-- Write parts behind `done`, each on a line of its own and with a comma at its end. -/
def writePrettyParts (margin done : String) : List Layout → String
  | [] => done
  | part :: parts =>
    writePrettyParts margin (writePretty margin (done ++ "\n" ++ margin) part ++ ",") parts

end

/-- The layout in one line. -/
def compact (l : Layout) : String := l.writeCompact ""

/-- The layout with one line for every part, each level four spaces further to the right. -/
def pretty (l : Layout) : String := l.writePretty "" ""

example : (record "Tok" [("name", word "a"), ("pos", word "2")]).compact =
    "Tok \x7b name: a, pos: 2 \x7d" := by
  decide

example : (tuple "Some" [list []]).pretty = "Some(\n    [],\n)" := by decide

end Layout

end ApplicativeParsing.Text
