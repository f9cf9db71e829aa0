/-!
# Layouts

How a value is shown for inspection: atoms, heads with arguments, lists, and records of named
fields. A layout is written on one line (`Layout.compact`), or spread out with each argument,
element and field on a line of its own, indented by four and ended by a comma (`Layout.spread`).
An empty list takes no lines.
-/

namespace Deferral

/-- The shape of a value that is shown. -/
inductive Layout where
  /-- Text that is never broken. -/
  | atom (text : String)
  /-- A head with arguments; a tuple has an empty head. -/
  | call (head : String) (args : List Layout)
  /-- A list. -/
  | list (items : List Layout)
  /-- A head with named fields. -/
  | record (head : String) (fields : List (String × Layout))

namespace Layout

mutual

/-- The layout on one line. -/
def compact : Layout → String
  | atom t => t
  | call head args => head ++ "(" ++ ", ".intercalate (compactAll args) ++ ")"
  | list items => "[" ++ ", ".intercalate (compactAll items) ++ "]"
  | record head fields => head ++ " \x7b " ++ ", ".intercalate (compactFields fields) ++ " \x7d"
termination_by structural l => l

/-- Each of the layouts on one line. -/
def compactAll : List Layout → List String
  | [] => []
  | l :: ls => compact l :: compactAll ls
termination_by structural ls => ls

/-- Each of the fields on one line. -/
def compactFields : List (String × Layout) → List String
  | [] => []
  | f :: fs => compactField f :: compactFields fs
termination_by structural fs => fs

/-- A field on one line. -/
def compactField : String × Layout → String
  | (name, l) => name ++ ": " ++ compact l
termination_by structural f => f

end

/-- Lines between an opening and a closing mark, all but the last at a deeper indent. -/
def bracketed (indent : String) (opening closing : String) (lines : List String) : String :=
  opening ++ "\n" ++ String.join (lines.map fun l => indent ++ "    " ++ l ++ ",\n") ++ indent ++
    closing

mutual

/-- The layout spread out, inside lines indented by `indent`. -/
def spreadAt : Layout → String → String
  | atom t, _ => t
  | call head [], _ => head ++ "()"
  | call head (a :: as), indent =>
    bracketed indent (head ++ "(") ")"
      (spreadAt a (indent ++ "    ") :: spreadAll as (indent ++ "    "))
  | list [], _ => "[]"
  | list (a :: as), indent =>
    bracketed indent "[" "]" (spreadAt a (indent ++ "    ") :: spreadAll as (indent ++ "    "))
  | record head fields, indent =>
    bracketed indent (head ++ " \x7b") "\x7d" (spreadFields fields (indent ++ "    "))
termination_by structural l => l

/-- Each of the layouts spread out. -/
def spreadAll : List Layout → String → List String
  | [], _ => []
  | l :: ls, indent => spreadAt l indent :: spreadAll ls indent
termination_by structural ls => ls

/-- Each of the fields spread out. -/
def spreadFields : List (String × Layout) → String → List String
  | [], _ => []
  | f :: fs, indent => spreadField f indent :: spreadFields fs indent
termination_by structural fs => fs

/-- A field spread out. -/
def spreadField : String × Layout → String → String
  | (name, l), indent => name ++ ": " ++ spreadAt l indent
termination_by structural f => f

end

/-- The layout with each part on a line of its own. -/
def spread (l : Layout) : String := l.spreadAt ""

end Layout
end Deferral
