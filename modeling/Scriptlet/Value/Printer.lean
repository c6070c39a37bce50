import Scriptlet.Value.Basic
import Scriptlet.Number.Notation

/-!
# Printed values

The text of a value. A text stands for itself, but has quotes around it inside an object.
-/
namespace Scriptlet

namespace Value

/-- The text of a value inside an object, given its text outside of one. -/
def nestedText (value : Value) (plain : String) : String :=
  match value with
  | text _ => "'" ++ plain ++ "'"
  | _ => plain

mutual

def render : Value → String
  | number n => n.text
  | text s => s
  | boolean b => if b then "true" else "false"
  | null => "null"
  | object _ entries =>
    if entries.isEmpty then "\x7b\x7d"
    else "\x7b " ++ ", ".intercalate (renderEntries entries) ++ " \x7d"
  | function _ closure => "[Function " ++ closure.name ++ "]"
  | native _ name => "[NativeFunction " ++ name ++ "]"

def renderEntries : Entries → List String
  | [] => []
  | (key, value) :: rest =>
    (key ++ ": " ++ value.nestedText value.render) :: renderEntries rest

end

theorem render_object (id : Identity) (entries : Entries) :
    (object id entries).render =
      if entries.isEmpty then "\x7b\x7d"
      else "\x7b " ++ ", ".intercalate (renderEntries entries) ++ " \x7d" := rfl

theorem renderEntries_cons (key : String) (value : Value) (rest : Entries) :
    renderEntries ((key, value) :: rest) =
      (key ++ ": " ++ value.nestedText value.render) :: renderEntries rest := rfl

end Value

end Scriptlet
