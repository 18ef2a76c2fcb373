import Octets.Command.Form
import Octets.Text.Fill

/-!
# Help texts

The help text of a command: its use, what it does, its options and, for the program itself, its
commands. A line has at most 78 characters. Options and commands are a table whose second column
starts at one place for all rows; a row whose first column is too wide for that goes on in the next
line.
-/

namespace Octets.Command.Help

/-- The width of a line. -/
def width : Nat := 78

/-- The widest a first column can be. -/
def columnLimit : Nat := 30

/-- A paragraph, indented. -/
def paragraph (s : String) : List String := (Text.fill (width - 2) s).map ("  " ++ ·)

/-- The column in which the second column of a table starts, counted from its first. -/
def column (heads : List String) : Nat :=
  min ((heads.map String.length).foldl max 0) columnLimit + 2

/-- A row of a table whose second column starts at `column`. -/
def row (column : Nat) (head text : String) : List String :=
  let indent := Text.blanks (column + 2)
  match Text.fill (width - 2 - column) text with
  | [] => ["  " ++ head]
  | first :: more =>
    let start :=
      if head.length + 2 ≤ column then ["  " ++ Text.pad column head ++ first]
      else ["  " ++ head, indent ++ first]
    start ++ more.map (indent ++ ·)

/-- A table with a title, after an empty line. -/
def table (title : String) (rows : List (String × String)) : List String :=
  let column := column (rows.map (·.1))
  "" :: (title ++ ":") :: rows.flatMap fun (head, text) => row column head text

/-- The lines of the help text of a command. -/
def lines (form : Form) : List String :=
  form.usage :: form.about.flatMap (fun s => "" :: paragraph s) ++
    table "Options" (form.options.map fun o => (o.heading, o.help))

/-- The table of commands, each with the first paragraph about it. -/
def commandTable : List String :=
  table "Commands" (Verb.all.map fun v => (v.name, v.form.about.headD ""))

/-- Lines as a text. -/
def text (lines : List String) : String := String.join (lines.map (· ++ "\n"))

end Octets.Command.Help
