import Octets.Text.Split

/-!
# Filling lines

Words are put into lines of a given width, as many into each as fit with one blank between them. A
word that is longer than the width has a line to itself.
-/

namespace Octets.Text

/-- The words of a text, between its blanks. -/
def words (s : String) : List String :=
  ((split ' ' s.toList).filter fun w => !w.isEmpty).map String.ofList

/-- Fills lines, the first of which is begun already. -/
def fillFrom (width : Nat) (line : String) : List String → List String
  | [] => [line]
  | w :: rest =>
    if line.length + 1 + w.length ≤ width then fillFrom width (line ++ " " ++ w) rest
    else line :: fillFrom width w rest

/-- The text in lines of at most `width` characters. -/
def fill (width : Nat) (s : String) : List String :=
  match words s with
  | [] => []
  | w :: rest => fillFrom width w rest

/-- A text of this many blanks. -/
def blanks (n : Nat) : String := String.ofList (List.replicate n ' ')

/-- The text with blanks behind it up to a width. -/
def pad (width : Nat) (s : String) : String := s ++ blanks (width - s.length)

end Octets.Text
