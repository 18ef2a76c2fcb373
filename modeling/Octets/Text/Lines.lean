/-!
# Lines

The two ways this library divides a text at line ends.

* `normalize` turns the pair carriage return, line feed and the lone carriage return into line
  feeds, as a text file is read.
* `split` cuts a text at every character that ends a line in the wide sense: line feed, vertical
  tab, form feed, carriage return (with a line feed behind it, if there is one), the separators
  U+001C to U+001E, U+0085, U+2028 and U+2029. The end of the text ends the last line without adding
  an empty one.
-/

namespace Octets.Text.Lines

/-- Every line end as a line feed. -/
def normalize : List Char → List Char
  | [] => []
  | '\r' :: '\n' :: rest => '\n' :: normalize rest
  | '\r' :: rest => '\n' :: normalize rest
  | c :: rest => c :: normalize rest

/-- Does the character end a line in the wide sense? -/
def isEnd (c : Char) : Bool :=
  let n := c.toNat
  (0x0a ≤ n && n ≤ 0x0d) || (0x1c ≤ n && n ≤ 0x1e) || n == 0x85 || n == 0x2028 || n == 0x2029

/-- The lines of a text whose first line has begun with the characters `line`, in reverse. -/
def splitFrom (line : List Char) : List Char → List (List Char)
  | [] => if line.isEmpty then [] else [line.reverse]
  | '\r' :: '\n' :: rest => line.reverse :: splitFrom [] rest
  | c :: rest => if isEnd c then line.reverse :: splitFrom [] rest else splitFrom (c :: line) rest

/-- The lines of a text, without the characters that end them. -/
def split (s : List Char) : List (List Char) := splitFrom [] s

end Octets.Text.Lines
