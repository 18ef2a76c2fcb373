import Octets.Fault
import Octets.Json.Writer
import Octets.Log.Template
import Octets.Text.Lines

/-!
# Log records

A record has a level, the name of the logger it came through, a message, and perhaps the text of an
exception. In a file it is one line: a JSON object with these and a time stamp. No line holds a
character below U+0020, so line feeds divide the records of a file. A reader of the file that ends
lines at other characters too gets a record back only if its texts hold none of those.
-/

namespace Octets.Log

/-! ## Levels -/

/-- The levels with a name; of two names for one level the first is written. -/
def levels : List (String × Int) :=
  [("CRITICAL", 50), ("FATAL", 50), ("ERROR", 40), ("WARNING", 30), ("WARN", 30), ("INFO", 20),
    ("DEBUG", 10), ("NOTSET", 0)]

def debug : Int := 10

def info : Int := 20

def warning : Int := 30

/-- The name of a level. -/
def levelName (level : Int) : String :=
  match levels.find? fun e => e.2 = level with
  | some (name, _) => name
  | none => "Level " ++ Decimal.integerString level

/-- A character in upper case, as far as the names of levels need it: the ASCII letters, and the
other characters whose upper case consists of them. -/
def upperChar (c : Char) : List Char :=
  match c with
  | 'ı' => ['I']
  | 'ſ' => ['S']
  | 'ß' => ['S', 'S']
  | 'ﬀ' => ['F', 'F']
  | 'ﬁ' => ['F', 'I']
  | 'ﬂ' => ['F', 'L']
  | 'ﬃ' => ['F', 'F', 'I']
  | 'ﬄ' => ['F', 'F', 'L']
  | 'ﬅ' => ['S', 'T']
  | 'ﬆ' => ['S', 'T']
  | c => [c.toUpper]

/-- A name in upper case. -/
def upper (name : String) : String := String.ofList (name.toList.flatMap upperChar)

/-- The form of a message in which fields are marked by a percent sign. -/
def basicFormat : String := "%(levelname)s:%(name)s:%(message)s"

/-- The three ways to mark a field in the form of a message, each with its class and its basic
form. -/
def styles : List (String × String × String) :=
  [("%", "PercentStyle", basicFormat),
    ("\x7b", "StrFormatStyle", "\x7blevelname\x7d:\x7bname\x7d:\x7bmessage\x7d"),
    ("$", "StringTemplateStyle", "$\x7blevelname\x7d:$\x7bname\x7d:$\x7bmessage\x7d")]

/-- The table of the styles, as messages show it. -/
def shownStyles : String :=
  let entry (e : String × String × String) : String :=
    Text.Quoted.string e.1 ++ ": (<class 'logging." ++ e.2.1 ++ "'>, " ++
      Text.Quoted.string e.2.2 ++ ")"
  "\x7b" ++ ", ".intercalate (styles.map entry) ++ "\x7d"

/-- The level of a name in any case. A name without a level counts as `INFO`, but two names stand
for something else: a form, and the table of the styles. -/
def levelOf (name : String) : Except Fault Int :=
  match upper name with
  | "BASIC_FORMAT" => .error (.badValue (.unknownLevel (Text.Quoted.string basicFormat)))
  | "_STYLES" => .error (.wrongKind (.notLevel shownStyles))
  | name => .ok (((levels.find? fun e => e.1 = name).map (·.2)).getD info)

/-! ## Records -/

/-- A log record. -/
structure Record where
  level : Int
  logger : String
  message : String
  exception : Option String
  deriving DecidableEq, Repr

namespace Record

/-- The name that is written for a logger; the one without a name is the root. -/
def loggerName (name : String) : String := if name.isEmpty then "root" else name

/-- The entries of a record with its time stamp. -/
def entries (stamp : String) (r : Record) : Dict :=
  [(.text "timestamp", .text stamp), (.text "level", .text (levelName r.level)),
    (.text "logger", .text (loggerName r.logger)), (.text "message", .text r.message)] ++
  match r.exception with
  | none => []
  | some e => [(.text "exc", .text e)]

/-- A member of the object that a record is written as. -/
def member (e : Value × Value) : String :=
  let quoted (v : Value) : String := Json.quoteString false ((v.asText?).getD "")
  quoted e.1 ++ ": " ++ quoted e.2

/-- The record as one line. -/
def line (stamp : String) (r : Record) : String :=
  "\x7b" ++ Value.commas ((r.entries stamp).map member) ++ "\x7d"

end Record

/-- The values of the lines of a log. -/
def readLines (content : Bytes) : Except Fault (List Value) :=
  match Text.Utf8.decode content with
  | .error fault => .error (.encoding fault)
  | .ok s =>
    (Text.Lines.split (Text.Lines.normalize s)).mapM fun line =>
      (Json.read line).mapError Fault.json

end Octets.Log
