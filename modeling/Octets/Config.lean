import Octets.Files
import Octets.Json.Reader
import Octets.Source
import Octets.Yaml.Document

/-!
# Configurations

A configuration file holds a mapping: a YAML document if its name ends in `.yaml` or `.yml`, in any
case, and a JSON document otherwise. A document that holds nothing is an empty mapping; any other
value that is no mapping is refused.
-/

namespace Octets.Config

/-- The ending of a file name from its last dot on. Dots at the start of the name do not count. -/
def ending (path : String) : List Char :=
  let name := (Text.split '/' path.toList).getLastD []
  match Text.split '.' (name.dropWhile (· == '.')) with
  | [] => []
  | [_] => []
  | parts => parts.getLastD []

/-- The endings of YAML documents. -/
def yamlEndings : List String := ["yaml", "yml"]

/-- Is the file a YAML document by its name? -/
def isYaml (path : String) : Bool :=
  yamlEndings.contains (String.ofList ((ending path).map Char.toLower))

/-- The value of a JSON document. -/
def readJson (content : Bytes) : Except Fault Value :=
  match Text.Utf8.decode content with
  | .error fault => .error (.encoding fault)
  | .ok s => (Json.read (Text.Lines.normalize s)).mapError Fault.json

/-- The mapping that a document stands for. -/
def ofValue (v : Value) : Except Fault Dict :=
  match v.opened with
  | .dict entries => .ok entries
  | v => if v.holds fun _ => [] then .error (.option .config) else .ok []

/-- Loads a configuration file. -/
def load (files : Files) (path : String) : Except Fault Dict := do
  let content ← Files.opening (.text path) (files.read path)
  (if isYaml path then Yaml.read content else readJson content).bind ofValue

end Octets.Config
