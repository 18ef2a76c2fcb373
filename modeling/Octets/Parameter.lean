import Octets.Fault
import Octets.Value

/-!
# Parameters

The parameters of anything that is called with arguments, and how arguments become their values: in
order, or by name from a dictionary. A parameter without an argument has its fallback; if there is
none, it is named as missing, together with all others of which that is true.
-/

namespace Octets

/-- A parameter: its value if none is given, and whether it can be given by name only. -/
structure Parameter where
  name : String
  fallback : Option Value
  nameOnly : Bool

namespace Parameter

/-- A parameter that must be given. -/
def required (name : String) : Parameter := ⟨name, none, false⟩

/-- A parameter with a fallback. -/
def optional (name : String) (fallback : Value) : Parameter := ⟨name, some fallback, false⟩

/-- The values of parameters as far as they are given, or the names of those without a value. -/
def collect (callee : String) (found : List (Parameter × Option Value)) :
    Except Fault (List Value) :=
  let values := found.map fun (p, v) => (p, v.or p.fallback)
  let missing := values.filterMap fun (p, v) => if v.isNone then some p.name else none
  if missing.isEmpty then .ok (values.filterMap (·.2))
  else .error (.wrongKind (.arity (.missing callee missing)))

/-- Arguments in order, as the values of the parameters. The callee has `own` arguments before
them. -/
def bind (callee : String) (own : Nat) (ps : List Parameter) (args : List Value) :
    Except Fault (List Value) :=
  let ordered := ps.filter fun p => !p.nameOnly
  let least := (ordered.filter fun p => p.fallback.isNone).length
  if ordered.length < args.length then
    .error (.wrongKind (.arity
      (.tooMany callee (least + own) (ordered.length + own) (args.length + own))))
  else
    let given := ordered.zipIdx.map fun (p, i) => (p, args[i]?)
    collect callee (given ++ (ps.filter (·.nameOnly)).map fun p => (p, none))

/-- A dictionary of arguments, as the values of the parameters. -/
def bindNamed (callee : String) (ps : List Parameter) (args : Dict) : Except Fault (List Value) :=
  collect callee (ps.map fun p => (p, Dict.get? args p.name))

end Parameter

/-- A constructor, as faults name it; the object that it makes is its first argument. -/
def constructorOf (label : String) : String := label ++ ".__init__"

end Octets
