import Octets.Family

/-!
# Sample plugins

Five small plugins that show what a caller can add: one with a field and a default, two without
documentation, one that fails halfway, and one that says nothing of its own.
-/

namespace Octets.Plugin

/-- The buffer to change: the value itself if it can be written and that is asked, otherwise a
copy. -/
def target (v : Value) (inPlace : Bool) : Action Nat :=
  match v, inPlace with
  | .buffer ref, true => return ref
  | v, _ => Action.toBuffer v

/-! ## Adding a constant -/

/-- Adds an amount to every byte, modulo 256. An amount with a fraction can be added, but the sum
has no bits to keep. -/
def addAmount (amount : Value) (v : Value) (inPlace : Bool) : Action Nat := do
  let ref ← target v inPlace
  let bs ← Action.read ref
  match amount, amount.asWhole? with
  | _, some n =>
    Action.write ref (bs.map fun b => Bytes.ofSigned (b.toNat + n))
    return ref
  | .float _, none =>
    if bs.isEmpty then return ref else Action.mismatch (.notOperands "&" "float" "int")
  | amount, none =>
    if bs.isEmpty then return ref else Action.mismatch (.notOperands "+" "int" amount.kind)

def increment : Plugin where
  label := "IncrementTransform"
  name := "increment"
  doc := "Adds a constant to every byte, wrapping at 256."
  bare := false
  parameters := [.optional "amount" (.int 1)]
  isOpen := true
  describe contents values := do
    let amount ← (values.headD .null).printed contents
    return "Adds " ++ amount ++ " to every byte"
  apply values := addAmount (values.headD .null)

/-! ## Plugins without documentation -/

/-- A copy of the bytes with a zero behind them. -/
def addZero (v : Value) (_inPlace : Bool) : Action Nat := do
  Action.allocate ((← Action.reading fun contents => v.toBytes contents) ++ [0])

/-- A plugin that takes no arguments and appends a zero. -/
def withoutDoc (label name doc : String) : Plugin where
  label := label
  name := name
  doc := doc
  bare := true
  parameters := []
  isOpen := false
  describe _ _ := .ok "no doc"
  apply _ := addZero

def noDoc : Plugin := withoutDoc "NoDocTransform" "transform" ""

def blankDoc : Plugin := withoutDoc "BlankDocTransform" "blank" "  \n\t  "

/-! ## Failing -/

/-- Overwrites leading bytes of a buffer in place, and fails with a message. -/
def failAfter (message after : Value) (v : Value) (inPlace : Bool) : Action Nat := do
  match v, inPlace with
  | .buffer ref, true =>
    let bs ← Action.read ref
    let count := min ((after.asWhole?.getD 0).toNat) bs.length
    Action.write ref (List.replicate count 0xee ++ bs.drop count)
  | _, _ => pure ()
  Action.fail (.badValue (.refused ((← get).display message)))

def failing : Plugin where
  label := "FailingTransform"
  name := "failing"
  doc := "Always fails."
  bare := false
  parameters := [.required "message", ⟨"after", some (.int 0), true⟩]
  isOpen := false
  describe _ _ := .ok "Fails"
  apply values := failAfter (values.getD 0 .null) (values.getD 1 (.int 0))

/-! ## Nothing of its own -/

def baseCalling : Plugin where
  label := "BaseCallingTransform"
  name := "base_calling"
  doc := "Delegates to the abstract base."
  bare := true
  parameters := []
  isOpen := false
  describe _ _ := .ok "base says None"
  apply _ v _ := Action.toBuffer v

/-- All samples. -/
def samples : List Plugin := [increment, noDoc, blankDoc, failing, baseCalling]

end Octets.Plugin

namespace Octets.Family

/-- The family with a label, among the kinds of this library and the samples. -/
def ofLabel? (label : String) : Option Family :=
  match Kind.ofLabel? label with
  | some k => some (.builtin k)
  | none => (Plugin.samples.find? fun p => p.label = label).map .plugin

end Octets.Family
