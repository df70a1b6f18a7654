import Outreach.Segment.Field

/-!
# Operands and their order

An operand is a typed value on either side of a comparison. Operands compare only within one kind,
and a number that is not a number compares with nothing. An operator accepts some outcomes of a
comparison. Where no comparison is possible the operator for inequality holds and all others fail.
-/

namespace Outreach.Segment

inductive Operand
  | null
  | bool (b : Bool)
  | number (x : Float)
  | text (s : String)
  | timestamp (i : Instant)
  deriving DecidableEq

inductive Comparison
  | greater
  | less
  | greaterOrEqual
  | lessOrEqual
  | equal
  | notEqual
  deriving DecidableEq, Repr

namespace Comparison

def symbol : Comparison → String
  | greater => ">"
  | less => "<"
  | greaterOrEqual => ">="
  | lessOrEqual => "<="
  | equal => "=="
  | notEqual => "!="

def all : List Comparison :=
  [greater, less, greaterOrEqual, lessOrEqual, equal, notEqual]

def ofSymbol? (s : String) : Option Comparison :=
  all.find? fun op => op.symbol == s

/-- The operator with its sides exchanged. -/
def flipped : Comparison → Comparison
  | greater => less
  | less => greater
  | greaterOrEqual => lessOrEqual
  | lessOrEqual => greaterOrEqual
  | equal => equal
  | notEqual => notEqual

/-- The operator holds when the left side stands in the given order to the right side. -/
def accepts : Comparison → Ordering → Bool
  | greater, o => o == .gt
  | less, o => o == .lt
  | greaterOrEqual, o => o != .lt
  | lessOrEqual, o => o != .gt
  | equal, o => o == .eq
  | notEqual, o => o != .eq

/-- The operator on sides that need not be comparable. -/
def holds (op : Comparison) : Option Ordering → Bool
  | some o => op.accepts o
  | none => op == notEqual

def encode (op : Comparison) : Json :=
  .text op.symbol

def decode? (j : Json) : Option Comparison :=
  j.caseName?.bind ofSymbol?

theorem ofSymbol?_symbol (op : Comparison) : ofSymbol? op.symbol = some op := by
  cases op <;> decide

theorem accepts_flipped (op : Comparison) (o : Ordering) :
    op.flipped.accepts o.swap = op.accepts o := by
  cases op <;> cases o <;> rfl

theorem accepts_notEqual (o : Ordering) : notEqual.accepts o = !equal.accepts o := by
  cases o <;> rfl

end Comparison

namespace Operand

/-- The operand of a value without parts. -/
def ofJson? : Json → Option Operand
  | .null => some .null
  | .bool b => some (.bool b)
  | .int z => some (.number (Decimal.ofInt z))
  | .float x => some (.number x)
  | .text s => some (.text s)
  | .array _ | .object _ | .unreadable => none

/-- How two operands of one kind compare. Texts compare by code points. -/
def compare? : Operand → Operand → Option Ordering
  | .null, .null => some .eq
  | .bool a, .bool b => some (compare a b)
  | .number a, .number b => Decimal.compare? a b
  | .text a, .text b => some (compare a b)
  | .timestamp a, .timestamp b => some (a.compare b)
  | _, _ => none

def encode : Operand → Json
  | .null => .object [("kind", .text "null")]
  | .bool b => .object [("kind", .text "bool"), ("value", .bool b)]
  | .number x => .object [("kind", .text "number"), ("value", .ofFloat x)]
  | .text s => .object [("kind", .text "text"), ("value", .text s)]
  | .timestamp i => .object [("kind", .text "timestamp"), ("value", .ofInstant i)]

/-- The parts of an operand. As an object it may leave its value out. -/
def layout : Json → List Json.Part
  | .object _ => [.required "kind", .defaulted "value"]
  | _ => [.required "kind", .required "value"]

/-- An operand names its kind. Only the null operand may come without a value. -/
def decode? (j : Json) : Option Operand :=
  match j.parts? (layout j) with
  | some [some kind, value] =>
    match kind.caseName?, value with
    | some "null", none => some .null
    | some "null", some .null => some .null
    | some "bool", some v => v.bool?.map .bool
    | some "number", some v => v.float?.map .number
    | some "text", some v => v.text?.map .text
    | some "timestamp", some v => v.instant?.map .timestamp
    | _, _ => none
  | _ => none

end Operand

end Outreach.Segment
