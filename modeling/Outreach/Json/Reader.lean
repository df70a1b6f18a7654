import Outreach.Json.Token

/-!
# Reading data texts

The tokens of a text are assembled into one value, with the containers that are still open kept on
a stack. A text holds exactly one value. Objects keep their fields in the order of the text, so a
name given twice is still seen twice.

Values may nest 127 deep. A container inside so many others, an object with a name that has no
value, and a text or number without one are unreadable, but they must follow the grammar.
-/

namespace Outreach.Json

/-- An open container, its parts so far standing last first. An object also holds the name whose
value is being read. -/
inductive Frame
  | array (items : List Json)
  | object (fields : List (String × Json)) (name : String)
  /-- A container that is unreadable. Its parts are dropped. -/
  | skipped (isObject : Bool)

/-- What may come next. -/
inductive Expecting
  | value
  /-- An item or the end, directly after an array has been opened. -/
  | firstItem
  /-- A name or the end, directly after an object has been opened. -/
  | firstName
  | name
  | colon
  /-- A comma or the end of the innermost container. -/
  | more
  | nothing (j : Json)

structure Assembly where
  stack : List Frame
  expecting : Expecting

namespace Assembly

def start : Assembly :=
  ⟨[], .value⟩

def maxDepth : Nat := 127

/-- A value has been completed inside the given containers. -/
def complete (j : Json) : List Frame → Assembly
  | [] => ⟨[], .nothing j⟩
  | .array items :: rest => ⟨.array (j :: items) :: rest, .more⟩
  | .object fields name :: rest => ⟨.object ((name, j) :: fields) name :: rest, .more⟩
  | .skipped isObject :: rest => ⟨.skipped isObject :: rest, .more⟩

/-- As many containers are open as may be. -/
def isFull (stack : List Frame) : Bool :=
  stack[maxDepth - 1]?.isSome

def openArray (stack : List Frame) : Assembly :=
  ⟨(if isFull stack then .skipped false else .array []) :: stack, .firstItem⟩

def openObject (stack : List Frame) : Assembly :=
  ⟨(if isFull stack then .skipped true else .object [] "") :: stack, .firstName⟩

def value? (stack : List Frame) : Token → Option Assembly
  | .scalar j => some (complete j stack)
  | .text (some s) => some (complete (.text s) stack)
  | .text none => some (complete .unreadable stack)
  | .openArray => some (openArray stack)
  | .openObject => some (openObject stack)
  | _ => none

def name? (stack : List Frame) : Token → Option Assembly
  | .text s =>
    match s, stack with
    | some s, .object fields _ :: rest => some ⟨.object fields s :: rest, .colon⟩
    | none, .object _ _ :: rest => some ⟨.skipped true :: rest, .colon⟩
    | _, .skipped true :: rest => some ⟨.skipped true :: rest, .colon⟩
    | _, _ => none
  | _ => none

def close? (stack : List Frame) : Token → Option Assembly
  | .closeArray =>
    match stack with
    | .array items :: rest => some (complete (.array items.reverse) rest)
    | .skipped false :: rest => some (complete .unreadable rest)
    | _ => none
  | .closeObject =>
    match stack with
    | .object fields _ :: rest => some (complete (.object fields.reverse) rest)
    | .skipped true :: rest => some (complete .unreadable rest)
    | _ => none
  | .comma =>
    match stack with
    | .array items :: rest => some ⟨.array items :: rest, .value⟩
    | .object fields name :: rest => some ⟨.object fields name :: rest, .name⟩
    | .skipped isObject :: rest =>
      some ⟨.skipped isObject :: rest, if isObject then .name else .value⟩
    | [] => none
  | _ => none

def feed? (a : Assembly) (t : Token) : Option Assembly :=
  match a.expecting with
  | .value => value? a.stack t
  | .firstItem =>
    match t with
    | .closeArray => close? a.stack t
    | _ => value? a.stack t
  | .firstName =>
    match t with
    | .closeObject => close? a.stack t
    | _ => name? a.stack t
  | .name => name? a.stack t
  | .colon =>
    match t with
    | .colon => some { a with expecting := .value }
    | _ => none
  | .more => close? a.stack t
  | .nothing _ => none

def result? (a : Assembly) : Option Json :=
  match a.expecting with
  | .nothing j => some j
  | _ => none

end Assembly

/-- The value of a data text, with the fields of objects as they are written and with what has no
value as unreadable. -/
def read? (s : String) : Option Json := do
  let tokens ← tokens? s
  let assembly ← tokens.foldlM Assembly.feed? Assembly.start
  assembly.result?

end Outreach.Json
