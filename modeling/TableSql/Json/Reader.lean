import TableSql.Json.Symbol

/-!
# Reading JSON

The symbols of a text are read from left to right with a stack of the arrays and objects that are
open. Each symbol either extends the innermost open one or is refused, so a text is read in one
pass and the stack is also the depth of nesting, which has a limit.

Entries are first kept as they are written. In the value that is read they are in the order of
their names, and of two entries with the same name the later one holds.

A text can also be skimmed, by a reader that wants some entries of one object and passes over the
others. These need only have the form of JSON: their numbers may be beyond the range, their strings
may hold half a pair of surrogates, and they may be nested to any depth.

## Main definitions

* `Json.Manner` — reading in full and skimming.
* `Json.Frame`, `Json.Machine`, `Json.Machine.step`.
* `Json.read?`, `Json.skim?` — the value of a text.
-/

namespace TableSql.Json

/-- An array or object that is open: what it holds so far, the last item first, and for an object
the name whose value is being read. -/
inductive Frame where
  | array (items : List Value)
  | object (entries : List (String × Value)) (name : String)

/-- What may come next. -/
inductive Expectation where
  | value
  | valueOrClose
  | commaOrClose
  | nameOrClose
  | name
  | colon
  | nothing
  deriving DecidableEq

/-- The state of reading: the open arrays and objects, innermost first, what may come next, and
the value that is complete. -/
structure Machine where
  stack : List Frame
  next : Expectation
  done : Option Value

/-- The greatest number of arrays and objects that may be open at once. -/
def depthLimit : Nat := 127

/-- How a text is read: in full, or for the entries of the outermost object. -/
inductive Manner where
  | full
  | skimmed
  deriving DecidableEq

namespace Manner

/-- The value of a string or an atom. One without a value is refused in full reading, and it counts
as `false` in skimming. -/
def value? : Manner → Option Value → Option Value
  | full, v => v
  | skimmed, v => some (v.getD (.bool false))

/-- The name of an entry of the innermost of so many arrays and objects. Skimming passes over the
names in inner objects. -/
def name? : Manner → Nat → Option String → Option String
  | full, _, name => name
  | skimmed, depth, name => if depth ≤ 1 then name else some (name.getD "")

/-- Whether an array or object may be opened within so many others. -/
def nests : Manner → Nat → Bool
  | full, depth => depth < depthLimit
  | skimmed, _ => true

end Manner

/-- Before the first symbol. -/
def Machine.start : Machine :=
  ⟨[], .value, none⟩

namespace Machine

/-- Completes a value: it becomes an item or an entry of what is open, or the value of the whole
text. -/
def complete (v : Value) : List Frame → Machine
  | [] => ⟨[], .nothing, some v⟩
  | .array items :: stack => ⟨.array (v :: items) :: stack, .commaOrClose, none⟩
  | .object entries name :: stack =>
    ⟨.object ((name, v) :: entries) name :: stack, .commaOrClose, none⟩

/-- Opens an array or an object, up to the limit of nesting. -/
def openFrame (manner : Manner) (m : Machine) (frame : Frame) (next : Expectation) :
    Option Machine :=
  if manner.nests m.stack.length then some ⟨frame :: m.stack, next, none⟩ else none

/-- Whether a value may come next. -/
def takesValue (m : Machine) : Bool :=
  m.next = .value || m.next = .valueOrClose

/-- Reads one symbol. -/
def step (manner : Manner) (m : Machine) : Symbol → Option Machine
  | .atom v => if m.takesValue then (manner.value? v).map (complete · m.stack) else none
  | .openArray => if m.takesValue then m.openFrame manner (.array []) .valueOrClose else none
  | .openObject => if m.takesValue then m.openFrame manner (.object [] "") .nameOrClose else none
  | .string s =>
    if m.takesValue then (manner.value? (s.map .text)).map (complete · m.stack)
    else
      let named (entries : List (String × Value)) (stack : List Frame) : Option Machine :=
        (manner.name? m.stack.length s).map fun name =>
          ⟨.object entries name :: stack, .colon, none⟩
      match m.next, m.stack with
      | .name, .object entries _ :: stack => named entries stack
      | .nameOrClose, .object entries _ :: stack => named entries stack
      | _, _ => none
  | .colon => if m.next = .colon then some ⟨m.stack, .value, none⟩ else none
  | .comma =>
    match m.next, m.stack with
    | .commaOrClose, .array items :: stack => some ⟨.array items :: stack, .value, none⟩
    | .commaOrClose, .object entries name :: stack =>
      some ⟨.object entries name :: stack, .name, none⟩
    | _, _ => none
  | .closeArray =>
    match m.next, m.stack with
    | .commaOrClose, .array items :: stack => some (complete (.array items.reverse) stack)
    | .valueOrClose, .array items :: stack => some (complete (.array items.reverse) stack)
    | _, _ => none
  | .closeObject =>
    match m.next, m.stack with
    | .commaOrClose, .object entries _ :: stack =>
      some (complete (.object entries.reverse) stack)
    | .nameOrClose, .object entries _ :: stack =>
      some (complete (.object entries.reverse) stack)
    | _, _ => none

/-- Reads a list of symbols. -/
def run (manner : Manner) (m : Machine) : List Symbol → Option Machine
  | [] => some m
  | symbol :: symbols => (m.step manner symbol).bind fun m => m.run manner symbols

end Machine

/-- The value of a text with the entries of its objects as they are written, repeated names
included; `none` for a text that is not one JSON value. -/
def readAsWritten? (manner : Manner) (s : String) : Option Value :=
  ((symbols? s.toList).bind (Machine.start.run manner)).bind Machine.done

/-- The value of a text, or `none` for a text that is not one JSON value. -/
def read? (s : String) : Option Value :=
  (readAsWritten? .full s).map Value.ordered

/-- The value of a text that is skimmed, or `none` for a text that does not have the form of one
JSON value. -/
def skim? (s : String) : Option Value :=
  readAsWritten? .skimmed s

end TableSql.Json
