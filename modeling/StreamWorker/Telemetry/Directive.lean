import StreamWorker.Text.Alphanumeric
import StreamWorker.Text.Blank
import StreamWorker.Text.Numeral
import StreamWorker.Text.Utf8
import StreamWorker.Worker.Note

/-! Directives: the parts of a filter for records. A directive names a level, up to which records are
kept, and may be restricted to a target, to a span, and to fields. -/

namespace StreamWorker.Telemetry

/-- The least urgent level that is kept; none keeps nothing. -/
abbrev Threshold := Option Level

/-- How little urgent a level is, from one to five. -/
def rank : Level → Nat
  | .error => 1
  | .warn => 2
  | .info => 3
  | .debug => 4
  | .trace => 5

def Threshold.rank : Threshold → Nat
  | none => 0
  | some l => Telemetry.rank l

/-- Whether a threshold keeps records of a level. -/
def Threshold.keeps (t : Threshold) (l : Level) : Bool := Telemetry.rank l ≤ t.rank

/-- A restriction to records with a field, and perhaps to a value of it. -/
structure FieldMatch where
  name : String
  valued : Bool
  deriving Repr, DecidableEq

structure Directive where
  threshold : Threshold := some .trace
  target : Option String := none
  span : Option String := none
  fields : List FieldMatch := []
  deriving Repr, DecidableEq

/-- Why a text is no directive. -/
inductive Directive.Fault where
  | malformed
  | unknownLevel
  deriving Repr, DecidableEq

def Directive.Fault.message : Fault → String
  | .malformed => "invalid filter directive"
  | .unknownLevel =>
    "error parsing level filter: expected one of \"off\", \"error\", "
      ++ "\"warn\", \"info\", \"debug\", \"trace\", or a number 0-5"

/-- The threshold that a text names, in letters of either case or by its rank. -/
def Threshold.named? (s : String) : Option Threshold :=
  match (Numeral.readBelow UInt64.size s).toOption with
  | some 0 => some none
  | some 1 => some (some .error)
  | some 2 => some (some .warn)
  | some 3 => some (some .info)
  | some 4 => some (some .debug)
  | some 5 => some (some .trace)
  | _ =>
    match s.map Char.toLower with
    | "" | "error" => some (some .error)
    | "warn" => some (some .warn)
    | "info" => some (some .info)
    | "debug" => some (some .debug)
    | "trace" => some (some .trace)
    | "off" => some none
    | _ => none

namespace Directive

/-- What is being read, with the place where it began. -/
private inductive Reading where
  | start
  | levelOrTarget (first : Nat)
  | span (first : Nat)
  | field (first : Nat)
  | afterFields
  | afterSpan
  | level (first : Nat)

private def opensTarget (c : Char) : Bool :=
  c = '-' || c = ':' || c = '_' || Text.alphanumeric c

/-- The text between two places. -/
private def piece (whole : Bytes) (first last : Nat) : String :=
  Utf8.mend ((whole.drop first).take (last - first))

private def fieldMatch (s : String) : FieldMatch :=
  let name := s.toList.takeWhile (· ≠ '=')
  ⟨String.ofList name, name.length < s.length⟩

private def addField (d : Directive) (s : String) : Except Fault Directive :=
  if s.isEmpty then .error .malformed else .ok { d with fields := d.fields ++ [fieldMatch s] }

/-- Reads the character at a place. -/
private def readChar (whole : Bytes) (d : Directive) (place : Nat) (c : Char) :
    Reading → Except Fault (Directive × Reading)
  | .start =>
    if c = '[' then .ok (d, .span (place + 1))
    else if opensTarget c then .ok (d, .levelOrTarget place)
    else .error .malformed
  | .levelOrTarget first =>
    if c = '=' then .ok ({ d with target := some (piece whole first place) }, .level (place + 1))
    else if c = '[' then .ok ({ d with target := some (piece whole first place) }, .span (place + 1))
    else .ok (d, .levelOrTarget first)
  | .span first =>
    if c = ']' then .ok ({ d with span := some (piece whole first place) }, .afterSpan)
    else if c = '\x7b' then
      let name := piece whole first place
      .ok ({ d with span := if name.isEmpty then none else some name }, .field (place + 1))
    else .ok (d, .span first)
  | .field first =>
    if c = '\x7d' then (addField d (piece whole first place)).map (·, .afterFields)
    else .ok (d, .field first)
  | .afterFields => if c = ']' then .ok (d, .afterSpan) else .error .malformed
  | .afterSpan => if c = '=' then .ok (d, .level (place + 1)) else .error .malformed
  | .level first => .ok (d, .level first)

private def readChars (whole : Bytes) :
    Directive → Reading → Nat → List Char → Except Fault (Directive × Reading)
  | d, r, _, [] => .ok (d, r)
  | d, r, place, c :: cs =>
    match readChar whole d place c r with
    | .error fault => .error fault
    | .ok (d, r) => readChars whole d r (place + c.utf8Size) cs

/-- The directive that a text without commas spells. A text that names no level is a target, of which
everything is kept. Places are counted from the first character that is not blank, but parts are taken
from the whole text, so that blanks in front shift what is read. -/
def read (s : String) : Except Fault Directive :=
  let whole := Utf8.encode s
  let upToEnd (first : Nat) := piece whole first whole.length
  match readChars whole {} .start 0 (Text.trimList s.toList) with
  | .error fault => .error fault
  | .ok (d, .levelOrTarget first) =>
    match Threshold.named? (upToEnd first) with
    | some threshold => .ok { d with threshold }
    | none => .ok { d with target := some (upToEnd first) }
  | .ok (d, .level first) =>
    if (upToEnd first).isEmpty then .ok d
    else match Threshold.named? (upToEnd first) with
      | some threshold => .ok { d with threshold }
      | none => .error .unknownLevel
  | .ok (d, .afterSpan) => .ok d
  | .ok _ => .error .malformed

/-- Whether a directive can be applied to a record by itself. -/
def onRecords (d : Directive) : Bool := d.span.isNone && !d.fields.any (·.valued)

end Directive

end StreamWorker.Telemetry
