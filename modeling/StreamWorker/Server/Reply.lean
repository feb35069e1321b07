import StreamWorker.Server.Refusal
import StreamWorker.Table
import StreamWorker.Text.Numeral
import StreamWorker.Text.Utf8

/-! What a server answers to a command, and how an answer is read as the kind of value that the command
calls for. Readers are generous: nothing at all reads as an empty list, a number as its decimal text,
and a text of digits as a number. A refusal anywhere within an answer refuses the whole command. -/

namespace StreamWorker.Server

inductive Reply where
  | status (s : String)
  /-- A line that turns the command, or a part of it, down. -/
  | refusal (line : String)
  | integer (n : Int)
  | bulk (b : Bytes)
  | nil
  | array (items : List Reply)
  deriving Repr, Inhabited

/-- Why a reply gives no answer to a command. -/
inductive Fault where
  | refused (r : Refusal)
  /-- The reply is of a kind that the command does not answer. -/
  | incompatible
  /-- The reply is a text, but its bytes spell none. -/
  | garbled
  /-- A part of the reply is a text or a numeral, but its bytes spell none. -/
  | garbledPart
  deriving Repr, DecidableEq

def Fault.message : Fault → String
  | .refused r => r.message
  | .incompatible => "Response was of incompatible type"
  | .garbled => "Cannot convert from UTF-8- TypeError"
  | .garbledPart => "Invalid UTF-8- TypeError"

namespace Reply

mutual

/-- The first refusal within a reply. -/
def refusal? : Reply → Option Refusal
  | .refusal line => some (.ofLine line)
  | .array items => firstRefusal items
  | _ => none

def firstRefusal : List Reply → Option Refusal
  | [] => none
  | r :: rs =>
    match r.refusal? with
    | some found => some found
    | none => firstRefusal rs

end

/-- The reply itself, unless something in it was refused. -/
def accepted (r : Reply) : Except Fault Reply :=
  match r.refusal? with
  | some found => .error (.refused found)
  | none => .ok r

/-- A reply as text; `fault` is reported of bytes that spell none. -/
def textOr (fault : Fault) : Reply → Except Fault String
  | .status s => .ok s
  | .integer n => .ok (toString n)
  | .bulk b =>
    match Utf8.decode? b with
    | some s => .ok s
    | none => .error fault
  | _ => .error .incompatible

/-- A whole reply as text. -/
def text : Reply → Except Fault String := textOr .garbled

/-- A part of a reply as text. -/
def part : Reply → Except Fault String := textOr .garbledPart

/-- A reply as a number below `bound`. An integer wraps around; a text has to spell such a number. -/
def number (bound : Nat) : Reply → Except Fault Nat
  | .integer n => .ok (n % bound).toNat
  | .status s => numeral s
  | .bulk b =>
    match Utf8.decode? b with
    | some s => numeral s
    | none => .error .garbledPart
  | _ => .error .incompatible
where
  numeral (s : String) : Except Fault Nat :=
    match Numeral.readBelow bound s with
    | .ok n => .ok n
    | .error _ => .error .incompatible

/-- A reply as a count. -/
def count (r : Reply) : Except Fault UInt64 := (number UInt64.size r).map UInt64.ofNat

/-- A reply that may be nothing. -/
def optional {α : Type} (read : Reply → Except Fault α) : Reply → Except Fault (Option α)
  | .nil => .ok none
  | r => (read r).map some

/-- A reply as a list. -/
def list {α : Type} (read : Reply → Except Fault α) : Reply → Except Fault (List α)
  | .nil => .ok []
  | .array items => items.mapM read
  | _ => .error .incompatible

/-- Puts names and values that alternate into a table. -/
def tabulate {α : Type} (read : Reply → Except Fault α) :
    Table String α → List Reply → Except Fault (Table String α)
  | t, [] => .ok t
  | _, [_] => .error .incompatible
  | t, k :: v :: rest =>
    match k.part with
    | .error fault => .error fault
    | .ok name =>
      match read v with
      | .error fault => .error fault
      | .ok value => tabulate read (t.insert name value) rest

/-- A reply as a table: names and values that alternate. -/
def table {α : Type} (read : Reply → Except Fault α) : Reply → Except Fault (Table String α)
  | .nil => .ok .empty
  | .array items => if items.length % 2 = 0 then tabulate read .empty items else .error .incompatible
  | _ => .error .incompatible

/-- A reply as raw bytes: the bytes of a text, or a list of numbers of one byte each. -/
def bytes : Reply → Except Fault Bytes
  | .bulk b => .ok b
  | .nil => .ok []
  | .array items => items.mapM fun r => (number 256 r).map UInt8.ofNat
  | _ => .error .incompatible

end Reply

end StreamWorker.Server
