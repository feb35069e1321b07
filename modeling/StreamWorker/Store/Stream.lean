import StreamWorker.Breakdown
import StreamWorker.Store.Operation

/-! Streams of entries and the groups that share them. Entries stay in the order of their addition. A
group has a place in the stream, before which everything has been given to some member, and the ids
that were given out and not yet acknowledged. -/

namespace StreamWorker

structure Group where
  /-- The number of entries, from the beginning of the stream, that were given out or passed over. -/
  next : Nat
  /-- Ids given out and not acknowledged, with the member that has them. -/
  pending : Table String String := .empty
  deriving Repr, DecidableEq

/-- Ids are made of a time in milliseconds and a number: the time never goes back, and the number
counts the entries of the same time. -/
structure Stream where
  entries : List Entry := []
  groups : Table String Group := .empty
  lastMillis : Nat := 0
  number : Nat := 0
  deriving Repr, DecidableEq

namespace Stream

instance : Inhabited Stream := ⟨{}⟩

/-- The text of an id. -/
def idText (millis number : Nat) : String := s!"{millis}-{number}"

/-- The time and the number of the next id, when the clock shows `clock` milliseconds. -/
def nextId (s : Stream) (clock : Nat) : Nat × Nat :=
  if s.lastMillis < clock then (clock, 0) else (s.lastMillis, s.number + 1)

/-- Adds an entry and gives its id. Of two fields of one name the later one stays. -/
def append (s : Stream) (clock : Nat) (fields : List (String × Bytes)) : Stream × String :=
  let (millis, number) := s.nextId clock
  let id := idText millis number
  ({ s with
      entries := s.entries ++ [⟨id, .ofList fields⟩]
      lastMillis := millis
      number }, id)

/-- A new group starts at the end of the stream; an old one stays as it is. -/
def createGroup (s : Stream) (group : String) : Stream :=
  match s.groups.get? group with
  | some _ => s
  | none => { s with groups := s.groups.insert group { next := s.entries.length } }

/-- Where a read of `count` entries from place `next` ends in a stream of `length` entries. The place and
the count are added before the end of the stream is looked at, and the sum has to fit into 64 bits. -/
def readEnd (length next : Nat) (count : UInt64) : Except Breakdown Nat :=
  let stop := next + (max count 1).toNat
  if stop < UInt64.size then .ok (min length stop) else .error .beyondCount

/-- The ids that are marked as given to a member. -/
def markPending (pending : Table String String) (member : String) (entries : List Entry) :
    Table String String :=
  entries.foldl (fun t e => t.insert e.id member) pending

/-- The next entries of a group, given to a member, or nothing if there are none. -/
def take (s : Stream) (group : Group) (member : String) (count : UInt64) :
    Except Breakdown (Option (Group × List Entry)) :=
  (readEnd s.entries.length group.next count).map fun stop =>
    if stop ≤ group.next then none
    else
      let given := (s.entries.take stop).drop group.next
      some ({ next := stop, pending := markPending group.pending member given }, given)

/-- The ids that a group has given out and that are not acknowledged, in order. -/
def pendingIds (s : Stream) (group : String) : List String :=
  match s.groups.get? group with
  | none => []
  | some g => g.pending.keys.mergeSort (fun a b => a ≤ b)

/-- Takes an id off a group's pending ids, if it is one of them. -/
def acknowledge? (s : Stream) (group id : String) : Option Stream :=
  match s.groups.get? group with
  | none => none
  | some g =>
    if g.pending.contains id then
      some { s with groups := s.groups.insert group { g with pending := g.pending.erase id } }
    else none

end Stream

end StreamWorker
