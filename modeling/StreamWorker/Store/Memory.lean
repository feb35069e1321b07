import StreamWorker.Store.Keyspace
import StreamWorker.Store.Stream

/-! A store held in memory, for one process. Operations can be made to fail or to stall, and the answer
to the next read can be given in advance. A read is noted before anything can go wrong with it; apart
from that, an operation that fails or stalls changes nothing. -/

namespace StreamWorker

/-- The operations that can be made to go wrong. -/
inductive FaultPoint where
  | set
  | claim
  | get
  | read
  | acknowledge
  deriving Repr, DecidableEq

structure Store where
  keys : Keyspace := {}
  streams : Table String Stream := .empty
  /-- Operations that fail, with the reason. -/
  failing : Table FaultPoint String := .empty
  /-- Operations that never come to an end. -/
  stalled : List FaultPoint := []
  /-- Answers given in advance, the next one first. -/
  scripted : List (Option (List Batch)) := []
  /-- Every id acknowledged while it was pending, in order. -/
  acknowledged : List String := []
  lastRead : Option ReadRequest := none
  deriving Repr, DecidableEq

/-- How an operation ends: with an answer, with a failure, not at all, or by breaking the call. -/
inductive Response (α : Type) where
  | answer (a : α)
  | failure (f : Failure)
  | stalled
  | broken (b : Breakdown)
  deriving Repr, DecidableEq

namespace Store

/-- A store in which there is nothing yet, on a clock that ends at an instant. -/
def new (limit : Nat) : Store := { keys := { limit } }

/-! ### Faults -/

def fail (s : Store) (p : FaultPoint) (reason : String) : Store :=
  { s with failing := s.failing.insert p reason }

def stall (s : Store) (p : FaultPoint) : Store :=
  { s with stalled := p :: s.stalled }

def clearFaults (s : Store) (p : FaultPoint) : Store :=
  { s with failing := s.failing.erase p, stalled := s.stalled.filter (· ≠ p) }

/-- Goes on with an operation unless it is made to stall or, if not that, to fail. -/
def gate {α : Type} (s : Store) (p : FaultPoint) (go : Store → Store × Response α) :
    Store × Response α :=
  if p ∈ s.stalled then (s, .stalled)
  else match s.failing.get? p with
    | some reason => (s, .failure (.store reason))
    | none => go s

/-- Gives an answer in advance. -/
def script (s : Store) (answer : Option (List Batch)) : Store :=
  { s with scripted := s.scripted ++ [answer] }

/-! ### Keys -/

def set (s : Store) (now : Nat) (key value : String) (ttl : Duration) :
    Store × Response Unit :=
  s.gate .set fun s => ({ s with keys := s.keys.put now key value ttl }, .answer ())

def claim (s : Store) (now : Nat) (key value : String) (ttl : Duration) :
    Store × Response Bool :=
  s.gate .claim fun s =>
    match s.keys.claim now key value ttl with
    | .ok (keys, created) => ({ s with keys }, .answer created)
    | .error b => (s, .broken b)

def get (s : Store) (now : Nat) (key : String) : Store × Response (Option String) :=
  s.gate .get fun s =>
    match s.keys.look now key with
    | .ok r => (s, .answer (r.map (·.value)))
    | .error b => (s, .broken b)

/-! ### Streams -/

def noGroup (stream group : String) : Failure :=
  .store ("NOGROUP no such key '" ++ stream ++ "' or consumer group '" ++ group ++ "'")

/-- The next entries of the group, from the stream itself. -/
def deliver (s : Store) (r : ReadRequest) : Store × Response (Option (List Batch)) :=
  match s.streams.get? r.stream with
  | none => (s, .failure (noGroup r.stream r.group))
  | some stream =>
    match stream.groups.get? r.group with
    | none => (s, .failure (noGroup r.stream r.group))
    | some group =>
      match stream.take group r.member r.count with
      | .error b => (s, .broken b)
      | .ok none => (s, .answer none)
      | .ok (some (group, given)) =>
        let stream := { stream with groups := stream.groups.insert r.group group }
        ({ s with streams := s.streams.insert r.stream stream },
          .answer (some [⟨r.stream, given⟩]))

/-- An answer given in advance goes before the streams. -/
def read (s : Store) (r : ReadRequest) : Store × Response (Option (List Batch)) :=
  gate { s with lastRead := some r } .read fun s =>
    match s.scripted with
    | reply :: rest => ({ s with scripted := rest }, .answer reply)
    | [] => s.deliver r

def acknowledge (s : Store) (stream group id : String) : Store × Response UInt64 :=
  s.gate .acknowledge fun s =>
    match (s.streams.get? stream).bind (fun st => st.acknowledge? group id) with
    | none => (s, .answer 0)
    | some st =>
      ({ s with
          streams := s.streams.insert stream st
          acknowledged := s.acknowledged ++ [id] }, .answer 1)

def stream (s : Store) (name : String) : Stream := s.streams.getD name {}

def createGroup (s : Store) (stream group : String) : Store × Response Unit :=
  ({ s with streams := s.streams.insert stream ((s.stream stream).createGroup group) }, .answer ())

def append (s : Store) (clock : Nat) (stream : String) (fields : List (String × Bytes)) :
    Store × Response String :=
  let (st, id) := (s.stream stream).append clock fields
  ({ s with streams := s.streams.insert stream st }, .answer id)

/-- The ids pending in a group, in order. -/
def pending (s : Store) (stream group : String) : List String :=
  (s.stream stream).pendingIds group

/-- Performs an operation at an instant at which the wall clock shows `clock` milliseconds. -/
def perform (s : Store) (now : Nat) (clock : Nat) :
    (op : Operation) → Store × Response op.Answer
  | .set key value ttl => s.set now key value ttl
  | .claim key value ttl => s.claim now key value ttl
  | .get key => s.get now key
  | .read r => s.read r
  | .acknowledge stream group id => s.acknowledge stream group id
  | .createGroup stream group => s.createGroup stream group
  | .append stream fields => s.append clock stream fields

end Store

end StreamWorker
