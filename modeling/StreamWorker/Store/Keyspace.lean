import StreamWorker.Breakdown
import StreamWorker.Table
import StreamWorker.Time.Instant

/-! Plain keys that expire. Nothing is ever removed: a record counts as absent from the instant on at
which its time is up, and every look at a key compares that instant with the clock. -/

namespace StreamWorker

/-- A key as last written. -/
structure KeyRecord where
  value : String
  ttl : Duration
  writtenAt : Nat
  deriving Repr, DecidableEq

/-- Whether the record is still there; no answer if its expiry is past the end of the clock. -/
def KeyRecord.live (r : KeyRecord) (limit now : Nat) : Except Breakdown Bool :=
  match Instant.after? limit r.writtenAt r.ttl with
  | some expiry => .ok (now < expiry)
  | none => .error .beyondClock

structure Keyspace where
  /-- The first instant that is past the end of the clock. -/
  limit : Nat := Instant.range
  records : Table String KeyRecord := .empty
  /-- How often each key was written. -/
  writes : Table String Nat := .empty
  deriving Repr, DecidableEq

namespace Keyspace

/-- The record under a key, unless it has expired. -/
def look (ks : Keyspace) (now : Nat) (key : String) : Except Breakdown (Option KeyRecord) :=
  match ks.records.get? key with
  | none => .ok none
  | some r => (r.live ks.limit now).map fun live => if live then some r else none

def put (ks : Keyspace) (now : Nat) (key value : String) (ttl : Duration) : Keyspace :=
  { ks with
    records := ks.records.insert key ⟨value, ttl, now⟩
    writes := ks.writes.insert key (ks.writes.getD key 0 + 1) }

/-- How often a key was written. -/
def writeCount (ks : Keyspace) (key : String) : Nat := ks.writes.getD key 0

/-- Writes a key only if nothing is there, and says whether it did. -/
def claim (ks : Keyspace) (now : Nat) (key value : String) (ttl : Duration) :
    Except Breakdown (Keyspace × Bool) :=
  (ks.look now key).map fun
    | some _ => (ks, false)
    | none => (ks.put now key value ttl, true)

end Keyspace

end StreamWorker
