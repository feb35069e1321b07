import StreamWorker.Decimal.Binary64

/-! JSON documents. An object lists its members by increasing name, each name once, so that two
documents with the same content are the same value. -/

namespace StreamWorker.Json

/-- Integers from `-2 ^ 63` to `2 ^ 64 - 1` are kept exactly; every other number is rounded. -/
inductive Number where
  | integer (i : Int)
  | real (x : Binary64)
  deriving Repr, DecidableEq

inductive Value where
  | null
  | bool (b : Bool)
  | number (n : Number)
  | string (s : String)
  | array (items : List Value)
  | object (members : List (String × Value))
  deriving Repr, Inhabited

/-- Binds a name in a list of members that is sorted by name. -/
def bind (k : String) (v : Value) : List (String × Value) → List (String × Value)
  | [] => [(k, v)]
  | (k', v') :: rest =>
    if k = k' then (k, v) :: rest
    else if k < k' then (k, v) :: (k', v') :: rest
    else (k', v') :: bind k v rest

end StreamWorker.Json
