import StreamWorker.Server.Command

/-! How commands and replies travel: a mark, a number or a line, and bytes of a length that was told
before. A reply is read from the bytes received so far, which may not yet hold all of it. -/

namespace StreamWorker.Server.Wire

def code (c : Char) : UInt8 := .ofNat c.toNat

def lineEnd : Bytes := [13, 10]

def header (mark : Char) (n : Nat) : Bytes :=
  code mark :: Utf8.encode (toString n) ++ lineEnd

/-- A command as it travels. -/
def encode (c : Command) : Bytes :=
  header '*' c.length ++ c.flatMap fun w => header '$' w.length ++ w ++ lineEnd

/-- What the bytes received so far tell. -/
inductive Received where
  | reply (r : Reply) (rest : Bytes)
  /-- More bytes are needed. -/
  | unfinished
  /-- No bytes can make sense of these. -/
  | broken
  deriving Repr

/-- The bytes before the first end of a line, and those after it. -/
def line? : Bytes → Option (Bytes × Bytes)
  | 13 :: 10 :: rest => some ([], rest)
  | b :: rest => (line? rest).map fun (l, rest) => (b :: l, rest)
  | [] => none

def whole? (l : Bytes) : Option Int := (Utf8.decode? l).bind String.toInt?

private def finish (make : String → Reply) (l rest : Bytes) : Received :=
  match Utf8.decode? l with
  | some s => .reply (make s) rest
  | none => .broken

def bulk (l rest : Bytes) : Received :=
  match whole? l with
  | some (.ofNat n) =>
    if rest.length < n + 2 then .unfinished
    else if (rest.drop n).take 2 = lineEnd then .reply (.bulk (rest.take n)) (rest.drop (n + 2))
    else .broken
  | some _ => .reply .nil rest
  | none => .broken

mutual

/-- The first reply in the bytes. A reply takes at least one byte more than any part of it. -/
def readReply : Nat → Bytes → Received
  | 0, _ | _, [] => .unfinished
  | fuel + 1, mark :: s =>
    match line? s with
    | none => .unfinished
    | some (l, rest) =>
      if mark = code '+' then finish .status l rest
      else if mark = code '-' then finish .refusal l rest
      else if mark = code ':' then
        match whole? l with
        | some n => .reply (.integer n) rest
        | none => .broken
      else if mark = code '$' then bulk l rest
      else if mark = code '*' then
        match whole? l with
        | some (.ofNat n) => readItems fuel n [] rest
        | some _ => .reply .nil rest
        | none => .broken
      else .broken

/-- The list that begins with the items read before and goes on with `n` more. -/
def readItems : Nat → Nat → List Reply → Bytes → Received
  | _, 0, before, s => .reply (.array before.reverse) s
  | 0, _, _, _ => .unfinished
  | fuel + 1, n + 1, before, s =>
    match readReply fuel s with
    | .reply r rest => readItems fuel n (r :: before) rest
    | .unfinished => .unfinished
    | .broken => .broken

end

/-- The first reply in the bytes received so far. -/
def read (s : Bytes) : Received := readReply (2 * s.length + 1) s

end StreamWorker.Server.Wire
