import StreamWorker.Text.Utf8

/-! URLs of stores: a scheme, perhaps an authority of user, password, host and port, a path and a query.
The rules are those of the living URL standard for schemes that it does not know; blanks around the
text, and tabs and line breaks within, do not count. -/

namespace StreamWorker.Server

structure Url where
  scheme : String
  user : List Char := []
  password : Option (List Char) := none
  /-- A host name, or an address without its brackets. -/
  host : Option String := none
  port : Option UInt16 := none
  /-- The segments of a path that begins with a slash. -/
  path : Option (List (List Char)) := none
  query : List Char := []
  deriving Repr, DecidableEq

namespace Url

/-- The part of a text before its first character of some kind, and the rest from there on. -/
private def cut (stop : Char → Bool) (s : List Char) : List Char × List Char :=
  (s.takeWhile (!stop ·), s.dropWhile (!stop ·))

/-- The parts between the characters of some kind. -/
private def split (sep : Char) : List Char → List (List Char)
  | [] => [[]]
  | c :: cs =>
    if c = sep then [] :: split sep cs
    else match split sep cs with
      | p :: ps => (c :: p) :: ps
      | [] => [[c]]

/-! ### Addresses -/

private def decimal (c : Char) : Bool := '0' ≤ c && c ≤ '9'

private def hexadecimal (c : Char) : Bool :=
  decimal c || ('a' ≤ c && c ≤ 'f') || ('A' ≤ c && c ≤ 'F')

private def value (ds : List Char) : Nat := ds.foldl (fun n d => n * 10 + (d.toNat - 48)) 0

/-- One of the four numbers of a short address. -/
private def quarter (ds : List Char) : Bool :=
  ds.all decimal && !ds.isEmpty && (ds.length = 1 || ds.head? ≠ some '0') && ds.length ≤ 3
    && value ds ≤ 255

private def shortAddress (s : List Char) : Bool :=
  let parts := split '.' s
  parts.length = 4 && parts.all quarter

/-- The rest of a long address after `n` of its eight pieces, of which one may be a gap. The last two
pieces may be a short address. -/
private def pieces : Nat → Nat → Bool → List Char → Bool
  | 0, n, gap, s => s.isEmpty && (gap || n = 8)
  | _ + 1, n, gap, [] => gap || n = 8
  | fuel + 1, n, gap, ':' :: rest => n ≠ 8 && !gap && pieces fuel (n + 1) true rest
  | fuel + 1, n, gap, s =>
    let digits := (s.take 4).takeWhile hexadecimal
    n ≠ 8 && match s.drop digits.length with
      | [] => pieces fuel (n + 1) gap []
      | '.' :: _ => !digits.isEmpty && n ≤ 6 && shortAddress s && (gap || n = 6)
      | ':' :: rest => !rest.isEmpty && pieces fuel (n + 1) gap rest
      | _ => false

/-- Whether a text is a long address. -/
def longAddress (s : List Char) : Bool :=
  match s with
  | ':' :: ':' :: rest => pieces s.length 1 true rest
  | [] | [_] | ':' :: _ => false
  | _ => pieces s.length 0 false s

/-! ### Authority -/

private def forbidden (c : Char) : Bool :=
  c.toNat = 0 || " #/:<>?@[\\]^|".toList.contains c

/-- A host name as it is, or an address in brackets. -/
private def host? (s : List Char) : Option (List Char) :=
  match s with
  | '[' :: rest =>
    if rest.getLast? = some ']' ∧ longAddress rest.dropLast then some rest.dropLast else none
  | _ => if s.any forbidden then none else some s

/-- The host in front of a port: a colon within brackets does not end it. -/
private def hostSpan : Bool → List Char → List Char × List Char
  | _, [] => ([], [])
  | inside, c :: cs =>
    if c = ':' ∧ !inside then ([], c :: cs)
    else
      let (h, rest) := hostSpan (c = '[' || (inside && c ≠ ']')) cs
      (c :: h, rest)

/-- A port after its colon: digits up to the end, or up to a backslash, which the path begins with. -/
private def port? (s : List Char) : Option (Option UInt16 × List Char) :=
  let digits := s.takeWhile decimal
  let rest := s.dropWhile decimal
  if value digits < 65536 ∧ (rest.isEmpty ∨ rest.head? = some '\\') then
    some (if digits.isEmpty then none else some (.ofNat (value digits)), rest)
  else none

private def isEnd (c : Char) : Bool := c = '/' || c = '?' || c = '#'

/-- User and password in front of the last at sign of an authority, and what follows the sign. -/
private def credentials (authority : List Char) : Option (List Char) × List Char :=
  if authority.contains '@' then
    let (after, before) := cut (· = '@') authority.reverse
    (some (before.drop 1).reverse, after.reverse)
  else (none, authority)

/-! ### Path and query -/

private def lower (s : List Char) : List Char := s.map Char.toLower

private def isDot (s : List Char) : Bool := s = ['.'] || lower s = "%2e".toList

private def isDoubleDot (s : List Char) : Bool :=
  s = "..".toList || lower s = ".%2e".toList || lower s = "%2e.".toList
    || lower s = "%2e%2e".toList

/-- Takes dots out of a path: one dot stands for the place where it is, two for the place above. -/
private def resolve : List (List Char) → List (List Char) → List (List Char)
  | done, [] => done.reverse
  | done, s :: rest =>
    let done := if isDoubleDot s then done.tail else if isDot s then done else s :: done
    resolve (if rest.isEmpty ∧ (isDot s ∨ isDoubleDot s) then [] :: done else done) rest

private def withPath (u : Url) (s : List Char) : Url :=
  let (path, rest) := cut (fun c => c = '?' || c = '#') s
  let query := match rest with
    | '?' :: q => q.takeWhile (· ≠ '#')
    | _ => []
  match path with
  | [] => { u with query }
  | '/' :: p => { u with path := some (resolve [] (split '/' p)), query }
  | p => { u with path := some (resolve [] (split '/' p)), query }

/-! ### Whole URLs -/

private def withAuthority (u : Url) (s : List Char) : Option Url :=
  let (authority, rest) := cut isEnd s
  let (info, hostPort) := credentials authority
  let info := info.getD []
  let user := info.takeWhile (· ≠ ':')
  let password := (info.dropWhile (· ≠ ':')).drop 1
  let named := !user.isEmpty || !password.isEmpty
  let (hostText, portText) := hostSpan false hostPort
  match host? hostText with
  | none => none
  | some h =>
    if h.isEmpty ∧ (!portText.isEmpty ∨ named ∨ (authority = ['@'] ∧ !rest.isEmpty)) then none
    else
      let u := { u with
        user
        password := if password.isEmpty then none else some password
        host := if h.isEmpty then none else some (String.ofList h) }
      match portText with
      | [] => some (u.withPath rest)
      | _ :: p => (port? p).map fun (port, back) => { u with port }.withPath (back ++ rest)

private def schemeChar (c : Char) : Bool :=
  decimal c || ('a' ≤ c && c ≤ 'z') || ('A' ≤ c && c ≤ 'Z') || c = '+' || c = '-' || c = '.'

private def isMargin (c : Char) : Bool := c.toNat ≤ 32

private def clean (s : String) : List Char :=
  let inner := ((s.toList.dropWhile isMargin).reverse.dropWhile isMargin).reverse
  inner.filter fun c => c ≠ '\t' && c ≠ '\n' && c ≠ '\r'

/-- The URL that a text spells, if its scheme is one of the given ones. -/
def parse? (schemes : List String) (text : String) : Option Url :=
  let (scheme, rest) := cut (!schemeChar ·) (clean text)
  match rest with
  | ':' :: rest =>
    let u : Url := { scheme := String.ofList (lower scheme) }
    if u.scheme ∈ schemes then
      match rest with
      | '/' :: '/' :: rest => u.withAuthority rest
      | '/' :: _ => some (u.withPath rest)
      | _ =>
        let opaquePath := u.withPath rest
        some { opaquePath with path := none }
    else none
  | _ => none

/-! ### Queries -/

private def formText (s : List Char) : Bytes :=
  Utf8.encode (String.ofList (s.map fun c => if c = '+' then ' ' else c))

/-- The names and values of a query, still percent-encoded. -/
def parameters (u : Url) : List (Bytes × Bytes) :=
  ((split '&' u.query).filter (!·.isEmpty)).map fun p =>
    let (name, value) := cut (· = '=') p
    (formText name, formText (value.drop 1))

end Url

end StreamWorker.Server
