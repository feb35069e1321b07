import StreamWorker.Server.Url
import StreamWorker.Text.Numeral
import StreamWorker.Text.Percent

/-! Where a store is, and how to introduce oneself there. An address is written as a URL, either of a
host on the network or of a socket in the file system. Connections cannot be encrypted. -/

namespace StreamWorker.Server

inductive Address.Place where
  | network (host : String) (port : UInt16)
  | socket (path : Bytes)
  deriving Repr, DecidableEq

structure Address where
  place : Address.Place
  database : Int
  user : Option String
  password : Option String
  /-- The version of the protocol, two or three. -/
  version : Nat
  deriving Repr, DecidableEq

namespace Address

/-- Why a text is no usable address. -/
inductive Fault where
  | unreadable
  | noHost
  | noPath
  | encrypted
  | badDatabase
  | badUser
  | badPassword
  | badVersion (text : String)
  deriving Repr, DecidableEq

def Fault.message : Fault → String
  | .unreadable => "Redis URL did not parse- InvalidClientConfig"
  | .noHost => "Missing hostname- InvalidClientConfig"
  | .noPath => "Missing path- InvalidClientConfig"
  | .encrypted => "can't connect with TLS, the feature is not enabled- InvalidClientConfig"
  | .badDatabase => "Invalid database number- InvalidClientConfig"
  | .badUser => "Username is not valid UTF-8 string- InvalidClientConfig"
  | .badPassword => "Password is not valid UTF-8 string- InvalidClientConfig"
  | .badVersion text => "Invalid protocol version - InvalidClientConfig: " ++ text

def defaultPort : UInt16 := 6379

private def networkSchemes : List String := ["redis", "rediss"]

private def socketSchemes : List String := ["unix", "redis+unix"]

/-- A whole number of 64 bits, with an optional sign. -/
def signed? (s : String) : Option Int :=
  match s.toList with
  | '-' :: '+' :: _ => none
  | '-' :: ds =>
    ((Numeral.readBelow (UInt64.size / 2 + 1) (String.ofList ds)).toOption).map fun n => -(n : Int)
  | _ => ((Numeral.readBelow (UInt64.size / 2) s).toOption).map Int.ofNat

private def trimSlashes (s : List Char) : List Char :=
  ((s.dropWhile (· = '/')).reverse.dropWhile (· = '/')).reverse

/-- The database that the path of a network address names. -/
private def pathDatabase (u : Url) : Except Fault Int :=
  let path := trimSlashes (List.intercalate ['/'] (u.path.getD []))
  if path.isEmpty then .ok 0
  else match signed? (String.ofList path) with
    | some n => .ok n
    | none => .error .badDatabase

private def plain (s : List Char) : Bytes := Percent.decode (Utf8.encode (String.ofList s))

private def text (fault : Fault) (s : List Char) : Except Fault String :=
  match Utf8.decode? (plain s) with
  | some t => .ok t
  | none => .error fault

private def optionalText (fault : Fault) : Option (List Char) → Except Fault (Option String)
  | none => .ok none
  | some s => (text fault s).map some

/-- The parameters of the query, the later of two with one name winning. -/
private def parameters (u : Url) : List (String × String) :=
  (u.parameters.map fun p => (Utf8.mend (Percent.decode p.1), Utf8.mend (Percent.decode p.2))).reverse

private def versionOf (ps : List (String × String)) : Except Fault Nat :=
  match ps.lookup "protocol" with
  | none | some "2" | some "resp2" => .ok 2
  | some "3" | some "resp3" => .ok 3
  | some t => .error (.badVersion t)

private def ofNetwork (u : Url) : Except Fault Address := do
  let some host := u.host | .error .noHost
  if u.scheme = "rediss" then .error .encrypted
  let database ← pathDatabase u
  let user ← if u.user.isEmpty then pure none else (text .badUser u.user).map some
  let password ← optionalText .badPassword u.password
  let version ← versionOf (parameters u)
  return ⟨.network host (u.port.getD defaultPort), database, user, password, version⟩

private def ofSocket (u : Url) : Except Fault Address := do
  let some segments := u.path | .error .noPath
  if u.host ≠ none ∧ u.host ≠ some "localhost" then .error .noPath
  let path := segments.flatMap fun s => Utf8.encode "/" ++ plain s
  let ps := parameters u
  let database ← match ps.lookup "db" with
    | none => pure 0
    | some t =>
      match signed? t with
      | some n => pure n
      | none => .error .badDatabase
  let version ← versionOf ps
  return ⟨.socket path, database, ps.lookup "user", ps.lookup "pass", version⟩

/-- The address that a text spells. -/
def read (s : String) : Except Fault Address :=
  match Url.parse? (networkSchemes ++ socketSchemes) s with
  | none => .error .unreadable
  | some u => if u.scheme ∈ networkSchemes then ofNetwork u else ofSocket u

end Address

end StreamWorker.Server
