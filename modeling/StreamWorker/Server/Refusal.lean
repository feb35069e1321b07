/-! Refusals: the line by which a server turns a command down. Its first word is a code. Some codes are
known to every client, and their refusals are told by what the code stands for; any other code speaks
for itself. -/

namespace StreamWorker.Server

/-- A refusal, as its code and what follows it after a space. -/
structure Refusal where
  code : String
  detail : Option String
  deriving Repr, DecidableEq

namespace Refusal

private def spaceSplit : List Char → List Char × Option (List Char)
  | [] => ([], none)
  | c :: cs =>
    if c = ' ' then ([], some cs)
    else
      let (code, detail) := spaceSplit cs
      (c :: code, detail)

/-- The refusal that a line tells. -/
def ofLine (line : String) : Refusal :=
  let (code, detail) := spaceSplit line.toList
  ⟨String.ofList code, detail.map String.ofList⟩

/-- What the codes that every client knows stand for. -/
def meaning? (code : String) : Option String :=
  match code with
  | "ERR" => some "ResponseError"
  | "EXECABORT" => some "ExecAbortError"
  | "LOADING" => some "BusyLoadingError"
  | "NOSCRIPT" => some "NoScriptError"
  | "MOVED" => some "Moved"
  | "ASK" => some "Ask"
  | "TRYAGAIN" => some "TryAgain"
  | "CLUSTERDOWN" => some "ClusterDown"
  | "CROSSSLOT" => some "CrossSlot"
  | "MASTERDOWN" => some "MasterDown"
  | "READONLY" => some "ReadOnly"
  | "NOTBUSY" => some "NotBusy"
  | _ => none

def message (r : Refusal) : String :=
  match meaning? r.code, r.detail with
  | some kind, some detail => "An error was signalled by the server - " ++ kind ++ ": " ++ detail
  | some kind, none => "An error was signalled by the server- " ++ kind
  | none, some detail => r.code ++ ": " ++ detail
  | none, none => r.code ++ ": Unknown extension error encountered"

end Refusal

end StreamWorker.Server
