import StreamWorker.Telemetry.Directive

/-! Filters for records: directives with commas between them. Of the directives whose target begins the
target of a record, the most specific one decides, and of two that are equally specific the later one.
A filter that says nothing keeps errors only. -/

namespace StreamWorker.Telemetry

abbrev Filter := List Directive

namespace Filter

/-- Whether the first directive is at least as specific as the second one. -/
private def specific (a b : Directive) : Bool :=
  let size (d : Directive) : Nat := match d.target with
    | none => 0
    | some t => t.utf8ByteSize + 1
  let names (d : Directive) := d.fields.map (·.name)
  if size a ≠ size b then size b < size a
  else if a.fields.length ≠ b.fields.length then b.fields.length < a.fields.length
  else ¬ names a < names b

private def applies (target : String) (d : Directive) : Bool :=
  d.onRecords && match d.target with
    | none => true
    | some t => t.toList.isPrefixOf target.toList

/-- The directive that decides on records of a target. -/
def decisive (f : Filter) (target : String) : Option Directive :=
  (f.filter (applies target)).foldl (fun best d =>
    match best with
    | none => some d
    | some b => if specific d b then some d else some b) none

/-- Whether records of a target and a level are kept outside of all spans. -/
def keeps (f : Filter) (target : String) (level : Level) : Bool :=
  match f.decisive target with
  | some d => d.threshold.keeps level
  | none => false

/-- A filter of the given directives, or of the one that keeps errors if there are none. -/
def ofDirectives (ds : List Directive) : Filter :=
  if ds.isEmpty then [{ threshold := some .error }] else ds

private def parts (s : String) : List String := s.splitOn ","

/-- A filter every part of which is a directive. -/
def readStrict? (s : String) : Option Filter :=
  if s.isEmpty then some (ofDirectives [])
  else ((parts s).mapM fun p => (Directive.read p).toOption).map ofDirectives

/-- The parts of a text that are no directives, each with the reason. -/
def complaints (s : String) : List String :=
  ((parts s).filter (!·.isEmpty)).filterMap fun p =>
    match Directive.read p with
    | .ok _ => none
    | .error fault => some ("ignoring \x60" ++ p ++ "\x60: " ++ fault.message)

/-- A filter of the parts of a text that are directives. -/
def read (s : String) : Filter :=
  ofDirectives (((parts s).filter (!·.isEmpty)).filterMap fun p => (Directive.read p).toOption)

/-- The filter of a process, and the complaints about it: that of the environment, if it can be read,
and else that of the settings. -/
def choose (environment : Option String) (settings : String) : Filter × List String :=
  match environment.bind readStrict? with
  | some f => (f, [])
  | none => (read settings, complaints settings)

end Filter

end StreamWorker.Telemetry
