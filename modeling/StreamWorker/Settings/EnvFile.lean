import StreamWorker.Settings.Environment
import StreamWorker.Text.Alphanumeric

/-! Files of variables: lines that bind names to values, as a shell would write them. A value may be
quoted, may go over several lines within quotes, and may refer to other variables. Variables that are
set already keep their values, and everything from the first line on that makes no sense is left out. -/

namespace StreamWorker.EnvFile

/-! ### Lines -/

/-- Where the reading of a line stands as to quotes, escapes and blanks. -/
private inductive Scan where
  | complete
  | blank
  | escape
  | strong
  | strongEscape
  | weak
  | weakEscape
  deriving DecidableEq

private def bare (c : Char) : Scan :=
  if c = '\\' then .escape else if c = '"' then .weak else if c = '\'' then .strong else .complete

/-- The state after a character; none where a comment begins. -/
private def scanChar : Scan → Char → Option Scan
  | .blank, c => if c = '#' then none else some (bare c)
  | .escape, _ => some .complete
  | .complete, c =>
    if Text.blank c ∧ c ≠ '\n' ∧ c ≠ '\r' then some .blank else some (bare c)
  | .weak, c => some (if c = '\\' then .weakEscape else if c = '"' then .complete else .weak)
  | .weakEscape, _ => some .weak
  | .strong, c => some (if c = '\\' then .strongEscape else if c = '\'' then .complete else .strong)
  | .strongEscape, _ => some .strong

/-- The state at the end of a line, or what stands before a comment. -/
private def scanLine : Scan → List Char → List Char → Scan ⊕ List Char
  | st, _, [] => .inl st
  | st, before, c :: cs =>
    match scanChar st c with
    | some st => scanLine st (c :: before) cs
    | none => .inr before.reverse

/-- Cuts a text behind every line break. -/
private def cutLines : List Char → List Char → List (List Char)
  | [], [] => []
  | acc, [] => [acc.reverse]
  | acc, c :: cs => if c = '\n' then (c :: acc).reverse :: cutLines [] cs else cutLines (c :: acc) cs

private def dropBreak (s : List Char) : List Char :=
  match s.reverse with
  | '\n' :: '\r' :: r => r.reverse
  | '\n' :: r => r.reverse
  | _ => s

private def isComment (s : List Char) : Bool := (s.dropWhile Text.blank).head? = some '#'

/-- Puts lines together that one quoted value goes over, and takes comments off. The end of the text
within quotes, or after a blank or a backslash, is a line that makes no sense. -/
private def joinLines : Scan → List Char → List (List Char) → List (Option (List Char))
  | st, _, [] => if st = .complete then [] else [none]
  | st, buffer, l :: ls =>
    if isComment (buffer ++ l) then joinLines .complete [] ls
    else match scanLine st [] l with
      | .inr before => some (buffer ++ before) :: joinLines .complete [] ls
      | .inl .complete => some (dropBreak (buffer ++ l)) :: joinLines .complete [] ls
      | .inl st => joinLines st (buffer ++ l) ls

/-! ### Values -/

private inductive Quote where
  | none
  | strong
  | weak
  deriving DecidableEq

private inductive Reference where
  | none
  | bare
  | braced
  deriving DecidableEq

/-- A value as far as it is read. -/
private structure Draft where
  out : String := ""
  quote : Quote := .none
  escaped : Bool := false
  /-- Whether only blanks and a comment may follow. -/
  ending : Bool := false
  reference : Reference := .none
  name : String := ""

private def closeReference (look : String → String) (p : Draft) : Draft :=
  { p with out := p.out ++ look p.name, name := "", reference := .none }

/-- A character that is not escaped, after a blank, within strong quotes, or within a reference. -/
private def plainChar (p : Draft) (c : Char) : Draft :=
  if c = '$' then { p with reference := .bare }
  else if p.quote = .weak then
    if c = '"' then { p with quote := .none }
    else if c = '\\' then { p with escaped := true }
    else { p with out := p.out.push c }
  else if c = '\'' then { p with quote := .strong }
  else if c = '"' then { p with quote := .weak }
  else if c = '\\' then { p with escaped := true }
  else if c = ' ' ∨ c = '\t' then { p with ending := true }
  else { p with out := p.out.push c }

/-- A character within a reference. A name without braces ends at the first character that is neither
letter nor numeral, which then stands for itself, even a quote. -/
private def referenceChar (look : String → String) (p : Draft) (c : Char) : Draft :=
  if Text.alphanumeric c then { p with name := p.name.push c }
  else if p.reference = .braced then
    if c = '\x7d' then closeReference look p else { p with name := p.name.push c }
  else if c = '\x7b' ∧ p.name.isEmpty then { p with reference := .braced }
  else
    let p := closeReference look p
    if c = '$' then { p with reference := .bare } else { p with out := p.out.push c }

private def escapedChar (p : Draft) (c : Char) : Option Draft :=
  let p := { p with escaped := false }
  if c = '\\' ∨ c = '\'' ∨ c = '"' ∨ c = '$' ∨ c = ' ' then some { p with out := p.out.push c }
  else if c = 'n' then some { p with out := p.out.push '\n' }
  else none

private def valueChars (look : String → String) : Draft → List Char → Option Draft
  | p, [] => some p
  | p, c :: cs =>
    if p.ending then
      if c = ' ' ∨ c = '\t' then valueChars look p cs
      else if c = '#' then some p
      else none
    else if p.escaped then
      match escapedChar p c with
      | some p => valueChars look p cs
      | none => none
    else if p.quote = .strong then
      valueChars look (if c = '\'' then { p with quote := .none } else { p with out := p.out.push c }) cs
    else if p.reference ≠ .none then valueChars look (referenceChar look p c) cs
    else valueChars look (plainChar p c) cs

/-- The value that the rest of a line spells, with references looked up. -/
def value? (look : String → String) (s : List Char) : Option String :=
  match valueChars look {} s with
  | none => none
  | some p =>
    if p.reference = .braced ∨ p.quote ≠ .none then none else some (closeReference look p).out

/-! ### Bindings -/

private def startsName (c : Char) : Bool := c.isAlpha || c = '_'

private def inName (c : Char) : Bool := c.isAlphanum || c = '_' || c = '.'

private def name? (s : List Char) : Option (String × List Char) :=
  if (s.head?.map startsName).getD false then
    some (String.ofList (s.takeWhile inName), (s.dropWhile inName).dropWhile Text.blank)
  else none

private def equals? (s : List Char) : Option (List Char) :=
  match s with
  | '=' :: rest => some (rest.dropWhile Text.blank)
  | _ => none

/-- The name that a line binds, which may have the word `export` in front, and the text of its value. -/
private def binding? (s : List Char) : Option (String × List Char) :=
  match name? s with
  | none => none
  | some (name, rest) =>
    match equals? rest with
    | some value => some (name, value)
    | none =>
      if name = "export" then
        match name? rest with
        | some (name, rest) => (equals? rest).map (name, ·)
        | none => none
      else none

private def trimEnd (s : List Char) : List Char := (s.reverse.dropWhile Text.blank).reverse

/-- The variables that are set, and the values that the lines so far gave. -/
private structure Bindings where
  environment : Environment
  given : Table String String := .empty

private def Bindings.look (b : Bindings) (name : String) : String :=
  match b.environment.text? name with
  | some v => v
  | none => b.given.getD name ""

private def Bindings.set (b : Bindings) (name value : String) : Bindings where
  environment :=
    if (b.environment.text? name).isSome then b.environment
    else b.environment.insert name (Utf8.encode value)
  given := b.given.insert name value

private def readLine (b : Bindings) (line : List Char) : Option Bindings :=
  match (trimEnd line).dropWhile Text.blank with
  | [] => some b
  | '#' :: _ => some b
  | s =>
    match binding? s with
    | none => none
    | some (name, []) => some (b.set name "")
    | some (name, '#' :: _) => some (b.set name "")
    | some (name, rest) => (value? b.look rest).map (b.set name)

private def readLines : Bindings → List (Option (List Char)) → Bindings
  | b, [] => b
  | b, none :: _ => b
  | b, some line :: rest =>
    match readLine b line with
    | some b => readLines b rest
    | none => b

private def dropMark (s : List Char) : List Char :=
  match s with
  | '\uFEFF' :: rest => rest
  | _ => s

/-- The environment with the variables of a file added to it. -/
def load (env : Environment) (file : String) : Environment :=
  (readLines { environment := env } (joinLines .complete [] (cutLines [] (dropMark file.toList)))).environment

end StreamWorker.EnvFile
