import ImportGroups.Grouping
import ImportGroups.Source.Outline

/-!
The imports of a Go source.

Only the header of a file counts: its package clause, and the import declarations before the first
other item. A fault makes the imports unknown if it lies in the header, or if it is an import
declaration that was begun there and not finished. Faults further down do no harm.
-/

namespace ImportGroups

open Text (Bytes)
open Source (Event Spot)

/-- Why the imports of a source cannot be read. -/
inductive SourceError where
  | noPackageClause
  /-- A syntax error in the header; lines count from one. -/
  | syntaxError (line : Nat)
  deriving DecidableEq, Repr

def SourceError.message : SourceError → String
  | noPackageClause => "failed to parse file: expected 'package' clause"
  | syntaxError line => "failed to parse file: syntax error at line " ++ toString line

/-- The text inside a pair of quotes or of backquotes; any other text as it is. -/
def unquote (literal : List Char) : List Char :=
  match literal with
  | q :: c :: rest =>
    if (q == '"' || q == '`') && (c :: rest).getLast? == some q then (c :: rest).dropLast
    else literal
  | _ => literal

/-- The path that a literal stands for. Bytes that encode no character become U+FFFD. -/
def literalPath (literal : Bytes) : String :=
  .ofList (unquote (Text.decodeUtf8Lenient literal).toList)

namespace Source

/-- The offset of the first item that is neither package clause nor import declaration, or `size`.
-/
def headerLimit (size : Nat) (events : List Event) : Nat :=
  (events.filterMap fun
    | .otherItem start => some start.offset
    | _ => none).foldl min size

/-- Where package clauses and the import declarations before `limit` end. -/
def headerStops (limit : Nat) (events : List Event) : List Nat :=
  events.filterMap fun
    | .packageClause _ stop => some stop.offset
    | .importDeclaration start stop => if start.offset < limit then some stop.offset else none
    | _ => none

def headerEnd (limit : Nat) (events : List Event) : Nat :=
  (headerStops limit events).foldl max 0

def headerFaults (limit : Nat) (events : List Event) : List Spot :=
  events.filterMap fun
    | .fault start openImport =>
      if start.offset ≤ headerEnd limit events || (start.offset < limit && openImport) then
        some start
      else none
    | _ => none

def hasPackageClause (events : List Event) : Bool :=
  events.any fun
    | .packageClause _ _ => true
    | _ => false

def headerRecords (limit : Nat) (events : List Event) : List Record :=
  events.filterMap fun
    | .importSpec start _ stop literal =>
      if start.offset < limit then some ⟨literalPath literal, start.offset, stop.offset⟩ else none
    | _ => none

def importsOfEvents (size : Nat) (events : List Event) : Except SourceError (List Record) :=
  let limit := headerLimit size events
  if !hasPackageClause events then .error .noPackageClause
  else
    match headerFaults limit events with
    | [] => .ok (headerRecords limit events)
    | spot :: spots =>
      let first := spots.foldl (fun a b => if b.offset < a.offset then b else a) spot
      .error (.syntaxError (first.line + 1))

end Source

def sourceImports (source : Bytes) : Except SourceError (List Record) :=
  Source.importsOfEvents source.length (Source.readSource source).events

end ImportGroups
