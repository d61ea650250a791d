-- A filter for the log: directives that each let some lines through. Of
-- the directives that a line falls under, the one with the longest target
-- decides. What is written in a span is let through if any directive for the
-- span wants it.
import TopologySync.Log.Field
import TopologySync.Log.Level
import TopologySync.Text.Alphanumeric
import TopologySync.Text.Blank

namespace TopologySync.Log

/-- A stretch of work that lines are written in. -/
structure Span where
  name : String
  target : String
  level : Level
  fields : List (String × FieldValue)
deriving DecidableEq, Repr

/-- What a filter can tell about a line. -/
structure Heading where
  level : Level
  /-- The part of the program that writes the line. -/
  target : String
  /-- The names of what is written beside the message. -/
  fields : List String
  span : Option Span
deriving DecidableEq, Repr

/-- One part of a filter: how much of a target, of a span or of what has a
field is let through. -/
structure Directive where
  target : Option String := none
  span : Option String := none
  field : Option FieldDemand := none
  verbosity : Verbosity := .upTo .trace
deriving DecidableEq, Repr

/-! ## Directives as texts -/

namespace Directive

/-- A character that a directive may start with, if it starts with a target. -/
def startsTarget (c : Char) : Bool :=
  Text.isAlphanumeric c || c == '-' || c == ':' || c == '_'

/-- Characters of a text from a place on. -/
def cut (text : List Char) (start length : Nat) : String :=
  String.ofList ((text.drop start).take length)

/-- The verbosity behind an equals sign. If nothing stands there, all is let
through. -/
def verbosityFrom? (text : List Char) (start : Nat) : Option Verbosity :=
  match text.drop start with
  | [] => some (.upTo .trace)
  | word => Verbosity.ofText? word

/-- What follows a target and a span: nothing, or an equals sign and a
verbosity. -/
def finish? (text : List Char) (start : Nat) (d : Directive) : List Char → Option Directive
  | [] => some d
  | '=' :: _ => (verbosityFrom? text (start + 1)).map (fun verbosity => { d with verbosity })
  | _ => none

/-- What follows the brace behind a span. -/
def ofField? (text : List Char) (start : Nat) (d : Directive) (rest : List Char) :
    Option Directive :=
  let field := rest.takeWhile (· ≠ '}')
  match field, rest.drop field.length with
  | _ :: _, '}' :: ']' :: rest => do
    let demand ← FieldDemand.ofText? (cut text start field.length)
    finish? text (start + field.length + 2) { d with field := some demand } rest
  | _, _ => none

/-- What follows the bracket in front of a span. -/
def ofSpan? (text : List Char) (start : Nat) (d : Directive) (rest : List Char) :
    Option Directive :=
  let span := rest.takeWhile (fun c => c ≠ ']' ∧ c ≠ '{')
  let name := cut text start span.length
  match rest.drop span.length with
  | ']' :: rest => finish? text (start + span.length + 1) { d with span := some name } rest
  | '{' :: rest =>
    let d := if span.isEmpty then d else { d with span := some name }
    ofField? text (start + span.length + 1) d rest
  | _ => none

/-- A directive that is one word: a verbosity, or else a target. -/
def ofWord (text : List Char) : Directive :=
  match Verbosity.ofText? text with
  | some verbosity => { verbosity }
  | none => { target := some (String.ofList text) }

/-- The directive that a text stands for. Blanks around it are passed over
when its parts are told apart, but the parts are cut out as if the blanks
before it were not passed over. -/
def ofText? (text : List Char) : Option Directive :=
  let trimmed := Text.trim text
  let head := trimmed.takeWhile (fun c => c ≠ '=' ∧ c ≠ '[')
  let target := cut text 0 head.length
  match head, trimmed.drop head.length with
  | [], '[' :: rest => ofSpan? text 1 {} rest
  | [], _ => none
  | c :: _, rest =>
    if ¬startsTarget c then none
    else match rest with
      | '[' :: rest => ofSpan? text (head.length + 1) { target := some target } rest
      | '=' :: _ => finish? text head.length { target := some target } rest
      | _ => some (ofWord text)

/-! ## Lines under a directive -/

/-- The directive is about lines by themselves. -/
def isPlain (d : Directive) : Bool :=
  d.span.isNone && !d.field.any FieldDemand.isValued

/-- The directive is about what is written in a span. -/
def isScoped (d : Directive) : Bool :=
  d.span.isSome || d.field.isSome

/-- A target falls under the directive if it starts as the directive says. -/
def targets (d : Directive) (target : String) : Bool :=
  d.target.all (fun start => start.toList.isPrefixOf target.toList)

/-- The line falls under the directive by itself. -/
def coversLine (d : Directive) (line : Heading) : Bool :=
  d.isPlain && d.targets line.target
    && d.field.all (fun field => (("message" :: line.fields).contains field.name))

/-- What is written in the span falls under the directive. -/
def coversSpan (d : Directive) (span : Span) : Bool :=
  d.isScoped && d.targets span.target && d.span.all (· == span.name)
    && d.field.all (fun demand => demand.isMetBy span.fields)

/-- Two directives are about the same lines. -/
def sameScope (d e : Directive) : Bool :=
  d.target == e.target && d.span == e.span && d.field == e.field

/-- How closely a directive describes its lines: first by its target, then
by its field. -/
def closeness (d : Directive) : Nat × Nat :=
  (d.target.elim 0 (fun target => target.utf8ByteSize + 1), d.field.elim 0 (fun _ => 1))

/-- The directive describes its lines at least as closely as another one.
Between fields the later name comes first. -/
def outranks (d e : Directive) : Bool :=
  let (target, field) := d.closeness
  let (otherTarget, otherField) := e.closeness
  otherTarget < target || (otherTarget == target &&
    (otherField < field || (otherField == field &&
      (e.field.elim "" FieldDemand.name ≤ d.field.elim "" FieldDemand.name))))

end Directive

/-! ## Filters -/

/-- A filter by its directives, in the order that they are given. -/
structure Filter where
  directives : List Directive
deriving DecidableEq

namespace Filter

/-- The filter that a text stands for, if all of its directives do. Commas
stand between directives, and nothing between two commas is no directive. -/
def ofText? (text : String) : Option Filter := do
  let parts := (text.splitOn ",").filter (· ≠ "")
  return ⟨← parts.mapM (fun part => Directive.ofText? part.toList)⟩

/-- The directives without those that a later one about the same lines replaces. -/
def standing : List Directive → List Directive
  | [] => []
  | d :: later => if later.any d.sameScope then standing later else d :: standing later

/-- Of two directives the one that outranks the other. -/
def higher (d : Option Directive) (e : Directive) : Option Directive :=
  match d with
  | none => some e
  | some d => if e.outranks d then some e else some d

/-- The line is let through by itself. -/
def permitsLine (filter : Filter) (line : Heading) : Bool :=
  let covering := (standing filter.directives).filter (·.coversLine line)
  (covering.foldl higher none).any (fun d => d.verbosity.permits line.level)

/-- The filter takes notice of a span: a directive wants to see as much, were
it replaced or not, or the values of spans matter to one. -/
def sees (filter : Filter) (span : Span) : Bool :=
  filter.directives.any (fun d =>
    d.verbosity.permits span.level || d.field.any FieldDemand.isValued)

/-- The line is let through for the span that it is written in. -/
def permitsSpan (filter : Filter) (level : Level) (span : Span) : Bool :=
  filter.sees span && (standing filter.directives).any (fun d =>
    d.coversSpan span && d.verbosity.permits level)

/-- The line is let through. -/
def permits (filter : Filter) (line : Heading) : Bool :=
  filter.permitsLine line || line.span.any (filter.permitsSpan line.level)

/-- The filter to use: the one of the environment if it is one, and else
the one of the settings. -/
def choose? (environment : Option String) (configured : String) : Option Filter :=
  (environment.bind ofText?) <|> ofText? configured

end Filter

end TopologySync.Log
