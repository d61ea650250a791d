-- A stream of events, one on a line. Blank lines and comments are passed
-- over, and a line that holds no event is skipped. A line that is no text
-- breaks the stream off.
import TopologySync.Json.Events
import TopologySync.Json.Value
import TopologySync.Json.Writer
import TopologySync.Text.Blank

namespace TopologySync

/-! ## Lines -/

/-- The event on a line, if it has one. -/
def Event.ofLine (line : List Char) : Except Json.Problem (Option Event) :=
  match Text.trim line with
  | [] => .ok none
  | '#' :: _ => .ok none
  | text => (Json.decode Event.decoder (Json.bytesOf (String.ofList text))).map some

namespace Replay

def lineFeed : UInt8 := 0x0a
def carriageReturn : UInt8 := 0x0d

/-- A line without the carriage return at its end. -/
def withoutReturn (line : Bytes) : Bytes :=
  if line.getLast? = some carriageReturn then line.dropLast else line

/-- Puts a byte on the line that a stream starts with. -/
def startLine (b : UInt8) : List Bytes → List Bytes
  | [] => [[b]]
  | line :: rest => (b :: line) :: rest

/-- The lines of a stream. A line feed ends a line, and so does the end of
the stream if something stands before it. -/
def lines : Bytes → List Bytes
  | [] => []
  | b :: rest => if b = lineFeed then [] :: lines rest else startLine b (lines rest)

/-- The part of a stream whose lines have all come to their end. -/
def ended (stream : Bytes) : Bytes :=
  ((stream.reverse).dropWhile (· ≠ lineFeed)).reverse

/-- The characters of a line, if it is a text. -/
def lineText? (line : Bytes) : Option (List Char) :=
  (String.fromUTF8? (withoutReturn line).toByteArray).map String.toList

/-! ## Forwarding -/

/-- How a replay ended. -/
inductive Ending where
  /-- All lines were read. -/
  | finished
  /-- A line is no text. -/
  | unreadable
  /-- No one listened any more when the event on a line came up. -/
  | unheard (line : Nat)
deriving DecidableEq, Repr

/-- What a replay counts. -/
@[ext]
structure Stats where
  /-- The events that were taken. -/
  forwarded : Nat := 0
  /-- The lines that hold no event. -/
  skipped : Nat := 0
deriving DecidableEq

namespace Stats

/-- One more event was taken. -/
def forward (stats : Stats) : Stats :=
  { stats with forwarded := stats.forwarded + 1 }

/-- One more line was skipped. -/
def skip (stats : Stats) : Stats :=
  { stats with skipped := stats.skipped + 1 }

instance : Add Stats where
  add a b := ⟨a.forwarded + b.forwarded, a.skipped + b.skipped⟩

end Stats

/-- The events that were sent, the numbers of the lines that were skipped, the
counts of both, and how the replay ended. -/
structure Outcome where
  events : List Event := []
  skipped : List Nat := []
  stats : Stats := {}
  ending : Ending := .finished
deriving DecidableEq

/-- What a replay returns. A stream that breaks off returns nothing. -/
def Outcome.result? (outcome : Outcome) : Option Stats :=
  if outcome.ending = .unreadable then none else some outcome.stats

/-- Sends the events on lines, the first of which has the given number. -/
def forwardLines (heard : Bool) (number : Nat) : List Bytes → Outcome
  | [] => {}
  | line :: rest => match lineText? line with
    | none => { ending := .unreadable }
    | some text => match Event.ofLine text with
      | .ok none => forwardLines heard (number + 1) rest
      | .ok (some event) =>
        if heard then
          let more := forwardLines heard (number + 1) rest
          { more with events := event :: more.events, stats := more.stats.forward }
        else { ending := .unheard number }
      | .error _ =>
        let more := forwardLines heard (number + 1) rest
        { more with skipped := number :: more.skipped, stats := more.stats.skip }

/-- Sends the events of a stream to one who listens, or who does not. -/
def forward (heard : Bool) (stream : Bytes) : Outcome :=
  forwardLines heard 1 (lines stream)

end Replay

end TopologySync
