-- A run of the processor. Its first event opens a burst and takes the
-- cache and the graph; the burst ends when the hold time has passed
-- without an event, or when no more events can come.
import TopologySync.Burst.Processor

namespace TopologySync

/-- Where a run stands. -/
inductive Phase where
  | idle
  /-- A burst is open: how many events it has had, and whether one of them
  changed the graph. -/
  | burst (events : Nat) (owed : Bool)
  | ended
deriving DecidableEq, Repr

/-- A processor at work. -/
structure Run (ν : Type := Normalizer) where
  processor : Processor ν
  phase : Phase := .idle
deriving DecidableEq

namespace Run

variable {ν : Type}

/-- A burst holds the cache and the graph, and no one else may use them. -/
def isLocked (run : Run ν) : Bool :=
  match run.phase with
  | .burst _ _ => true
  | _ => false

def hasEnded (run : Run ν) : Bool :=
  run.phase == .ended

/-- Takes an event, which opens a burst if none is open. -/
def receive (run : Run ν) (event : Event) : Run ν × List Report :=
  let take (events : Nat) (owed : Bool) : Run ν × List Report :=
    let (changed, sync, refused) := run.processor.sync.dispatch event
    ({ processor := { run.processor with sync }, phase := .burst (events + 1) (owed || changed) },
      refused.map .refused)
  match run.phase with
  | .idle => take 0 false
  | .burst events owed => take events owed
  | .ended => (run, [])

/-- Takes events in turn. -/
def receiveAll (run : Run ν) : List Event → Run ν × List Report
  | [] => (run, [])
  | event :: rest =>
    let (run, reports) := run.receive event
    let (run, more) := run.receiveAll rest
    (run, reports ++ more)

/-- Ends the open burst and goes on to another phase. -/
def finish [Normalizing ν] (run : Run ν) (next : Phase) : Run ν × List Report :=
  match run.phase with
  | .burst events owed =>
    let (processor, reports) := run.processor.finishBurst events owed
    ({ processor, phase := next }, reports)
  | _ => ({ run with phase := next }, [])

/-- The hold time has passed. -/
def expire [Normalizing ν] (run : Run ν) : Run ν × List Report :=
  if run.isLocked then run.finish .idle else (run, [])

/-- No more events can come. The open burst is ended first. -/
def close [Normalizing ν] (run : Run ν) : Run ν × List Report :=
  if run.hasEnded then (run, [])
  else
    let (run, reports) := run.finish .ended
    (run, reports ++ [.sourceClosed])

/-- The processor is told to quit. The open burst is left as it is. -/
def quit (run : Run ν) : Run ν × List Report :=
  if run.hasEnded then (run, []) else ({ run with phase := .ended }, [.quit])

end Run

end TopologySync
