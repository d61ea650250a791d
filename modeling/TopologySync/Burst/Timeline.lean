-- A run in time. Events wait in a queue until the run takes them; time
-- passes only when it is told to. A request to quit comes before the
-- queue, the queue before its end, and its end before the hold time.
import TopologySync.Burst.Run

namespace TopologySync

/-- A processor with its queue of events and a clock in milliseconds. -/
structure Timeline (ν : Type := Normalizer) where
  run : Run ν
  now : Nat := 0
  /-- When the open burst ends if no event comes. -/
  deadline : Nat := 0
  queue : List Event := []
  started : Bool := false
  /-- No more events can be sent. -/
  closed : Bool := false
  quitting : Bool := false
deriving DecidableEq

namespace Timeline

variable {ν : Type}

/-- A processor that has not started. -/
def new (processor : Processor ν) : Timeline ν :=
  { run := { processor } }

def processor (t : Timeline ν) : Processor ν :=
  t.run.processor

def topology (t : Timeline ν) : Topology :=
  t.processor.sync.topology

def withTopology (t : Timeline ν) (topology : Topology) : Timeline ν :=
  { t with run := { t.run with processor := { t.processor with
      sync := { t.processor.sync with topology } } } }

/-- The processor is at work. -/
def isRunning (t : Timeline ν) : Bool :=
  t.started && !t.run.hasEnded

/-- Events that are sent reach the queue. -/
def isOpen (t : Timeline ν) : Bool :=
  !t.closed && !t.run.hasEnded

/-! ## What happens by itself -/

/-- Takes all events of the queue. The last one sets the deadline. -/
def drain (t : Timeline ν) : Timeline ν × List Report :=
  if t.queue.isEmpty then (t, [])
  else
    let (run, reports) := t.run.receiveAll t.queue
    ({ t with run, queue := [], deadline := t.now + t.processor.holdTime }, reports)

/-- Lets the hold time of an open burst run out, if it is over. -/
def expire [Normalizing ν] (t : Timeline ν) : Timeline ν × List Report :=
  if t.deadline ≤ t.now then
    let (run, reports) := t.run.expire
    ({ t with run }, reports)
  else (t, [])

/-- Lets the processor do all that it is ready to do. -/
def settle [Normalizing ν] (t : Timeline ν) : Timeline ν × List Report :=
  if ¬t.isRunning then (t, [])
  else if t.quitting then
    let (run, reports) := t.run.quit
    ({ t with run, queue := [] }, reports)
  else
    let (t, taken) := t.drain
    if t.closed then
      let (run, reports) := t.run.close
      ({ t with run }, taken ++ reports)
    else
      let (t, reports) := t.expire
      (t, taken ++ reports)

/-! ## What is done to it -/

/-- Starts the processor. -/
def start [Normalizing ν] (t : Timeline ν) : Timeline ν × List Report :=
  let (t, reports) := { t with started := true }.settle
  (t, .started :: reports)

/-- Puts events into the queue, as long as it is open. -/
def enqueue (t : Timeline ν) (events : List Event) : Timeline ν :=
  if t.isOpen then { t with queue := t.queue ++ events } else t

def close (t : Timeline ν) : Timeline ν :=
  { t with closed := true }

def quit (t : Timeline ν) : Timeline ν :=
  { t with quitting := true }

/-- Lets time pass. A burst whose deadline comes up ends on the way. -/
def sleep [Normalizing ν] (t : Timeline ν) (duration : Nat) : Timeline ν × List Report :=
  { t with now := t.now + duration }.settle

end Timeline

end TopologySync
