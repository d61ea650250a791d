-- A run with the channel that brings its events. What is sent waits in a
-- queue until the run takes it. Between any two of its steps the hold time
-- may run out, and a request to quit may come.
import TopologySync.Burst.Run

namespace TopologySync

/-- A run with the channel that brings its events. -/
structure Channel (ν : Type := Normalizer) where
  run : Run ν
  /-- What was sent and not taken yet, oldest first. -/
  queue : List Event := []
  /-- Nothing more can be sent. -/
  closed : Bool := false
deriving DecidableEq

namespace Channel

/-- What may happen next. -/
inductive Move where
  | send (event : Event)
  | close
  /-- The run takes the next event, or finds that no more can come. -/
  | take
  /-- The hold time runs out. -/
  | expire
  | quit
deriving DecidableEq

variable {ν : Type}

/-- The channel of a processor that starts to work. -/
def new (processor : Processor ν) : Channel ν :=
  { run := { processor } }

/-- Events that are sent reach the queue. -/
def isOpen (c : Channel ν) : Bool :=
  !c.closed && !c.run.hasEnded

/-- The run takes the next event. It ends if there is none and no more can come. -/
def take [Normalizing ν] (c : Channel ν) : Channel ν :=
  match c.queue with
  | event :: rest => { c with run := (c.run.receive event).1, queue := rest }
  | [] => if c.closed then { c with run := c.run.close.1 } else c

/-- Makes one move. -/
def step [Normalizing ν] (c : Channel ν) : Move → Channel ν
  | .send event => if c.isOpen then { c with queue := c.queue ++ [event] } else c
  | .close => { c with closed := true }
  | .take => if c.run.hasEnded then c else c.take
  | .expire => { c with run := c.run.expire.1 }
  | .quit => { c with run := c.run.quit.1 }

/-- Makes moves in turn. -/
def after [Normalizing ν] (c : Channel ν) : List Move → Channel ν
  | [] => c
  | move :: rest => (c.step move).after rest

/-! ## What went through -/

/-- What a move puts into the queue. -/
def sends (c : Channel ν) : Move → List Event
  | .send event => if c.isOpen then [event] else []
  | _ => []

/-- What a move hands to the run. -/
def hands (c : Channel ν) : Move → List Event
  | .take => if c.run.hasEnded then [] else c.queue.take 1
  | _ => []

/-- The events that moves put into the queue. -/
def sent [Normalizing ν] (c : Channel ν) : List Move → List Event
  | [] => []
  | move :: rest => c.sends move ++ (c.step move).sent rest

/-- The events that moves hand to the run. -/
def received [Normalizing ν] (c : Channel ν) : List Move → List Event
  | [] => []
  | move :: rest => c.hands move ++ (c.step move).received rest

end Channel

end TopologySync
