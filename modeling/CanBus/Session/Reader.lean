import CanBus.Session

/-!
Readers. A reader waits on the socket that was open when it started, and reads from it until
the session stops that socket; neither a failed wait nor a failed read ends it. `step` is one
indivisible step, `run` goes on until there is nothing to do, and `Session.poll` runs a
reader in the foreground.
-/

namespace CanBus

/-- Where a reader is in its loop: before the look at the stop mark, before the wait, or serving
what the wait reported. -/
inductive Phase
  | check
  | wait
  | serve (news : List Kernel.Readiness)
  deriving DecidableEq, Repr

inductive Reader
  | starting
  | running (socket : Socket) (phase : Phase)
  | ended (ran : Bool)
  deriving DecidableEq, Repr

/-- What a step came to: asleep with nothing to do, or done, perhaps with a frame. -/
inductive Progress
  | idle
  | moved (frame : Option Frame)
  deriving DecidableEq, Repr

namespace Reader

/-! ## Steps -/

/-- Takes hold of the socket that is open now. Fails without one, or if there is no way to wait. -/
def start : SessionM Reader := do
  match (← get).channel with
  | none => return .ended false
  | some socket =>
    let setup : Syscall Unit := do
      Kernel.epollCreate
      Kernel.epollAdd
    match ← setup.run with
    | .error e =>
      Session.log .error s!"unable to start the poll loop: {e.message}"
      return .ended false
    | .ok () =>
      Session.log .debug "poll loop started"
      return .running socket .check

/-- Looks at the stop mark of the reader's own socket. -/
def check (socket : Socket) : SessionM Reader := do
  if (← get).stopped.contains socket.handle then
    match ← Kernel.epollDelete.run with
    | .ok () => pure ()
    | .error e => Session.log .trace s!"unable to unregister socket: {e.trace}"
    Session.log .debug "poll loop stopped"
    return .ended true
  else return .running socket .wait

/-- Sleeps while there is nothing to report and the socket has not been shut down. A normal outcome
that was scripted for the wait is used up all the same. -/
def wait (socket : Socket) : SessionM (Reader × Progress) := do
  let k ← (get : System Kernel)
  if k.hasNews socket.handle then
    let millis := Settings.waitMillis (← get).settings.pollWait
    match ← (Kernel.epollWait socket.handle millis).run with
    | .ok news => return (.running socket (.serve news), .moved none)
    | .error e =>
      Session.log .trace s!"poll wait failed: {e.trace}"
      return (.running socket .check, .moved none)
  else
    let _ ← Kernel.outcome .epollWait
    if k.accepts socket.handle then return (.running socket .wait, .idle)
    else return (.running socket .check, .moved none)

def readOne (socket : Socket) : SessionM (Option Frame) := do
  match ← socket.read.run with
  | .ok (.frame w) => Session.ingest w
  | .ok (.short n) =>
    Session.log .trace s!"discarded short read of {n} bytes"
    return none
  | .error e =>
    Session.log .error s!"read failed: {e.message}"
    return none

def step : Reader → SessionM (Reader × Progress)
  | .starting => do return (← start, .moved none)
  | .running socket .check => do return (← check socket, .moved none)
  | .running socket .wait => wait socket
  | .running socket (.serve []) => return (.running socket .check, .moved none)
  | .running socket (.serve (.foreign :: news)) =>
    return (.running socket (.serve news), .moved none)
  | .running socket (.serve (.readable :: news)) => do
    return (.running socket (.serve news), .moved (← readOne socket))
  | .ended ran => return (.ended ran, .idle)

def isWaiting : Reader → Bool
  | .running _ .wait => true
  | _ => false

/-- A sleeping reader whose wait returns with nothing. -/
def woken : Reader → Reader
  | .running socket .wait => .running socket .check
  | r => r

/-! ## Runs -/

/-- Enough steps for all scripted outcomes and queued datagrams: each round of the loop uses one up,
in at most five steps. -/
def budget (k : Kernel) : Nat :=
  let queued := (List.range k.opened).foldl (fun n h => n + (k.inbox h).length) 0
  5 * ((k.script .epollWait).length + (k.script .receive).length + queued + 3)

/-- Steps until the reader is idle, and collects the frames. The session is closed when there are as
many of them as `limit` says. -/
def drain (limit : Option Nat) : Nat → Reader → List Frame → SessionM (Reader × List Frame)
  | 0, r, fs => return (r, fs)
  | n + 1, r, fs => do
    let (r, p) ← r.step
    match p with
    | .idle => return (r, fs)
    | .moved none => drain limit n r fs
    | .moved (some f) =>
      let fs := fs ++ [f]
      if limit = some fs.length then Session.close
      drain limit n r fs

def run (limit : Option Nat) (r : Reader) : SessionM (Reader × List Frame) := do
  let k ← (get : System Kernel)
  drain limit (budget k) r []

end Reader

/-- Reads until the session is closed, which happens after `limit` frames, or when there is nothing
more to read. False if there was no reading at all. -/
def Session.poll (limit : Option Nat) : SessionM (Bool × List Frame) := do
  let (r, fs) ← Reader.run limit .starting
  match r with
  | .ended ran => return (ran, fs)
  | _ =>
    close
    let (r, more) ← Reader.run none r.woken
    return (r = .ended true, fs ++ more)

end CanBus
