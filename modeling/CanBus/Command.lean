import CanBus.Command.Arguments
import CanBus.Session.Reader
import CanBus.Text.Quoted

/-!
The command: one verb on one interface, through the kernel. `run` gives the exit code and what is
printed.
-/

namespace CanBus.Command

structure Outcome where
  exit : UInt32
  out : String
  err : String
  deriving DecidableEq, Repr

def usage : String :=
  "usage: candrv <iface> up | down | bitrate <bitrate> | details\n" ++
  "       candrv <iface> send <frame> [-b <bitrate>]\n" ++
  "       candrv <iface> monitor [-i <ms>] [-b <bitrate>]\n"

def version : String := "candrv 0.4.0\n"

def succeeded (out : String) : Outcome := ⟨0, out, ""⟩

def failed (message : String) : Outcome := ⟨1, "", message ++ "\n"⟩

/-- A failure with the causes underneath it. -/
def chain (f : Failure) : String :=
  match f.cause? with
  | some c => f.message ++ ": " ++ c.message
  | none => f.message

def noVerb : String := "Need to specify a subcommand (-? for help)."

/-! ## Links -/

/-- A field of the details, indented below its name if it has a value. -/
def optionText (value : Option String) : String :=
  match value with
  | some v => "Some(\n        " ++ v ++ ",\n    )"
  | none => "None"

def linkText (l : Link) : String :=
  let field (name value : String) : String := "    " ++ name ++ ": " ++ value ++ ",\n"
  "LinkRef \x7b\n" ++
    field "name" (Text.Quoted.encode l.name) ++
    field "index" s!"{l.index}" ++
    field "is_up" s!"{l.isUp}" ++
    field "kind" (optionText (l.kind.map Text.Quoted.encode)) ++
    field "bitrate" (optionText (l.bitrate.map fun n => s!"{n}")) ++
    field "tx_queue_len" (optionText (l.queueLength.map fun n => s!"{n}")) ++ "\x7d\n"

def report (m : Operation String) : System Outcome := do
  match ← m.run with
  | .ok out => return succeeded out
  | .error f => return failed (chain f)

def setAdmin (name : String) (up : Bool) : Operation String := do
  let l ← Controller.netlink.resolve name
  let _ ← Link.setAdmin .netlink l up
  return ""

def setBitrate (name : String) (value : UInt32) : Operation String := do
  let _ ← Link.reconfigure .netlink name value Settings.defaultQueueLength
  return s!"{name}: bitrate {value}, link left down\n"

def details (name : String) : Operation String := do
  return linkText (← Controller.netlink.resolve name)

/-! ## Frames -/

/-- A session that leaves the link up when it is dropped. -/
def session (name : String) (bitrate : Option UInt32) (now : Instant) : Session :=
  Session.create name
    { Settings.standard with
      bitrate := bitrate.getD Settings.defaultBitrate
      linkDownOnDrop := false }
    .netlink now

/-- Opens a session, does something with it and drops it. -/
def withSession (name : String) (bitrate : Option UInt32) (m : SessionM Outcome) :
    System Outcome := do
  let body : SessionM Outcome := do
    match ← Session.tryOpen with
    | .error f => return failed s!"Unable to open '{name}': {chain f}"
    | .ok () => m
  let (outcome, s) ← body.run (session name bitrate (← Kernel.now))
  let _ ← Session.drop.run s
  return outcome

def send (f : Frame) : SessionM Outcome := do
  match ← Session.trySend f.id.raw f.id.isExtended f.len f.payload.bytes with
  | .ok () => return succeeded ""
  | .error f => return failed (chain f)

/-- Prints frames until the interrupt, which comes when there is nothing more to read. -/
def monitor : SessionM Outcome := do
  Kernel.setThread .reader
  let (r, fs) ← Reader.run none .starting
  Kernel.setThread .owner
  Session.close
  Kernel.setThread .reader
  let (r, more) ← Reader.run none r
  Kernel.setThread .owner
  let out := String.join ((fs ++ more).map fun f => "  " ++ f.text ++ "\n")
  if r = .ended true then return succeeded out
  return { failed "The poll loop did not start" with out := out }

def perform (name : String) : Action → System Outcome
  | .up => report (setAdmin name true)
  | .down => report (setAdmin name false)
  | .bitrate value => report (setBitrate name value)
  | .details => report (details name)
  | .send text bitrate =>
    match Frame.parse text with
    | .error f => return failed (chain f)
    | .ok f => withSession name bitrate (send f)
  | .monitor _ bitrate => withSession name bitrate monitor

def run (args : List String) : System Outcome :=
  match read none args with
  | .error .usage => return ⟨2, "", usage⟩
  | .error .help => return succeeded usage
  | .error .version => return succeeded version
  | .ok ⟨_, none⟩ => return failed noVerb
  | .ok ⟨name, some action⟩ => perform name action

end CanBus.Command
