import CanBus.Netlink.Exchange

/-!
Changing links. A controller looks links up by name and carries out single changes; on top of it,
`change` skips what is already so, `prepare` readies a link for use and `reconfigure` takes it down
to change its parameters.
-/

namespace CanBus

/-- An operation that can fail. -/
abbrev Operation := ExceptT Failure System

/-- Where links are changed: right in the kernel's table, or over netlink. -/
inductive Controller
  | table
  | netlink
  deriving DecidableEq, Repr

namespace Controller

/-! ## Through the table -/

/-- A scripted outcome above 0 is a closed socket, one below 0 a refusal with that code. -/
def tableCall (request : LinkRequest) (c : Kernel.Call) : Operation Unit := do
  let n ← Kernel.perform c
  if n < 0 then throw (.rejected request n)
  if 0 < n then throw .notOpen

def tableResolve (name : String) : Operation Link := do
  tableCall .query (.linkQuery name)
  match (← get).links.find? name with
  | some l => pure l
  | none => throw (.interfaceNotFound name)

def requestOf : LinkChange → LinkRequest
  | .admin _ => .adminState
  | .bitrate _ => .bitrate
  | .queueLength _ => .queueLength

def callOf (index : UInt32) : LinkChange → Kernel.Call
  | .admin up => .linkAdmin index up
  | .bitrate value => .linkBitrate index value
  | .queueLength value => .linkQueueLength index value

def tableApply (l : Link) (c : LinkChange) : Operation Unit := do
  tableCall (requestOf c) (callOf l.index c)
  let k ← get
  match k.links.change? l.index c with
  | some t => set { k with links := t }
  | none => throw (.interfaceNotFound l.name)

/-! ## Over netlink -/

/-- A name that can't be looked up is reported as not found, whatever the cause. -/
def netlinkResolve (name : String) : Operation Link := do
  match ← (Kernel.indexOf name).run with
  | .error _ => throw (.interfaceNotFound name)
  | .ok index =>
    match ← (Netlink.details index).run with
    | .error code => throw (.rejected .query code)
    | .ok d => pure ⟨d.name.getD name, index, d.isUp, d.kind, d.bitrate, d.queueLength⟩

def netlinkApply (l : Link) (c : LinkChange) : Operation Unit := do
  match ← (Netlink.submit (.ofChange l.index c)).run with
  | .error code => throw (.rejected (requestOf c) code)
  | .ok () => pure ()

/-! ## Either way -/

def resolve (ctl : Controller) (name : String) : Operation Link :=
  match ctl with
  | .table => tableResolve name
  | .netlink => netlinkResolve name

/-- Carries out the change whether or not it makes a difference. -/
def apply (ctl : Controller) (l : Link) (c : LinkChange) : Operation Unit :=
  match ctl with
  | .table => tableApply l c
  | .netlink => netlinkApply l c

end Controller

namespace Link

def stateText (up : Bool) : String := if up then "up" else "down"

/-- What the log says of a change: done, and failed. A queue length that
can't be set is not logged. -/
def logDone (l : Link) : LinkChange → System Unit
  | .admin up => Kernel.log .info s!"{l.name}: link is {stateText up}"
  | .bitrate value => Kernel.log .info s!"{l.name}: bitrate set to {value}"
  | .queueLength value => Kernel.log .debug s!"{l.name}: queue length set to {value}"

def logFailed (l : Link) (f : Failure) (c : LinkChange) : System Unit :=
  let code := f.code?.getD Netlink.localFailure
  match c with
  | .admin up => Kernel.log .error s!"{l.name}: unable to set link {stateText up} (code {code})"
  | .bitrate value =>
    Kernel.log .error s!"{l.name}: unable to set bitrate {value} (code {code})"
  | .queueLength _ => pure ()

/-- Makes a change unless it is idle, and returns the link as it is then, with whether a change was
made. -/
def change (ctl : Controller) (l : Link) (c : LinkChange) : Operation (Link × Bool) := do
  if c.isIdle l then return (l, false)
  try ctl.apply l c
  catch f =>
    logFailed l f c
    throw f
  logDone l c
  return (c.apply l, true)

/-- Links of other kinds than `can` have no bitrate to set. -/
def setBitrate (ctl : Controller) (l : Link) (value : UInt32) : Operation (Link × Bool) := do
  if l.isCan then change ctl l (.bitrate value) else throw (.notCanLink l.name)

def setQueueLength (ctl : Controller) (l : Link) (value : UInt32) : Operation (Link × Bool) :=
  change ctl l (.queueLength value)

def setAdmin (ctl : Controller) (l : Link) (up : Bool) : Operation (Link × Bool) :=
  change ctl l (.admin up)

/-- Goes on with the link as it was if the step fails. -/
def attempt (l : Link) (step : Operation (Link × Bool)) : System (Link × Option Failure) := do
  match ← step.run with
  | .ok (l', _) => return (l', none)
  | .error f => return (l, some f)

/-- Sets bitrate and queue length and brings the link up. Every step is attempted; the first failure
is the one reported. -/
def prepare (ctl : Controller) (name : String) (bitrate queueLength : UInt32) : Operation Link := do
  let l ← ctl.resolve name
  let (l, f₁) ← attempt l (setBitrate ctl l bitrate)
  let (l, f₂) ← attempt l (setQueueLength ctl l queueLength)
  let (l, f₃) ← attempt l (setAdmin ctl l true)
  match f₁.or (f₂.or f₃) with
  | some f => throw f
  | none => return l

/-- Takes the link down, then sets bitrate and queue length; stops at the first failure. -/
def reconfigure (ctl : Controller) (name : String) (bitrate queueLength : UInt32) :
    Operation Link := do
  let l ← ctl.resolve name
  let (l, _) ← setAdmin ctl l false
  let (l, _) ← setBitrate ctl l bitrate
  let (l, _) ← setQueueLength ctl l queueLength
  return l

end Link

end CanBus
