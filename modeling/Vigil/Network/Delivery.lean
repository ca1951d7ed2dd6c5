import Vigil.Network.Basic
/-!
# Deliveries

A delivery hands one escalation to a sink, which takes it or refuses it; either
way there is a network afterwards.  A check delivers at most once, and counts the
escalation after the sink has taken it.
-/

namespace Vigil.Network

/-- Hands an escalation to a sink.  A handle without a sink behind it refuses. -/
def deliver (n : Network) (sink : Sink) (e : Escalation) : Except MonitorError Unit × Network :=
  match sink with
  | .layer id =>
    if id < n.layers.size then (.ok (), n.modifyLayer id (·.accept e))
    else (.error (.escalation e.monitor "no such layer"), n)
  | .outlet id =>
    match n.outlets[id]? with
    | some o =>
      let (outcome, o) := o.accept e
      (outcome, n.setOutlet id o)
    | none => (.error (.escalation e.monitor "no such outlet"), n)

/-- Lets a monitor judge an output and delivers what is not optimal.  A refusal
is the outcome of the check, which stays counted. -/
def check? (n : Network) (id : MonitorId) (output : Json) :
    Option (Except MonitorError Ternary × Network) := do
  let m ← n.monitors[id]?
  let (value, observed) := m.observe output
  let counted := n.setMonitor id observed
  match observed.destination? value with
  | none => return (.ok value, counted)
  | some sink =>
    match counted.deliver sink ⟨m.name, value⟩ with
    | (.error e, refused) => return (.error e, refused)
    | (.ok (), delivered) => return (.ok value, delivered.modifyMonitor id (·.acknowledge))

/-- Lets a layer take the escalation that has waited longest in a channel.  None
if the outlet is no channel, or if nothing waits there. -/
def receive? (n : Network) (outlet : OutletId) (layer : LayerId) : Option Network :=
  match n.outlets[outlet]? with
  | some (.channel c) =>
    c.receive?.map fun (e, rest) =>
      (n.setOutlet outlet (.channel rest)).modifyLayer layer (·.accept e)
  | _ => none

/-- Lets a layer take up to `count` escalations, one after the other, and tells
how many it took. -/
def receiveUpTo (outlet : OutletId) (layer : LayerId) : (count : Nat) → Network → Nat × Network
  | 0, n => (0, n)
  | count + 1, n =>
    match n.receive? outlet layer with
    | none => (0, n)
    | some n =>
      let (taken, n) := receiveUpTo outlet layer count n
      (taken + 1, n)

/-- Lets a layer take all that waits in a channel, and counts it. -/
def drain? (n : Network) (outlet : OutletId) (layer : LayerId) : Option (Nat × Network) :=
  match n.outlets[outlet]? with
  | some (.channel c) => some (receiveUpTo outlet layer c.waiting.length n)
  | _ => none

def closeChannel? (n : Network) (outlet : OutletId) : Option (Bool × Network) :=
  match n.outlets[outlet]? with
  | some (.channel c) => some (c.isOpen, n.setOutlet outlet (.channel c.close))
  | _ => none

end Vigil.Network
