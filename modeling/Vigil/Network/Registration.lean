import Vigil.Network.Basic
/-!
# Registration

A layer registers a monitor under its name and binds it to the layer's own sink.
The name has to be free in the layer, and the monitor must not be bound to any
sink; whether it is shows when it is to be bound.  Removal takes the entry out and
unbinds the monitor if it is still bound to this layer.
-/

namespace Vigil.Network

def register? (n : Network) (layer : LayerId) (id : MonitorId) :
    Option (Except MonitorError Unit × Network) := do
  let l ← n.layers[layer]?
  let m ← n.monitors[id]?
  if l.registry.contains m.name then return (.error (.duplicateName m.name), n)
  let (isBound, m') := m.tryBind (.layer layer)
  let n := n.setMonitor id m'
  if !isBound then return (.error (.alreadyBound m.name), n)
  return (.ok (), n.modifyLayer layer fun l =>
    { l with registry := l.registry.insert m.name id })

/-- Removes the monitor registered under a name, if there is one. -/
def deregister? (n : Network) (layer : LayerId) (name : String) :
    Option (Option MonitorId × Network) := do
  let l ← n.layers[layer]?
  match l.registry.find? name with
  | none => return (none, n)
  | some id =>
    let removed := n.modifyLayer layer fun l => { l with registry := l.registry.erase name }
    return (some id, removed.modifyMonitor id fun m => (m.unbindFrom (.layer layer)).2)

def lookup? (n : Network) (layer : LayerId) (name : String) : Option MonitorId :=
  (n.layers[layer]?).bind (·.registry.find? name)

/-- Removes the items of one monitor from a layer's queue and counts them. -/
def clearAttention? (n : Network) (layer : LayerId) (name : String) : Option (Nat × Network) := do
  let l ← n.layers[layer]?
  let (count, queue) := l.queue.clearMonitor name
  return (count, n.modifyLayer layer fun l => { l with queue })

def resetAttention (n : Network) (layer : LayerId) : Network :=
  n.modifyLayer layer fun l => { l with queue := l.queue.clear }

/-- What needs attention in a layer at one moment. -/
structure Report where
  attentionItems : Nat
  items : List Attention.Item
  /-- The registered monitors with nothing wrong, by name. -/
  subconsciousMonitors : List String
  totalMonitors : Nat
  evicted : Nat
deriving DecidableEq, Repr

def report? (n : Network) (layer : LayerId) : Option Report := do
  let l ← n.layers[layer]?
  let registered := l.registry.values.filterMap (n.monitors[·]?)
  return {
    attentionItems := l.queue.items.length
    items := l.queue.items
    subconsciousMonitors := (registered.filter (·.isSubconscious)).map (·.name)
    totalMonitors := l.registry.size
    evicted := l.queue.evicted }

end Vigil.Network
