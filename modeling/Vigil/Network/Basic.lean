import Vigil.Attention.Queue
import Vigil.Dictionary
import Vigil.Monitor.Basic
/-!
# Networks of monitors and layers

A layer registers monitors by name and owns one attention queue.  Escalations
reach it through its own sink.  Besides the sinks of layers there are outlets:
one that refuses every delivery, one that keeps what it is given, and one that
feeds a channel, from which a layer receives later.

Layers, monitors and outlets stand under handles.  A handle is an identity: two
monitors may share a name and still be told apart.
-/

namespace Vigil

abbrev LayerId := Nat
abbrev MonitorId := Nat
abbrev OutletId := Nat

inductive Sink
  | layer (id : LayerId)
  | outlet (id : OutletId)
deriving DecidableEq, Repr

/-- A queue of escalations between senders and one receiver, first in, first
out.  A closed channel has no receiver any more, and nothing waits in it. -/
structure Channel where
  waiting : List Escalation := []
  isOpen : Bool := true
deriving DecidableEq, Repr

namespace Channel

def refusal : String := "escalation channel closed"

def send (c : Channel) (e : Escalation) : Except MonitorError Unit × Channel :=
  if c.isOpen then (.ok (), { c with waiting := c.waiting ++ [e] })
  else (.error (.escalation e.monitor refusal), c)

/-- Drops the receiver with all that waits for it. -/
def close (_ : Channel) : Channel := ⟨[], false⟩

def receive? (c : Channel) : Option (Escalation × Channel) :=
  match c.waiting with
  | [] => none
  | e :: rest => some (e, { c with waiting := rest })

theorem eq_of_send_error {c d : Channel} {e : Escalation} {err : MonitorError}
    (h : c.send e = (.error err, d)) : d = c := by
  unfold send at h
  split at h
  · cases h
  · cases h
    rfl

end Channel

/-- A sink that is not a layer's own. -/
inductive Outlet
  | failing (reason : String)
  | recorder (received : List Escalation)
  | channel (c : Channel)
deriving DecidableEq, Repr

namespace Outlet

def accept (o : Outlet) (e : Escalation) : Except MonitorError Unit × Outlet :=
  match o with
  | failing reason => (.error (.escalation e.monitor reason), .failing reason)
  | recorder received => (.ok (), .recorder (received ++ [e]))
  | channel c =>
    let (outcome, c) := c.send e
    (outcome, .channel c)

theorem eq_of_accept_error {o o' : Outlet} {e : Escalation} {err : MonitorError}
    (h : o.accept e = (.error err, o')) : o' = o := by
  cases o with
  | failing reason =>
      cases h
      rfl
  | recorder received => cases h
  | channel c =>
      rcases hsend : c.send e with ⟨outcome, d⟩
      simp only [accept, hsend] at h
      cases h
      rw [Channel.eq_of_send_error hsend]

end Outlet

structure Layer where
  queue : Attention.Queue
  registry : Dictionary MonitorId := .empty

namespace Layer

/-- A layer without monitors and items. -/
def new (capacity : Nat) : Except MonitorError Layer :=
  match Attention.Queue.new capacity with
  | .ok queue => .ok { queue }
  | .error e => .error (.capacity e)

def accept (l : Layer) (e : Escalation) : Layer :=
  { l with queue := (l.queue.push e.monitor e.value).2 }

theorem new_eq_ok_iff {capacity : Nat} {l : Layer} :
    new capacity = .ok l ↔ 0 < capacity ∧ l = { queue := ⟨capacity, [], 0, 0⟩ } := by
  cases capacity with
  | zero => simp [new, Attention.Queue.new]
  | succ capacity => simp [new, Attention.Queue.new, eq_comm]

end Layer

structure Network where
  layers : Array Layer := #[]
  monitors : Array (Monitor Sink) := #[]
  outlets : Array Outlet := #[]

namespace Network

def empty : Network := {}

instance : Inhabited Network := ⟨empty⟩

def addLayer (n : Network) (l : Layer) : LayerId × Network :=
  (n.layers.size, { n with layers := n.layers.push l })

/-- Brings a monitor into the network; no layer registers it yet. -/
def addMonitor (n : Network) (m : Monitor Sink) : MonitorId × Network :=
  (n.monitors.size, { n with monitors := n.monitors.push m })

def addOutlet (n : Network) (o : Outlet) : OutletId × Network :=
  (n.outlets.size, { n with outlets := n.outlets.push o })

def modifyMonitor (n : Network) (id : MonitorId) (f : Monitor Sink → Monitor Sink) : Network :=
  { n with monitors := n.monitors.modify id f }

def setMonitor (n : Network) (id : MonitorId) (m : Monitor Sink) : Network :=
  n.modifyMonitor id fun _ => m

def modifyLayer (n : Network) (id : LayerId) (f : Layer → Layer) : Network :=
  { n with layers := n.layers.modify id f }

def setOutlet (n : Network) (id : OutletId) (o : Outlet) : Network :=
  { n with outlets := n.outlets.modify id fun _ => o }

@[simp] theorem layers_modifyMonitor (n : Network) (id : MonitorId)
    (f : Monitor Sink → Monitor Sink) : (n.modifyMonitor id f).layers = n.layers := rfl

@[simp] theorem monitors_modifyLayer (n : Network) (id : LayerId) (f : Layer → Layer) :
    (n.modifyLayer id f).monitors = n.monitors := rfl

@[simp] theorem outlets_modifyLayer (n : Network) (id : LayerId) (f : Layer → Layer) :
    (n.modifyLayer id f).outlets = n.outlets := rfl

@[simp] theorem size_layers_modifyLayer (n : Network) (id : LayerId) (f : Layer → Layer) :
    (n.modifyLayer id f).layers.size = n.layers.size := Array.size_modify

theorem getElem?_monitors_modifyMonitor (n : Network) (id other : MonitorId)
    (f : Monitor Sink → Monitor Sink) :
    (n.modifyMonitor id f).monitors[other]? =
      if id = other then n.monitors[other]?.map f else n.monitors[other]? := by
  simp [modifyMonitor, Array.getElem?_modify]

theorem getElem?_layers_modifyLayer (n : Network) (id other : LayerId) (f : Layer → Layer) :
    (n.modifyLayer id f).layers[other]? =
      if id = other then n.layers[other]?.map f else n.layers[other]? := by
  simp [modifyLayer, Array.getElem?_modify]

/-- What is put in its own place changes nothing. -/
theorem modify_self {α : Type} {xs : Array α} {i : Nat} {x : α} (h : xs[i]? = some x) :
    xs.modify i (fun _ => x) = xs := by
  apply Array.ext_getElem?
  intro j
  rw [Array.getElem?_modify]
  split
  · rename_i heq
    rw [← heq, h]
    rfl
  · rfl

theorem setOutlet_self {n : Network} {id : OutletId} {o : Outlet}
    (h : n.outlets[id]? = some o) : n.setOutlet id o = n := by
  rw [setOutlet, modify_self h]

theorem setMonitor_self {n : Network} {id : MonitorId} {m : Monitor Sink}
    (h : n.monitors[id]? = some m) : n.setMonitor id m = n := by
  rw [setMonitor, modifyMonitor, modify_self h]

theorem getElem?_outlets_setOutlet {n : Network} {id : OutletId} {o : Outlet}
    (h : n.outlets[id]? = some o) (o' : Outlet) : (n.setOutlet id o').outlets[id]? = some o' := by
  simp [setOutlet, Array.getElem?_modify, h]

end Network
end Vigil
