import Vigil.Attention.Item
/-!
# The attention queue

A queue holds items in the order of their arrival, up to its capacity.  A push
always finds room: from a full queue the oldest of the least severe items goes
first.  What has left the queue is counted and not kept, and no number of an
item is ever given out twice.
-/

namespace Vigil.Attention

structure Queue where
  capacity : Nat
  items : List Item
  next : Nat
  evicted : Nat
deriving DecidableEq, Repr

namespace Queue

/-- An empty queue with room for at least one item. -/
def new (capacity : Nat) : Except CapacityError Queue :=
  if capacity = 0 then .error ⟨0⟩ else .ok ⟨capacity, [], 0, 0⟩

def length (q : Queue) : Nat := q.items.length

def isEmpty (q : Queue) : Bool := q.items.isEmpty

def isFull (q : Queue) : Bool := decide (q.capacity ≤ q.items.length)

/-- The severity that no item is below. -/
def leastSeverity? (items : List Item) : Option Int :=
  (items.map Item.severity).min?

/-- The item to go first: the oldest of the least severe. -/
def victim? (items : List Item) : Option Item :=
  (leastSeverity? items).bind fun s => items.find? fun i => i.severity == s

/-- Takes out the item to go first, if there is one. -/
def evict (q : Queue) : Option Item × Queue :=
  match victim? q.items with
  | none => (none, q)
  | some v => (some v, { q with items := q.items.erase v, evicted := q.evicted + 1 })

def append (q : Queue) (monitor : String) (value : Ternary) : Queue :=
  { q with items := q.items ++ [⟨monitor, value, q.next⟩], next := q.next + 1 }

/-- Appends an item, after an eviction if the queue is full. -/
def push (q : Queue) (monitor : String) (value : Ternary) : Option Item × Queue :=
  if q.isFull then (q.evict.1, q.evict.2.append monitor value)
  else (none, q.append monitor value)

/-- Removes the items of one monitor and counts them. -/
def clearMonitor (q : Queue) (monitor : String) : Nat × Queue :=
  let kept := q.items.filter fun i => i.monitor != monitor
  (q.items.length - kept.length, { q with items := kept })

def clear (q : Queue) : Queue := { q with items := [] }

theorem isFull_eq_true_iff (q : Queue) :
    q.isFull = true ↔ q.capacity ≤ q.items.length := by
  simp [isFull]

@[simp] theorem items_append (q : Queue) (monitor : String) (value : Ternary) :
    (q.append monitor value).items = q.items ++ [⟨monitor, value, q.next⟩] := rfl

@[simp] theorem capacity_evict (q : Queue) : q.evict.2.capacity = q.capacity := by
  unfold evict
  split <;> rfl

@[simp] theorem next_evict (q : Queue) : q.evict.2.next = q.next := by
  unfold evict
  split <;> rfl

@[simp] theorem capacity_push (q : Queue) (monitor : String) (value : Ternary) :
    (q.push monitor value).2.capacity = q.capacity := by
  unfold push
  split <;> simp [append]

@[simp] theorem next_push (q : Queue) (monitor : String) (value : Ternary) :
    (q.push monitor value).2.next = q.next + 1 := by
  unfold push
  split <;> simp [append]

theorem push_ne (q : Queue) (monitor : String) (value : Ternary) :
    (q.push monitor value).2 ≠ q := by
  intro h
  have hnext := congrArg Queue.next h
  rw [next_push] at hnext
  omega

@[simp] theorem items_clearMonitor (q : Queue) (monitor : String) :
    (q.clearMonitor monitor).2.items = q.items.filter fun i => i.monitor != monitor := rfl

end Queue
end Vigil.Attention
