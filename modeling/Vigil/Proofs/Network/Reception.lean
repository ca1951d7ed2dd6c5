import Vigil.Proofs.Network.Traffic

/-!
# Receiving from a channel

A layer that receives takes escalations out of a channel one by one, while any number
of senders goes on and while others deliver to the layer directly.  It returns when
nothing waits and no sender is left.  However all this interleaves, the layer's queue
is the one that direct deliveries alone would have made.
-/

namespace Vigil

open Attention (pushes)

inductive Progress
  | receiving
  | returned
  | abandoned
deriving DecidableEq, Repr

/-- A layer at work on the channel behind an outlet. -/
structure Reception (outlet : OutletId) (layer : LayerId) where
  network : Network
  /-- How many clones of the channel's sink there are. -/
  senders : Nat := 1
  count : Nat := 0
  progress : Progress := .receiving

namespace Reception

inductive Move
  | clone
  | drop
  | send (e : Escalation)
  | direct (e : Escalation)
  | receive
  | abandon
deriving DecidableEq, Repr

/-- What can be seen of a move from outside: the channel accepts, the layer takes from the
channel, or the layer is delivered to directly. -/
inductive Event
  | sent (e : Escalation)
  | received (e : Escalation)
  | direct (e : Escalation)
deriving DecidableEq, Repr

namespace Event

def sent? : Event → Option Escalation
  | sent e => some e
  | _ => none

def received? : Event → Option Escalation
  | received e => some e
  | _ => none

def delivered? : Event → Option Escalation
  | received e => some e
  | direct e => some e
  | sent _ => none

end Event

def sent (log : List Event) : List Escalation := log.filterMap Event.sent?

def received (log : List Event) : List Escalation := log.filterMap Event.received?

/-- All that reached the layer, received or directly, in the order in which it did. -/
def delivered (log : List Event) : List Escalation := log.filterMap Event.delivered?

theorem sent_concat (log : List Event) (event : Event) :
    sent (log ++ [event]) = sent log ++ event.sent?.toList := by
  cases event <;> simp [sent, Event.sent?]

theorem received_concat (log : List Event) (event : Event) :
    received (log ++ [event]) = received log ++ event.received?.toList := by
  cases event <;> simp [received, Event.received?]

theorem delivered_concat (log : List Event) (event : Event) :
    delivered (log ++ [event]) = delivered log ++ event.delivered?.toList := by
  cases event <;> simp [delivered, Event.delivered?]

section Moves

variable {outlet : OutletId} {layer : LayerId}

def finish (r : Reception outlet layer) (progress : Progress) : Reception outlet layer :=
  { r with network := r.network.apply (.closeChannel outlet), progress }

def receive (r : Reception outlet layer) : Reception outlet layer :=
  match r.network.receive? outlet layer with
  | some network => { r with network, count := r.count + 1 }
  | none => if r.senders = 0 then r.finish .returned else r

/-- Sending and cloning take a sender; receiving and abandoning take a receiver. -/
def apply (r : Reception outlet layer) : Move → Reception outlet layer
  | .clone => if r.senders = 0 then r else { r with senders := r.senders + 1 }
  | .drop => { r with senders := r.senders - 1 }
  | .send e =>
    if r.senders = 0 then r
    else { r with network := r.network.apply (.deliver (.outlet outlet) e) }
  | .direct e => { r with network := r.network.apply (.deliver (.layer layer) e) }
  | .receive => if r.progress = .receiving then r.receive else r
  | .abandon => if r.progress = .receiving then r.finish .abandoned else r

def run (r : Reception outlet layer) (moves : List Move) : Reception outlet layer :=
  moves.foldl apply r

def event? (r : Reception outlet layer) : Move → Option Event
  | .send e =>
    if r.senders ≠ 0 ∧ (r.network.deliver (.outlet outlet) e).1.isOk then some (.sent e) else none
  | .direct e =>
    if (r.network.deliver (.layer layer) e).1.isOk then some (.direct e) else none
  | .receive =>
    if r.progress = .receiving then
      (r.network.delivery? (.receive outlet layer)).map fun d => .received d.2
    else none
  | _ => none

def events (r : Reception outlet layer) : List Move → List Event
  | [] => []
  | move :: moves => (r.event? move).toList ++ (r.apply move).events moves

theorem run_cons (r : Reception outlet layer) (move : Move) (moves : List Move) :
    r.run (move :: moves) = (r.apply move).run moves := rfl

end Moves

section Channels

variable {n : Network} {outlet : OutletId} {layer : LayerId} {c : Channel}

theorem deliver_channel (hc : n.outlets[outlet]? = some (.channel c)) (e : Escalation) :
    n.deliver (.outlet outlet) e =
      ((c.send e).1, n.setOutlet outlet (.channel (c.send e).2)) := by
  simp only [Network.deliver, hc, Outlet.accept]

theorem receive?_channel (hc : n.outlets[outlet]? = some (.channel c)) :
    n.receive? outlet layer = c.receive?.map fun (e, rest) =>
      (n.setOutlet outlet (.channel rest)).modifyLayer layer (·.accept e) := by
  simp only [Network.receive?, hc]

theorem apply_closeChannel (hc : n.outlets[outlet]? = some (.channel c)) :
    n.apply (.closeChannel outlet) = n.setOutlet outlet (.channel c.close) := by
  simp only [Network.apply, Network.closeChannel?, hc]

end Channels

/-- What the layer has not taken of all that was sent waits in the channel while the layer
receives, and the rest of the log has made the layer's queue. -/
structure Ledger {outlet : OutletId} {layer : LayerId} (q : Attention.Queue)
    (r : Reception outlet layer) (log : List Event) (left : List Escalation) : Prop where
  sent : sent log = received log ++ left
  channel : r.network.outlets[outlet]? = some (.channel
    (if r.progress = .receiving then ⟨left, true⟩ else ⟨[], false⟩))
  count : r.count = (received log).length
  complete : r.progress = .returned → r.senders = 0 ∧ left = []
  store : r.network.queue? layer = some (q.run (pushes (delivered log)))

namespace Ledger

variable {outlet : OutletId} {layer : LayerId} {q : Attention.Queue}
  {r : Reception outlet layer} {log : List Event} {left : List Escalation}

theorem start {n : Network} (hq : n.queue? layer = some q)
    (hc : n.outlets[outlet]? = some (.channel {})) :
    Ledger q ({ network := n } : Reception outlet layer) [] [] :=
  ⟨rfl, hc, rfl, nofun, hq⟩

-- A layer that has returned saw no sender, and nobody clones what is gone.
theorem of_senders (h : Ledger q r log left) {senders : Nat}
    (hzero : r.senders = 0 → senders = 0) :
    Ledger q ({ r with senders } : Reception outlet layer) log left :=
  ⟨h.sent, h.channel, h.count, fun hp => ⟨hzero (h.complete hp).1, (h.complete hp).2⟩, h.store⟩

theorem finish (h : Ledger q r log left) {progress : Progress} (hreceiving : progress ≠ .receiving)
    (hcomplete : progress = .returned → r.senders = 0 ∧ left = []) :
    Ledger q (r.finish progress) log left := by
  refine ⟨h.sent, ?_, h.count, hcomplete, ?_⟩
  · change (r.network.apply _).outlets[outlet]? = _
    rw [apply_closeChannel h.channel, Network.getElem?_outlets_setOutlet h.channel]
    exact congrArg (some ∘ Outlet.channel) (if_neg hreceiving).symm
  · change (r.network.apply _).queue? layer = _
    rw [apply_closeChannel h.channel]
    exact h.store

theorem clone (h : Ledger q r log left) : Ledger q (r.apply .clone) log left := by
  simp only [apply]
  split
  · exact h
  · rename_i hne
    exact h.of_senders fun hzero => absurd hzero hne

theorem drop (h : Ledger q r log left) : Ledger q (r.apply .drop) log left :=
  h.of_senders fun hzero => by rw [hzero]

/-- The channel accepts exactly as long as the layer receives. -/
theorem deliver_eq (h : Ledger q r log left) (e : Escalation) :
    r.network.deliver (.outlet outlet) e =
      if r.progress = .receiving then
        (.ok (), r.network.setOutlet outlet (.channel ⟨left ++ [e], true⟩))
      else (.error (.escalation e.monitor Channel.refusal), r.network) := by
  have hchannel := h.channel
  split
  · rename_i hp
    rw [if_pos hp] at hchannel
    rw [deliver_channel hchannel]
    rfl
  · rename_i hp
    rw [if_neg hp] at hchannel
    rw [deliver_channel hchannel]
    exact Prod.ext rfl (Network.setOutlet_self hchannel)

theorem accept (h : Ledger q r log left) (hp : r.progress = .receiving) (e : Escalation) :
    Ledger q ({ r with network :=
        r.network.setOutlet outlet (.channel ⟨left ++ [e], true⟩) } : Reception outlet layer)
      (log ++ [.sent e]) (left ++ [e]) := by
  constructor
  · rw [sent_concat, received_concat, h.sent, List.append_assoc]
    simp only [Event.sent?, Event.received?, Option.toList_some, Option.toList_none,
      List.append_nil]
  · rw [Network.getElem?_outlets_setOutlet h.channel, if_pos hp]
  · rw [received_concat]
    exact h.count.trans (congrArg List.length (List.append_nil _).symm)
  · intro hreturned
    cases hp.symm.trans hreturned
  · rw [delivered_concat]
    exact h.store.trans (by rw [Event.delivered?, Option.toList_none, List.append_nil])

theorem store_push (h : Ledger q r log left) {e : Escalation} {event : Event}
    (hevent : event.delivered? = some e) :
    (r.network.queue? layer).map (fun q => (q.push e.monitor e.value).2) =
      some (q.run (pushes (delivered (log ++ [event])))) := by
  rw [delivered_concat, hevent, Option.toList_some, Attention.pushes_concat,
    Attention.Queue.run_concat, h.store]
  rfl

theorem take {e : Escalation} (h : Ledger q r log (e :: left)) (hp : r.progress = .receiving) :
    Ledger q ({ r with
        network := (r.network.setOutlet outlet (.channel ⟨left, true⟩)).modifyLayer layer
          (·.accept e)
        count := r.count + 1 } : Reception outlet layer)
      (log ++ [.received e]) left := by
  constructor
  · rw [sent_concat, received_concat, h.sent]
    simp only [Event.sent?, Event.received?, Option.toList_some, Option.toList_none,
      List.append_nil, List.append_assoc, List.singleton_append]
  · rw [Network.outlets_modifyLayer, Network.getElem?_outlets_setOutlet h.channel, if_pos hp]
  · rw [received_concat, List.length_append, ← h.count]
    rfl
  · intro hreturned
    cases hp.symm.trans hreturned
  · rw [Network.queue?_modifyLayer (g := fun q => (q.push e.monitor e.value).2) fun _ _ => rfl,
      if_pos rfl]
    exact h.store_push rfl

theorem send (h : Ledger q r log left) (e : Escalation) :
    ∃ left', Ledger q (r.apply (.send e)) (log ++ (r.event? (.send e)).toList) left' := by
  by_cases hnone : r.senders = 0
  · refine ⟨left, ?_⟩
    simp only [apply, event?, hnone, if_true, ne_eq, not_true_eq_false, false_and, if_false,
      Option.toList_none, List.append_nil]
    exact h
  · have hdeliver := h.deliver_eq e
    by_cases hp : r.progress = .receiving
    · rw [if_pos hp] at hdeliver
      have hevent : r.event? (.send e) = some (.sent e) := by
        rw [event?, hdeliver]
        exact if_pos ⟨hnone, rfl⟩
      simp only [apply, if_neg hnone, Network.apply, hdeliver, hevent, Option.toList_some]
      exact ⟨left ++ [e], h.accept hp e⟩
    · rw [if_neg hp] at hdeliver
      have hevent : r.event? (.send e) = none := by
        rw [event?, hdeliver]
        exact if_neg fun hboth => Bool.false_ne_true hboth.2
      simp only [apply, if_neg hnone, Network.apply, hdeliver, hevent, Option.toList_none,
        List.append_nil]
      exact ⟨left, h⟩

theorem direct (h : Ledger q r log left) (e : Escalation) :
    Ledger q (r.apply (.direct e)) (log ++ (r.event? (.direct e)).toList) left := by
  have hlayer := Network.lt_size_of_queue? h.store
  have hevent : r.event? (.direct e) = some (.direct e) :=
    if_pos ((Network.isOk_deliver_layer e).mpr hlayer)
  have happly : r.network.apply (.deliver (.layer layer) e) =
      r.network.modifyLayer layer (·.accept e) := by
    simp only [Network.apply, Network.deliver, if_pos hlayer]
  simp only [apply, happly, hevent, Option.toList_some]
  constructor
  · rw [sent_concat, received_concat, h.sent]
    simp only [Event.sent?, Event.received?, Option.toList_none, List.append_nil]
  · exact h.channel
  · rw [received_concat]
    exact h.count.trans (congrArg List.length (List.append_nil _).symm)
  · exact h.complete
  · rw [Network.queue?_modifyLayer (g := fun q => (q.push e.monitor e.value).2) fun _ _ => rfl,
      if_pos rfl]
    exact h.store_push rfl

theorem apply_receive_cons {e : Escalation} (h : Ledger q r log (e :: left))
    (hp : r.progress = .receiving) :
    r.event? .receive = some (.received e) ∧ r.apply .receive =
      { r with
        network := (r.network.setOutlet outlet (.channel ⟨left, true⟩)).modifyLayer layer
          (·.accept e)
        count := r.count + 1 } := by
  have hc := h.channel
  rw [if_pos hp] at hc
  have hreceive : Channel.receive? ⟨e :: left, true⟩ = some (e, ⟨left, true⟩) := rfl
  constructor
  · rw [event?, if_pos hp, Network.delivery?_receive hc hreceive]
    rfl
  · rw [apply, if_pos hp, receive, receive?_channel hc, hreceive]
    rfl

theorem apply_receive_nil (h : Ledger q r log []) (hp : r.progress = .receiving) :
    r.event? .receive = none ∧
      r.apply .receive = if r.senders = 0 then r.finish .returned else r := by
  have hc := h.channel
  rw [if_pos hp] at hc
  have hreceive : r.network.receive? outlet layer = none := by
    rw [receive?_channel hc]
    rfl
  constructor
  · rw [event?, if_pos hp, Network.delivery?_receive_of_none hreceive]
    rfl
  · rw [apply, if_pos hp, receive, hreceive]

theorem receive (h : Ledger q r log left) :
    ∃ left', Ledger q (r.apply .receive) (log ++ (r.event? .receive).toList) left' := by
  by_cases hp : r.progress = .receiving
  · cases left with
    | nil =>
        obtain ⟨hevent, happly⟩ := h.apply_receive_nil hp
        refine ⟨[], ?_⟩
        rw [hevent, happly, Option.toList_none, List.append_nil]
        split
        · rename_i hnone
          exact h.finish nofun fun _ => ⟨hnone, rfl⟩
        · exact h
    | cons e left =>
        obtain ⟨hevent, happly⟩ := h.apply_receive_cons hp
        rw [hevent, happly, Option.toList_some]
        exact ⟨left, h.take hp⟩
  · refine ⟨left, ?_⟩
    simp only [apply, event?, if_neg hp, Option.toList_none, List.append_nil]
    exact h

theorem abandon (h : Ledger q r log left) : Ledger q (r.apply .abandon) log left := by
  simp only [apply]
  split
  · exact h.finish nofun nofun
  · exact h

theorem apply (h : Ledger q r log left) (move : Move) :
    ∃ left', Ledger q (r.apply move) (log ++ (r.event? move).toList) left' := by
  cases move with
  | clone => exact ⟨left, (List.append_nil log).symm ▸ h.clone⟩
  | drop => exact ⟨left, (List.append_nil log).symm ▸ h.drop⟩
  | send e => exact h.send e
  | direct e => exact ⟨left, h.direct e⟩
  | receive => exact h.receive
  | abandon => exact ⟨left, (List.append_nil log).symm ▸ h.abandon⟩

theorem run (h : Ledger q r log left) (moves : List Move) :
    ∃ left', Ledger q (r.run moves) (log ++ r.events moves) left' := by
  induction moves generalizing r log left with
  | nil => exact ⟨left, (List.append_nil log).symm ▸ h⟩
  | cons move moves ih =>
      obtain ⟨left', h'⟩ := h.apply move
      rw [run_cons, events, ← List.append_assoc]
      exact ih h'

/-- Once nobody can send any more, the layer takes all that waits and returns. -/
theorem drain (h : Ledger q r log left) (hp : r.progress = .receiving) :
    Network.receiveUpTo outlet layer left.length r.network =
        (left.length, (r.run (List.replicate left.length .receive)).network) ∧
      (r.senders = 0 →
        (r.run (List.replicate (left.length + 1) .receive)).progress = .returned) := by
  -- Nothing is sent in between, so what waits at first bounds the number of receptions.
  induction left generalizing r log with
  | nil =>
      refine ⟨rfl, fun hnone => ?_⟩
      change (r.apply .receive).progress = _
      rw [(h.apply_receive_nil hp).2, if_pos hnone]
      rfl
  | cons e left ih =>
      have happly := (h.apply_receive_cons hp).2
      obtain ⟨htaken, hreturned⟩ := ih (h.take hp) hp
      rw [List.length_cons, List.replicate_succ, List.replicate_succ, run_cons, run_cons, happly]
      refine ⟨?_, hreturned⟩
      have hc := h.channel
      rw [if_pos hp] at hc
      simp only [Network.receiveUpTo, receive?_channel hc, Channel.receive?, Option.map_some,
        htaken]

end Ledger

/-- However sending, receiving and delivering directly interleave: what the layer has
received are the first escalations that the channel accepted, and its queue is the one it
would have if all that reached it had been delivered directly in that order.  A layer that
returns has received all of them, and with no sender left it does return.  The channel
refuses when the receiver is gone, and only then. -/
theorem run_refines_direct {n : Network} {outlet : OutletId} {layer : LayerId}
    {q : Attention.Queue} (hq : n.queue? layer = some q)
    (hc : n.outlets[outlet]? = some (.channel {})) (moves : List Move) :
    let start : Reception outlet layer := { network := n }
    let r := start.run moves
    let log := start.events moves
    received log <+: sent log ∧
    r.network.queue? layer =
      (n.run ((delivered log).map fun e => .deliver (.layer layer) e)).queue? layer ∧
    r.count = (received log).length ∧
    (r.progress = .returned → r.count = (sent log).length ∧ received log = sent log) ∧
    (r.progress = .receiving → r.senders = 0 →
      ∃ k, r.network.drain? outlet layer =
          some (k, (r.run (List.replicate k .receive)).network) ∧
        r.count + k = (sent log).length ∧
        (r.run (List.replicate (k + 1) .receive)).progress = .returned) ∧
    ∀ e, (r.progress = .receiving →
        ∃ n', r.network.deliver (.outlet outlet) e = (.ok (), n')) ∧
      (r.progress ≠ .receiving →
        r.network.deliver (.outlet outlet) e =
          (.error (.escalation e.monitor Channel.refusal), r.network) ∧
        r.apply (.send e) = r) := by
  intro start r log
  obtain ⟨left, h⟩ : ∃ left, Ledger q r log left := (Ledger.start hq hc).run moves
  refine ⟨⟨left, h.sent.symm⟩, ?_, h.count, ?_, ?_, ?_⟩
  · rw [h.store, Network.queue?_run_deliver hq]
  · intro hreturned
    have hall : sent log = received log := by
      rw [h.sent, (h.complete hreturned).2, List.append_nil]
    rw [hall]
    exact ⟨h.count, rfl⟩
  · intro hp hnone
    obtain ⟨htaken, hreturned⟩ := h.drain hp
    refine ⟨left.length, ?_, ?_, hreturned hnone⟩
    · have hchannel := h.channel
      rw [if_pos hp] at hchannel
      simp only [Network.drain?, hchannel, htaken]
    · rw [h.sent, List.length_append, h.count]
  · intro e
    have hdeliver := h.deliver_eq e
    constructor
    · intro hp
      rw [if_pos hp] at hdeliver
      exact ⟨_, hdeliver⟩
    · intro hp
      rw [if_neg hp] at hdeliver
      refine ⟨hdeliver, ?_⟩
      simp only [apply, Network.apply, hdeliver, ite_self]

/-- Two senders and a direct delivery meet in a queue with room for two. -/
def exchange : List Move :=
  [.send ⟨"a", .neutral⟩, .clone, .send ⟨"b", .negative⟩, .receive, .direct ⟨"c", .neutral⟩,
    .drop, .receive, .receive, .send ⟨"d", .negative⟩, .drop, .receive, .receive]

theorem run_refines_direct_exchange :
    let n := Network.empty.run [.addLayer 2, .addOutlet (.channel {})]
    let start : Reception 0 0 := { network := n }
    n.queue? 0 = some ⟨2, [], 0, 0⟩ ∧ n.outlets[0]? = some (.channel {}) ∧
      (start.run exchange).progress = .returned ∧ (start.run exchange).count = 3 ∧
      (start.run exchange).network.queue? 0 =
        (n.run ([⟨"a", .neutral⟩, ⟨"c", .neutral⟩, ⟨"b", .negative⟩, ⟨"d", .negative⟩].map
          fun e => .deliver (.layer 0) e)).queue? 0 ∧
      (start.run exchange).network.deliver (.outlet 0) ⟨"a", .neutral⟩ =
        (.error (.escalation "a" Channel.refusal), (start.run exchange).network) := by
  intro n start
  have hq : n.queue? 0 = some ⟨2, [], 0, 0⟩ := by decide +kernel
  have hc : n.outlets[0]? = some (.channel {}) := by decide +kernel
  have hreturned : (start.run exchange).progress = .returned := by decide +kernel
  have hsent : (sent (start.events exchange)).length = 3 := by decide +kernel
  have hdelivered : delivered (start.events exchange) =
      [⟨"a", .neutral⟩, ⟨"c", .neutral⟩, ⟨"b", .negative⟩, ⟨"d", .negative⟩] := by
    decide +kernel
  obtain ⟨-, hqueue, -, hall, -, hrefuses⟩ := run_refines_direct hq hc exchange
  rw [hdelivered] at hqueue
  refine ⟨hq, hc, hreturned, (hall hreturned).1.trans hsent, hqueue, ?_⟩
  exact ((hrefuses _).2 (by rw [hreturned]; decide)).1

end Reception
end Vigil
