import Netlink.Endpoint.Scripted
import Netlink.Proofs.Supply

/-!
# Honest Endpoints

An endpoint gives a datagram honestly if it copies as much of it as fits to the front of the
buffer, reports how much that is, and reports a cut exactly if something did not fit. An
endpoint that delivers datagrams gives them one after the other in this way, each to the
receive that comes next, whatever buffer that receive brings.

Of such datagrams those that fit the buffer arrive whole, each with one receive.

## Main results

* `Endpoint.supply_of_delivers`: what is delivered and fits is supplied.
* `Endpoint.iterate_afterFetch_of_delivers`: to fetch delivered datagrams takes one receive
  for each.
* `ScriptedPeer.delivers_of_prefix`: a scripted peer delivers what its script says.
-/

namespace Netlink

/-- How a datagram arrives that is given honestly to a buffer of this size. -/
def Arrival.ofDatagram (capacity : Nat) (datagram : Bytes) : Arrival :=
  if datagram.length ≤ capacity then .whole datagram else .cut

/-- A datagram that fits arrives whole. -/
theorem Arrival.ofDatagram_of_le {capacity : Nat} {datagram : Bytes}
    (h : datagram.length ≤ capacity) : ofDatagram capacity datagram = .whole datagram :=
  if_pos h

/-- A datagram that does not fit is cut. -/
theorem Arrival.ofDatagram_of_lt {capacity : Nat} {datagram : Bytes}
    (h : capacity < datagram.length) : ofDatagram capacity datagram = .cut :=
  if_neg (Nat.not_le.2 h)

namespace Endpoint

variable {σ : Type} [Endpoint σ]

/-- The next receive gives this datagram, as far as it fits the buffer. -/
structure Gives (s : σ) (buffer datagram : Bytes) : Prop where
  receipt_eq : (receive s buffer).1
    = .ok ⟨min datagram.length buffer.length, buffer.length < datagram.length⟩
  front_eq : (receive s buffer).2.1.take (min datagram.length buffer.length)
    = datagram.take buffer.length

/-- The next receives give these datagrams in order, whatever buffers they bring. -/
def Delivers : List Bytes → σ → Prop
  | [], _ => True
  | datagram :: later, s =>
    ∀ buffer, Gives s buffer datagram ∧ Delivers later (receive s buffer).2.2

/-- A receive that succeeds is not repeated. -/
theorem fetch_of_ok (policy : Policy) {s : σ} {buffer : Bytes} {receipt : Receipt}
    (h : (receive s buffer).1 = .ok receipt) :
    fetch policy s buffer = receive s buffer :=
  fetch_of_settled (by rw [h]; rfl)

/-- A datagram that is given takes one receive. -/
theorem Gives.afterFetch_eq (policy : Policy) {t : Bytes × σ} {datagram : Bytes}
    (h : Gives t.2 t.1 datagram) : afterFetch policy t = afterReceive t := by
  rw [afterFetch, fetch_of_ok policy h.receipt_eq, afterReceive]

/-- What is given of a datagram arrives whole or cut, by its size. -/
theorem Gives.ofReceipt_eq {t : Bytes × σ} {datagram : Bytes} (h : Gives t.2 t.1 datagram) :
    Arrival.ofReceipt ⟨min datagram.length t.1.length, t.1.length < datagram.length⟩
      (afterReceive t).1 = .ofDatagram t.1.length datagram := by
  have hlength : (afterReceive t).1.length = t.1.length := length_receive
  have hfront := h.front_eq
  rw [Arrival.ofReceipt, Arrival.ofDatagram]
  by_cases hfits : datagram.length ≤ t.1.length
  · rw [Nat.min_eq_left hfits, List.take_of_length_le hfits] at hfront
    have hwhole : ¬(decide (t.1.length < datagram.length) = true) := by simpa using hfits
    rw [if_neg hwhole, Nat.min_eq_left hfits, hlength, if_neg (Nat.not_lt.2 hfits), if_pos hfits]
    exact congrArg Arrival.whole hfront
  · rw [if_pos (by simpa using hfits), if_neg hfits]

/-- A datagram that is given and fits arrives whole. -/
theorem Gives.supply_eq (policy : Policy) {t : Bytes × σ} {datagram : Bytes}
    (h : Gives t.2 t.1 datagram) (hsize : datagram.length ≤ t.1.length) :
    supply policy t = (supply policy (afterReceive t)).cons (.whole datagram) := by
  have hfetch := fetch_of_ok policy h.receipt_eq
  rw [supply_of_ok (hfetch.trans (Prod.ext h.receipt_eq rfl)), ← Arrival.ofDatagram_of_le hsize,
    ← h.ofReceipt_eq]
  rfl

/-- Datagrams that are delivered and fit the buffer are supplied first. -/
theorem supply_of_delivers (policy : Policy) {ds : List Bytes} {t : Bytes × σ}
    (h : Delivers ds t.2) (hsize : ∀ d ∈ ds, d.length ≤ t.1.length) :
    ∃ more failure, supply policy t = ⟨ds.map .whole ++ more, failure⟩ := by
  induction ds generalizing t with
  | nil => exact ⟨_, _, rfl⟩
  | cons d ds ih =>
      obtain ⟨hgives, hlater⟩ := h t.1
      obtain ⟨hd, hds⟩ := List.forall_mem_cons.1 hsize
      have hlength : (afterReceive t).1.length = t.1.length := length_receive
      obtain ⟨more, failure, hsupply⟩ := ih (t := afterReceive t) hlater (by rwa [hlength])
      refine ⟨more, failure, ?_⟩
      rw [hgives.supply_eq policy hd, hsupply]
      rfl

/-- To fetch datagrams that are delivered takes one receive for each. -/
theorem iterate_afterFetch_of_delivers (policy : Policy) {ds : List Bytes} {t : Bytes × σ}
    {n : Nat} (h : Delivers ds t.2) (hn : n ≤ ds.length) :
    (afterFetch policy)^[n] t = afterReceive^[n] t := by
  induction n generalizing ds t with
  | zero => rfl
  | succ n ih =>
      cases ds with
      | nil => simp at hn
      | cons d ds =>
          obtain ⟨hgives, hlater⟩ := h t.1
          rw [Function.iterate_succ_apply, Function.iterate_succ_apply,
            hgives.afterFetch_eq policy]
          exact ih hlater (Nat.le_of_succ_le_succ hn)

end Endpoint

/-! ### Scripted peers -/

namespace ScriptedPeer

/-- A script that gives a datagram without a report of its own gives it honestly. -/
theorem gives_of_deliveries {p : ScriptedPeer} {datagram : Bytes}
    {later : List (Except CallFailure Delivery)}
    (h : p.deliveries = .ok { datagram } :: later) (buffer : Bytes) :
    Endpoint.Gives p buffer datagram := by
  constructor
  · rw [endpoint_receive, receive, h]
    rfl
  · rw [endpoint_receive, receive, h]
    change (overwrite buffer datagram).take _ = datagram.take buffer.length
    rw [overwrite]
    exact List.take_left' (by rw [List.length_take, Nat.min_comm])

/-- A scripted peer delivers the datagrams that its script begins with. -/
theorem delivers_of_prefix {p : ScriptedPeer} {ds : List Bytes}
    (h : ds.map (fun datagram => .ok { datagram }) <+: p.deliveries) :
    Endpoint.Delivers ds p := by
  induction ds generalizing p with
  | nil => trivial
  | cons d ds ih =>
      obtain ⟨later, hscript⟩ := h
      rw [List.map_cons, List.cons_append] at hscript
      intro buffer
      refine ⟨gives_of_deliveries hscript.symm buffer, ih ⟨later, ?_⟩⟩
      rw [endpoint_receive, receive, ← hscript]

end ScriptedPeer

end Netlink
