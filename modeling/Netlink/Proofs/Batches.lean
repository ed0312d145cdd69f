import Mathlib.Algebra.Ring.Nat
import Netlink.Proofs.Packing

/-!
# The Batches of a Packer

One packer serves for many datagrams: messages are pushed, the datagram is taken or given
up, and the packer starts anew. This module makes calls on a packer in any order and says
what is due after each: the messages that were pushed since the packer was last emptied.

Nothing of an earlier datagram is left in a later one, and what is taken is a datagram from
which exactly these messages are read back, with no octet left over.

## Main results

* `Packer.length_pack`: how large the datagram of some messages is.
* `Datagram.holds_pack`: what was packed is read back to the last octet.
* `Packer.calls_forall₂_due`: **every call gives what is due**, whatever calls were made
  before.
-/

namespace Netlink

/-! ### Reading a datagram to its last octet -/

namespace Datagram

/-- A datagram holds these messages and no more: they are read off it in order, then nothing
is, for ever, and no octet is left. -/
structure Holds (datagram : Bytes) (ms : List Message) : Prop where
  messages_eq : (walk (.whole datagram)).1.map (·.1) = ms
  next?_eq : next? (walk (.whole datagram)).2 = (none, (walk (.whole datagram)).2)
  remaining_eq : (walk (.whole datagram)).2.remaining = 0

/-- What a walk over a datagram finds is what is unpacked from it. -/
theorem walk_fst_map_fst (datagram : Bytes) :
    (walk (.whole datagram)).1.map (·.1) = messages datagram := by
  simp [walk, messages, Framing.entries, List.map_map, Function.comp_def]

/-- What it leaves is what the framing leaves of the window. -/
theorem walk_snd (w : Window) : (walk w).2 = framing.left w := rfl

/-- A datagram of which nothing is left holds what is unpacked from it. -/
theorem holds_of_left {datagram : Bytes} {position : Nat}
    (h : framing.left (.whole datagram) = ⟨position, []⟩) : Holds datagram (messages datagram) where
  messages_eq := walk_fst_map_fst datagram
  next?_eq := by
    rw [walk_snd, h, next?, Framing.next?_nil]
    rfl
  remaining_eq := by
    rw [walk_snd, h]
    rfl

/-- **What was packed is read back to the last octet.** -/
theorem holds_pack {ms : List Message} (h : ∀ m ∈ ms, m.WellFormed) :
    Holds (Packer.pack ms) ms := by
  have hproper : ∀ e ∈ ms.map Message.entry, e.Proper framing := by
    simpa using fun m hm => (h m hm).proper_entry
  have hleft : ∃ position, framing.left (.whole (Packer.pack ms)) = ⟨position, []⟩ := by
    rcases ms.eq_nil_or_concat' with rfl | ⟨ms, m, rfl⟩
    · exact ⟨0, framing.left_nil 0⟩
    · rw [List.map_append, List.map_singleton] at hproper
      have hchain := Framing.left_chain_concat hproper 0
      rw [List.flatMap_map] at hchain
      rw [Packer.pack_concat]
      exact ⟨_, hchain⟩
  obtain ⟨position, hleft⟩ := hleft
  have hholds := holds_of_left hleft
  rwa [messages_pack h] at hholds

end Datagram

namespace Packer

/-! ### Calls on a packer -/

/-- A call on a packer. -/
inductive Call where
  | push (m : Message)
  | take
  | clear
  deriving DecidableEq, Repr

/-- Makes a call: the datagram that it took, if it takes one, and the packer after it. -/
def call (p : Packer) : Call → Option Bytes × Packer
  | .push m => (none, p.push m)
  | .take => (some p.take.1, p.take.2)
  | .clear => (none, p.clear)

/-- Makes calls in order. Each gives the datagram that it took, if it takes one, and the size
of the packer after it. -/
def calls : Packer → List Call → List (Option Bytes × Nat)
  | _, [] => []
  | p, c :: cs => ((p.call c).1, (p.call c).2.size) :: calls (p.call c).2 cs

/-- The messages that a packer with these messages holds after a call. -/
def Call.held (ms : List Message) : Call → List Message
  | .push m => ms ++ [m]
  | .take => []
  | .clear => []

/-- What is due from each of some calls on a packer with these messages: the messages in the
datagram taken, if one is, and the messages held after the call. -/
def due : List Message → List Call → List (Option (List Message) × List Message)
  | _, [] => []
  | ms, c :: cs => (if c = .take then some ms else none, c.held ms) :: due (c.held ms) cs

/-! ### Every call gives what is due -/

/-- The size of a datagram that holds these messages: the sum of their sizes, each but the last
brought to the next boundary. -/
def packedSize (ms : List Message) : Nat :=
  (ms.dropLast.map fun m => aligned m.size).sum + (ms.getLast?.map Message.size).getD 0

/-- A packed datagram has the size that its messages make up. -/
theorem length_pack (ms : List Message) : (pack ms).length = packedSize ms := by
  rcases ms.eq_nil_or_concat' with rfl | ⟨ms, m, rfl⟩
  · rfl
  · simp [pack_concat, packedSize, List.length_flatMap, Message.size]

/-- A call on a packer that holds some messages leaves one that holds what it should. -/
theorem call_pack (ms : List Message) (c : Call) :
    (call ⟨pack ms⟩ c).2 = ⟨pack (c.held ms)⟩ := by
  cases c with
  | push m =>
      rw [call, Call.held, pack_append_singleton]
      rfl
  | take => rfl
  | clear => rfl

/-- A call takes the datagram of the messages held, if it takes one. -/
theorem call_pack_fst (ms : List Message) (c : Call) :
    (call ⟨pack ms⟩ c).1 = if c = .take then some (pack ms) else none := by
  cases c <;> rfl

/-- If only well-formed messages are pushed, the messages held are well-formed. -/
theorem wellFormed_held {ms : List Message} {c : Call} (hms : ∀ m ∈ ms, m.WellFormed)
    (hc : ∀ m, c = .push m → m.WellFormed) : ∀ m ∈ c.held ms, m.WellFormed := by
  cases c with
  | push m =>
      rw [Call.held, List.forall_mem_append, List.forall_mem_singleton]
      exact ⟨hms, hc m rfl⟩
  | take => simp [Call.held]
  | clear => simp [Call.held]

/-- What a call gives and what is due from it: the datagram taken holds the messages that it
should, and the packer has the size of what it should hold. -/
def Meets (given : Option Bytes × Nat) (due : Option (List Message) × List Message) : Prop :=
  Option.Rel Datagram.Holds given.1 due.1 ∧ given.2 = packedSize due.2

/-- A call on a packer with well-formed messages gives what is due from it. -/
theorem meets_call {ms : List Message} (hms : ∀ m ∈ ms, m.WellFormed) (c : Call) :
    Meets ((call ⟨pack ms⟩ c).1, (call ⟨pack ms⟩ c).2.size)
      (if c = .take then some ms else none, c.held ms) := by
  refine ⟨?_, ?_⟩
  · rw [call_pack_fst]
    by_cases hc : c = .take
    · rw [if_pos hc, if_pos hc]
      exact .some (Datagram.holds_pack hms)
    · rw [if_neg hc, if_neg hc]
      exact .none
  · rw [call_pack, size, length_pack]

/-- **Every call on a packer gives what is due.** Messages are pushed, datagrams taken and
given up in any order, and the messages may have any lengths as long as each is well-formed.
A datagram that is taken holds exactly the messages pushed since the packer was last emptied,
and after every call the packer has the size of the messages that it then holds. -/
theorem calls_forall₂_due {cs : List Call} (h : ∀ m, .push m ∈ cs → m.WellFormed) :
    List.Forall₂ Meets (calls {} cs) (due [] cs) := by
  -- the calls may as well start on a packer that holds messages
  suffices hpack : ∀ ms : List Message, (∀ m ∈ ms, m.WellFormed) →
      List.Forall₂ Meets (calls ⟨pack ms⟩ cs) (due ms cs) from
    hpack [] (List.forall_mem_nil _)
  induction cs with
  | nil =>
      intro ms _
      exact .nil
  | cons c cs ih =>
      intro ms hms
      have hc : ∀ m, c = .push m → m.WellFormed := by
        rintro m rfl
        exact h m (List.mem_cons_self ..)
      have hcs : ∀ m, .push m ∈ cs → m.WellFormed := by
        intro m hm
        exact h m (List.mem_cons_of_mem _ hm)
      rw [calls, due, call_pack]
      refine .cons ?_ (ih hcs (c.held ms) (wellFormed_held hms hc))
      rw [← call_pack]
      exact meets_call hms c

/-- A message of seventeen octets and the end of a dump are taken together, another end is
given up, and then the two are taken in the other order. -/
theorem calls_forall₂_due_after_clear :
    ∃ (odd : Message) (cs : List Call),
      odd = ⟨⟨17, .newLink, .multi, 1, 0⟩, [17, 0, 0, 0, 16, 0, 2, 0, 1, 0, 0, 0, 0, 0, 0, 0, 7]⟩ ∧
      cs = [.push odd, .push (.done 1 0 0), .take, .push (.done 2 0 0), .clear,
        .push (.done 1 0 0), .push odd, .take] ∧
      (∀ m, .push m ∈ cs → m.WellFormed) ∧
      List.Forall₂ Meets (calls {} cs)
        [(none, [odd]), (none, [odd, .done 1 0 0]), (some [odd, .done 1 0 0], []),
          (none, [.done 2 0 0]), (none, []),
          (none, [.done 1 0 0]), (none, [.done 1 0 0, odd]), (some [.done 1 0 0, odd], [])] ∧
      (calls {} cs).map (·.2) = [17, 40, 0, 20, 0, 20, 37, 0] := by
  have hodd : Message.WellFormed ⟨⟨17, .newLink, .multi, 1, 0⟩,
      [17, 0, 0, 0, 16, 0, 2, 0, 1, 0, 0, 0, 0, 0, 0, 0, 7]⟩ := by
    decide
  have hdone₁ : (Message.done 1 0 0).WellFormed := by decide
  have hdone₂ : (Message.done 2 0 0).WellFormed := by decide
  have hcs (odd : Message) (h : odd.WellFormed) :
      ∀ m, Call.push m ∈ [.push odd, .push (.done 1 0 0), .take, .push (.done 2 0 0), .clear,
        .push (.done 1 0 0), .push odd, .take] → m.WellFormed := by
    simpa using ⟨h, hdone₁, hdone₂, hdone₁, h⟩
  refine ⟨_, _, rfl, rfl, hcs _ hodd, calls_forall₂_due (hcs _ hodd), ?_⟩
  decide

end Packer

end Netlink
