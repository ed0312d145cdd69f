import Netlink.Socket.Basic

/-!
# The Number of the Last Error

A call on a kernel does not return the number of an error. If it fails, it returns that it failed
and leaves the number in a cell, where the caller may read it up to the next call; what any other
call leaves in the cell is not said. A caller who has a descriptor to close before it can report an
error has to read the cell before that.

Here calls are made in this way, and what the calls that do not fail leave in the cell is any
function of the calls made. Binding then does what `Socket.bind` does, which carries the number of
a failure with it and knows of no cell.

## Main results

* `Caller.bind_eq`: **binding by the cell is binding, whatever else the calls leave there.**
* `Caller.lastError_bind`: the cell itself does not keep the number.
-/

namespace Netlink

/-- A kernel, with the cell for the number of the last error. -/
structure Caller where
  kernel : Kernel
  lastError : Errno

namespace Caller

variable (leaves : List Call → Errno)

/-- What a call returns: that it failed, with its number in the cell, or its answer. -/
def settle {α : Type} : Except Errno α × Kernel → Option α × Caller
  | (.error errno, k) => (none, ⟨k, errno⟩)
  | (.ok a, k) => (some a, ⟨k, leaves k.log⟩)

/-- Closes a socket. If that fails, no one asks for the number. -/
def close (c : Caller) (descriptor : Nat) : Caller :=
  let k := c.kernel.close descriptor
  ⟨k, leaves k.log⟩

/-- Opens a socket for a protocol and binds it. The number of a failed binding is read from the
cell before the descriptor is closed. -/
def bind (protocol : Protocol) (c : Caller) : Except CallFailure Socket × Caller :=
  let (opened, c) :=
    settle leaves (c.kernel.socket Address.family.toNat Socket.type protocol.number)
  match opened with
  | none => (.error (.system c.lastError), c)
  | some descriptor =>
    let (bound, c) := settle leaves (c.kernel.bind descriptor (Address.encode {}))
    match bound with
    | none =>
      let number := c.lastError
      let c := c.close leaves descriptor
      (.error (.system number), c)
    | some () => (.ok ⟨descriptor, protocol⟩, c)

/-- **Binding by the cell is binding, whatever else the calls leave there**: the outcome is the
same, number included, and so are the calls. -/
theorem bind_eq (protocol : Protocol) (c : Caller) :
    ((bind leaves protocol c).1, (bind leaves protocol c).2.kernel)
      = Socket.bind protocol c.kernel := by
  rw [bind, Socket.bind]
  match c.kernel.socket Address.family.toNat Socket.type protocol.number with
  | (.error errno, k) => rfl
  | (.ok descriptor, k) =>
    match hb : k.bind descriptor (Address.encode {}) with
    | (.error errno, k) => simp only [settle, hb, close]
    | (.ok (), k) => simp only [settle, hb]

/-- Once a descriptor was opened, the cell does not hold the number of a failed binding at the end:
closing the descriptor has left what it leaves. -/
theorem lastError_bind {protocol : Protocol} {c : Caller} {descriptor : Nat}
    (h : (c.kernel.socket Address.family.toNat Socket.type protocol.number).1 = .ok descriptor) :
    (bind leaves protocol c).2.lastError = leaves (bind leaves protocol c).2.kernel.log := by
  rw [bind]
  cases ho : c.kernel.socket Address.family.toNat Socket.type protocol.number with
  | mk opened k =>
    obtain rfl : opened = .ok descriptor := by rwa [ho] at h
    match hb : k.bind descriptor (Address.encode {}) with
    | (.error errno, k) => simp only [settle, hb, close]
    | (.ok (), k) => simp only [settle, hb]

end Caller

end Netlink
