import Netlink.Endpoint.Scripted
import Netlink.Fault.Errno

/-!
# A Kernel and Its Calls

The seven calls that a socket makes on a kernel, as a script of what comes of them. Each call
takes the next answer from the list for its name and is entered in the log with its arguments.
Once a list is used up its call succeeds, with an answer of no surprise; only a receive then
finds that nothing is there. Closing always succeeds.
-/

namespace Netlink

/-- A time span as the kernel takes it. -/
structure TimeValue where
  seconds : Int64
  micros : Int64
  deriving DecidableEq, Repr

/-- A call on the kernel, with its arguments. Opening a socket is entered with the descriptor
that it gave. -/
inductive Call where
  | socket (family type protocol : Nat) (opened : Option Nat)
  | bind (descriptor : Nat) (address : Bytes)
  | getsockname (descriptor addressSize : Nat)
  | setsockopt (descriptor level option : Nat) (value : TimeValue)
  | sendmsg (descriptor flags nameSize : Nat) (datagram : Bytes)
  | recvmsg (descriptor flags capacity : Nat)
  | close (descriptor : Nat)
  deriving DecidableEq, Repr

/-- What the kernel delivers to a receive. -/
structure KernelDelivery where
  datagram : Bytes := []
  /-- The number returned, if it is not that of the octets copied. -/
  returned : Option Nat := none
  /-- The flags set, if they are not decided by the sizes. -/
  flags : Option UInt32 := none
  deriving DecidableEq, Repr

/-- The flag that says that a datagram was cut. -/
def truncationFlag : UInt32 := 0x20

/-- A kernel that follows a script. -/
structure Kernel where
  sockets : List (Except Errno Nat) := []
  binds : List (Except Errno Unit) := []
  names : List (Except Errno UInt32) := []
  options : List (Except Errno Unit) := []
  sends : List (Except Errno (Option Nat)) := []
  deliveries : List (Except Errno KernelDelivery) := []
  /-- The descriptor of the next socket once the script for sockets is used up. -/
  spare : Nat := 3
  /-- The calls made so far. -/
  log : List Call := []

namespace Kernel

/-- The netlink address that the kernel assigns if the script does not say. -/
def assignedId : UInt32 := 4242

/-- Enters a call in the log. -/
def enter (k : Kernel) (call : Call) : Kernel := { k with log := k.log ++ [call] }

/-- Opens a socket; the answer is its descriptor. -/
def socket (k : Kernel) (family type protocol : Nat) : Except Errno Nat × Kernel :=
  let call opened := Call.socket family type protocol opened
  match k.sockets with
  | [] => (.ok k.spare, { k with spare := k.spare + 1 }.enter (call (some k.spare)))
  | answer :: sockets => (answer, { k with sockets }.enter (call answer.toOption))

/-- Binds a socket to an address. -/
def bind (k : Kernel) (descriptor : Nat) (address : Bytes) : Except Errno Unit × Kernel :=
  let call := Call.bind descriptor address
  match k.binds with
  | [] => (.ok (), k.enter call)
  | answer :: binds => (answer, { k with binds }.enter call)

/-- Asks for the address of a socket; the answer is the number in it that the kernel assigned. -/
def getsockname (k : Kernel) (descriptor addressSize : Nat) : Except Errno UInt32 × Kernel :=
  let call := Call.getsockname descriptor addressSize
  match k.names with
  | [] => (.ok assignedId, k.enter call)
  | answer :: names => (answer, { k with names }.enter call)

/-- Sets an option of a socket. -/
def setsockopt (k : Kernel) (descriptor level option : Nat) (value : TimeValue) :
    Except Errno Unit × Kernel :=
  let call := Call.setsockopt descriptor level option value
  match k.options with
  | [] => (.ok (), k.enter call)
  | answer :: options => (answer, { k with options }.enter call)

/-- Sends a datagram; the answer is how many octets were taken. -/
def sendmsg (k : Kernel) (descriptor flags nameSize : Nat) (datagram : Bytes) :
    Except Errno Nat × Kernel :=
  let call := Call.sendmsg descriptor flags nameSize datagram
  match k.sends with
  | [] => (.ok datagram.length, k.enter call)
  | answer :: sends =>
    (answer.map fun taken => taken.getD datagram.length, { k with sends }.enter call)

/-- Receives a datagram into a buffer; the answer is the number returned, with the flags set. -/
def recvmsg (k : Kernel) (descriptor flags : Nat) (buffer : Bytes) :
    Except Errno (Nat × UInt32) × Bytes × Kernel :=
  let call := Call.recvmsg descriptor flags buffer.length
  match k.deliveries with
  | [] => (.error .again, buffer, k.enter call)
  | .error errno :: deliveries => (.error errno, buffer, { k with deliveries }.enter call)
  | .ok d :: deliveries =>
    let returned := d.returned.getD (min d.datagram.length buffer.length)
    let set := d.flags.getD (if buffer.length < d.datagram.length then truncationFlag else 0)
    (.ok (returned, set), overwrite buffer d.datagram, { k with deliveries }.enter call)

/-- Closes a socket. -/
def close (k : Kernel) (descriptor : Nat) : Kernel := k.enter (.close descriptor)

/-! ### The log -/

section Log

variable (k : Kernel)

/-- Opening a socket is logged with the descriptor that came of it, if one did. -/
theorem log_socket (family type protocol : Nat) :
    (k.socket family type protocol).2.log
      = k.log ++ [.socket family type protocol (k.socket family type protocol).1.toOption] := by
  rw [socket]
  split <;> rfl

/-- Binding is logged with what it was given, whatever comes of it, and so are the other calls. -/
@[simp] theorem log_bind (descriptor : Nat) (address : Bytes) :
    (k.bind descriptor address).2.log = k.log ++ [.bind descriptor address] := by
  rw [bind]
  split <;> rfl

@[simp] theorem log_getsockname (descriptor addressSize : Nat) :
    (k.getsockname descriptor addressSize).2.log
      = k.log ++ [.getsockname descriptor addressSize] := by
  rw [getsockname]
  split <;> rfl

@[simp] theorem log_setsockopt (descriptor level option : Nat) (value : TimeValue) :
    (k.setsockopt descriptor level option value).2.log
      = k.log ++ [.setsockopt descriptor level option value] := by
  rw [setsockopt]
  split <;> rfl

@[simp] theorem log_sendmsg (descriptor flags nameSize : Nat) (datagram : Bytes) :
    (k.sendmsg descriptor flags nameSize datagram).2.log
      = k.log ++ [.sendmsg descriptor flags nameSize datagram] := by
  rw [sendmsg]
  split <;> rfl

@[simp] theorem log_recvmsg (descriptor flags : Nat) (buffer : Bytes) :
    (k.recvmsg descriptor flags buffer).2.2.log
      = k.log ++ [.recvmsg descriptor flags buffer.length] := by
  rw [recvmsg]
  split <;> rfl

@[simp] theorem log_close (descriptor : Nat) :
    (k.close descriptor).log = k.log ++ [.close descriptor] := rfl

end Log

/-! ### What is left of the script -/

/-- What an entry of the script for receives has to give: the call, and the number that it
returns. -/
def weight : Except Errno KernelDelivery → Nat
  | .error _ => 1
  | .ok d => d.returned.getD d.datagram.length + 1

/-- What the script has left to give to sends and receives. -/
def pending (k : Kernel) : Nat := k.sends.length + k.deliveries.foldr (weight · + ·) 0

/-- A send fails only as the script says, and uses an entry of it up. -/
theorem pending_sendmsg_lt {k : Kernel} {descriptor flags nameSize : Nat} {datagram : Bytes}
    {errno : Errno} (h : (k.sendmsg descriptor flags nameSize datagram).1 = .error errno) :
    (k.sendmsg descriptor flags nameSize datagram).2.pending < k.pending := by
  rw [sendmsg] at h ⊢
  split at h
  · cases h
  · simp_all [pending, enter]

/-- A receive that fails uses an entry of the script up, unless it finds that nothing is there. -/
theorem pending_recvmsg_lt_of_error {k : Kernel} {descriptor flags : Nat} {buffer : Bytes}
    {errno : Errno} (h : (k.recvmsg descriptor flags buffer).1 = .error errno)
    (hagain : errno ≠ .again) :
    (k.recvmsg descriptor flags buffer).2.2.pending < k.pending := by
  rw [recvmsg] at h ⊢
  split at h
  · exact absurd (Except.error.inj h).symm hagain
  · rename_i deliveries hd
    simp only [pending, enter, hd, List.foldr_cons, weight]
    omega
  · cases h

/-- A receive that succeeds uses up more than the number it returns. -/
theorem pending_recvmsg_lt_of_ok {k : Kernel} {descriptor flags : Nat} {buffer : Bytes}
    {returned : Nat} {set : UInt32}
    (h : (k.recvmsg descriptor flags buffer).1 = .ok (returned, set)) :
    (k.recvmsg descriptor flags buffer).2.2.pending + returned < k.pending := by
  rw [recvmsg] at h ⊢
  split at h
  · cases h
  · cases h
  · rename_i d deliveries hd
    obtain ⟨rfl, rfl⟩ := Prod.mk.inj (Except.ok.inj h)
    have : d.returned.getD (min d.datagram.length buffer.length)
        ≤ d.returned.getD d.datagram.length := by
      cases d.returned with
      | none => exact Nat.min_le_left _ _
      | some returned => exact Nat.le_refl _
    simp only [pending, enter, hd, List.foldr_cons, weight]
    omega

/-- A receive does not change the size of the buffer. -/
@[simp] theorem length_recvmsg (k : Kernel) (descriptor flags : Nat) (buffer : Bytes) :
    (k.recvmsg descriptor flags buffer).2.1.length = buffer.length := by
  rw [recvmsg]
  split <;> simp

end Kernel

end Netlink
