import Netlink.Socket.Kernel

/-!
# Netlink Sockets

A socket is a descriptor that a kernel gave out, for one of the protocols. Binding opens one and
lets the kernel choose its address; a socket that cannot be bound is closed at once. Datagrams are
sent without an address, which sends them to the kernel.

A `Connection` is a socket with the kernel that it belongs to. It is an endpoint, so exchanges
can be run over it.
-/

namespace Netlink

/-- What a socket is for. -/
inductive Protocol where
  | route
  | socketDiagnostics
  | audit
  | netfilter
  | objectEvents
  | generic
  deriving DecidableEq, Repr

namespace Protocol

/-- The number of a protocol. -/
def number : Protocol → Nat
  | route => 0
  | socketDiagnostics => 4
  | audit => 9
  | netfilter => 12
  | objectEvents => 15
  | generic => 16

/-- All protocols, by number. -/
def all : List Protocol := [route, socketDiagnostics, audit, netfilter, objectEvents, generic]

end Protocol

/-- A span of time. -/
structure Duration where
  seconds : UInt64
  /-- Nanoseconds beyond the whole seconds. -/
  nanos : Nat := 0
  nanos_lt : nanos < 1000000000 := by decide

/-- A time limit as the kernel takes it. No limit is zero, and a limit is cut to whole
microseconds. -/
def Duration.timeValue : Option Duration → TimeValue
  | none => ⟨0, 0⟩
  | some d => ⟨d.seconds.toInt64, .ofNat (d.nanos / 1000)⟩

/-- The address of a socket: its own number, and the multicast groups joined. -/
structure Address where
  portId : UInt32 := 0
  groups : UInt32 := 0

namespace Address

/-- The number of the address family. -/
def family : UInt16 := 16

/-- Size of an address in octets. -/
def size : Nat := 12

/-- The octets of an address: family, padding, number, groups. -/
def encode (a : Address) : Bytes :=
  Word.le16 family ++ Word.le16 0 ++ Word.le32 a.portId ++ Word.le32 a.groups

end Address

/-- An open socket. -/
structure Socket where
  descriptor : Nat
  protocol : Protocol
  deriving DecidableEq, Repr

namespace Socket

/-- Type of the sockets opened: raw datagrams, and closed when another program is run. -/
def type : Nat := 3 + 0x80000

/-- Level of the options of sockets in general. -/
def optionLevel : Nat := 1

/-- The option for the time limit of a receive. -/
def receiveTimeout : Nat := 20

/-- A kernel's answer as the outcome of a call on an endpoint. -/
def ofAnswer {α : Type} : Except Errno α → Except CallFailure α
  | .ok a => .ok a
  | .error errno => .error (.system errno)

/-- Opens a socket for a protocol and binds it to an address of the kernel's choice. -/
def bind (protocol : Protocol) (k : Kernel) : Except CallFailure Socket × Kernel :=
  let (opened, k) := k.socket Address.family.toNat type protocol.number
  match opened with
  | .error errno => (.error (.system errno), k)
  | .ok descriptor =>
    let (bound, k) := k.bind descriptor (Address.encode {})
    match bound with
    | .error errno => (.error (.system errno), k.close descriptor)
    | .ok () => (.ok ⟨descriptor, protocol⟩, k)

/-- The netlink address that the kernel assigned. -/
def portId (s : Socket) (k : Kernel) : Except CallFailure UInt32 × Kernel :=
  let (answer, k) := k.getsockname s.descriptor Address.size
  (ofAnswer answer, k)

/-- Sets how long a receive may wait. -/
def setReadTimeout (s : Socket) (limit : Option Duration) (k : Kernel) :
    Except CallFailure Unit × Kernel :=
  let (answer, k) :=
    k.setsockopt s.descriptor optionLevel receiveTimeout (Duration.timeValue limit)
  (ofAnswer answer, k)

/-- Sends a datagram to the kernel. -/
def send (s : Socket) (k : Kernel) (datagram : Bytes) : Except CallFailure Nat × Kernel :=
  let (answer, k) := k.sendmsg s.descriptor 0 0 datagram
  (ofAnswer answer, k)

/-- Receives a datagram into a buffer. The count is cut to the size of the buffer, whatever the
kernel returned. -/
def receive (s : Socket) (k : Kernel) (buffer : Bytes) :
    Except CallFailure Receipt × Bytes × Kernel :=
  let (answer, filled, k) := k.recvmsg s.descriptor 0 buffer
  let receipt := answer.map fun (returned, flags) =>
    { count := min returned buffer.length, truncated := flags &&& truncationFlag = truncationFlag }
  (ofAnswer receipt, filled, k)

/-- Closes the socket. -/
def close (s : Socket) (k : Kernel) : Kernel := k.close s.descriptor

/-! ### The calls made -/

/-- To bind is to open and to bind. If opening fails, that is all; if binding fails, what was
opened is closed again, and the number of the failed binding is returned. -/
theorem bind_cases (protocol : Protocol) (k : Kernel) :
    let opening := k.socket Address.family.toNat type protocol.number
    let opened := Call.socket Address.family.toNat type protocol.number
    (∃ errno, opening.1 = .error errno ∧
      (bind protocol k).1 = .error (.system errno) ∧
      (bind protocol k).2.log = k.log ++ [opened none]) ∨
    (∃ d errno, opening.1 = .ok d ∧ (opening.2.bind d (Address.encode {})).1 = .error errno ∧
      (bind protocol k).1 = .error (.system errno) ∧
      (bind protocol k).2.log
        = k.log ++ [opened (some d), .bind d (Address.encode {}), .close d]) ∨
    ∃ d, opening.1 = .ok d ∧ (opening.2.bind d (Address.encode {})).1 = .ok () ∧
      (bind protocol k).1 = .ok ⟨d, protocol⟩ ∧
      (bind protocol k).2.log = k.log ++ [opened (some d), .bind d (Address.encode {})] := by
  intro opening opened
  have hlog : opening.2.log = k.log ++ [opened opening.1.toOption] := k.log_socket _ _ _
  have hbind : bind protocol k = match opening.1 with
      | .error errno => (.error (.system errno), opening.2)
      | .ok d =>
        let binding := opening.2.bind d (Address.encode {})
        match binding.1 with
        | .error errno => (.error (.system errno), binding.2.close d)
        | .ok () => (.ok ⟨d, protocol⟩, binding.2) := rfl
  cases ho : opening.1 with
  | error errno =>
    rw [ho] at hlog hbind
    exact .inl ⟨errno, rfl, by rw [hbind], by rw [hbind, hlog]; rfl⟩
  | ok d =>
    have hcalls : (opening.2.bind d (Address.encode {})).2.log
        = k.log ++ [opened (some d), .bind d (Address.encode {})] := by
      rw [Kernel.log_bind, hlog, ho, List.append_assoc]
      rfl
    rw [ho] at hbind
    cases hb : (opening.2.bind d (Address.encode {})).1 with
    | error errno =>
      refine .inr (.inl ⟨d, errno, rfl, hb, ?_, ?_⟩)
      · simp only [hbind, hb]
      · simp only [hbind, hb, Kernel.log_close, hcalls, List.append_assoc, List.cons_append,
          List.nil_append]
    | ok _ =>
      exact .inr (.inr ⟨d, rfl, hb, by simp only [hbind, hb], by simp only [hbind, hb, hcalls]⟩)

/-- To ask a socket for its address is one call on its descriptor. -/
theorem log_portId (s : Socket) (k : Kernel) :
    (s.portId k).2.log = k.log ++ [.getsockname s.descriptor Address.size] :=
  k.log_getsockname _ _

/-- To limit the time of its receives is one call, with the limit as the kernel is told it. -/
theorem log_setReadTimeout (s : Socket) (limit : Option Duration) (k : Kernel) :
    (s.setReadTimeout limit k).2.log
      = k.log ++ [.setsockopt s.descriptor optionLevel receiveTimeout
          (Duration.timeValue limit)] :=
  k.log_setsockopt _ _ _ _

/-- To send a datagram is one call, on the descriptor of the socket. -/
theorem log_send (s : Socket) (k : Kernel) (datagram : Bytes) :
    (s.send k datagram).2.log = k.log ++ [.sendmsg s.descriptor 0 0 datagram] :=
  k.log_sendmsg _ _ _ _

/-- To receive a datagram is one call, with the whole buffer. -/
theorem log_receive (s : Socket) (k : Kernel) (buffer : Bytes) :
    (s.receive k buffer).2.2.log = k.log ++ [.recvmsg s.descriptor 0 buffer.length] :=
  k.log_recvmsg _ _ _

/-- To close a socket is to close its descriptor. -/
theorem log_close (s : Socket) (k : Kernel) :
    (s.close k).log = k.log ++ [.close s.descriptor] := rfl

end Socket

/-- A socket and the kernel that it belongs to. -/
structure Connection where
  socket : Socket
  kernel : Kernel

namespace Connection

/-- Sends a datagram over the connection. -/
def send (c : Connection) (datagram : Bytes) : Except CallFailure Nat × Connection :=
  let (outcome, kernel) := c.socket.send c.kernel datagram
  (outcome, { c with kernel })

/-- Receives a datagram over the connection. -/
def receive (c : Connection) (buffer : Bytes) :
    Except CallFailure Receipt × Bytes × Connection :=
  let (outcome, buffer, kernel) := c.socket.receive c.kernel buffer
  (outcome, buffer, { c with kernel })

/-- Asks for the netlink address of the connection. -/
def portId (c : Connection) : Except CallFailure UInt32 × Connection :=
  let (outcome, kernel) := c.socket.portId c.kernel
  (outcome, { c with kernel })

instance : Endpoint Connection where
  send := send
  receive := receive
  portId := portId
  pending c := c.kernel.pending
  pending_send_lt {c datagram} h := by
    simp only [send, Socket.send] at h ⊢
    cases ha : (c.kernel.sendmsg c.socket.descriptor 0 0 datagram).1 with
    | error errno => exact Kernel.pending_sendmsg_lt ha
    | ok taken => simp [ha, Socket.ofAnswer, interruptedCall] at h
  pending_interrupted_lt {c buffer} h := by
    simp only [receive, Socket.receive] at h ⊢
    cases ha : (c.kernel.recvmsg c.socket.descriptor 0 buffer).1 with
    | error errno =>
      refine Kernel.pending_recvmsg_lt_of_error ha ?_
      rintro rfl
      simp [ha, Except.map, Socket.ofAnswer, interruptedCall] at h
      revert h
      decide
    | ok answer => simp [ha, Except.map, Socket.ofAnswer, interruptedCall] at h
  pending_receive_lt {c buffer receipt} h := by
    simp only [receive, Socket.receive] at h ⊢
    cases ha : (c.kernel.recvmsg c.socket.descriptor 0 buffer).1 with
    | error errno => simp [ha, Except.map, Socket.ofAnswer] at h
    | ok answer =>
      have hlt := Kernel.pending_recvmsg_lt_of_ok ha
      simp only [ha, Except.map, Socket.ofAnswer] at h
      obtain rfl := Except.ok.inj h
      exact Nat.lt_of_le_of_lt (Nat.add_le_add_left (Nat.min_le_left _ _) _) hlt
  length_receive {c buffer} := by
    simp [receive, Socket.receive]

end Connection

end Netlink
