import CalcChatter.Lib.Comp
import CalcChatter.Cxx.String

/-!
# `UdpSocket` (Chatter/transport.h:75-205)

The operating system is a party of its own: every system call takes what the call comes back with as
an argument, so "for every outcome" is a quantifier. What is documented about the calls is in the
definitions: `bind` and `sendto` fail on an invalid descriptor, `sendto` takes no more than a
datagram holds and puts the whole buffer into one, `recvfrom` gives the first `buffer_size` bytes of
a datagram and drops the others.

| here | there |
| --- | --- |
| `SockAddr`  | `sockaddr_in`; the port in the byte order of the machine |
| `inetAddr`  | `inet_addr`, a parameter everywhere |
| `Bound`     | what `bind` and then `getsockname` report |
| `Sent`      | what `sendto` reports; the source address is the system's choice |
| `Arrival`   | what `recvfrom` finds: a datagram, or nothing within the timeout |
-/

namespace CalcChatter.Chat

open Cxx Fuel Fuel.Comp

structure SockAddr where
  addr : UInt32
  port : UInt16
deriving DecidableEq, Repr

structure Datagram where
  src : SockAddr
  dst : SockAddr
  payload : Bytes
deriving DecidableEq, Repr

def invalidSocket : Int := -1

def socketError : Int := -1

def inaddrAny : UInt32 := 0

/-- An endpoint of one host: an address that stands for no other, and a port. From 224.0.0.0 on addresses
are for groups or for all, and `INADDR_NONE`, which `inet_addr` returns for a text that is no address, is
among them; the first octet of `s_addr` is its low byte. -/
structure SockAddr.Concrete (e : SockAddr) : Prop where
  notAny : e.addr ≠ inaddrAny
  unicast : e.addr % 256 < 224
  port : e.port ≠ 0

/-- The longest payload of a UDP datagram. -/
def maxPayload : Nat := 65507

inductive Bound where
  | refused                     -- `bind` fails
  | unnamed                     -- `bind` succeeds and `getsockname` fails
  | named (endpoint : SockAddr)
deriving DecidableEq

inductive Sent where
  | error
  | success (src : SockAddr)
deriving DecidableEq

inductive Arrival where
  | error
  | datagram (d : Datagram)
deriving DecidableEq

/-- `sendto`: the return code and the datagram that leaves. -/
def sendto (sockfd : Int) (remote : SockAddr) (data : Bytes) : Sent → Int × Option Datagram
  | .error => (socketError, none)
  | .success src =>
    if sockfd = invalidSocket ∨ maxPayload < data.length then (socketError, none)
    else (data.length, some ⟨src, remote, data⟩)

/-- `recvfrom` into the buffer `data`: the return code, the buffer and the source address. -/
def recvfrom (data : Bytes) (bufferSize : Nat) (remote : SockAddr) : Arrival → Int × Bytes × SockAddr
  | .error => (socketError, data, remote)
  | .datagram d =>
    let got := d.payload.take bufferSize
    (got.length, got ++ data.drop got.length, d.src)

structure UdpSocket where
  endpoint : SockAddr
  sockfd : Int
deriving DecidableEq

namespace UdpSocket

variable (inetAddr : Bytes → UInt32)

/-- The constructor (:77); `fd` is what `socket` returns. -/
def new (port : UInt16) (ip : Option Bytes) (fd : Int) : UdpSocket where
  endpoint := ⟨match ip with | some ip => inetAddr (cStr ip) | none => inaddrAny, port⟩
  sockfd := fd

def isOpen (s : UdpSocket) : Bool := s.sockfd != invalidSocket

/-- `Bind` (:119). -/
def bind (s : UdpSocket) (r : Bound) : Bool × UdpSocket :=
  if s.sockfd = invalidSocket then (false, s)
  else match r with
    | .refused => (false, s)
    | .unnamed => (false, s)
    | .named endpoint => (true, { s with endpoint })

/-- `SendTo(remote, data)` (:156). -/
def sendToAddr (s : UdpSocket) (remote : SockAddr) (data : Bytes) (r : Sent) : Int × Option Datagram :=
  sendto s.sockfd remote data r

/-- `SendTo(destIp, data)` (:145): to the port of the socket's own endpoint. -/
def sendTo (s : UdpSocket) (destIp data : Bytes) (r : Sent) : Int × Option Datagram :=
  s.sendToAddr ⟨inetAddr (cStr destIp), s.endpoint.port⟩ data r

/-- `RecvFrom<string>` (:173). Which datagrams can arrive is up to the network; the call itself
only reads the descriptor. -/
def recvFrom (_ : UdpSocket) (bufferSize : Nat) (a : Arrival) : SockAddr × Bytes :=
  let data := resize [] bufferSize
  let (rc, data, remote) := recvfrom data bufferSize ⟨0, 0⟩ a
  if rc = socketError then (remote, resize data 0) else (remote, resize data rc.toNat)

/-! ## Specifications -/

@[simp] theorem isOpen_new (port : UInt16) (ip : Option Bytes) (fd : Int) :
    (new inetAddr port ip fd).isOpen = (fd != invalidSocket) := rfl

theorem bind_named {s : UdpSocket} (hs : s.isOpen = true) (endpoint : SockAddr) :
    s.bind (.named endpoint) = (true, { s with endpoint }) := by
  have hfd : s.sockfd ≠ invalidSocket := by simpa [isOpen] using hs
  simp [bind, hfd]

/-- An attempt that fails leaves the socket as it is. -/
theorem bind_refused {s : UdpSocket} {r : Bound} (h : (s.bind r).1 = false) : (s.bind r).2 = s := by
  unfold bind at h ⊢
  split
  · rfl
  · next hfd =>
    rw [if_neg hfd] at h
    cases r with
    | refused | unnamed => rfl
    | named endpoint => cases h

theorem bind_sockfd (s : UdpSocket) (r : Bound) : (s.bind r).2.sockfd = s.sockfd := by
  unfold bind
  split
  · rfl
  · cases r <;> rfl

theorem isOpen_of_bind {s : UdpSocket} {r : Bound} (h : (s.bind r).1 = true) : s.isOpen = true := by
  by_contra hs
  have hfd : s.sockfd = invalidSocket := by simpa [isOpen] using hs
  simp [bind, hfd] at h

/-- A datagram that leaves carries exactly the data. -/
theorem sendTo_datagram {s : UdpSocket} {destIp data : Bytes} {r : Sent} {d : Datagram}
    (h : (s.sendTo inetAddr destIp data r).2 = some d) : d.payload = data ∧
      d.dst = ⟨inetAddr (cStr destIp), s.endpoint.port⟩ ∧ data.length ≤ maxPayload := by
  cases r with
  | error => cases h
  | success src =>
    simp only [sendTo, sendToAddr, sendto] at h
    split at h
    · cases h
    · next hok => cases h; exact ⟨rfl, rfl, by omega⟩

/-- Nothing leaves where the system fails, on a socket that was not made, and of data that no datagram
holds. -/
theorem sendTo_none_iff {s : UdpSocket} {destIp data : Bytes} {r : Sent} :
    (s.sendTo inetAddr destIp data r).2 = none ↔ r = .error ∨ s.sockfd = invalidSocket ∨ maxPayload < data.length := by
  cases r with
  | error => simp [sendTo, sendToAddr, sendto]
  | success src =>
    simp only [sendTo, sendToAddr, sendto]
    split <;> simp_all

/-- The return code says whether a datagram left. -/
theorem sendTo_fails_iff {s : UdpSocket} {destIp data : Bytes} {r : Sent} :
    (s.sendTo inetAddr destIp data r).1 = socketError ↔ (s.sendTo inetAddr destIp data r).2 = none := by
  cases r with
  | error => simp [sendTo, sendToAddr, sendto]
  | success src =>
    have hrc : (data.length : Int) ≠ socketError := by unfold socketError; omega
    simp only [sendTo, sendToAddr, sendto]
    split <;> simp [hrc]

@[simp] theorem recvFrom_error (s : UdpSocket) (n : Nat) : (s.recvFrom n .error).2 = [] := by
  simp [recvFrom, recvfrom, resize]

@[simp] theorem recvFrom_datagram (s : UdpSocket) (n : Nat) (d : Datagram) :
    s.recvFrom n (.datagram d) = (d.src, d.payload.take n) := by
  have hrc : ((d.payload.take n).length : Int) ≠ socketError := by unfold socketError; omega
  simp only [recvFrom, recvfrom, hrc, ↓reduceIte, Int.toNat_natCast, resize, List.take_left', List.length_append]
  simp

end UdpSocket

end CalcChatter.Chat
