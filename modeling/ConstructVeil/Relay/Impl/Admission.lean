import ConstructVeil.Util.ByteSeq
import ConstructVeil.Util.Machine

/-!
This module contains the admission control of the relay: the two caps, the accept loop, and the
tasks of the connections as far as they hold a slot.
-/

namespace Veil

abbrev Ipv4Addr := ByteArr 4
abbrev Ipv6Addr := ByteArr 16

inductive IpAddr where
  | v4 (addr : Ipv4Addr)
  | v6 (addr : Ipv6Addr)
  deriving DecidableEq

def Ipv6Addr.toIpv4Mapped (addr : Ipv6Addr) : Option Ipv4Addr :=
  if addr.val.take 12 = [0, 0, 0, 0, 0, 0, 0, 0, 0, 0, 0xff, 0xff] then
    some ⟨addr.val.drop 12, by simp⟩
  else
    none

def Ipv6Addr.slash64 (addr : Ipv6Addr) : Ipv6Addr :=
  ⟨addr.val.take 8 ++ List.replicate 8 0, by simp⟩

def perIpBucket : IpAddr → IpAddr
  | .v4 addr => .v4 addr
  | .v6 addr =>
    match addr.toIpv4Mapped with
    | some v4 => .v4 v4
    | none => .v6 addr.slash64

structure Admission where
  -- The permits of the semaphore that are free
  handshakes : Nat
  perIp : IpAddr → Option UInt32
  maxPerIp : UInt32

namespace Admission

def new (maxHandshakes : Nat) (maxPerIp : UInt32) : Admission where
  handshakes := max maxHandshakes 1
  perIp _ := none
  maxPerIp := max maxPerIp 1

def insert (a : Admission) (ip : IpAddr) (count : UInt32) : Admission :=
  { a with perIp := fun ip' => if ip' = ip then some count else a.perIp ip' }

def remove (a : Admission) (ip : IpAddr) : Admission :=
  { a with perIp := fun ip' => if ip' = ip then none else a.perIp ip' }

/--
The bucket that the guard is for, or `none` if it is at its cap.
-/
def admitIp (a : Admission) (ip : IpAddr) : Option IpAddr × Admission :=
  let ip := perIpBucket ip
  let count := (a.perIp ip).getD 0
  let a := a.insert ip count
  if count ≥ a.maxPerIp then
    (none, a)
  else
    (some ip, a.insert ip (count + 1))

def dropGuard (a : Admission) (ip : IpAddr) : Admission :=
  match a.perIp ip with
  | none => a
  | some count =>
    let count := count - 1
    if count = 0 then
      a.remove ip
    else
      a.insert ip count

def tryAcquire (a : Admission) : Option Admission :=
  if a.handshakes = 0 then none else some { a with handshakes := a.handshakes - 1 }

def release (a : Admission) : Admission := { a with handshakes := a.handshakes + 1 }

end Admission

/--
When a handshake fails, the guard of the connection is dropped before its permit.
-/
inductive ConnPhase where
  | handshaking
  | established
  | failing
  | ended
  deriving DecidableEq

structure Conn where
  peer : IpAddr
  -- The bucket of its `IpGuard`
  guard : IpAddr
  phase : ConnPhase
  deriving DecidableEq

/--
Where the accept loop stands: before the next connection, with a permit and before the cap of the
peer, or with the permit of a connection that was shed for its peer.
-/
inductive AcceptLoop where
  | accepting
  | admitting (peer : IpAddr)
  | shedding
  deriving DecidableEq

structure RelayState where
  admission : Admission
  loop : AcceptLoop
  conns : List Conn
  shedGlobal : Nat
  shedPerIp : Nat

inductive RelayAction where
  | accept (peer : IpAddr)
  | admitPeer
  | dropPermit
  | handshakeDone (conn : Nat)
  -- It fails or times out
  | handshakeFails (conn : Nat)
  | dropConnPermit (conn : Nat)
  | connectionEnds (conn : Nat)
  deriving DecidableEq

namespace RelayState

def init (maxHandshakes : Nat) (maxConnsPerIp : UInt32) : RelayState :=
  ⟨.new maxHandshakes maxConnsPerIp, .accepting, [], 0, 0⟩

def step (s : RelayState) : RelayAction → Option RelayState
  | .accept peer =>
    match s.loop with
    | .accepting =>
      match s.admission.tryAcquire with
      | none => some { s with shedGlobal := s.shedGlobal + 1 }
      | some admission => some { s with admission := admission, loop := .admitting peer }
    | _ => none
  | .admitPeer =>
    match s.loop with
    | .admitting peer =>
      match s.admission.admitIp peer with
      | (none, admission) =>
        some { s with admission := admission, loop := .shedding, shedPerIp := s.shedPerIp + 1 }
      | (some guard, admission) =>
        some { s with
          admission := admission
          loop := .accepting
          conns := s.conns ++ [⟨peer, guard, .handshaking⟩] }
    | _ => none
  | .dropPermit =>
    match s.loop with
    | .shedding => some { s with admission := s.admission.release, loop := .accepting }
    | _ => none
  | .handshakeDone conn =>
    match s.conns[conn]? with
    | some ⟨peer, guard, .handshaking⟩ =>
      some { s with
        admission := s.admission.release
        conns := s.conns.set conn ⟨peer, guard, .established⟩ }
    | _ => none
  | .handshakeFails conn =>
    match s.conns[conn]? with
    | some ⟨peer, guard, .handshaking⟩ =>
      some { s with
        admission := s.admission.dropGuard guard
        conns := s.conns.set conn ⟨peer, guard, .failing⟩ }
    | _ => none
  | .dropConnPermit conn =>
    match s.conns[conn]? with
    | some ⟨peer, guard, .failing⟩ =>
      some { s with
        admission := s.admission.release
        conns := s.conns.set conn ⟨peer, guard, .ended⟩ }
    | _ => none
  | .connectionEnds conn =>
    match s.conns[conn]? with
    | some ⟨peer, guard, .established⟩ =>
      some { s with
        admission := s.admission.dropGuard guard
        conns := s.conns.set conn ⟨peer, guard, .ended⟩ }
    | _ => none

end RelayState

end Veil
