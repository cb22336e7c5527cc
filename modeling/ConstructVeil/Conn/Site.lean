import ConstructVeil.Conn.Opening
import ConstructVeil.Conn.Lemmas.Trace

/-!
This module contains what the site gets from a peer that the gate does not let through. The copying
itself is not part of this code, so it is given by what it promises.
-/

namespace Veil

open VeilFrontCodec SockAction Sock

namespace Copier

variable {τ : Type} (copier : Copier τ) (port : Port)

def loop : Loop SockAction τ (Except IoError Unit) :=
  Sock.loop (return .inl copier.start) (copyTo copier port)

/--
The copier writes what it reads: from a point on at which everything was written, it has written
some first bytes of its input at every moment, all of them when it shuts the output down, and
nothing is held back while it waits for more.
-/
structure Copies : Prop where
  carries : ∀ l c, Copied l → (copier.loop port).Reaches (Handles port) l c → c.2.Carries id id
  prompt : ∀ l c, Copied l → (copier.loop port).Reaches (Handles port) l c →
    c.1.Next (fun _ action => action.isRead = true) → c.2.Prompt id id

/--
The copier has come to `state` since everything was written last.
-/
def Copying (state : τ) (l : Log) : Prop :=
  ∃ start, Copied start ∧ (copier.loop port).Reaches (Handles port) start (.done (.inl state), l)

variable {copier port}

theorem Copying.start {l : Log} (h : Copied l) : copier.Copying port copier.start l := ⟨l, h, .refl⟩

theorem Copying.carries {state : τ} {l : Log} (h : copier.Copying port state l)
    (hcopies : copier.Copies port) : l.Carries id id := by
  rcases h with ⟨start, hstart, hreaches⟩
  exact hcopies.carries start _ hstart hreaches

theorem Copying.turn {state : τ} {l : Log} (h : copier.Copying port state l)
    (hcopies : copier.Copies port)
    : Holds port (Sound id id) (copyTo copier port state)
        (Sum.elim (copier.Copying port) fun _ l => l.Carries id id) (fun _ l => l.Carries id id)
          l := by
  rcases h with ⟨start, hstart, hreaches⟩
  have hturn : (copier.loop port).Reaches (Handles port) start
    ((copyTo copier port state).turn, l) :=
    hreaches.again
  have hmeets : (copyTo copier port state).turn.Meets (Handles port) (Sound id id) _ l :=
    hturn.meets_of_reaches fun _ action next log hlog =>
      ⟨hcopies.carries start _ hstart hlog, hcopies.prompt start _ hstart hlog⟩
  apply (Prog.meets_bind.mp hmeets).mono
  rintro (e | state' | u) log hlog
  . exact hcopies.carries start _ hstart hlog
  . exact ⟨start, hstart, hlog⟩
  . exact hcopies.carries start _ hstart hlog

end Copier

section Served

variable {τ : Type} {copier : Copier τ} {cfg : RelayConfig} {exporter : Except String (ByteArr 32)}
  {l : Log}

end Served

section Turned

variable {τ : Type} {copier : Copier τ} {cfg : RelayConfig} {exporter : Except String (ByteArr 32)}
  {bytes : Bytes} {trace : List SockEvent}

theorem dispatchSite_turn (hne : bytes ≠ [])
    : ∃ next next', (dispatchGateResult copier cfg (.site bytes)).turn = .act .connectSite next ∧
        next (.ok ()) = .act (.write .site bytes) next' := by
  rw [Sock.turn, dispatchGateResult, if_neg hne]
  exact ⟨_, _, rfl, rfl⟩

/--
A peer that does not speak the protocol: no frame begins like this.
-/
def getPeer : List SockEvent :=
  [.read none (some 60) (.data [71, 69, 84] (List.cons_ne_nil _ _)), .unixNow 51]

theorem getPeer_gate
    : Prog.Run Records [] (gateWithExporter (toyHop false).cfg (.ok (.fill 32 5))).run
        (.ok (.site [71, 69, 84])) getPeer :=
  .act (.data [71, 69, 84] (List.cons_ne_nil _ _)) rfl (.act (51 : UInt64) rfl (.done _ _))

end Turned

end Veil
