import ConstructVeil.Conn.Lemmas.Relay
import ConstructVeil.Conn.Trace

/-!
This module contains the rules for traces: what a program does is determined by the answers that it
has got so far, so a trace that begins with a run of the first part of a program goes on with the
rest of it.
-/

namespace Veil

open VeilFrontCodec SockAction Sock

namespace SockEvent

@[simp]
theorem received_append (trace more : List SockEvent)
    : received (trace ++ more) = received trace ++ received more := by
  induction trace using received.induct with
  | case1 => rfl
  | case2 limit timer bytes hne trace ih => simp [received, ih]
  | case3 event trace hevent ih => simp [received, ih]

end SockEvent

namespace SockAction

variable {α : Type}

@[simp]
theorem toLeg_record (action : SockAction α) (answer : α)
    : (action.record answer).toLeg = action.toLeg := by
  cases action <;> rfl

@[simp]
theorem toSite_record (action : SockAction α) (answer : α)
    : (action.record answer).toSite = action.touches .site := by
  cases action <;> rfl

end SockAction

section Replay

variable {α σ ρ : Type} {l : Loop SockAction σ ρ} {trace mid trace' : List SockEvent}
  {q : Prog SockAction (σ ⊕ ρ)}

theorem run_ask {ε β : Type} {action : SockAction α} {f : α → Sock ε β} {res : Except ε β}
    (answer : α) (h : Prog.Run Records (trace ++ [action.record answer]) (f answer).run res trace')
    : Prog.Run Records trace (ask action >>= f : Sock ε β).run res trace' :=
  .act answer rfl h

end Replay

section Gate

variable {τ : Type} {copier : Copier τ} {cfg : RelayConfig} {exporter : Except String (ByteArr 32)}
  {result : GateResult} {trace : List SockEvent}

theorem gateOnSocket_run {env : GateEnv} {firstReadTimeout : Nat} {buf : Bytes} {now : UInt64}
    {decision : GateDecision} (hne : buf ≠ []) (h : tryDecodeAuth env buf now = some decision)
    : Prog.Run Records [] (gateOnSocket env firstReadTimeout).run (.ok (decision.consume buf))
        [.read none (some firstReadTimeout) (.data buf hne), .unixNow now] := by
  apply run_ask (.data buf hne)
  apply run_ask now
  rw [h]
  exact .done _ _

theorem reaches_of_gate
    (hgate : Prog.Run Records [] (gateWithExporter cfg exporter).run (.ok result) trace)
    : (handleConnection copier cfg exporter).Reaches Records []
        ((dispatchGateResult copier cfg result).turn, trace) := by
  have hstart : (handleConnection copier cfg exporter).Reaches Records []
      (((gateWithExporter cfg exporter).run >>= _) >>= _, []) := .refl
  rw [Prog.bind_assoc] at hstart
  exact hstart.run hgate

end Gate

section Quiet

variable {trace : List SockEvent}

def NoLeg (trace : List SockEvent) : Prop := ∀ event ∈ trace, event.toLeg = false

def NoSite (trace : List SockEvent) : Prop := ∀ event ∈ trace, event.toSite = false

theorem NoLeg.snoc {α : Type} {action : SockAction α} (h : NoLeg trace)
    (haction : action.toLeg = false) (answer : α) : NoLeg (trace ++ [action.record answer]) := by
  intro event hevent
  rcases List.mem_append.mp hevent with hevent | hevent
  . exact h event hevent
  . rw [List.mem_singleton.mp hevent, SockAction.toLeg_record, haction]

theorem NoSite.snoc {α : Type} {action : SockAction α} (h : NoSite trace)
    (haction : action.touches .site = false) (answer : α)
    : NoSite (trace ++ [action.record answer]) := by
  intro event hevent
  rcases List.mem_append.mp hevent with hevent | hevent
  . exact h event hevent
  . rw [List.mem_singleton.mp hevent, SockAction.toSite_record, haction]

structure Quiet (bytes : Bytes) (trace : List SockEvent) : Prop where
  leg : NoLeg trace
  site : NoSite trace
  received : SockEvent.received trace = bytes

theorem Quiet.nil : Quiet [] [] := ⟨by simp [NoLeg], by simp [NoSite], rfl⟩

structure Clocked (now : UInt64) (bytes : Bytes) (trace : List SockEvent) : Prop
    extends Quiet bytes trace where
  last : ∃ before, trace = before ++ [.unixNow now] ∧ SockEvent.received before = bytes

theorem quiet_gateable {pre : ⦃β : Type⦄ → SockAction β → List SockEvent → Prop} {target : Target}
    (hpre : ∀ ⦃β : Type⦄ (action : SockAction β) trace, NoLeg trace → pre action trace)
    : Gateable Records pre target Clocked Quiet Quiet where
  read timer h _ := hpre _ _ h.leg
  clock h := hpre _ _ h.leg
  data := by
    rintro buf trace timer bytes hne _ h _ rfl
    refine ⟨h.leg.snoc rfl _, h.site.snoc rfl _, ?_⟩
    simp [SockEvent.received, record, h.received]
  other := by
    rintro buf trace timer event _ h rfl hevent
    refine ⟨h.leg.snoc rfl _, h.site.snoc rfl _, ?_⟩
    cases event with
    | data bytes hne => cases hevent
    | _ => simp [SockEvent.received, record, h.received]
  tick := by
    rintro buf trace now _ h rfl
    refine ⟨⟨h.leg.snoc rfl _, h.site.snoc rfl _, ?_⟩, trace, rfl, h.received⟩
    simp [SockEvent.received, record, h.received]
  goOn h := h.toQuiet
  stop h := h

end Quiet

end Veil
