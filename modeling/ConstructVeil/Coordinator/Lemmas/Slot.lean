import Mathlib.Data.List.Nodup
import ConstructVeil.Coordinator.Impl.Slot

/-!
This module contains the safety of the session slot under any interleaving.
-/

namespace Veil

namespace Session

/--
The session can do without the slot: its loop has ended or will, and its tunnels are cancelled.
-/
def Retired (x : Session) : Prop := (x.signalled = true ∨ x.loop.ended = true) ∧ x.cancelled = true

/--
Once `run_proxy_loop` has returned, the token is cancelled.
-/
def Settled (x : Session) : Prop := x.loop = .returned ∨ x.loop = .exited → x.cancelled = true

/--
What a proxy task can do to its session on its own.
-/
structure Moves (x y : Session) : Prop where
  id : y.id = x.id
  retired : x.Retired → y.Retired
  settled : x.Settled → y.Settled

theorem moves_loop {x : Session} {loop : LoopState} (hended : x.loop.ended = false)
    (hreturned : loop ≠ .returned) (hexited : loop ≠ .exited)
    : x.Moves { x with loop := loop } where
  id := rfl
  retired := by
    intro h
    refine ⟨.inl ?_, h.2⟩
    cases h.1 with
    | inl hsignalled => exact hsignalled
    | inr hloop => exact absurd hloop (by simp [hended])
  settled := by
    intro _ h
    cases h with
    | inl h => exact absurd h hreturned
    | inr h => exact absurd h hexited

theorem moves_shutDown (x : Session) : x.Moves x.shutDown where
  id := rfl
  retired := by simp [Retired, shutDown]
  settled := by simp [Settled, shutDown]

end Session

namespace SlotState

def holds (s : SlotState) : Option Nat := s.active.map ActiveSession.task

theorem holds_eq_some_iff {s : SlotState} {task : Nat}
    : s.holds = some task ↔ ∃ a, s.active = some a ∧ a.task = task := by
  rw [holds, Option.map_eq_some_iff]

structure Inv (s : SlotState) : Prop where
  nodup : (s.sessions.map Session.id ++ s.waiting).Nodup
  drawn : ∀ id ∈ s.sessions.map Session.id ++ s.waiting, id ≤ s.nextSessionId
  handle : ∀ a, s.active = some a → ∃ x, s.sessions[a.task]? = some x ∧ x.id = a.id
  outside : ∀ (task : Nat) x, s.sessions[task]? = some x → s.holds ≠ some task → x.Retired
  settled : ∀ (task : Nat) x, s.sessions[task]? = some x → x.Settled
  owner : ∀ t ∈ s.tunnels, t.task < s.sessions.length

theorem inv_init : init.Inv where
  nodup := by simp [init]
  drawn := by simp [init]
  handle := by simp [init]
  outside := by simp [init]
  settled := by simp [init]
  owner := by simp [init]

theorem updateTask_eq_some_iff {s s' : SlotState} {task : Nat} {f : Session → Option Session}
    : s.updateTask task f = some s'
        ↔
      ∃ x y, s.sessions[task]? = some x ∧ f x = some y ∧
        s' = { s with sessions := s.sessions.set task y } := by
  unfold updateTask
  cases s.sessions[task]? with
  | none => simp
  | some x =>
    simp only [Option.map_eq_some_iff, Option.some.injEq]
    constructor
    . intro h
      rcases h with ⟨y, hy, hs⟩
      exact ⟨x, y, rfl, hy, hs.symm⟩
    . intro h
      rcases h with ⟨_, y, rfl, hy, hs⟩
      exact ⟨y, hy, hs.symm⟩

theorem map_id_set {sessions : List Session} {task : Nat} {x y : Session}
    (hx : sessions[task]? = some x) (hid : y.id = x.id)
    : (sessions.set task y).map Session.id = sessions.map Session.id := by
  rw [List.map_set]
  apply List.ext_getElem?
  intro i
  rw [List.getElem?_set]
  split
  . next h =>
    subst h
    simp only [List.getElem?_map, hx, Option.map_some, hid]
    have := (List.getElem?_eq_some_iff.mp hx).1
    simp [this]
  . rfl

theorem Inv.task_unique {s : SlotState} (h : s.Inv) {i j : Nat} {x y : Session}
    (hx : s.sessions[i]? = some x) (hy : s.sessions[j]? = some y) (hid : x.id = y.id) : i = j := by
  have hnodup := (List.nodup_append.mp h.nodup).1
  have hlt := (List.getElem?_eq_some_iff.mp hx).1
  apply (List.getElem?_inj (by simpa using hlt) hnodup).mp
  simp [List.getElem?_map, hx, hy, hid]

theorem Inv.set {s : SlotState} (h : s.Inv) {task : Nat} {x y : Session}
    (hx : s.sessions[task]? = some x) (hmoves : x.Moves y)
    : Inv { s with sessions := s.sessions.set task y } := by
  have hlt := (List.getElem?_eq_some_iff.mp hx).1
  have hget : ∀ (i : Nat) z, (s.sessions.set task y)[i]? = some z →
      (i = task ∧ z = y) ∨ (i ≠ task ∧ s.sessions[i]? = some z) := by
    intro i z hz
    rw [List.getElem?_set] at hz
    split at hz
    . next heq =>
      injection hz with hz
      exact .inl ⟨heq.symm, hz.symm⟩
    . next hne => exact .inr ⟨fun heq => hne heq.symm, hz⟩
  constructor
  . rw [map_id_set hx hmoves.id]
    exact h.nodup
  . rw [map_id_set hx hmoves.id]
    exact h.drawn
  . intro a ha
    rcases h.handle a ha with ⟨z, hz, hid⟩
    cases Nat.decEq a.task task with
    | isTrue heq =>
      rw [heq, hx] at hz
      injection hz with hz
      refine ⟨y, ?_, ?_⟩
      . simp [heq, hlt]
      . rw [hmoves.id, hz, hid]
    | isFalse hne =>
      refine ⟨z, ?_, hid⟩
      rw [List.getElem?_set_ne (fun heq => hne heq.symm)]
      exact hz
  . intro i z hz hholds
    cases hget i z hz with
    | inl heq =>
      rw [heq.2]
      apply hmoves.retired
      apply h.outside task x hx
      rw [← heq.1]
      exact hholds
    | inr hne =>
      apply h.outside i z hne.2
      exact hholds
  . intro i z hz
    cases hget i z hz with
    | inl heq =>
      rw [heq.2]
      apply hmoves.settled
      apply h.settled task x hx
    | inr hne => apply h.settled i z hne.2
  . rw [List.length_set]
    exact h.owner

theorem Inv.updateTask {s s' : SlotState} (h : s.Inv) {task : Nat} {p : Session → Prop}
    [DecidablePred p] {f : Session → Session} (hf : ∀ x, p x → x.Moves (f x))
    (hs : s.updateTask task (fun x => if p x then some (f x) else none) = some s') : s'.Inv := by
  rw [updateTask_eq_some_iff] at hs
  rcases hs with ⟨x, y, hx, hy, rfl⟩
  apply h.set hx
  split at hy
  . next hp =>
    injection hy with hy
    rw [← hy]
    exact hf x hp
  . cases hy

theorem Inv.setTunnel {s : SlotState} (h : s.Inv) {i : Nat} {t : Tunnel}
    (ht : s.tunnels[i]? = some t) (state : TunnelState)
    : Inv { s with tunnels := s.tunnels.set i { t with state := state } } := by
  refine { h with owner := ?_ }
  intro t' ht'
  cases List.mem_or_eq_of_mem_set ht' with
  | inl hmem => exact h.owner t' hmem
  | inr heq =>
    rw [heq]
    exact h.owner t (List.mem_of_getElem? ht)

theorem Inv.vacate {s : SlotState} (h : s.Inv) {task : Nat} {x y : Session}
    (hx : s.sessions[task]? = some x) (hmoves : x.Moves y) (hholds : s.holds = some task)
    (hretired : y.Retired)
    : Inv { s with active := none, sessions := s.sessions.set task y } := by
  have hset := h.set hx hmoves
  have hlt := (List.getElem?_eq_some_iff.mp hx).1
  refine ⟨hset.nodup, hset.drawn, ?_, ?_, hset.settled, hset.owner⟩
  . simp
  . intro i z hz _
    cases Nat.decEq i task with
    | isTrue heq =>
      simp only [heq, List.getElem?_set_self hlt, Option.some.injEq] at hz
      rw [← hz]
      exact hretired
    | isFalse hne =>
      -- the slot holds no task but the one that leaves
      apply hset.outside i z hz
      simp only [holds] at hholds ⊢
      rw [hholds, ne_eq, Option.some.injEq]
      exact fun heq => hne heq.symm

theorem Inv.stop {s : SlotState} (h : s.Inv)
    : s.stop.1.Inv ∧ s.stop.1.active = none ∧ s.stop.1.waiting = s.waiting := by
  unfold SlotState.stop
  cases hactive : s.active with
  | none => exact ⟨h, hactive, rfl⟩
  | some a =>
    refine ⟨?_, rfl, rfl⟩
    rcases h.handle a hactive with ⟨x, hx, _⟩
    have hmodify : s.sessions.modify a.task Session.shutDown
        = s.sessions.set a.task x.shutDown := by
      rw [List.modify_eq_set_getElem?, hx]
      rfl
    dsimp only [shutDown]
    rw [hmodify]
    apply h.vacate hx x.moves_shutDown
    . exact holds_eq_some_iff.mpr ⟨a, hactive, rfl⟩
    . simp [Session.Retired, Session.shutDown]

theorem Inv.install {s : SlotState} (h : s.Inv) {id : Nat} (hid : id ∈ s.waiting) (port : UInt16)
    (method : MethodId) : (s.install id port method).Inv := by
  rcases h.stop with ⟨hstop, hnone, hwaiting⟩
  unfold SlotState.install
  generalize s.stop.1 = s₁ at *
  rw [← hwaiting] at hid
  have hperm : List.Perm
      ((s₁.sessions ++ [Session.mk id false false .unspawned]).map Session.id
        ++ s₁.waiting.erase id)
      (s₁.sessions.map Session.id ++ s₁.waiting) := by
    rw [List.map_append, List.append_assoc]
    apply List.Perm.append_left
    exact (List.perm_cons_erase hid).symm
  constructor
  . exact hperm.nodup_iff.mpr hstop.nodup
  . intro id' hid'
    apply hstop.drawn
    exact hperm.mem_iff.mp hid'
  . intro a ha
    simp only [Option.some.injEq] at ha
    subst ha
    simp
  . intro task x hx hholds
    simp only [holds, Option.map_some, ne_eq, Option.some.injEq] at hholds
    rw [List.getElem?_append] at hx
    split at hx
    . apply hstop.outside task x hx
      simp [holds, hnone]
    . next hge =>
      rw [List.getElem?_eq_none] at hx
      . cases hx
      . rw [List.length_singleton]
        omega
  . intro task x hx
    rw [List.getElem?_append] at hx
    split at hx
    . exact hstop.settled task x hx
    . rw [List.getElem?_singleton] at hx
      split at hx
      . injection hx with hx
        simp [← hx, Session.Settled]
      . cases hx
  . intro t ht
    rw [List.length_append]
    have := hstop.owner t ht
    omega

theorem Inv.drawId {s : SlotState} (h : s.Inv)
    : Inv { s with
        nextSessionId := s.nextSessionId + 1, waiting := s.waiting ++ [s.nextSessionId + 1] } where
  nodup := by
    rw [← List.append_assoc]
    apply List.nodup_append.mpr
    refine ⟨h.nodup, by simp, ?_⟩
    intro id hid id' hid'
    have := h.drawn id hid
    rw [List.mem_singleton] at hid'
    omega
  drawn := by
    intro id hid
    rw [← List.append_assoc, List.mem_append] at hid
    cases hid with
    | inl hid =>
      have := h.drawn id hid
      dsimp only
      omega
    | inr hid =>
      rw [List.mem_singleton] at hid
      dsimp only
      omega
  handle := h.handle
  outside := h.outside
  settled := h.settled
  owner := h.owner

theorem Inv.holds_of_id {s : SlotState} (h : s.Inv) {task : Nat} {x : Session}
    (hx : s.sessions[task]? = some x) (hid : s.active.any (·.id == x.id) = true)
    : s.holds = some task := by
  rw [Option.any_eq_true] at hid
  rcases hid with ⟨a, ha, hid⟩
  rw [beq_iff_eq] at hid
  rcases h.handle a ha with ⟨y, hy, hid'⟩
  rw [holds, ha, Option.map_some, h.task_unique hy hx (hid'.trans hid)]

theorem Inv.clear {s s' : SlotState} (h : s.Inv) {task : Nat} (hs : s.step (.clear task) = some s')
    : s'.Inv ∧ (s'.active = s.active ∨ (s.holds = some task ∧ s'.active = none)) := by
  simp only [SlotState.step] at hs
  split at hs
  . next x hx =>
    split at hs
    . next hloop =>
      injection hs with hs
      have hmoves : x.Moves { x with loop := .exited } := by
        constructor
        . rfl
        . simp [Session.Retired, LoopState.ended]
        . intro hsettled _
          exact hsettled (.inl hloop)
      rw [← hs]
      split
      . next hid =>
        -- ids are unique, so the session that leaves the slot is the task's own
        have hholds := h.holds_of_id hx hid
        refine ⟨h.vacate hx hmoves hholds ⟨.inr rfl, ?_⟩, .inr ⟨hholds, rfl⟩⟩
        exact h.settled task x hx (.inl hloop)
      . exact ⟨h.set hx hmoves, .inl rfl⟩
    . cases hs
  . cases hs

theorem Inv.step {s s' : SlotState} (h : s.Inv) {action : SlotAction} (hs : s.step action = some s')
    : s'.Inv := by
  cases action with
  | clear task => exact (h.clear hs).1
  | drawId =>
    injection hs with hs
    rw [← hs]
    exact h.drawId
  | install id port method =>
    simp only [SlotState.step] at hs
    split at hs
    . next hid =>
      injection hs with hs
      rw [← hs]
      apply h.install hid
    . cases hs
  | stop =>
    injection hs with hs
    rw [← hs]
    exact h.stop.1
  | spawn task =>
    apply h.updateTask _ hs
    intro x hloop
    apply Session.moves_loop <;> simp [hloop, LoopState.ended]
  | seeShutdown task =>
    apply h.updateTask _ hs
    intro x hloop
    apply Session.moves_loop <;> simp [hloop.1, LoopState.ended]
  | acceptFails task =>
    apply h.updateTask _ hs
    intro x hloop
    apply Session.moves_loop <;> simp [hloop, LoopState.ended]
  | cancelTunnels task =>
    apply h.updateTask _ hs
    intro x hloop
    constructor
    . rfl
    . simp [Session.Retired, LoopState.ended]
    . simp [Session.Settled]
  | accept task =>
    simp only [SlotState.step] at hs
    split at hs
    . next x hx =>
      split at hs
      . injection hs with hs
        rw [← hs]
        refine { h with owner := ?_ }
        intro t ht
        rw [List.mem_append, List.mem_singleton] at ht
        cases ht with
        | inl ht => exact h.owner t ht
        | inr ht =>
          rw [ht]
          exact (List.getElem?_eq_some_iff.mp hx).1
      . cases hs
    . cases hs
  | endTunnel tunnel =>
    simp only [SlotState.step] at hs
    repeat' split at hs
    all_goals cases hs
    apply h.setTunnel
    assumption
  | finishTunnel tunnel =>
    simp only [SlotState.step] at hs
    repeat' split at hs
    all_goals cases hs
    apply h.setTunnel
    assumption

theorem inv_of_reachable {s : SlotState} (h : slotMachine.Reachable s) : s.Inv := by
  apply h.induction
  . exact inv_init
  . intro action s s' hinv hs
    exact hinv.step hs

end SlotState

/--
Safety of the session slot. In every state that some interleaving of starts, stops and proxy tasks
reaches: a session outside of the slot is signalled or its loop has ended, and its tunnels are
cancelled; a task that exits empties the slot only if the slot holds its own session; and a `stop`
that returns `true` leaves the slot empty and every session signalled or ended.
-/
theorem slot_safety (s : SlotState) (hreach : slotMachine.Reachable s)
    : (∀ (task : Nat) x, s.sessions[task]? = some x → s.holds ≠ some task →
        x.signalled = true ∨ x.loop.ended = true) ∧
      (∀ task s', s.step (.clear task) = some s' →
        s'.active = s.active ∨ (s.holds = some task ∧ s'.active = none)) ∧
      (∀ t ∈ s.tunnels, s.holds ≠ some t.task →
        ∃ x, s.sessions[t.task]? = some x ∧ x.cancelled = true) ∧
      (s.stop.2 = true →
        s.stop.1.active = none ∧ ∀ x ∈ s.stop.1.sessions, x.signalled = true ∨
          x.loop.ended = true) := by
  have hinv := SlotState.inv_of_reachable hreach
  refine ⟨?_, ?_, ?_, ?_⟩
  . intro task x hx hholds
    exact (hinv.outside task x hx hholds).1
  . intro task s' hs
    exact (hinv.clear hs).2
  . intro t ht hholds
    have hlt := hinv.owner t ht
    refine ⟨s.sessions[t.task], List.getElem?_eq_getElem hlt, ?_⟩
    exact (hinv.outside t.task _ (List.getElem?_eq_getElem hlt) hholds).2
  . intro _
    rcases hinv.stop with ⟨hstop, hnone, _⟩
    refine ⟨hnone, ?_⟩
    intro x hx
    rcases List.getElem?_of_mem hx with ⟨task, hx⟩
    apply (hstop.outside task x hx _).1
    simp [SlotState.holds, hnone]

/--
A stop between the install and the spawn of the first session, and a second session that is
installed while the first one still accepts: the first task's exit leaves the second session in the
slot.
-/
theorem slot_safety_late_exit
    : ∃ s, slotMachine.run .init [.drawId, .install 1 4001 .veilFront, .stop, .spawn 0, .drawId,
        .install 2 4002 .veilFront, .spawn 1, .accept 0, .seeShutdown 0, .cancelTunnels 0]
          = some s ∧
      s.port = 4002 ∧ ∀ s', s.step (.clear 0) = some s' → s'.active = s.active := by
  let late : SlotState :=
    ⟨2, [], some ⟨2, 4002, .veilFront, 1⟩,
      [⟨1, true, true, .returned⟩, ⟨2, false, false, .accepting⟩], [⟨0, .running⟩]⟩
  have hrun : slotMachine.run .init [.drawId, .install 1 4001 .veilFront, .stop, .spawn 0, .drawId,
      .install 2 4002 .veilFront, .spawn 1, .accept 0, .seeShutdown 0, .cancelTunnels 0]
      = some late := by
    decide
  refine ⟨late, hrun, rfl, ?_⟩
  intro s' hs
  cases (slot_safety late ⟨_, hrun⟩).2.1 0 s' hs with
  | inl h => exact h
  | inr h => exact absurd h.1 (by decide)

end Veil
