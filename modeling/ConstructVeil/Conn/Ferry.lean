import ConstructVeil.Conn.Return
import ConstructVeil.Util.Join

/-!
This module contains the client's ferry as a whole: its two halves side by side and the result that
it returns.
-/

namespace Veil

open Sock SockAction

variable {σ ρ : Type}

def jobOn (watched : Port) (l : Loop SockAction σ ρ) : Job ρ where
  Config := Prog SockAction (σ ⊕ ρ) × Log
  start := (l.start, .start (decide (watched = .site)))
  step := l.Step (Handles watched)
  ends c res := c.1 = .done (.inr res)
  final := by
    rintro ⟨p, log⟩ c' res hends hstep
    have hp : p = .done (.inr res) := hends
    subst hp
    cases hstep

theorem SoundPipe.of_ends {watched : Port} {v w : Bytes → Bytes} {R : ρ → Log → Prop}
    {l : Loop SockAction σ ρ}
    (h : SoundPipe watched v w R l) {c : (jobOn watched l).Config} {res : ρ}
    (hc : (jobOn watched l).Reachable c)
    (hends : (jobOn watched l).ends c res) : R res c.2 := by
  rcases c with ⟨p, log⟩
  have hp : p = .done (.inr res) := hends
  subst hp
  exact h.ends res log hc

/--
The halves of the ferry. The end of the app's input does not end the ferry, but that of the relay's
does, and so does an error on either side.
-/
def ferryJoin (rng : Nat → Rng)
    : Join (Except ObfuscatorError VeilFrontUp) (Except ObfuscatorError Unit)
        (Except ObfuscatorError WriteStrategy)
    where
  first
    | .error e => some (.error e)
    | .ok _ => none
  second
    | .error e => some (.error e)
    | .ok () => some (.ok (.new rng))
  both
    | .error e, _ => .error e
    | .ok _, .error e => .error e
    | .ok up, .ok () => .ok up.strategy

def runFerry (rng : Nat → Rng) (target : Target) : Job (Except ObfuscatorError WriteStrategy) :=
  (ferryJoin rng).job (jobOn .leg (ferryUpHalf rng)) (jobOn .app (openFerryDown target))

structure Complete (v w : Bytes → Bytes) (l : Log) : Prop where
  atEnd : l.atEnd = true
  sent : w l.sent = v l.consumed
  closed : l.closed = true

theorem SoundPipe.complete {watched : Port} {v w : Bytes → Bytes} {α ε : Type}
    {l : Loop SockAction σ (Except ε α)}
    (h : SoundPipe watched v w (fun res log => ∀ a, res = .ok a → log.closed = true) l)
    {c : (jobOn watched l).Config} {a : α} (hc : (jobOn watched l).Reachable c)
    (hends : (jobOn watched l).ends c (.ok a)) : Complete v w c.2 := by
  have hclosed := h.of_ends hc hends a rfl
  have hcomplete := (h.forwards c hc).complete hclosed
  exact ⟨hcomplete.1, hcomplete.2, hclosed⟩

section Ferry

variable {rng : Nat → Rng} {target : Target}

theorem runFerry_ok {c : (runFerry rng target).Config} {strategy : WriteStrategy}
    (h : (runFerry rng target).Reachable c) (hends : (runFerry rng target).ends c (.ok strategy))
    : Complete (carried target) id c.second.2 ∧
        (strategy = .new rng ∨
          ∃ up, (jobOn .leg (ferryUpHalf rng)).ends c.first (.ok up) ∧ strategy = up.strategy ∧
            Complete id (carried target) c.first.2) := by
  have hsides := Join.sides h
  cases Join.outcome h hends with
  | @first res _ _ hr => cases res <;> cases hr
  | @second res _ hdown hr =>
    match res with
    | .ok () =>
      cases hr
      exact ⟨openFerryDown_sound.complete hsides.second hdown, .inl rfl⟩
  | @both res₁ res₂ _ hup hdown hr =>
    match res₁, res₂ with
    | .ok up, .ok () =>
      cases hr
      refine ⟨openFerryDown_sound.complete hsides.second hdown, .inr ⟨up, hup, rfl, ?_⟩⟩
      exact ferryUpHalf_sound.complete hsides.first hup

theorem runFerry_error {c : (runFerry rng target).Config} {e : ObfuscatorError}
    (h : (runFerry rng target).Reachable c) (hends : (runFerry rng target).ends c (.error e))
    : (jobOn .leg (ferryUpHalf rng)).ends c.first (.error e) ∨
        (jobOn .app (openFerryDown target)).ends c.second (.error e) := by
  cases Join.outcome h hends with
  | @first res _ hup hr =>
    match res with
    | .error e =>
      cases hr
      exact .inl hup
  | @second res _ hdown hr =>
    match res with
    | .error e =>
      cases hr
      exact .inr hdown
    | .ok () => cases hr
  | @both res₁ res₂ _ hup hdown hr =>
    match res₁, res₂ with
    | .error e, _ =>
      cases hr
      exact .inl hup
    | .ok up, .error e =>
      cases hr
      exact .inr hdown

theorem not_ended_start_up
    : ¬(jobOn .leg (ferryUpHalf rng)).Ended (jobOn .leg (ferryUpHalf rng)).start := by
  rintro ⟨res, hends⟩
  cases hends

theorem runFerry_relay_end {c : (runFerry rng target).Config} {res : Except ObfuscatorError Unit}
    (h : (runFerry rng target).Reachable c)
    (hends : (jobOn .app (openFerryDown target)).ends c.second res)
    : (runFerry rng target).Ended c ∨
        (∃ c', (runFerry rng target).step c c') ∧
          ∀ c', (runFerry rng target).step c c' → (runFerry rng target).Ended c' ∧
            c'.first = c.first := by
  apply Join.ends_with_second not_ended_start_up _ h hends
  intro res
  cases res with
  | error e => rfl
  | ok u => rfl

/--
If the ferry returns without an error, the app has got everything that the relay sent, up to its
end; and if the metrics are those of the up half, then the relay has got everything from the app. An
error is that of a half. And when the relay is at its end, the ferry has ended or the next step ends
it, without another step of the up half, whatever the app does.
-/
theorem runFerry_outcome {c : (runFerry rng target).Config} (h : (runFerry rng target).Reachable c)
    : (∀ strategy, (runFerry rng target).ends c (.ok strategy) →
        Complete (carried target) id c.second.2 ∧
        (strategy = .new rng ∨
          ∃ up, (jobOn .leg (ferryUpHalf rng)).ends c.first (.ok up) ∧ strategy = up.strategy ∧
            Complete id (carried target) c.first.2)) ∧
      (∀ e, (runFerry rng target).ends c (.error e) →
        (jobOn .leg (ferryUpHalf rng)).ends c.first (.error e) ∨
          (jobOn .app (openFerryDown target)).ends c.second (.error e)) ∧
      ∀ res, (jobOn .app (openFerryDown target)).ends c.second res →
        (runFerry rng target).Ended c ∨
          (∃ c', (runFerry rng target).step c c') ∧
            ∀ c', (runFerry rng target).step c c' → (runFerry rng target).Ended c' ∧
              c'.first = c.first :=
  ⟨fun _ => runFerry_ok h, fun _ => runFerry_error h, fun _ => runFerry_relay_end h⟩

theorem not_ended_start_down
    : ¬(jobOn .app (openFerryDown target)).Ended (jobOn .app (openFerryDown target)).start := by
  rintro ⟨res, hends⟩
  cases hends

theorem ferryUpHalf_serves (rng : Nat → Rng) {chunks : List Bytes}
    (hchunks : ∀ chunk ∈ chunks, chunk ≠ [] ∧ chunk.length ≤ localBuf)
    : ∃ up l, (jobOn .leg (ferryUpHalf rng)).Reachable (.done (.inl up), l) ∧
        Rested chunks.flatten (encodeFrames (chunks.map .data)) l := by
  have hstart : May .leg chunks.flatten false
      (pure (.inl (.new rng)) : Sock ObfuscatorError (VeilFrontUp ⊕ VeilFrontUp))
      (fun v l => v = .inl (.new rng) ∧ l = .start false) (.start false) := ⟨rfl, rfl⟩
  rcases serves_start hstart with ⟨_, _, hserves, rfl, rfl⟩
  rcases ferryUp_serves (VeilFrontUp.idle_new rng) .start hchunks (List.nil_append _) hserves
    with ⟨up, l, hserves', h⟩
  exact ⟨up, l, hserves'.reachable, h⟩

/--
The relay has sent three bytes to an app that has written two and goes on: the ferry ends with the
relay, and both sides have got the bytes.
-/
theorem runFerry_outcome_three_bytes
    : ∃ c : (runFerry (fun _ => zeroRng) .bits64).Config,
        (runFerry (fun _ => zeroRng) .bits64).Reachable c ∧
        (runFerry (fun _ => zeroRng) .bits64).ends c (.ok (.new fun _ => zeroRng)) ∧
        c.first.2.consumed = [4, 5] ∧ c.first.2.sent = encodeFrames [.data [4], .data [5]] ∧
        Complete (carried .bits64) id c.second.2 ∧ c.second.2.sent = [1, 2, 3] := by
  have hfit : FramesFit [.data [1, 2], .chaff [], .data [3]] := by simp
    [FramesFit, defaultMaxPayload]
  have hchunks : ∀ chunk ∈ ([[4], [5]] : List Bytes), chunk ≠ [] ∧ chunk.length ≤ localBuf := by
    decide
  rcases ferryUpHalf_serves (fun _ => zeroRng) hchunks with ⟨up, l, hup, h⟩
  rcases openFerryDown_ends .bits64 hfit with ⟨l', hdown, h'⟩
  have hgoing : ¬(jobOn .leg (ferryUpHalf fun _ => zeroRng)).Ended (.done (.inl up), l) := by
    rintro ⟨res, hends⟩
    cases hends
  have hrun : (runFerry (fun _ => zeroRng) .bits64).Reachable ⟨_, _, .running⟩ :=
    Join.reachable_running hup hdown.reachable hgoing not_ended_start_down
  have hended := hrun.tail (.takeSecond _ rfl)
  exact ⟨_, hended, rfl, h.consumed, h.sent, ((runFerry_outcome hended).1 _ rfl).1, h'.sent⟩

end Ferry

end Veil
