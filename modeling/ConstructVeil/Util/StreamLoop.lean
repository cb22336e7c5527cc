import Mathlib.Logic.Relation
import ConstructVeil.Util.StreamDecoder

/-!
This module contains the loops that programs write around an incremental decoder, in small steps:
take an item off the buffer if there is one, and read a chunk into the buffer only while the decoder
waits. A decoder that does not wait on long buffers keeps the buffer of such a loop short.
-/

/--
What a loop does around the decoder `d`. Its accumulator is of type `σ`, its reads give events of
type `E`, and it ends with a result of type `ρ`.
-/
structure StreamLoop {β α ε : Type} (d : StreamDecoder β α ε) (σ E ρ : Type) where
  handle : σ → α → σ
  -- done when there is no item left, before the next read
  waiting : σ → σ
  read : σ → List β → E → (σ × List β) ⊕ ρ
  -- there is no event left
  finish : σ → List β → ρ
  fail : σ → ε → ρ

namespace StreamLoop

variable {β α ε σ E ρ : Type} {d : StreamDecoder β α ε}

structure State (β σ E : Type) where
  acc : σ
  buf : List β
  events : List E

def step (l : StreamLoop d σ E ρ) (s : State β σ E) : State β σ E ⊕ ρ :=
  match d.attempt s.buf with
  | .item a rest => .inl ⟨l.handle s.acc a, rest, s.events⟩
  | .fail e => .inr (l.fail s.acc e)
  | .wait =>
    let acc := l.waiting s.acc
    match s.events with
    | [] => .inr (l.finish acc s.buf)
    | event :: events =>
      match l.read acc s.buf event with
      | .inl (acc, chunk) => .inl ⟨acc, s.buf ++ chunk, events⟩
      | .inr r => .inr r

variable (l : StreamLoop d σ E ρ) {s s' : State β σ E}

theorem step_cases (h : l.step s = .inl s')
    : (∃ a, d.attempt s.buf = .item a s'.buf ∧ s'.events = s.events) ∨
      (∃ event acc chunk, d.attempt s.buf = .wait ∧ s.events = event :: s'.events ∧
        l.read (l.waiting s.acc) s.buf event = .inl (acc, chunk) ∧ s'.buf = s.buf ++ chunk) := by
  unfold step at h
  split at h
  . next a rest hattempt =>
    injection h with h
    rw [← h]
    exact Or.inl ⟨a, hattempt, rfl⟩
  . cases h
  . next hattempt =>
    dsimp only at h
    split at h
    . cases h
    . next event events hevents =>
      split at h
      . next acc chunk hread =>
        injection h with h
        rw [← h]
        exact Or.inr ⟨event, acc, chunk, hattempt, hevents, hread, rfl⟩
      . cases h

theorem lex_of_step (h : l.step s = .inl s')
    : Prod.Lex (· < ·) (· < ·) (s'.events.length, s'.buf.length)
        (s.events.length, s.buf.length) := by
  rcases l.step_cases h with ⟨a, hattempt, hevents⟩ | ⟨event, _, _, _, hevents, _, _⟩
  . rw [hevents]
    apply Prod.Lex.right
    apply d.item_lt hattempt
  . apply Prod.Lex.left
    rw [hevents, List.length_cons]
    omega

def run (s : State β σ E) : ρ :=
  match h:l.step s with
  | .inl s' => run s'
  | .inr r => r
termination_by (s.events.length, s.buf.length)
decreasing_by exact l.lex_of_step h

theorem run_of_inl (h : l.step s = .inl s') : l.run s = l.run s' := by
  rw [run]
  split
  . next s'' h' =>
    rw [h] at h'
    injection h' with h'
    rw [h']
  . next h' =>
    rw [h] at h'
    cases h'

theorem run_of_inr {r : ρ} (h : l.step s = .inr r) : l.run s = r := by
  rw [run]
  split
  . next h' =>
    rw [h] at h'
    cases h'
  . next h' =>
    rw [h] at h'
    injection h' with h'
    exact h'.symm

theorem run_eq_process (acc : σ) (buf : List β) (events : List E)
    : l.run ⟨acc, buf, events⟩
        =
      match d.process l.handle acc buf with
      | (acc, .ok rest) => l.run ⟨acc, rest, events⟩
      | (acc, .error e) => l.fail acc e := by
  rw [StreamDecoder.process_eq_drain]
  induction buf using d.drain_induction generalizing acc with
  | item buf a rest hbuf ih =>
    have hstep : l.step ⟨acc, buf, events⟩ = .inl ⟨l.handle acc a, rest, events⟩ := by
      simp only [step, hbuf]
    rw [l.run_of_inl hstep, ih, d.drain_item hbuf]
    rfl
  | wait buf hbuf =>
    rw [d.drain_wait hbuf]
    rfl
  | fail buf e hbuf =>
    rw [d.drain_fail hbuf]
    apply l.run_of_inr
    simp only [step, hbuf, List.foldl_nil]

theorem run_wait_nil {acc : σ} {buf : List β} (h : d.attempt buf = .wait)
    : l.run ⟨acc, buf, []⟩ = l.finish (l.waiting acc) buf := by
  apply l.run_of_inr
  simp only [step, h]

theorem run_wait_cons {acc : σ} {buf : List β} (event : E) (events : List E)
    (h : d.attempt buf = .wait)
    : l.run ⟨acc, buf, event :: events⟩
        =
      match l.read (l.waiting acc) buf event with
      | .inl (acc, chunk) => l.run ⟨acc, buf ++ chunk, events⟩
      | .inr r => r := by
  cases hread : l.read (l.waiting acc) buf event with
  | inl res =>
    apply l.run_of_inl
    simp only [step, h, hread]
  | inr r =>
    apply l.run_of_inr
    simp only [step, h, hread]

/--
What is done before a read can be done ahead of time if doing it twice changes nothing.
-/
theorem run_waiting (acc : σ) {buf : List β} (events : List E) (h : d.attempt buf = .wait)
    (hwaiting : l.waiting (l.waiting acc) = l.waiting acc)
    : l.run ⟨l.waiting acc, buf, events⟩ = l.run ⟨acc, buf, events⟩ := by
  cases events with
  | nil => rw [l.run_wait_nil h, l.run_wait_nil h, hwaiting]
  | cons event events =>
    rw [l.run_wait_cons event events h, l.run_wait_cons event events h, hwaiting]

def Reaches (s s' : State β σ E) : Prop :=
  Relation.ReflTransGen (fun s s' => l.step s = .inl s') s s'

/--
The run from `s` ends with `r`, and on the way the buffer never holds more than `limit` elements.
-/
def RunsWithin (s : State β σ E) (r : ρ) (limit : Nat) : Prop :=
  l.run s = r ∧ ∀ s', l.Reaches s s' → s'.buf.length ≤ limit

def ReadsAtMost (n : Nat) (events : List E) : Prop :=
  ∀ event ∈ events, ∀ acc buf acc' chunk,
    l.read acc buf event = .inl (acc', chunk) → chunk.length ≤ n

/--
If the decoder does not wait on more than `w` elements and no read adds more than `n`, the buffer
never holds more than `w + n`.
-/
theorem length_buf_le {w n : Nat} (hwait : ∀ buf, d.attempt buf = .wait → buf.length ≤ w)
    (hreads : l.ReadsAtMost n s.events) (hs : s.buf.length ≤ w + n) (h : l.Reaches s s')
    : s'.buf.length ≤ w + n := by
  have hinv : s'.buf.length ≤ w + n ∧ l.ReadsAtMost n s'.events := by
    induction h with
    | refl => exact ⟨hs, hreads⟩
    | tail _ hstep ih =>
      rcases l.step_cases hstep with ⟨a, hattempt, hevents⟩
        | ⟨event, acc, chunk, hattempt, hevents, hread, hbuf⟩
      . have := d.item_lt hattempt
        rw [hevents]
        exact ⟨by omega, ih.2⟩
      . rw [hevents] at ih
        have := hwait _ hattempt
        have := ih.2 event List.mem_cons_self _ _ _ _ hread
        rw [hbuf, List.length_append]
        refine ⟨by omega, ?_⟩
        intro event' hevent'
        exact ih.2 event' (List.mem_cons_of_mem _ hevent')
  exact hinv.1

end StreamLoop

namespace StreamDecoder

variable {β α ε : Type} (d : StreamDecoder β α ε)

theorem mul_length_drain_le {k : Nat}
    (hitem : ∀ buf a rest, d.attempt buf = .item a rest → rest.length + k ≤ buf.length)
    (buf : List β) : k * (d.drain buf).1.length ≤ buf.length := by
  induction buf using d.drain_induction with
  | item buf a rest hbuf ih =>
    have := hitem buf a rest hbuf
    rw [d.drain_item hbuf, List.length_cons, Nat.mul_add]
    omega
  | wait buf hbuf =>
    rw [d.drain_wait hbuf, List.length_nil]
    omega
  | fail buf e hbuf =>
    rw [d.drain_fail hbuf, List.length_nil]
    omega

end StreamDecoder
