import Mathlib.Data.List.Infix
import Mathlib.Tactic.Simps.Basic
import ConstructVeil.Util.Loop

/-!
This module contains processes that read one stream and write another, and pipelines of them:
between two processes there is a connection that delivers in order what was written, some time or
never. A process that forwards its input as far as it got, under some view of the two streams, can
be put in a row with others of that kind, and the row forwards its input too, in every interleaving.
The same holds for processes that hold nothing back while they wait for more input.
-/

structure Ledger (β : Type) where
  consumed : List β
  -- The end of the input was read
  atEnd : Bool
  sent : List β
  -- The part of `sent` that is known to be on its way
  flushed : List β
  -- The output was shut down
  closed : Bool
  -- The input is for something else than the output
  diverted : Bool
  deriving DecidableEq, Repr

namespace Ledger

variable {β γ : Type}

@[simps]
def start (diverted : Bool) : Ledger β := ⟨[], false, [], [], false, diverted⟩

@[simps]
def read (l : Ledger β) (bytes : List β) : Ledger β := { l with consumed := l.consumed ++ bytes }

@[simps]
def readEnd (l : Ledger β) : Ledger β := { l with atEnd := true }

@[simps]
def write (l : Ledger β) (bytes : List β) : Ledger β := { l with sent := l.sent ++ bytes }

@[simps]
def flush (l : Ledger β) : Ledger β := { l with flushed := l.sent }

@[simps]
def shut (l : Ledger β) : Ledger β := { l with flushed := l.sent, closed := true }

@[simps]
def divert (l : Ledger β) (diverted : Bool) : Ledger β := { l with diverted := diverted }

@[simp]
theorem write_nil (l : Ledger β) : l.write [] = l := by
  simp [write]

structure Grows (l l' : Ledger β) : Prop where
  sent : l.sent <+: l'.sent
  closed : l.closed = true → l'.closed = true ∧ l'.sent = l.sent

theorem Grows.refl (l : Ledger β) : l.Grows l := ⟨List.prefix_rfl, fun h => ⟨h, rfl⟩⟩

/--
The connection from a process with ledger `up` to one with ledger `down`: bytes arrive in order, and
the end of the stream only after all of them.
-/
structure Link (up down : Ledger β) : Prop where
  consumed : down.consumed <+: up.sent
  atEnd : down.atEnd = true → up.closed = true ∧ down.consumed = up.sent

theorem Link.grows {up up' down : Ledger β} (h : up.Link down) (hgrows : up.Grows up')
    : up'.Link down := by
  refine ⟨h.consumed.trans hgrows.sent, ?_⟩
  intro hend
  rcases h.atEnd hend with ⟨hclosed, hconsumed⟩
  rcases hgrows.closed hclosed with ⟨hclosed', hsent⟩
  exact ⟨hclosed', by rw [hconsumed, hsent]⟩

/--
What was written, seen through `w`, is a prefix of what was read, seen through `v`; and if the
output was shut down, then at the end of the input and with all of it written.
-/
structure Carries (v w : List β → List γ) (l : Ledger β) : Prop where
  forwarded : w l.sent <+: v l.consumed
  complete : l.closed = true → l.atEnd = true ∧ w l.sent = v l.consumed

structure Within (input : List β) (ended : Bool) (l : Ledger β) : Prop where
  consumed : l.consumed <+: input
  atEnd : l.atEnd = true → ended = true ∧ l.consumed = input

structure Settled (input output : List β) (l : Ledger β) : Prop where
  consumed : l.consumed = input
  sent : l.sent = output
  flushed : l.flushed = output
  opened : l.closed = false
  direct : l.diverted = false

structure Finished (input output : List β) (l : Ledger β) : Prop where
  consumed : l.consumed = input
  sent : l.sent = output
  closed : l.closed = true

def Prompt (v w : List β → List γ) (l : Ledger β) : Prop :=
  l.diverted = false → w l.flushed = v l.consumed

end Ledger

structure Pipe (β : Type) where
  Config : Type 1
  start : Config
  step : Config → Config → Prop
  ledger : Config → Ledger β
  -- It waits for input
  idle : Config → Prop
  start_consumed : (ledger start).consumed = []
  start_atEnd : (ledger start).atEnd = false
  grows : ∀ {c c'}, step c c' → (ledger c).Grows (ledger c')

namespace Pipe

variable {β γ : Type} {P Q : Pipe β} {u v w : List β → List γ}

def Reachable (P : Pipe β) (c : P.Config) : Prop := Relation.ReflTransGen P.step P.start c

def Forwards (P : Pipe β) (v w : List β → List γ) : Prop :=
  ∀ c, P.Reachable c → (P.ledger c).Carries v w

def Prompt (P : Pipe β) (v w : List β → List γ) : Prop :=
  ∀ c, P.Reachable c → P.idle c → (P.ledger c).Prompt v w

inductive CompStep (P Q : Pipe β) : P.Config × Q.Config → P.Config × Q.Config → Prop where
  | first {p p' : P.Config} (q : Q.Config) (hstep : P.step p p') : CompStep P Q (p, q) (p', q)
  | second (p : P.Config) {q q' : Q.Config} (hstep : Q.step q q')
    (hlink : (P.ledger p).Link (Q.ledger q'))
    : CompStep P Q (p, q) (p, q')

/--
The output of `P` connected to the input of `Q`. A step is one of `P`, or one of `Q` that the
connection allows. The two are idle together if everything that is on its way has arrived.
-/
def comp (P Q : Pipe β) : Pipe β where
  Config := P.Config × Q.Config
  start := (P.start, Q.start)
  step := CompStep P Q
  ledger c :=
    { consumed := (P.ledger c.1).consumed
      atEnd := (P.ledger c.1).atEnd
      sent := (Q.ledger c.2).sent
      flushed := (Q.ledger c.2).flushed
      closed := (Q.ledger c.2).closed
      diverted := (P.ledger c.1).diverted || (Q.ledger c.2).diverted }
  idle c := P.idle c.1 ∧ Q.idle c.2 ∧ (Q.ledger c.2).consumed = (P.ledger c.1).flushed
  start_consumed := P.start_consumed
  start_atEnd := P.start_atEnd
  grows := by
    intro c c' hstep
    cases hstep with
    | first q hstep => exact ⟨List.prefix_rfl, fun h => ⟨h, rfl⟩⟩
    | second p hstep _ => exact ⟨(Q.grows hstep).sent, (Q.grows hstep).closed⟩

structure Connected (P Q : Pipe β) (c : P.Config × Q.Config) : Prop where
  first : P.Reachable c.1
  second : Q.Reachable c.2
  link : (P.ledger c.1).Link (Q.ledger c.2)

theorem connected {c : P.Config × Q.Config} (h : (P.comp Q).Reachable c) : Connected P Q c := by
  induction h with
  | refl =>
    refine ⟨.refl, .refl, ?_⟩
    change (P.ledger P.start).Link (Q.ledger Q.start)
    refine ⟨?_, ?_⟩
    . rw [Q.start_consumed]
      exact List.nil_prefix
    . intro hend
      rw [Q.start_atEnd] at hend
      cases hend
  | tail _ hstep ih =>
    cases hstep with
    | first q hstep => exact ⟨ih.first.tail hstep, ih.second, ih.link.grows (P.grows hstep)⟩
    | second p hstep hlink => exact ⟨ih.first, ih.second.tail hstep, hlink⟩

theorem Forwards.comp (hv : ∀ {a b : List β}, a <+: b → v a <+: v b) (hP : P.Forwards u v)
    (hQ : Q.Forwards v w) : (P.comp Q).Forwards u w := by
  intro c h
  have hc := connected h
  have hfirst := hP c.1 hc.first
  have hsecond := hQ c.2 hc.second
  refine ⟨?_, ?_⟩
  . calc w (Q.ledger c.2).sent
      _ <+: v (Q.ledger c.2).consumed := hsecond.forwarded
      _ <+: v (P.ledger c.1).sent := hv hc.link.consumed
      _ <+: u (P.ledger c.1).consumed := hfirst.forwarded
  . intro hclosed
    rcases hsecond.complete hclosed with ⟨hend, hsent⟩
    rcases hc.link.atEnd hend with ⟨hclosed', hconsumed⟩
    rcases hfirst.complete hclosed' with ⟨hend', hsent'⟩
    refine ⟨hend', ?_⟩
    change w (Q.ledger c.2).sent = u (P.ledger c.1).consumed
    rw [hsent, hconsumed, hsent']

theorem Prompt.comp (hP : P.Prompt u v) (hQ : Q.Prompt v w) : (P.comp Q).Prompt u w := by
  rintro c h ⟨hfirst, hsecond, harrived⟩ hdiverted
  have hc := connected h
  have hnot := Bool.or_eq_false_iff.mp hdiverted
  calc w (Q.ledger c.2).flushed
    _ = v (Q.ledger c.2).consumed := hQ c.2 hc.second hsecond hnot.2
    _ = v (P.ledger c.1).flushed := by rw [harrived]
    _ = u (P.ledger c.1).consumed := hP c.1 hc.first hfirst hnot.1

def through (P : Pipe β) (hops : List (Pipe β)) : Pipe β := hops.foldl comp P

theorem Forwards.through {hops : List (Pipe β)} (hv : ∀ {a b : List β}, a <+: b → v a <+: v b)
    (hP : P.Forwards u v) (hhops : ∀ Q ∈ hops, Q.Forwards v v) : (P.through hops).Forwards u v := by
  induction hops generalizing P with
  | nil => exact hP
  | cons Q hops ih =>
    apply ih (hP.comp hv (hhops Q List.mem_cons_self))
    intro R hR
    apply hhops
    exact List.mem_cons_of_mem Q hR

theorem Prompt.through {hops : List (Pipe β)} (hP : P.Prompt u v) (hhops : ∀ Q ∈ hops, Q.Prompt v v)
    : (P.through hops).Prompt u v := by
  induction hops generalizing P with
  | nil => exact hP
  | cons Q hops ih =>
    apply ih (hP.comp (hhops Q List.mem_cons_self))
    intro R hR
    apply hhops
    exact List.mem_cons_of_mem Q hR

def Serves (P : Pipe β) (input : List β) (ended : Bool) (c : P.Config) : Prop :=
  Relation.ReflTransGen (fun c c' => P.step c c' ∧ (P.ledger c').Within input ended) P.start c

section Serves

variable {input mid sent : List β} {ended : Bool} {p : P.Config} {q : Q.Config}

theorem Serves.reachable (h : P.Serves input ended p) : P.Reachable p := by
  have hmono : ∀ c c', P.step c c' ∧ (P.ledger c').Within input ended → P.step c c' :=
    fun _ _ hstep => hstep.1
  exact Relation.ReflTransGen.mono hmono _ _ h

theorem Serves.within (h : P.Serves input ended p) : (P.ledger p).Within input ended := by
  cases h with
  | refl =>
    refine ⟨?_, ?_⟩
    . rw [P.start_consumed]
      exact List.nil_prefix
    . intro hend
      rw [P.start_atEnd] at hend
      cases hend
  | tail _ hstep => exact hstep.2

-- First all of `P`, then all of `Q`
theorem Serves.comp (hP : P.Serves input ended p)
    (hQ : Q.Serves (P.ledger p).sent (P.ledger p).closed q)
    : (P.comp Q).Serves input ended (p, q) := by
  have hfirst : (P.comp Q).Serves input ended (p, Q.start) := by
    refine Relation.ReflTransGen.lift (fun c => (c, Q.start)) ?_ _ _ hP
    rintro c c' ⟨hstep, hwithin⟩
    exact ⟨.first _ hstep, hwithin.1, hwithin.2⟩
  refine Relation.ReflTransGen.trans hfirst (Relation.ReflTransGen.lift (fun c => (p, c)) ?_ _ _ hQ)
  rintro c c' ⟨hstep, hwithin⟩
  exact ⟨.second p hstep ⟨hwithin.consumed, hwithin.atEnd⟩, hP.within.1, hP.within.2⟩

structure Delivers (P : Pipe β) (input sent : List β) : Prop where
  waits : ∃ c, P.Serves input false c ∧ P.idle c ∧ (P.ledger c).Settled input sent
  ends : ∃ c, P.Serves input true c ∧ (P.ledger c).Finished input sent

theorem Delivers.comp (hP : P.Delivers input mid) (hQ : Q.Delivers mid sent)
    : (P.comp Q).Delivers input sent where
  waits := by
    rcases hP.waits with ⟨p, hp, hpidle, hpdone⟩
    rcases hQ.waits with ⟨q, hq, hqidle, hqdone⟩
    rw [← hpdone.sent, ← hpdone.opened] at hq
    have harrived : (Q.ledger q).consumed = (P.ledger p).flushed := by
      rw [hqdone.consumed, hpdone.flushed]
    refine ⟨(p, q), hp.comp hq, ⟨hpidle, hqidle, harrived⟩, ?_⟩
    have hdirect : ((P.ledger p).diverted || (Q.ledger q).diverted) = false := by
      rw [hpdone.direct, hqdone.direct, Bool.or_false]
    exact ⟨hpdone.consumed, hqdone.sent, hqdone.flushed, hqdone.opened, hdirect⟩
  ends := by
    rcases hP.ends with ⟨p, hp, hpdone⟩
    rcases hQ.ends with ⟨q, hq, hqdone⟩
    rw [← hpdone.sent, ← hpdone.closed] at hq
    exact ⟨(p, q), hp.comp hq, hpdone.consumed, hqdone.sent, hqdone.closed⟩

end Serves

end Pipe

namespace Loop

variable {Act : Type → Type} {β γ σ ρ : Type}

/--
A loop as a process, if its actions do nothing else to the ledger than reading and writing. It is
idle when it is about to perform an action of the kind `waits`.
-/
def pipe (l : Loop Act σ ρ) (handle : Handler Act (Ledger β))
    (hgrows : ∀ ⦃α : Type⦄ {s s' : Ledger β} {action : Act α} {answer : α},
      handle s action answer s' → s.Grows s')
    (waits : ⦃α : Type⦄ → Act α → Prop) (diverted : Bool) : Pipe β where
  Config := Prog Act (σ ⊕ ρ) × Ledger β
  start := (l.start, .start diverted)
  step := l.Step handle
  ledger c := c.2
  idle c := c.1.Next waits
  start_consumed := rfl
  start_atEnd := rfl
  grows := by
    intro c c' hstep
    cases hstep with
    | act next hact => exact hgrows hact
    | again x s => exact .refl s

end Loop
