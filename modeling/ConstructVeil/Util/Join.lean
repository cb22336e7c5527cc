import Mathlib.Logic.Relation

/-!
This module contains jobs that run side by side and what becomes of their results: the first one to
end may settle the result, and then the other one is dropped, or its result is kept until the other
one ends.
-/

structure Job (ρ : Type) where
  Config : Type 1
  start : Config
  step : Config → Config → Prop
  ends : Config → ρ → Prop
  final : ∀ {c c' res}, ends c res → ¬step c c'

namespace Job

variable {ρ : Type} (T : Job ρ)

def Reachable (c : T.Config) : Prop := Relation.ReflTransGen T.step T.start c

def Ended (c : T.Config) : Prop := ∃ res, T.ends c res

end Job

/--
The result if one of two jobs ends and the other does not yet, or `none` to wait for it; and the
result of both.
-/
structure Join (ρ₁ ρ₂ ρ : Type) where
  first : ρ₁ → Option ρ
  second : ρ₂ → Option ρ
  both : ρ₁ → ρ₂ → ρ

namespace Join

variable {ρ₁ ρ₂ ρ : Type}

inductive Phase (ρ₁ ρ₂ ρ : Type) where
  | running
  | keepsFirst (res : ρ₁)
  | keepsSecond (res : ρ₂)
  | ended (res : ρ)

section Job

variable (j : Join ρ₁ ρ₂ ρ) (P : Job ρ₁) (Q : Job ρ₂)

def takeFirst (res : ρ₁) : Phase ρ₁ ρ₂ ρ :=
  match j.first res with
  | some r => .ended r
  | none => .keepsFirst res

def takeSecond (res : ρ₂) : Phase ρ₁ ρ₂ ρ :=
  match j.second res with
  | some r => .ended r
  | none => .keepsSecond res

structure Config (ρ : Type) (P : Job ρ₁) (Q : Job ρ₂) where
  first : P.Config
  second : Q.Config
  phase : Phase ρ₁ ρ₂ ρ

/--
While both run, the result of a job is taken as soon as it ends: the other one takes no step in
between.
-/
inductive Step : Config ρ P Q → Config ρ P Q → Prop where
  | first {p p' : P.Config} {q : Q.Config} (hq : ¬Q.Ended q) (hstep : P.step p p')
    : Step ⟨p, q, .running⟩ ⟨p', q, .running⟩
  | second {p : P.Config} {q q' : Q.Config} (hp : ¬P.Ended p) (hstep : Q.step q q')
    : Step ⟨p, q, .running⟩ ⟨p, q', .running⟩
  | takeFirst {p : P.Config} (q : Q.Config) {res : ρ₁} (hends : P.ends p res)
    : Step ⟨p, q, .running⟩ ⟨p, q, j.takeFirst res⟩
  | takeSecond (p : P.Config) {q : Q.Config} {res : ρ₂} (hends : Q.ends q res)
    : Step ⟨p, q, .running⟩ ⟨p, q, j.takeSecond res⟩
  | onlyFirst {p p' : P.Config} (q : Q.Config) (res : ρ₂) (hstep : P.step p p')
    : Step ⟨p, q, .keepsSecond res⟩ ⟨p', q, .keepsSecond res⟩
  | onlySecond (p : P.Config) {q q' : Q.Config} (res : ρ₁) (hstep : Q.step q q')
    : Step ⟨p, q, .keepsFirst res⟩ ⟨p, q', .keepsFirst res⟩
  | lastFirst {p : P.Config} (q : Q.Config) {res₁ : ρ₁} (res₂ : ρ₂) (hends : P.ends p res₁)
    : Step ⟨p, q, .keepsSecond res₂⟩ ⟨p, q, .ended (j.both res₁ res₂)⟩
  | lastSecond (p : P.Config) {q : Q.Config} (res₁ : ρ₁) {res₂ : ρ₂} (hends : Q.ends q res₂)
    : Step ⟨p, q, .keepsFirst res₁⟩ ⟨p, q, .ended (j.both res₁ res₂)⟩

def job : Job ρ where
  Config := Config ρ P Q
  start := ⟨P.start, Q.start, .running⟩
  step := j.Step P Q
  ends c res := c.phase = .ended res
  final := by
    intro c c' res hends hstep
    cases hstep <;> cases hends

inductive Outcome (p : P.Config) (q : Q.Config) : ρ → Prop where
  | first {res : ρ₁} {r : ρ} (hends : P.ends p res) (hr : j.first res = some r) : Outcome p q r
  | second {res : ρ₂} {r : ρ} (hends : Q.ends q res) (hr : j.second res = some r) : Outcome p q r
  | both {res₁ : ρ₁} {res₂ : ρ₂} {r : ρ} (hfirst : P.ends p res₁) (hsecond : Q.ends q res₂)
    (hr : j.both res₁ res₂ = r) : Outcome p q r

def Holds (p : P.Config) (q : Q.Config) : Phase ρ₁ ρ₂ ρ → Prop
  | .running => True
  | .keepsFirst res => P.ends p res ∧ j.first res = none
  | .keepsSecond res => Q.ends q res ∧ j.second res = none
  | .ended r => j.Outcome P Q p q r

variable {j P Q} {p : P.Config} {q : Q.Config}

theorem holds_takeFirst {res : ρ₁} (h : P.ends p res) : j.Holds P Q p q (j.takeFirst res) := by
  unfold takeFirst
  split
  . next r hr => exact .first h hr
  . next hr => exact ⟨h, hr⟩

theorem holds_takeSecond {res : ρ₂} (h : Q.ends q res) : j.Holds P Q p q (j.takeSecond res) := by
  unfold takeSecond
  split
  . next r hr => exact .second h hr
  . next hr => exact ⟨h, hr⟩

structure Sides (j : Join ρ₁ ρ₂ ρ) (c : Config ρ P Q) : Prop where
  first : P.Reachable c.first
  second : Q.Reachable c.second
  phase : j.Holds P Q c.first c.second c.phase

theorem sides {c : Config ρ P Q} (h : (j.job P Q).Reachable c) : j.Sides c := by
  induction h with
  | refl => exact ⟨.refl, .refl, trivial⟩
  | tail _ hstep ih =>
    rcases ih with ⟨hfirst, hsecond, hphase⟩
    cases hstep with
    | first hq hstep => exact ⟨hfirst.tail hstep, hsecond, trivial⟩
    | second hp hstep => exact ⟨hfirst, hsecond.tail hstep, trivial⟩
    | takeFirst q hends => exact ⟨hfirst, hsecond, holds_takeFirst hends⟩
    | takeSecond p hends => exact ⟨hfirst, hsecond, holds_takeSecond hends⟩
    | onlyFirst q res hstep => exact ⟨hfirst.tail hstep, hsecond, hphase⟩
    | onlySecond p res hstep => exact ⟨hfirst, hsecond.tail hstep, hphase⟩
    | lastFirst q res hends => exact ⟨hfirst, hsecond, .both hends hphase.1 rfl⟩
    | lastSecond p res hends => exact ⟨hfirst, hsecond, .both hphase.1 hends rfl⟩

theorem outcome {c : Config ρ P Q} {r : ρ} (h : (j.job P Q).Reachable c) (hr : (j.job P Q).ends c r)
    : j.Outcome P Q c.first c.second r := by
  have hphase := (sides h).phase
  have hended : c.phase = .ended r := hr
  rw [hended] at hphase
  exact hphase

theorem not_both_ended {c : Config ρ P Q} (hstart : ¬P.Ended P.start) (h : (j.job P Q).Reachable c)
    (hphase : c.phase = .running) : ¬(P.Ended c.first ∧ Q.Ended c.second) := by
  induction h with
  | refl => exact fun hboth => hstart hboth.1
  | tail _ hstep ih =>
    cases hstep with
    | first hq hstep => exact fun hboth => hq hboth.2
    | second hp hstep => exact fun hboth => hp hboth.1
    | takeFirst q hends =>
      unfold takeFirst at hphase
      split at hphase <;> cases hphase
    | takeSecond p hends =>
      unfold takeSecond at hphase
      split at hphase <;> cases hphase
    | onlyFirst q res hstep => cases hphase
    | onlySecond p res hstep => cases hphase
    | lastFirst q res hends => cases hphase
    | lastSecond p res hends => cases hphase

/--
If the second job always settles the result, then its end is the end of both: there is no other step
left than the one that takes its result, and the first job stays where it is.
-/
theorem ends_with_second {c : Config ρ P Q} {res : ρ₂} (hstart : ¬P.Ended P.start)
    (hsecond : ∀ res, (j.second res).isSome = true) (h : (j.job P Q).Reachable c)
    (hends : Q.ends c.second res)
    : (j.job P Q).Ended c ∨
        (∃ c', (j.job P Q).step c c') ∧
          ∀ c', (j.job P Q).step c c' → (j.job P Q).Ended c' ∧ c'.first = c.first := by
  have hphase := (sides h).phase
  have hboth := not_both_ended hstart h
  rcases c with ⟨p, q, phase⟩
  cases phase with
  | running =>
    refine .inr ⟨⟨_, .takeSecond p hends⟩, ?_⟩
    intro c' hstep
    cases hstep with
    | first hq _ => exact absurd ⟨res, hends⟩ hq
    | second _ hstep => exact absurd hstep (Q.final hends)
    | takeFirst _ hfirst => exact absurd ⟨⟨_, hfirst⟩, res, hends⟩ (hboth rfl)
    | @takeSecond _ _ res' _ =>
      rcases Option.isSome_iff_exists.mp (hsecond res') with ⟨r, hr⟩
      refine ⟨⟨r, ?_⟩, rfl⟩
      simp only [job, takeSecond, hr]
  | keepsFirst res₁ =>
    refine .inr ⟨⟨_, .lastSecond p res₁ hends⟩, ?_⟩
    intro c' hstep
    cases hstep with
    | onlySecond _ _ hstep => exact absurd hstep (Q.final hends)
    | lastSecond _ _ hlast => exact ⟨⟨_, rfl⟩, rfl⟩
  | keepsSecond res₂ =>
    have hnone := hsecond res₂
    rw [hphase.2] at hnone
    cases hnone
  | ended r => exact .inl ⟨r, rfl⟩

-- First the steps of the first job, then those of the second
theorem reachable_running (hp : P.Reachable p) (hq : Q.Reachable q) (hfirst : ¬P.Ended p)
    (hsecond : ¬Q.Ended Q.start) : (j.job P Q).Reachable ⟨p, q, .running⟩ := by
  have hrun : (j.job P Q).Reachable ⟨p, Q.start, .running⟩ := by
    clear hfirst
    induction hp with
    | refl => exact .refl
    | tail _ hstep ih => exact ih.tail (.first hsecond hstep)
  induction hq with
  | refl => exact hrun
  | tail _ hstep ih => exact ih.tail (.second hfirst hstep)

end Job

end Join
