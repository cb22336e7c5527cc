import Mathlib.Logic.Relation
import ConstructVeil.Util.Prog

/-!
This module contains programs that repeat a body until it gives a result, in small steps, and the
rules with which such a program is verified: what holds at every action of the body holds at every
action of the loop.
-/

namespace Prog

variable {Act : Type → Type} {S α β : Type}

section Meets

variable (handle : Handler Act S) (pre : ⦃β : Type⦄ → Act β → S → Prop)

/--
Run from `s`, the program performs every action in a state that `pre` allows for it, and if it ends
then with a value and in a state for which `post` holds. Unlike `wp` it may also be stopped on the
way.
-/
def Meets (post : α → S → Prop) : Prog Act α → S → Prop
  | .done value, s => post value s
  | .act action next, s =>
    pre action s ∧ ∀ answer s', handle s action answer s' → (next answer).Meets post s'

variable {handle pre} {post : α → S → Prop} {s : S}

@[simp]
theorem meets_pure {value : α}
    : (pure value : Prog Act α).Meets handle pre post s ↔ post value s := by
  rfl

@[simp]
theorem meets_done {value : α}
    : (done value : Prog Act α).Meets handle pre post s ↔ post value s := by
  rfl

theorem meets_bind {p : Prog Act α} {f : α → Prog Act β} {post : β → S → Prop}
    : (p >>= f).Meets handle pre post s
        ↔
      p.Meets handle pre (fun value => (f value).Meets handle pre post) s := by
  rw [bind_eq]
  induction p generalizing s with
  | done value => rfl
  | act action next ih => simp only [bind, Meets, ih]

theorem Meets.mono {p : Prog Act α} {post' : α → S → Prop} (h : p.Meets handle pre post s)
    (hpost : ∀ value s, post value s → post' value s) : p.Meets handle pre post' s := by
  induction p generalizing s with
  | done value =>
    apply hpost
    exact h
  | act action next ih =>
    refine ⟨h.1, ?_⟩
    intro answer s' hact
    apply ih
    exact h.2 answer s' hact

theorem Meets.invariant {p : Prog Act α} {I : S → Prop} (h : p.Meets handle pre post s)
    (hpre : ∀ ⦃β : Type⦄ (action : Act β) s, pre action s → I s)
    (hpost : ∀ value s, post value s → I s)
    : I s := by
  cases p with
  | done value =>
    apply hpost value
    exact h
  | act action next =>
    apply hpre action
    exact h.1

theorem Meets.of_avoids {p : Prog Act α} {bad : ⦃β : Type⦄ → Act β → Prop} {I : S → Prop}
    (havoids : p.Avoids bad)
    (hI : ∀ ⦃β : Type⦄ {s s' : S} {action : Act β} {answer : β}, ¬bad action →
      handle s action answer s' → I s → I s')
    (hpre : ∀ ⦃β : Type⦄ (action : Act β) s, I s → pre action s) (h : I s)
    : p.Meets handle pre (fun _ => I) s := by
  induction p generalizing s with
  | done value => exact h
  | act action next ih =>
    refine ⟨hpre action s h, ?_⟩
    intro answer s' hact
    exact ih answer (havoids.2 answer) (hI havoids.1 hact h)

theorem meets_of_forall {p : Prog Act α} (hpre : ∀ ⦃β : Type⦄ (action : Act β) s, pre action s)
    (hpost : ∀ value s, post value s) : p.Meets handle pre post s := by
  induction p generalizing s with
  | done value => exact hpost value s
  | act action next ih => exact ⟨hpre action s, fun answer _ _ => ih answer⟩

theorem Meets.run {p : Prog Act α} {value : α} {s' : S} (h : p.Meets handle pre post s)
    (hrun : Run handle s p value s') : post value s' := by
  induction hrun with
  | done s value => exact h
  | act answer hact _ ih => exact ih (h.2 answer _ hact)

theorem meets_lift {Act' : Type → Type} {f : ⦃β : Type⦄ → Act β → Act' β} {handle : Handler Act' S}
    {pre : ⦃β : Type⦄ → Act' β → S → Prop} {p : Prog Act α}
    : (p.lift f).Meets handle pre post s
        ↔
      p.Meets (fun _ s action => handle s (f action)) (fun _ action => pre (f action)) post s := by
  induction p generalizing s with
  | done value => rfl
  | act action next ih => simp only [lift, Meets, ih]

def Next (P : ⦃β : Type⦄ → Act β → Prop) : Prog Act α → Prop
  | .done _ => False
  | .act action _ => P action

theorem Meets.next {p : Prog Act α} {P : ⦃β : Type⦄ → Act β → Prop} (h : p.Meets handle pre post s)
    (hnext : p.Next P) : ∃ (β : Type) (action : Act β), P action ∧ pre action s := by
  cases p with
  | done value => cases hnext
  | act action next => exact ⟨_, action, hnext, h.1⟩

end Meets

section May

variable (handle : Handler Act S)

/--
Some answers take the program to its end, with a value and in a state for which `post` holds.
-/
def May (post : α → S → Prop) : Prog Act α → S → Prop
  | .done value, s => post value s
  | .act action next, s => ∃ answer s', handle s action answer s' ∧ (next answer).May post s'

variable {handle} {s : S}

theorem may_bind {p : Prog Act α} {f : α → Prog Act β} {post : β → S → Prop}
    : (p >>= f).May handle post s ↔ p.May handle (fun value => (f value).May handle post) s := by
  rw [bind_eq]
  induction p generalizing s with
  | done value => rfl
  | act action next ih => simp only [bind, May, ih]

theorem May.mono {p : Prog Act α} {post post' : α → S → Prop} (h : p.May handle post s)
    (hpost : ∀ value s, post value s → post' value s) : p.May handle post' s := by
  induction p generalizing s with
  | done value =>
    apply hpost
    exact h
  | act action next ih =>
    rcases h with ⟨answer, s', hact, h⟩
    exact ⟨answer, s', hact, ih answer h⟩

variable (handle) in
/--
Some answers take the program to an action of the kind `P`, in a state for which `post` holds.
-/
def MayAwait (P : ⦃β : Type⦄ → Act β → Prop) (post : S → Prop) : Prog Act α → S → Prop
  | .done _, _ => False
  | .act action next, s =>
    P action ∧ post s ∨ ∃ answer s', handle s action answer s' ∧ (next answer).MayAwait P post s'

variable {P : ⦃β : Type⦄ → Act β → Prop} {post : S → Prop}

theorem MayAwait.bind {p : Prog Act α} (h : p.MayAwait handle P post s) (f : α → Prog Act β)
    : (p >>= f).MayAwait handle P post s := by
  rw [bind_eq]
  induction p generalizing s with
  | done value => cases h
  | act action next ih =>
    rcases h with h | ⟨answer, s', hact, h⟩
    . exact .inl h
    . exact .inr ⟨answer, s', hact, ih answer h⟩

theorem May.await {p : Prog Act α} {f : α → Prog Act β}
    (h : p.May handle (fun value => (f value).MayAwait handle P post) s)
    : (p >>= f).MayAwait handle P post s := by
  rw [bind_eq]
  induction p generalizing s with
  | done value => exact h
  | act action next ih =>
    rcases h with ⟨answer, s', hact, h⟩
    exact .inr ⟨answer, s', hact, ih answer h⟩

end May

end Prog

structure Loop (Act : Type → Type) (σ ρ : Type) where
  start : Prog Act (σ ⊕ ρ)
  body : σ → Prog Act (σ ⊕ ρ)

namespace Loop

variable {Act : Type → Type} {S σ ρ : Type} (l : Loop Act σ ρ) (handle : Handler Act S)

inductive Step : Prog Act (σ ⊕ ρ) × S → Prog Act (σ ⊕ ρ) × S → Prop where
  | act {β : Type} {s s' : S} {action : Act β} {answer : β} (next : β → Prog Act (σ ⊕ ρ))
    (hact : handle s action answer s') : Step (.act action next, s) (next answer, s')
  | again (x : σ) (s : S) : Step (.done (.inl x), s) (l.body x, s)

def Reaches (s : S) (c : Prog Act (σ ⊕ ρ) × S) : Prop :=
  Relation.ReflTransGen (l.Step handle) (l.start, s) c

variable {l handle} {pre : ⦃β : Type⦄ → Act β → S → Prop} {J : σ → S → Prop} {R : ρ → S → Prop}
  {s : S} {c : Prog Act (σ ⊕ ρ) × S}

/--
The rule for loops, with `J` for the invariant of the loop and `R` for its results.
-/
theorem Reaches.meets (h : l.Reaches handle s c)
    (hstart : l.start.Meets handle pre (Sum.elim J R) s)
    (hbody : ∀ x s, J x s → (l.body x).Meets handle pre (Sum.elim J R) s)
    : c.1.Meets handle pre (Sum.elim J R) c.2 := by
  induction h with
  | refl => exact hstart
  | tail _ hstep ih =>
    cases hstep with
    | act next hact => exact ih.2 _ _ hact
    | again x s =>
      apply hbody
      exact ih

theorem Reaches.meets_of_reaches {p : Prog Act (σ ⊕ ρ)} {s₁ : S} (h : l.Reaches handle s (p, s₁))
    (hpre : ∀ ⦃β : Type⦄ (action : Act β) next s', l.Reaches handle s (.act action next, s') →
      pre action s')
    : p.Meets handle pre (fun value s' => l.Reaches handle s (.done value, s')) s₁ := by
  induction p generalizing s₁ with
  | done value => exact h
  | act action next ih =>
    refine ⟨hpre action next s₁ h, ?_⟩
    intro answer s' hact
    exact ih answer (h.tail (.act next hact))

theorem Reaches.run {α : Type} {p : Prog Act α} {f : α → Prog Act (σ ⊕ ρ)} {value : α} {s₁ s₂ : S}
    (h : l.Reaches handle s (p >>= f, s₁)) (hrun : Prog.Run handle s₁ p value s₂)
    : l.Reaches handle s (f value, s₂) := by
  induction hrun with
  | done s₁ value => exact h
  | act answer hact _ ih => exact ih (h.tail (.act _ hact))

theorem Reaches.act {β : Type} {s₁ s₂ : S} {action : Act β} {next : β → Prog Act (σ ⊕ ρ)}
    (answer : β) (h : l.Reaches handle s (.act action next, s₁)) (hact : handle s₁ action answer s₂)
    : l.Reaches handle s (next answer, s₂) :=
  h.tail (.act next hact)

theorem Reaches.again {x : σ} {s₁ : S} (h : l.Reaches handle s (.done (.inl x), s₁))
    : l.Reaches handle s (l.body x, s₁) :=
  h.tail (.again x s₁)

end Loop
