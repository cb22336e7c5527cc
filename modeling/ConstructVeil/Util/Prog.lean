import Mathlib.Data.List.Basic

/-!
This module contains programs that interact with their surroundings: trees that perform an action,
get an answer and go on with it. A handler says which answers an action can get and what it does to
the state of the surroundings.
-/

inductive Prog (Act : Type → Type) (α : Type) where
  | done (value : α)
  | act {β : Type} (action : Act β) (next : β → Prog Act α)

/--
`handle s action answer s'` if `action`, performed in state `s`, can get `answer` and lead to `s'`.
-/
abbrev Handler (Act : Type → Type) (S : Type) := ⦃β : Type⦄ → S → Act β → β → S → Prop

namespace Prog

variable {Act : Type → Type} {S α β : Type}

def bind (p : Prog Act α) (f : α → Prog Act β) : Prog Act β :=
  match p with
  | .done value => f value
  | .act action next => .act action fun answer => (next answer).bind f

instance : Monad (Prog Act) where
  pure := .done
  bind := .bind

def perform (action : Act α) : Prog Act α := .act action .done

theorem bind_eq (p : Prog Act α) (f : α → Prog Act β) : p >>= f = p.bind f := rfl

theorem bind_assoc {γ : Type} (p : Prog Act α) (f : α → Prog Act β) (g : β → Prog Act γ)
    : p >>= f >>= g = p >>= fun value => f value >>= g := by
  simp only [bind_eq]
  induction p with
  | done value => rfl
  | act action next ih => simp only [Prog.bind, ih]

section Handler

variable (handle : Handler Act S)

inductive Run : S → Prog Act α → α → S → Prop where
  | done (s : S) (value : α) : Run s (.done value) value s
  | act {β : Type} {s mid s' : S} {action : Act β} {next : β → Prog Act α}
      {value : α} (answer : β) (hact : handle s action answer mid)
      (hnext : Run mid (next answer) value s') : Run s (.act action next) value s'

/--
The weakest precondition for the program to end, with a value and in a state for which `Q` holds,
whatever the handler answers.
-/
def wp (p : Prog Act α) (Q : α → S → Prop) (s : S) : Prop :=
  match p with
  | .done value => Q value s
  | .act action next =>
    (∃ answer mid, handle s action answer mid) ∧
      ∀ answer mid, handle s action answer mid → (next answer).wp Q mid

variable {handle}

@[simp]
theorem wp_pure {Q : α → S → Prop} {s : S} {value : α}
    : (pure value : Prog Act α).wp handle Q s ↔ Q value s := by
  rfl

@[simp]
theorem wp_done {Q : α → S → Prop} {s : S} {value : α}
    : (done value : Prog Act α).wp handle Q s ↔ Q value s := by
  rfl

theorem wp_perform {action : Act α} {Q : α → S → Prop} {s : S}
    : (perform action).wp handle Q s
        ↔
      (∃ answer mid, handle s action answer mid) ∧
        ∀ answer mid, handle s action answer mid → Q answer mid := by
  rfl

@[simp]
theorem wp_bind {p : Prog Act α} {f : α → Prog Act β} {Q : β → S → Prop} {s : S}
    : (p >>= f).wp handle Q s ↔ p.wp handle (fun value => (f value).wp handle Q) s := by
  rw [bind_eq]
  induction p generalizing s with
  | done value => rfl
  | act action next ih =>
    simp only [bind, wp, ih]

theorem wp_mono {p : Prog Act α} {Q R : α → S → Prop} {s : S} (h : p.wp handle Q s)
    (hQR : ∀ value s, Q value s → R value s) : p.wp handle R s := by
  induction p generalizing s with
  | done value =>
    apply hQR
    exact h
  | act action next ih =>
    refine ⟨h.1, ?_⟩
    intro answer mid hact
    apply ih
    exact h.2 answer mid hact

theorem wp.run {p : Prog Act α} {Q : α → S → Prop} {s s' : S} {value : α} (h : p.wp handle Q s)
    (hrun : Run handle s p value s') : Q value s' := by
  induction hrun with
  | done s value => exact h
  | act answer hact _ ih =>
    apply ih
    exact h.2 answer _ hact

theorem wp.exists_run {p : Prog Act α} {Q : α → S → Prop} {s : S} (h : p.wp handle Q s)
    : ∃ value s', Run handle s p value s' := by
  induction p generalizing s with
  | done value => exact ⟨value, s, .done s value⟩
  | act action next ih =>
    rcases h with ⟨⟨answer, mid, hact⟩, hnext⟩
    rcases ih answer (hnext answer mid hact) with ⟨value, s', hrun⟩
    exact ⟨value, s', .act answer hact hrun⟩

end Handler

section Lift

variable {Act' : Type → Type} {S' : Type}

def lift (f : ⦃β : Type⦄ → Act β → Act' β) : Prog Act α → Prog Act' α
  | .done value => .done value
  | .act action next => .act (f action) fun answer => (next answer).lift f

/--
A lifted program sees and changes only its own part of the surroundings.
-/
theorem wp_lift {f : ⦃β : Type⦄ → Act β → Act' β} {handle : Handler Act S}
    {handle' : Handler Act' S'} (get : S' → S) (set : S' → S → S') (hget : ∀ w s, get (set w s) = s)
    (hset : ∀ w s s', set (set w s) s' = set w s')
    (hhandle : ∀ ⦃β : Type⦄ (w : S') (action : Act β) (answer : β) (w' : S'),
      handle' w (f action) answer w' ↔ ∃ s, handle (get w) action answer s ∧ w' = set w s)
    {p : Prog Act α} {Q : α → S' → Prop} {w : S'} (hw : set w (get w) = w)
    (h : p.wp handle (fun value s => Q value (set w s)) (get w)) : (p.lift f).wp handle' Q w := by
  induction p generalizing w with
  | done value =>
    rw [wp_done, hw] at h
    exact h
  | act action next ih =>
    rcases h with ⟨⟨answer, s, hact⟩, hnext⟩
    refine ⟨⟨answer, set w s, (hhandle _ _ _ _).mpr ⟨s, hact, rfl⟩⟩, ?_⟩
    intro answer w' hact'
    rcases (hhandle _ _ _ _).mp hact' with ⟨s, hact, hw'⟩
    rw [hw']
    apply ih
    . rw [hget, hset]
    . rw [hget]
      apply wp_mono (hnext answer s hact)
      intro value s' hQ
      rw [hset]
      exact hQ

end Lift

/--
No action that the program can come to perform is `bad`.
-/
def Avoids (bad : ⦃β : Type⦄ → Act β → Prop) : Prog Act α → Prop
  | .done _ => True
  | .act action next => ¬bad action ∧ ∀ answer, (next answer).Avoids bad

variable {bad : ⦃β : Type⦄ → Act β → Prop}

@[simp]
theorem avoids_pure {value : α} : (pure value : Prog Act α).Avoids bad := by
  trivial

@[simp]
theorem avoids_done {value : α} : (done value : Prog Act α).Avoids bad := by
  trivial

@[simp]
theorem avoids_perform {action : Act α} : (perform action).Avoids bad ↔ ¬bad action := by
  simp [perform, Avoids]

theorem Avoids.bind {p : Prog Act α} {f : α → Prog Act β} (hp : p.Avoids bad)
    (hf : ∀ value, (f value).Avoids bad) : (p >>= f).Avoids bad := by
  rw [bind_eq]
  induction p with
  | done value => exact hf value
  | act action next ih =>
    refine ⟨hp.1, ?_⟩
    intro answer
    apply ih
    exact hp.2 answer

def AtMostOnce (bad : ⦃β : Type⦄ → Act β → Prop) : Prog Act α → Prop
  | .done _ => True
  | .act action next =>
    ∀ answer, (bad action → (next answer).Avoids bad) ∧ (next answer).AtMostOnce bad

theorem Avoids.atMostOnce {p : Prog Act α} (h : p.Avoids bad) : p.AtMostOnce bad := by
  induction p with
  | done value => trivial
  | act action next ih =>
    intro answer
    refine ⟨fun _ => h.2 answer, ?_⟩
    apply ih
    exact h.2 answer

theorem atMostOnce_perform {action : Act α} : (perform action).AtMostOnce bad := by
  intro answer
  exact ⟨fun _ => trivial, trivial⟩

theorem AtMostOnce.bind {p : Prog Act α} {f : α → Prog Act β} (hp : p.AtMostOnce bad)
    (hf : ∀ value, (f value).Avoids bad) : (p >>= f).AtMostOnce bad := by
  rw [bind_eq]
  induction p with
  | done value =>
    apply Avoids.atMostOnce
    apply hf
  | act action next ih =>
    intro answer
    refine ⟨?_, ih answer (hp answer).2⟩
    intro hbad
    exact ((hp answer).1 hbad).bind hf

theorem Avoids.bind_atMostOnce {p : Prog Act α} {f : α → Prog Act β} (hp : p.Avoids bad)
    (hf : ∀ value, (f value).AtMostOnce bad) : (p >>= f).AtMostOnce bad := by
  rw [bind_eq]
  induction p with
  | done value => apply hf
  | act action next ih =>
    intro answer
    refine ⟨fun hbad => absurd hbad hp.1, ?_⟩
    apply ih
    exact hp.2 answer

end Prog
