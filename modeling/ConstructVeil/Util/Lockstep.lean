import ConstructVeil.Util.Loop

/-!
This module contains programs that cannot be told apart by what they do, as long as the state of
their surroundings does not meet some condition.
-/

namespace Prog

variable {Act : Type → Type} {S α β γ : Type}

section Lockstep

variable (handle : Handler Act S) (stop : S → Prop)

/--
The two programs perform the same actions until `stop` holds, and if they end before, then with
values that are related by `R`.
-/
inductive Lockstep (R : α → β → S → Prop) : Prog Act α → Prog Act β → S → Prop where
  | done {a : α} {b : β} {s : S} (h : R a b s) : Lockstep R (.done a) (.done b) s
  | act {γ : Type} (action : Act γ) {next : γ → Prog Act α} {next' : γ → Prog Act β} {s : S}
    (h : ∀ answer s', handle s action answer s' → ¬stop s' →
      Lockstep R (next answer) (next' answer) s')
    : Lockstep R (.act action next) (.act action next') s

variable {handle stop} {R : α → β → S → Prop} {s : S}

theorem Lockstep.of_meets {p : Prog Act α} {pre : ⦃β : Type⦄ → Act β → S → Prop}
    {post : α → S → Prop} (h : p.Meets handle pre post s)
    : Lockstep handle stop (fun a b s => a = b ∧ post a s) p p s := by
  induction p generalizing s with
  | done value => exact .done ⟨rfl, h⟩
  | act action next ih =>
    apply Lockstep.act
    intro answer s' hact _
    exact ih answer (h.2 answer s' hact)

theorem Lockstep.bind {α' β' : Type} {R' : α' → β' → S → Prop} {p : Prog Act α} {q : Prog Act β}
    {f : α → Prog Act α'} {g : β → Prog Act β'} (h : Lockstep handle stop R p q s)
    (hnext : ∀ a b s, R a b s → Lockstep handle stop R' (f a) (g b) s)
    : Lockstep handle stop R' (p >>= f) (q >>= g) s := by
  rw [bind_eq, bind_eq]
  induction h with
  | done h => exact hnext _ _ _ h
  | act action _ ih =>
    apply Lockstep.act
    exact ih

end Lockstep

end Prog

namespace Loop

variable {Act : Type → Type} {S σ ρ : Type} {handle : Handler Act S} {stop : S → Prop}
  {l l' : Loop Act σ ρ} {R : σ ⊕ ρ → σ ⊕ ρ → S → Prop} {s : S} {c : Prog Act (σ ⊕ ρ) × S}

theorem Reaches.lockstep (h : l.Reaches handle s c) (hstop : ¬stop c.2)
    (hstable : ∀ ⦃γ : Type⦄ {s s' : S} {action : Act γ} {answer : γ},
      handle s action answer s' → stop s → stop s')
    (hstart : l.start.Lockstep handle stop R l'.start s)
    (hbody : ∀ x b s, R (.inl x) b s →
      ∃ y, b = .inl y ∧ (l.body x).Lockstep handle stop R (l'.body y) s)
    : ∃ p, l'.Reaches handle s (p, c.2) ∧ c.1.Lockstep handle stop R p c.2 := by
  induction h with
  | refl => exact ⟨l'.start, .refl, hstart⟩
  | tail _ hstep ih =>
    cases hstep with
    | act next hact =>
      have hstop' := fun h => hstop (hstable hact h)
      rcases ih hstop' with ⟨p, hreaches, hlock⟩
      cases hlock with
      | act _ hnext => exact ⟨_, hreaches.tail (.act _ hact), hnext _ _ hact hstop⟩
    | again x s =>
      rcases ih hstop with ⟨p, hreaches, hlock⟩
      cases hlock with
      | done h =>
        rcases hbody x _ s h with ⟨y, rfl, hturn⟩
        exact ⟨_, hreaches.tail (.again y s), hturn⟩

end Loop
