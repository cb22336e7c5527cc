import ConstructVeil.Conn.Lemmas.Basic
import ConstructVeil.Protocol.Lemmas.Stream

/-!
This module contains the rules with which a run of a program on sockets is put together, one in
which nothing fails.
-/

namespace Veil

open SockAction

/--
The answers that a program gets if its input is `input`, with an end or without.
-/
def SockAction.Feeds (watched : Port) (input : Bytes) (ended : Bool) : Handler SockAction Log :=
  fun _ l action answer l' => Handles watched l action answer l' ∧ l'.Within input ended

namespace Sock

variable {ε α β σ : Type} {watched : Port} {input : Bytes} {ended : Bool} {l : Log}

def May (watched : Port) (input : Bytes) (ended : Bool) (x : Sock ε α) (post : α → Log → Prop)
    (l : Log) : Prop :=
  x.run.May (Feeds watched input ended) (onResult post fun _ _ => False) l

theorem May.mono {x : Sock ε α} {post post' : α → Log → Prop} (h : May watched input ended x post l)
    (hpost : ∀ a l, post a l → post' a l) : May watched input ended x post' l := by
  apply Prog.May.mono h
  intro res l' hres
  cases res with
  | ok a => exact hpost a l' hres
  | error e => cases hres

theorem may_pure {a : α} {post : α → Log → Prop} (h : post a l)
    : May watched input ended (pure a : Sock ε α) post l := h

theorem may_bind {x : Sock ε α} {f : α → Sock ε β} {post : β → Log → Prop}
    (h : May watched input ended x (fun a => May watched input ended (f a) post) l)
    : May watched input ended (x >>= f) post l := by
  apply Prog.may_bind.mpr
  apply Prog.May.mono h
  intro res l' hres
  cases res with
  | ok a => exact hres
  | error e => cases hres

theorem may_bind_pure {x : Sock ε α} (f : α → β) {post : α → Log → Prop}
    (h : May watched input ended x post l)
    : May watched input ended (x >>= fun a => pure (f a)) (fun b l' => ∃ a, b = f a ∧ post a l')
        l := by
  apply may_bind
  apply h.mono
  intro a l' ha
  exact ⟨a, rfl, ha⟩

theorem may_adapt {ε' : Type} {f : ε → ε'} {x : Sock ε α} {post : α → Log → Prop}
    (h : May watched input ended x post l)
    : May watched input ended (ExceptT.adapt f x) post l := by
  apply Prog.may_bind.mpr
  apply Prog.May.mono h
  intro res l' hres
  cases res with
  | ok a => exact hres
  | error e => cases hres

theorem may_tryCatch {x : Sock ε α} {handler : ε → Sock ε α} {post : α → Log → Prop}
    (h : May watched input ended x post l)
    : May watched input ended (tryCatch x handler) post l := by
  apply Prog.may_bind.mpr
  apply Prog.May.mono h
  intro res l' hres
  cases res with
  | ok a => exact hres
  | error e => cases hres

theorem may_ask {action : SockAction α} {post : α → Log → Prop} (answer : α) (l' : Log)
    (hact : Handles watched l action answer l') (hwithin : l'.Within input ended)
    (h : post answer l')
    : May watched input ended (ask action : Sock ε α) post l := by
  apply Prog.may_bind.mpr
  exact ⟨answer, l', ⟨hact, hwithin⟩, h⟩

theorem may_still {action : SockAction α} {post : α → Log → Prop} (hstill : action.still = true)
    (answer : α) (hwithin : l.Within input ended) (h : post answer l)
    : May watched input ended (ask action : Sock ε α) post l := by
  refine may_ask answer l ?_ hwithin h
  cases action with
  | read limit timer => cases hstill
  | write port bytes => cases hstill
  | flush port => cases hstill
  | shutdown port => cases hstill
  | connectSite => cases hstill
  | _ => rfl

theorem may_read {limit timer : Option Nat} {post : ReadEvent → Log → Prop} {bytes : Bytes}
    (hne : bytes ≠ []) (hlimit : ∀ n ∈ limit, bytes.length ≤ n) (hend : l.atEnd = false)
    (hinput : l.consumed ++ bytes <+: input) (h : post (.data bytes hne) (l.read bytes))
    : May watched input ended (ask (.read limit timer) : Sock ε ReadEvent) post l := by
  refine may_ask (.data bytes hne) (l.read bytes) ?_ ⟨hinput, by simp [hend]⟩ h
  exact Reads.data bytes hne hlimit hend

theorem may_readEnd {limit timer : Option Nat} {post : ReadEvent → Log → Prop}
    (hinput : l.consumed = input) (h : post .eof l.readEnd)
    : May watched input true (ask (.read limit timer) : Sock ε ReadEvent) post l := by
  refine may_ask .eof l.readEnd ?_ ⟨by simp [hinput], fun _ => ⟨rfl, hinput⟩⟩ h
  exact Reads.eof

section FromIo

variable [FromIo ε] {post : Unit → Log → Prop}

theorem may_fromIo {action : SockAction (Except IoError Unit)} (l' : Log)
    (hact : Handles watched l action (.ok ()) l') (hwithin : l'.Within input ended) (h : post () l')
    : May watched input ended (fromIo action : Sock ε Unit) post l := by
  apply Prog.may_bind.mpr
  exact ⟨.ok (), l', ⟨hact, hwithin⟩, h⟩

theorem may_writeAll {bytes : Bytes} (hwithin : l.Within input ended) (hopen : l.closed = false)
    (h : post () (if watched.buffered then l.write bytes else (l.write bytes).flush))
    : May watched input ended (writeAll watched bytes : Sock ε Unit) post l := by
  apply may_fromIo _ _ _ h
  . simp only [Handles, ↓reduceIte]
    exact .ok hopen
  . split
    . exact ⟨hwithin.1, hwithin.2⟩
    . exact ⟨hwithin.1, hwithin.2⟩

theorem may_flush (hwithin : l.Within input ended) (h : post () l.flush)
    : May watched input ended (flush watched : Sock ε Unit) post l := by
  apply may_fromIo l.flush _ ⟨hwithin.1, hwithin.2⟩ h
  simp only [Handles, ↓reduceIte]
  exact .ok

theorem may_shutdown (hwithin : l.Within input ended) (h : post () l.shut)
    : May watched input ended (shutdown watched : Sock ε Unit) post l := by
  apply may_fromIo l.shut _ ⟨hwithin.1, hwithin.2⟩ h
  simp only [Handles, ↓reduceIte]
  exact .ok

end FromIo

section Await

variable {post : Log → Prop}

def Awaits (watched : Port) (input : Bytes) (ended : Bool) (x : Sock ε α) (post : Log → Prop)
    (l : Log) : Prop :=
  x.run.MayAwait (Feeds watched input ended) (fun _ action => action.isRead = true) post l

theorem awaits_read {limit timer : Option Nat} (h : post l)
    : Awaits watched input ended (ask (.read limit timer) : Sock ε ReadEvent) post l :=
  .inl ⟨rfl, h⟩

theorem Awaits.bind {x : Sock ε α} (h : Awaits watched input ended x post l) (f : α → Sock ε β)
    : Awaits watched input ended (x >>= f) post l :=
  Prog.MayAwait.bind h _

theorem May.await {x : Sock ε α} {f : α → Sock ε β}
    (h : May watched input ended x (fun a => Awaits watched input ended (f a) post) l)
    : Awaits watched input ended (x >>= f) post l := by
  apply Prog.May.await
  apply Prog.May.mono h
  intro res l' hres
  cases res with
  | ok a => exact hres
  | error e => cases hres

end Await

section Loop

variable {start : Sock ε (σ ⊕ α)} {body : σ → Sock ε (σ ⊕ α)}

-- Where a turn leaves the loop
def after : σ ⊕ α → Prog SockAction (σ ⊕ Except ε α)
  | .inl s => .done (.inl s)
  | .inr a => .done (.inr (.ok a))

theorem serves_turn {x : Sock ε (σ ⊕ α)} {post : σ ⊕ α → Log → Prop}
    (h : (pipeTo watched (loop start body)).Serves input ended (x.turn, l))
    (hmay : May watched input ended x post l)
    : ∃ v l', (pipeTo watched (loop start body)).Serves input ended (after v, l') ∧ post v l' := by
  have hrun : ∀ (p : Prog SockAction (Except ε (σ ⊕ α))) (l : Log),
      (pipeTo watched (loop start body)).Serves input ended (Sock.turn (ExceptT.mk p), l) →
      p.May (Feeds watched input ended) (onResult post fun _ _ => False) l →
      ∃ v l', (pipeTo watched (loop start body)).Serves input ended (after v, l') ∧ post v l' := by
    intro p
    induction p with
    | done res =>
      intro l hserves hmay
      rcases res with e | s | a
      . cases hmay
      . exact ⟨.inl s, l, hserves, hmay⟩
      . exact ⟨.inr a, l, hserves, hmay⟩
    | act action next ih =>
      rintro l hserves ⟨answer, l', ⟨hact, hwithin⟩, hmay⟩
      apply ih answer l' _ hmay
      exact hserves.tail ⟨.act _ hact, hwithin⟩
  exact hrun x.run l h hmay

theorem serves_start {post : σ ⊕ α → Log → Prop}
    (hmay : May watched input ended start post (.start (decide (watched = .site))))
    : ∃ v l', (pipeTo watched (loop start body)).Serves input ended (after v, l') ∧ post v l' :=
  serves_turn (x := start) .refl hmay

theorem serves_body {s : σ} {post : σ ⊕ α → Log → Prop}
    (h : (pipeTo watched (loop start body)).Serves input ended (.done (.inl s), l))
    (hmay : May watched input ended (body s) post l)
    : ∃ v l', (pipeTo watched (loop start body)).Serves input ended (after v, l') ∧ post v l' := by
  apply serves_turn (h.tail ⟨.again s l, h.within⟩) hmay

theorem serves_await {s : σ} {post : Log → Prop}
    (h : (pipeTo watched (loop start body)).Serves input ended (.done (.inl s), l))
    (hawaits : Awaits watched input ended (body s) post l)
    : ∃ c, (pipeTo watched (loop start body)).Serves input ended c ∧
        (pipeTo watched (loop start body)).idle c ∧ post c.2 := by
  have hrun : ∀ (p : Prog SockAction (σ ⊕ Except ε α)) (l : Log),
      (pipeTo watched (loop start body)).Serves input ended (p, l) →
      p.MayAwait (Feeds watched input ended) (fun _ action => action.isRead = true) post l →
      ∃ c, (pipeTo watched (loop start body)).Serves input ended c ∧
        (pipeTo watched (loop start body)).idle c ∧ post c.2 := by
    intro p
    induction p with
    | done value =>
      intro l _ hawaits
      cases hawaits
    | act action next ih =>
      rintro l hserves (⟨hread, hpost⟩ | ⟨answer, l', ⟨hact, hwithin⟩, hawaits⟩)
      . exact ⟨_, hserves, hread, hpost⟩
      . exact ih answer l' (hserves.tail ⟨.act _ hact, hwithin⟩) hawaits
  exact hrun (body s).turn l (h.tail ⟨.again s l, h.within⟩) (Prog.MayAwait.bind hawaits _)

end Loop

end Sock

end Veil
