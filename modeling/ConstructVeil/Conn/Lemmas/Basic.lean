import ConstructVeil.Conn.Basic

/-!
This module contains the rules for programs that work on sockets: what has to hold before an action,
and what the ledger of the watched port looks like after it.
-/

namespace Veil

open SockAction

namespace SockAction

theorem Writes.grows {buffered : Bool} {l l' : Log} {bytes : Bytes} {res : Except IoError Unit}
    (h : Writes buffered l bytes res l') : l.Grows l' := by
  cases h with
  | ok hopen =>
    refine ⟨?_, by simp [hopen]⟩
    cases buffered <;> exact List.prefix_append _ _
  | error e part hopen hpart => exact ⟨List.prefix_append _ _, by simp [hopen]⟩
  | closed e h => exact .refl l

theorem Handles.grows {watched : Port} ⦃α : Type⦄ {l l' : Log} {action : SockAction α} {answer : α}
    (h : Handles watched l action answer l') : l.Grows l' := by
  cases action with
  | read limit timer =>
    cases h with
    | data bytes hne hlimit hend => exact ⟨List.prefix_rfl, fun h => ⟨h, rfl⟩⟩
    | eof => exact ⟨List.prefix_rfl, fun h => ⟨h, rfl⟩⟩
    | err e => exact .refl l
    | timeout h => exact .refl l
  | write port bytes =>
    by_cases hport : port = watched
    . simp only [Handles, hport, ↓reduceIte] at h
      exact h.grows
    . simp only [Handles, hport, ↓reduceIte] at h
      rw [h]
      exact .refl l
  | flush port =>
    by_cases hport : port = watched
    . simp only [Handles, hport, ↓reduceIte] at h
      cases h with
      | ok => exact ⟨List.prefix_rfl, fun h => ⟨h, rfl⟩⟩
      | error e => exact .refl l
    . simp only [Handles, hport, ↓reduceIte] at h
      rw [h]
      exact .refl l
  | shutdown port =>
    by_cases hport : port = watched
    . simp only [Handles, hport, ↓reduceIte] at h
      cases h with
      | ok => exact ⟨List.prefix_rfl, fun _ => ⟨rfl, rfl⟩⟩
      | error e => exact .refl l
    . simp only [Handles, hport, ↓reduceIte] at h
      rw [h]
      exact .refl l
  | connectSite =>
    cases h with
    | ok => exact ⟨List.prefix_rfl, fun h => ⟨h, rfl⟩⟩
    | error e => exact .refl l
  | _ =>
    rw [h]
    exact .refl l

end SockAction

variable {ε α β σ ρ : Type}

def SockAction.isRead : SockAction α → Bool
  | .read _ _ => true
  | _ => false

/--
A program on sockets as a process that writes to the watched port. Nothing is for the site before it
is connected.
-/
def pipeTo (watched : Port) (l : Loop SockAction σ ρ) : Pipe UInt8 :=
  l.pipe (Handles watched) Handles.grows (fun _ action => action.isRead = true)
    (decide (watched = .site))

namespace Sock

def onResult {S : Type} (post : α → S → Prop) (fail : ε → S → Prop) : Except ε α → S → Prop
  | .ok a => post a
  | .error e => fail e

def Meets {S : Type} (handle : Handler SockAction S) (pre : ⦃β : Type⦄ → SockAction β → S → Prop)
    (x : Sock ε α) (post : α → S → Prop) (fail : ε → S → Prop) (s : S) : Prop :=
  x.run.Meets handle pre (onResult post fail) s

abbrev Holds (watched : Port) (pre : ⦃β : Type⦄ → SockAction β → Log → Prop) (x : Sock ε α)
    (post : α → Log → Prop) (fail : ε → Log → Prop) (l : Log) : Prop :=
  Meets (Handles watched) pre x post fail l

section Rules

variable {S : Type} {handle : Handler SockAction S} {pre : ⦃β : Type⦄ → SockAction β → S → Prop}
  {post : α → S → Prop} {fail : ε → S → Prop} {s : S}

theorem Meets.mono {x : Sock ε α} {post' : α → S → Prop} {fail' : ε → S → Prop}
    (h : Meets handle pre x post fail s) (hpost : ∀ a s, post a s → post' a s)
    (hfail : ∀ e s, fail e s → fail' e s) : Meets handle pre x post' fail' s := by
  apply Prog.Meets.mono h
  intro res s' hres
  cases res with
  | ok a => exact hpost a s' hres
  | error e => exact hfail e s' hres

theorem holds_pure {a : α} (h : post a s) : Meets handle pre (pure a : Sock ε α) post fail s := h

theorem holds_bind {x : Sock ε α} {f : α → Sock ε β} {post : β → S → Prop}
    (h : Meets handle pre x (fun a => Meets handle pre (f a) post fail) fail s)
    : Meets handle pre (x >>= f) post fail s := by
  apply Prog.meets_bind.mpr
  apply Prog.Meets.mono h
  intro res s' hres
  cases res with
  | ok a => exact hres
  | error e => exact hres

theorem holds_tryCatch {x : Sock ε α} {handler : ε → Sock ε α}
    (h : Meets handle pre x post (fun e => Meets handle pre (handler e) post fail) s)
    : Meets handle pre (tryCatch x handler) post fail s := by
  apply Prog.meets_bind.mpr
  apply Prog.Meets.mono h
  intro res s' hres
  cases res with
  | ok a => exact hres
  | error e => exact hres

theorem holds_adapt {ε' : Type} {f : ε → ε'} {x : Sock ε α} {fail : ε' → S → Prop}
    (h : Meets handle pre x post (fun e => fail (f e)) s)
    : Meets handle pre (ExceptT.adapt f x) post fail s := by
  apply Prog.meets_bind.mpr
  apply Prog.Meets.mono h
  intro res s' hres
  cases res with
  | ok a => exact hres
  | error e => exact hres

theorem holds_ask {action : SockAction α} (hpre : pre action s)
    (h : ∀ answer s', handle s action answer s' → post answer s')
    : Meets handle pre (ask action : Sock ε α) post fail s := by
  apply Prog.meets_bind.mpr
  exact ⟨hpre, h⟩

theorem holds_fromIo [FromIo ε] {action : SockAction (Except IoError Unit)} {post : Unit → S → Prop}
    (hpre : pre action s)
    (h : ∀ res s', handle s action res s' → onResult post fail (res.mapError FromIo.fromIo) s')
    : Meets handle pre (fromIo action : Sock ε Unit) post fail s := by
  apply Prog.meets_bind.mpr
  exact ⟨hpre, h⟩

theorem meets_of_forall {x : Sock ε α} (hpre : ∀ ⦃β : Type⦄ (action : SockAction β) s, pre action s)
    (hpost : ∀ a s, post a s) (hfail : ∀ e s, fail e s) : Meets handle pre x post fail s := by
  apply Prog.meets_of_forall hpre
  intro res s'
  cases res with
  | ok a => exact hpost a s'
  | error e => exact hfail e s'

end Rules

section Sockets

variable {watched : Port} {pre : ⦃β : Type⦄ → SockAction β → Log → Prop} {fail : ε → Log → Prop}
  {l : Log}

theorem holds_read {limit timer : Option Nat} {post : ReadEvent → Log → Prop}
    (hpre : pre (.read limit timer) l)
    (hdata : ∀ bytes hne, (∀ n ∈ limit, bytes.length ≤ n) → l.atEnd = false →
      post (.data bytes hne) (l.read bytes))
    (heof : post .eof l.readEnd) (herr : ∀ e, post (.err e) l)
    (htimeout : timer.isSome → post .timeout l)
    : Holds watched pre (ask (.read limit timer) : Sock ε ReadEvent) post fail l := by
  apply holds_ask hpre
  intro event l' hread
  cases hread with
  | data bytes hne hlimit hend => exact hdata bytes hne hlimit hend
  | eof => exact heof
  | err e => exact herr e
  | timeout h => exact htimeout h

section FromIo

variable [FromIo ε] {port : Port} {post : Unit → Log → Prop}

theorem holds_writeAll {bytes : Bytes} (hpre : pre (.write watched bytes) l)
    (hok : l.closed = false →
      post () (if watched.buffered then l.write bytes else (l.write bytes).flush))
    (hfail : ∀ e part, part <+: bytes → fail e (l.write part))
    : Holds watched pre (writeAll watched bytes : Sock ε Unit) post fail l := by
  apply holds_fromIo hpre
  intro res l' hwrite
  simp only [Handles, ↓reduceIte] at hwrite
  cases hwrite with
  | ok hopen => exact hok hopen
  | error e part hopen hpart => exact hfail _ part hpart
  | closed e h =>
    have := hfail (FromIo.fromIo e) [] List.nil_prefix
    rw [Ledger.write_nil] at this
    exact this

theorem holds_flush (hpre : pre (.flush watched) l) (hok : post () l.flush) (hfail : ∀ e, fail e l)
    : Holds watched pre (flush watched : Sock ε Unit) post fail l := by
  apply holds_fromIo hpre
  intro res l' hflush
  simp only [Handles, ↓reduceIte] at hflush
  cases hflush with
  | ok => exact hok
  | error e => exact hfail _

theorem holds_shutdown (hpre : pre (.shutdown watched) l) (hok : post () l.shut)
    (hfail : ∀ e, fail e l)
    : Holds watched pre (shutdown watched : Sock ε Unit) post fail l := by
  apply holds_fromIo hpre
  intro res l' hshut
  simp only [Handles, ↓reduceIte] at hshut
  cases hshut with
  | ok => exact hok
  | error e => exact hfail _

theorem holds_fromIo_still {action : SockAction (Except IoError Unit)}
    (hstill : ∀ res l', Handles watched l action res l' → l' = l) (hpre : pre action l)
    (hok : post () l) (hfail : ∀ e, fail e l)
    : Holds watched pre (fromIo action : Sock ε Unit) post fail l := by
  apply holds_fromIo hpre
  intro res l' hact
  rw [hstill res l' hact]
  cases res with
  | ok u => exact hok
  | error e => exact hfail _

end FromIo

end Sockets

section Loop

variable {S : Type} {handle : Handler SockAction S} {pre : ⦃β : Type⦄ → SockAction β → S → Prop}
  {J : σ → S → Prop} {R : α → S → Prop} {fail : ε → S → Prop} {s : S}

theorem turn_meets {x : Sock ε (σ ⊕ α)} (h : Meets handle pre x (Sum.elim J R) fail s)
    : x.turn.Meets handle pre (Sum.elim J (onResult R fail)) s := by
  apply Prog.meets_bind.mpr
  apply Prog.Meets.mono h
  intro res s' hres
  match res with
  | .ok (.inl x) => exact hres
  | .ok (.inr a) => exact hres
  | .error e => exact hres

/--
The rule for loops, with `J` for the invariant, `R` for the results and `fail` for the errors.
-/
theorem loop_meets {start : Sock ε (σ ⊕ α)} {body : σ → Sock ε (σ ⊕ α)}
    {c : Prog SockAction (σ ⊕ Except ε α) × S}
    (hstart : Meets handle pre start (Sum.elim J R) fail s)
    (hbody : ∀ x s, J x s → Meets handle pre (body x) (Sum.elim J R) fail s)
    (h : (loop start body).Reaches handle s c)
    : c.1.Meets handle pre (Sum.elim J (onResult R fail)) c.2 := by
  apply Loop.Reaches.meets h (turn_meets hstart)
  intro x s hx
  exact turn_meets (hbody x s hx)

end Loop

section Avoids

variable {bad : ⦃β : Type⦄ → SockAction β → Prop}

def Avoids (bad : ⦃β : Type⦄ → SockAction β → Prop) (x : Sock ε α) : Prop := x.run.Avoids bad

theorem avoids_pure (a : α) : Avoids bad (pure a : Sock ε α) := trivial

theorem avoids_throw (e : ε) : Avoids bad (throw e : Sock ε α) := trivial

theorem Avoids.bind {x : Sock ε α} {f : α → Sock ε β} (hx : Avoids bad x)
    (hf : ∀ a, Avoids bad (f a))
    : Avoids bad (x >>= f) := by
  apply Prog.Avoids.bind hx
  intro res
  cases res with
  | ok a => exact hf a
  | error e => trivial

theorem Avoids.tryCatch {x : Sock ε α} {handler : ε → Sock ε α} (hx : Avoids bad x)
    (hhandler : ∀ e, Avoids bad (handler e)) : Avoids bad (tryCatch x handler) := by
  apply Prog.Avoids.bind hx
  intro res
  cases res with
  | ok a => trivial
  | error e => exact hhandler e

theorem Avoids.adapt {ε' : Type} {x : Sock ε α} (hx : Avoids bad x) (f : ε → ε')
    : Avoids bad (ExceptT.adapt f x) := by
  apply Prog.Avoids.bind hx
  intro res
  trivial

theorem avoids_ask {action : SockAction α} (h : ¬bad action) : Avoids bad (ask action : Sock ε α) :=
  ⟨h, fun _ => trivial⟩

theorem avoids_fromIo [FromIo ε] {action : SockAction (Except IoError Unit)} (h : ¬bad action)
    : Avoids bad (fromIo action : Sock ε Unit) :=
  ⟨h, fun _ => trivial⟩

end Avoids

end Sock

/--
Between any two actions the output carries the input, and nothing is held back when the program goes
on to wait for a read.
-/
def Sound (v w : Bytes → Bytes) : ⦃α : Type⦄ → SockAction α → Log → Prop := fun _ action l =>
  l.Carries v w ∧ (action.isRead = true → l.Prompt v w)

def SockAction.still : SockAction α → Bool
  | .read _ _ => false
  | .write _ _ => false
  | .flush _ => false
  | .shutdown _ => false
  | .connectSite => false
  | _ => true

theorem Sock.ask_holds {watched : Port} {v w : Bytes → Bytes} {action : SockAction α}
    {post : α → Log → Prop} {fail : ε → Log → Prop} {l : Log} (hstill : action.still = true)
    (hcarries : l.Carries v w) (h : ∀ answer, post answer l)
    : Holds watched (Sound v w) (ask action : Sock ε α) post fail l := by
  apply holds_ask
  . refine ⟨hcarries, ?_⟩
    intro hread
    cases action <;> simp [isRead, still] at hread hstill
  . intro answer l' hact
    have hl : l' = l := by
      cases action with
      | read limit timer => cases hstill
      | write port bytes => cases hstill
      | flush port => cases hstill
      | shutdown port => cases hstill
      | connectSite => cases hstill
      | _ => exact hact
    rw [hl]
    exact h answer

structure SoundPipe (watched : Port) (v w : Bytes → Bytes) (R : ρ → Log → Prop)
    (l : Loop SockAction σ ρ)
    : Prop where
  forwards : (pipeTo watched l).Forwards v w
  prompt : (pipeTo watched l).Prompt v w
  ends : ∀ res log, (pipeTo watched l).Reachable (.done (.inr res), log) → R res log

theorem SoundPipe.of_holds {watched : Port} {v w : Bytes → Bytes} {start : Sock ε (σ ⊕ α)}
    {body : σ → Sock ε (σ ⊕ α)} (J : σ → Log → Prop) {R : α → Log → Prop}
    (hJ : ∀ s l, J s l → l.Carries v w)
    (hstart : Sock.Holds watched (Sound v w) start (Sum.elim J fun a l => l.Carries v w ∧ R a l)
      (fun _ l => l.Carries v w) (.start (decide (watched = .site))))
    (hbody : ∀ s l, J s l → Sock.Holds watched (Sound v w) (body s)
      (Sum.elim J fun a l => l.Carries v w ∧ R a l) (fun _ l => l.Carries v w) l)
    : SoundPipe watched v w (fun res l => ∀ a, res = .ok a → R a l) (Sock.loop start body) where
  forwards := by
    intro c hc
    apply (Sock.loop_meets hstart hbody hc).invariant
    . intro β action log hsound
      exact hsound.1
    . intro res log hres
      match res with
      | .inl s => exact hJ s log hres
      | .inr (.ok a) => exact hres.1
      | .inr (.error e) => exact hres
  prompt := by
    intro c hc hidle
    rcases (Sock.loop_meets hstart hbody hc).next hidle with ⟨β, action, hread, hsound⟩
    exact hsound.2 hread
  ends := by
    rintro res log hc a rfl
    exact (Sock.loop_meets hstart hbody hc).2

end Veil
