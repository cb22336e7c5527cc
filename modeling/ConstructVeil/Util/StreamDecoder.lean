import Mathlib.Data.List.Basic

/-!
This module contains the theory of incremental decoders, i.e. functions that look at the front of a
growing buffer and either take one item off it, ask for more, or reject it for good. Its main result
is that draining such a decoder does not depend on how the input was cut into chunks.
-/

inductive Attempt (β α ε : Type) where
  | item (a : α) (rest : List β)
  | wait
  | fail (e : ε)

/--
A decoder whose verdict survives more input: whatever it takes off a buffer it also takes off every
extension of that buffer, and a buffer it rejects stays rejected.
-/
structure StreamDecoder (β α ε : Type) where
  attempt : List β → Attempt β α ε
  item_lt : ∀ {buf a rest}, attempt buf = .item a rest → rest.length < buf.length
  item_append : ∀ {buf a rest} (ext : List β), attempt buf = .item a rest →
    attempt (buf ++ ext) = .item a (rest ++ ext)
  fail_append : ∀ {buf e} (ext : List β), attempt buf = .fail e → attempt (buf ++ ext) = .fail e

namespace StreamDecoder

variable {β α ε σ : Type} (d : StreamDecoder β α ε)

theorem eq_of_attempt {d d' : StreamDecoder β α ε} (h : ∀ buf, d.attempt buf = d'.attempt buf)
    : d = d' := by
  rcases d with ⟨attempt, _, _, _⟩
  rcases d' with ⟨attempt', _, _, _⟩
  have hattempt : attempt = attempt' := funext h
  subst hattempt
  rfl

/--
Take items off `buf` until the decoder waits or fails. The second component is the rest it waits on,
or the error.
-/
def drain (buf : List β) : List α × Except ε (List β) :=
  match h:d.attempt buf with
  | .item a rest =>
    have := d.item_lt h
    let res := drain rest
    (a :: res.1, res.2)
  | .wait => ([], .ok buf)
  | .fail e => ([], .error e)
termination_by buf.length

theorem drain_item {buf rest : List β} {a : α} (h : d.attempt buf = .item a rest)
    : d.drain buf = (a :: (d.drain rest).1, (d.drain rest).2) := by
  rw [drain]
  split
  . next a' rest' h' =>
    rw [h] at h'
    injection h' with ha hrest
    rw [ha, hrest]
  . next h' => simp [h] at h'
  . next h' => simp [h] at h'

theorem drain_wait {buf : List β} (h : d.attempt buf = .wait) : d.drain buf = ([], .ok buf) := by
  rw [drain]
  split
  . next h' => simp [h] at h'
  . rfl
  . next h' => simp [h] at h'

theorem drain_fail {buf : List β} {e : ε} (h : d.attempt buf = .fail e)
    : d.drain buf = ([], .error e) := by
  rw [drain]
  split
  . next h' => simp [h] at h'
  . next h' => simp [h] at h'
  . next e' h' =>
    rw [h] at h'
    injection h' with he
    rw [he]

theorem drain_induction {motive : List β → Prop}
    (item : ∀ buf a rest, d.attempt buf = .item a rest → motive rest → motive buf)
    (wait : ∀ buf, d.attempt buf = .wait → motive buf)
    (fail : ∀ buf e, d.attempt buf = .fail e → motive buf)
    (buf : List β) : motive buf := by
  cases h : d.attempt buf with
  | item a rest =>
    have := d.item_lt h
    exact item buf a rest h (drain_induction item wait fail rest)
  | wait => exact wait buf h
  | fail e => exact fail buf e h
termination_by buf.length

theorem attempt_of_drain_ok {buf rest : List β} (h : (d.drain buf).2 = .ok rest)
    : d.attempt rest = .wait := by
  induction buf using d.drain_induction with
  | item buf a rest' hbuf ih =>
    rw [d.drain_item hbuf] at h
    exact ih h
  | wait buf hbuf =>
    rw [d.drain_wait hbuf] at h
    injection h with h
    rw [← h, hbuf]
  | fail buf e hbuf =>
    rw [d.drain_fail hbuf] at h
    cases h

theorem drain_append_of_ok {buf rest : List β} (ext : List β) (h : (d.drain buf).2 = .ok rest)
    : d.drain (buf ++ ext)
        =
      ((d.drain buf).1 ++ (d.drain (rest ++ ext)).1, (d.drain (rest ++ ext)).2) := by
  induction buf using d.drain_induction with
  | item buf a rest' hbuf ih =>
    rw [d.drain_item hbuf] at h
    rw [d.drain_item (d.item_append ext hbuf), d.drain_item hbuf, ih h]
    rfl
  | wait buf hbuf =>
    rw [d.drain_wait hbuf] at h
    injection h with h
    rw [d.drain_wait hbuf, h]
    rfl
  | fail buf e hbuf =>
    rw [d.drain_fail hbuf] at h
    cases h

theorem drain_append_of_error {buf : List β} {e : ε} (ext : List β)
    (h : (d.drain buf).2 = .error e) : d.drain (buf ++ ext) = d.drain buf := by
  induction buf using d.drain_induction with
  | item buf a rest' hbuf ih =>
    rw [d.drain_item hbuf] at h
    rw [d.drain_item (d.item_append ext hbuf), d.drain_item hbuf, ih h]
  | wait buf hbuf =>
    rw [d.drain_wait hbuf] at h
    cases h
  | fail buf e' hbuf =>
    rw [d.drain_fail (d.fail_append ext hbuf), d.drain_fail hbuf]

theorem attempt_wait_of_append {buf ext : List β} {a : α} (hext : ext ≠ [])
    (h : d.attempt (buf ++ ext) = .item a []) : d.attempt buf = .wait := by
  cases hbuf : d.attempt buf with
  | item a' rest =>
    rw [d.item_append ext hbuf] at h
    injection h with _ hrest
    simp [hext] at hrest
  | wait => rfl
  | fail e =>
    rw [d.fail_append ext hbuf] at h
    cases h

/--
The loop a driver writes around a decoder: handle every item there is, then stop at the first buffer
that yields none.
-/
def process (handle : σ → α → σ) (s : σ) (buf : List β) : σ × Except ε (List β) :=
  match h:d.attempt buf with
  | .item a rest =>
    have := d.item_lt h
    process handle (handle s a) rest
  | .wait => (s, .ok buf)
  | .fail e => (s, .error e)
termination_by buf.length

theorem process_eq_drain (handle : σ → α → σ) (s : σ) (buf : List β)
    : d.process handle s buf = ((d.drain buf).1.foldl handle s, (d.drain buf).2) := by
  rw [process]
  split
  . next a rest h =>
    have := d.item_lt h
    rw [process_eq_drain, d.drain_item h]
    rfl
  . next h =>
    rw [d.drain_wait h]
    rfl
  . next e h =>
    rw [d.drain_fail h]
    rfl
termination_by buf.length

def feedAll (handle : σ → α → σ) (s : σ) (buf : List β) (chunks : List (List β))
    : σ × Except ε (List β) :=
  match chunks with
  | [] => (s, .ok buf)
  | chunk :: chunks =>
    match d.process handle s (buf ++ chunk) with
    | (s, .ok buf) => feedAll handle s buf chunks
    | (s, .error e) => (s, .error e)

theorem feedAll_eq_process (handle : σ → α → σ) (s : σ) (buf : List β) (chunks : List (List β))
    (h : d.attempt buf = .wait)
    : d.feedAll handle s buf chunks = d.process handle s (buf ++ chunks.flatten) := by
  induction chunks generalizing s buf with
  | nil => simp [feedAll, process_eq_drain, d.drain_wait h]
  | cons chunk chunks ih =>
    rw [List.flatten_cons, ← List.append_assoc]
    simp only [feedAll, process_eq_drain]
    cases hres : (d.drain (buf ++ chunk)).2 with
    | ok rest =>
      dsimp only
      rw [ih _ _ (d.attempt_of_drain_ok hres), process_eq_drain]
      rw [d.drain_append_of_ok chunks.flatten hres]
      simp
    | error e =>
      dsimp only
      rw [d.drain_append_of_error chunks.flatten hres, hres]

section Monadic

variable {m : Type → Type _} [Monad m] (handle : σ → α → m σ) (failed : ε → m (σ × List β))

/--
The loop of `process` if handling an item is a program of its own.
-/
def processM (s : σ) (buf : List β) : m (σ × List β) :=
  match h:d.attempt buf with
  | .item a rest => do
    have := d.item_lt h
    let s ← handle s a
    processM s rest
  | .wait => pure (s, buf)
  | .fail e => failed e
termination_by buf.length

variable {handle failed} {s : σ} {buf rest : List β}

theorem processM_item {a : α} (h : d.attempt buf = .item a rest)
    : d.processM handle failed s buf = handle s a >>= fun s => d.processM handle failed s rest := by
  rw [processM]
  split
  . next a' rest' h' =>
    rw [h] at h'
    injection h' with ha hrest
    rw [ha, hrest]
  . next h' =>
    rw [h] at h'
    cases h'
  . next h' =>
    rw [h] at h'
    cases h'

theorem processM_wait (h : d.attempt buf = .wait)
    : d.processM handle failed s buf = pure (s, buf) := by
  rw [processM]
  split
  . next h' =>
    rw [h] at h'
    cases h'
  . rfl
  . next h' =>
    rw [h] at h'
    cases h'

theorem processM_fail {e : ε} (h : d.attempt buf = .fail e)
    : d.processM handle failed s buf = failed e := by
  rw [processM]
  split
  . next h' =>
    rw [h] at h'
    cases h'
  . next h' =>
    rw [h] at h'
    cases h'
  . next e' h' =>
    rw [h] at h'
    injection h' with he
    rw [he]

end Monadic

theorem drain_flatMap (enc : α → List β) (items : List α) (suffix : List β)
    (h : ∀ a ∈ items, ∀ rest, d.attempt (enc a ++ rest) = .item a rest)
    : d.drain (items.flatMap enc ++ suffix)
        =
      (items ++ (d.drain suffix).1, (d.drain suffix).2) := by
  induction items with
  | nil => rfl
  | cons a items ih =>
    have ha := h a List.mem_cons_self (items.flatMap enc ++ suffix)
    rw [List.flatMap_cons, List.append_assoc, d.drain_item ha]
    rw [ih (fun a' ha' => h a' (List.mem_cons_of_mem a ha'))]
    rfl

/--
The buffer begins with items that satisfy `p`, and `rest` comes after them.
-/
inductive Leads (p : α → Prop) : List β → List β → Prop where
  | nil (buf : List β) : Leads p buf buf
  | cons {buf mid rest : List β} {a : α} (hbuf : d.attempt buf = .item a mid) (ha : p a)
    (hmid : Leads p mid rest) : Leads p buf rest

def Stops (p : α → Prop) (buf : List β) : Prop := ∀ a rest, d.attempt buf = .item a rest → ¬p a

namespace Leads

variable {d} {p : α → Prop} {buf rest rest' : List β}

theorem append (h : d.Leads p buf rest) (ext : List β) : d.Leads p (buf ++ ext) (rest ++ ext) := by
  induction h with
  | nil buf => exact .nil _
  | cons hbuf ha _ ih => exact .cons (d.item_append ext hbuf) ha ih

theorem unique (h : d.Leads p buf rest) (h' : d.Leads p buf rest') (hstop : d.Stops p rest)
    (hstop' : d.Stops p rest') : rest = rest' := by
  induction h with
  | nil buf =>
    cases h' with
    | nil => rfl
    | cons hbuf ha _ => exact absurd ha (hstop _ _ hbuf)
  | cons hbuf ha _ ih =>
    cases h' with
    | nil => exact absurd ha (hstop' _ _ hbuf)
    | cons hbuf' _ hmid' =>
      rw [hbuf] at hbuf'
      injection hbuf' with _ hmid
      subst hmid
      exact ih hmid' hstop

end Leads

/--
Taking `items` off the buffer, one after the other, leaves `rest`.
-/
inductive Takes : List β → List α → List β → Prop where
  | nil (buf : List β) : Takes buf [] buf
  | cons {buf mid rest : List β} {a : α} {items : List α} (hbuf : d.attempt buf = .item a mid)
    (hmid : Takes mid items rest) : Takes buf (a :: items) rest

namespace Takes

variable {d} {buf rest rest' : List β} {items : List α}

theorem append (h : d.Takes buf items rest) (ext : List β)
    : d.Takes (buf ++ ext) items (rest ++ ext) := by
  induction h with
  | nil buf => exact .nil _
  | cons hbuf _ ih => exact .cons (d.item_append ext hbuf) ih

theorem snoc {a : α} (h : d.Takes buf items rest) (ha : d.attempt rest = .item a rest')
    : d.Takes buf (items ++ [a]) rest' := by
  induction h with
  | nil buf => exact .cons ha (.nil rest')
  | cons hbuf _ ih => exact .cons hbuf (ih ha)

theorem drain_eq (h : d.Takes buf items rest)
    : d.drain buf = (items ++ (d.drain rest).1, (d.drain rest).2) := by
  induction h with
  | nil buf => rfl
  | cons hbuf _ ih =>
    rw [d.drain_item hbuf, ih]
    rfl

end Takes

end StreamDecoder
