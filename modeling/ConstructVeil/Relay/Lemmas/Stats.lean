import ConstructVeil.Relay.Impl.Stats
import ConstructVeil.Util.Counters

/-!
This module contains the accounting of the relay's statistics under every interleaving of its
connections and its summaries: every connection is in the counts exactly once, and no summary takes
a count from another.
-/

namespace Veil

abbrev StatTally := StatCell → Int

namespace StatTally

def outcomes (t : StatTally) : Int :=
  t .completed + t .handshakeTimeout + t .handshakeFailed + t .shedGlobal + t .shedPerIp

structure Visiting (t : StatTally) : Prop where
  nonneg : ∀ cell, 0 ≤ t cell
  le_one : ∀ cell, t cell ≤ 1
  outcomes : t.outcomes ≤ 1

structure Visited (t : StatTally) : Prop where
  visiting : t.Visiting
  outcomes : t.outcomes = 1
  secondRead : t .tunnelsAfterSecondRead ≤ t .tunnelsAdmitted
  tunnels : t .tunnelsAdmitted ≤ t .completed
  handlerError : t .handlerError ≤ t .tunnelsAdmitted

def Running (t : StatTally) : Prop := t.Visiting ∨ ∀ cell, t cell ≤ 0

theorem Running.le_one {t : StatTally} (h : t.Running) (cell : StatCell) : t cell ≤ 1 := by
  rcases h with h | h
  . exact h.le_one cell
  . have := h cell
    omega

theorem Running.outcomes_le {t : StatTally} (h : t.Running) : t.outcomes ≤ 1 := by
  rcases h with h | h
  . exact h.outcomes
  . have := h .completed
    have := h .handshakeTimeout
    have := h .handshakeFailed
    have := h .shedGlobal
    have := h .shedPerIp
    unfold StatTally.outcomes
    omega

theorem outcomes_add (t t' : StatTally) : (t + t').outcomes = t.outcomes + t'.outcomes := by
  simp only [outcomes, Pi.add_apply]
  omega

def ofCells (cells : List StatCell) : StatTally := fun cell => cells.count cell

@[simp]
theorem ofCells_nil : ofCells [] = 0 := rfl

theorem ofCells_add (cells : List StatCell) (cell : StatCell)
    : ofCells cells + Pi.single cell 1 = ofCells (cell :: cells) := by
  funext cell'
  by_cases h : cell = cell'
  . subst h
    simp [ofCells]
  . simp [ofCells, h, Ne.symm h]

theorem Visiting.of_cells {cells : List StatCell} (h : cells.Nodup ∧ (ofCells cells).outcomes ≤ 1)
    : (ofCells cells).Visiting where
  nonneg cell := by simp [ofCells]
  le_one cell := by
    have := List.nodup_iff_count_le_one.mp h.1 cell
    simp only [ofCells]
    omega
  outcomes := h.2

theorem Visited.of_cells {cells : List StatCell}
    (h : cells.Nodup ∧ (ofCells cells).outcomes = 1 ∧
      cells.count .tunnelsAfterSecondRead ≤ cells.count .tunnelsAdmitted ∧
      cells.count .tunnelsAdmitted ≤ cells.count .completed ∧
      cells.count .handlerError ≤ cells.count .tunnelsAdmitted)
    : (ofCells cells).Visited where
  visiting := .of_cells ⟨h.1, Int.le_of_eq h.2.1⟩
  outcomes := h.2.1
  secondRead := Int.ofNat_le.mpr h.2.2.1
  tunnels := Int.ofNat_le.mpr h.2.2.2.1
  handlerError := Int.ofNat_le.mpr h.2.2.2.2

end StatTally

namespace StatAction

open StatTally

def effect : ⦃β : Type⦄ → StatAction β → β → StatTally := fun _ action answer =>
  match action with
  | .inl op => op.effect answer
  | .inr _ => 0

theorem wrapped_of_handles {β : Type} {m m' : Memory} {action : StatAction β} {answer : β}
    (h : Handles m action answer m')
    : WrappedEach m'.counts (m.counts + effect action answer) := by
  cases action with
  | inl op => exact AtomicOp.wrapped_of_handles h
  | inr action =>
    cases h
    simpa [effect] using WrappedEach.refl _

end StatAction

def ConnSummary.count (line : ConnSummary) : StatCell → UInt64
  | .completed => line.completed
  | .handshakeTimeout => line.handshakeTimeout
  | .handshakeFailed => line.handshakeFailed
  | .handlerError => line.handlerError
  | .shedGlobal => line.shedGlobal
  | .shedPerIp => line.shedPerIp
  | .tunnelsAdmitted => line.tunnels
  | .tunnelsAfterSecondRead => line.authAfterSecondRead

def StatResult.reported : StatResult → StatTally
  | .summary (some line) => fun cell => (line.count cell).toNat
  | _ => 0

open StatTally StatAction StatProg

section Programs

variable {α : Type} {post : α → StatTally → Prop} {t : StatTally}

abbrev Adds (p : StatProg α) (post : α → StatTally → Prop) (t : StatTally) : Prop :=
  p.Meets (Prog.tallied effect) (fun _ _ => Running) post t

theorem adds_task {action : TaskAction α} (hrunning : t.Running) (h : ∀ answer, post answer t)
    : Adds (task action) post t := by
  refine ⟨hrunning, ?_⟩
  rintro answer _ rfl
  simpa [effect] using h answer

theorem adds_bind {β : Type} {p : StatProg α} {f : α → StatProg β} {post : β → StatTally → Prop}
    (h : Adds p (fun a => Adds (f a) post) t) : Adds (p >>= f) post t :=
  Prog.meets_bind.mpr h

section Connection

variable {cells : List StatCell}

theorem adds_fetchAdd {cell : StatCell} {post : Unit → StatTally → Prop}
    (hcells : cells.Nodup ∧ (ofCells cells).outcomes ≤ 1) (h : post () (ofCells (cell :: cells)))
    : Adds (fetchAdd cell) post (ofCells cells) := by
  refine ⟨.inl (.of_cells hcells), ?_⟩
  rintro answer _ rfl
  rw [← ofCells_add] at h
  exact h

theorem countTunnel_adds {afterSecondRead : Bool} {post : Unit → StatTally → Prop}
    (hfirst : post () (ofCells [.tunnelsAdmitted, .completed]))
    (hsecond : post () (ofCells [.tunnelsAdmitted, .tunnelsAfterSecondRead, .completed]))
    : Adds (countTunnel afterSecondRead) post (ofCells [.completed]) := by
  cases afterSecondRead with
  | false => exact adds_fetchAdd (by decide) hfirst
  | true =>
    apply adds_bind
    apply adds_fetchAdd (by decide)
    exact adds_fetchAdd (by decide) hsecond

theorem countHandler_adds {post : Bool → StatTally → Prop}
    (hsite : post true (ofCells [.completed]))
    (hfirst : ∀ ok, post ok (ofCells [.tunnelsAdmitted, .completed]))
    (hsecond : ∀ ok, post ok (ofCells [.tunnelsAdmitted, .tunnelsAfterSecondRead, .completed]))
    : Adds countHandler post (ofCells [.completed]) := by
  apply adds_bind
  apply adds_task (.inl (.of_cells (by decide)))
  intro verdict
  cases verdict with
  | error => exact hsite
  | site => exact hsite
  | tunnel afterSecondRead =>
    apply adds_bind
    apply countTunnel_adds
    . exact adds_task (.inl (.of_cells (by decide))) hfirst
    . exact adds_task (.inl (.of_cells (by decide))) hsecond

theorem handled_adds {ok : Bool} (hcells : (ofCells cells).Visited)
    (herror : (ofCells (.handlerError :: cells)).Visited) (hnodup : cells.Nodup)
    : Adds (if ok then pure () else fetchAdd .handlerError) (fun _ => Visited) (ofCells cells) := by
  cases ok with
  | true => exact hcells
  | false => exact adds_fetchAdd ⟨hnodup, hcells.visiting.outcomes⟩ herror

theorem countConnection_adds : Adds countConnection (fun _ => Visited) (ofCells []) := by
  apply adds_bind
  apply adds_task (.inl (.of_cells (by decide)))
  intro res
  cases res with
  | failed => exact adds_fetchAdd (by decide) (.of_cells (by decide))
  | timedOut => exact adds_fetchAdd (by decide) (.of_cells (by decide))
  | done =>
    apply adds_bind
    apply adds_fetchAdd (by decide)
    apply adds_bind
    apply countHandler_adds
    . exact Visited.of_cells (by decide)
    . intro ok
      exact handled_adds (.of_cells (by decide)) (.of_cells (by decide)) (by decide)
    . intro ok
      exact handled_adds (.of_cells (by decide)) (.of_cells (by decide)) (by decide)

theorem countAccepted_adds : Adds countAccepted (fun _ => Visited) (ofCells []) := by
  apply adds_bind
  apply adds_task (.inl (.of_cells (by decide)))
  intro res
  cases res with
  | shedGlobal => exact adds_fetchAdd (by decide) (.of_cells (by decide))
  | shedPerIp => exact adds_fetchAdd (by decide) (.of_cells (by decide))
  | admitted => exact countConnection_adds

end Connection

section Summary

theorem adds_swap {cell : StatCell} {f : UInt64 → StatProg α} (hnonpos : ∀ cell, t cell ≤ 0)
    (h : ∀ (v : UInt64) (t' : StatTally), t' = t + Pi.single cell (-(v.toNat : Int)) →
      (∀ cell, t' cell ≤ 0) → Adds (f v) post t')
    : Adds (swap cell >>= f) post t := by
  apply adds_bind
  refine ⟨.inr hnonpos, ?_⟩
  rintro v _ rfl
  apply h v
  . simp [effect, AtomicOp.effect]
  . intro cell'
    have := hnonpos cell'
    by_cases hcell : cell' = cell
    . subst hcell
      simp only [effect, AtomicOp.effect, Pi.add_apply, Pi.single_eq_same, UInt64.toNat_zero]
      omega
    . simpa [effect, AtomicOp.effect, hcell] using this

theorem flush_adds
    : Adds ConnStats.flush (fun line t => t = -(StatResult.summary line).reported) 0 := by
  refine adds_swap (fun _ => Int.le_refl 0) fun v₁ t₁ h₁ hle => ?_
  refine adds_swap hle fun v₂ t₂ h₂ hle => ?_
  refine adds_swap hle fun v₃ t₃ h₃ hle => ?_
  refine adds_swap hle fun v₄ t₄ h₄ hle => ?_
  refine adds_swap hle fun v₅ t₅ h₅ hle => ?_
  refine adds_swap hle fun v₆ t₆ h₆ hle => ?_
  refine adds_swap hle fun v₇ t₇ h₇ hle => ?_
  refine adds_swap hle fun v₈ t₈ h₈ hle => ?_
  subst h₁ h₂ h₃ h₄ h₅ h₆ h₇ h₈
  split
  . next hzero =>
    simp only [UInt64.or_eq_zero_iff] at hzero
    rcases hzero with ⟨⟨⟨⟨⟨⟨⟨rfl, rfl⟩, rfl⟩, rfl⟩, rfl⟩, rfl⟩, rfl⟩, rfl⟩
    funext cell
    simp [StatResult.reported]
  . funext cell
    cases cell <;> simp [StatResult.reported, ConnSummary.count]

end Summary

end Programs

def StatResult.Settles : StatResult → StatTally → Prop
  | .connection => Visited
  | .summary line => fun t => t = -(StatResult.summary line).reported

theorem IsStatTask.adds {p : StatProg StatResult} (h : IsStatTask p)
    : Adds p StatResult.Settles 0 := by
  cases h with
  | connection =>
    apply adds_bind
    have h := countAccepted_adds
    rw [ofCells_nil] at h
    exact h
  | summary =>
    apply adds_bind
    exact flush_adds

section Pool

abbrev StatPool := Pool StatAction Memory StatResult

/--
All counts there are: those that were reported and those that are still in the counters.
-/
def counted (pool : StatPool) : StatTally :=
  (pool.results.map StatResult.reported).sum + pool.shared.counts

def contribution (thread : StatProg StatResult × StatTally) : StatTally :=
  thread.2 + (thread.1.value?.map StatResult.reported).getD 0

variable {thread : StatProg StatResult × StatTally}
  {threads : List (StatProg StatResult × StatTally)}

theorem sum_contribution
    : (threads.map contribution).sum
        =
      (threads.map Prod.snd).sum +
        (((threads.map Prod.fst).filterMap Prog.value?).map StatResult.reported).sum := by
  induction threads with
  | nil => rfl
  | cons thread threads ih =>
    rw [List.map_cons, List.sum_cons, ih, contribution]
    cases h : thread.1.value? with
    | none =>
      simp only [List.map_cons, List.filterMap_cons, h, List.sum_cons, Option.map_none,
        Option.getD_none]
      abel
    | some res =>
      simp only [List.map_cons, List.filterMap_cons, h, List.sum_cons, Option.map_some,
        Option.getD_some]
      abel

inductive Share : StatProg StatResult → StatTally → Prop where
  | connection {t : StatTally} (h : t.Visited) : Share (.done .connection) t
  | summary (line : Option ConnSummary) : Share (.done (.summary line)) 0
  | running {p : StatProg StatResult} {t : StatTally} (hp : p.value? = none)
    (h : t.Running) : Share p t

theorem share_contribution (h : Adds thread.1 StatResult.Settles thread.2)
    : Share thread.1 (contribution thread) := by
  rcases thread with ⟨p, t⟩
  cases p with
  | done res =>
    cases res with
    | connection =>
      have hvisited : t.Visited := h
      simpa [contribution, StatResult.reported] using Share.connection hvisited
    | summary line =>
      have ht : t = -(StatResult.summary line).reported := h
      subst ht
      simpa [contribution] using Share.summary line
  | act action next =>
    have hrunning : t.Running := h.1
    simpa [contribution] using Share.running rfl hrunning

/--
The sum of the shares of some threads, of which `connections` are connections that have ended and
`unfinished` have not ended.
-/
structure Shares (connections unfinished : Nat) (t : StatTally) : Prop where
  le : ∀ cell, t cell ≤ connections + unfinished
  outcomes_le : t.outcomes ≤ connections + unfinished
  ended : unfinished = 0 → t.outcomes = connections ∧ t .tunnelsAfterSecondRead
    ≤ t .tunnelsAdmitted ∧ t .tunnelsAdmitted ≤ t .completed ∧ t .handlerError ≤ t .tunnelsAdmitted

theorem Shares.cons {p : StatProg StatResult} {ps : List (StatProg StatResult)} {t t' : StatTally}
    (h : Share p t)
    (hs : Shares ((ps.filterMap Prog.value?).count .connection) (ps.countP fun p => p.value?.isNone)
      t')
    : Shares (((p :: ps).filterMap Prog.value?).count .connection)
        ((p :: ps).countP fun p => p.value?.isNone) (t + t') := by
  rcases hs with ⟨hle, houtcomes, hended⟩
  cases h with
  | connection h =>
    simp only [List.filterMap_cons, Prog.value?_done, List.count_cons_self, List.countP_cons,
      Option.isNone_some, Bool.false_eq_true, ↓reduceIte, Nat.add_zero]
    refine ⟨?_, ?_, ?_⟩
    . intro cell
      have := hle cell
      have := h.visiting.le_one cell
      simp only [Pi.add_apply]
      omega
    . have := h.outcomes
      rw [outcomes_add]
      omega
    . intro hzero
      rcases hended hzero with ⟨heq, hsecond, htunnels, herror⟩
      have := h.outcomes
      have := h.secondRead
      have := h.tunnels
      have := h.handlerError
      rw [outcomes_add]
      simp only [Pi.add_apply]
      omega
  | summary line =>
    simpa [List.filterMap_cons, List.countP_cons] using Shares.mk hle houtcomes hended
  | running hp h =>
    simp only [List.filterMap_cons, hp, List.countP_cons, Option.isNone_none, ↓reduceIte]
    refine ⟨?_, ?_, ?_⟩
    . intro cell
      have := hle cell
      have := h.le_one cell
      simp only [Pi.add_apply]
      omega
    . have := h.outcomes_le
      rw [outcomes_add]
      omega
    . intro hzero
      omega

theorem shares (h : ∀ thread ∈ threads, Adds thread.1 StatResult.Settles thread.2)
    : Shares (((threads.map Prod.fst).filterMap Prog.value?).count .connection)
        ((threads.map Prod.fst).countP fun p => p.value?.isNone)
          (threads.map contribution).sum := by
  induction threads with
  | nil => exact ⟨by simp, by simp [outcomes], by simp [outcomes]⟩
  | cons thread threads ih =>
    rw [List.forall_mem_cons] at h
    simp only [List.map_cons, List.sum_cons]
    exact (ih h.2).cons (share_contribution h.1)

theorem sum_reported_nonneg (results : List StatResult) (cell : StatCell)
    : 0 ≤ (results.map StatResult.reported).sum cell := by
  induction results with
  | nil => exact Int.le_refl 0
  | cons res results ih =>
    have hres : 0 ≤ res.reported cell := by
      unfold StatResult.reported
      split
      . apply Int.natCast_nonneg
      . exact Int.le_refl 0
    simp only [List.map_cons, List.sum_cons, Pi.add_apply]
    omega

/--
No connection is lost from the statistics and none is in them twice, for any number of connections
and summaries and any interleaving, as long as the counters of 64 bits are wide enough: when all
have ended, every connection is in exactly one of the five outcomes, tunnels are among the completed
handshakes, and second reads and errors are among the tunnels. At any other time there are not more
outcomes than connections.
-/
theorem connections_counted {pool : StatPool}
    (h : Pool.Reaches Handles IsStatTask ConnStats.new pool) (hsize : pool.threads.length < 2 ^ 64)
    : (counted pool).outcomes ≤ pool.results.count .connection + pool.unfinished ∧
      (pool.unfinished = 0 →
        (counted pool).outcomes = pool.results.count .connection ∧
        counted pool .tunnelsAfterSecondRead ≤ counted pool .tunnelsAdmitted ∧
        counted pool .tunnelsAdmitted ≤ counted pool .completed ∧
        counted pool .handlerError ≤ counted pool .tunnelsAdmitted) := by
  rcases h.tally WrappedEach.refl (fun _ _ _ => WrappedEach.trans) (fun _ _ c h => h.add_right c)
    AtomicMemory.counts (fun _ => IsStatTask.adds)
    (fun _ => wrapped_of_handles) with ⟨threads, hthreads, hadds, hwrapped⟩
  have hshares := shares hadds
  rw [hthreads] at hshares
  have heq : counted pool = (threads.map contribution).sum := by
    funext cell
    rcases hwrapped cell with ⟨wraps, hwraps⟩
    have hle := hshares.le cell
    have hcount : pool.results.count .connection ≤ pool.results.length := List.count_le_length
    have hlength := pool.length_results_add_unfinished
    have hreported := sum_reported_nonneg pool.results cell
    have hnew : AtomicMemory.counts ConnStats.new cell = 0 := rfl
    have hvalue : 0 ≤ pool.shared.counts cell := Int.natCast_nonneg _
    rw [sum_contribution, hthreads] at hle ⊢
    change (threads.map Prod.snd).sum cell + (pool.results.map StatResult.reported).sum cell ≤
      pool.results.count .connection + pool.unfinished at hle
    change (pool.results.map StatResult.reported).sum cell + pool.shared.counts cell
      = (threads.map Prod.snd).sum cell + (pool.results.map StatResult.reported).sum cell
    simp only [Pi.add_apply, hnew] at hwraps
    -- all counts are below the range of the counters, so none has wrapped
    have hzero : wraps = 0 := by omega
    rw [hzero] at hwraps
    omega
  rw [heq]
  exact ⟨hshares.outcomes_le, hshares.ended⟩

/--
A connection is shed while a summary is on its way to the counter.
-/
theorem connections_counted_shed
    : ∃ pool : StatPool, Pool.Reaches Handles IsStatTask ConnStats.new pool ∧ pool.unfinished = 0 ∧
        pool.results = [.connection, .summary (some ⟨0, 0, 0, 0, 1, 0, 0, 0⟩)] ∧
          (counted pool).outcomes = 1 := by
  have h : Pool.Reaches Handles IsStatTask ConnStats.new ⟨ConnStats.new, [_, _]⟩ :=
    (Relation.ReflTransGen.refl.tail (.spawn ConnStats.new [] _ .connection)).tail
      (.spawn ConnStats.new _ _ .summary)
  have h := h.act [] AdmitResult.shedGlobal rfl
  have h := h.act [_] (0 : UInt64) ⟨rfl, rfl⟩
  have h := h.act [_] (0 : UInt64) ⟨rfl, rfl⟩
  have h := h.act [_] (0 : UInt64) ⟨rfl, rfl⟩
  have h := h.act [_] (0 : UInt64) ⟨rfl, rfl⟩
  have h := h.act [] (0 : UInt64) ⟨rfl, rfl⟩
  have h := h.act [_] (1 : UInt64) ⟨rfl, rfl⟩
  have h := h.act [_] (0 : UInt64) ⟨rfl, rfl⟩
  have h := h.act [_] (0 : UInt64) ⟨rfl, rfl⟩
  have h := h.act [_] (0 : UInt64) ⟨rfl, rfl⟩
  exact ⟨_, h, rfl, rfl, ((connections_counted h (by decide)).2 rfl).1⟩

end Pool

end Veil
