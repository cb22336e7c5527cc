import Mathlib.Tactic.Common
import ConstructVeil.Relay.Impl.Admission

/-!
This module contains the accounting of the admission control: the map of the cap per peer counts the
live connections of each bucket, and the permits that are not free belong to handshakes in flight.
-/

namespace Veil

namespace IpAddr

end IpAddr

theorem countP_set_add {α : Type} {p : α → Bool} {l : List α} {i : Nat} {x y : α}
    (h : l[i]? = some x)
    : (l.set i y).countP p + (p x).toNat = l.countP p + (p y).toNat := by
  rw [List.getElem?_eq_some_iff] at h
  rcases h with ⟨hi, h⟩
  have hle : (p l[i]).toNat ≤ l.countP p := by
    cases hp : p l[i] with
    | false => simp
    | true =>
      rw [Bool.toNat_true, Nat.succ_le_iff, List.countP_pos_iff]
      exact ⟨l[i], List.getElem_mem hi, hp⟩
  rw [List.countP_set hi, ← h]
  cases hp : p l[i] <;> cases hq : p y <;> simp_all

inductive Tally (cap : UInt32) : Option UInt32 → Nat → Prop where
  | absent : Tally cap none 0
  | present {count : UInt32} (hpos : 0 < count.toNat) (hle : count ≤ cap)
      : Tally cap (some count) count.toNat

namespace Tally

variable {cap : UInt32} {entry : Option UInt32} {n : Nat}

theorem toNat_getD (h : Tally cap entry n) : (entry.getD 0).toNat = n := by
  cases h <;> rfl

theorem le (h : Tally cap entry n) : n ≤ cap.toNat := by
  cases h with
  | absent => apply Nat.zero_le
  | present _ hle => exact hle

theorem eq_some (h : Tally cap entry n) (hpos : 0 < n)
    : ∃ count : UInt32, entry = some count ∧ count.toNat = n := by
  cases h with
  | absent => contradiction
  | present => exact ⟨_, rfl, rfl⟩

theorem of_eq_some {count : UInt32} (h : Tally cap (some count) n)
    : count.toNat = n ∧ 0 < n ∧ n ≤ cap.toNat := by
  cases h with
  | present hpos hle => exact ⟨rfl, hpos, hle⟩

end Tally

namespace Admission

def Tallies (a : Admission) (guards : IpAddr → Nat) : Prop :=
  ∀ b, Tally a.maxPerIp (a.perIp b) (guards b)

theorem toNat_maxPerIp_new (maxHandshakes : Nat) (maxPerIp : UInt32)
    : (new maxHandshakes maxPerIp).maxPerIp.toNat = max 1 maxPerIp.toNat := by
  change (if maxPerIp ≤ 1 then 1 else maxPerIp).toNat = max 1 maxPerIp.toNat
  split <;> rename_i h <;> rw [UInt32.le_iff_toNat_le, UInt32.toNat_one] at h
  . rw [UInt32.toNat_one]
    omega
  . omega

variable {a : Admission} {n n' : IpAddr → Nat}

theorem tryAcquire_eq_none_iff : a.tryAcquire = none ↔ a.handshakes = 0 := by
  unfold tryAcquire
  split <;> simp_all

theorem tryAcquire_eq_some {a' : Admission} (h : a.tryAcquire = some a')
    : ∃ free, a.handshakes = free + 1 ∧ a' = { a with handshakes := free } := by
  unfold tryAcquire at h
  split at h
  next => contradiction
  next hfree =>
    injection h with h
    exact ⟨a.handshakes - 1, by omega, h.symm⟩

theorem perIp_insert_self (b : IpAddr) (count : UInt32) : (a.insert b count).perIp b = some count :=
  if_pos rfl

theorem perIp_insert_of_ne {b b' : IpAddr} (count : UInt32) (h : b' ≠ b)
    : (a.insert b count).perIp b' = a.perIp b' :=
  if_neg h

theorem perIp_remove_self (b : IpAddr) : (a.remove b).perIp b = none := if_pos rfl

theorem perIp_remove_of_ne {b b' : IpAddr} (h : b' ≠ b) : (a.remove b).perIp b' = a.perIp b' :=
  if_neg h

theorem Tallies.of_entry {a' : Admission} (h : a.Tallies n) (b : IpAddr)
    (hcap : a'.maxPerIp = a.maxPerIp) (hself : Tally a.maxPerIp (a'.perIp b) (n' b))
    (hne : ∀ b', b' ≠ b → a'.perIp b' = a.perIp b' ∧ n' b' = n b') : a'.Tallies n' := by
  intro b'
  rw [hcap]
  by_cases hb : b' = b
  . rw [hb]
    exact hself
  . rw [(hne b' hb).1, (hne b' hb).2]
    exact h b'

theorem admitIp_at_cap {ip : IpAddr} (h : a.Tallies n) (hpos : 0 < a.maxPerIp.toNat)
    (hcap : n (perIpBucket ip) = a.maxPerIp.toNat) : a.admitIp ip = (none, a) := by
  have htally := h (perIpBucket ip)
  have hge : (a.perIp (perIpBucket ip)).getD 0 ≥ a.maxPerIp := by
    rw [ge_iff_le, UInt32.le_iff_toNat_le, htally.toNat_getD]
    omega
  -- The entry is there already, as no cap is zero
  have hinsert : a.insert (perIpBucket ip) ((a.perIp (perIpBucket ip)).getD 0) = a := by
    rcases htally.eq_some (by omega) with ⟨count, hcount, -⟩
    rw [hcount, Option.getD_some]
    unfold insert
    congr 1
    funext b
    split
    next hb => rw [hb, hcount]
    next => rfl
  simp only [admitIp, hinsert, hge, ↓reduceIte]

theorem admitIp_below_cap {ip : IpAddr} (h : a.Tallies n)
    (hlt : n (perIpBucket ip) < a.maxPerIp.toNat)
    (hself : n' (perIpBucket ip) = n (perIpBucket ip) + 1)
    (hne : ∀ b, b ≠ perIpBucket ip → n' b = n b)
    : ∃ a', a.admitIp ip = (some (perIpBucket ip), a') ∧ a'.handshakes = a.handshakes
        ∧ a'.maxPerIp = a.maxPerIp ∧ a'.Tallies n' := by
  have hcount := (h (perIpBucket ip)).toNat_getD
  generalize hold : (a.perIp (perIpBucket ip)).getD 0 = count at hcount
  have hnot : ¬count ≥ a.maxPerIp := by
    rw [ge_iff_le, UInt32.le_iff_toNat_le]
    omega
  have hsucc : (count + 1).toNat = count.toNat + 1 := by
    have := a.maxPerIp.toNat_lt
    rw [UInt32.toNat_add, UInt32.toNat_one]
    omega
  refine ⟨(a.insert (perIpBucket ip) count).insert (perIpBucket ip) (count + 1), ?_, rfl, rfl, ?_⟩
  . simp only [admitIp, hold]
    rw [if_neg]
    exact hnot
  . apply h.of_entry (perIpBucket ip)
    . rfl
    . rw [perIp_insert_self, hself, ← hcount, ← hsucc]
      apply Tally.present
      . omega
      . rw [UInt32.le_iff_toNat_le]
        omega
    . intro b hb
      rw [perIp_insert_of_ne _ hb, perIp_insert_of_ne _ hb]
      exact ⟨rfl, hne b hb⟩

theorem dropGuard_tallies {b : IpAddr} (h : a.Tallies n) (hself : n' b + 1 = n b)
    (hne : ∀ b', b' ≠ b → n' b' = n b')
    : (a.dropGuard b).handshakes = a.handshakes ∧ (a.dropGuard b).maxPerIp = a.maxPerIp
        ∧ (a.dropGuard b).Tallies n' := by
  have htally := h b
  rcases htally.eq_some (by omega) with ⟨count, hcount, hn⟩
  have hle := htally.le
  have hpred : (count - 1).toNat = n' b := by
    have hone : (1 : UInt32) ≤ count := by
      rw [UInt32.le_iff_toNat_le, UInt32.toNat_one]
      omega
    rw [UInt32.toNat_sub_of_le _ _ hone, UInt32.toNat_one]
    omega
  simp only [dropGuard, hcount]
  split
  next hzero =>
    refine ⟨rfl, rfl, h.of_entry b rfl ?_ ?_⟩
    . rw [perIp_remove_self, ← hpred, hzero]
      exact .absent
    . intro b' hb
      exact ⟨perIp_remove_of_ne hb, hne b' hb⟩
  next hzero =>
    refine ⟨rfl, rfl, h.of_entry b rfl ?_ ?_⟩
    . rw [perIp_insert_self, ← hpred]
      apply Tally.present
      . rw [Nat.pos_iff_ne_zero]
        intro h0
        exact hzero (UInt32.toNat_inj.mp h0)
      . rw [UInt32.le_iff_toNat_le]
        omega
    . intro b' hb
      exact ⟨perIp_insert_of_ne _ hb, hne b' hb⟩

end Admission

namespace ConnPhase

def live : ConnPhase → Bool
  | .handshaking | .established => true
  | .failing | .ended => false

def hasPermit : ConnPhase → Bool
  | .handshaking | .failing => true
  | .established | .ended => false

end ConnPhase

def liveGuards (conns : List Conn) (b : IpAddr) : Nat :=
  conns.countP fun c => c.phase.live && c.guard == b

def AcceptLoop.permits : AcceptLoop → Nat
  | .accepting => 0
  | .admitting _ | .shedding => 1

namespace RelayState

def permitsOut (s : RelayState) : Nat :=
  s.loop.permits + s.conns.countP fun c => c.phase.hasPermit

inductive Steps (s : RelayState) : RelayAction → RelayState → Prop where
  | shedsGlobally {peer : IpAddr} (hloop : s.loop = .accepting) (hfree : s.admission.handshakes = 0)
      : Steps s (.accept peer) { s with shedGlobal := s.shedGlobal + 1 }
  | takesPermit {peer : IpAddr} {free : Nat} (hloop : s.loop = .accepting)
      (hfree : s.admission.handshakes = free + 1)
      : Steps s (.accept peer)
          { s with admission := { s.admission with handshakes := free }, loop := .admitting peer }
  | shedsPerIp {peer : IpAddr} {admission : Admission} (hloop : s.loop = .admitting peer)
      (hadmitted : s.admission.admitIp peer = (none, admission))
      : Steps s .admitPeer
          { s with admission := admission, loop := .shedding, shedPerIp := s.shedPerIp + 1 }
  | admits {peer guard : IpAddr} {admission : Admission} (hloop : s.loop = .admitting peer)
      (hadmitted : s.admission.admitIp peer = (some guard, admission))
      : Steps s .admitPeer
          { s with
            admission := admission
            loop := .accepting
            conns := s.conns ++ [⟨peer, guard, .handshaking⟩] }
  | dropsPermit (hloop : s.loop = .shedding)
      : Steps s .dropPermit { s with admission := s.admission.release, loop := .accepting }
  | releases {a : RelayAction} (ha : a ≠ .admitPeer) {conn : Nat} {peer guard : IpAddr}
      {p q : ConnPhase} (hconn : s.conns[conn]? = some ⟨peer, guard, p⟩) (hlive : q.live = p.live)
      (hp : p.hasPermit = true) (hq : q.hasPermit = false)
      : Steps s a
          { s with
            admission := s.admission.release
            conns := s.conns.set conn ⟨peer, guard, q⟩ }
  | dropsGuard {a : RelayAction} (ha : a ≠ .admitPeer) {conn : Nat} {peer guard : IpAddr}
      {p q : ConnPhase}
      (hconn : s.conns[conn]? = some ⟨peer, guard, p⟩) (hpermit : q.hasPermit = p.hasPermit)
      (hp : p.live = true) (hq : q.live = false)
      : Steps s a
          { s with
            admission := s.admission.dropGuard guard
            conns := s.conns.set conn ⟨peer, guard, q⟩ }

theorem steps_of_step {s s' : RelayState} {a : RelayAction} (h : s.step a = some s')
    : Steps s a s' := by
  cases a <;> simp only [step] at h
  case accept peer =>
    split at h
    next hloop =>
      split at h
      next hnone =>
        cases h
        exact .shedsGlobally hloop (Admission.tryAcquire_eq_none_iff.mp hnone)
      next admission hsome =>
        cases h
        rcases Admission.tryAcquire_eq_some hsome with ⟨free, hfree, hadmission⟩
        rw [hadmission]
        exact .takesPermit hloop hfree
    next => contradiction
  case admitPeer =>
    split at h
    next peer hloop =>
      split at h
      next hadmitted =>
        cases h
        exact .shedsPerIp hloop hadmitted
      next hadmitted =>
        cases h
        exact .admits hloop hadmitted
    next => contradiction
  case dropPermit =>
    split at h
    next hloop =>
      cases h
      exact .dropsPermit hloop
    next => contradiction
  case handshakeDone conn =>
    split at h
    next hconn =>
      cases h
      exact .releases (by simp) hconn rfl rfl rfl
    next => contradiction
  case handshakeFails conn =>
    split at h
    next hconn =>
      cases h
      exact .dropsGuard (by simp) hconn rfl rfl rfl
    next => contradiction
  case dropConnPermit conn =>
    split at h
    next hconn =>
      cases h
      exact .releases (by simp) hconn rfl rfl rfl
    next => contradiction
  case connectionEnds conn =>
    split at h
    next hconn =>
      cases h
      exact .dropsGuard (by simp) hconn rfl rfl rfl
    next => contradiction

structure Accounted (maxHandshakes : Nat) (maxConnsPerIp : UInt32) (s : RelayState) : Prop where
  cap : s.admission.maxPerIp.toNat = max 1 maxConnsPerIp.toNat
  buckets : ∀ c ∈ s.conns, c.guard = perIpBucket c.peer
  tallies : s.admission.Tallies (liveGuards s.conns)
  permits : s.admission.handshakes + s.permitsOut = max 1 maxHandshakes

namespace Accounted

variable {maxHandshakes : Nat} {maxConnsPerIp : UInt32}

theorem init : (init maxHandshakes maxConnsPerIp).Accounted maxHandshakes maxConnsPerIp := by
  constructor
  . exact Admission.toNat_maxPerIp_new maxHandshakes maxConnsPerIp
  . intro c hc
    contradiction
  . intro b
    exact .absent
  . simp only [RelayState.init, Admission.new, permitsOut, AcceptLoop.permits, List.countP_nil]
    omega

variable {s : RelayState} (h : s.Accounted maxHandshakes maxConnsPerIp)

include h

theorem buckets_set {conn : Nat} {peer guard : IpAddr} {p q : ConnPhase}
    (hconn : s.conns[conn]? = some ⟨peer, guard, p⟩)
    : ∀ c ∈ s.conns.set conn ⟨peer, guard, q⟩, c.guard = perIpBucket c.peer := by
  intro c hc
  rcases List.mem_or_eq_of_mem_set hc with hc | hc
  . exact h.buckets c hc
  . rw [hc]
    exact h.buckets ⟨peer, guard, p⟩ (List.mem_of_getElem? hconn)

theorem releases {conn : Nat} {peer guard : IpAddr} {p q : ConnPhase}
    (hconn : s.conns[conn]? = some ⟨peer, guard, p⟩) (hlive : q.live = p.live)
    (hp : p.hasPermit = true) (hq : q.hasPermit = false)
    : Accounted maxHandshakes maxConnsPerIp
        { s with
          admission := s.admission.release
          conns := s.conns.set conn ⟨peer, guard, q⟩ } := by
  refine ⟨h.cap, h.buckets_set hconn, ?_, ?_⟩
  . have hguards : liveGuards (s.conns.set conn ⟨peer, guard, q⟩) = liveGuards s.conns := by
      funext b
      have := countP_set_add (p := fun c => c.phase.live && c.guard == b)
        (y := ⟨peer, guard, q⟩) hconn
      simp only [hlive] at this
      exact Nat.add_right_cancel this
    simp only [hguards]
    exact h.tallies
  . have := countP_set_add (p := fun c => c.phase.hasPermit) (y := ⟨peer, guard, q⟩) hconn
    have hpermits := h.permits
    simp only [permitsOut, Admission.release, hp, hq, Bool.toNat_true, Bool.toNat_false] at *
    omega

theorem dropsGuard {conn : Nat} {peer guard : IpAddr} {p q : ConnPhase}
    (hconn : s.conns[conn]? = some ⟨peer, guard, p⟩) (hpermit : q.hasPermit = p.hasPermit)
    (hp : p.live = true) (hq : q.live = false)
    : Accounted maxHandshakes maxConnsPerIp
        { s with
          admission := s.admission.dropGuard guard
          conns := s.conns.set conn ⟨peer, guard, q⟩ } := by
  have hguards := fun b =>
    countP_set_add (p := fun c => c.phase.live && c.guard == b) (y := ⟨peer, guard, q⟩) hconn
  simp only [hp, hq, Bool.true_and, Bool.false_and, Bool.toNat_false, Nat.add_zero] at hguards
  have hself : liveGuards (s.conns.set conn ⟨peer, guard, q⟩) guard + 1
      = liveGuards s.conns guard := by
    have := hguards guard
    rwa [beq_self_eq_true] at this
  have hne : ∀ b, b ≠ guard
      → liveGuards (s.conns.set conn ⟨peer, guard, q⟩) b = liveGuards s.conns b := by
    intro b hb
    have := hguards b
    rwa [beq_eq_false_iff_ne.mpr hb.symm] at this
  rcases Admission.dropGuard_tallies h.tallies hself hne with ⟨hhandshakes, hcap, htallies⟩
  refine ⟨?_, h.buckets_set hconn, htallies, ?_⟩
  . rw [hcap]
    exact h.cap
  . have := countP_set_add (p := fun c => c.phase.hasPermit) (y := ⟨peer, guard, q⟩) hconn
    have hpermits := h.permits
    simp only [permitsOut, hhandshakes, hpermit] at *
    omega

theorem admitIp (peer : IpAddr)
    : (liveGuards s.conns (perIpBucket peer) = max 1 maxConnsPerIp.toNat
        ∧ s.admission.admitIp peer = (none, s.admission))
        ∨ (liveGuards s.conns (perIpBucket peer) < max 1 maxConnsPerIp.toNat
            ∧ ∃ a', s.admission.admitIp peer = (some (perIpBucket peer), a')
              ∧ a'.handshakes = s.admission.handshakes ∧ a'.maxPerIp = s.admission.maxPerIp
              ∧ a'.Tallies (liveGuards (s.conns ++ [⟨peer, perIpBucket peer, .handshaking⟩]))) := by
  have hcap := h.cap
  have hle := (h.tallies (perIpBucket peer)).le
  rw [hcap] at hle
  rcases Nat.eq_or_lt_of_le hle with heq | hlt
  . left
    refine ⟨heq, ?_⟩
    apply Admission.admitIp_at_cap h.tallies <;> omega
  . right
    refine ⟨hlt, ?_⟩
    apply Admission.admitIp_below_cap h.tallies
    . omega
    . simp [liveGuards, ConnPhase.live]
    . intro b hb
      simp [liveGuards, ConnPhase.live, hb.symm]

theorem step {a : RelayAction} {s' : RelayState} (hstep : s.step a = some s')
    : s'.Accounted maxHandshakes maxConnsPerIp := by
  have hpermits := h.permits
  cases steps_of_step hstep with
  | shedsGlobally => exact ⟨h.cap, h.buckets, h.tallies, h.permits⟩
  | takesPermit hloop hfree =>
    refine ⟨h.cap, h.buckets, h.tallies, ?_⟩
    simp only [permitsOut, AcceptLoop.permits, hloop] at *
    omega
  | @shedsPerIp peer admission hloop hadmitted =>
    rcases h.admitIp peer with ⟨-, hnone⟩ | ⟨-, a', hsome, -⟩
    . rw [hnone] at hadmitted
      injection hadmitted with _ hadmitted
      subst hadmitted
      refine ⟨h.cap, h.buckets, h.tallies, ?_⟩
      simp only [permitsOut, AcceptLoop.permits, hloop] at *
      omega
    . simp [hsome] at hadmitted
  | @admits peer guard admission hloop hadmitted =>
    rcases h.admitIp peer with ⟨-, hnone⟩ | ⟨-, a', hsome, hhandshakes, hcap, htallies⟩
    . simp [hnone] at hadmitted
    . rw [hsome] at hadmitted
      injection hadmitted with hguard hadmitted
      injection hguard with hguard
      subst hadmitted hguard
      refine ⟨?_, ?_, htallies, ?_⟩
      . simp only [hcap, h.cap]
      . intro c hc
        simp only [List.mem_append, List.mem_singleton] at hc
        rcases hc with hc | hc
        . exact h.buckets c hc
        . rw [hc]
      . simp only [permitsOut, AcceptLoop.permits, hloop, hhandshakes, List.countP_append,
          List.countP_singleton, ConnPhase.hasPermit, ↓reduceIte] at *
        omega
  | dropsPermit hloop =>
    refine ⟨h.cap, h.buckets, h.tallies, ?_⟩
    simp only [permitsOut, AcceptLoop.permits, Admission.release, hloop] at *
    omega
  | releases _ hconn hlive hp hq => exact h.releases hconn hlive hp hq
  | dropsGuard _ hconn hpermit hp hq => exact h.dropsGuard hconn hpermit hp hq

theorem entry {b : IpAddr} {count : UInt32} (hcount : s.admission.perIp b = some count)
    : count.toNat = liveGuards s.conns b ∧ 1 ≤ count.toNat
        ∧ count.toNat ≤ max 1 maxConnsPerIp.toNat := by
  have htally := h.tallies b
  rw [hcount] at htally
  rcases htally.of_eq_some with ⟨heq, hpos, hle⟩
  rw [h.cap] at hle
  refine ⟨heq, ?_, ?_⟩ <;> omega

end Accounted

end RelayState

end Veil
