import ConstructVeil.Relay.Impl.Chain
import ConstructVeil.Relay.Lemmas.Tunnel
import Mathlib.Logic.Relation

/-!
This module contains the verification of chain mode: a hop passes on the DATA payloads of a stream
and no other trace of it.
-/

namespace Veil

open VeilFrontCodec

namespace Chain

theorem reframe_eq (frame : Frame)
    : reframe frame
        =
      if frame.isData then some (bucketCodec.encode (.data frame.payload) []) else none := by
  simp [reframe, Frame.isData]

theorem emitted_reframe (frames : List Frame)
    : emitted reframe frames = encodeFrames ((dataPayloads frames).map .data) := by
  rw [emitted_data (fun payload => bucketCodec.encode (.data payload) []) reframe_eq, encodeFrames,
    List.flatMap_map]

theorem written_ferryClientToUpstream (target : Target) (leftover : Bytes) (reads : List ReadEvent)
    : written (ferryClientToUpstream target leftover reads).1
        =
      encodeFrames
        ((dataPayloads (framesOf target (leftover ++ ReadEvent.received reads))).map .data) := by
  rw [ferryClientToUpstream, written_forwardFrames, emitted_reframe]

theorem framesFit_data {frames : List Frame} (h : FramesFit frames)
    : FramesFit ((dataPayloads frames).map .data) := by
  rw [← filter_isData]
  intro f hf
  exact h f (List.mem_of_mem_filter hf)

/--
The CHAFF a relay makes up while the upstream is idle, one frame for each timeout inside the window.
-/
def localChaff (chaffWindow : Nat) (ticks : List Tick) : List Frame :=
  (ticks.filter fun tick => tick.event = .timeout ∧ tick.elapsed < chaffWindow).map
    fun tick => .chaff (randomChaff tick.rng)

theorem length_randomChaff_le (rng : Rng) : (randomChaff rng).length ≤ 512 := by
  apply Rng.length_chaffFrom_le
  decide

theorem ferryUpstreamToClient_go_frames (target : Target) (chaffWindow : Nat) (buf : Bytes)
    (ticks : List Tick) (hbuf : attempt target .default buf = .wait)
    : ∃ out, written (ferryUpstreamToClient.go target chaffWindow buf ticks).1 = encodeFrames out ∧
        FramesFit out ∧
        dataPayloads out
            =
          dataPayloads (framesOf target (buf ++ ReadEvent.received (ticks.map Tick.event))) ∧
        (out.filter (!·.isData)).Sublist (localChaff chaffWindow ticks) := by
  have hmax : defaultMaxPayload = 1048576 := rfl
  have hwait := framesOf_wait hbuf
  -- the buffer never holds a complete frame when the loop goes back to reading
  induction ticks generalizing buf with
  | nil => exact ⟨[], rfl, framesFit_nil, by simp [ReadEvent.received, hwait], by simp⟩
  | cons tick ticks ih =>
    rcases tick with ⟨elapsed, event, rng⟩
    cases event with
    | eof => exact ⟨[], rfl, framesFit_nil, by simp [ReadEvent.received, hwait], by simp⟩
    | err e => exact ⟨[], rfl, framesFit_nil, by simp [ReadEvent.received, hwait], by simp⟩
    | timeout =>
      rcases ih buf hbuf hwait with ⟨out, hwritten, hfit, hdata, hchaff⟩
      by_cases helapsed : elapsed < chaffWindow
      . refine ⟨.chaff (randomChaff rng) :: out, ?_, ?_, ?_, ?_⟩
        . simp [ferryUpstreamToClient.go, helapsed, hwritten, encodeFrames_cons]
        . have := length_randomChaff_le rng
          refine hfit.cons ?_
          rw [Frame.payload_chaff]
          omega
        . simpa [ReadEvent.received] using hdata
        . simpa [localChaff, helapsed] using hchaff
      . refine ⟨out, ?_, hfit, ?_, ?_⟩
        . simpa [ferryUpstreamToClient.go, helapsed] using hwritten
        . simpa [ReadEvent.received] using hdata
        . simpa [localChaff, helapsed] using hchaff
    | data bytes hne =>
      rcases drainFrames_spec target reframe (buf ++ bytes) with ⟨ops, hops, hwritten, _⟩
      rw [emitted_reframe] at hwritten
      have hfit := framesFit_data (framesFit_framesOf target (buf ++ bytes))
      have hnochaff : ((dataPayloads (framesOf target (buf ++ bytes))).map Frame.data).filter
          (!·.isData) = [] := by
        simp
      simp only [List.map_cons, ReadEvent.received]
      rw [← List.append_assoc]
      -- the frames in front of a malformed one are still forwarded
      cases hstatus : ((decoder target .default).drain (buf ++ bytes)).2 with
      | error e =>
        refine ⟨(dataPayloads (framesOf target (buf ++ bytes))).map .data, ?_, hfit, ?_, ?_⟩
        . simpa [ferryUpstreamToClient.go, hops, hstatus] using hwritten
        . rw [framesOf_append_of_error _ hstatus]
          simp
        . simp [hnochaff]
      | ok rest =>
        have hrest := attempt_of_drain_ok hstatus
        rcases ih rest hrest (framesOf_wait hrest) with ⟨out, hwritten', hfit', hdata', hchaff'⟩
        refine ⟨(dataPayloads (framesOf target (buf ++ bytes))).map .data ++ out, ?_, ?_, ?_, ?_⟩
        . simp [ferryUpstreamToClient.go, hops, hstatus, hwritten, hwritten']
        . exact hfit.append hfit'
        . rw [framesOf_append_of_ok _ hstatus, dataPayloads_append, dataPayloads_append, hdata']
          simp
        . rw [List.filter_append, hnochaff]
          simpa [localChaff] using hchaff'

theorem ferryUpstreamToClient_frames (target : Target) (chaffWindow : Nat) (ticks : List Tick)
    : ∃ out, written (ferryUpstreamToClient target chaffWindow ticks).1 = encodeFrames out ∧
        FramesFit out ∧
        dataPayloads out
            =
          dataPayloads (framesOf target (ReadEvent.received (ticks.map Tick.event))) ∧
        (out.filter (!·.isData)).Sublist (localChaff chaffWindow ticks) :=
  ferryUpstreamToClient_go_frames target chaffWindow [] ticks (by simp)

/--
One relay of a chain, on the way up: the stream it reads and the one it writes.
-/
inductive UpHop : Bytes → Bytes → Prop where
  | hop (target : Target) (leftover : Bytes) (reads : List ReadEvent)
    : UpHop (leftover ++ ReadEvent.received reads)
        (written (ferryClientToUpstream target leftover reads).1)

inductive DownHop : Bytes → Bytes → Prop where
  | hop (target : Target) (chaffWindow : Nat) (ticks : List Tick)
    : DownHop (ReadEvent.received (ticks.map Tick.event))
        (written (ferryUpstreamToClient target chaffWindow ticks).1)

def payloadsOf (target : Target) (stream : Bytes) : List Bytes :=
  dataPayloads (framesOf target stream)

theorem UpHop.payloadsOf_eq {s s' : Bytes} (h : UpHop s s') (target : Target)
    : payloadsOf target s' = payloadsOf target s := by
  rcases h with ⟨target', leftover, reads⟩
  unfold payloadsOf
  rw [written_ferryClientToUpstream, framesOf_encodeFrames, dataPayloads_map_data,
    framesOf_target target target']
  exact framesFit_data (framesFit_framesOf _ _)

theorem DownHop.payloadsOf_eq {s s' : Bytes} (h : DownHop s s') (target : Target)
    : payloadsOf target s' = payloadsOf target s := by
  rcases h with ⟨target', chaffWindow, ticks⟩
  rcases ferryUpstreamToClient_frames target' chaffWindow ticks with ⟨out, hwritten, hfit, hdata, _⟩
  unfold payloadsOf
  rw [hwritten, framesOf_encodeFrames target hfit, hdata, framesOf_target target target']

theorem payloadsOf_chain {hop : Bytes → Bytes → Prop} {target : Target}
    (hhop : ∀ {s s'}, hop s s' → payloadsOf target s' = payloadsOf target s) {s s' : Bytes}
    (h : Relation.ReflTransGen hop s s') : payloadsOf target s' = payloadsOf target s := by
  induction h with
  | refl => rfl
  | tail _ hlast ih => rw [hhop hlast, ih]

/--
Hop isolation. Up: what a hop writes decodes to the DATA frames of what it read and to nothing else,
and two streams with the same DATA payloads cannot be told apart behind the hop. Down: what a hop
writes decodes to the DATA payloads of what it read, in order, and CHAFF of its own. Hence the
payloads survive any number of hops in both directions.
-/
theorem hop_isolation
    : (∀ (target target' : Target) (leftover : Bytes) (reads : List ReadEvent),
        (decoder target' .default).drain (written (ferryClientToUpstream target leftover reads).1)
          =
        ((framesOf target (leftover ++ ReadEvent.received reads)).filter Frame.isData, .ok [])) ∧
      (∀ (target₁ target₂ : Target) (leftover₁ leftover₂ : Bytes) (reads₁ reads₂ : List ReadEvent),
        dataPayloads (framesOf target₁ (leftover₁ ++ ReadEvent.received reads₁))
            =
          dataPayloads (framesOf target₂ (leftover₂ ++ ReadEvent.received reads₂)) →
        written (ferryClientToUpstream target₁ leftover₁ reads₁).1
            =
          written (ferryClientToUpstream target₂ leftover₂ reads₂).1) ∧
      (∀ (target target' : Target) (chaffWindow : Nat) (ticks : List Tick),
        ∃ out, (decoder target' .default).drain
              (written (ferryUpstreamToClient target chaffWindow ticks).1)
            =
          (out, .ok []) ∧
        dataPayloads out
            =
          dataPayloads (framesOf target (ReadEvent.received (ticks.map Tick.event))) ∧
        (out.filter (!·.isData)).Sublist (localChaff chaffWindow ticks)) ∧
      (∀ (target : Target) (s s' : Bytes), Relation.ReflTransGen UpHop s s' →
        dataPayloads (framesOf target s') = dataPayloads (framesOf target s)) ∧
      (∀ (target : Target) (s s' : Bytes), Relation.ReflTransGen DownHop s s' →
        dataPayloads (framesOf target s') = dataPayloads (framesOf target s)) := by
  refine ⟨?_, ?_, ?_, ?_, ?_⟩
  . intro target target' leftover reads
    rw [written_ferryClientToUpstream, drain_encodeFrames, filter_isData]
    exact framesFit_data (framesFit_framesOf _ _)
  . intro target₁ target₂ leftover₁ leftover₂ reads₁ reads₂ h
    rw [written_ferryClientToUpstream, written_ferryClientToUpstream, h]
  . intro target target' chaffWindow ticks
    rcases ferryUpstreamToClient_frames target chaffWindow ticks with ⟨out, hwritten, hfit, hrest⟩
    exact ⟨out, by rw [hwritten, drain_encodeFrames target' out hfit], hrest⟩
  . intro target s s' h
    exact payloadsOf_chain (fun hhop => hhop.payloadsOf_eq target) h
  . intro target s s' h
    exact payloadsOf_chain (fun hhop => hhop.payloadsOf_eq target) h

end Chain

end Veil
