import ConstructVeil.Conn.Lemmas.Basic
import ConstructVeil.Protocol.Lemmas.Stream

/-!
This module contains what it means for the ledger of a connection to carry a stream of frames, at
any moment and in the middle of a write that fails.
-/

namespace Veil

open VeilFrontCodec SockAction

/--
The bytes that a stream of frames carries: its DATA payloads, as far as the frames are complete and
well-formed.
-/
def carried (target : Target) (stream : Bytes) : Bytes :=
  (dataPayloads (framesOf target stream)).flatten

theorem framesOf_mono (target : Target) {a b : Bytes} (h : a <+: b)
    : framesOf target a <+: framesOf target b := by
  rcases h with ⟨ext, rfl⟩
  cases hstatus : ((decoder target .default).drain a).2 with
  | ok rest =>
    rw [framesOf_append_of_ok ext hstatus]
    exact List.prefix_append _ _
  | error e => rw [framesOf_append_of_error ext hstatus]

theorem flatten_dataPayloads_mono {fs gs : List Frame} (h : fs <+: gs)
    : (dataPayloads fs).flatten <+: (dataPayloads gs).flatten := by
  rcases h with ⟨more, rfl⟩
  rw [dataPayloads_append, List.flatten_append]
  exact List.prefix_append _ _

theorem carried_mono (target : Target) {a b : Bytes} (h : a <+: b)
    : carried target a <+: carried target b :=
  flatten_dataPayloads_mono (framesOf_mono target h)

theorem carried_wait {target : Target} {buf : Bytes}
    (h : (decoder target .default).attempt buf = .wait)
    : carried target buf = [] := by
  rw [carried, framesOf_wait h]
  rfl

@[simp]
theorem carried_nil (target : Target) : carried target [] = [] := carried_wait (by simp)

theorem carried_target (target target' : Target) : carried target = carried target' := by
  funext stream
  rw [carried, carried, framesOf_target target target']

def Framed (stream payload : Bytes) : Prop :=
  ∃ frames, stream = encodeFrames frames ∧ FramesFit frames ∧ (dataPayloads frames).flatten
    = payload

namespace Framed

variable {stream payload part bytes : Bytes}

theorem nil : Framed [] [] := ⟨[], rfl, framesFit_nil, rfl⟩

theorem append {frame : Frame} (h : Framed stream payload)
    (hfit : frame.payload.length ≤ defaultMaxPayload)
    : Framed (stream ++ bucketCodec.encode frame [])
        (payload ++ (dataPayloads [frame]).flatten) := by
  rcases h with ⟨frames, rfl, hfits, rfl⟩
  refine ⟨frames ++ [frame], ?_, hfits.append (framesFit_nil.cons hfit), ?_⟩
  . simp [encodeFrames_cons]
  . rw [dataPayloads_append, List.flatten_append]

theorem data (h : Framed stream payload) (hfit : bytes.length ≤ defaultMaxPayload)
    : Framed (stream ++ bucketCodec.encode (.data bytes) []) (payload ++ bytes) := by
  simpa using h.append (show (Frame.data bytes).payload.length ≤ defaultMaxPayload from hfit)

theorem chaff (h : Framed stream payload) (hfit : bytes.length ≤ defaultMaxPayload)
    : Framed (stream ++ bucketCodec.encode (.chaff bytes) []) payload := by
  simpa using h.append (show (Frame.chaff bytes).payload.length ≤ defaultMaxPayload from hfit)

theorem carried_eq (h : Framed stream payload) (target : Target)
    : carried target stream = payload := by
  rcases h with ⟨frames, rfl, hfits, rfl⟩
  rw [carried, framesOf_encodeFrames target hfits]

theorem carried_le (h : Framed stream payload) (target : Target) (hpart : part <+: stream)
    : carried target part <+: payload := by
  rw [← h.carried_eq target]
  exact carried_mono target hpart

end Framed

/--
A loop that hands on DATA payloads: `Out stream payload` says that what it has written, `stream`,
stands for `payload`, and `w` recovers the payload.
-/
structure Emits (emit : Frame → Option Bytes) (w : Bytes → Bytes) (Out : Bytes → Bytes → Prop)
    : Prop where
  data : ∀ {stream payload frame}, Out stream payload → frame.isData = true →
    frame.payload.length ≤ defaultMaxPayload →
    ∃ out, emit frame = some out ∧ Out (stream ++ out) (payload ++ frame.payload)
  other : ∀ {frame}, frame.isData = false → emit frame = none
  le : ∀ {stream payload part}, Out stream payload → part <+: stream → w part <+: payload
  eq : ∀ {stream payload}, Out stream payload → w stream = payload

theorem emits_payload
    : Emits (fun frame => if frame.isData then some frame.payload else none) id Eq where
  data := by
    rintro stream _ frame rfl hdata _
    exact ⟨frame.payload, by simp [hdata], rfl⟩
  other := by
    intro frame hdata
    simp [hdata]
  le := by
    rintro stream _ part rfl hpart
    exact hpart
  eq := fun h => h

structure Framing (payload : Bytes) (l : Log) : Prop where
  framed : Framed l.sent payload
  notEnd : l.atEnd = false
  opened : l.closed = false

namespace Framing

variable {target : Target} {v : Bytes → Bytes} {payload bytes part : Bytes} {l : Log}

theorem carries (h : Framing payload l) (hpayload : payload <+: v l.consumed)
    : l.Carries v (carried target) := by
  refine ⟨?_, by simp [h.opened]⟩
  rw [h.framed.carried_eq target]
  exact hpayload

theorem carries_part {frame : Frame} (h : Framing payload l)
    (hfit : frame.payload.length ≤ defaultMaxPayload) (hpart : part <+: bucketCodec.encode frame [])
    (hpayload : payload ++ (dataPayloads [frame]).flatten <+: v l.consumed)
    : (l.write part).Carries v (carried target) := by
  refine ⟨?_, by simp [h.opened]⟩
  apply List.IsPrefix.trans _ hpayload
  apply (h.framed.append hfit).carried_le target
  exact (List.prefix_append_right_inj l.sent).mpr hpart

theorem write {frame : Frame} (h : Framing payload l)
    (hfit : frame.payload.length ≤ defaultMaxPayload)
    : Framing (payload ++ (dataPayloads [frame]).flatten) (l.write (bucketCodec.encode frame [])) :=
  ⟨h.framed.append hfit, h.notEnd, h.opened⟩

theorem flush (h : Framing payload l) : Framing payload l.flush := ⟨h.framed, h.notEnd, h.opened⟩

theorem complete (h : Framing payload l) (hpayload : payload = v l.consumed)
    : l.readEnd.Carries v (carried target) ∧ l.readEnd.shut.Carries v (carried target) := by
  have hcarries : l.Carries v (carried target) := h.carries (by rw [hpayload])
  refine ⟨⟨hcarries.forwarded, by simp [h.opened]⟩, hcarries.forwarded, fun _ => ⟨rfl, ?_⟩⟩
  change carried target l.sent = v l.consumed
  rw [← hpayload]
  exact h.framed.carried_eq target

end Framing

/--
Some frames of the input are handed on, and `buf` is what comes after them.
-/
structure Forwarding (target : Target) (Out : Bytes → Bytes → Prop) (buf : Bytes) (l : Log)
    : Prop where
  out : ∃ frames, (decoder target .default).Takes l.consumed frames buf ∧
    Out l.sent (dataPayloads frames).flatten
  notEnd : l.atEnd = false
  opened : l.closed = false

namespace Forwarding

variable {target : Target} {emit : Frame → Option Bytes} {w : Bytes → Bytes}
  {Out : Bytes → Bytes → Prop} {buf rest : Bytes} {l : Log} {frame : Frame}

theorem carries (h : Forwarding target Out buf l) (hemits : Emits emit w Out)
    : l.Carries (carried target) w := by
  rcases h.out with ⟨frames, htakes, hout⟩
  refine ⟨?_, by simp [h.opened]⟩
  rw [hemits.eq hout, carried, framesOf, htakes.drain_eq]
  apply flatten_dataPayloads_mono
  exact List.prefix_append _ _

theorem take (h : Forwarding target Out buf l) (hemits : Emits emit w Out)
    (hitem : (decoder target .default).attempt buf = .item frame rest)
    : (∃ out, emit frame = some out ∧ Forwarding target Out rest (l.write out)) ∨
      (emit frame = none ∧ Forwarding target Out rest l) := by
  rcases h.out with ⟨frames, htakes, hout⟩
  have htakes' := htakes.snoc hitem
  rcases (attempt_default_eq_item_iff _).mp hitem with ⟨_, _, hfit, _⟩
  cases hdata : frame.isData with
  | true =>
    rcases hemits.data hout hdata hfit with ⟨out, hemit, hout'⟩
    refine .inl ⟨out, hemit, ⟨frames ++ [frame], htakes', ?_⟩, h.notEnd, h.opened⟩
    rw [dataPayloads_append, List.flatten_append]
    simpa [dataPayloads, hdata] using hout'
  | false =>
    refine .inr ⟨hemits.other hdata, ⟨frames ++ [frame], htakes', ?_⟩, h.notEnd, h.opened⟩
    rw [dataPayloads_append, List.flatten_append]
    simpa [dataPayloads, hdata] using hout

theorem carries_part {out part : Bytes} (h : Forwarding target Out rest (l.write out))
    (hemits : Emits emit w Out) (hpart : part <+: out)
    : (l.write part).Carries (carried target) w := by
  rcases h.out with ⟨frames, htakes, hout⟩
  refine ⟨?_, ?_⟩
  . have hle := hemits.le hout ((List.prefix_append_right_inj l.sent).mpr hpart)
    apply hle.trans
    rw [← hemits.eq hout]
    exact (h.carries hemits).forwarded
  . have hopened : l.closed = false := h.opened
    simp [hopened]

theorem read (h : Forwarding target Out buf l) (bytes : Bytes)
    : Forwarding target Out (buf ++ bytes) (l.read bytes) := by
  rcases h.out with ⟨frames, htakes, hout⟩
  exact ⟨⟨frames, htakes.append bytes, hout⟩, h.notEnd, h.opened⟩

theorem flush (h : Forwarding target Out buf l) : Forwarding target Out buf l.flush :=
  ⟨h.out, h.notEnd, h.opened⟩

theorem eq_carried (h : Forwarding target Out buf l) (hemits : Emits emit w Out)
    (hwait : (decoder target .default).attempt buf = .wait)
    : w l.sent = carried target l.consumed := by
  rcases h.out with ⟨frames, htakes, hout⟩
  rw [hemits.eq hout, carried, framesOf, htakes.drain_eq,
    (decoder target .default).drain_wait hwait, List.append_nil]

theorem prompt (h : Forwarding target Out buf l) (hemits : Emits emit w Out)
    (hwait : (decoder target .default).attempt buf = .wait) (hflushed : w l.flushed = w l.sent)
    : l.Prompt (carried target) w := by
  intro _
  rw [hflushed]
  exact h.eq_carried hemits hwait

theorem complete (h : Forwarding target Out buf l) (hemits : Emits emit w Out)
    (hwait : (decoder target .default).attempt buf = .wait)
    : l.readEnd.Carries (carried target) w ∧ l.readEnd.shut.Carries (carried target) w := by
  have hcarries := h.carries hemits
  refine ⟨⟨hcarries.forwarded, ?_⟩, hcarries.forwarded, fun _ => ⟨rfl, h.eq_carried hemits hwait⟩⟩
  simp [h.opened]

end Forwarding

structure Untouched (l : Log) : Prop where
  sent : l.sent = []
  flushed : l.flushed = []
  opened : l.closed = false

namespace Untouched

variable {l : Log}

theorem start (diverted : Bool) : Untouched (.start diverted) := ⟨rfl, rfl, rfl⟩

theorem carries {v w : Bytes → Bytes} (h : Untouched l) (hw : w [] = []) : l.Carries v w := by
  refine ⟨?_, by simp [h.opened]⟩
  rw [h.sent, hw]
  exact List.nil_prefix

theorem read (h : Untouched l) (bytes : Bytes) : Untouched (l.read bytes) :=
  ⟨h.sent, h.flushed, h.opened⟩

theorem readEnd (h : Untouched l) : Untouched l.readEnd := ⟨h.sent, h.flushed, h.opened⟩

theorem divert (h : Untouched l) (diverted : Bool) : Untouched (l.divert diverted) :=
  ⟨h.sent, h.flushed, h.opened⟩

theorem sound {v w : Bytes → Bytes} {α : Type} {action : SockAction α} (h : Untouched l)
    (hw : w [] = []) (hread : action.isRead = false) : Sound v w action l :=
  ⟨h.carries hw, by simp [hread]⟩

end Untouched

structure Aside (l : Log) : Prop extends Untouched l where
  diverted : l.diverted = true

namespace Aside

variable {l : Log}

theorem prompt {v w : Bytes → Bytes} (h : Aside l) : l.Prompt v w := by
  intro hdiverted
  rw [h.diverted] at hdiverted
  cases hdiverted

theorem sound {v w : Bytes → Bytes} {α : Type} {action : SockAction α} (h : Aside l)
    (hw : w [] = [])
    : Sound v w action l :=
  ⟨h.carries hw, fun _ => h.prompt⟩

end Aside

def SockAction.touches {α : Type} (watched : Port) : SockAction α → Bool
  | .write port _ => decide (port = watched)
  | .flush port => decide (port = watched)
  | .shutdown port => decide (port = watched)
  | .connectSite => true
  | _ => false

theorem Aside.handles {watched : Port} {α : Type} {action : SockAction α} {answer : α} {l l' : Log}
    (h : Aside l) (hspares : action.touches watched = false)
    (hact : Handles watched l action answer l')
    : Aside l' := by
  cases action with
  | read limit timer =>
    cases hact with
    | data bytes hne hlimit hend => exact ⟨h.read bytes, h.diverted⟩
    | eof => exact ⟨h.readEnd, h.diverted⟩
    | err e => exact h
    | timeout htimer => exact h
  | write port bytes =>
    have hne : port ≠ watched := by simpa [touches] using hspares
    simp only [Handles, hne, ↓reduceIte] at hact
    rwa [hact]
  | flush port =>
    have hne : port ≠ watched := by simpa [touches] using hspares
    simp only [Handles, hne, ↓reduceIte] at hact
    rwa [hact]
  | shutdown port =>
    have hne : port ≠ watched := by simpa [touches] using hspares
    simp only [Handles, hne, ↓reduceIte] at hact
    rwa [hact]
  | connectSite => cases hspares
  | _ =>
    rw [hact]
    exact h

namespace Sock

variable {ε α β : Type} {watched : Port}

abbrev Spares (watched : Port) (x : Sock ε α) : Prop :=
  Avoids (fun _ action => action.touches watched = true) x

theorem Spares.holds {v w : Bytes → Bytes} {x : Sock ε α} {l : Log} (hx : Spares watched x)
    (hw : w [] = [])
    (h : Aside l) : Holds watched (Sound v w) x (fun _ => Aside) (fun _ => Aside) l := by
  have hrun : ∀ (p : Prog SockAction (Except ε α)) (l : Log),
      p.Avoids (fun _ action => action.touches watched = true) → Aside l →
        p.Meets (Handles watched) (Sound v w) (fun _ => Aside) l := by
    intro p
    induction p with
    | done res =>
      intro l _ h
      exact h
    | act action next ih =>
      intro l havoids h
      refine ⟨h.sound hw, ?_⟩
      intro answer l' hact
      exact ih answer l' (havoids.2 answer) (h.handles (by simpa using havoids.1) hact)
  apply (hrun x.run l hx h).mono
  intro res l' h'
  cases res with
  | ok a => exact h'
  | error e => exact h'

end Sock

structure Copied (l : Log) : Prop where
  sent : l.sent = l.consumed
  flushed : l.flushed = l.sent
  opened : l.closed = false

namespace Copied

variable {l : Log}

theorem carries (h : Copied l) : l.Carries id id := by
  refine ⟨?_, by simp [h.opened]⟩
  rw [h.sent]

theorem prompt (h : Copied l) : l.Prompt id id := by
  intro _
  rw [h.flushed, h.sent]

theorem carries_part {bytes part : Bytes} (h : Copied l) (hpart : part <+: bytes)
    : ((l.read bytes).write part).Carries id id := by
  refine ⟨?_, by simp [h.opened]⟩
  simpa [h.sent] using hpart

theorem complete (h : Copied l) : l.readEnd.Carries id id ∧ l.readEnd.shut.Carries id id := by
  have hsent := h.carries.forwarded
  exact ⟨⟨hsent, by simp [h.opened]⟩, hsent, fun _ => ⟨rfl, h.sent⟩⟩

end Copied

namespace Sock

variable {ε : Type} [FromIo ε] {target : Target} {v : Bytes → Bytes} {payload : Bytes} {l : Log}

theorem writeFrame_holds {frame : Frame} {post : Unit → Log → Prop} (h : Framing payload l)
    (hfit : frame.payload.length ≤ defaultMaxPayload)
    (hpayload : payload ++ (dataPayloads [frame]).flatten <+: v l.consumed)
    (hpost : Framing (payload ++ (dataPayloads [frame]).flatten)
      (l.write (bucketCodec.encode frame [])) → post () (l.write (bucketCodec.encode frame [])))
    : Holds .leg (Sound v (carried target))
        (writeAll .leg (bucketCodec.encode frame []) : Sock ε Unit) post
        (fun _ l' => l'.Carries v (carried target)) l := by
  apply holds_writeAll
  . exact ⟨h.carries ((List.prefix_append _ _).trans hpayload), by simp [isRead]⟩
  . intro _
    exact hpost (h.write hfit)
  . intro e part hpart
    exact h.carries_part hfit hpart hpayload

theorem writeChaff_holds {bytes : Bytes} {post : Unit → Log → Prop} (h : Framing payload l)
    (hfit : bytes.length ≤ defaultMaxPayload) (hpayload : payload <+: v l.consumed)
    (hpost : Framing payload (l.write (bucketCodec.encode (.chaff bytes) [])) →
      post () (l.write (bucketCodec.encode (.chaff bytes) [])))
    : Holds .leg (Sound v (carried target))
        (writeAll .leg (bucketCodec.encode (.chaff bytes) []) : Sock ε Unit) post
        (fun _ l' => l'.Carries v (carried target)) l := by
  apply writeFrame_holds h hfit
  . simpa using hpayload
  . simpa using hpost

structure FramedSoFar (target : Target) (v : Bytes → Bytes) (l : Log) : Prop where
  framing : Framing (v l.consumed) l
  flushed : carried target l.flushed = carried target l.sent

theorem FramedSoFar.carries (h : FramedSoFar target v l) : l.Carries v (carried target) :=
  h.framing.carries List.prefix_rfl

theorem FramedSoFar.prompt (h : FramedSoFar target v l) : l.Prompt v (carried target) := by
  intro _
  rw [h.flushed]
  exact h.framing.framed.carried_eq target

theorem FramedSoFar.chaff {bytes : Bytes} (h : FramedSoFar target v l)
    (hwrite : Framing (v l.consumed) (l.write (bucketCodec.encode (.chaff bytes) [])))
    : FramedSoFar target v (l.write (bucketCodec.encode (.chaff bytes) [])) := by
  refine ⟨hwrite, ?_⟩
  rw [hwrite.framed.carried_eq target, Ledger.write_flushed, h.flushed,
    h.framing.framed.carried_eq target]

theorem shutdown_holds {post : Unit → Log → Prop} (h : Framing payload l)
    (hpayload : payload = v l.consumed)
    (hpost : l.readEnd.shut.Carries v (carried target) → post () l.readEnd.shut)
    : Holds .leg (Sound v (carried target)) (shutdown .leg : Sock ε Unit) post
        (fun _ l' => l'.Carries v (carried target)) l.readEnd := by
  have hcomplete : l.readEnd.Carries v (carried target) ∧ _ := h.complete hpayload
  apply holds_shutdown
  . exact ⟨hcomplete.1, by simp [isRead]⟩
  . exact hpost hcomplete.2
  . intro e
    exact hcomplete.1

theorem sendFrame_holds {frame : Frame} {post : Unit → Log → Prop} (h : Framing payload l)
    (hfit : frame.payload.length ≤ defaultMaxPayload)
    (hpayload : payload ++ (dataPayloads [frame]).flatten <+: v l.consumed)
    (hpost : ∀ l', l'.consumed = l.consumed →
      Framing (payload ++ (dataPayloads [frame]).flatten) l' →
      carried target l'.flushed = carried target l'.sent → post () l')
    : Holds .leg (Sound v (carried target)) (sendFrame frame : Sock ε Unit) post
        (fun _ l' => l'.Carries v (carried target)) l := by
  apply holds_bind
  apply writeFrame_holds h hfit hpayload
  intro hwrite
  apply holds_flush
  . exact ⟨hwrite.carries hpayload, by simp [isRead]⟩
  . exact hpost _ rfl hwrite.flush rfl
  . intro e
    exact hwrite.carries hpayload

theorem sendFirst_holds {frame : Frame} {post : Unit → Log → Prop} (h : Untouched l)
    (hend : l.atEnd = false)
    (hdata : frame.isData = false) (hfit : frame.payload.length ≤ defaultMaxPayload)
    (hpost : ∀ l', l'.consumed = l.consumed → Framing [] l' →
      carried target l'.flushed = carried target l'.sent → post () l')
    : Holds .leg (Sound v (carried target)) (sendFrame frame : Sock ε Unit) post
        (fun _ l' => l'.Carries v (carried target)) l := by
  have hframing : Framing [] l := ⟨by rw [h.sent]; exact .nil, hend, h.opened⟩
  have hnone : dataPayloads [frame] = [] := by simp [dataPayloads, hdata]
  apply sendFrame_holds hframing hfit
  . simp [hnone]
  . simpa [hnone] using hpost

end Sock

end Veil
