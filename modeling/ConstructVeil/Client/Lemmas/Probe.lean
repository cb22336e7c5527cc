import ConstructVeil.Client.Impl.Probe
import ConstructVeil.Protocol.Lemmas.Stream

/-!
This module contains the verification of the probe: the first frame that is not CHAFF decides it,
however the bytes arrive.
-/

namespace Veil

open VeilFrontCodec

structure WireFrame where
  frame : Frame
  pad : Bytes
  hpayload : frame.payload.length ≤ defaultMaxPayload
  hpad : pad.length ≤ defaultMaxPayload

def WireFrame.bytes (w : WireFrame) : Bytes := wireFrame w.frame w.pad

theorem attempt_eq_item_iff_bytes (target : Target) {src rest : Bytes} {frame : Frame}
    : attempt target .default src = .item frame rest
        ↔
      ∃ w : WireFrame, w.frame = frame ∧ src = w.bytes ++ rest := by
  rw [attempt_default_eq_item_iff]
  constructor
  . rintro ⟨pad, hsrc, hpayload, hpad⟩
    exact ⟨⟨frame, pad, hpayload, hpad⟩, rfl, hsrc⟩
  . rintro ⟨w, rfl, hsrc⟩
    exact ⟨w.pad, hsrc, w.hpayload, w.hpad⟩

/--
The bytes are zero or more complete CHAFF frames followed by `rest`.
-/
def AfterChaff (bs rest : Bytes) : Prop :=
  ∃ chaffs : List WireFrame, (∀ w ∈ chaffs, w.frame.isChaff = true) ∧
    bs = chaffs.flatMap WireFrame.bytes ++ rest

/--
A complete DATA frame comes after the CHAFF.
-/
def Confirms (bs : Bytes) : Prop :=
  ∃ (w : WireFrame) (tail : Bytes), AfterChaff bs (w.bytes ++ tail) ∧ w.frame.isData = true

/--
A complete frame of another type, or something that is not a frame, comes after the CHAFF.
-/
def Refutes (target : Target) (bs : Bytes) : Prop :=
  (∃ (w : WireFrame) (tail : Bytes), AfterChaff bs (w.bytes ++ tail) ∧ w.frame.isData = false ∧
    w.frame.isChaff = false) ∨
  ∃ rest e, AfterChaff bs rest ∧ bucketCodec.decodeOn target rest = (.error e, rest)

/--
The CHAFF is followed by no complete frame, but by what may become one.
-/
def Undecided (target : Target) (bs rest : Bytes) : Prop :=
  AfterChaff bs rest ∧ bucketCodec.decodeOn target rest = (.ok none, rest)

section Decoder

variable {target : Target} {bs rest : Bytes}

theorem leads_iff_afterChaff
    : (decoder target .default).Leads (·.isChaff = true) bs rest ↔ AfterChaff bs rest := by
  constructor
  . intro h
    induction h with
    | nil buf => exact ⟨[], by simp, rfl⟩
    | cons hbuf ha _ ih =>
      rcases (attempt_eq_item_iff_bytes target).mp hbuf with ⟨w, rfl, rfl⟩
      rcases ih with ⟨chaffs, hchaffs, rfl⟩
      refine ⟨w :: chaffs, ?_, ?_⟩
      . rw [List.forall_mem_cons]
        exact ⟨ha, hchaffs⟩
      . rw [List.flatMap_cons, List.append_assoc]
  . rintro ⟨chaffs, hchaffs, rfl⟩
    induction chaffs with
    | nil => exact .nil rest
    | cons w chaffs ih =>
      rw [List.forall_mem_cons] at hchaffs
      refine .cons ?_ hchaffs.1 (ih hchaffs.2)
      apply (attempt_eq_item_iff_bytes target).mpr
      exact ⟨w, rfl, by rw [List.flatMap_cons, List.append_assoc]⟩

def Ends (target : Target) (bs : Bytes) (verdict : Attempt UInt8 Frame DecodeError) : Prop :=
  ∃ rest, (decoder target .default).Leads (·.isChaff = true) bs rest ∧
    (decoder target .default).Stops (·.isChaff = true) rest ∧ attempt target .default rest = verdict

theorem Ends.unique {v v' : Attempt UInt8 Frame DecodeError} (h : Ends target bs v)
    (h' : Ends target bs v') : v = v' := by
  rcases h with ⟨rest, hleads, hstops, rfl⟩
  rcases h' with ⟨rest', hleads', hstops', rfl⟩
  rw [hleads.unique hleads' hstops hstops']

theorem stops_of_attempt_item {f : Frame} {tail : Bytes}
    (h : attempt target .default rest = .item f tail)
    (hf : f.isChaff = false) : (decoder target .default).Stops (·.isChaff = true) rest := by
  intro a rest' ha
  rw [decoder_attempt, h] at ha
  injection ha with ha _
  simp [← ha, hf]

theorem Ends.append_item {f : Frame} {tail : Bytes} (h : Ends target bs (.item f tail))
    (ext : Bytes)
    : Ends target (bs ++ ext) (.item f (tail ++ ext)) := by
  rcases h with ⟨rest, hleads, hstops, hrest⟩
  have hext := (decoder target .default).item_append ext hrest
  refine ⟨rest ++ ext, hleads.append ext, ?_, hext⟩
  apply stops_of_attempt_item hext
  simpa using hstops f tail hrest

theorem Ends.append_fail {e : DecodeError} (h : Ends target bs (.fail e)) (ext : Bytes)
    : Ends target (bs ++ ext) (.fail e) := by
  rcases h with ⟨rest, hleads, _, hrest⟩
  have hext := (decoder target .default).fail_append ext hrest
  refine ⟨rest ++ ext, hleads.append ext, ?_, hext⟩
  intro a rest' ha
  rw [hext] at ha
  cases ha

theorem exists_ends_item_iff {q : Frame → Prop} (hq : ∀ f, q f → f.isChaff = false)
    : (∃ f tail, Ends target bs (.item f tail) ∧ q f)
        ↔
      ∃ (w : WireFrame) (tail : Bytes), AfterChaff bs (w.bytes ++ tail) ∧ q w.frame := by
  constructor
  . rintro ⟨f, tail, ⟨rest, hleads, _, hrest⟩, hf⟩
    rcases (attempt_eq_item_iff_bytes target).mp hrest with ⟨w, rfl, rfl⟩
    exact ⟨w, tail, leads_iff_afterChaff.mp hleads, hf⟩
  . rintro ⟨w, tail, hafter, hw⟩
    have hrest := (attempt_eq_item_iff_bytes target).mpr ⟨w, rfl, Eq.refl (w.bytes ++ tail)⟩
    exact ⟨w.frame, tail,
      ⟨_, leads_iff_afterChaff.mpr hafter, stops_of_attempt_item hrest (hq _ hw), hrest⟩, hw⟩

theorem confirms_iff_ends (target : Target)
    : Confirms bs ↔ ∃ f tail, Ends target bs (.item f tail) ∧ f.isData = true := by
  rw [exists_ends_item_iff fun _ => Frame.isChaff_of_isData]
  rfl

theorem refutes_iff_ends
    : Refutes target bs
        ↔
      (∃ f tail, Ends target bs (.item f tail) ∧ f.isData = false ∧ f.isChaff = false) ∨
        ∃ e, Ends target bs (.fail e) := by
  rw [exists_ends_item_iff fun _ h => h.2]
  apply or_congr Iff.rfl
  constructor
  . rintro ⟨rest, e, hafter, hrest⟩
    have hrest : attempt target .default rest = .fail e := attempt_eq_fail_iff.mpr hrest
    refine ⟨e, rest, leads_iff_afterChaff.mpr hafter, ?_, hrest⟩
    intro a rest' ha
    rw [decoder_attempt, hrest] at ha
    cases ha
  . rintro ⟨e, rest, hleads, _, hrest⟩
    exact ⟨rest, e, leads_iff_afterChaff.mp hleads, attempt_eq_fail_iff.mp hrest⟩

theorem ends_of_undecided (h : Undecided target bs rest) : Ends target bs .wait := by
  have hrest : attempt target .default rest = .wait := attempt_eq_wait_iff.mpr h.2
  refine ⟨rest, leads_iff_afterChaff.mpr h.1, ?_, hrest⟩
  intro a rest' ha
  rw [decoder_attempt, hrest] at ha
  cases ha

theorem not_refutes_of_confirms (h : Confirms bs) : ¬Refutes target bs := by
  rw [confirms_iff_ends target] at h
  rcases h with ⟨f, tail, hends, hdata⟩
  rw [refutes_iff_ends]
  rintro (⟨f', tail', hends', hdata', _⟩ | ⟨e, hends'⟩)
  . injection hends.unique hends' with hf _
    rw [hf, hdata'] at hdata
    cases hdata
  . cases hends.unique hends'

theorem not_undecided_of_confirms (h : Confirms bs) : ¬Undecided target bs rest := by
  rw [confirms_iff_ends target] at h
  rcases h with ⟨f, tail, hends, _⟩
  intro hundecided
  cases hends.unique (ends_of_undecided hundecided)

theorem not_undecided_of_refutes (h : Refutes target bs) : ¬Undecided target bs rest := by
  rw [refutes_iff_ends] at h
  intro hundecided
  rcases h with ⟨f, tail, hends, _⟩ | ⟨e, hends⟩
  . cases hends.unique (ends_of_undecided hundecided)
  . cases hends.unique (ends_of_undecided hundecided)

theorem Confirms.append (h : Confirms bs) (ext : Bytes) : Confirms (bs ++ ext) := by
  rw [confirms_iff_ends .bits64] at h ⊢
  rcases h with ⟨f, tail, hends, hdata⟩
  exact ⟨f, tail ++ ext, hends.append_item ext, hdata⟩

theorem Refutes.append (h : Refutes target bs) (ext : Bytes) : Refutes target (bs ++ ext) := by
  rw [refutes_iff_ends] at h ⊢
  rcases h with ⟨f, tail, hends, hother⟩ | ⟨e, hends⟩
  . exact Or.inl ⟨f, tail ++ ext, hends.append_item ext, hother⟩
  . exact Or.inr ⟨e, hends.append_fail ext⟩

end Decoder

section After

variable {target : Target} {bs mid rest : Bytes}

theorem AfterChaff.trans (h : AfterChaff bs mid) (h' : AfterChaff mid rest)
    : AfterChaff bs rest := by
  rcases h with ⟨chaffs, hchaffs, rfl⟩
  rcases h' with ⟨chaffs', hchaffs', rfl⟩
  refine ⟨chaffs ++ chaffs', ?_, ?_⟩
  . rw [List.forall_mem_append]
    exact ⟨hchaffs, hchaffs'⟩
  . rw [List.flatMap_append, List.append_assoc]

theorem AfterChaff.append (h : AfterChaff bs rest) (ext : Bytes)
    : AfterChaff (bs ++ ext) (rest ++ ext) := by
  rcases h with ⟨chaffs, hchaffs, rfl⟩
  exact ⟨chaffs, hchaffs, List.append_assoc _ _ _⟩

theorem Confirms.of_afterChaff (hmid : AfterChaff bs mid) (h : Confirms mid) : Confirms bs := by
  rcases h with ⟨w, tail, hafter, hdata⟩
  exact ⟨w, tail, hmid.trans hafter, hdata⟩

theorem Refutes.of_afterChaff (hmid : AfterChaff bs mid) (h : Refutes target mid)
    : Refutes target bs := by
  rcases h with ⟨w, tail, hafter, hother⟩ | ⟨rest, e, hafter, hrest⟩
  . exact Or.inl ⟨w, tail, hmid.trans hafter, hother⟩
  . exact Or.inr ⟨rest, e, hmid.trans hafter, hrest⟩

theorem Undecided.of_afterChaff (hmid : AfterChaff bs mid) (h : Undecided target mid rest)
    : Undecided target bs rest := ⟨hmid.trans h.1, h.2⟩

end After

inductive Judged (target : Target) (bs : Bytes)
    : Option (Except ObfuscatorError Unit) × Bytes → Prop
  where
  | undecided (rest : Bytes) (h : Undecided target bs rest) : Judged target bs (none, rest)
  | confirmed (rest : Bytes) (h : Confirms bs) : Judged target bs (some (.ok ()), rest)
  | refuted (msg : String) (rest : Bytes) (h : Refutes target bs)
    : Judged target bs (some (.error (.handshake msg)), rest)

theorem Judged.of_afterChaff {target : Target} {bs mid : Bytes}
    {res : Option (Except ObfuscatorError Unit) × Bytes} (hmid : AfterChaff bs mid)
    (h : Judged target mid res) : Judged target bs res := by
  cases h with
  | undecided rest h => exact .undecided rest (h.of_afterChaff hmid)
  | confirmed rest h => exact .confirmed rest (h.of_afterChaff hmid)
  | refuted msg rest h => exact .refuted msg rest (h.of_afterChaff hmid)

theorem judged_probeVerdict (target : Target) (rxBuf : Bytes)
    : Judged target rxBuf (probeVerdict target bucketCodec rxBuf) := by
  have hnil : ∀ bs, AfterChaff bs bs := fun bs => ⟨[], by simp, rfl⟩
  rw [probeVerdict]
  split
  . next frame rest h =>
    have := (decoder target bucketCodec).item_lt h
    rcases (attempt_eq_item_iff_bytes target).mp h with ⟨w, rfl, rfl⟩
    dsimp only
    split
    . next hdata =>
      apply Judged.confirmed
      exact ⟨w, rest, hnil _, by simpa [Frame.isData] using hdata⟩
    . next hdata =>
      split
      . next hchaff =>
        apply Judged.of_afterChaff _ (judged_probeVerdict target rest)
        refine ⟨[w], ?_, by simp⟩
        simpa [Frame.isChaff] using hchaff
      . next hchaff =>
        apply Judged.refuted
        exact Or.inl ⟨w, rest, hnil _, by simpa [Frame.isData] using hdata,
          by simpa [Frame.isChaff] using hchaff⟩
  . next h =>
    apply Judged.undecided
    exact ⟨hnil _, attempt_eq_wait_iff.mp h⟩
  . next e h =>
    apply Judged.refuted
    exact Or.inr ⟨rxBuf, e, hnil _, attempt_eq_fail_iff.mp h⟩
termination_by rxBuf.length

/--
What the state of the read loop says about the bytes so far.
-/
def ProbeState.Sees (target : Target) (bs : Bytes) : ProbeState → Prop
  | .reading rxBuf totalRead =>
    Undecided target bs rxBuf ∧ totalRead = bs.length ∧ totalRead ≤ maxProbeRead
  | .returned (.ok ()) => Confirms bs
  | .returned (.error e) =>
    (∃ msg, e = .handshake msg) ∧ (Refutes target bs ∨ maxProbeRead < bs.length)

theorem ProbeState.Sees.probeRead {target : Target} {bs : Bytes} {state : ProbeState}
    (h : state.Sees target bs) (bytes : Bytes) (hne : bytes ≠ [])
    : (probeRead target state (.data bytes hne)).Sees target (bs ++ bytes) := by
  cases state with
  | returned res =>
    cases res with
    | ok u => exact Confirms.append h bytes
    | error e =>
      refine ⟨h.1, ?_⟩
      rcases h.2 with h | h
      . exact Or.inl (h.append bytes)
      . right
        rw [List.length_append]
        omega
  | reading rxBuf totalRead =>
    rcases h with ⟨hundecided, htotal, hle⟩
    have hjudged := (judged_probeVerdict target (rxBuf ++ bytes)).of_afterChaff
      (hundecided.1.append bytes)
    simp only [Veil.probeRead]
    generalize probeVerdict target bucketCodec (rxBuf ++ bytes) = res at hjudged
    cases hjudged with
    | undecided rest h =>
      dsimp only
      split
      . next hmax =>
        refine ⟨⟨_, rfl⟩, Or.inr ?_⟩
        rw [List.length_append]
        omega
      . next hmax =>
        refine ⟨h, ?_, Nat.not_lt.mp hmax⟩
        rw [List.length_append, htotal]
    | confirmed rest h => exact h
    | refuted msg rest h => exact ⟨⟨msg, rfl⟩, Or.inl h⟩

/--
The three states of the loop are the three cases of the bytes, as they exclude each other.
-/
theorem ProbeState.Sees.cases {target : Target} {bs : Bytes} {state : ProbeState}
    (h : state.Sees target bs) (hlen : bs.length ≤ maxProbeRead)
    : (state = .returned (.ok ()) ↔ Confirms bs) ∧
      ((∃ msg, state = .returned (.error (.handshake msg))) ↔ Refutes target bs) ∧
      (¬Confirms bs → ¬Refutes target bs →
        ∃ rxBuf, state = .reading rxBuf bs.length ∧ Undecided target bs rxBuf) := by
  match state, h with
  | .returned (.ok ()), hconfirms =>
    have hconfirms : Confirms bs := hconfirms
    have hnot : ¬Refutes target bs := not_refutes_of_confirms hconfirms
    simp [hnot, hconfirms]
  | .returned (.error e), ⟨⟨msg, hmsg⟩, hor⟩ =>
    have hrefutes : Refutes target bs := hor.resolve_right (by omega)
    have hnot : ¬Confirms bs := fun h => not_refutes_of_confirms h hrefutes
    simp [hnot, hrefutes, hmsg]
  | .reading rxBuf totalRead, ⟨hundecided, htotal, _⟩ =>
    have hnot : ¬Confirms bs := fun h => not_undecided_of_confirms h hundecided
    have hnot' : ¬Refutes target bs := fun h => not_undecided_of_refutes h hundecided
    simp [hnot, hnot', htotal, hundecided]

abbrev Chunks := List { bytes : Bytes // bytes ≠ [] }

def Chunks.reads (chunks : Chunks) : List ReadEvent := chunks.map fun c => .data c.val c.property

def Chunks.bytes (chunks : Chunks) : Bytes := chunks.flatMap Subtype.val

theorem sees_probeVeilFront (target : Target) (chunks : Chunks)
    : (probeVeilFront target chunks.reads).2.Sees target chunks.bytes := by
  have hrun : ∀ (chunks : Chunks) (bs : Bytes) (state : ProbeState), state.Sees target bs →
      (chunks.reads.foldl (probeRead target) state).Sees target (bs ++ chunks.bytes) := by
    intro chunks
    induction chunks with
    | nil =>
      intro bs state h
      simpa [Chunks.reads, Chunks.bytes] using h
    | cons c chunks ih =>
      intro bs state h
      have := ih (bs ++ c.val) _ (h.probeRead c.val c.property)
      simpa [Chunks.reads, Chunks.bytes] using this
  apply hrun chunks [] (.reading [] 0)
  refine ⟨⟨⟨[], by simp, rfl⟩, rfl⟩, rfl, Nat.zero_le _⟩

/--
The probe is decided by the first frame that is not CHAFF, however the bytes arrive. A cut of the
stream on which it fails although it succeeds on another one is one that went over the limit, and it
never waits for the socket with a complete frame in its buffer.
-/
theorem probe_decided_by_first_frame (target : Target)
    : (∀ chunks : Chunks, chunks.bytes.length ≤ 65536 →
        ((probeVeilFront target chunks.reads).2 = .returned (.ok ()) ↔ Confirms chunks.bytes) ∧
        ((∃ msg, (probeVeilFront target chunks.reads).2 = .returned (.error (.handshake msg)))
          ↔ Refutes target chunks.bytes) ∧
        (¬Confirms chunks.bytes → ¬Refutes target chunks.bytes →
          ∃ rxBuf, (probeVeilFront target chunks.reads).2 = .reading rxBuf chunks.bytes.length ∧
            Undecided target chunks.bytes rxBuf)) ∧
      (∀ (chunks chunks' : Chunks) (stream : Bytes) (e : ObfuscatorError),
        chunks.bytes <+: stream → chunks'.bytes <+: stream →
        (probeVeilFront target chunks.reads).2 = .returned (.ok ()) →
        (probeVeilFront target chunks'.reads).2 = .returned (.error e) →
          65536 < chunks'.bytes.length) ∧
      (∀ (chunks : Chunks) (rxBuf : Bytes) (totalRead : Nat),
        (probeVeilFront target chunks.reads).2 = .reading rxBuf totalRead →
          bucketCodec.decodeOn target rxBuf = (.ok none, rxBuf)) := by
  refine ⟨?_, ?_, ?_⟩
  . intro chunks hlen
    exact (sees_probeVeilFront target chunks).cases hlen
  . rintro chunks chunks' stream e ⟨ext, rfl⟩ ⟨ext', hext'⟩ hok herror
    have hsees := sees_probeVeilFront target chunks
    have hsees' := sees_probeVeilFront target chunks'
    rw [hok] at hsees
    rw [herror] at hsees'
    rcases hsees'.2 with hrefutes | hlen
    . have hconfirms := Confirms.append hsees ext
      have hrefutes := hrefutes.append ext'
      rw [hext'] at hrefutes
      exact absurd hrefutes (not_refutes_of_confirms hconfirms)
    . exact hlen
  . intro chunks rxBuf totalRead hreading
    have hsees := sees_probeVeilFront target chunks
    rw [hreading] at hsees
    exact hsees.1.2

end Veil
