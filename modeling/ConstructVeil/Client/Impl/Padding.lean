import ConstructVeil.Protocol.Impl.Framing

/-!
This module contains the implementation of the padding of the client: a scheduler for front-loaded
CHAFF, the queue of payload frames, and the strategy that lets payload go first.
-/

namespace Veil

def payloadCooldown : Nat := fromMillis 5

def frontWindow : Nat := fromSecs 3

def maxChaffQueue : Nat := 64

def sampleChaffSize (rng : Rng) : Nat :=
  if rng.roll < 0.4 then
    bucketAt (rng.genRange 0 4 (by decide)) (by omega)
  else if rng.roll < 0.8 then
    bucketAt (rng.genRange 4 8 (by decide)) (by omega)
  else
    bucketAt (rng.genRange 8 12 (by decide)) (by omega)
where
  bucketAt {lo hi : Nat} (idx : { i : Nat // lo ≤ i ∧ i < hi }) (h : hi ≤ 12) : Nat :=
    lengthBuckets.get ⟨idx.val, by have := idx.property; simp [lengthBuckets]; omega⟩

theorem lengthBuckets_get_le
    : ∀ i : Fin 12, lengthBuckets.get (i.castLE (by decide)) ≤ 4096 := by
  decide

theorem sampleChaffSize.bucketAt_le {lo hi : Nat} (idx : { i : Nat // lo ≤ i ∧ i < hi })
    (h : hi ≤ 12) : bucketAt idx h ≤ 4096 := by
  have := idx.property
  exact lengthBuckets_get_le ⟨idx.val, by omega⟩

theorem sampleChaffSize_le (rng : Rng) : sampleChaffSize rng ≤ 4096 := by
  unfold sampleChaffSize
  repeat' split
  all_goals apply sampleChaffSize.bucketAt_le

def chaffFrame (rng : Rng) : Frame := ⟨frameTypeChaff, (rng.fillBytes (sampleChaffSize rng)).val⟩

/--
What the scheduler guarantees about the frames it hands out.
-/
def IsChaff (frame : Frame) : Prop := ∃ payload, frame = .chaff payload ∧ payload.length ≤ 4096

theorem isChaff_chaffFrame (rng : Rng) : IsChaff (chaffFrame rng) :=
  ⟨_, rfl, by simp [sampleChaffSize_le]⟩

/--
The scheduler. `rng` are the answers of the random number generator, one for every frame that is
still to be built.
-/
structure FrontChaffScheduler where
  chaffQueue : List Frame
  queueIndex : Nat
  connectionStart : Option Nat
  lastPayloadAt : Option Nat
  chaffBytes : Nat
  payloadBytes : Nat
  chaffFramesSent : Nat
  rng : Nat → Rng
  frontWindowClosed : Bool
  hqueue : ∀ f ∈ chaffQueue, IsChaff f

namespace FrontChaffScheduler

def generateChaffQueue (rng : Nat → Rng) : List Frame :=
  (List.range maxChaffQueue).map fun i => chaffFrame (rng i)

def new (rng : Nat → Rng) : FrontChaffScheduler where
  chaffQueue := generateChaffQueue rng
  queueIndex := 0
  connectionStart := none
  lastPayloadAt := none
  chaffBytes := 0
  payloadBytes := 0
  chaffFramesSent := 0
  rng := fun i => rng (maxChaffQueue + i)
  frontWindowClosed := false
  hqueue := by
    intro f hf
    rcases List.mem_map.mp hf with ⟨i, _, rfl⟩
    exact isChaff_chaffFrame (rng i)

def inCooldown (s : FrontChaffScheduler) (now : Nat) : Bool :=
  match s.lastPayloadAt with
  | some lastPayload => now - lastPayload < payloadCooldown
  | none => false

def shouldInjectChaff (s : FrontChaffScheduler) (now : Nat) : Bool :=
  if s.inCooldown now then
    false
  else if s.frontWindowClosed then
    s.queueIndex < s.chaffQueue.length
  else
    true

def isDone (s : FrontChaffScheduler) (now : Nat) : Bool :=
  let windowOver := s.frontWindowClosed ||
    match s.connectionStart with
    | some start => now - start ≥ frontWindow
    | none => false
  windowOver && s.queueIndex ≥ s.chaffQueue.length

def nextChaffFrame (s : FrontChaffScheduler) : Option Frame × FrontChaffScheduler :=
  if h:s.queueIndex < s.chaffQueue.length then
    (some (s.chaffQueue.get ⟨s.queueIndex, h⟩), { s with queueIndex := s.queueIndex + 1 })
  else
    (none, s)

def generateChaff (s : FrontChaffScheduler) : Frame × FrontChaffScheduler :=
  (chaffFrame (s.rng 0), { s with rng := fun i => s.rng (i + 1) })

def onPayloadSent (s : FrontChaffScheduler) (now payloadLen : Nat) : FrontChaffScheduler :=
  { s with payloadBytes := s.payloadBytes + payloadLen, lastPayloadAt := some now }

def countChaff (s : FrontChaffScheduler) (frame : Frame) : FrontChaffScheduler :=
  { s with
    chaffBytes := s.chaffBytes + frame.payload.length, chaffFramesSent := s.chaffFramesSent + 1 }

/--
The first poll starts the window, a poll after its end closes it.
-/
def updateWindow (s : FrontChaffScheduler) (now : Nat) : FrontChaffScheduler :=
  let start := s.connectionStart.getD now
  { s with
    connectionStart := some start
    frontWindowClosed := s.frontWindowClosed || now - start ≥ frontWindow }

def pollChaff (s : FrontChaffScheduler) (now : Nat) : Option Frame × FrontChaffScheduler :=
  let s := s.updateWindow now
  if !s.shouldInjectChaff now then
    (none, s)
  else
    match s.nextChaffFrame with
    | (some frame, s) => (some frame, s.countChaff frame)
    | (none, s) =>
      if !s.frontWindowClosed then
        let (frame, s) := s.generateChaff
        (some frame, s.countChaff frame)
      else
        (none, s)

def hasPending (s : FrontChaffScheduler) : Bool := s.queueIndex < s.chaffQueue.length

def chaffBytesSent (s : FrontChaffScheduler) : Nat := s.chaffBytes

def payloadBytesSent (s : FrontChaffScheduler) : Nat := s.payloadBytes

end FrontChaffScheduler

structure PayloadQueue where
  frames : List Frame
  queuedBytes : Nat

namespace PayloadQueue

def new : PayloadQueue := ⟨[], 0⟩

def push (queue : PayloadQueue) (frame : Frame) : PayloadQueue :=
  ⟨queue.frames ++ [frame], queue.queuedBytes + frame.payload.length⟩

def pop (queue : PayloadQueue) : Option Frame × PayloadQueue :=
  match queue.frames with
  | [] => (none, queue)
  | frame :: frames => (some frame, { queue with frames := frames })

def hasPending (queue : PayloadQueue) : Bool := !queue.frames.isEmpty

end PayloadQueue

structure WriteStrategy where
  payloadQueue : PayloadQueue
  chaffScheduler : FrontChaffScheduler

namespace WriteStrategy

def new (rng : Nat → Rng) : WriteStrategy := ⟨.new, .new rng⟩

def nextFrame (s : WriteStrategy) (now : Nat) : Option Frame × WriteStrategy :=
  match s.payloadQueue.pop with
  | (some frame, queue) =>
    (some frame, ⟨queue, s.chaffScheduler.onPayloadSent now frame.payload.length⟩)
  | (none, queue) =>
    let (frame, scheduler) := s.chaffScheduler.pollChaff now
    (frame, ⟨queue, scheduler⟩)

def hasPending (s : WriteStrategy) : Bool :=
  s.payloadQueue.hasPending || s.chaffScheduler.hasPending

def waitsForPayload (s : WriteStrategy) (now : Nat) : Bool :=
  !s.payloadQueue.hasPending && s.chaffScheduler.isDone now

end WriteStrategy

end Veil
