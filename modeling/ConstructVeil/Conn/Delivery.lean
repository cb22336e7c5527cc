import ConstructVeil.Conn.Return

/-!
This module contains the two directions of a tunnel from end to end: the client, any number of
relays that hand on to the next one, and the relay in front of the backend, each on its own and with
sockets that may fail at any time.
-/

namespace Veil

open Sock

section Up

variable {τ : Type} {copier : Copier τ} {client : ClientConfig} {hops : List Hop} {exit : Hop}

theorem Hop.up_chain {hop : Hop} (h : hop.cfg.chain.isSome = true) (target : Target)
    : (hop.up copier).Forwards (carried target) (carried target) ∧
      (hop.up copier).Prompt (carried target) (carried target) := by
  rcases Option.isSome_iff_exists.mp h with ⟨chain, hchain⟩
  have hsound : SoundPipe .leg _ _ _ (handleConnection copier hop.cfg hop.exporter) :=
    handleConnection_chain hchain
  rw [carried_target hop.cfg.target target] at hsound
  exact ⟨hsound.forwards, hsound.prompt⟩

/--
At every moment the backend has got some first bytes of what the app has written, whatever fails on
the way; and if its connection was shut down, then it has got all of them, and the app was done.
-/
theorem upPath_forwards (hhops : ∀ hop ∈ hops, hop.cfg.chain.isSome = true)
    (hexit : exit.cfg.chain = none) : (upPath copier client hops exit).Forwards id id := by
  refine Pipe.Forwards.comp (carried_mono exit.cfg.target) ?_ (handleConnection_exit hexit).forwards
  apply Pipe.Forwards.through (carried_mono exit.cfg.target) openFerryUp_sound.forwards
  intro hop hhop
  rcases List.mem_map.mp hhop with ⟨hop, hmem, rfl⟩
  exact (hop.up_chain (hhops hop hmem) _).1

theorem toyFrame_ok
    : ∃ frame, authFrame toyCrypto toyTexts 50 (.fill 32 5) "" ⟨"cap", "sk"⟩ = .ok frame ∧
        (∀ now ∈ [50, 51, 52], Authentic toyEnv now frame) ∧
        (⟨"cap", .fill 32 2⟩ : ChainConfig).authFrame toyCrypto toyCapability (.fill 32 5)
          = .ok frame := by
  have hcrypto : toyEnv.crypto.SignVerifies :=
    ⟨fun _ => rfl, fun _ _ => by simp [toyEnv, toyCrypto]⟩
  rcases authFrame_authentic hcrypto toy_accredited List.mem_cons_self with ⟨frame, hframe, hauth⟩
  have hconf : toyClient.authV3.capabilityV2B64 ≠ "" ∧ toyClient.authV3.veilSkHex ≠ "" := by decide
  exact ⟨frame, hframe, hauth, authFrame_of_parseV2 hconf (toyCapability_parse _) rfl hframe⟩

theorem toyPath_delivers
    : (upPath toyCopier toyClient [toyHop true] (toyHop false)).Delivers [1, 2, 3] [1, 2, 3] := by
  rcases toyFrame_ok with ⟨frame, hframe, hauth, hnext⟩
  have hadmits : ∀ inChain, (toyHop inChain).cfg.Admits (toyHop inChain).exporter 50 frame :=
    fun _ => ⟨_, rfl, hauth 50 List.mem_cons_self⟩
  have hcap : (⟨"cap", .fill 32 2⟩ : ChainConfig).parseCapability toyTexts = .ok toyCapability := by
    rcases toyTexts_decode "cap" with ⟨raw, hraw, hdecode⟩
    simp only [ChainConfig.parseCapability, hraw, hdecode]
  have hopens : Opens frame [toyHop true] (toyHop false) :=
    .hop rfl hcap hnext (hadmits true) (.exit rfl (hadmits false))
  have hchunks : ∀ chunk ∈ ([[1], [2, 3]] : List Bytes), chunk ≠ [] ∧ chunk.length ≤ localBuf := by
    decide
  exact upPath_delivers toyCopier hchunks hframe hopens

/--
A run over two relays after which the app is done and the backend has got its bytes.
-/
theorem upPath_forwards_two_relays
    : ∃ c, (upPath toyCopier toyClient [toyHop true] (toyHop false)).Reachable c ∧
        ((upPath toyCopier toyClient [toyHop true] (toyHop false)).ledger c).closed = true ∧
        ((upPath toyCopier toyClient [toyHop true] (toyHop false)).ledger c).consumed = [1, 2, 3] ∧
        ((upPath toyCopier toyClient [toyHop true] (toyHop false)).ledger c).sent = [1, 2, 3] := by
  rcases toyPath_delivers.ends with ⟨c, hc, hfinished⟩
  have hforwards : (upPath toyCopier toyClient [toyHop true] (toyHop false)).Forwards id id :=
    upPath_forwards (by simp [toyHop]) rfl
  have hsent := ((hforwards c hc.reachable).complete hfinished.closed).2
  rw [hfinished.consumed] at hsent
  exact ⟨c, hc.reachable, hfinished.closed, hfinished.consumed, hsent⟩

/--
Nothing gets stuck on the way: when all of the processes wait for more and what is on its way has
arrived, the backend has got everything that the app has written, unless a relay has turned to its
site.
-/
theorem upPath_prompt (hhops : ∀ hop ∈ hops, hop.cfg.chain.isSome = true)
    (hexit : exit.cfg.chain = none) : (upPath copier client hops exit).Prompt id id := by
  refine Pipe.Prompt.comp ?_ (handleConnection_exit hexit).prompt
  apply Pipe.Prompt.through openFerryUp_sound.prompt
  intro hop hhop
  rcases List.mem_map.mp hhop with ⟨hop, hmem, rfl⟩
  exact (hop.up_chain (hhops hop hmem) _).2

/--
A run over two relays after which all of them wait for more, and the backend has got what there was.
-/
theorem upPath_prompt_two_relays
    : ∃ c, (upPath toyCopier toyClient [toyHop true] (toyHop false)).Reachable c ∧
        (upPath toyCopier toyClient [toyHop true] (toyHop false)).idle c ∧
        ((upPath toyCopier toyClient [toyHop true] (toyHop false)).ledger c).consumed = [1, 2, 3] ∧
        ((upPath toyCopier toyClient [toyHop true] (toyHop false)).ledger c).flushed
          = [1, 2, 3] := by
  rcases toyPath_delivers.waits with ⟨c, hc, hidle, hsettled⟩
  have hprompt : (upPath toyCopier toyClient [toyHop true] (toyHop false)).Prompt id id :=
    upPath_prompt (by simp [toyHop]) rfl
  have hflushed := hprompt c hc.reachable hidle hsettled.direct
  rw [hsettled.consumed] at hflushed
  exact ⟨c, hc.reachable, hidle, hsettled.consumed, hflushed⟩

end Up

section Down

variable {hops : List Target} {target : Target}

theorem forwardChainDown_any (hop target : Target)
    : (pipeTo .leg (forwardChainDown hop)).Forwards (carried target) (carried target) ∧
      (pipeTo .leg (forwardChainDown hop)).Prompt (carried target) (carried target) := by
  rw [carried_target target hop]
  exact ⟨forwardChainDown_sound.forwards, forwardChainDown_sound.prompt⟩

/--
At every moment the app has got some first bytes of what the backend has written, whatever fails on
the way; and if its connection was shut down, then it has got all of them, and the backend was done.
-/
theorem downPath_forwards : (downPath hops target).Forwards id id := by
  refine Pipe.Forwards.comp (carried_mono target) ?_ openFerryDown_sound.forwards
  apply Pipe.Forwards.through (carried_mono target) forwardTunnelDown_sound.forwards
  intro hop hhop
  rcases List.mem_map.mp hhop with ⟨hop, _, rfl⟩
  exact (forwardChainDown_any hop target).1

end Down

end Veil
