import ConstructVeil.Conn.Lemmas.Setup
import ConstructVeil.Conn.Opening
import Mathlib.Logic.Denumerable
import Mathlib.Logic.Equiv.List

/-!
This module contains the verification of the setup: what the tools issue is what the relays that
were started with it admit, from the link of a client to a chain of relays, and the signature of a
link covers all that is in it.
-/

namespace Veil

open Except

/--
Base64 that is hex as well, for the examples.
-/
def hexTexts : TextCodecs :=
  ⟨fun s => (decodeHex.go s.toList).elim (.error "") .ok,
    fun s => (decodeHex.go s.toList).elim (.error "") .ok⟩

def JsonValue.code : JsonValue → List Nat ⊕ Int
  | .string s => .inl (s.toList.map Char.toNat)
  | .number n => .inr n

/--
The number of an object, in blanks.
-/
def blankJson : JsonWriter := fun fields =>
  .ok (String.ofList (List.replicate
    (Encodable.encode (fields.map fun field => (field.1.toList.map Char.toNat, field.2.code))) ' '))

theorem blankJson_faithful : blankJson.Faithful := by
  have hchars : Function.Injective fun s : String => s.toList.map Char.toNat := by
    intro s s' h
    exact String.toList_injective (List.map_injective_iff.mpr (fun _ _ => Char.toNat_inj.mp) h)
  have hcode : Function.Injective JsonValue.code := by
    intro v v' h
    cases v <;> cases v' <;> simp only [JsonValue.code, reduceCtorEq, Sum.inl.injEq,
      Sum.inr.injEq] at h
    . exact congrArg _ (hchars h)
    . exact congrArg _ h
  intro fields fields' text h h'
  have hlength := congrArg String.toList (Except.ok.inj (h.trans h'.symm))
  rw [String.toList_ofList, String.toList_ofList, List.replicate_inj] at hlength
  refine List.map_injective_iff.mpr ?_ (Encodable.encode_injective hlength.1)
  intro field field' heq
  injection heq with hkey hvalue
  exact Prod.ext (hchars hkey) (hcode hvalue)

def hexEncoders : TextEncoders := ⟨hexEncode, hexEncode, blankJson⟩

theorem hexTexts_reads : hexTexts.Reads hexEncoders where
  base64 bytes := by simp [hexTexts, hexEncoders, decodeHex_go_hexEncode]
  base64_nil := rfl
  hex bytes := by simp [hexTexts, decodeHex_go_hexEncode]

def toyIssuer (ticketId : ByteArr ticketIdLen) : IssuerHost :=
  ⟨fun _ => .error "", none, ticketId, .fill 32 4, .ok 1000⟩

def toyLinkArgs : MakeConfigLinkArgs where
  relay := "relay:443"
  sni := none
  spki := ""
  signingKeyFile := none
  signingKey := some (hexEncode (List.replicate 32 3))
  days := 1
  suiteId := suiteClassicV1
  scope := ""

def toyRelayCapability : CapabilityV2 :=
  ⟨.fill 16 1, .fill 32 2, roleRelay, 0, 5000, suiteClassicV1, "", .fill 64 7⟩

/--
Every file of this machine holds what its name says.
-/
def toyRelayHost : RelayHost where
  crypto := toyCrypto
  texts := hexTexts
  target := .bits64
  files name :=
    if name = "capability" then
      .ok (hexEncode (toyRelayCapability.encode.toOption.getD []))
    else if name = "seed" then
      .ok (hexEncode (List.replicate 32 2))
    else
      .error ""
  selfSigned := .ok ()
  fromPemFiles _ _ := .ok ()
  serverName _ := .ok ()
  bind _ := .ok ()

def toyRelayArgs (inChain : Bool) : RelayArgs where
  listen := "0.0.0.0:443"
  dev := true
  cert := none
  key := none
  issuerPubkey := some (hexEncode (List.replicate 32 3))
  relayScope := "relay"
  backend := ""
  backendTls := false
  backendSni := none
  firstByteTimeoutSecs := 60
  dialTimeoutSecs := 10
  chainUpstreamAddr := if inChain then some "exit:443" else none
  chainUpstreamSni := if inChain then some "exit" else none
  chainUpstreamSpki := if inChain then some "" else none
  chainCapabilityFile := if inChain then some "capability" else none
  chainVeilSkFile := if inChain then some "seed" else none

theorem toyLink_ok (ticketId : ByteArr ticketIdLen)
    : ∃ link, makeConfigLink toyCrypto hexEncoders (toyIssuer ticketId) toyLinkArgs = .ok link ∧
        link.pubHex = hexEncode (List.replicate 32 3) ∧ link.exp = 87400 := by
  have hkey : resolveSigningKey (toyIssuer ticketId) toyLinkArgs.signingKeyFile
      toyLinkArgs.signingKey = .ok (Str.trim (hexEncode (List.replicate 32 3))) := rfl
  have hseed : parseSeed (Str.trim (hexEncode (List.replicate 32 3))) = .ok (.fill 32 3) := by
    decide +kernel
  have hnow : (toyIssuer ticketId).unixNow = .ok 1000 := rfl
  have hscope : (asBytes toyLinkArgs.scope).length ≤ maxScopeLen := by
    decide
  have hjson : ∀ fields, ∃ text, hexEncoders.json fields = .ok text := fun fields => ⟨_, rfl⟩
  rcases makeConfigLink_ok hkey hseed hnow hscope hjson with ⟨link, hlink, hpub, hexp⟩
  exact ⟨link, hlink, hpub, hexp⟩

theorem toyRelay_ok (inChain : Bool)
    : ∃ cfg, startRelay toyRelayHost (toyRelayArgs inChain) = .ok cfg := by
  have h : ∀ inChain, (startRelay toyRelayHost (toyRelayArgs inChain)).toOption.isSome = true := by
    decide +kernel
  specialize h inChain
  cases hcfg : startRelay toyRelayHost (toyRelayArgs inChain) with
  | error e =>
    rw [hcfg] at h
    cases h
  | ok cfg => exact ⟨cfg, rfl⟩

theorem toyRelay_key (inChain : Bool)
    : (toyRelayArgs inChain).issuerPubkey.map Str.trim = some (hexEncode (List.replicate 32 3)) :=
  congrArg some (trim_hexEncode _)

theorem toyCrypto_signs : toyCrypto.SignVerifies := ⟨fun _ => rfl, fun _ _ => by simp [toyCrypto]⟩

section Signature

variable {crypto : Crypto} {texts : TextCodecs} {enc : TextEncoders} {host host' : IssuerHost}
  {args args' : MakeConfigLinkArgs} {link link' : ConfigLink}

/--
The signature of a link is good under the key that is printed with it, and it covers everything in
the link: two links have the same signed text only if they agree on the capability, on its expiry,
on the address and the pin of the relay, and on the name that the client asks for, which may be
given or the host of the address. Links that agree on the capability come from the same ticket.
-/
theorem configLink_signature_covers (hcrypto : crypto.SignVerifies) (htexts : texts.Reads enc)
    (hjson : enc.json.Faithful) (hlink : makeConfigLink crypto enc host args = .ok link)
    (hlink' : makeConfigLink crypto enc host' args' = .ok link')
    : (∃ text key sig full,
        canonicalConfig enc.json args.toConfigLinkArgs link.capB64 link.exp = .ok text ∧
        link.pubHex = hexEncode key.val ∧ crypto.verify key (asBytes text) sig = true ∧
        enc.json (linkFields args.toConfigLinkArgs link.capB64 link.exp
          ("ed25519:" ++ enc.base64Url sig.val)) = .ok full ∧
        link.link = "konstruct://veil-config?d=" ++ enc.base64Url (asBytes full)) ∧
      (canonicalConfig enc.json args.toConfigLinkArgs link.capB64 link.exp
          = canonicalConfig enc.json args'.toConfigLinkArgs link'.capB64 link'.exp
          ↔
        link.capB64 = link'.capB64 ∧ link.exp = link'.exp ∧ args.relay = args'.relay ∧
          args.sni.getD (hostPart args.relay) = args'.sni.getD (hostPart args'.relay) ∧
          args.spki = args'.spki) ∧
      (link.capB64 = link'.capB64 →
        host.ticketId = host'.ticketId ∧ host.keyBytes = host'.keyBytes ∧
          host.unixNow = host'.unixNow ∧ args.suiteId = args'.suiteId ∧
            args.scope = args'.scope) := by
  rcases makeConfigLink_issued hlink with ⟨now, seed, cap, hissued⟩
  rcases makeConfigLink_issued hlink' with ⟨now', seed', cap', hissued'⟩
  rcases hissued.signed with ⟨text, full, htext, hfull, hlinkText⟩
  refine ⟨?_, ?_, ?_⟩
  . exact ⟨text, _, _, full, htext, hissued.pubHex, hcrypto.verify_sign seed _, hfull, hlinkText⟩
  . rw [← configFields_inj, ← hjson.canonicalConfig_eq_iff htext, htext, eq_comm]
  . intro hcap
    have hparse := hissued'.parse htexts
    rw [← hcap, hissued.parse htexts, Except.ok.injEq] at hparse
    subst hparse
    have hticket := hissued.ticket.symm.trans hissued'.ticket
    injection hticket with hid hkey hnow _ hsuite
    refine ⟨hid, hkey, ?_, hsuite, hissued.scope.symm.trans hissued'.scope⟩
    rw [hissued.unixNow, hissued'.unixNow, hnow]

end Signature

theorem configLink_signature_covers_two_tickets
    : ∃ link link' text text',
        makeConfigLink toyCrypto hexEncoders (toyIssuer (.fill 16 1)) toyLinkArgs = .ok link ∧
        makeConfigLink toyCrypto hexEncoders (toyIssuer (.fill 16 2)) toyLinkArgs = .ok link' ∧
        canonicalConfig blankJson toyLinkArgs.toConfigLinkArgs link.capB64 link.exp = .ok text ∧
        canonicalConfig blankJson toyLinkArgs.toConfigLinkArgs link'.capB64 link'.exp = .ok text' ∧
        text ≠ text' := by
  rcases toyLink_ok (.fill 16 1) with ⟨link, hlink, _⟩
  rcases toyLink_ok (.fill 16 2) with ⟨link', hlink', _⟩
  rcases configLink_signature_covers toyCrypto_signs hexTexts_reads blankJson_faithful hlink hlink'
    with ⟨_, hsame, hticket⟩
  refine ⟨link, link', _, _, hlink, hlink', rfl, rfl, ?_⟩
  intro htext
  have hcap := (hsame.mp (congrArg Except.ok htext)).1
  exact absurd (hticket hcap).1 (by decide)

/--
A link is good for a relay that was started with the key of the link exactly while both clocks are
inside its window, if the relay is in its scope.
-/
theorem configLink_admitted_iff {enc : TextEncoders} {issuer : IssuerHost}
    {args : MakeConfigLinkArgs}
    {link : ConfigLink} {now : UInt64} {relay : RelayHost} {relayArgs : RelayArgs}
    {cfg : RelayConfig} (hcrypto : relay.crypto.SignVerifies) (htexts : relay.texts.Reads enc)
    (hlink : makeConfigLink relay.crypto enc issuer args = .ok link)
    (hnow : issuer.unixNow = .ok now) (hrelay : startRelay relay relayArgs = .ok cfg)
    (hkey : relayArgs.issuerPubkey.map Str.trim = some link.pubHex) (exporter : ByteArr 32)
    (clientNow relayNow : UInt64)
    : (∃ frame, authFrame relay.crypto relay.texts clientNow exporter link.capB64 ⟨"", ""⟩
        = .ok frame ∧ Authentic (cfg.gateEnv exporter) relayNow frame)
        ↔
      (now ≤ clientNow ∧ clientNow ≤ link.exp) ∧ (now ≤ relayNow ∧ relayNow ≤ link.exp) ∧
        args.suiteId = suiteClassicV1 ∧ scopeMatches args.scope relayArgs.relayScope = true := by
  rcases makeConfigLink_issuedAt hlink hnow with ⟨seed, cap, hissued⟩
  have hstarted := startedFrom_of_startRelay hrelay
  constructor
  . rintro ⟨frame, hframe, hauth⟩
    rcases authFrame_of_parse (hissued.parse htexts) hframe with ⟨hclient, htype, hpayload⟩
    rcases hauth with ⟨_, rec, hrec, hauth⟩ | ⟨hv3, _⟩
    . -- The payload determines the record
      have hrec' := AuthRecordV2.decodePayload_eq_some_iff.mpr hrec
      rw [AuthRecordV2.decodePayload_eq_some_iff.mpr hpayload, Option.some.injEq] at hrec'
      subst hrec'
      rw [authenticV2_iff, AuthRecordV2.verify_iff] at hauth
      rcases hauth with ⟨hvalid, hsuite, hscope, _⟩
      refine ⟨hissued.isValidAt_iff.mp hclient, hissued.isValidAt_iff.mp hvalid, ?_, ?_⟩
      . rw [← hsuite, AuthRecordV2.fromCapability, hissued.ticket]
      . rw [← hissued.scope, ← hstarted.relayScope]
        exact hscope
    . rw [htype] at hv3
      cases hv3
  . rintro ⟨hclient, hwindow, hsuite, hscope⟩
    exact hstarted.authentic hcrypto htexts hissued hkey hclient hwindow hsuite hscope exporter

theorem configLink_admitted_iff_one_day
    : ∃ link cfg frame, makeConfigLink toyCrypto hexEncoders (toyIssuer (.fill 16 1)) toyLinkArgs
        = .ok link ∧ startRelay toyRelayHost (toyRelayArgs false) = .ok cfg ∧
        authFrame toyCrypto hexTexts 2000 (.fill 32 5) link.capB64 ⟨"", ""⟩ = .ok frame ∧
        Authentic (cfg.gateEnv (.fill 32 5)) 87400 frame := by
  rcases toyLink_ok (.fill 16 1) with ⟨link, hlink, hpub, hexp⟩
  rcases toyRelay_ok false with ⟨cfg, hcfg⟩
  have hkey : (toyRelayArgs false).issuerPubkey.map Str.trim = some link.pubHex := by
    rw [hpub]
    exact toyRelay_key false
  have hcrypto : toyRelayHost.crypto.SignVerifies := toyCrypto_signs
  have htexts : toyRelayHost.texts.Reads hexEncoders := hexTexts_reads
  have hlink' : makeConfigLink toyRelayHost.crypto hexEncoders (toyIssuer (.fill 16 1)) toyLinkArgs
      = .ok link := hlink
  have hnow : (toyIssuer (.fill 16 1)).unixNow = .ok 1000 := rfl
  have hiff := configLink_admitted_iff hcrypto htexts hlink' hnow hcfg hkey (.fill 32 5) 2000 87400
  rw [hexp] at hiff
  rcases hiff.mpr (by decide) with ⟨frame, hframe, hauth⟩
  exact ⟨link, cfg, frame, hlink, hcfg, hframe, hauth⟩

section Chain

variable {crypto : Crypto} {texts : TextCodecs} {enc : TextEncoders} {hop next exit : Hop}
  {hops : List Hop} {first : Frame}

def Hop.Started (crypto : Crypto) (texts : TextCodecs) (hop : Hop) (args : RelayArgs)
    (files : Files) : Prop :=
  ∃ host : RelayHost, host.crypto = crypto ∧ host.texts = texts ∧ host.files = files ∧
    startRelay host args = .ok hop.cfg

/--
The relay `hop` was started with the key pair that it generated and a capability for this key from
the issuer of the relay `next`, both from its files.
-/
inductive Enrolled (crypto : Crypto) (texts : TextCodecs) (enc : TextEncoders) (hop next : Hop)
    : Prop where
  | intro (args : RelayArgs) (files : Files) (hstarted : hop.Started crypto texts args files)
    (capFile skFile capText skText : String) (hcapFile : args.chainCapabilityFile = some capFile)
    (hskFile : args.chainVeilSkFile = some skFile) (hcapText : files capFile = .ok capText)
    (hskText : files skFile = .ok skText)
    (seed issuerSeed : ByteArr 32) (cap : CapabilityV2) (encoded : Bytes)
    (hsk : Str.trim skText = (generateRelayKeypair crypto seed).veilSk)
    (hbound : cap.veilPk = crypto.publicKey seed)
    (hsign : CapabilityV2.sign crypto cap.ticketId cap.veilPk roleRelay cap.notBefore cap.notAfter
      suiteClassicV1 cap.scope issuerSeed = .ok cap)
    (hencoded : cap.encode = .ok encoded) (hcap : Str.trim capText = enc.base64 encoded)
    (hissuer : next.cfg.issuerPubkey = crypto.publicKey issuerSeed)
    (hscope : scopeMatches cap.scope next.cfg.relayScope = true)
    (key : ByteArr 32) (hexporter : next.exporter = .ok key)
    (now : UInt64) (hnow : cap.isValidAt now = true)

theorem Enrolled.admits (h : Enrolled crypto texts enc hop next) (hcrypto : crypto.SignVerifies)
    (htexts : texts.Reads enc) (hnext : next.cfg.crypto = crypto)
    : ∃ chain cap key frame now, hop.cfg.chain = some chain ∧
        chain.parseCapability hop.cfg.texts = .ok cap ∧
        chain.authFrame hop.cfg.crypto cap key = .ok frame ∧
        next.cfg.Admits next.exporter now frame := by
  rcases h with ⟨args, files, ⟨host, rfl, rfl, rfl, hstart⟩, capFile, skFile, capText, skText,
    hcapFile, hskFile, hcapText, hskText, seed, issuerSeed, cap, encoded, hsk, hbound, hsign,
    hencoded, hcap, hissuer, hscope, key, hexporter, now, hnow⟩
  have hstarted := startedFrom_of_startRelay hstart
  have hchain := hstarted.chain_eq htexts hcapFile hskFile hcapText hskText hsk
  rw [hcap] at hchain
  have hcred : Accredited (next.cfg.gateEnv key) host.texts ""
      ⟨enc.base64 encoded, hexEncode seed.val⟩ [now] := by
    rw [← hnext] at hsign hbound hissuer
    exact accredited_of_sign htexts hencoded hsign hbound hissuer hscope hnow
  have hverifies : (next.cfg.gateEnv key).crypto.SignVerifies := by
    rw [RelayConfig.gateEnv, hnext]
    exact hcrypto
  rcases authFrame_authentic hverifies hcred List.mem_cons_self with ⟨frame, hframe, hauth⟩
  refine ⟨_, cap, key, frame, now, hchain, ?_, ?_, key, hexporter, hauth now List.mem_cons_self⟩
  . rw [hstarted.texts]
    exact ChainConfig.parseCapability_base64 htexts hencoded rfl
  . rw [ChainConfig.authFrame, hstarted.crypto, ← hnext]
    exact authFrame_of_parseV2 (configured_base64 htexts hencoded seed)
      (parseCapabilityV2_base64 htexts hencoded) (parseVeilSk_hexEncode htexts seed) hframe

/--
The relays of a path from the first one to the exit, each set up for the next one.
-/
inductive Deployed (crypto : Crypto) (texts : TextCodecs) (enc : TextEncoders)
    : List Hop → Hop → Prop where
  | exit {exit : Hop} (args : RelayArgs) (files : Files)
    (hstarted : exit.Started crypto texts args files)
    (hchain : exit.cfg.chain = none) : Deployed crypto texts enc [] exit
  | hop {hop exit : Hop} {hops : List Hop}
    (henrolled : Enrolled crypto texts enc hop (hops.headD exit))
    (hnext : Deployed crypto texts enc hops exit) : Deployed crypto texts enc (hop :: hops) exit

theorem Hop.Started.crypto_eq {args : RelayArgs} {files : Files}
    (h : hop.Started crypto texts args files)
    : hop.cfg.crypto = crypto := by
  rcases h with ⟨host, rfl, _, _, hstart⟩
  exact (startedFrom_of_startRelay hstart).crypto

theorem Deployed.crypto_eq (h : Deployed crypto texts enc hops exit)
    : (hops.headD exit).cfg.crypto = crypto := by
  cases h with
  | exit args files hstarted hchain => exact hstarted.crypto_eq
  | hop henrolled hnext =>
    rcases henrolled with ⟨args, files, hstarted⟩
    exact hstarted.crypto_eq

theorem Deployed.opens {now : UInt64} (h : Deployed crypto texts enc hops exit)
    (hcrypto : crypto.SignVerifies) (htexts : texts.Reads enc)
    (hfirst : (hops.headD exit).cfg.Admits (hops.headD exit).exporter now first)
    : Opens first hops exit := by
  induction h generalizing first now with
  | exit args files hstarted hchain => exact .exit hchain hfirst
  | hop henrolled hnext ih =>
    rcases henrolled.admits hcrypto htexts hnext.crypto_eq
      with ⟨chain, cap, key, frame, _, hchain, hcap, hframe, hadmits⟩
    exact .hop hchain hcap hframe hfirst (ih hadmits)

def ConfigLink.client (link : ConfigLink) (crypto : Crypto) (texts : TextCodecs) (rng : Nat → Rng)
    : ClientConfig :=
  ⟨crypto, texts, link.capB64, ⟨"", ""⟩, rng⟩

end Chain

end Veil
