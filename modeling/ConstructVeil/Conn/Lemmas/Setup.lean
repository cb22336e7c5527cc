import ConstructVeil.Client.Lemmas.Auth
import ConstructVeil.Conn.Impl.Setup
import ConstructVeil.Ffi.Impl.Start
import ConstructVeil.Relay.Lemmas.Signing

/-!
This module contains what is known of a link that was issued and of a relay that was started: the
capability of the link and the text that was signed, and the keys of the relay.
-/

namespace Veil

open Except

/--
What the libraries for base64 and hex promise: a text that was encoded is decoded to the same bytes.
-/
structure TextCodecs.Reads (texts : TextCodecs) (enc : TextEncoders) : Prop where
  base64 : ∀ bytes, texts.base64Decode (enc.base64 bytes) = .ok bytes
  base64_nil : texts.base64Decode "" = .ok []
  hex : ∀ bytes, texts.hexDecode (hexEncode bytes) = .ok bytes

theorem TextCodecs.Reads.base64_ne {texts : TextCodecs} {enc : TextEncoders} {bytes : Bytes}
    (h : texts.Reads enc) (hne : bytes ≠ []) : enc.base64 bytes ≠ "" := by
  intro hempty
  have hdecode := h.base64 bytes
  rw [hempty, h.base64_nil] at hdecode
  injection hdecode with hdecode
  exact hne hdecode.symm

theorem trim_hexEncode (bytes : Bytes) : Str.trim (hexEncode bytes) = hexEncode bytes := by
  have hdigit : ∀ n : Fin 16, Str.isWhitespace (Nat.digitChar n.val) = false := by
    decide
  apply Str.trim_of_forall
  intro c hc
  simp only [hexEncode, String.toList_join, List.flatMap_map, List.mem_flatMap, hexByte,
    String.toList_ofList, List.mem_cons, List.not_mem_nil, or_false] at hc
  rcases hc with ⟨b, _, rfl | rfl⟩
  . exact hdigit ⟨b.toNat / 16, by have := b.toNat_lt; omega⟩
  . exact hdigit ⟨b.toNat % 16, by omega⟩

theorem decodeHex_go_hexEncode (bytes : Bytes)
    : decodeHex.go (hexEncode bytes).toList = some bytes := by
  have hdigit : ∀ n : Fin 16, hexDigit (Nat.digitChar n.val) = some n.val := by
    decide
  induction bytes with
  | nil => rfl
  | cons b bytes ih =>
    have hhi := hdigit ⟨b.toNat / 16, by have := b.toNat_lt; omega⟩
    have hlo := hdigit ⟨b.toNat % 16, by omega⟩
    have hb : b.toNat / 16 * 16 + b.toNat % 16 = b.toNat := by omega
    simp only [hexEncode, String.toList_join, List.map_cons, List.flatMap_cons] at ih ⊢
    rw [hexByte, String.toList_ofList, List.cons_append, List.cons_append, List.nil_append,
      decodeHex.go, hhi, hlo, ih]
    simp only [hb, UInt8.ofNat_toNat]

theorem hexEncode_ne_empty {seed : ByteArr 32} : hexEncode seed.val ≠ "" := by
  intro hempty
  have hdecode := decodeHex_go_hexEncode seed.val
  rw [hempty] at hdecode
  injection hdecode with hnil
  have hlength := seed.property
  rw [← hnil] at hlength
  cases hlength

section Link

variable {crypto : Crypto} {texts : TextCodecs} {enc : TextEncoders} {host : IssuerHost}
  {args : MakeConfigLinkArgs} {link : ConfigLink} {now : UInt64} {cap : Capability}
  {seed : ByteArr 32}

/--
The capability of a link and the seed that signed it, and the text that it signed as well.
-/
structure Issued (crypto : Crypto) (enc : TextEncoders) (host : IssuerHost)
    (args : MakeConfigLinkArgs) (now : UInt64) (link : ConfigLink) (seed : ByteArr 32)
    (cap : Capability) : Prop where
  unixNow : host.unixNow = .ok now
  pubHex : link.pubHex = hexEncode (crypto.publicKey seed).val
  sign : Capability.sign crypto cap.ticket cap.scope seed = .ok cap
  ticket : cap.ticket = ⟨host.ticketId, host.keyBytes, now, link.exp, args.suiteId⟩
  scope : cap.scope = args.scope
  encoded : ∃ encoded, cap.encode = .ok encoded ∧ link.capB64 = enc.base64 encoded
  signed : ∃ text full,
    canonicalConfig enc.json args.toConfigLinkArgs link.capB64 link.exp = .ok text ∧
    enc.json (linkFields args.toConfigLinkArgs link.capB64 link.exp
      ("ed25519:" ++ enc.base64Url (crypto.sign seed (asBytes text)).val)) = .ok full ∧
    link.link = "konstruct://veil-config?d=" ++ enc.base64Url (asBytes full)

theorem makeConfigLink_issued (h : makeConfigLink crypto enc host args = .ok link)
    : ∃ now seed cap, Issued crypto enc host args now link seed cap := by
  rcases bind_eq_ok h with ⟨signingKey, _, h⟩
  rcases bind_eq_ok h with ⟨seed, _, h⟩
  rcases bind_eq_ok h with ⟨now, hnow, h⟩
  rcases bind_eq_ok h with ⟨cap, hsign, h⟩
  rcases bind_eq_ok h with ⟨encoded, hencoded, h⟩
  rcases bind_eq_ok h with ⟨text, htext, h⟩
  rcases bind_eq_ok h with ⟨full, hfull, h⟩
  cases h
  have hsign := mapError_eq_ok hsign
  have hcap := hsign
  rw [Capability.sign_eq_map, map_checkScopeLen_eq_ok_iff] at hcap
  rcases hcap with ⟨_, rfl⟩
  exact ⟨now, seed, _, mapError_eq_ok hnow, rfl, hsign, rfl, rfl,
    ⟨encoded, mapError_eq_ok hencoded, rfl⟩, text, full, mapError_eq_ok htext,
    mapError_eq_ok hfull, rfl⟩

theorem makeConfigLink_issuedAt (h : makeConfigLink crypto enc host args = .ok link)
    (hnow : host.unixNow = .ok now)
    : ∃ seed cap, Issued crypto enc host args now link seed cap := by
  rcases makeConfigLink_issued h with ⟨now', seed, cap, hissued⟩
  rw [hissued.unixNow, Except.ok.injEq] at hnow
  subst hnow
  exact ⟨seed, cap, hissued⟩

theorem makeConfigLink_ok {signingKey : String}
    (hkey : resolveSigningKey host args.signingKeyFile args.signingKey = .ok signingKey)
    (hseed : parseSeed signingKey = .ok seed) (hnow : host.unixNow = .ok now)
    (hscope : (asBytes args.scope).length ≤ maxScopeLen)
    (hjson : ∀ fields, ∃ text, enc.json fields = .ok text)
    : ∃ link, makeConfigLink crypto enc host args = .ok link ∧
        link.pubHex = hexEncode (crypto.publicKey seed).val ∧
        link.exp = now + args.days * 24 * 60 * 60 := by
  let exp := now + args.days * 24 * 60 * 60
  let ticket : Ticket := ⟨host.ticketId, host.keyBytes, now, exp, args.suiteId⟩
  let cap : Capability :=
    ⟨ticket, args.scope, crypto.sign seed (Capability.signingMessage ticket args.scope)⟩
  have hsign : Capability.sign crypto cap.ticket cap.scope seed = .ok cap := by
    rw [Capability.sign_eq_map, map_checkScopeLen_eq_ok_iff]
    exact ⟨hscope, rfl⟩
  rcases Capability.encode_of_sign hsign with ⟨⟨encoded, hencoded⟩, _⟩
  rcases hjson (configFields args.toConfigLinkArgs (enc.base64 encoded) exp) with ⟨text, htext⟩
  rcases hjson (linkFields args.toConfigLinkArgs (enc.base64 encoded) exp
    ("ed25519:" ++ enc.base64Url (crypto.sign seed (asBytes text)).val)) with ⟨full, hfull⟩
  have hmake : makeConfigLink crypto enc host args
      = .ok ⟨hexEncode (crypto.publicKey seed).val, exp, enc.base64 encoded,
          "konstruct://veil-config?d=" ++ enc.base64Url (asBytes full)⟩ := by
    rw [makeConfigLink, hkey, mapError_ok, ok_bind, hseed, ok_bind, hnow, mapError_ok, ok_bind]
    dsimp only [cap, ticket, exp] at hsign hencoded htext hfull ⊢
    rw [hsign, mapError_ok, ok_bind, hencoded, mapError_ok, ok_bind, canonicalConfig, htext,
      mapError_ok, ok_bind, hfull, mapError_ok, ok_bind]
    rfl
  exact ⟨_, hmake, rfl, rfl⟩

theorem Issued.parse (h : Issued crypto enc host args now link seed cap) (htexts : texts.Reads enc)
    : parseCapability texts link.capB64 = .ok cap := by
  rcases h.encoded with ⟨encoded, hencoded, hcapB64⟩
  have hdecode := Capability.decode_of_encode hencoded
  have hne : encoded ≠ [] := by
    rintro rfl
    cases hdecode
  rw [hcapB64, parseCapability, if_neg (htexts.base64_ne hne), htexts.base64]
  dsimp only
  rw [hdecode]

theorem Issued.isValidAt_iff {t : UInt64} (h : Issued crypto enc host args now link seed cap)
    : cap.isValidAt t = true ↔ now ≤ t ∧ t ≤ link.exp := by
  rw [Capability.isValidAt_iff, h.ticket]

theorem Issued.accredited {env : GateEnv} {clocks : List UInt64}
    (h : Issued crypto enc host args now link seed cap) (htexts : texts.Reads enc)
    (hcrypto : env.crypto = crypto) (hissuer : env.issuerPubkey = crypto.publicKey seed)
    (hsuite : args.suiteId = suiteClassicV1)
    (hscope : scopeMatches args.scope env.relayScope = true)
    (hwindow : ∀ t ∈ clocks, now ≤ t ∧ t ≤ link.exp)
    : Accredited env texts link.capB64 ⟨"", ""⟩ clocks := by
  subst hcrypto
  rw [← h.scope] at hscope
  refine .v2 cap seed (by simp) (h.parse htexts) hissuer h.sign ?_ hscope ?_
  . rw [h.ticket]
    exact hsuite
  . intro t ht
    exact h.isValidAt_iff.mpr (hwindow t ht)

end Link

section Relay

variable {texts : TextCodecs} {enc : TextEncoders} {cap : CapabilityV2} {encoded : Bytes}

theorem parseCapabilityV2_base64 (htexts : texts.Reads enc) (hencoded : cap.encode = .ok encoded)
    : parseCapabilityV2 texts (enc.base64 encoded) = .ok cap := by
  rw [parseCapabilityV2, htexts.base64]
  dsimp only
  rw [CapabilityV2.decode_of_encode hencoded]

theorem ChainConfig.parseCapability_base64 {chain : ChainConfig} (htexts : texts.Reads enc)
    (hencoded : cap.encode = .ok encoded) (hcap : chain.capabilityV2B64 = enc.base64 encoded)
    : chain.parseCapability texts = .ok cap := by
  rw [parseCapability, hcap, htexts.base64]
  dsimp only
  rw [CapabilityV2.decode_of_encode hencoded]

theorem parseVeilSk_hexEncode (htexts : texts.Reads enc) (seed : ByteArr 32)
    : parseVeilSk texts (hexEncode seed.val) = .ok seed := by
  rw [parseVeilSk, htexts.hex]
  dsimp only
  rw [dif_pos seed.property]

theorem configured_base64 (htexts : texts.Reads enc) (hencoded : cap.encode = .ok encoded)
    (seed : ByteArr 32) : enc.base64 encoded ≠ "" ∧ hexEncode seed.val ≠ "" := by
  have hdecode := CapabilityV2.decode_of_encode hencoded
  have hne : encoded ≠ [] := by
    rintro rfl
    cases hdecode
  exact ⟨htexts.base64_ne hne, hexEncode_ne_empty⟩

theorem accredited_of_sign {env : GateEnv} {issuerSeed seed : ByteArr 32} {now : UInt64}
    (htexts : texts.Reads enc) (hencoded : cap.encode = .ok encoded)
    (hsign : CapabilityV2.sign env.crypto cap.ticketId cap.veilPk roleRelay cap.notBefore
      cap.notAfter suiteClassicV1 cap.scope issuerSeed = .ok cap)
    (hbound : cap.veilPk = env.crypto.publicKey seed)
    (hissuer : env.issuerPubkey = env.crypto.publicKey issuerSeed)
    (hscope : scopeMatches cap.scope env.relayScope = true) (hnow : cap.isValidAt now = true)
    : Accredited env texts "" ⟨enc.base64 encoded, hexEncode seed.val⟩ [now] := by
  have hrole : cap.role = roleRelay ∧ cap.suiteId = suiteClassicV1 := by
    rw [CapabilityV2.sign_eq_map, map_checkScopeLen_eq_ok_iff] at hsign
    rw [← hsign.2]
    exact ⟨rfl, rfl⟩
  refine .v3 cap issuerSeed seed (configured_base64 htexts hencoded seed)
    (parseCapabilityV2_base64 htexts hencoded) (parseVeilSk_hexEncode htexts seed) hbound hissuer ?_
    (.inr hrole.1) hrole.2 hscope ?_
  . rw [hrole.1, hrole.2]
    exact hsign
  . simpa using hnow

end Relay

section Start

variable {host : RelayHost} {args : RelayArgs} {cfg : RelayConfig} {enc : TextEncoders}

structure StartedFrom (host : RelayHost) (args : RelayArgs) (cfg : RelayConfig) : Prop where
  crypto : cfg.crypto = host.crypto
  texts : cfg.texts = host.texts
  relayScope : cfg.relayScope = args.relayScope
  issuerPubkey : parseIssuerPubkey host args = .ok cfg.issuerPubkey
  chain : chainConfig host args = .ok cfg.chain

theorem startedFrom_of_startRelay (h : startRelay host args = .ok cfg)
    : StartedFrom host args cfg := by
  rcases bind_eq_ok h with ⟨chain, hchain, h⟩
  rcases bind_eq_ok h with ⟨_, _, h⟩
  rcases bind_eq_ok h with ⟨issuerPubkey, hissuer, h⟩
  rcases bind_eq_ok h with ⟨_, _, h⟩
  rcases bind_eq_ok h with ⟨_, _, h⟩
  cases h
  exact ⟨rfl, rfl, rfl, hissuer, hchain⟩

theorem StartedFrom.issuerPubkey_eq {pubkey : ByteArr 32} (h : StartedFrom host args cfg)
    (htexts : host.texts.Reads enc)
    (hkey : args.issuerPubkey.map Str.trim = some (hexEncode pubkey.val))
    : cfg.issuerPubkey = pubkey := by
  rcases Option.map_eq_some_iff.mp hkey with ⟨hexKey, hargs, htrim⟩
  have hissuer := h.issuerPubkey
  rw [parseIssuerPubkey, hargs] at hissuer
  dsimp only at hissuer
  rw [htrim, htexts.hex] at hissuer
  rcases bind_eq_ok hissuer with ⟨bytes, hbytes, hissuer⟩
  cases hbytes
  rw [dif_pos pubkey.property] at hissuer
  exact (Except.ok.inj hissuer).symm

/--
A relay that was started with the key of a link admits the client with this link.
-/
theorem StartedFrom.authentic {issuer : IssuerHost} {linkArgs : MakeConfigLinkArgs}
    {link : ConfigLink} {seed : ByteArr 32} {cap : Capability} {now clientNow relayNow : UInt64}
    (h : StartedFrom host args cfg) (hcrypto : host.crypto.SignVerifies)
    (htexts : host.texts.Reads enc)
    (hissued : Issued host.crypto enc issuer linkArgs now link seed cap)
    (hkey : args.issuerPubkey.map Str.trim = some link.pubHex)
    (hclient : now ≤ clientNow ∧ clientNow ≤ link.exp)
    (hrelay : now ≤ relayNow ∧ relayNow ≤ link.exp) (hsuite : linkArgs.suiteId = suiteClassicV1)
    (hscope : scopeMatches linkArgs.scope args.relayScope = true) (exporter : ByteArr 32)
    : ∃ frame, authFrame host.crypto host.texts clientNow exporter link.capB64 ⟨"", ""⟩
        = .ok frame ∧ Authentic (cfg.gateEnv exporter) relayNow frame := by
  have hpubkey := h.issuerPubkey_eq htexts (hkey.trans (congrArg some hissued.pubHex))
  rw [← h.relayScope] at hscope
  have hcred : Accredited (cfg.gateEnv exporter) host.texts link.capB64 ⟨"", ""⟩
      [clientNow, relayNow] := by
    refine hissued.accredited htexts h.crypto hpubkey hsuite hscope ?_
    simp [hclient, hrelay]
  rw [← h.crypto] at hcrypto ⊢
  rcases authFrame_authentic hcrypto hcred List.mem_cons_self with ⟨frame, hframe, hauth⟩
  exact ⟨frame, hframe, hauth relayNow (List.mem_cons_of_mem _ List.mem_cons_self)⟩

theorem StartedFrom.chain_eq {capFile skFile capText skText : String} {seed : ByteArr 32}
    (h : StartedFrom host args cfg) (htexts : host.texts.Reads enc)
    (hcapFile : args.chainCapabilityFile = some capFile)
    (hskFile : args.chainVeilSkFile = some skFile) (hcapText : host.files capFile = .ok capText)
    (hskText : host.files skFile = .ok skText) (hsk : Str.trim skText = hexEncode seed.val)
    : cfg.chain = some ⟨Str.trim capText, seed⟩ := by
  have hread : readChainConfig host capFile skFile = .ok ⟨Str.trim capText, seed⟩ := by
    rw [readChainConfig, hcapText, hskText]
    simp only [Except.map, hsk, htexts.hex, mapError_ok, ok_bind]
    rw [dif_pos seed.property]
    rfl
  have hchain := h.chain
  unfold chainConfig at hchain
  split at hchain
  . next hcap hsk' =>
    rw [hcapFile, Option.some.injEq] at hcap
    rw [hskFile, Option.some.injEq] at hsk'
    subst hcap hsk'
    rw [hread] at hchain
    exact (Except.ok.inj hchain).symm
  . next hcap _ =>
    rw [hcapFile] at hcap
    cases hcap
  . cases hchain

end Start

end Veil
