/- Module: RankGate/Session/ClientSide
   source: client/src/net/protocol.cpp (run_session)
   digest: Fed the server's frames of the script, the client produces its own and accepts them all. -/

import RankGate.Session.ClientSteps
import RankGate.Session.Script

set_option autoImplicit false
set_option relaxedAutoImplicit false

namespace RankGate.Session.Script.Play

open ByteCodec (Bytes zeros)
open RankGate.Crypto (Hashes Primitives)
open RankGate.Handlers.Specs
open RankGate.Server.Config (Env)
open RankGate.Session.ClientSteps (openChallenge_ok openSealedFlag_ok openServerProof1_ok)
open Wire.ChannelLockstep
open Wire.FrameAgreement

variable {P : Primitives} {env : Env} {x : Play}

section WellFormed

section Unconditional

variable (P env x)

theorem length_helloPayload :
    (Client.Protocol.helloPayload P x.client x.name).length = 50 + x.name.length := by
  simp only [Client.Protocol.helloPayload, Client.Constants.be16_eq, List.length_append,
    P.length_x25519Base, x.client.clientRandom.property, ByteCodec.length_beBytes]

theorem challenge_wellFormed : (x.challenge P env).WellFormed := by
  refine sealed_wellFormed _ _ _ _ _ P.toHashes _ (by decide) (by decide)
    x.client.sessionId.property x.server.hello.nonce.property ?_ (ByteCodec.length_zeros 16)
  rw [length_challengePayload]
  decide

theorem serverProof1_wellFormed : (x.serverProof1 P env).WellFormed := by
  refine aeadFrame_wellFormed P _ _ _ _ _ _ (by decide) (by decide)
    x.client.sessionId.property x.server.exchange.nonce.property ?_
  rw [serverProof1Payload, serverChallenge2, length_serverProof1Payload]
  decide

theorem proof2_wellFormed : (x.proof2 P env).WellFormed := by
  refine aeadFrame_wellFormed P _ _ _ _ _ _ (by decide) (by decide)
    x.client.sessionId.property x.client.proof2Nonce.property ?_
  rw [proof2Payload, Server.Verifier.computeProof2, P.length_hmacSha256]
  decide

theorem length_innerBytes_eq : (innerBytes P x.server.finalize (x.keys P env)
    (x.t5 P env).state).length = 88 := by
  have hflag : Server.Config.flag.length = 48 := by decide
  simp [innerBytes, x.server.finalize.sealNonce.property, hflag]

theorem sealedFlag_wellFormed : (x.sealedFlag P env).WellFormed := by
  refine aeadFrame_wellFormed P _ _ _ _ _ _ (by decide) (by decide)
    x.client.sessionId.property x.server.finalize.nonce.property ?_
  rw [length_innerBytes_eq]
  decide

theorem clientSession_keys : (x.clientSession P env).keys =
    ⟨(x.keys P env).c2s, (x.keys P env).s2c, (x.keys P env).mac, (x.keys P env).proof1,
      (x.keys P env).sproof1, (x.keys P env).proof2, (x.keys P env).sealKey⟩ :=
  deriveKeys_eq P.toHashes _

end Unconditional

variable (h : x.Honest P env)

include h

theorem hello_wellFormed : (x.hello P).WellFormed := by
  refine sealed_wellFormed _ _ _ _ _ P.toHashes _ (by decide) (by decide)
    x.client.sessionId.property x.client.helloNonce.property ?_ (ByteCodec.length_zeros 16)
  have hlen := h.canonical.length_le
  rw [length_helloPayload]
  omega

theorem length_proof1Payload : (x.proof1Payload P env).length = 129 := by
  simp [proof1Payload, Client.Protocol.proof1Payload, h.length_license, clientSession,
    h.length_vmDigest, h.length_vmStateHash, Client.Constants.be32_eq,
    Client.ProofBuilder.computeProof1]

theorem proof1_wellFormed : (x.proof1 P env).WellFormed := by
  refine aeadFrame_wellFormed P _ _ _ _ _ _ (by decide) (by decide)
    x.client.sessionId.property x.client.proof1Nonce.property ?_
  rw [length_proof1Payload h]
  decide

end WellFormed

section Client

variable (h : x.Honest P env)

include h

theorem client_hello :
    Client.Protocol.hello P x.client x.name = (narrow (x.hello P), narrowT (x.t1 P)) := by
  have hlen := h.canonical.length_le
  rw [Client.Protocol.hello, client_init, bootstrapMacKey_eq]
  refine client_plainSeal _ _ _ _ _ _ _ _ ?_
  rw [length_helloPayload]
  omega

theorem client_challenge :
    Client.Protocol.openChallenge P (Server.Config.serverSignPk P env) (narrowT (x.t1 P))
      (x.challenge P env).bytes = .ok (x.chal P, narrowT (x.t2 P env)) := by
  have hwf := challenge_wellFormed P env x
  have hopen := client_plainOpen (x.t1 P) (Server.ChallengeLogic.bootstrapMacKey P.toHashes)
    P.toHashes hwf rfl
  rw [← bootstrapMacKey_eq] at hopen
  let c : Wire.Payloads.ChallengeFields := ⟨⟨x.serverPub P, P.length_x25519Base _⟩,
    x.server.hello.serverRandom, ⟨P.ed25519Sign (Server.Config.serverSignSeed P env)
      (Server.Config.signContext ++ (x.t1 P).state ++ x.serverPub P ++ x.serverRandom),
      P.length_ed25519Sign _ _⟩⟩
  have hverify : Client.CryptoBox.ed25519Verify P (Server.Config.serverSignPk P env)
      (Client.Constants.signContext ++ (narrowT (x.t1 P)).state ++ c.serverPub.val ++
        c.serverRandom.val) c.signature.val = true := by
    have hpk : (Server.Config.serverSignPk P env).length = 32 := P.length_ed25519PublicKey _
    rw [Client.CryptoBox.ed25519Verify, if_neg (by simp [hpk, c.signature.property]),
      Client.Constants.signContext, Client.Constants.rgObf_eq]
    exact h.signature _ _
  exact openChallenge_ok c (parse_bytes hwf) hopen hverify

theorem client_establish : Client.Protocol.establish P x.client x.name x.license (x.chal P)
    (narrowT (x.t2 P env)) = .ok (x.clientSession P env) := by
  have hshared : Client.CryptoBox.x25519Shared P x.client.priv.val (x.serverPub P) =
      .ok x.shared := by
    rw [Client.CryptoBox.x25519Shared, h.clientShared]
  exact (Effects.except_bind_ok hshared).trans (Effects.except_bind_ok h.clientVm)

theorem client_proof1 : Client.Protocol.clientProof1 P x.client x.name x.license (x.chal P)
    (x.clientSession P env) (narrowT (x.t2 P env)) =
      (narrow (x.proof1 P env), narrowT (x.t3 P env)) := by
  rw [Client.Protocol.clientProof1, clientSession_keys]
  refine client_aeadSeal P _ _ _ _ _ _ _ _ ?_
  have hlen := length_proof1Payload h
  change (x.proof1Payload P env).length < 2 ^ 32
  rw [hlen]
  decide

theorem client_serverProof1 : Client.Protocol.openServerProof1 P (x.clientSession P env)
    (narrowT (x.t3 P env)) (x.serverProof1 P env).bytes =
      .ok (x.serverChallenge2, narrowT (x.t4 P env)) := by
  have hwf := serverProof1_wellFormed P env x
  have hopen := client_aeadOpen P (x.t3 P env) (x.keys P env).mac (x.keys P env).s2c hwf rfl
    (aeadDecrypt_aeadFrame P _ _ _ _ _ _ h.aead)
  let c : Wire.Payloads.ServerProof1Fields := ⟨⟨P.hmacSha256 (x.keys P env).sproof1
    (ByteCodec.ascii "RG6-SPROOF1/v6" ++ (x.t3 P env).state ++ x.vm.vmDigest ++
      x.serverChallenge2), P.length_hmacSha256 _ _⟩, x.server.exchange.serverChallenge2⟩
  have hkeys := clientSession_keys P env x
  refine openServerProof1_ok c (parse_bytes hwf) ?_ ?_
  · rw [hkeys]
    exact hopen
  · rw [hkeys, Client.Constants.sproof1Label, Client.Constants.rgObf_eq]
    rfl

omit h in
theorem client_proof2 : Client.Protocol.clientProof2 P x.client (x.chal P) (x.clientSession P env)
    x.serverChallenge2 (narrowT (x.t4 P env)) =
      (narrow (x.proof2 P env), narrowT (x.t5 P env)) := by
  rw [Client.Protocol.clientProof2, clientSession_keys, computeProof2_eq]
  refine client_aeadSeal P _ _ _ _ _ _ _ _ ?_
  rw [Server.Verifier.computeProof2, P.length_hmacSha256]
  decide

theorem client_sealedFlag : Client.Protocol.openSealedFlag P (x.clientSession P env)
    (narrowT (x.t5 P env)) (x.sealedFlag P env).bytes = .ok Server.Config.flag := by
  have hwf := sealedFlag_wellFormed P env x
  let sealed := Server.CryptoBox.aeadEncrypt P (sealKeyOf P (x.keys P env) (x.t5 P env).state)
    x.server.finalize.sealNonce.val Server.Config.flag (x.t5 P env).state
  have hopen : Client.Protocol.aeadOpen P (narrowT (x.t5 P env)) (x.clientSession P env).keys.mac
      (x.clientSession P env).keys.s2c (narrow (x.sealedFlag P env)) =
        .ok (x.server.finalize.sealNonce.val ++ sealed.1 ++ sealed.2,
          narrowT ((x.t5 P env).absorb P.toHashes (x.sealedFlag P env).bytes)) := by
    rw [clientSession_keys]
    exact client_aeadOpen P (x.t5 P env) (x.keys P env).mac (x.keys P env).s2c hwf rfl
      (aeadDecrypt_aeadFrame P _ _ _ _ _ _ h.aead)
  have hkey : Client.CryptoBox.hkdf P.toHashes (x.t5 P env).state (x.clientSession P env).keys.sealKey
      Client.Constants.sealInfo 32 = sealKeyOf P (x.keys P env) (x.t5 P env).state := by
    rw [clientSession_keys, Client.CryptoBox.hkdf, Client.CryptoBox.hkdfExpand_32,
      Client.Constants.sealInfo, Client.Constants.rgObf_eq]
    rfl
  have hdec : Server.CryptoBox.aeadDecrypt P (sealKeyOf P (x.keys P env) (x.t5 P env).state)
      x.server.finalize.sealNonce.val sealed.1 sealed.2 (x.t5 P env).state =
        .ok Server.Config.flag := by
    rw [Server.CryptoBox.aeadDecrypt, Server.CryptoBox.aeadEncrypt_append]
    exact h.aead _ _ _ _
  rw [← hkey] at hdec
  exact openSealedFlag_ok (parse_bytes hwf) hopen x.server.finalize.sealNonce.property
    (Server.CryptoBox.length_aeadEncrypt_snd P _ _ _ _) (client_aeadDecrypt P hdec)

end Client

end RankGate.Session.Script.Play
