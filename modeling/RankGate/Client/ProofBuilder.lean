/- Module: RankGate/Client/ProofBuilder
   source: client/src/challenge/proof_builder.cpp
   digest: The two nonce-bound proofs as the client computes them. -/

import RankGate.Client.Vm

set_option autoImplicit false
set_option relaxedAutoImplicit false

namespace RankGate.Client.ProofBuilder

open ByteCodec (Bytes)
open RankGate.Crypto (Hashes)
open Constants (be16 be32)
open Vm (VMResult)

def computeProof1 (H : Hashes) (kProof1 usernameNorm licenseStruct : Bytes) (vm : VMResult)
    (serverRandom sessionId transcriptPrefix : Bytes) : Bytes :=
  H.hmacSha256 kProof1 (Constants.proof1Label ++ be16 (UInt16.ofNat usernameNorm.length) ++
    usernameNorm ++ licenseStruct ++ vm.vmDigest ++ vm.vmStateHash ++ be32 vm.vmPathId ++
    be32 vm.vmHaltCode ++ serverRandom ++ sessionId ++ transcriptPrefix)

def computeProof2 (H : Hashes) (kProof2 serverChallenge2 serverRandom serverPub vmDigest
    transcriptPrefix : Bytes) : Bytes :=
  H.hmacSha256 kProof2 (Constants.proof2Label ++ serverChallenge2 ++ serverRandom ++ serverPub ++
    vmDigest ++ transcriptPrefix)

end RankGate.Client.ProofBuilder
