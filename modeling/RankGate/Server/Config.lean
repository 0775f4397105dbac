/- Module: RankGate/Server/Config
   source: server/app/config.py, server/app/errors.py
   digest: Wire constants, domain labels, seeds from the environment, and the exceptions of the server. -/

import RankGate.Crypto.Primitives
import RankGate.Foundation.Effects

set_option autoImplicit false
set_option relaxedAutoImplicit false

namespace RankGate.Server.Config

open ByteCodec (Bytes BytesN ascii beBytes toBytes?)
open RankGate.Crypto (Primitives)

/-- What a handler can raise. The first two carry the stage and detail of errors.py; the rest
are the built-in exceptions that reach the generic reply through `except Exception`. -/
inductive Failure
  | proofError (stage detail : String)
  | protocolError (stage detail : String)
  | keyError (key : String)
  | indexError
  | valueError
  | overflowError
  | runtimeError
  deriving DecidableEq

/-- `int.to_bytes(n, "big")`. -/
def toBytes (n v : Nat) : Except Failure Bytes :=
  match toBytes? n v with
  | some b => .ok b
  | none => .error .overflowError

theorem toBytes_eq {n v : Nat} (h : v < 256 ^ n) : toBytes n v = .ok (beBytes n v) := by
  rw [toBytes, ByteCodec.toBytes?_eq_some h]

theorem mapM_toBytes {n : Nat} {l : List Nat} (h : ∀ v ∈ l, v < 256 ^ n) :
    l.mapM (toBytes n) = .ok (l.map (beBytes n)) :=
  Effects.mapM_eq_ok fun v hv => toBytes_eq (h v hv)

def magic : Bytes := ascii "RG6" ++ [0x00]
def protoVersion : Nat := 6

def mtHello : Nat := 0x01
def mtServerChallenge : Nat := 0x02
def mtClientProof1 : Nat := 0x03
def mtServerProof1 : Nat := 0x04
def mtClientProof2 : Nat := 0x05
def mtFinalize : Nat := 0x06
def mtSealedFlag : Nat := 0x07

def szMagic : Nat := 4
def szVersion : Nat := 1
def szMsgtype : Nat := 1
def szSessionId : Nat := 16
def szCounter : Nat := 8
def szNonce : Nat := 24
def szPaylen : Nat := 4
def szAuthtag : Nat := 16
def szTranscriptMac : Nat := 32

def headerSize : Nat :=
  szMagic + szVersion + szMsgtype + szSessionId + szCounter + szNonce + szPaylen

def transcriptSeed : Bytes := ascii "RG6-TRANSCRIPT/v6"
def bootstrapMacLabel : Bytes := ascii "RG6-BOOTSTRAP-MAC/v6"

def hkdfC2s : Bytes := ascii "RG6 c2s aead"
def hkdfS2c : Bytes := ascii "RG6 s2c aead"
def hkdfMac : Bytes := ascii "RG6 transcript mac"
def hkdfProof1 : Bytes := ascii "RG6 client proof1"
def hkdfSproof1 : Bytes := ascii "RG6 server proof1"
def hkdfProof2 : Bytes := ascii "RG6 client proof2"
def hkdfSeal : Bytes := ascii "RG6 final seal"

def signContext : Bytes := ascii "RG6-SERVER-CHALLENGE/v6"

def licensePrefix : List Nat := "RG6".toList.map Char.toNat
def licenseVersion : Nat := 6
def licenseFragmentDomain : Bytes := ascii "RG6-LICENSE-FRAGMENT/v6"
def licenseChecksumDomain : Bytes := ascii "RG6-LICENSE-CHECKSUM/v6"
def licenseStructSize : Nat := 25

def vmInputDomain : Bytes := ascii "RG6-VM-INPUT/v6"
def vmBlobDomain : Bytes := ascii "RG6-VM-BLOB/v6"
def vmMemWords : Nat := 64
def vmNumRegs : Nat := 16
def vmUsernameCap : Nat := 64

def flag : Bytes := ascii "FLAG\x7brankgate_insane_protocol_vm_server_mastery\x7d"

/-- The seed overrides found in the environment. `_seed32` refuses any other length. -/
structure Env where
  signSeed : Option (BytesN 32)
  licenseSecret : Option (BytesN 32)
  vmBlobKey : Option (BytesN 32)

def seed32 (P : Primitives) (override : Option (BytesN 32)) (defaultText : Bytes) : Bytes :=
  match override with
  | some raw => raw.val
  | none => P.blake2b defaultText [] 32

def serverSignSeed (P : Primitives) (env : Env) : Bytes :=
  seed32 P env.signSeed (ascii "rankgate-insane-ed25519-signing-seed/v6")

def serverSignPk (P : Primitives) (env : Env) : Bytes :=
  P.ed25519PublicKey (serverSignSeed P env)

def licenseSecret (P : Primitives) (env : Env) : Bytes :=
  seed32 P env.licenseSecret (ascii "rankgate-insane-license-hmac-secret/v6")

def vmBlobKey (P : Primitives) (env : Env) : Bytes :=
  seed32 P env.vmBlobKey (ascii "rankgate-insane-vm-blob-obfuscation/v6")

theorem length_seed32 (P : Primitives) (override : Option (BytesN 32)) (defaultText : Bytes) :
    (seed32 P override defaultText).length = 32 := by
  cases override with
  | some raw => exact raw.property
  | none => exact P.length_blake2b defaultText [] 32 (by simp) (by omega) (by omega)

end RankGate.Server.Config
