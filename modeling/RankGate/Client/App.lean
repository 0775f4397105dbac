/- Module: RankGate/Client/App
   source: client/src/app.cpp, client/src/protection/anti_debug.cpp,
     client/src/protection/anti_tamper.cpp
   digest: The command line, the portal, and the two verdicts. -/

import RankGate.Client.Decoys
import RankGate.Client.LicenseFormat
import RankGate.Client.Transport

set_option autoImplicit false
set_option relaxedAutoImplicit false

namespace RankGate.Client.App

open ByteCodec (Bytes ascii)
open Protocol (Draws)
open RankGate.Crypto (Primitives)
open Transport (Network)

structure Args where
  server : Bytes := ascii "http://127.0.0.1:31337"
  username : Bytes := []
  license : Bytes := []
  haveUsername : Bool := false
  haveLicense : Bool := false
  noProtection : Bool := false
  verbose : Bool := false
  help : Bool := false
  deriving DecidableEq

/-- Options that take the next argument: the name that an error gives, and the assignment. -/
def valued? (s : Bytes) : Option (String × (Bytes → Args → Args)) :=
  if s = ascii "--server" then some ("--server", fun v a => { a with server := v })
  else if s = ascii "--username" ∨ s = ascii "-u" then
    some ("--username", fun v a => { a with username := v, haveUsername := true })
  else if s = ascii "--license" ∨ s = ascii "-l" then
    some ("--license", fun v a => { a with license := v, haveLicense := true })
  else none

def flag? (s : Bytes) : Option (Args → Args) :=
  if s = ascii "--no-protection" then some fun a => { a with noProtection := true }
  else if s = ascii "--verbose" ∨ s = ascii "-v" then some fun a => { a with verbose := true }
  else if s = ascii "--help" ∨ s = ascii "-h" then some fun a => { a with help := true }
  else none

def parseArgs : List Bytes → Args → Except String Args
  | [], a => .ok a
  | [s], a =>
    match valued? s, flag? s with
    | some (what, _), _ => .error ("missing value for " ++ what)
    | none, some set => .ok (set a)
    | none, none => .error ("unknown argument: " ++ Transport.chars s)
  | s :: v :: argv, a =>
    match valued? s, flag? s with
    | some (_, set), _ => parseArgs argv (set v a)
    | none, some set => parseArgs (v :: argv) (set a)
    | none, none => .error ("unknown argument: " ++ Transport.chars s)

/-! The checks of the environment, which only report. -/

/-- What the operating system says of the process, and the sums over its `.text`. -/
structure Surroundings where
  debugger : Bool
  remote : Bool
  peb : Bool
  hwbp : Bool
  slow : Bool
  textChecksum : UInt32
  int3Count : UInt32

def kConstTable : List UInt32 := [0x9E3779B9, 0x85EBCA77, 0xC2B2AE3D, 0x27D4EB2F, 0x165667B1,
  0xD1B54A33, 0x811C9DC5, 0x01000193]

def tableSum (table : List UInt32) : UInt32 :=
  table.foldl (fun s v => (s ^^^ v) * 0x01000193 + 0xABCD) 0x12345678

/-- The expected value is computed from the same table at compile time. -/
def constTableExpected : UInt32 := tableSum kConstTable

def digit (b : Bool) : Bytes := if b then [0x31] else [0x30]

def runGuards (w : Surroundings) (verbose : Bool) : List Bytes :=
  let constTableOk := tableSum kConstTable == constTableExpected
  let watched := w.debugger || w.remote || w.peb || w.hwbp || w.slow
  let report :=
    if verbose then
      [ascii "[*] guards: IsDebuggerPresent=" ++ digit w.debugger ++ ascii " remote=" ++
          digit w.remote ++ ascii " peb=" ++ digit w.peb ++ ascii " hwbp=" ++ digit w.hwbp ++
          ascii " timing=" ++ digit w.slow ++ ascii "\n",
        ascii "[*] guards: const_table_ok=" ++ digit constTableOk ++ ascii " text_cs=" ++
          Decoys.hex08 w.textChecksum ++ ascii " int3=" ++ ascii (Nat.repr w.int3Count.toNat) ++
          ascii "\n"]
    else []
  let warning :=
    if watched && verbose then
      [ascii "[*] guards: analysis environment detected (harmless, continuing)\n"]
    else []
  report ++ warning

def printHelp : List Bytes := [ascii (
  "RankGate License Portal\n" ++
  "Usage: rankgate [options]\n" ++
  "  --server URL        license server (default http://127.0.0.1:31337)\n" ++
  "  -u, --username U     username (prompted if omitted)\n" ++
  "  -l, --license  K     license key (prompted if omitted)\n" ++
  "  --no-protection      disable challenge-only anti-analysis checks\n" ++
  "  -v, --verbose        print protocol progress\n" ++
  "  -h, --help           show this help\n")]

def banner : List Bytes := [ascii "==============================\n",
  ascii "   RankGate License Portal\n", ascii "==============================\n"]

/-- The value given on the command line, or the next line of the input, if there is one. -/
def ask (given : Bool) (value : Bytes) (label : String) (input : List Bytes) :
    Bytes × List Bytes × List Bytes :=
  if given then (value, [], input) else (input.headD [], [ascii label], input.tail)

/-- `printf("%s\n")` on the flag stops at a NUL. -/
def granted (flag : Bytes) : List Bytes :=
  [ascii "\nACCESS GRANTED\n", flag.takeWhile (· ≠ 0) ++ ascii "\n"]

def denied : List Bytes := [ascii "\nACCESS DENIED\n", ascii "invalid username or license\n"]

/-- How the program ends: the exit code, and what it has printed. -/
structure Exit where
  code : Int
  out : List Bytes
  deriving DecidableEq

def entered (args : Args) (input : List Bytes) : Bytes × Bytes × List Bytes :=
  let (username, askedName, input) := ask args.haveUsername args.username "Username   : " input
  let (license, askedLicense, _) := ask args.haveLicense args.license "License key: " input
  (username, license, askedName ++ askedLicense)

def preamble (w : Surroundings) (args : Args) (input : List Bytes) : List Bytes :=
  let guards :=
    if args.noProtection then
      if args.verbose then [ascii "[*] protection disabled (--no-protection)\n"] else []
    else runGuards w args.verbose
  let (username, license, prompts) := entered args input
  banner ++ guards ++ prompts ++ (Decoys.decoyPreflight username license args.verbose).1

def conclude (verbose : Bool) (printed : List Bytes) : Except String Bytes → Exit
  | .ok flag => ⟨0, printed ++ granted flag⟩
  | .error e =>
    let reason := if verbose then [ascii ("[-] " ++ e ++ "\n")] else []
    ⟨1, printed ++ reason ++ denied⟩

section Run

variable {m : Type → Type} [Monad m] (P : Primitives) (net : Network m) (d : Draws)

/-- The `try` block: name, license, session. -/
def attempt (server username license : Bytes) : ExceptT String m Bytes := do
  let uname ← LicenseFormat.normalizeUsername username
  let lic ← LicenseFormat.decodeLicense license
  Transport.runSession P net server d uname lic

def portal (w : Surroundings) (args : Args) (input : List Bytes) : m Exit := do
  let (username, license, _) := entered args input
  let outcome ← (attempt P net d args.server username license).run
  return conclude args.verbose (preamble w args input) outcome

def runApp (w : Surroundings) (argv input : List Bytes) : m Exit :=
  match parseArgs argv {} with
  | .error e => return ⟨2, [ascii ("error: " ++ e ++ "\n")] ++ printHelp⟩
  | .ok args => if args.help then return ⟨0, printHelp⟩ else portal P net d w args input

end Run

end RankGate.Client.App
