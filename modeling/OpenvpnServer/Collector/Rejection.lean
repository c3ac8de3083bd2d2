import OpenvpnServer.Lib.Decode
import OpenvpnServer.Network.Remote

-- Rejected connection attempts in the log lines, and the line that oath.sh writes.
namespace OpenvpnServer.Collector

open OpenvpnServer.Lib
open OpenvpnServer.Config (afterWord)
open OpenvpnServer.Network (digitChar digitsAt wordAt)

-- Digits and letters beyond ASCII, and `time.mktime(time.strptime(..))`, which can be a
-- `ValueError`.
structure LogPython where
  wide : Char → Bool
  letter : Char → Bool
  mktime : Text → Option Int

structure Refused where
  ts : Int
  client : Text
  reason : Text
  address : Text
  deriving DecidableEq, Repr

section Patterns

variable (python : LogPython)

-- \w
def wordChar (c : Char) : Bool :=
  c.isAlphanum || c = '_' || (127 < c.toNat && python.letter c && !pySpace c)

-- [0-9a-fA-F.:]
def addressChar (c : Char) : Bool := isHexDigit c || c = '.' || c = ':'

def stampShape (wide : Char → Bool) : List (Char → Bool) :=
  let digit := digitChar wide
  [digit, digit, digit, digit, (· = '-'), digit, digit, (· = '-'), digit, digit, (· = ' '),
    digit, digit, (· = ':'), digit, digit, (· = ':'), digit, digit]

-- One character for each class; what they matched and what follows.
def matchShape : List (Char → Bool) → Text → Option (Text × Text)
  | [], text => some ([], text)
  | _ :: _, [] => none
  | accepts :: shape, c :: rest =>
      if accepts c then (matchShape shape rest).map fun found => (c :: found.1, found.2) else none

-- _TS
def stampAt (line : Text) : Option (Text × Text) :=
  match matchShape (stampShape python.wide) line with
  | none => none
  | some (stamp, rest) => (afterWord " " rest).map fun rest => (stamp, rest)

-- ([0-9a-fA-F.:]+?) before `next`: as few characters as will do.
def shortestAddress {α : Type} (next : Text → Option α) (text : Text) : Option (Text × α) :=
  (List.range (text.takeWhile addressChar).length).findSome? fun i =>
    (next (text.drop (i + 1))).map fun found => (text.take (i + 1), found)

-- .*?\bCN=([^,/]+), with the character before
def commonName (before : Char) : Text → Option Text
  | [] => none
  | c :: rest =>
      let name := (((afterWord "CN=" (c :: rest)).getD []).takeWhile fun d => d ≠ ',' && d ≠ '/')
      if wordChar python before = false ∧ name ≠ [] then some name
      else if c = '\n' then none
      else commonName c rest

-- :\d+ VERIFY ERROR: depth=0, error=([^:]+):.*?\bCN=([^,/]+)
def verifyErrorAt (text : Text) : Option (Text × Text) := do
  let rest ← afterWord ":" text
  let (_, rest) ← digitsAt python.wide rest
  let rest ← afterWord " VERIFY ERROR: depth=0, error=" rest
  let (error, rest) ← cutFirst ':' rest
  if error = [] then none
  else (commonName python ':' rest).map fun name => (error, name)

def refusedCertificate (text : Text) : Option (Text × Text × Text) :=
  let word := text.takeWhile fun c => wordChar python c || c = '-'
  if word = [] then none
  else do
    let rest ← afterWord ":" (text.drop word.length)
    let (address, error, name) ← shortestAddress (verifyErrorAt python) rest
    pure (name, error, address)

-- A profile from another server, or a scanner.
def unknownKey (text : Text) : Option (Text × Text × Text) := do
  let rest ← afterWord "TLS Error: " text
  let rest ← (afterWord "tls-crypt unwrapping failed" rest).or
    ((afterWord "incoming packet authentication failed" rest).or
      (afterWord "could not determine wrapping" rest))
  let rest ← afterWord " from [AF_INET" rest
  let rest ← afterWord "]" ((afterWord "6" rest).getD rest)
  let (address, _) ← shortestAddress
    (fun rest => (afterWord ":" rest).bind (digitsAt python.wide)) rest
  pure ([], "unknown control channel key".toList, address)

-- ([^']*)' from='([^']*)' reason=(\S+)
def fieldsAt (text : Text) : Option (Text × Text × Text) := do
  let (client, rest) ← cutFirst '\'' text
  let rest ← afterWord " from='" rest
  let (address, rest) ← cutFirst '\'' rest
  let rest ← afterWord " reason=" rest
  let (reason, _) ← wordAt rest
  pure (client, address, reason)

-- `reason.replace("-", " ")`
def plainReason (reason : Text) : Text := reason.map fun c => if c = '-' then ' ' else c

-- [^']*' cn='([^']*)' from='([^']*)' reason=(\S+)
def afterUser (text : Text) : Option (Text × Text × Text) := do
  let (_, rest) ← cutFirst '\'' text
  let rest ← afterWord " cn='" rest
  fieldsAt rest

def failedCode (text : Text) : Option (Text × Text × Text) := do
  let rest ← afterWord "2FA FAIL user='" text
  let (client, address, reason) ← afterUser rest
  pure (client, "2FA: ".toList ++ plainReason reason, address)

-- One certificate on too many devices, or the guest range is full.
def refusedAccess (text : Text) : Option (Text × Text × Text) := do
  let rest ← afterWord "client-access: refused cn='" text
  let (client, address, reason) ← fieldsAt rest
  pure (client, plainReason reason, address)

def rejectionAt (line : Text) : Option (Text × Text × Text × Text) :=
  match stampAt python line with
  | none => none
  | some (stamp, rest) =>
      ((refusedCertificate python rest).or ((unknownKey python rest).or
        ((failedCode rest).or (refusedAccess rest)))).map fun fields => (stamp, fields)

def parseRejection (line : Text) : Except Unit (Option Refused) :=
  match rejectionAt python line with
  | none => .ok none
  | some (stamp, client, reason, address) =>
      match python.mktime stamp with
      | none => .error ()
      | some ts => .ok (some ⟨ts, client, reason, address⟩)

-- What `read_logs` records of the lines. An exception undoes all of it.
def rejections : List Text → Except Unit (List Refused)
  | [] => .ok []
  | line :: rest =>
      match parseRejection python line, rejections rest with
      | .ok hit, .ok later => .ok (hit.toList ++ later)
      | _, _ => .error ()

end Patterns

section Oath

inductive FailReason where
  | emptyUsername
  | usernameDoesNotMatchCertificate
  | malformedCode
  | secretsFileUnreadable
  | noSecretEnrolled
  | tooManyWrongCodes
  | wrongCode
  | codeAlreadyUsed
  deriving DecidableEq, Repr

def FailReason.text : FailReason → Text
  | .emptyUsername => "empty-username".toList
  | .usernameDoesNotMatchCertificate => "username-does-not-match-certificate".toList
  | .malformedCode => "malformed-code".toList
  | .secretsFileUnreadable => "secrets-file-unreadable".toList
  | .noSecretEnrolled => "no-secret-enrolled".toList
  | .tooManyWrongCodes => "too-many-wrong-codes".toList
  | .wrongCode => "wrong-code".toList
  | .codeAlreadyUsed => "code-already-used".toList

-- `date '+%Y-%m-%d %H:%M:%S'`
def IsStamp (wide : Char → Bool) (stamp : Text) : Prop :=
  matchShape (stampShape wide) stamp = some (stamp, [])

instance (wide : Char → Bool) (stamp : Text) : Decidable (IsStamp wide stamp) :=
  inferInstanceAs (Decidable (_ = _))

-- Before and behind the user name.
def failHead (stamp : Text) : Text := stamp ++ " 2FA FAIL user='".toList

def failTail (cn ip : Text) (reason : FailReason) : Text :=
  "' cn='".toList ++ cn ++ "' from='".toList ++ ip ++ "' reason=".toList ++ reason.text

-- `${untrusted_ip:-?}`
def shownAddress (untrustedIp : Text) : Text := if untrustedIp = [] then ['?'] else untrustedIp

-- `fail`; the user name is written as it came.
def failLine (stamp : Text) (user : List UInt8) (cn untrustedIp : Text) (reason : FailReason) :
    List UInt8 :=
  utf8 (failHead stamp) ++ user ++ utf8 (failTail cn (shownAddress untrustedIp) reason ++ ['\n'])

end Oath

end OpenvpnServer.Collector
