import OpenvpnServer.Lib.Utf8

namespace OpenvpnServer.Config

open OpenvpnServer.Lib

-- Options that run a program, load code or write a file.
def privileged : List Text :=
  ["up", "down", "ipchange", "route-up", "route-pre-down", "tls-verify", "auth-user-pass-verify",
    "client-connect", "client-disconnect", "client-crresponse", "learn-address", "dns-updown",
    "tls-crypt-v2-verify", "tls-export-cert", "plugin",
    "engine", "providers", "pkcs11-providers", "iproute",
    "script-security", "setenv", "setenv-safe", "config", "cd", "chroot", "daemon",
    "log", "log-append", "status", "writepid", "ifconfig-pool-persist", "replay-persist", "tmp-dir",
    "management-client-user", "management-client-group"].map String.toList

-- _C_SPACE
def cSpace (c : Char) : Bool := c ∈ [' ', '\t', '\n', '\x0b', '\x0c', '\r']

def rstrip (line : Text) : Text := line.rdropWhile cSpace

def strip (line : Text) : Text := (rstrip line).dropWhile cSpace

inductive ParseState where
  | start
  | plain
  | double
  | single
  deriving DecidableEq, Repr

def ParseState.closes (state : ParseState) (backslash : Bool) (ch : Char) : Bool :=
  match state with
  | .start => false
  | .plain => (ch = '\x00' || cSpace ch) && !backslash
  | .double => ch = '"' && !backslash
  | .single => ch = '\''

-- The loop of `option_name`, from a state on.
def firstWord : ParseState → Bool → Text → Text
  | _, _, [] => []
  | state, backslash, ch :: rest =>
      if ch = '\\' ∧ backslash = false ∧ state ≠ .single then firstWord state true rest
      else if state = .start then
        if ch = '\x00' || cSpace ch then firstWord .start false rest
        else if ch = ';' ∨ ch = '#' then []
        else if ch = '"' ∧ backslash = false then firstWord .double false rest
        else if ch = '\'' ∧ backslash = false then firstWord .single false rest
        else ch :: firstWord .plain false rest
      else if state.closes backslash ch then []
      else if ch ≠ '\x00' then ch :: firstWord state false rest
      else firstWord state false rest

def dropDashes (word : Text) : Text :=
  if 3 ≤ word.length ∧ ['-', '-'].isPrefixOf word then word.drop 2 else word

def dropBrackets (word : Text) : Text :=
  if word.head? = some '<' ∧ word.getLast? = some '>' then word.tail.dropLast else word

def optionName (line : Text) : Text :=
  dropBrackets (dropDashes (firstWord .start false (line ++ ['\x00'])))

example : optionName "\"up\"/tmp/x.sh".toList = "up".toList := by decide
example : optionName "\t--u\\p\t/tmp/x.sh".toList = "up".toList := by decide
example : optionName "  <plugin>".toList = "plugin".toList := by decide

end OpenvpnServer.Config
