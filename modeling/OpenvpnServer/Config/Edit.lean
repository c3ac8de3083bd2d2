import OpenvpnServer.Config.OptionName
import OpenvpnServer.Lib.Python
import OpenvpnServer.Lib.Run

namespace OpenvpnServer.Config

open OpenvpnServer.Lib

inductive Which where
  | server
  | client
  | vars
  deriving DecidableEq, Repr

-- CONFIG_FILES
def Which.file : Which → String
  | .server => "server.conf"
  | .client => "config/client.conf"
  | .vars => "pki/vars"

-- How a request ends without a change: a `PkiError`, or the exception of
-- `read_text` on bytes that are no UTF-8.
inductive Failure where
  | pki (message : String)
  | unicodeDecode
  deriving DecidableEq, Repr

def tfaLines : List Text :=
  ["auth-user-pass-verify /opt/app/bin/oath.sh via-file", "auth-gen-token 43200"].map String.toList

def maxLine : Nat := 255

def bom : Char := '\ufeff'

-- replace("\r\n", "\n")
def replaceCrLf : Text → Text
  | '\r' :: '\n' :: rest => '\n' :: replaceCrLf rest
  | c :: rest => c :: replaceCrLf rest
  | [] => []

-- An absent file reads as the empty one.
def readConfig (disk : Bytes) : Except Failure Text :=
  match utf8Decode? disk with
  | some text => .ok (universalNewlines text)
  | none => .error .unicodeDecode

-- [\x00-\x08\x0b-\x1f\x7f]
def isControl (c : Char) : Bool :=
  c.toNat ≤ 8 || (11 ≤ c.toNat && c.toNat ≤ 31) || c.toNat = 127

section Vars

def isBlank (c : Char) : Bool := c = ' ' || c = '\t'

-- [ \t]+
def afterBlanks : Text → Option Text
  | [] => none
  | c :: rest => if isBlank c then some (rest.dropWhile isBlank) else none

def afterWord (word : String) (text : Text) : Option Text :=
  if word.toList.isPrefixOf text then some (text.drop word.length) else none

theorem eq_of_afterWord {word : String} {text rest : Text} (h : afterWord word text = some rest) :
    text = word.toList ++ rest := by
  unfold afterWord at h
  split at h
  · rename_i hprefix
    cases h
    obtain ⟨more, rfl⟩ := List.isPrefixOf_iff_prefix.mp hprefix
    rw [← String.length_toList, List.drop_left]
  · cases h

def varsNames : List String :=
  ["DN", "REQ_COUNTRY", "REQ_PROVINCE", "REQ_CITY", "REQ_ORG", "REQ_EMAIL", "REQ_OU", "REQ_CN",
    "REQ_SERIAL", "ALGO", "CURVE", "KEY_SIZE", "DIGEST", "CA_EXPIRE", "CERT_EXPIRE", "CRL_DAYS",
    "CERT_RENEW", "PRE_EXPIRY_WINDOW", "RAND_SN", "NS_SUPPORT", "NS_COMMENT"]

-- What follows a value: a quoted one without quote, dollar, backquote and
-- backslash, or a plain one.
def afterValue : Text → Option Text
  | '"' :: rest =>
      let after := rest.dropWhile fun c => c ∉ ['"', '$', Char.ofNat 96, '\\']
      if after.head? = some '"' then some after.tail else none
  | text =>
      let plain (c : Char) : Bool := c.isAlphanum || c ∈ "_.,@:/+-".toList
      if text.head?.any plain then some (text.dropWhile plain) else none

-- ([ \t]+#.*)? up to the end of the line
def isComment (text : Text) : Bool :=
  text.isEmpty || (afterBlanks text).any fun rest => rest.head? = some '#'

-- _VARS_LINE.fullmatch
def isVarsLine (line : Text) : Bool :=
  (((afterWord "set_var" line).bind afterBlanks).bind (afterWord "EASYRSA_")).any fun rest =>
    varsNames.any fun name =>
      (((afterWord name rest).bind afterBlanks).bind afterValue).any isComment

end Vars

-- What a line of the editor may be without any check.
def known (current : Text) : List Text := (current.splitOn '\n').map strip ++ tfaLines

def removeBom (content : Text) : Text :=
  if content.head? = some bom then content.tail else content

def submittedLines (content : Text) : List Text := (removeBom (replaceCrLf content)).splitOn '\n'

def varsRefused (n : Nat) : Failure :=
  .pki (s!"Line {n}: only comments and 'set_var EASYRSA_... value' lines for the certificate " ++
    "fields, key type and lifetimes can be added here")

def tooLong (n : Nat) : Failure :=
  .pki s!"Line {n} is longer than {maxLine} bytes, which OpenVPN does not read as one line"

def privilegedRefused (which : Which) (n : Nat) (name : String) : Failure :=
  .pki (s!"Line {n}: '{name}' runs a program or redirects a file. Such a line cannot " ++
    s!"be added or changed here - edit {which.file} on the server instead.")

def checkLine (which : Which) (known : List Text) (n : Nat) (raw : Text) : Except Failure Unit :=
  let line := strip raw
  if line ∈ known then .ok ()
  else
    match which with
    | .vars =>
        if line ≠ [] ∧ line.head? ≠ some '#' ∧ isVarsLine line = false then .error (varsRefused n)
        else .ok ()
    | _ =>
        if maxLine < (utf8 raw).length then .error (tooLong n)
        else if optionName raw ∈ privileged then
          .error (privilegedRefused which n (String.ofList (optionName raw)))
        else .ok ()

-- `n` is the number of the first line.
def checkLines (which : Which) (known : List Text) : Nat → List Text → Except Failure Unit
  | _, [] => .ok ()
  | n, raw :: rest =>
      match checkLine which known n raw with
      | .error failure => .error failure
      | .ok () => checkLines which known (n + 1) rest

def checkEdit (which : Which) (disk : Bytes) (content : Text) : Except Failure Unit :=
  if (replaceCrLf content).any isControl then
    .error (.pki "The file contains control characters")
  else
    match readConfig disk with
    | .error failure => .error failure
    | .ok current => checkLines which (known current) 1 (submittedLines content)

def afterNewlines : Text → List Text
  | [] => []
  | c :: rest => if c = '\n' then rest :: afterNewlines rest else afterNewlines rest

-- re.search(r"^\s*management\s+", content, re.M)
def keepsManagement (content : Text) : Bool :=
  (content :: afterNewlines content).any fun start =>
    (afterWord "management" (start.dropWhile pySpace)).any fun rest => rest.head?.any pySpace

def endLine (content : Text) : Text :=
  if content.getLast? = some '\n' then content else content ++ ['\n']

def writeConfig (which : Which) (content : Text) : Except Failure Bytes :=
  if 200000 < content.length then .error (.pki "Configuration file too large")
  else
    let content := endLine (replaceCrLf content)
    if which = .server ∧ keepsManagement content = false then
      .error (.pki "server.conf must keep the 'management' line - the UI needs it")
    else .ok (utf8 content)

-- The request that saves an edit; both calls are made under one lock.
def putConfig (which : Which) (disk : Bytes) (content : Text) : Except Failure Bytes :=
  match checkEdit which disk content with
  | .error failure => .error failure
  | .ok () => writeConfig which content

def editStep (which : Which) (disk : Bytes) (content : Text) : Option Bytes :=
  match putConfig which disk content with
  | .error _ => none
  | .ok after => some after

end OpenvpnServer.Config
