import OpenvpnServer.Lib.Dict
import OpenvpnServer.Lib.Run
import OpenvpnServer.Lib.Text

namespace OpenvpnServer.Oath

open OpenvpnServer.Lib

-- A line "time code" of the codes accepted lately.
structure Line where
  time : Nat
  code : Text
  deriving DecidableEq, Repr

-- The two files of one client: its accepted codes, and the two words of
-- `$state.fail`, the wrong codes in a row and the time of the last.
structure Files where
  used : List Line
  fail : Option (Text × Text)
  deriving DecidableEq, Repr

def Files.absent : Files := ⟨[], none⟩

inductive Reason where
  | emptyUsername
  | usernameDoesNotMatchCertificate
  | malformedCode
  | secretsFileUnreadable
  | noSecretEnrolled
  | tooManyWrongCodes
  | wrongCode
  | codeAlreadyUsed
  deriving DecidableEq, Repr

-- $(sed -n "$n p" "$PASSFILE")
def passLine (n : Nat) (passFile : Text) : Text := ((passFile.splitOn '\n')[n - 1]?).getD []

-- ^[0-9]{6,8}$
def validCode (code : Text) : Bool := code.all Char.isDigit && 6 ≤ code.length && code.length ≤ 8

-- The number awk compares a code by: both sides look like numbers.
def value (code : Text) : Nat := Nat.ofDigitChars 10 code 0

-- The wrong codes in a row that still count. The script writes both words in
-- decimal, and anything else counts as no wrong code.
def wrongCodes (fail : Option (Text × Text)) (now : Nat) : Nat :=
  match fail with
  | none => 0
  | some (fails, last) =>
      match decimal? fails, decimal? last with
      | some fails, some last => if last + 300 ≤ now then 0 else fails
      | _, _ => 0

-- awk '$1 >= now - 120 && $2 == c'
def usedLately (used : List Line) (now : Nat) (code : Text) : Bool :=
  used.any fun line => now ≤ line.time + 120 && value line.code = value code

section Verify

-- The truncated HMAC of a secret and a time step, before its last digits are
-- taken.
variable (hotp : Text → Nat → Nat)

def totp (secret : Text) (digits step : Nat) : Text :=
  List.leftpad digits '0' (Nat.toDigits 10 (hotp secret step % 10 ^ digits))

-- A text is a step's code if it is the step's value with that many digits.
def generated (secret : Text) (step : Nat) (code : Text) : Bool :=
  code = totp hotp secret code.length step

-- The current 30-second step and the ones within one of it.
def window (now : Nat) : List Nat := [now / 30 - 1, now / 30, now / 30 + 1]

-- oathtool --totp -w 1 "$secret" "$code"
def oathtool (secret : Text) (now : Nat) (code : Text) : Bool :=
  (window now).any fun step => generated hotp secret step code

-- The script from the client's state files on.
def checkCode (files : Files) (secret code : Text) (now : Nat) : Except Reason Unit × Files :=
  let fails := wrongCodes files.fail now
  if 5 ≤ fails then (.error .tooManyWrongCodes, files)
  else if oathtool hotp secret now code = false then
    (.error .wrongCode,
      { files with fail := some (Nat.toDigits 10 (fails + 1), Nat.toDigits 10 now) })
  else if usedLately files.used now code then (.error .codeAlreadyUsed, files)
  else (.ok (), ⟨files.used.rtake 4 ++ [⟨now, code⟩], none⟩)

-- One run of the script: the file OpenVPN passes, the certificate's name and
-- the time. `secrets` is what awk prints for a user, empty for one without a
-- secret, and `none` if the file cannot be read.
structure Attempt where
  passFile : Text
  commonName : Text
  now : Nat
  deriving DecidableEq, Repr

def Attempt.user (attempt : Attempt) : Text := passLine 1 attempt.passFile

def Attempt.code (attempt : Attempt) : Text := passLine 2 attempt.passFile

variable (secrets : Option (Text → Text))

def verify (files : Files) (attempt : Attempt) : Except Reason Unit × Files :=
  if attempt.user = [] then (.error .emptyUsername, files)
  else if attempt.user ≠ attempt.commonName then (.error .usernameDoesNotMatchCertificate, files)
  else if validCode attempt.code = false then (.error .malformedCode, files)
  else
    match secrets with
    | none => (.error .secretsFileUnreadable, files)
    | some secret =>
        if secret attempt.user = [] then (.error .noSecretEnrolled, files)
        else checkCode hotp files (secret attempt.user) attempt.code attempt.now

structure SignIn where
  user : Text
  line : Line
  deriving DecidableEq, Repr

-- The state directory, by user instead of the hash of the user, the time of the
-- last run, and the runs so far that exited 0.
structure OathState where
  files : Dict Text Files
  signIns : List SignIn
  now : Nat
  deriving DecidableEq

def OathState.start (files : Dict Text Files) : OathState := ⟨files, [], 0⟩

def OathState.filesOf (s : OathState) (user : Text) : Files := (s.files.get? user).getD .absent

def OathState.step (s : OathState) (attempt : Attempt) : Option OathState :=
  if attempt.now < s.now then none
  else
    match verify hotp secrets (s.filesOf attempt.user) attempt with
    | (.ok (), files) =>
        some {
          files := s.files.set attempt.user files
          signIns := s.signIns ++ [⟨attempt.user, ⟨attempt.now, attempt.code⟩⟩]
          now := attempt.now }
    | (.error _, files) =>
        some { s with files := s.files.set attempt.user files, now := attempt.now }

end Verify

end OpenvpnServer.Oath
