import OpenvpnServer.Config.Edit

-- How OpenVPN reads a configuration file, byte by byte. Bytes stand here as the
-- characters of the same numbers, so that `optionName` and `strip` apply.
namespace OpenvpnServer.Config

open OpenvpnServer.Lib

def skipBom (bytes : Text) : Text :=
  if (octets [bom]).isPrefixOf bytes then bytes.drop (octets [bom]).length else bytes

-- Ended by the newline only.
def physicalLines (disk : Bytes) : List Text := (skipBom (latin1 disk)).splitOn '\n'

-- A longer line is read in pieces of `maxLine` bytes.
def pieces (line : Text) : List Text :=
  (List.range ((line.length - 1) / maxLine + 1)).map fun i =>
    (line.drop (maxLine * i)).take maxLine

def openvpnLines (disk : Bytes) : List Text := (physicalLines disk).flatMap pieces

-- Every carriage return is right before a newline.
def crPaired : Text → Bool
  | [] => true
  | c :: rest => (c ≠ '\r' || rest.head? = some '\n') && crPaired rest

-- The line is on disk, up to white space at its end.
def InPlace (disk : Bytes) (raw : Text) : Prop :=
  ∃ line ∈ physicalLines disk, rstrip line = rstrip (octets raw)

-- The line is read in one piece, and so is a line on disk it repeats.
def OnePiece (disk : Bytes) (raw : Text) : Prop :=
  (octets raw).length ≤ maxLine ∧
    (strip (octets raw) ∈ (physicalLines disk).map strip →
      ∃ line ∈ physicalLines disk, strip line = strip (octets raw) ∧ line.length ≤ maxLine)

-- White space at the end of the line does not hide a privileged option.
def PlainEnd (raw : Text) : Prop :=
  optionName (strip raw) ∈ privileged → optionName raw ∈ privileged

-- The edits that cannot bring in a privileged line.
def CarefulEdit (disk : Bytes) (content : Text) : Prop :=
  crPaired (latin1 disk) = true ∧
    ∀ raw ∈ submittedLines content, (InPlace disk raw ∨ OnePiece disk raw) ∧ PlainEnd raw

instance (disk : Bytes) (raw : Text) : Decidable (InPlace disk raw) :=
  inferInstanceAs (Decidable (∃ line ∈ _, _))

instance (disk : Bytes) (raw : Text) : Decidable (OnePiece disk raw) :=
  inferInstanceAs (Decidable (_ ∧ (_ → ∃ line ∈ _, _)))

instance (raw : Text) : Decidable (PlainEnd raw) := inferInstanceAs (Decidable (_ → _))

instance (disk : Bytes) (content : Text) : Decidable (CarefulEdit disk content) :=
  inferInstanceAs (Decidable (_ ∧ ∀ raw ∈ _, _))

end OpenvpnServer.Config
