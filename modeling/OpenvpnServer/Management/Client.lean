import OpenvpnServer.Lib.Decode
import OpenvpnServer.Lib.LineStream
import OpenvpnServer.Lib.Run

-- The client of the management interface and the server it talks to: the bytes between
-- them arrive in any pieces, and a connection can fail anywhere.
namespace OpenvpnServer.Management

open OpenvpnServer.Lib

section Lines

def newline : UInt8 := 10

-- line.decode("utf-8", "replace").rstrip("\r")
def decodeLine (line : Bytes) : Text := (utf8Replace line).rdropWhile (· = '\r')

-- line.startswith(">")
def isNotification (line : Text) : Bool := line.head? = some '>'

def isSuccess (line : Text) : Bool := "SUCCESS:".toList.isPrefixOf line

-- line.startswith(("SUCCESS:", "ERROR:"))
def isStatus (line : Text) : Bool := isSuccess line || "ERROR:".toList.isPrefixOf line

def endMarker : Text := "END".toList

def passwordPrompt : Bytes := utf8 "ENTER PASSWORD:".toList

end Lines

section Server

-- What the server answers a command: one line with its status, or lines up to END.
inductive Response where
  | status (line : Bytes)
  | several (lines : List Bytes) (last : Bytes)
  deriving DecidableEq

def Response.lines : Response → List Bytes
  | .status line => [line]
  | .several lines last => lines ++ [last]

def Response.answer : Response → List Text
  | .status line => [decodeLine line]
  | .several lines _ => lines.map decodeLine

def Response.WellFormed : Response → Prop
  | .status line => newline ∉ line ∧ isStatus (decodeLine line) = true
  | .several lines last =>
      (∀ line ∈ lines, newline ∉ line ∧ decodeLine line ≠ endMarker ∧
        isNotification (decodeLine line) = false) ∧
      (∀ line ∈ lines.head?, isStatus (decodeLine line) = false) ∧
      newline ∉ last ∧ decodeLine last = endMarker

instance (response : Response) : Decidable response.WellFormed :=
  match response with
  | .status line => inferInstanceAs (Decidable (newline ∉ line ∧ isStatus (decodeLine line) = true))
  | .several lines last => inferInstanceAs (Decidable (
      (∀ line ∈ lines, newline ∉ line ∧ decodeLine line ≠ endMarker ∧
        isNotification (decodeLine line) = false) ∧
      (∀ line ∈ lines.head?, isStatus (decodeLine line) = false) ∧
      newline ∉ last ∧ decodeLine last = endMarker))

-- A call of `command`, by its number.
structure Call where
  number : Nat
  cmd : Text
  deriving DecidableEq

-- A connection: whether the server takes commands yet, the lines it has received (and the
-- call each is sent for, a password for none), what it has still to write of an answer, and
-- the bytes on their way to the client.
structure Conn where
  number : Nat
  authorized : Bool
  inbox : List (Option Call × Bytes)
  writing : List Bytes
  wire : Bytes
  deriving DecidableEq

-- The greeting is a prompt or a first notification.
def Conn.greet (number : Nat) : Option Bytes → Conn
  | none => ⟨number, false, [], [], passwordPrompt⟩
  | some line => ⟨number, true, [], [], line ++ [newline]⟩

-- sock.sendall((text + "\n").encode())
def Conn.send (c : Conn) (call : Option Call) (text : Text) : Conn :=
  { c with
    inbox := c.inbox ++ ((utf8 (text ++ ['\n'])).splitOn newline).dropLast.map fun line => (call, line) }

def Conn.put (c : Conn) (bytes : Bytes) : Conn := { c with wire := c.wire ++ bytes }

structure Served where
  conn : Nat
  call : Option Call
  line : Bytes
  response : Response
  deriving DecidableEq

end Server

section Client

-- How the password is read; an exception that is no OSError leaves `command`.
inductive PasswordRead where
  | value (password : Option Text)
  | raises
  deriving DecidableEq

-- Where a call stands; `last` is the second attempt.
inductive Phase where
  | idle
  | connecting (call : Call) (last : Bool)
  | greeting (call : Call) (last : Bool)
  | checking (call : Call) (last : Bool)
  | reading (call : Call) (last : Bool) (lines : List Text)
  deriving DecidableEq

-- A call that has returned, with the connections that had failed before.
structure Result where
  call : Call
  conn : Nat
  lines : List Text
  failed : List Nat
  deriving DecidableEq

structure State where
  conn : Option Conn
  buf : Bytes
  phase : Phase
  calls : Nat
  opened : Nat
  failed : List Nat
  served : List Served
  results : List Result
  deriving DecidableEq

def State.init : State := ⟨none, [], .idle, 0, 0, [], [], []⟩

def State.close (s : State) : State :=
  { s with conn := none, buf := [], failed := (s.conn.map Conn.number).toList ++ s.failed }

-- The except clause of `command`.
def State.failAttempt (s : State) (call : Call) (last : Bool) : State :=
  { s.close with phase := if last then .idle else .connecting call true }

def State.sendCommand (s : State) (c : Conn) (call : Call) (last : Bool) : State :=
  { s with conn := some (c.send (some call) call.cmd), phase := .reading call last [] }

def State.finish (s : State) (c : Conn) (call : Call) (lines : List Text) : State :=
  { s with phase := .idle, results := ⟨call, c.number, lines, s.failed⟩ :: s.results }

-- `_connect` behind its loop
def State.afterGreeting (s : State) (c : Conn) (call : Call) (last : Bool)
    (password : PasswordRead) : State :=
  match cutAfter passwordPrompt s.buf with
  | none => s.sendCommand c call last
  | some rest =>
      match password with
      | .raises => { s with buf := rest, phase := .idle }
      | .value none => s.failAttempt call last
      | .value (some []) => s.failAttempt call last
      | .value (some password) =>
          { s with buf := rest, conn := some (c.send none password), phase := .checking call last }

-- A line that `_connect` reads behind the password.
def State.checkLine (s : State) (c : Conn) (call : Call) (last : Bool) (line : Text) : State :=
  if isNotification line then s
  else if isSuccess line then s.sendCommand c call last
  else s.failAttempt call last

-- A line that `command` reads.
def State.takeLine (s : State) (c : Conn) (call : Call) (last : Bool) (lines : List Text)
    (line : Text) : State :=
  if isNotification line then s
  else if line = endMarker then s.finish c call lines
  else if isStatus line = true ∧ lines = [] then s.finish c call (lines ++ [line])
  else { s with phase := .reading call last (lines ++ [line]) }

-- `_readline` and the loop of `_connect` ask for more only while they need it.
def State.wantsMore (s : State) : Bool :=
  match s.phase with
  | .greeting _ _ => decide (newline ∉ s.buf) && (cutAfter passwordPrompt s.buf).isNone
  | .checking _ _ => decide (newline ∉ s.buf)
  | .reading _ _ _ => decide (newline ∉ s.buf)
  | _ => false

end Client

section Step

-- Steps of the client, then those of the server. `greeted` ends the loop of `_connect`, with
-- `late` because its time is over; `fail` is an OSError or a connection that was closed.
inductive Event where
  | call (cmd : Text)
  | connect (greeting : Option Bytes)
  | recv (count : Nat)
  | greeted (late : Bool) (password : PasswordRead)
  | line
  | fail
  | notify (line : Bytes)
  | judge (reply : Bytes)
  | serve (response : Response)
  | write
  deriving DecidableEq

-- A line that the server can send as a notification.
def Notifies (line : Bytes) : Prop := newline ∉ line ∧ isNotification (decodeLine line) = true

instance (line : Bytes) : Decidable (Notifies line) :=
  inferInstanceAs (Decidable (newline ∉ line ∧ isNotification (decodeLine line) = true))

def State.startCall (s : State) (cmd : Text) : Option State :=
  match s.phase, s.conn with
  | .idle, none => some { s with calls := s.calls + 1, phase := .connecting ⟨s.calls, cmd⟩ false }
  | .idle, some c => some ({ s with calls := s.calls + 1 }.sendCommand c ⟨s.calls, cmd⟩ false)
  | _, _ => none

def State.connect (s : State) (greeting : Option Bytes) : Option State :=
  match s.phase with
  | .connecting call last =>
      if ∀ line ∈ greeting, Notifies line then
        some { s with
          conn := some (.greet s.opened greeting), buf := [], opened := s.opened + 1
          phase := .greeting call last }
      else none
  | _ => none

-- sock.recv(4096)
def State.recv (s : State) (count : Nat) : Option State :=
  match s.conn with
  | none => none
  | some c =>
      if s.wantsMore = true ∧ 1 ≤ count ∧ count ≤ 4096 ∧ count ≤ c.wire.length then
        some { s with
          buf := s.buf ++ c.wire.take count, conn := some { c with wire := c.wire.drop count } }
      else none

def State.greeted (s : State) (late : Bool) (password : PasswordRead) : Option State :=
  match s.phase, s.conn with
  | .greeting call last, some c =>
      if late = true ∨ s.wantsMore = false then some (s.afterGreeting c call last password)
      else none
  | _, _ => none

def State.readLine (s : State) : Option State :=
  match s.conn, cutFirst newline s.buf with
  | some c, some (line, rest) =>
      match s.phase with
      | .checking call last => some ({ s with buf := rest }.checkLine c call last (decodeLine line))
      | .reading call last lines =>
          some ({ s with buf := rest }.takeLine c call last lines (decodeLine line))
      | _ => none
  | _, _ => none

def State.fail (s : State) : Option State :=
  match s.phase with
  | .idle => none
  | .connecting call last => some (s.failAttempt call last)
  | .greeting call last => some (s.failAttempt call last)
  | .checking call last => some (s.failAttempt call last)
  | .reading call last _ => some (s.failAttempt call last)

-- The server takes commands only behind the password, and asks again for a wrong one.
def serverStep (c : Conn) : Event → Option (Conn × List Served)
  | .notify line =>
      if c.authorized = true ∧ Notifies line then some (c.put (line ++ [newline]), []) else none
  | .judge reply =>
      match c.inbox with
      | [] => none
      | _ :: rest =>
          if c.authorized = true ∨ newline ∈ reply ∨ isStatus (decodeLine reply) = false then none
          else if isSuccess (decodeLine reply) then
            some ({ c with authorized := true, inbox := rest }.put (reply ++ [newline]), [])
          else
            some ({ c with inbox := rest }.put (reply ++ [newline] ++ passwordPrompt), [])
  | .serve response =>
      match c.inbox with
      | [] => none
      | (call, line) :: rest =>
          if c.authorized = true ∧ c.writing = [] ∧ response.WellFormed then
            some ({ c with inbox := rest, writing := response.lines },
              [⟨c.number, call, line, response⟩])
          else none
  | .write =>
      match c.writing with
      | [] => none
      | line :: rest => some ({ c with writing := rest }.put (line ++ [newline]), [])
  | _ => none

def State.serve (s : State) (event : Event) : Option State :=
  match s.conn with
  | none => none
  | some c =>
      (serverStep c event).map fun next =>
        { s with conn := some next.1, served := next.2 ++ s.served }

def mgmtStep (s : State) : Event → Option State
  | .call cmd => s.startCall cmd
  | .connect greeting => s.connect greeting
  | .recv count => s.recv count
  | .greeted late password => s.greeted late password
  | .line => s.readLine
  | .fail => s.fail
  | event => s.serve event

end Step

end OpenvpnServer.Management
