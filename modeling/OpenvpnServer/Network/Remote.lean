import OpenvpnServer.Lib.Scan
import OpenvpnServer.Network.AddressPlan

-- The address in client profiles: the remote lines of client.conf, which follow the
-- sockets of server.conf.
namespace OpenvpnServer.Network

open OpenvpnServer.Lib OpenvpnServer.Lib.Ipaddress
open OpenvpnServer.Config (afterWord endLine replaceCrLf)

section Patterns

inductive Proto where
  | udp
  | tcp
  deriving DecidableEq, Repr

def Proto.text : Proto → Text
  | .udp => "udp".toList
  | .tcp => "tcp".toList

def Proto.upper : Proto → Text
  | .udp => "UDP".toList
  | .tcp => "TCP".toList

-- (udp|tcp)
def protoAt (text : Text) : Option Proto :=
  if "udp".toList.isPrefixOf text then some .udp
  else if "tcp".toList.isPrefixOf text then some .tcp
  else none

variable (wide : Char → Bool)

-- \d, which also has the decimal digits beyond ASCII
def digitChar (c : Char) : Bool := c.isDigit || (127 < c.toNat && wide c && !pySpace c)

-- (\d+)
def digitsAt (text : Text) : Option (Text × Text) :=
  if text.takeWhile (digitChar wide) = [] then none
  else some (text.takeWhile (digitChar wide), text.dropWhile (digitChar wide))

-- \s+(\d+)
def portAt (text : Text) : Option (Text × Text) :=
  match spacedWord text with
  | none => none
  | some (word, rest) => (digitsAt wide word).map fun port => (port.1, port.2 ++ rest)

-- (?:\s+(udp|tcp)\S*)?
def protoSuffix (text : Text) : Option Proto × Text :=
  match spacedWord text with
  | none => (none, text)
  | some (word, rest) =>
      match protoAt word with
      | none => (none, text)
      | some proto => (some proto, rest)

structure Remote where
  host : Text
  port : Text
  proto : Option Proto
  deriving DecidableEq, Repr

-- \s*remote\s+(\S+)\s+(\d+)(?:\s+(udp|tcp)\S*)?
def remoteAt (start : Text) : Option (Remote × Text) :=
  match nextWord start with
  | none => none
  | some (word, rest) =>
      if word ≠ "remote".toList then none
      else
        match spacedWord rest with
        | none => none
        | some (host, rest) =>
            (portAt wide rest).map fun port =>
              (⟨host, port.1, (protoSuffix port.2).1⟩, (protoSuffix port.2).2)

-- \s*local\s+\S+(?:\s+(\d+))?(?:\s+(udp|tcp)\S*)?
def localAt (start : Text) : Option ((Option Text × Option Proto) × Text) :=
  match nextWord start with
  | none => none
  | some (word, rest) =>
      if word ≠ "local".toList then none
      else
        (spacedWord rest).map fun address =>
          match portAt wide address.2 with
          | none => ((none, (protoSuffix address.2).1), (protoSuffix address.2).2)
          | some port => ((some port.1, (protoSuffix port.2).1), (protoSuffix port.2).2)

-- ^\s*proto\s+(udp|tcp)
def defaultProto (text : Text) : Proto :=
  (searchLines (fun start => (afterOption "proto" start).bind protoAt) text).getD .udp

end Patterns

section Profiles

structure Socket where
  port : Text
  proto : Proto
  deriving DecidableEq, Repr

structure PublicRemote where
  host : Text
  remotes : List Socket
  deriving DecidableEq, Repr

variable (wide : Char → Bool)

def findRemotes (client : Text) : List Remote :=
  findAllLines (remoteAt wide) (universalNewlines client)

def getRemote (client : Text) : PublicRemote :=
  let default := defaultProto (universalNewlines client)
  ⟨((findRemotes wide client).head?.map Remote.host).getD [],
    (findRemotes wide client).map fun remote => ⟨remote.port, remote.proto.getD default⟩⟩

def serverListen (server : Text) : List Socket :=
  let text := universalNewlines server
  let proto := defaultProto text
  let port := (searchLines (fun start => (afterOption "port" start).bind (digitsAt wide)) text).elim
    "1194".toList Prod.fst
  match findAllLines (localAt wide) text with
  | [] => [⟨port, proto⟩]
  | found => found.map fun listen => ⟨listen.1.getD port, listen.2.getD proto⟩

-- `sorted(server_listen(), key=lambda l: l["proto"] != "udp")`
def sortedListen (server : Text) : List Socket :=
  (serverListen wide server).filter (·.proto = .udp) ++
    (serverListen wide server).filter (·.proto ≠ .udp)

-- `{r["proto"]: r["port"] for r in get_remote()["remotes"]}`: the last one counts.
def currentPort (client : Text) (proto : Proto) : Option Text :=
  ((getRemote wide client).remotes.reverse.find? (·.proto = proto)).map Socket.port

-- [A-Za-z0-9.\-:]{1,253}
def validHost (host : Text) : Bool :=
  host ≠ [] && host.length ≤ 253 && host.all fun c => c.isAlphanum || c ∈ ['.', '-', ':']

def intText : Int → Text
  | .ofNat n => decimal n
  | .negSucc n => '-' :: decimal (n + 1)

def invalidPort (proto : Proto) : Refusal :=
  .pki ("Invalid ".toList ++ proto.upper ++ " port".toList)

def checkPort (python : Python) (proto : Proto) (port : Text) : Except Refusal Unit :=
  if port = [] ∨ port.all python.isDigit = false then .error (invalidPort proto)
  else
    match python.int port with
    | none => .error .valueError
    | some n => if 1 ≤ n ∧ n ≤ 65535 then .ok () else .error (invalidPort proto)

variable (python : Python)

-- The ports of a request come before those in use, and those before the socket's own.
def remotePort (ports : Dict Text Int) (client : Text) (socket : Socket) : Text :=
  match ports.get? socket.proto.text with
  | some port => intText port
  | none => (currentPort wide client socket.proto).getD socket.port

def remoteLine (host port : Text) (proto : Proto) : Text :=
  "remote ".toList ++ host ++ ' ' :: port ++ ' ' :: proto.text

def checkPorts (port : Socket → Text) : List Socket → Except Refusal Unit
  | [] => .ok ()
  | socket :: rest =>
      match checkPort python socket.proto (port socket) with
      | .error refusal => .error refusal
      | .ok () => checkPorts port rest

def validateRemote (host : Text) (ports : Dict Text Int) (server client : Text) :
    Except Refusal (List Text) :=
  if validHost (pyStrip host) = false then
    .error (.pki "Invalid host name or IP address".toList)
  else
    match checkPorts python (remotePort wide ports client) (sortedListen wide server) with
    | .error refusal => .error refusal
    | .ok () => .ok ((sortedListen wide server).map fun socket =>
        remoteLine (pyStrip host) (remotePort wide ports client socket) socket.proto)

-- re.match(r"^\s*(remote|proto)\s+", line)
def remoteOrProto (line : Text) : Bool :=
  (afterOption "remote" line).isSome || (afterOption "proto" line).isSome

def profileLines (client : Text) : List Text :=
  (pyLines (universalNewlines client)).filter fun line => !remoteOrProto line

-- The place behind the first line "client".
def clientIndex (lines : List Text) : Nat :=
  ((lines.findIdx? fun line => pyStrip line = "client".toList).map (· + 1)).getD 0

-- What `write_config` leaves in client.conf.
def clientConfText (content : Text) : Except Refusal Text :=
  if 200000 < content.length then .error (.pki "Configuration file too large".toList)
  else .ok (endLine (replaceCrLf content))

def setRemote (host : Text) (ports : Dict Text Int) (server client : Text) :
    Except Refusal Text :=
  match validateRemote wide python host ports server client with
  | .error refusal => .error refusal
  | .ok remotes =>
      let lines := profileLines client
      clientConfText (confContent
        (lines.take (clientIndex lines) ++ remotes ++ lines.drop (clientIndex lines)))

-- `sorted` of the protocols' names
def sortProtos (protos : List Proto) : List Proto :=
  protos.filter (· = .tcp) ++ protos.filter (· = .udp)

-- Whether the profiles changed, and client.conf.
def syncRemotes (server client : Text) : Except Refusal (Bool × Text) :=
  let remote := getRemote wide client
  if remote.host = [] ∨ sortProtos (remote.remotes.map Socket.proto) =
      sortProtos ((serverListen wide server).map Socket.proto) then .ok (false, client)
  else
    match setRemote wide python remote.host .empty server client with
    | .error refusal => .error refusal
    | .ok client => .ok (true, client)

end Profiles

end OpenvpnServer.Network
