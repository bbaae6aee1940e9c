import StubDns.Config.Load
import StubDns.Dialogue

/-! A stand-in for an operating system: the files of a machine and its UDP sockets, with the
failures that a real one reports. A whole run can be carried out on it without touching anything.
Nothing else in the library uses it, and no result depends on what it does. -/
namespace StubDns

abbrev FileName := List Char

/-- The files of a machine, each by the names on the way to it from the top, and the directory that
paths lead on from. A directory with something in it needs no entry of its own. -/
structure FileTree where
  entries : List (List FileName × FileEntry)
  working : List FileName

namespace FileTree

/-- The longest name, in bytes. -/
def nameMax : Nat := 255

/-- The longest path, in bytes. -/
def pathMax : Nat := 4095

/-- An empty name or a dot in a path stays where it is. -/
def stays (name : FileName) : Bool := name == [] || name == ['.']

/-- Two dots lead to the directory around the present one. -/
def leadsUp (name : FileName) : Bool := name == ['.', '.']

/-- The names in a path that lead down. -/
def names (path : String) : List FileName := (path.toList.splitOn '/').filter (!stays ·)

/-- What a machine has whatever it is used for. -/
def machine : List (List FileName × FileEntry) :=
  let texts := [("dev/null", ""), ("etc/hosts", "127.0.0.1 localhost\n"),
    ("etc/passwd", "root:x:0:0:root:/root:/bin/sh\n")]
  let directories := ["bin", "home", "lib", "media", "mnt", "opt", "proc", "root", "run", "sbin",
    "srv", "sys", "tmp", "usr", "var"]
  texts.map (fun (path, text) => (names path, .file (Utf8.encode text.toList))) ++
    directories.map fun name => ([name.toList], .directory)

/-- A name that no path can spell, since a slash ends every name in a path. -/
def unspoken : FileName := ['/']

/-- A machine with these files below a working directory of its own, which can be left for the one
around it but not named from there. -/
def ofFiles (files : List (String × FileEntry)) : FileTree :=
  let working := names "tmp" ++ [unspoken]
  let below := files.map fun (path, entry) => (working ++ names path, entry)
  { entries := below ++ (working, .directory) :: machine, working }

/-- What stands at the end of a way down from the top. -/
def entry? (tree : FileTree) (way : List FileName) : Option FileEntry :=
  match tree.entries.lookup way with
  | some entry => some entry
  | none => if tree.entries.any fun entry => way.isPrefixOf entry.1 then some .directory else none

/-- Follows names from a directory, `way` being the way to it, last name first. Only a directory can
be left by another name, be it an empty one. Nothing is above the top. -/
def follow (tree : FileTree) (way : List FileName) :
    List FileName → Except FileFailure FileEntry
  | [] => .ok .directory
  | name :: rest =>
    if stays name then tree.follow way rest
    else if leadsUp name then tree.follow way.tail rest
    else if nameMax < (Utf8.encode name).length then .error .nameTooLong
    else
      match tree.entry? (name :: way).reverse with
      | none => .error .missing
      | some .directory => tree.follow (name :: way) rest
      | some (.file content) => if rest = [] then .ok (.file content) else .error .notDirectory

/-- Paths lead on from the working directory, or from the top if they start with a slash. -/
def system (tree : FileTree) : FileSystem := fun path =>
  if '\x00' ∈ path.toList then .error (.refused "file name contained an unexpected NUL byte")
  else if pathMax < path.utf8ByteSize then .error .nameTooLong
  else if path = "" then .error .missing
  else
    let start := if path.toList.head? = some '/' then [] else tree.working.reverse
    tree.follow start (path.toList.splitOn '/')

end FileTree

/-- How the system refuses what is asked of a socket. -/
inductive SocketFailure
  | networkUnreachable
  | addressNotAvailable
  | invalidArgument
  | connectionRefused
  deriving DecidableEq, Repr

def SocketFailure.message : SocketFailure → String
  | .networkUnreachable => "Network is unreachable (os error 101)"
  | .addressNotAvailable => "Cannot assign requested address (os error 99)"
  | .invalidArgument => "Invalid argument (os error 22)"
  | .connectionRefused => "Connection refused (os error 111)"

/-- Link-local addresses and multicast that does not leave the link need an interface. -/
def IPv6.needsInterface (address : IPv6) : Bool :=
  match address.groups with
  | first :: _ =>
    let first := first.toNat
    first / 64 == 0xfe80 / 64 ||
      (first / 256 == 0xff && (first % 16 == 1 || first % 16 == 2))
  | [] => false

def IPv6.isLoopback (address : IPv6) : Bool := address.groups == [0, 0, 0, 0, 0, 0, 0, 1]

/-- The way to an address on a host that has no interface but the loopback one. -/
def IPAddress.route (loopbackUp : Bool) (address : IPAddress) : Except SocketFailure Unit :=
  let routeV4 (address : IPv4) : Except SocketFailure Unit :=
    if loopbackUp && address.isLoopback then .ok () else .error .networkUnreachable
  match address with
  | .v4 address => routeV4 address
  | .v6 address =>
    match address.mapped? with
    | some mapped => routeV4 mapped
    | none =>
      if loopbackUp && address.isLoopback then .ok ()
      else if address.needsInterface then .error .invalidArgument
      else .error .addressNotAvailable

/-- A connected UDP socket and the peer it talks to. -/
structure UdpHost where
  loopbackUp : Bool
  /-- The server of the open association. -/
  server : Option Endpoint := none
  /-- Where the last association went, open or not. -/
  last : Option Endpoint := none
  peerOpen : Bool := false
  /-- Datagrams of the peer that have not been read. -/
  inbox : List Bytes := []
  /-- What the peer got last. -/
  delivered : Option Bytes := none
  /-- The peer was gone when something was sent; the next call is told. -/
  refused : Bool := false
  deriving DecidableEq

namespace UdpHost

/-- A host with a peer that listens on its loopback interface, if that is up. -/
def withPeer (loopbackUp : Bool) : Option UdpHost :=
  if loopbackUp then some { loopbackUp, peerOpen := true } else none

/-- The text for what happens to an association, with its server and the reason. -/
def failure (what : String) (server : Endpoint) (reason : SocketFailure) : ResolveError :=
  .transport (what ++ " " ++ server.text ++ ": " ++ reason.message)

def connect (host : UdpHost) (server : Endpoint) : Except ResolveError Socket × UdpHost :=
  match server.address.route host.loopbackUp with
  | .ok _ => (.ok 0, { host with server := some server, last := some server })
  | .error reason => (.error (failure "Failed to open UDP association to" server reason), host)

/-- Does something over the open association. -/
def whenOpen {α : Type} (host : UdpHost) (act : Endpoint → Except ResolveError α × UdpHost) :
    Except ResolveError α × UdpHost :=
  match host.server, host.last with
  | some server, _ => act server
  | none, some server => (.error (.transport s!"Association to {server.text} is closed"), host)
  | none, none => (.error .notConfigured, host)

def write (host : UdpHost) (datagram : Bytes) : Except ResolveError Nat × UdpHost :=
  host.whenOpen fun server =>
    if host.refused then
      (.error (failure "Failed to send to" server .connectionRefused),
        { host with refused := false })
    else if host.peerOpen then (.ok datagram.length, { host with delivered := some datagram })
    else (.ok datagram.length, { host with refused := true })

/-- Every wait can be armed: one of no length is made a millisecond long. -/
def setTimeout (host : UdpHost) (_ : Duration) : Except ResolveError Unit × UdpHost :=
  host.whenOpen fun _ => (.ok (), host)

/-- The oldest datagram, cut to `capacity`; with none the wait runs out. -/
def read (host : UdpHost) (capacity : Nat) : Received × UdpHost :=
  let (result, host) := host.whenOpen fun server =>
    if host.refused then
      (.error (failure "Failed to receive from" server .connectionRefused),
        { host with refused := false })
    else match host.inbox with
      | datagram :: inbox => (.ok (datagram.take capacity), { host with inbox })
      | [] => (.error (.transportTimeout server), host)
  match result with
  | .ok data => (⟨data, .ok data.length⟩, host)
  | .error reason => (⟨[], .error reason⟩, host)

def close (host : UdpHost) : UdpHost := { host with server := none }

/-- Queues a datagram of the peer. -/
def send (host : UdpHost) (datagram : Bytes) : UdpHost :=
  { host with inbox := host.inbox ++ [datagram] }

def network : Network UdpHost where
  respond
    | .connect server, host => host.connect server
    | .drawId, host => (0, host)
    | .write _ datagram, host => host.write datagram
    | .setTimeout _ wait, host => host.setTimeout wait
    | .read _ capacity, host => host.read capacity
    | .close _, host => ((), host.close)

end UdpHost
end StubDns
