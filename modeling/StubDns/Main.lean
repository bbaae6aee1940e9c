import Std.Async.UDP
import Std.Async.Timer
import StubDns.CommandLine.Run

/-! The program: carries a run out with the files and the sockets of this machine. -/
namespace StubDns.Program
open Std.Async

/-- What a path leads to on this machine. -/
def readEntry (path : String) : IO (Except FileFailure FileEntry) := do
  try
    return .ok (.file (← IO.FS.readBinFile path).toList)
  catch failure =>
    return match failure with
      | .noFileOrDirectory .. => .error .missing
      | .inappropriateType none .. => .ok .directory
      | .inappropriateType (some _) .. => .error .notDirectory
      | other => .error (.refused (toString other))

/-- The files that a run may read, as they are when it starts. -/
def readFiles (options : CommandLine.Options) : IO FileSystem := do
  let paths := match options.config with
    | some path => [path]
    | none => [Config.localPath, Config.systemPath, Config.resolvConfPath]
  let entries ← paths.mapM fun path => return (path, ← readEntry path)
  return fun path => (entries.lookup path).getD (.error .missing)

/-- An open socket and how long a read may wait. -/
structure Association where
  server : Endpoint
  socket : UDP.Socket
  wait : Duration

/-- The sockets of this machine take no zone, and no address on the command line has one. -/
def socketAddress : Endpoint → Std.Net.SocketAddress
  | .v4 address port =>
    .v4 ⟨Std.Net.IPv4Addr.ofParts address.a address.b address.c address.d, port⟩
  | .v6 address port _ =>
    .v6 ⟨⟨⟨address.groups.toArray, by simp [address.length_groups]⟩⟩, port⟩

/-- Any address of the server's family, and any port. -/
def wildcard : Endpoint → Std.Net.SocketAddress
  | .v4 .. => .v4 ⟨Std.Net.IPv4Addr.ofParts 0 0 0 0, 0⟩
  | .v6 .. => .v6 ⟨Std.Net.IPv6Addr.ofParts 0 0 0 0 0 0 0 0, 0⟩

/-- Turns a failure of the system into one of the transport. -/
def attempt {α : Type} (what : String) (server : Endpoint) (act : IO α) :
    IO (Except ResolveError α) := do
  try
    return .ok (← act)
  catch failure => return .error (.transport s!"{what} {server.text}: {failure}")

abbrev Session := IO.Ref (Option Association)

def withAssociation {α : Type} (session : Session)
    (act : Association → IO (Except ResolveError α)) : IO (Except ResolveError α) := do
  match ← session.get with
  | some association => act association
  | none => return .error (.transport "Association is closed")

def connect (session : Session) (server : Endpoint) : IO (Except ResolveError Socket) :=
  attempt "Failed to open UDP association to" server do
    let socket ← UDP.Socket.mk
    socket.bind (wildcard server)
    socket.connect (socketAddress server)
    session.set (some ⟨server, socket, Duration.zero⟩)
    return 0

def write (association : Association) (datagram : Bytes) : IO (Except ResolveError Nat) :=
  attempt "Failed to send to" association.server do
    (association.socket.send (ByteArray.mk datagram.toArray)).block
    return datagram.length

/-- The next datagram, or none when the wait runs out. A wait takes a millisecond at least. -/
def receive (association : Association) (capacity : Nat) : IO (Option Bytes) :=
  Async.block do
    let millis := max 1 (association.wait.toNanos / 1000000)
    Selectable.one #[
      .case (association.socket.recvSelector capacity.toUInt64)
        fun received => return some received.1.toList,
      .case (← Selector.sleep (Std.Time.Millisecond.Offset.ofNat millis)) fun _ => return none]

def read (association : Association) (capacity : Nat) : IO Received := do
  match ← attempt "Failed to receive from" association.server (receive association capacity) with
  | .ok (some datagram) => return ⟨datagram, .ok datagram.length⟩
  | .ok none => return ⟨[], .error (.transportTimeout association.server)⟩
  | .error reason => return ⟨[], .error reason⟩

/-- Carries one request out. -/
def respond (session : Session) : (request : Request) → IO request.Reply
  | .connect server => connect session server
  | .drawId => return UInt16.ofNat (← IO.rand 0 65535)
  | .write _ datagram => withAssociation session fun association => write association datagram
  | .setTimeout _ wait => withAssociation session fun association => do
    session.set (some { association with wait })
    return .ok ()
  | .read _ capacity => do
    match ← withAssociation session fun association => return .ok (← read association capacity) with
    | .ok received => return received
    | .error reason => return ⟨[], .error reason⟩
  | .close _ => session.set none

def run (arguments : List String) : IO CommandLine.Conclusion := do
  let files ← match CommandLine.Intent.ofArguments arguments with
    | .run options _ => readFiles options
    | _ => pure fun _ => .error .missing
  let session ← IO.mkRef none
  (CommandLine.run files arguments).carryOut (respond session)

end StubDns.Program

def main (arguments : List String) : IO UInt32 := do
  let conclusion ← StubDns.Program.run arguments
  IO.print conclusion.stdout
  IO.eprint conclusion.stderr
  return conclusion.exitCode.toUInt32
