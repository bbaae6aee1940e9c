import StubDns.Dialogue
import StubDns.Wire.Message

/-! A network that follows a script: every association takes its entries from the front. -/
namespace StubDns

/-- A datagram made out of the last query. -/
structure ScriptedReply where
  /-- Flips bits of the query's id. -/
  idXor : UInt16 := 0
  flags : UInt16 := 0x8180
  qdcount : UInt16 := 1
  ancount : UInt16 := 1
  /-- In place of the query's own question. -/
  question : Option Bytes := none
  tail : Bytes := []
  /-- Offsets and the bits to flip there. -/
  flips : List (Nat × UInt8) := []
  /-- The size that is left of it. -/
  cut : Option Nat := none
  deriving DecidableEq

namespace ScriptedReply

def header (reply : ScriptedReply) (query : Bytes) : Bytes :=
  let id := UInt16.ofNat (Bytes.toNat (query.take 2))
  [id ^^^ reply.idXor, reply.flags, reply.qdcount, reply.ancount, 0, 0].flatMap Bytes.ofUInt16

def datagram (reply : ScriptedReply) (query : Bytes) : Bytes :=
  let question := reply.question.getD (query.drop Header.size)
  let whole := reply.header query ++ question ++ reply.tail
  let flipped := reply.flips.foldl (fun bytes flip => bytes.modify flip.1 (· ^^^ flip.2)) whole
  flipped.take (reply.cut.getD flipped.length)

end ScriptedReply

/-- What a scripted network does next. A write or timer failure waits for its own call; every
other entry is taken by a read. -/
inductive ScriptEntry
  | timeout
  | readError (reason : ResolveError)
  | writeError (reason : ResolveError)
  | timerError (reason : ResolveError)
  | raw (data : Bytes) (size : Option Nat)
  | reply (reply : ScriptedReply) (size : Option Nat)
  deriving DecidableEq

abbrev Script := List ScriptEntry

/-- What happened on a scripted network. -/
inductive ScriptedDeed
  | connected (server : Endpoint)
  | wrote (datagram : Bytes)
  | writeFailed
  | armed (wait : Duration)
  | timerFailed
  | received (size : Nat)
  | timedOut
  | readFailed
  | closed
  deriving DecidableEq

/-- The associations still to come, each a script or the reason why it fails, and the open one. -/
structure ScriptedNetwork where
  server : Endpoint
  script : Script := []
  connections : List (Except String Script) := []
  query : Bytes := []
  opened : Nat := 0
  /-- The last deed stands first. -/
  journal : List ScriptedDeed := []

namespace ScriptedNetwork

def note (network : ScriptedNetwork) (deed : ScriptedDeed) : ScriptedNetwork :=
  { network with journal := deed :: network.journal }

def connect (network : ScriptedNetwork) (server : Endpoint) :
    Except ResolveError Socket × ScriptedNetwork :=
  let network := network.note (.connected server)
  let rest := { network with connections := network.connections.tail }
  match network.connections.head?.getD (.ok []) with
  | .error reason => (.error (.transport reason), rest)
  | .ok script => (.ok network.opened, { rest with server, script, opened := network.opened + 1 })

def write (network : ScriptedNetwork) (datagram : Bytes) :
    Except ResolveError Nat × ScriptedNetwork :=
  match network.script with
  | .writeError reason :: script => (.error reason, { network with script }.note .writeFailed)
  | _ => (.ok datagram.length, { network with query := datagram }.note (.wrote datagram))

def setTimeout (network : ScriptedNetwork) (wait : Duration) :
    Except ResolveError Unit × ScriptedNetwork :=
  let network := network.note (.armed wait)
  match network.script with
  | .timerError reason :: script => (.error reason, { network with script }.note .timerFailed)
  | _ => (.ok (), network)

/-- Lays a datagram over the buffer, cut to its size, and reports `size` or what was copied. -/
def deliver (network : ScriptedNetwork) (capacity : Nat) (data : Bytes) (size : Option Nat) :
    Received × ScriptedNetwork :=
  let data := data.take capacity
  let size := size.getD data.length
  (⟨data, .ok size⟩, network.note (.received size))

def waitOut (network : ScriptedNetwork) : Received × ScriptedNetwork :=
  (⟨[], .error (.transportTimeout network.server)⟩, network.note .timedOut)

def read (network : ScriptedNetwork) (capacity : Nat) : Received × ScriptedNetwork :=
  match network.script with
  | [] => network.waitOut
  | entry :: script =>
    let network := { network with script }
    match entry with
    | .timeout => network.waitOut
    | .readError reason | .writeError reason | .timerError reason =>
      (⟨[], .error reason⟩, network.note .readFailed)
    | .raw data size => network.deliver capacity data size
    | .reply reply size => network.deliver capacity (reply.datagram network.query) size

/-- The network itself. It draws no ids at random, the first query has id 1. -/
def network : Network ScriptedNetwork where
  respond
    | .connect server, state => state.connect server
    | .drawId, state => (0, state)
    | .write _ datagram, state => state.write datagram
    | .setTimeout _ wait, state => state.setTimeout wait
    | .read _ capacity, state => state.read capacity
    | .close _, state => ((), state.note .closed)

end ScriptedNetwork
end StubDns
