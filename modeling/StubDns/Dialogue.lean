import StubDns.Address.Endpoint
import StubDns.Retry

/-! What the resolver asks of the world outside, how that can fail, and programs that go on from its
replies. -/
namespace StubDns

inductive ResolveError
  | notConfigured
  | unsupportedFamily
  | bufferTooSmall (capacity required : Nat)
  | transport (reason : String)
  | transportTimeout (server : Endpoint)
  deriving DecidableEq

def ResolveError.message : ResolveError → String
  | .notConfigured => "No name server configured"
  | .unsupportedFamily => "Unsupported address family"
  | .bufferTooSmall capacity required =>
    s!"Output buffer too small: {capacity} bytes, need at least {required}"
  | .transport reason => "Transport error: " ++ reason
  | .transportTimeout server => "Transport timeout waiting for " ++ server.text

/-- Names one association among all that are ever opened. -/
abbrev Socket := Nat

inductive Request
  | connect (server : Endpoint)
  /-- A transaction id that others cannot guess. -/
  | drawId
  | write (socket : Socket) (datagram : Bytes)
  | setTimeout (socket : Socket) (wait : Duration)
  | read (socket : Socket) (capacity : Nat)
  | close (socket : Socket)
  deriving DecidableEq

/-- What a read does to the buffer, and the size it reports, which may be any. -/
structure Received where
  /-- Laid over the front of the buffer. -/
  data : Bytes
  result : Except ResolveError Nat

abbrev Request.Reply : Request → Type
  | .connect _ => Except ResolveError Socket
  | .drawId => UInt16
  | .write _ _ => Except ResolveError Nat
  | .setTimeout _ _ => Except ResolveError Unit
  | .read _ _ => Received
  | .close _ => Unit

/-- A request together with the reply it got. -/
structure Event where
  request : Request
  reply : request.Reply

inductive Dialogue (α : Type) : Type
  | done (value : α)
  | ask (request : Request) (next : request.Reply → Dialogue α)

/-- Anything that replies to requests and remembers what it likes in `σ`. -/
structure Network (σ : Type) where
  respond : (request : Request) → σ → request.Reply × σ

/-- The value of a finished dialogue, all its requests and replies, and the network after it. -/
structure Finished (σ α : Type) where
  value : α
  events : List Event
  network : σ

namespace Dialogue
variable {α β σ : Type}

def bind : Dialogue α → (α → Dialogue β) → Dialogue β
  | done value, f => f value
  | ask request next, f => ask request fun reply => (next reply).bind f

instance : Monad Dialogue where
  pure := done
  bind := bind

/-- Asks for one thing. -/
def request (request : Request) : Dialogue request.Reply := ask request done

def run (network : Network σ) : Dialogue α → σ → Finished σ α
  | done value, s => ⟨value, [], s⟩
  | ask request next, s =>
    let (reply, s) := network.respond request s
    let rest := run network (next reply) s
    { rest with events := ⟨request, reply⟩ :: rest.events }

/-- Carries a dialogue out in a monad that can reply to every request. -/
def carryOut {m : Type → Type} [Monad m] (respond : (request : Request) → m request.Reply) :
    Dialogue α → m α
  | done value => return value
  | ask request next => do carryOut respond (next (← respond request))

theorem run_bind (network : Network σ) (d : Dialogue α) (f : α → Dialogue β) (s : σ) :
    (d >>= f).run network s =
      let first := d.run network s
      let second := (f first.value).run network first.network
      ⟨second.value, first.events ++ second.events, second.network⟩ := by
  induction d generalizing s with
  | done value => rfl
  | ask request next ih =>
    have h := ih (network.respond request s).1 (network.respond request s).2
    simp only [Bind.bind] at h
    simp only [Bind.bind, bind, run, h, List.cons_append]

end Dialogue
end StubDns
