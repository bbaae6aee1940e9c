import StubDns.Dialogue
import StubDns.Question
import StubDns.Retry

/-! Lookups over one association, alone and one after the other: a query is sent again, each time
with a longer wait, until a datagram answers it. -/
namespace StubDns

def queryCapacity : Nat := 512

def responseCapacity : Nat := 512

/-- An open association with the settings it was opened with. -/
structure Exchange where
  socket : Socket
  server : Endpoint
  suffix : Option Bytes
  policy : RetryPolicy
  lastId : UInt16
  query : Buffer queryCapacity := Buffer.zero queryCapacity
  response : Buffer responseCapacity := Buffer.zero responseCapacity
  deriving DecidableEq

/-- How a lookup ended: the answer if there is one, the receive buffer, and what the caller lent. -/
structure Concluded (ω α : Type) where
  answer : Option α
  response : Buffer responseCapacity
  lent : ω

namespace Exchange
variable {ω α : Type}

/-- Makes the next query carry `id`. -/
def withNextId (exchange : Exchange) (id : UInt16) : Exchange := { exchange with lastId := id - 1 }

/-- Up to `left` attempts, the next of which has number `attempt`. Only a wait that ran out and a
datagram that is not accepted lead to another one. -/
def attempts (socket : Socket) (policy : RetryPolicy) (query : Bytes)
    (accept : Bytes → ω → Except Rejection α × ω) :
    (left attempt : Nat) → Buffer responseCapacity → ω → Dialogue (Concluded ω α)
  | 0, _, response, lent => return ⟨none, response, lent⟩
  | left + 1, attempt, response, lent => do
    let .ok _ ← Dialogue.request (.write socket query) | return ⟨none, response, lent⟩
    let .ok _ ← Dialogue.request (.setTimeout socket (policy.timeoutFor attempt))
      | return ⟨none, response, lent⟩
    let received ← Dialogue.request (.read socket responseCapacity)
    let response := response.overwrite 0 received.data
    match received.result with
    | .error (.transportTimeout _) =>
      attempts socket policy query accept left (attempt + 1) response lent
    | .error _ => return ⟨none, response, lent⟩
    | .ok size =>
      match accept (response.bytes.take (min size responseCapacity)) lent with
      | (.ok value, lent) => return ⟨some value, response, lent⟩
      | (.error _, lent) => attempts socket policy query accept left (attempt + 1) response lent

/-- Takes the next id, builds the query and sends it. A question that cannot be built uses its id up
and sends nothing. -/
def transact (exchange : Exchange) (question : Question)
    (accept : (query : Bytes) → (id : UInt16) → Bytes → ω → Except Rejection α × ω) (lent : ω) :
    Dialogue (Option α × ω × Exchange) :=
  let id := exchange.lastId + 1
  match question.build id exchange.query with
  | (.error _, buffer) => return (none, lent, { exchange with lastId := id, query := buffer })
  | (.ok size, buffer) => do
    let query := buffer.bytes.take size
    let concluded ← attempts exchange.socket exchange.policy query (accept query id)
      exchange.policy.maxAttempts.toNat 0 exchange.response lent
    return (concluded.answer, concluded.lent,
      { exchange with lastId := id, query := buffer, response := concluded.response })

/-- The address of a host. -/
def lookupAddress (exchange : Exchange) (hostname : Bytes) : Dialogue (Option IPv4 × Exchange) := do
  let (answer, _, exchange) ← exchange.transact (.address hostname exchange.suffix)
    (fun query id datagram lent => (Response.address query datagram id, lent)) ()
  return (answer, exchange)

/-- The host name of an address, decoded into `out`; gives its length. -/
def lookupName {capacity : Nat} (exchange : Exchange) (address : IPv4) (out : Buffer capacity) :
    Dialogue (Option Nat × Buffer capacity × Exchange) :=
  exchange.transact (.name address)
    (fun query id datagram out => Response.name query datagram id out) out

/-- Ends the association. -/
def close (exchange : Exchange) : Dialogue Unit := Dialogue.request (.close exchange.socket)

inductive Step
  | address (hostname : Bytes)
  | name (address : IPv4) (capacity : Nat)
  deriving DecidableEq

/-- What a lookup gives back. A decoded name stands at the front of the buffer. -/
inductive Answer
  | address (result : Option IPv4)
  | name (result : Option Nat) (out : Bytes)
  deriving DecidableEq

def perform (exchange : Exchange) : Step → Dialogue (Answer × Exchange)
  | .address hostname => do
    let (result, exchange) ← exchange.lookupAddress hostname
    return (.address result, exchange)
  | .name target capacity => do
    let (result, out, exchange) ← exchange.lookupName target (Buffer.zero capacity)
    return (.name result out.bytes, exchange)

/-- The answers to all lookups in order, and the exchange after the last. -/
def performAll (exchange : Exchange) : List Step → Dialogue (List Answer × Exchange)
  | [] => return ([], exchange)
  | step :: steps => do
    let (answer, exchange) ← exchange.perform step
    let (answers, exchange) ← exchange.performAll steps
    return (answer :: answers, exchange)

end Exchange
end StubDns
