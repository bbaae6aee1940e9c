import StubDns.Address.IPv4
import StubDns.Settings

/-! Host addresses, how they can be reached, and the table of classified ones. An entry is made on
first use and never goes away. -/
namespace StubDns

/-- What a caller may ask for. Only `inet` is served. -/
inductive AddressFamily
  | inet
  | inet6
  | unspec
  deriving DecidableEq, Repr

inductive AddressState
  /-- The host itself. -/
  | preferred
  /-- A multicast group that the host has not joined. -/
  | nonMember
  /-- A neighbour on an attached link. -/
  | onLink
  /-- Behind a router. -/
  | destination
  deriving DecidableEq, Repr

def AddressState.text : AddressState → String
  | .preferred => "preferred"
  | .nonMember => "non-member"
  | .onLink => "on-link"
  | .destination => "destination"

structure HostAddress where
  address : IPv4
  state : AddressState
  scopeId : UInt32
  prefixLen : Option Nat := none
  deriving DecidableEq, Repr

def HostAddress.text (host : HostAddress) : String :=
  s!"{host.address.text} ({host.state.text})"

/-- An attached network and the interface that reaches it. -/
structure Link where
  network : Subnet
  scopeId : UInt32
  deriving DecidableEq

/-- A configured link whose network cannot be read. -/
structure LinkError where
  network : String
  reason : SubnetError
  deriving DecidableEq, Repr

def LinkError.message (error : LinkError) : String :=
  s!"Invalid link network {error.network}: " ++ error.reason.message

/-- One object of the registry; the same number is the same object. -/
structure Registered where
  number : Nat
  host : HostAddress
  deriving DecidableEq

structure RegistryEntry where
  address : IPv4
  scopeId : UInt32
  object : Registered
  deriving DecidableEq

/-- Entries stand in the order of their first use. -/
structure Registry where
  links : List Link := []
  entries : List RegistryEntry := []
  deriving DecidableEq

namespace Registry

/-- Matches every interface. -/
def anyScope : UInt32 := 0

def withLink (registry : Registry) (link : Link) : Registry :=
  { registry with links := registry.links ++ [link] }

def addLinks (registry : Registry) : List LinkSettings → Except LinkError Registry
  | [] => .ok registry
  | link :: links =>
    match Subnet.parse link.network.toList with
    | .ok network => (registry.withLink ⟨network, link.scopeId⟩).addLinks links
    | .error reason => .error ⟨link.network, reason⟩

/-- A registry with configured links; the first bad one is reported. -/
def ofLinks (links : List LinkSettings) : Except LinkError Registry :=
  ({} : Registry).addLinks links

def size (registry : Registry) : Nat := registry.entries.length

def reaches (address : IPv4) (scopeId : UInt32) (link : Link) : Bool :=
  (scopeId == anyScope || link.scopeId == scopeId) && link.network.contains address

/-- The longer network wins, of equally long ones the later. -/
def prefer (best : Option Link) (link : Link) : Option Link :=
  match best with
  | none => some link
  | some old => if old.network.prefixLen ≤ link.network.prefixLen then some link else some old

/-- The link that holds `address` on the wanted interface. -/
def linkFor (links : List Link) (address : IPv4) (scopeId : UInt32) : Option Link :=
  (links.filter (reaches address scopeId)).foldl prefer none

/-- The host that an address and a scope stand for, given the attached links. -/
def classify (links : List Link) (address : IPv4) (scopeId : UInt32) : HostAddress :=
  if address.isLoopback then
    { address, state := .preferred, scopeId := 1, prefixLen := some 8 }
  else if address.isMulticast then
    { address, state := .nonMember, scopeId }
  else match linkFor links address scopeId with
    | some link =>
      { address, state := .onLink, scopeId := link.scopeId,
        prefixLen := some link.network.prefixLen }
    | none => { address, state := .destination, scopeId }

def find? (registry : Registry) (address : IPv4) (scopeId : UInt32) : Option RegistryEntry :=
  registry.entries.find? fun entry => entry.address = address ∧ entry.scopeId = scopeId

/-- The object of an address and a scope, made now if it is not there. -/
def hostByAddress (registry : Registry) (address : IPv4) (scopeId : UInt32) :
    Registered × Registry :=
  match registry.find? address scopeId with
  | some entry => (entry.object, registry)
  | none =>
    let object : Registered := ⟨registry.size, classify registry.links address scopeId⟩
    (object, { registry with entries := registry.entries ++ [⟨address, scopeId, object⟩] })

end Registry
end StubDns
