import StubDns.Dialogue

/-! Which associations are open at each point of a trace, and traces that keep to one at a time. -/
namespace StubDns

/-- The beginning or the end of an association. -/
inductive Turn
  | opened (socket : Socket)
  | closed (socket : Socket)
  deriving DecidableEq

namespace Event

def turn? : Event → Option Turn
  | ⟨.connect _, .ok socket⟩ => some (.opened socket)
  | ⟨.close socket, _⟩ => some (.closed socket)
  | _ => none

/-- The association that is written to, timed or read from. -/
def socket? (event : Event) : Option Socket :=
  match event.request with
  | .write socket _ => some socket
  | .setTimeout socket _ => some socket
  | .read socket _ => some socket
  | _ => none

/-- The server that is connected to, whether or not it can be reached. -/
def server? (event : Event) : Option Endpoint :=
  match event.request with
  | .connect server => some server
  | _ => none

/-- The association that is closed. -/
def closed? (event : Event) : Option Socket :=
  match event.request with
  | .close socket => some socket
  | _ => none

/-- What is open after an event when `current` is open before it. -/
def openAfter (current : List Socket) (event : Event) : List Socket :=
  match event.turn? with
  | some (.opened socket) => socket :: current
  | some (.closed socket) => current.erase socket
  | none => current

variable {event : Event} {socket : Socket}

/-- What uses an association neither opens nor closes one. -/
theorem ends_nothing_of_socket? (h : event.socket? = some socket) :
    event.turn? = none ∧ event.server? = none ∧ event.closed? = none := by
  obtain ⟨request, reply⟩ := event
  cases request with
  | write | setTimeout | read => exact ⟨rfl, rfl, rfl⟩
  | connect | drawId | close => cases h

theorem turn?_of_socket? (h : event.socket? = some socket) : event.turn? = none :=
  (ends_nothing_of_socket? h).1

theorem filterMap_of_socket? {events : List Event}
    (h : ∀ event ∈ events, event.socket? = some socket) :
    events.filterMap server? = [] ∧ events.filterMap closed? = [] := by
  simp only [List.filterMap_eq_nil_iff]
  exact ⟨fun event hevent => (ends_nothing_of_socket? (h event hevent)).2.1,
    fun event hevent => (ends_nothing_of_socket? (h event hevent)).2.2⟩

end Event

/-- What is open after `events` when `current` is open before them. -/
def openAfter (current : List Socket) (events : List Event) : List Socket :=
  events.foldl Event.openAfter current

/-- Whatever is used among `events` was opened among them, and is the only one then open. -/
def UsesOwn (events : List Event) : Prop :=
  ∀ earlier event later socket, events = earlier ++ event :: later →
    event.socket? = some socket → openAfter [] earlier = [socket]

/-- At most one association is open at a time in `events`, and none but the open one is used. -/
inductive Orderly : (before : Option Socket) → List Event → (after : Option Socket) → Prop
  | nil {current : Option Socket} : Orderly current [] current
  | opened {server : Endpoint} {socket : Socket} {events : List Event} {after : Option Socket} :
      Orderly (some socket) events after →
      Orderly none (⟨.connect server, .ok socket⟩ :: events) after
  | refused {server : Endpoint} {reason : ResolveError} {events : List Event}
      {after : Option Socket} : Orderly none events after →
      Orderly none (⟨.connect server, .error reason⟩ :: events) after
  | drew {current : Option Socket} {id : UInt16} {events : List Event} {after : Option Socket} :
      Orderly current events after → Orderly current (⟨.drawId, id⟩ :: events) after
  | used {socket : Socket} {event : Event} {events : List Event} {after : Option Socket} :
      event.socket? = some socket → Orderly (some socket) events after →
      Orderly (some socket) (event :: events) after
  | closed {socket : Socket} {events : List Event} {after : Option Socket} :
      Orderly none events after → Orderly (some socket) (⟨.close socket, ()⟩ :: events) after

namespace Orderly
variable {before mid after : Option Socket} {earlier later events : List Event} {event : Event}
  {socket : Socket}

theorem append (h : Orderly before earlier mid) (h' : Orderly mid later after) :
    Orderly before (earlier ++ later) after := by
  induction h with
  | nil => exact h'
  | opened _ ih => exact .opened (ih h')
  | refused _ ih => exact .refused (ih h')
  | drew _ ih => exact .drew (ih h')
  | used hsocket _ ih => exact .used hsocket (ih h')
  | closed _ ih => exact .closed (ih h')

theorem split (h : Orderly before (earlier ++ later) after) :
    ∃ mid, Orderly before earlier mid ∧ Orderly mid later after := by
  induction earlier generalizing before with
  | nil => exact ⟨before, .nil, h⟩
  | cons event earlier ih =>
    cases h with
    | opened h =>
      obtain ⟨mid, hfront, hback⟩ := ih h
      exact ⟨mid, .opened hfront, hback⟩
    | refused h =>
      obtain ⟨mid, hfront, hback⟩ := ih h
      exact ⟨mid, .refused hfront, hback⟩
    | drew h =>
      obtain ⟨mid, hfront, hback⟩ := ih h
      exact ⟨mid, .drew hfront, hback⟩
    | used hsocket h =>
      obtain ⟨mid, hfront, hback⟩ := ih h
      exact ⟨mid, .used hsocket hfront, hback⟩
    | closed h =>
      obtain ⟨mid, hfront, hback⟩ := ih h
      exact ⟨mid, .closed hfront, hback⟩

theorem of_socket (h : ∀ event ∈ events, event.socket? = some socket) :
    Orderly (some socket) events (some socket) := by
  induction events with
  | nil => exact .nil
  | cons event events ih =>
    obtain ⟨hevent, hevents⟩ := List.forall_mem_cons.mp h
    exact .used hevent (ih hevents)

theorem openAfter_eq (h : Orderly before events after) :
    openAfter before.toList events = after.toList := by
  induction h with
  | nil => rfl
  | opened _ ih => exact ih
  | refused _ ih => exact ih
  | drew _ ih => exact ih
  | used hsocket _ ih =>
    rw [openAfter, List.foldl_cons, Event.openAfter, Event.turn?_of_socket? hsocket]
    exact ih
  | @closed socket events _ _ ih =>
    have hnone : [socket].erase socket = [] := List.erase_cons_head socket []
    exact (congrArg (openAfter · events) hnone).trans ih

/-- What is used is open. -/
theorem openAfter_of_socket? (h : Orderly before (earlier ++ event :: later) after)
    (hsocket : event.socket? = some socket) : openAfter before.toList earlier = [socket] := by
  obtain ⟨mid, hfront, hback⟩ := h.split
  rw [hfront.openAfter_eq]
  cases hback with
  | opened => cases hsocket
  | refused => cases hsocket
  | drew => cases hsocket
  | used hopen _ => rw [Option.some.inj (hsocket.symm.trans hopen), Option.toList]
  | closed => cases hsocket

theorem usesOwn (h : Orderly none events after) : UsesOwn events := by
  rintro earlier event later socket rfl hsocket
  exact h.openAfter_of_socket? hsocket

/-- What was open before is not used once it is closed. -/
theorem usesOwn_cons_closed (h : Orderly none events after) (socket : Socket) :
    UsesOwn (⟨.close socket, ()⟩ :: events) := by
  intro earlier event later used hevents hsocket
  cases earlier with
  | nil =>
    obtain ⟨rfl, -⟩ := List.cons.inj hevents
    cases hsocket
  | cons first earlier =>
    obtain ⟨rfl, rfl⟩ := List.cons.inj hevents
    exact h.openAfter_of_socket? hsocket

/-- Openings and closings alternate: with the opening of what is open before and the closing of what
is open after, they are pairs. -/
theorem turns_eq (h : Orderly before events after) :
    ∃ sockets : List Socket,
      before.toList.map .opened ++ events.filterMap Event.turn? ++ after.toList.map .closed =
        sockets.flatMap fun socket => [Turn.opened socket, Turn.closed socket] := by
  induction h with
  | @nil current =>
    refine ⟨current.toList, ?_⟩
    cases current <;> rfl
  | opened _ ih => exact ih
  | refused _ ih => exact ih
  | drew _ ih => exact ih
  | used hsocket _ ih => rwa [List.filterMap_cons_none (Event.turn?_of_socket? hsocket)]
  | @closed socket _ _ _ ih =>
    obtain ⟨sockets, hsockets⟩ := ih
    refine ⟨socket :: sockets, ?_⟩
    rw [List.flatMap_cons, ← hsockets]
    rfl

end Orderly
end StubDns
