import Tipcutils.Lib.While
import Tipcutils.Lib.Wire
import Tipcutils.Tipcc.Events

/-!
# `Pipe.TopologyClient` — the topology client of `tipc-pipe`

`run_topology_client` subscribes to a service, and prints the events that it reads from the topology server. `--top` runs
it with the timeout `TIPC_WAIT_FOREVER`. It prints an event before it looks at what `read` has returned, and it takes the
end of the connection, for which `read` returns 0, for one more event.

**`stops_iff`** says what becomes of the events: without an error of `read` the client does not return, and the event that
it prints last has no name.

The server's side is a list of events and what comes behind them. An index outside of `event_name` is a round that fails.
Not modelled: calls of `socket`, `connect` and `write` that fail, which are reported, and after which `read` fails.
-/

namespace Tipcutils
namespace Pipe
namespace TopologyClient

open Tipcc (Subscr tipcPublished tipcSubscrTimeout tipcWaitForever tipcSubService)
open Tipcc.Events (sizeofEvent)

/-- `struct tipc_event`, as far as it is read, with the words as they are received. -/
structure Event where
  event : UInt32
  foundLower : UInt32
  foundUpper : UInt32
  seqLower : UInt32
  seqUpper : UInt32
deriving DecidableEq

/-- `struct tipc_event event = { 0 }`. -/
def Event.zero : Event := ⟨0, 0, 0, 0, 0⟩

/-- What comes behind the events: `read` returns 0 from then on, or fails. -/
inductive End where
  | closed
  | failed
deriving DecidableEq

/-- `event_name`; what has no designator is NULL. -/
def eventName : List (Option String) :=
  [none, some "TIPC_PUBLISHED", some "TIPC_WITHDRAWN", some "TIPC_SUBSCR_TIMEOUT"]

/-- What is printed about an event. -/
structure Line where
  name : Option String
  lower : UInt32
  upper : UInt32
deriving DecidableEq

/-- The text of it; `%s` prints NULL as `(null)`. -/
def Line.text (l : Line) : String :=
  "TIPC_TOP_SRV event " ++ l.name.getD "(null)" ++ " lower:" ++ toString l.lower ++ " upper:" ++ toString l.upper ++ " \n"

/-- The state at the head of the loop; `goesOn` is its condition, which is not tested before the first round. -/
structure State where
  events : List Event
  finish : End
  ret : ℤ
  goesOn : Bool
  lines : List Line
deriving DecidableEq

/-- `read(sd, &event, sizeof(event))`: what it returns, and what `event` holds then. -/
def State.read (s : State) : ℤ × Event :=
  match s.events with
  | e :: _ => (sizeofEvent, e)
  | [] =>
    match s.finish with
    | .closed => (0, .zero)
    | .failed => (-1, .zero)

variable (host : Endian)

/-- `ntohl(event.event)`, the index used into `event_name`. -/
def Event.index (e : Event) : ℕ := (ntohl host e.event).toNat

/-- The index in the next round. -/
def State.index (s : State) : ℕ := s.read.2.index host

/-- What is printed about an event with the name `name`. -/
def Event.line (name : Option String) (e : Event) : Line :=
  if ntohl host e.event = tipcSubscrTimeout then ⟨name, ntohl host e.seqLower, ntohl host e.seqUpper⟩
  else ⟨name, ntohl host e.foundLower, ntohl host e.foundUpper⟩

/-- What is printed about it. -/
def Event.printed (e : Event) : Line := e.line host (eventName[e.index host]?).join

/-- One round of the loop. -/
def round (timeout : UInt32) (s : State) : Option State :=
  let ret := s.read.1
  let event := s.read.2
  (eventName[event.index host]?).map fun name =>
    { s with
      events := s.events.tail
      ret := ret
      goesOn := timeout = tipcWaitForever ∧ 0 ≤ ret
      lines := s.lines ++ [event.line host name] }

def start (events : List Event) (finish : End) : State := ⟨events, finish, 0, true, []⟩

/-- The subscription, as it is written to the socket. -/
def subscr (serverType lower upper : Int32) (timeout : UInt32) : Subscr :=
  ⟨htonl host serverType.toUInt32, htonl host lower.toUInt32, htonl host upper.toUInt32, htonl host timeout,
    htonl host tipcSubService⟩

/-- What `run_topology_client` has written to the socket and to stderr, and what it returns. -/
structure Result where
  subscr : Subscr
  stderr : List String
  ret : ℤ
deriving DecidableEq

/-- `run_topology_client`, for at most `fuel` rounds. -/
def runTopologyClient (serverType lower upper : Int32) (timeout : UInt32) (events : List Event) (finish : End)
    (fuel : ℕ) : Option Result :=
  (whileLoop State.goesOn (round host timeout) fuel (start events finish)).map fun s =>
    ⟨subscr host serverType lower upper timeout, s.lines.map Line.text, s.ret⟩

/-- The rounds of a client that waits for ever. -/
abbrev ClientRounds : ℕ → State → State → Prop := Rounds State.goesOn (round host tipcWaitForever)

/-- The kinds of events that have a name. -/
def Named (i : ℕ) : Prop := ∃ name, eventName[i]? = some (some name)

/-! ## What a round does -/

/-- The state after a round that has printed `e`. -/
def State.took (s : State) (ret : ℤ) (e : Event) : State :=
  { s with
    events := s.events.tail
    ret := ret
    goesOn := 0 ≤ ret
    lines := s.lines ++ [e.printed host] }

/-- The cases of a round of a client that waits for ever. -/
inductive Effect (s : State) : State → Prop where
  | event (e : Event) (rest : List Event) (hread : s.events = e :: rest) (hindex : e.index host < eventName.length) :
      Effect s (s.took host sizeofEvent e)
  | closed (hread : s.events = []) (hend : s.finish = .closed) : Effect s (s.took host 0 .zero)
  | failed (hread : s.events = []) (hend : s.finish = .failed) : Effect s (s.took host (-1) .zero)

section
variable {host : Endian} {s s' t : State} {k : ℕ}

@[simp] theorem took_events (ret : ℤ) (e : Event) : (s.took host ret e).events = s.events.tail := rfl
@[simp] theorem took_lines (ret : ℤ) (e : Event) : (s.took host ret e).lines = s.lines ++ [e.printed host] := rfl

theorem named_iff {i : ℕ} : Named i ↔ i ≠ 0 ∧ i < eventName.length := by
  constructor
  · rintro ⟨name, hname⟩
    obtain ⟨hlen, hget⟩ := List.getElem?_eq_some_iff.mp hname
    refine ⟨?_, hlen⟩
    rintro rfl
    nomatch hget
  · rintro ⟨hpos, hlen⟩
    match i, hpos, hlen with
    | 1, _, _ => exact ⟨_, rfl⟩
    | 2, _, _ => exact ⟨_, rfl⟩
    | 3, _, _ => exact ⟨_, rfl⟩

theorem read_cons {e : Event} {rest : List Event} (h : s.events = e :: rest) : s.read = (sizeofEvent, e) := by
  rw [State.read, h]

theorem read_closed (h : s.events = []) (hend : s.finish = .closed) : s.read = (0, .zero) := by
  rw [State.read, h, hend]

theorem read_failed (h : s.events = []) (hend : s.finish = .failed) : s.read = (-1, .zero) := by
  rw [State.read, h, hend]

theorem closed_or_failed (s : State) : s.finish = .closed ∨ s.finish = .failed := by
  cases s.finish with
  | closed => exact .inl rfl
  | failed => exact .inr rfl

theorem index_of_cons {e : Event} {rest : List Event} (h : s.events = e :: rest) : s.index host = e.index host := by
  rw [State.index, read_cons h]

/-- Without an event, the index is 0. -/
theorem index_of_nil (h : s.events = []) : s.index host = 0 := by
  have hread : s.read.2 = .zero := by
    rcases closed_or_failed s with hend | hend
    · rw [read_closed h hend]
    · rw [read_failed h hend]
  rw [State.index, hread]
  cases host <;> decide

/-- A round fails if and only if its index is outside of `event_name`. -/
theorem exists_round_iff {timeout : UInt32} : (∃ s', round host timeout s = some s') ↔ s.index host < eventName.length := by
  rw [← Option.isSome_iff_exists, round, Option.isSome_map, isSome_getElem?]
  rfl

theorem round_of_lt (h : s.index host < eventName.length) :
    round host tipcWaitForever s = some (s.took host s.read.1 s.read.2) := by
  obtain ⟨name, hname⟩ : ∃ name, eventName[s.read.2.index host]? = some name := ⟨_, List.getElem?_eq_getElem h⟩
  simp only [round, State.took, Event.printed, hname, Option.map_some, Option.join_some, true_and]

theorem round_cons {e : Event} {rest : List Event} (hread : s.events = e :: rest) (hindex : e.index host < eventName.length) :
    round host tipcWaitForever s = some (s.took host sizeofEvent e) := by
  rw [← index_of_cons hread] at hindex
  rw [round_of_lt hindex, read_cons hread]

theorem round_nil (hread : s.events = []) : round host tipcWaitForever s = some (s.took host s.read.1 s.read.2) :=
  round_of_lt (by rw [index_of_nil hread]; decide)

theorem effect (h : round host tipcWaitForever s = some s') : Effect host s s' := by
  have hindex := exists_round_iff.mp ⟨s', h⟩
  rw [round_of_lt hindex] at h
  obtain rfl := Option.some.inj h
  cases hread : s.events with
  | cons e rest =>
    rw [index_of_cons hread] at hindex
    rw [read_cons hread]
    exact .event e rest hread hindex
  | nil =>
    rcases closed_or_failed s with hend | hend
    · rw [read_closed hread hend]
      exact .closed hread hend
    · rw [read_failed hread hend]
      exact .failed hread hend

/-! ## When the client returns -/

/-- The loop goes on, and no error of `read` comes, or an event is not in the table. -/
structure Endless (host : Endian) (s : State) : Prop where
  goesOn : s.goesOn = true
  more : s.finish = .closed ∨ ∃ e ∈ s.events, eventName.length ≤ e.index host

theorem Endless.round (hI : Endless host s) (h : round host tipcWaitForever s = some s') : Endless host s' := by
  cases effect h with
  | event e rest hread hindex =>
    refine ⟨rfl, hI.more.imp_right ?_⟩
    rintro ⟨e', hmem, hout⟩
    rw [hread] at hmem
    rcases List.mem_cons.mp hmem with rfl | hrest
    · exact absurd hindex (Nat.not_lt.mpr hout)
    · exact ⟨e', by rwa [took_events, hread], hout⟩
  | closed hread hend => exact ⟨rfl, .inl hend⟩
  | failed hread hend =>
    rcases hI.more with hclosed | ⟨e, hmem, -⟩
    · rw [hend] at hclosed
      nomatch hclosed
    · rw [hread] at hmem
      nomatch hmem

/-- **What the client prints** if the events are in the table, and an error comes behind them: the events, and one more
    that has never been received. -/
theorem loop_of_failed {events : List Event} (hgo : s.goesOn = true) (hread : s.events = events) (hend : s.finish = .failed)
    (hall : ∀ e ∈ events, e.index host < eventName.length) :
    whileLoop State.goesOn (round host tipcWaitForever) (events.length + 2) s = some { s with
      events := []
      ret := -1
      goesOn := false
      lines := s.lines ++ events.map (Event.printed host) ++ [Event.zero.printed host] } := by
  induction events generalizing s with
  | nil =>
    rw [List.length_nil, whileLoop_of_true hgo (round_nil hread), read_failed hread hend, whileLoop_of_false rfl,
      State.took, hread, List.map_nil, List.append_nil]
    rfl
  | cons e rest ih =>
    have hrest := ih (s := s.took host sizeofEvent e) rfl (by rw [took_events, hread]; rfl) hend fun e he =>
      hall e (List.mem_cons_of_mem _ he)
    rw [List.length_cons, Nat.add_right_comm, whileLoop_of_true hgo (round_cons hread (hall e List.mem_cons_self)), hrest,
      List.map_cons, took_lines, List.append_assoc s.lines, List.singleton_append]
    rfl

theorem run_of_failed (serverType lower upper : Int32) {events : List Event}
    (hall : ∀ e ∈ events, e.index host < eventName.length) :
    runTopologyClient host serverType lower upper tipcWaitForever events .failed (events.length + 2) =
      some ⟨subscr host serverType lower upper tipcWaitForever,
        (events.map (Event.printed host) ++ [Event.zero.printed host]).map Line.text, -1⟩ := by
  have hread : (start events .failed).events = events := rfl
  rw [runTopologyClient, loop_of_failed rfl hread rfl hall, Option.map_some, start, List.nil_append]

theorem returns_iff (host : Endian) (serverType lower upper : Int32) (events : List Event) (finish : End) :
    (∃ fuel r, runTopologyClient host serverType lower upper tipcWaitForever events finish fuel = some r) ↔
      finish = .failed ∧ ∀ e ∈ events, e.index host < eventName.length := by
  constructor
  · rintro ⟨fuel, r, hrun⟩
    by_contra hnot
    have hendless : Endless host (start events finish) := by
      refine ⟨rfl, ?_⟩
      rcases closed_or_failed (start events finish) with hend | hend
      · exact .inl hend
      · right
        by_contra hall
        exact hnot ⟨hend, fun e he => Nat.not_le.mp fun hout => hall ⟨e, he, hout⟩⟩
    rw [runTopologyClient, whileLoop_of_never (Endless host) (fun _ => Endless.goesOn) (fun _ _ => Endless.round) hendless]
      at hrun
    nomatch hrun
  · rintro ⟨rfl, hall⟩
    exact ⟨_, _, run_of_failed serverType lower upper hall⟩

/-! ## The names of the events -/

/-- If all events are in the table, the client comes to the point where no events are left. -/
theorem exists_rounds_nil {events : List Event} (hgo : s.goesOn = true) (hread : s.events = events)
    (hall : ∀ e ∈ events, e.index host < eventName.length) :
    ∃ k t, ClientRounds host k s t ∧ t.goesOn = true ∧ t.events = [] := by
  induction events generalizing s with
  | nil => exact ⟨0, s, .refl, hgo, hread⟩
  | cons e rest ih =>
    obtain ⟨k, t, hrounds, ht⟩ := ih (s := s.took host sizeofEvent e) rfl (by rw [took_events, hread]; rfl) fun e he =>
      hall e (List.mem_cons_of_mem _ he)
    exact ⟨k + 1, t, .head hgo (round_cons hread (hall e List.mem_cons_self)) hrounds, ht⟩

/-- The events that are left are some of those that were there. -/
theorem mem_of_rounds (h : ClientRounds host k s t) {e : Event} (he : e ∈ t.events) : e ∈ s.events := by
  have hsub : t.events ⊆ s.events := by
    refine h.inv (I := fun t => t.events ⊆ s.events) (fun t t' ht _ hb => ?_) (List.Subset.refl _)
    have htail : t'.events = t.events.tail := by cases effect hb <;> rfl
    rw [htail]
    exact fun _ hmem => ht (List.mem_of_mem_tail hmem)
  exact hsub he

/-- Every event of the list is printed under its name if and only if all of them have names. -/
theorem names_iff {events : List Event} (hgo : s.goesOn = true) (hread : s.events = events) :
    (∀ k t, ClientRounds host k s t → t.goesOn = true → t.events ≠ [] → Named (t.index host)) ↔
      ∀ e ∈ events, Named (e.index host) := by
  constructor
  · intro h
    induction events generalizing s with
    | nil => nofun
    | cons e rest ih =>
      have hfirst : Named (e.index host) := by
        rw [← index_of_cons hread]
        exact h 0 s .refl hgo (by rw [hread]; nofun)
      have hround := round_cons hread (named_iff.mp hfirst).2
      intro e' he'
      rcases List.mem_cons.mp he' with rfl | hrest
      · exact hfirst
      · exact ih (s := s.took host sizeofEvent e) rfl (by rw [took_events, hread]; rfl)
          (fun k t hrounds => h (k + 1) t (.head hgo hround hrounds)) e' hrest
  · intro hall k t hrounds _ hne
    cases hmore : t.events with
    | nil => exact absurd hmore hne
    | cons e rest =>
      rw [index_of_cons hmore]
      exact hall e (hread ▸ mem_of_rounds hrounds (by rw [hmore]; exact List.mem_cons_self))

end

/-! ## When the client stops -/

/-- The client returns, and the index into `event_name` is a kind of events in every round. -/
structure Stops (serverType lower upper : Int32) (events : List Event) (finish : End) : Prop where
  returns : ∃ fuel r, runTopologyClient host serverType lower upper tipcWaitForever events finish fuel = some r
  named : ∀ k t, ClientRounds host k (start events finish) t → t.goesOn = true → Named (t.index host)

/-- **When the client stops**, and under which names it prints. It never does both; it returns if and only if all events are
    in the table, and an error comes behind them; and the events that it receives are printed under their names if and
    only if they all have one. -/
theorem stops_iff (host : Endian) (serverType lower upper : Int32) (events : List Event) (finish : End) :
    ¬ Stops host serverType lower upper events finish ∧
    ((∃ fuel r, runTopologyClient host serverType lower upper tipcWaitForever events finish fuel = some r) ↔
      finish = .failed ∧ ∀ e ∈ events, e.index host < eventName.length) ∧
    ((∀ k t, ClientRounds host k (start events finish) t → t.goesOn = true → t.events ≠ [] → Named (t.index host)) ↔
      ∀ e ∈ events, Named (e.index host)) := by
  have hreturns := returns_iff host serverType lower upper events finish
  refine ⟨fun h => ?_, hreturns, names_iff rfl rfl⟩
  -- after the last event, the index is that of an event with zeros
  obtain ⟨k, t, hrounds, hgo, hnil⟩ := exists_rounds_nil (s := start events finish) rfl rfl (hreturns.mp h.returns).2
  have hnamed := h.named k t hrounds hgo
  rw [index_of_nil hnil] at hnamed
  exact (named_iff.mp hnamed).1 rfl

/-- **A server that goes away:** the client that has connected to it does not return. -/
theorem client_spins : ¬ ∀ (host : Endian) (serverType lower upper : Int32) (events : List Event) (finish : End),
    Stops host serverType lower upper events finish := by
  intro h
  have hreturns := (h .little 1000 0 0 [] .closed).returns
  rw [returns_iff] at hreturns
  nomatch hreturns.1

end TopologyClient
end Pipe
end Tipcutils
