/-
**The hub and the event streams.**

The hub has one broadcast channel for a submission that somebody subscribed to. A stream holds a
receiver of its channel, with the states that wait in it; it emits the row it read first and then
what it receives, and ends after DONE. A channel is dropped when no receiver is left (`prune`).
-/

import Codexec.Server.Store
import Codexec.Library.Ring

namespace Codexec.Server

open Codexec Codexec.Library

inductive StreamPhase
  /-- Subscribed; the row is not read yet. -/
  | subscribed
  /-- The state to emit first, and whether DONE was emitted. -/
  | streaming (first : Option Submission) (finished : Bool)
  | closed
  deriving DecidableEq

/-- One request for the events of a submission. -/
structure Stream where
  number : Nat
  id : String
  channel : Nat
  /-- The receive buffer. -/
  waiting : List Submission
  phase : StreamPhase
  emitted : List Submission
  deriving DecidableEq

namespace Stream

variable (self : Stream)

/-- Whether the receiver exists. -/
def live : Bool := decide (self.phase ≠ .closed)

/-- `broadcast::channel(64)`: a receiver that lags goes on with the oldest state that is kept. -/
def receive (sub : Submission) : Stream := { self with waiting := Ring.push 64 self.waiting sub }

/-- The row was read. -/
def opened (reply : Except StoreError (Option Submission)) : Stream :=
  match reply with
  | .ok (some current) => { self with phase := .streaming (some current) false }
  | _ => { self with phase := .closed }

/-- One item of the response. -/
def emit (sub : Submission) : Stream :=
  { self with
    phase := .streaming none (decide (sub.status = .done))
    emitted := self.emitted ++ [sub] }

/-- The next poll of the response; `connected` says whether the channel has a sender. -/
def poll (connected : Bool) : Stream :=
  match self.phase with
  | .streaming _ true => { self with phase := .closed }
  | .streaming (some sub) false => self.emit sub
  | .streaming none false =>
    match self.waiting with
    | sub :: rest => ({ self with waiting := rest } : Stream).emit sub
    | [] => if connected then self else { self with phase := .closed }
  | _ => self

theorem opened_number (reply : Except StoreError (Option Submission)) (stream : Stream) :
    (stream.opened reply).number = stream.number := by
  unfold opened
  split <;> rfl

theorem poll_number (connected : Bool) (stream : Stream) :
    (stream.poll connected).number = stream.number := by
  unfold poll
  split
  · rfl
  · rfl
  · split
    · rfl
    · split <;> rfl
  · rfl

end Stream

/-- The channels, by submission, and the receivers. -/
structure Hub where
  channels : String → Option Nat
  /-- Channels created so far. -/
  created : Nat
  streams : Table Stream Stream.number

namespace Hub

def empty : Hub := ⟨fun _ => none, 0, Table.empty⟩

variable (self : Hub)

/-- The channel of a submission, new if there is none. -/
def channelOf (id : String) : Nat := (self.channels id).getD self.created

/-- The receiver of a new request. -/
def receiver (id : String) (number : Nat) : Stream :=
  ⟨number, id, self.channelOf id, [], .subscribed, []⟩

/-- `Hub::subscribe` -/
def subscribe (id : String) (number : Nat) (fresh : self.streams.get number = none) : Hub where
  channels := Function.update self.channels id (some (self.channelOf id))
  created := if (self.channels id).isSome then self.created else self.created + 1
  streams := self.streams.insert (self.receiver id number) fresh

/-- The receivers of a channel. -/
def listens (channel : Nat) (stream : Stream) : Bool :=
  decide (stream.channel = channel) && stream.live

/-- `Hub::publish` -/
def publish (sub : Submission) : Hub :=
  match self.channels sub.id with
  | none => self
  | some channel =>
    { self with
      streams := self.streams.update (listens channel) (·.receive sub) fun _ => rfl }

/-- `Hub::prune` -/
def prune : Hub :=
  { self with
    channels := fun id => (self.channels id).filter fun channel =>
      decide (0 < self.streams.affected (listens channel)) }

/-- One stream changes by itself. -/
def change (number : Nat) (set : Stream → Stream)
    (keeps : ∀ stream, (set stream).number = stream.number) : Hub :=
  { self with streams := self.streams.update (fun stream => stream.number = number) set keeps }

/-- Whether the channel of a stream has a sender. -/
def connected (stream : Stream) : Bool := decide (self.channels stream.id = some stream.channel)

/-- A request has read the row of its submission. -/
def opened (number : Nat) (reply : Except StoreError (Option Submission)) : Hub :=
  self.change number (·.opened reply) (Stream.opened_number reply)

/-- The response of a request is polled. -/
def polled (number : Nat) (stream : Stream) : Hub :=
  self.change number (·.poll (self.connected stream)) (Stream.poll_number _)

/-- The client of a request goes away. -/
def hungUp (number : Nat) : Hub :=
  self.change number (fun stream => { stream with phase := .closed }) fun _ => rfl

end Hub

end Codexec.Server
