/-
This file runs several receivers side by side on one table.

Each endpoint of a session has its own limit, pending bytes and iterators. The table is
shared: an endpoint uses it for the time of one request and leaves it to the next. A request
yields its answer, the number of bytes that are then pending at the endpoint, and what was
recorded meanwhile.
-/

import ZeroFrame.Link.Script

namespace ZeroFrame

/-- One of the receivers of a session, without the table. -/
structure Endpoint where
  limit : Option Nat
  pending : Bytes
  /-- Which iterators are live, the newest first. -/
  iterators : List Bool
  deriving DecidableEq, Repr

def Endpoint.fresh (limit : Option Nat) : Endpoint := ⟨limit, [], []⟩

/-- Endpoints with the table that they share. -/
structure Session (τ : Type) where
  table : τ
  endpoints : List Endpoint
  deriving Repr

/-- What can be asked of an endpoint. -/
inductive Request where
  | receive (chunk : Bytes)
  | decode
  /-- Takes all frames. -/
  | collect
  | openIterator
  /-- Takes a frame from an iterator, counted from the newest. -/
  | next (iterator : Nat)
  | reportNext (script : Script)
  | reportAll (script : Script)
  deriving Repr

/-- What an endpoint answers. -/
inductive Answer (φ : Type) where
  | done
  | decoded (outcome : Except Fault φ)
  | collected (frames : List φ) (interruption : Option Fault)
  | item (item : Receiver.Item φ)
  /-- The events that the observer heard come first to last. -/
  | reported (heard : List (Event φ)) (outcome : Except Fault Bool)
  | reportedAll (heard : List (Event φ)) (ending : Exchange.Ending)

/-- An answer with the state of the endpoint afterwards. -/
structure Response (φ : Type) where
  answer : Answer φ
  pending : Nat
  log : List Record

namespace Endpoint

variable {τ φ : Type}

/-- The endpoint as a receiver on a table. -/
def receiver (endpoint : Endpoint) (table : τ) : Receiver τ :=
  ⟨endpoint.limit, endpoint.pending, table, []⟩

/-- Carries out a request, on the iterators of the endpoint and on its receiver. -/
def serve [Table τ φ] (endpoint : Endpoint) (receiver : Receiver τ) :
    Request → Answer φ × List Bool × Receiver τ
  | .receive chunk => (.done, endpoint.iterators, receiver.receive chunk)
  | .decode =>
    let (outcome, receiver) := receiver.decode
    (.decoded outcome, endpoint.iterators, receiver)
  | .collect =>
    let (frames, interruption, receiver) := receiver.collect
    (.collected frames interruption, endpoint.iterators, receiver)
  | .openIterator => (.done, true :: endpoint.iterators, receiver)
  | .next iterator =>
    let (item, live, receiver) := receiver.next (endpoint.iterators.getD iterator false)
    (.item item, endpoint.iterators.set iterator live, receiver)
  | .reportNext script =>
    let (outcome, exchange) :=
      (Exchange.start receiver).reportNext script.observer script.depth
    (.reported exchange.heard.reverse outcome, endpoint.iterators, exchange.receiver)
  | .reportAll script =>
    let (ending, exchange) :=
      (Exchange.start receiver).reportAll script.observer script.depth (script.rounds receiver)
    (.reportedAll exchange.heard.reverse ending, endpoint.iterators, exchange.receiver)

end Endpoint

namespace Session

variable {τ φ : Type}

/-- The number of bytes pending at an endpoint. -/
def pendingAt (session : Session τ) (place : Nat) : Nat :=
  match session.endpoints[place]? with
  | none => 0
  | some endpoint => endpoint.pending.length

/-- Carries out a request at an endpoint; nothing answers at a place without an endpoint. -/
def request [Table τ φ] (session : Session τ) (place : Nat) (request : Request) :
    Option (Response φ) × Session τ :=
  match session.endpoints[place]? with
  | none => (none, session)
  | some endpoint =>
    let (answer, iterators, receiver) := endpoint.serve (endpoint.receiver session.table) request
    let endpoint := { endpoint with pending := receiver.pending, iterators := iterators }
    (some ⟨answer, receiver.pending.length, receiver.log⟩,
      ⟨receiver.table, session.endpoints.set place endpoint⟩)

end Session

end ZeroFrame
