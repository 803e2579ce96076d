/-
This file shows that receivers that share a table do not notice each other.

A request at one endpoint of a session changes that endpoint and, through the payloads that it
decodes, the table; nothing else. A verbatim table and a registry stay as they are when they
decode. So whatever is asked of the other endpoints in between, and whatever their observers do,
an endpoint answers, records and keeps what it would if nothing were asked of the others, or
if there were no others.
-/

import ZeroFrame.Proofs.Link.History
import ZeroFrame.Table.Any

namespace ZeroFrame

variable {τ φ : Type}

/-! ### Tables that decoding does not change -/

/-- Decoding a payload leaves the table as it is. -/
def Table.Steady [Table τ φ] (table : τ) : Prop :=
  ∀ payload, (Table.decode (φ := φ) table payload).2 = table

/-- The tables that can be shared: a rehearsed table counts its payloads, the others do not. -/
inductive AnyTable.Shareable : AnyTable → Prop where
  | verbatim (table : Verbatim) : Shareable (.verbatim table)
  | messages (registry : Registry) : Shareable (.messages registry)

theorem AnyTable.Shareable.steady {table : AnyTable} (shareable : table.Shareable) :
    Table.Steady table := by
  cases shareable with
  | verbatim table => exact fun _ => rfl
  | messages registry => exact fun _ => rfl

theorem Receiver.kept_table [Table τ φ] {table : τ} (steady : Table.Steady table) :
    Kept fun receiver : Receiver τ => receiver.table = table where
  receive _ _ same := same
  dropFrame _ _ same := same
  tableDecode receiver payload same := by
    show (Table.decode receiver.table payload).2 = table
    rw [same]
    exact steady payload
  log _ _ same := same

/-! ### Entries for a place -/

/-- The entries for one place, in order. -/
def entriesAt {α : Type} (place : Nat) (entries : List (Nat × α)) : List α :=
  (entries.filter (·.1 = place)).map Prod.snd

section Entries

variable {α : Type}

theorem entriesAt_cons_self (place : Nat) (entry : α) (entries : List (Nat × α)) :
    entriesAt place ((place, entry) :: entries) = entry :: entriesAt place entries := by
  unfold entriesAt
  rw [List.filter_cons_of_pos (by simp), List.map_cons]

theorem entriesAt_cons_other {place other : Nat} (elsewhere : other ≠ place) (entry : α)
    (entries : List (Nat × α)) :
    entriesAt place ((other, entry) :: entries) = entriesAt place entries := by
  unfold entriesAt
  rw [List.filter_cons_of_neg (by simpa using elsewhere)]

end Entries

/-! ### Errands -/

/-- Something that is asked of an endpoint: a request, or a report to an observer of any kind. -/
inductive Errand (φ : Type) where
  | request (request : Request)
  | reportNext (observer : Observer φ) (depth : Nat)
  | reportAll (observer : Observer φ) (depth rounds : Nat)

/-- Carries out an errand, on the iterators of the endpoint and on its receiver. -/
def Endpoint.perform [Table τ φ] (endpoint : Endpoint) (receiver : Receiver τ) :
    Errand φ → Answer φ × List Bool × Receiver τ
  | .request request => endpoint.serve receiver request
  | .reportNext observer depth =>
    let (outcome, exchange) := (Exchange.start receiver).reportNext observer depth
    (.reported exchange.heard.reverse outcome, endpoint.iterators, exchange.receiver)
  | .reportAll observer depth rounds =>
    let (ending, exchange) := (Exchange.start receiver).reportAll observer depth rounds
    (.reportedAll exchange.heard.reverse ending, endpoint.iterators, exchange.receiver)

/-- Nothing that an endpoint can be asked changes a steady table. -/
theorem Endpoint.table_perform [Table τ φ] {receiver : Receiver τ}
    (steady : Table.Steady receiver.table) (endpoint : Endpoint) (errand : Errand φ) :
    (endpoint.perform receiver errand).2.2.table = receiver.table := by
  have kept := (Receiver.kept_table steady).keptOn
  have sound : Exchange.Sound (fun other : Receiver τ => other.table = receiver.table)
      (fun _ : Report φ => True) (.start receiver) := ⟨rfl, nofun⟩
  have reportAll (observer : Observer φ) (depth rounds : Nat) :
      ((Exchange.start receiver).reportAll observer depth rounds).2.receiver.table =
        receiver.table :=
    (sound.reportFrom kept (fun _ _ _ _ _ => trivial) observer.hands_true depth rounds 0).receiver
  cases errand with
  | request request =>
    cases request with
    | receive chunk => rfl
    | decode => exact kept.decode rfl
    | collect => exact kept.collect rfl
    | openIterator => rfl
    | next iterator => exact kept.next rfl _
    | reportNext script => exact kept.reportNext script.observer.hands_true script.depth rfl
    | reportAll script => exact reportAll script.observer script.depth (script.rounds receiver)
  | reportNext observer depth => exact kept.reportNext observer.hands_true depth rfl
  | reportAll observer depth rounds => exact reportAll observer depth rounds

namespace Session

variable [Table τ φ] {session : Session τ} {place other : Nat}

/-- Carries out an errand at an endpoint; nothing answers at a place without an endpoint. -/
def perform (session : Session τ) (place : Nat) (errand : Errand φ) :
    Option (Response φ) × Session τ :=
  match session.endpoints[place]? with
  | none => (none, session)
  | some endpoint =>
    let (answer, iterators, receiver) := endpoint.perform (endpoint.receiver session.table) errand
    let endpoint := { endpoint with pending := receiver.pending, iterators := iterators }
    (some ⟨answer, receiver.pending.length, receiver.log⟩,
      ⟨receiver.table, session.endpoints.set place endpoint⟩)

/-- A request is an errand like the others. -/
theorem request_eq_perform (session : Session τ) (place : Nat) (request : Request) :
    session.request (φ := φ) place request = session.perform place (.request request) := rfl

/-- Carries out errands in order, each at its place, and keeps what answered at which place. -/
def run (session : Session τ) :
    List (Nat × Errand φ) → List (Nat × Option (Response φ)) × Session τ
  | [] => ([], session)
  | (place, errand) :: errands =>
    let (response, after) := session.perform place errand
    let (responses, last) := after.run errands
    ((place, response) :: responses, last)

theorem run_cons (session : Session τ) (place : Nat) (errand : Errand φ)
    (errands : List (Nat × Errand φ)) :
    session.run ((place, errand) :: errands) =
      ((place, (session.perform place errand).1) ::
          ((session.perform place errand).2.run errands).1,
        ((session.perform place errand).2.run errands).2) := rfl

/-! ### One errand -/

theorem table_perform (steady : Table.Steady session.table) (place : Nat) (errand : Errand φ) :
    (session.perform place errand).2.table = session.table := by
  unfold perform
  cases session.endpoints[place]? with
  | none => rfl
  | some endpoint => exact Endpoint.table_perform steady endpoint errand

/-- An errand at another place leaves an endpoint alone. -/
theorem perform_other (elsewhere : other ≠ place) (errand : Errand φ) :
    (session.perform other errand).2.endpoints[place]? = session.endpoints[place]? := by
  unfold perform
  cases session.endpoints[other]? with
  | none => rfl
  | some endpoint => exact List.getElem?_set_ne elsewhere

/-- Two sessions with the same table and the same endpoint, each at a place of its own. -/
structure Agree (whole alone : Session τ) (place spot : Nat) : Prop where
  table : whole.table = alone.table
  endpoint : whole.endpoints[place]? = alone.endpoints[spot]?

namespace Agree

variable {whole alone : Session τ} {spot : Nat}

/-- What is done elsewhere does not count. -/
theorem perform_other (agree : Agree whole alone place spot) (steady : Table.Steady whole.table)
    (elsewhere : other ≠ place) (errand : Errand φ) :
    Agree (whole.perform other errand).2 alone place spot :=
  ⟨(table_perform steady other errand).trans agree.table,
    (Session.perform_other elsewhere errand).trans agree.endpoint⟩

/-- The same errand has the same answer. -/
theorem perform (agree : Agree whole alone place spot) (errand : Errand φ) :
    (whole.perform place errand).1 = (alone.perform spot errand).1 ∧
      Agree (whole.perform place errand).2 (alone.perform spot errand).2 place spot := by
  unfold Session.perform
  rw [agree.endpoint, agree.table]
  cases here : alone.endpoints[spot]? with
  | none => exact ⟨rfl, agree⟩
  | some endpoint =>
    have within := (List.getElem?_eq_some_iff.mp (agree.endpoint.trans here)).1
    have inside := (List.getElem?_eq_some_iff.mp here).1
    refine ⟨rfl, rfl, ?_⟩
    exact (List.getElem?_set_self within).trans (List.getElem?_set_self inside).symm

/-- Of a run of errands, those at a place are answered as they are without the others. -/
theorem run (agree : Agree whole alone place spot) (steady : Table.Steady whole.table)
    (errands : List (Nat × Errand φ)) :
    entriesAt place (whole.run errands).1 =
        entriesAt spot (alone.run ((entriesAt place errands).map (Prod.mk spot))).1 ∧
      Agree (whole.run errands).2
        (alone.run ((entriesAt place errands).map (Prod.mk spot))).2 place spot := by
  induction errands generalizing whole alone with
  | nil => exact ⟨rfl, agree⟩
  | cons first errands inductionHypothesis =>
    obtain ⟨other, errand⟩ := first
    have still : Table.Steady (whole.perform other errand).2.table :=
      (table_perform steady other errand).symm ▸ steady
    by_cases here : other = place
    · subst here
      obtain ⟨answer, after⟩ := agree.perform errand
      obtain ⟨answers, last⟩ := inductionHypothesis after still
      rw [entriesAt_cons_self, List.map_cons, run_cons, run_cons, entriesAt_cons_self,
        entriesAt_cons_self]
      exact ⟨congrArg₂ List.cons answer answers, last⟩
    · rw [entriesAt_cons_other here, run_cons, entriesAt_cons_other here]
      exact inductionHypothesis (agree.perform_other steady here errand) still

end Agree

theorem table_run (steady : Table.Steady session.table) (errands : List (Nat × Errand φ)) :
    (session.run errands).2.table = session.table := by
  induction errands generalizing session with
  | nil => rfl
  | cons first errands inductionHypothesis =>
    obtain ⟨place, errand⟩ := first
    have same := table_perform steady place errand
    exact (inductionHypothesis (same.symm ▸ steady)).trans same

end Session

/-! ### Endpoints on a shared table -/

open Session

/-- Endpoints that share a verbatim table or a registry do not interfere. Of any interleaving of
errands, those at an endpoint are answered as in the run of these alone, in the same order: with
the same outcomes, the same records and the same reports to the same observers, and with the
same pending bytes and iterators at the end. The other endpoints need not be there at all. -/
theorem endpoints_keep_apart {table : AnyTable} (shareable : table.Shareable)
    (endpoints : List Endpoint) (errands : List (Nat × Errand (Option Frame))) (place : Nat) :
    let whole := run ⟨table, endpoints⟩ errands
    let own := entriesAt place errands
    let alone := run ⟨table, endpoints⟩ (own.map (Prod.mk place))
    whole.2.table = table ∧
      entriesAt place whole.1 = entriesAt place alone.1 ∧
      whole.2.endpoints[place]? = alone.2.endpoints[place]? ∧
      ∀ endpoint, endpoints[place]? = some endpoint →
        let single := run ⟨table, [endpoint]⟩ (own.map (Prod.mk 0))
        entriesAt place whole.1 = entriesAt 0 single.1 ∧
          whole.2.endpoints[place]? = single.2.endpoints[0]? := by
  intro whole own alone
  have steady : Table.Steady (φ := Option Frame) (⟨table, endpoints⟩ : Session AnyTable).table :=
    shareable.steady
  have together : Agree (⟨table, endpoints⟩ : Session AnyTable) ⟨table, endpoints⟩ place place :=
    ⟨rfl, rfl⟩
  obtain ⟨answers, last⟩ := together.run steady errands
  refine ⟨table_run steady errands, answers, last.endpoint, fun endpoint found => ?_⟩
  have apart : Agree (⟨table, endpoints⟩ : Session AnyTable) ⟨table, [endpoint]⟩ place 0 :=
    ⟨rfl, found⟩
  obtain ⟨answers, last⟩ := apart.run steady errands
  exact ⟨answers, last.endpoint⟩

/-- The first endpoint takes a message and gives up more than its limit, while the second one opens
an iterator, has an observer that hands a chunk over, and ends with bytes that are no codeword. -/
theorem endpoints_keep_apart_interleaved :
    let table : AnyTable := .messages ⟨[⟨5, ⟨"Ping", some 5, "", []⟩, ⟨⟨.little, false⟩, []⟩⟩]⟩
    let endpoints : List Endpoint := [.fresh (some 2), .fresh none]
    let supplier : Observer (Option Frame) := fun _ => .receive [0xff, 0] .done
    let errands : List (Nat × Errand (Option Frame)) :=
      [(0, .request (.receive [5, 0x7e])), (1, .request (.receive [9, 0x7e, 0, 5, 0x7e, 0])),
        (1, .request .openIterator), (0, .request (.receive [0, 1, 2, 3])),
        (1, .reportNext supplier 1), (0, .request .decode), (1, .request (.next 0)),
        (0, .reportAll (.silent _) 1 2), (1, .request .decode)]
    let whole := run ⟨table, endpoints⟩ errands
    let first := run ⟨table, [.fresh (some 2)]⟩ ((entriesAt 0 errands).map (Prod.mk 0))
    let second := run ⟨table, [.fresh none]⟩ ((entriesAt 1 errands).map (Prod.mk 0))
    table.Shareable ∧
      (entriesAt 0 whole.1).map (·.map Response.pending) = [some 2, some 6, some 3, some 0] ∧
      entriesAt 0 whole.1 = entriesAt 0 first.1 ∧
      (entriesAt 1 whole.1).map (·.map Response.pending) =
        [some 6, some 6, some 5, some 2, some 0] ∧
      entriesAt 1 whole.1 = entriesAt 0 second.1 := by
  intro table endpoints supplier errands whole first second
  have shareable : table.Shareable := .messages _
  obtain ⟨_, _, _, apart⟩ := endpoints_keep_apart shareable endpoints errands 0
  obtain ⟨_, _, _, other⟩ := endpoints_keep_apart shareable endpoints errands 1
  exact ⟨shareable, by decide +kernel, (apart (.fresh (some 2)) rfl).1, by decide +kernel,
    (other (.fresh none) rfl).1⟩

/-- A rehearsed table is no table to share: its second payload comes from the second endpoint, whose
frame is then dropped, and would be accepted if the first endpoint had not been asked. -/
example :
    let table : AnyTable := .rehearsed ⟨[(1, .raise (.raised .malformed ""))], 0⟩
    let frame : Errand (Option Frame) := .request (.receive [0x7f, 0])
    let errands := [(0, frame), (1, frame), (0, .request .decode), (1, .request .decode)]
    let records (errands : List (Nat × Errand (Option Frame))) :=
      (entriesAt 1 (run ⟨table, [.fresh none, .fresh none]⟩ errands).1).map
        (·.map fun response => response.log.length)
    records errands = [some 0, some 1] ∧
      records ((entriesAt 1 errands).map (Prod.mk 1)) = [some 0, some 0] := by
  decide +kernel

end ZeroFrame
