import OrderCluster.Proofs.Replication.Landing
import OrderCluster.Service.Answers

/-!
# Operations that interleave

An operation of a node is a tree of atomic actions. A thread is an operation under way: what it did
so far, and what is left of it. Between two actions of a thread other threads may act. A sync or a
push is suspended while its calls are under way, and these may end in any order and in any way that
the peers allow.
-/

namespace OrderCluster.Interleaving

open Replication

/-- What a node is asked to do, or does by itself. -/
inductive Operation where
  | buy (strict : Bool) (request : BuyRequest)
  | query (request : QueryRequest)
  | assign (request : LeaderAssignment)
  | fetch (request : FetchRequest)
  | accept (request : AcceptRequest)
  | status
  | mark (id : NodeId) (liveness : Status)
  | sync
  | push (order : Order)

/-- What a round of calls is made for. -/
inductive Purpose where
  | sync (s : Sync)
  | push (f : FanOut)

/-- What an operation has come to. -/
inductive Outcome where
  | bought (outcome : BuyOutcome)
  | queried (answer : Except ServiceError QueryResponse)
  | assigned (answer : Except ServiceError AssignmentResponse)
  | fetched (answer : Except ServiceError FetchResponse)
  | accepted (answer : Except ServiceError AcceptResponse)
  | reported (answer : Except ServiceError StatusReport)
  | marked (changed : Bool)
  /-- Calls are under way: those to some members have not ended, the others ended as listed. -/
  | calling (purpose : Purpose) (waiting : List Member) (ended : List Ended)
  | synced (answer : Except Failure SyncReport)
  | pushed (report : FanOutReport)

namespace Purpose

def errand : Purpose → Errand
  | .sync s => s.errand
  | .push f => f.errand

def order? : Purpose → Option Order
  | .sync _ => none
  | .push f => some f.order

def conclude : Purpose → List Ended → Work Outcome
  | .sync s, ended => do return .synced (← s.conclude ended)
  | .push _, ended => return .pushed (FanOut.report ended)

end Purpose

namespace Operation

/-- What an operation does until it ends or is suspended. -/
def work : Operation → Work Outcome
  | .buy strict request => do return .bought (← Service.buy strict request)
  | .query request => do return .queried (← Service.query request)
  | .assign request => do return .assigned (← Service.assign request)
  | .fetch request => do return .fetched (← Service.fetch request)
  | .accept request => do return .accepted (← Service.accept request)
  | .status => do return .reported (← Service.status)
  | .mark id liveness => do return .marked (← Work.mark id liveness)
  | .sync => do
    match ← Sync.begin with
    | .error cause => return .synced (.error cause)
    | .ok s => return .calling (.sync s) s.peers []
  | .push order => do
    let f ← FanOut.begin order
    return .calling (.push f) f.peers []

def order? : Operation → Option Order
  | .accept request => some request.order
  | .push order => some order
  | _ => none

def isBuy : Operation → Bool
  | .buy .. => true
  | _ => false

end Operation

/-- What happened in a thread. -/
inductive Event where
  | did (action : Action) (answer : action.Answer)
  | landed (member : Member) (verdict : Verdict)

/-- An operation under way. -/
structure Thread where
  operation : Operation
  trace : List Event
  rest : Work Outcome

namespace Thread

def start (operation : Operation) : Thread := ⟨operation, [], operation.work⟩

/-- Whether a thread has ended or waits for calls to end. -/
def IsResting (t : Thread) : Prop := ∃ outcome, t.rest = .done outcome

def placed? (t : Thread) : Option Order :=
  match t.rest with
  | .done (.bought outcome) => outcome.owed?
  | _ => none

variable {κ : Type} [Catalog κ]

/-- One step of a thread at a desk, where calls may end as the peers allow. -/
inductive Step (lands : Member → Errand → Verdict → Prop) :
    Desk κ → Thread → Desk κ → Thread → Prop where
  | act (d : Desk κ) (operation : Operation) (trace : List Event) (action : Action)
    (next : action.Answer → Work Outcome) :
    Step lands d ⟨operation, trace, .act action next⟩ (action.perform d).2
      ⟨operation, trace ++ [.did action (action.perform d).1], next (action.perform d).1⟩
  | land (d : Desk κ) (operation : Operation) (trace : List Event) (purpose : Purpose)
    (waiting : List Member) (ended : List Ended) {member : Member} {verdict : Verdict}
    (called : member ∈ waiting) (allowed : lands member purpose.errand verdict) :
    Step lands d ⟨operation, trace, .done (.calling purpose waiting ended)⟩ d
      ⟨operation, trace ++ [.landed member verdict], do
        settle purpose.errand.kind member.id verdict
        return .calling purpose (waiting.erase member) (ended ++ [(member.id, verdict)])⟩
  | conclude (d : Desk κ) (operation : Operation) (trace : List Event) (purpose : Purpose)
    (ended : List Ended) :
    Step lands d ⟨operation, trace, .done (.calling purpose [] ended)⟩ d
      ⟨operation, trace, purpose.conclude ended⟩

end Thread

/-! ## What a trace tells -/

namespace Event

/-- The orders that came to a thread with an event. -/
def orders : Event → List Order
  | .did (.after _) (.ok orders) => orders
  | .landed _ verdict => verdict.orders
  | _ => []

/-- The order that was written. -/
def written? : Event → Option Order
  | .did (.insert order) (.ok true) => some order
  | _ => none

def granted : Except Failure StockChange → Bool
  | .ok change => change.success
  | .error _ => false

def taken? : Event → Option (String × Int32)
  | .did (.changeStock wish) answer =>
    if !wish.isIncrement && granted answer then some (wish.name, wish.quantity) else none
  | _ => none

/-- The stock that was offered back, whatever the catalog answered. -/
def offered? : Event → Option (String × Int32)
  | .did (.changeStock wish) _ =>
    if wish.isIncrement then some (wish.name, wish.quantity) else none
  | _ => none

def returned? : Event → Option (String × Int32)
  | .did (.changeStock wish) answer =>
    if wish.isIncrement && granted answer then some (wish.name, wish.quantity) else none
  | _ => none

def landing? : Event → Option Ended
  | .landed member verdict => some (member.id, verdict)
  | _ => none

def minted? : Event → Option OrderNumber
  | .did .mint n => n
  | _ => none

end Event

def written (trace : List Event) : List Order := trace.filterMap Event.written?

def taken (trace : List Event) : List (String × Int32) := trace.filterMap Event.taken?

def offered (trace : List Event) : List (String × Int32) := trace.filterMap Event.offered?

def returned (trace : List Event) : List (String × Int32) := trace.filterMap Event.returned?

def landings (trace : List Event) : List Ended := trace.filterMap Event.landing?

/-- The number that a thread has just minted and not used yet. -/
def pending? (trace : List Event) : Option OrderNumber := trace.getLast?.bind Event.minted?

/-- An order that an operation was given, read from its log or was sent by a peer. -/
def Mentions (operation : Operation) (trace : List Event) (order : Order) : Prop :=
  operation.order? = some order ∨ ∃ e ∈ trace, order ∈ e.orders

theorem Mentions.append {operation : Operation} {trace : List Event} {order : Order}
    (h : Mentions operation trace order) (e : Event) :
    Mentions operation (trace ++ [e]) order := by
  rcases h with given | ⟨earlier, member, among⟩
  · exact Or.inl given
  · exact Or.inr ⟨earlier, List.mem_append_left _ member, among⟩

theorem mentions_append {operation : Operation} {trace : List Event} {order : Order} {e : Event}
    (h : Mentions operation (trace ++ [e]) order) :
    Mentions operation trace order ∨ order ∈ e.orders := by
  rcases h with given | ⟨earlier, member, among⟩
  · exact Or.inl (Or.inl given)
  · rcases List.mem_append.mp member with before | last
    · exact Or.inl (Or.inr ⟨earlier, before, among⟩)
    · rw [List.mem_singleton.mp last] at among
      exact Or.inr among

theorem filterMap_snoc (f : α → Option β) (l : List α) (a : α) :
    (l ++ [a]).filterMap f = l.filterMap f ++ (f a).toList := by
  rw [List.filterMap_append]
  cases h : f a <;> simp [h]

@[simp] theorem written_append (trace : List Event) (e : Event) :
    written (trace ++ [e]) = written trace ++ e.written?.toList := filterMap_snoc _ _ _

@[simp] theorem taken_append (trace : List Event) (e : Event) :
    taken (trace ++ [e]) = taken trace ++ e.taken?.toList := filterMap_snoc _ _ _

@[simp] theorem offered_append (trace : List Event) (e : Event) :
    offered (trace ++ [e]) = offered trace ++ e.offered?.toList := filterMap_snoc _ _ _

@[simp] theorem returned_append (trace : List Event) (e : Event) :
    returned (trace ++ [e]) = returned trace ++ e.returned?.toList := filterMap_snoc _ _ _

@[simp] theorem landings_append (trace : List Event) (e : Event) :
    landings (trace ++ [e]) = landings trace ++ e.landing?.toList := filterMap_snoc _ _ _

@[simp] theorem pending?_append (trace : List Event) (e : Event) :
    pending? (trace ++ [e]) = e.minted? := by
  rw [pending?, List.getLast?_append, List.getLast?_singleton, Option.some_or, Option.bind_some]

theorem written_landed (trace : List Event) (member : Member) (verdict : Verdict) :
    written (trace ++ [.landed member verdict]) = written trace := by
  rw [written_append]
  exact List.append_nil _

theorem taken_landed (trace : List Event) (member : Member) (verdict : Verdict) :
    taken (trace ++ [.landed member verdict]) = taken trace := by
  rw [taken_append]
  exact List.append_nil _

end OrderCluster.Interleaving
