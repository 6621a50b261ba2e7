import OrderCluster.Node
import OrderCluster.Service.Error

/-!
# Buying

Stock is taken first, then a number is minted and the order committed under it. Where a later step
fails the stock is given back, and after a failed commit the counter is moved above the log, so
that the same clash cannot happen again. A placed order is still owed to the peers.
-/

namespace OrderCluster

inductive BuyOutcome where
  /-- The order is committed; it is owed to the peers. -/
  | placed (order : Order)
  | declined (message : String)
  | refused (error : ServiceError)
  deriving DecidableEq, Repr

namespace BuyOutcome

def response : BuyOutcome → Except ServiceError BuyResponse
  | .placed order => .ok (.placed order.number)
  | .declined message => .ok (.rejected message)
  | .refused error => .error error

def owed? : BuyOutcome → Option Order
  | .placed order => some order
  | .declined _ | .refused _ => none

end BuyOutcome

namespace Service

/-- Counts a buy that placed no order. -/
def giveUp (reason : BuyFailure) (outcome : BuyOutcome) : Work BuyOutcome := do
  Work.tally (.buyFailures reason)
  return outcome

/-- Gives back the stock taken for an order that was never committed. -/
def restock (request : BuyRequest) : Work Unit := do
  let _ ← Work.changeStock ⟨request.name, request.quantity, true⟩

/-- Undoes a buy whose order could not be committed. -/
def undoCommit (request : BuyRequest) (cause : Failure) : Work BuyOutcome := do
  Work.tally (.buyFailures .storage)
  restock request
  if let .ok n ← Work.maxNumber then Work.resetAbove n
  return .refused (.internal cause)

def commit (request : BuyRequest) (n : OrderNumber) : Work BuyOutcome := do
  let order : Order := ⟨n, request.name, request.quantity⟩
  match ← Work.insert order with
  | .ok true => do
    Work.tally .ordersCreated
    Work.publishMax n
    return .placed order
  | .ok false =>
    undoCommit request (.because ("order number " ++ toString n.toInt ++ " is already taken"))
  | .error cause => undoCommit request cause

def mintAndCommit (request : BuyRequest) : Work BuyOutcome := do
  match ← Work.mint with
  | some n => commit request n
  | none => do
    Work.tally (.buyFailures .exhausted)
    restock request
    return .refused (.internal (.because "no order numbers left to mint"))

def takeStock (request : BuyRequest) : Work BuyOutcome := do
  match ← Work.changeStock ⟨request.name, request.quantity, false⟩ with
  | .error cause => giveUp .catalogUnavailable (.refused (.catalogUnavailable cause.text))
  | .ok change =>
    if change.success then mintAndCommit request
    else
      let message := change.errorMessage.getD (request.name ++ " could not be bought")
      giveUp .stock (.declined message)

/-- Buys. A strict node takes buys only while it believes itself to be the leader. -/
def buy (strict : Bool) (request : BuyRequest) : Work BuyOutcome := do
  match request.problems with
  | [] => do
    let registry ← Work.registry
    if strict && !registry.isSelfLeader then
      giveUp .notLeader (.refused (.notLeader registry.selfId registry.leader))
    else takeStock request
  | problems => giveUp .invalid (.refused (.ofProblems problems))

end Service

end OrderCluster
