import OrderCluster.Proofs.Catalog.Ledger
import OrderCluster.Proofs.Lifetime

/-!
# Nodes that sell from one stock

Any number of nodes, each with its own log, counter and peers, sell from one stock. One node after
the other does one of its operations, in any order; a node may be opened again, the stock may not be
replenished. What is left of a product is what there was less what was placed of it, whatever else
was tried, so no more of it is sold than there was.

The invariant is local to a buy: it takes stock only where there is enough, and gives back just what
it took unless the order is placed. So every step of the arithmetic is exact, and what nodes do adds
up over a run.
-/

namespace OrderCluster

open Replication (Site)

/-- A wish to buy that makes sense asks for something. -/
theorem BuyRequest.positive {request : BuyRequest} (valid : request.problems = []) :
    1 ≤ request.quantity.toInt := by
  have enough : ¬ request.quantity < 1 := by
    intro short
    simp [problems, short] at valid
  rw [Int32.lt_iff_toInt_lt] at enough
  exact Int.not_lt.mp enough

/-- A buy takes stock for the order that it places, and for nothing else. -/
theorem Service.moved_buy {strict : Bool} {request : BuyRequest} {d d' : Desk Ledger}
    {outcome : BuyOutcome} (how : BuyEnd strict request d outcome d') :
    d.catalog.Moved outcome.owed?.toList d'.catalog := by
  cases how with
  | invalid _ => exact .refl _
  | notLeader _ _ _ => exact .refl _
  | unavailable _ _ asked => cases asked
  | declined valid _ asked refused =>
    exact Ledger.moved_refused (BuyRequest.positive valid) asked refused
  | exhausted valid _ asked taken _ =>
    exact Ledger.moved_given_back (BuyRequest.positive valid) asked taken
  | @placed valid _ _ _ asked taken n _ _ _ =>
    have positive : 1 ≤ (⟨n, request.name, request.quantity⟩ : Order).quantity.toInt :=
      BuyRequest.positive valid
    exact Ledger.moved_taken positive asked taken
  | lost valid _ asked taken _ _ =>
    exact Ledger.moved_given_back (BuyRequest.positive valid) asked taken

/-- Nodes, and the stock that they share; what a node remembers of the stock does not matter. -/
structure Market (ι σ : Type) where
  ledger : Ledger
  sites : ι → Site Ledger σ

namespace Market

variable {ι σ : Type} [DecidableEq ι] [Peers σ]

def site (m : Market ι σ) (i : ι) : Site Ledger σ :=
  { m.sites i with desk := { (m.sites i).desk with catalog := m.ledger } }

/-- The nodes after one of them has done something. -/
def put (m : Market ι σ) (i : ι) (s : Site Ledger σ) : Market ι σ :=
  ⟨s.desk.catalog, fun j => if j = i then s else m.sites j⟩

/-- One operation of one node. What happens to a node from outside does not happen to the stock. -/
inductive Step : Market ι σ → Lifetime.Deed → Market ι σ → Prop where
  | operate (m : Market ι σ) (i : ι) {deed : Lifetime.Deed} {s : Site Ledger σ}
    (step : Lifetime.Step (m.site i) deed s)
    (shared : deed = .disturb ∨ deed = .restart → s.desk.catalog = m.ledger) :
    Step m deed (m.put i s)

/-- An operation with the nodes before and after it. -/
structure Moment (ι σ : Type) where
  before : Market ι σ
  deed : Lifetime.Deed
  after : Market ι σ

inductive Run : Market ι σ → List (Moment ι σ) → Market ι σ → Prop where
  | nil (m : Market ι σ) : Run m [] m
  | cons {m m' m'' : Market ι σ} {deed : Lifetime.Deed} {moments : List (Moment ι σ)}
    (step : Step m deed m') (rest : Run m' moments m'') : Run m (⟨m, deed, m'⟩ :: moments) m''

def placed (moments : List (Moment ι σ)) : List Order := moments.filterMap (·.deed.placed?)

def left? (m : Market ι σ) (product : String) : Option Int64 := m.ledger.stock.of? product

end Market

/-- An operation that is not a buy leaves the stock alone. -/
theorem Lifetime.Step.moved {σ : Type} [Peers σ] {s s' : Site Ledger σ} {deed : Deed}
    (step : Step s deed s')
    (shared : deed = .disturb ∨ deed = .restart → s'.desk.catalog = s.desk.catalog) :
    s.desk.catalog.Moved deed.placed?.toList s'.desk.catalog := by
  have unmoved : ∀ {placed : List Order} {l' : Ledger}, placed = [] → l' = s.desk.catalog →
      s.desk.catalog.Moved placed l' := by
    rintro _ _ rfl rfl
    exact .refl _
  cases step with
  | buy strict request => exact Service.moved_buy (Service.buyEnd_buy strict request s.desk)
  | query request =>
    refine unmoved rfl ?_
    rw [Site.desk_work, Service.perform_query]
  | status =>
    refine unmoved rfl ?_
    rw [Site.desk_work, Service.perform_status]
  | assign request => exact unmoved rfl (Service.catalog_assign request s.desk)
  | fetch request =>
    refine unmoved rfl ?_
    rw [Site.desk_work, Service.perform_fetch]
  | mark id status => exact .refl _
  | accept request => exact unmoved rfl (Service.acceptEnd_accept request s.desk).catalog
  | sync outage => exact unmoved rfl (Site.catalog_syncMeeting outage)
  | fanOut order => exact unmoved rfl (Site.sameBooks_fanOut s order).catalog
  | spawn order => exact .refl _
  | advance millis => exact unmoved rfl (Site.sameBooks_advance s millis).catalog
  | drain grace => exact unmoved rfl (Site.sameBooks_drain s grace).catalog
  | disturb _ _ => exact unmoved rfl (shared (Or.inl rfl))
  | restart _ _ _ _ => exact unmoved rfl (shared (Or.inr rfl))

namespace Market

variable {ι σ : Type} [DecidableEq ι] [Peers σ]

theorem Step.moved {m m' : Market ι σ} {deed : Lifetime.Deed} (step : Step m deed m') :
    m.ledger.Moved deed.placed?.toList m'.ledger := by
  cases step with
  | operate i step shared => exact step.moved shared

theorem Run.moved {m m' : Market ι σ} {moments : List (Moment ι σ)} (run : Run m moments m') :
    m.ledger.Moved (placed moments) m'.ledger := by
  induction run with
  | nil m => exact .refl _
  | @cons m m' m'' deed moments step rest ih =>
    have sum := step.moved.trans ih
    have split : placed (⟨m, deed, m'⟩ :: moments) = deed.placed?.toList ++ placed moments := by
      rw [placed, List.filterMap_cons]
      cases deed.placed? <;> rfl
    rwa [split]

theorem Run.step_of_mem {m m' : Market ι σ} {moments : List (Moment ι σ)}
    (run : Run m moments m') {moment : Moment ι σ} (among : moment ∈ moments) :
    Step moment.before moment.deed moment.after := by
  induction run with
  | nil m => cases among
  | cons step rest ih =>
    cases among with
    | head => exact step
    | tail _ later => exact ih later

/-- What a run makes of the stock. -/
structure Conserved (m : Market ι σ) (moments : List (Moment ι σ)) (m' : Market ι σ) : Prop where
  /-- The same products are sold, and of each is left what there was less what was placed. -/
  balance : ∀ product, (m'.left? product).map Int64.toInt =
    (m.left? product).map fun left => left.toInt - sold (placed moments) product
  /-- No more is placed of a product than there was. -/
  covered : ∀ product left, m.left? product = some left → 0 ≤ left.toInt →
    sold (placed moments) product ≤ left.toInt
  /-- A product of which there was no lack at first is never lacking. -/
  nonneg : ∀ product left left', m.left? product = some left → m'.left? product = some left' →
    0 ≤ left.toInt → 0 ≤ left'.toInt
  /-- No computation with the stock overflowed. -/
  exact : ∀ e ∈ m'.ledger.entries, e ∈ m.ledger.entries ∨ e.Exact
  /-- What places no order leaves the stock as it was. -/
  unplaced : ∀ moment ∈ moments, moment.deed.placed? = none →
    ∀ product, moment.after.left? product = moment.before.left? product

/-- In every run of nodes that share a stock, the stock is conserved and never oversold. -/
theorem conserved_of_run {m m' : Market ι σ} {moments : List (Moment ι σ)}
    (run : Run m moments m') : Conserved m moments m' := by
  have moved := run.moved
  constructor
  · exact moved.balance
  · exact moved.covered
  · exact fun product left left' before after => moved.nonneg before after
  · exact moved.exact
  · intro moment among unplaced product
    have moved_once := (run.step_of_mem among).moved
    rw [unplaced] at moved_once
    exact moved_once.same product

/-! ## Two nodes and three ants -/

/-- Two nodes that sell ants from one stock; the second has no order number left. -/
def antShop : Market Bool ScriptedPeers where
  ledger := { stock := .ofList [("ant", 3)] }
  sites second :=
    { desk :=
        { node :=
            { storage := { log := .table { medium := .inMemory } }
              counter := if second then ⟨OrderNumber.last⟩ else .startingAbove 0
              registry := .ofMembers 1 [] }
          catalog := { stock := {} } }
      lanes := .ofWidth 1 50 {} }

def buys (m : Market Bool ScriptedPeers) (second : Bool) (request : BuyRequest) :
    Market Bool ScriptedPeers :=
  m.put second ((m.site second).work (Service.buy false request)).2

def buying (m : Market Bool ScriptedPeers) (second : Bool) (request : BuyRequest) :
    Moment Bool ScriptedPeers :=
  ⟨m, .buy ((m.site second).work (Service.buy false request)).1, m.buys second request⟩

/-- The shop after two ants were sold. -/
def soldTwo : Market Bool ScriptedPeers := antShop.buys false ⟨"ant", 2⟩

/-- The shop after another two were asked for in vain. -/
def askedFour : Market Bool ScriptedPeers := soldTwo.buys false ⟨"ant", 2⟩

/-- Two of three ants are placed; two more are refused, and the last one is given back by the node
that has no number for it. -/
theorem conserved_antShop :
    let moments := [antShop.buying false ⟨"ant", 2⟩, soldTwo.buying false ⟨"ant", 2⟩,
      askedFour.buying true ⟨"ant", 1⟩]
    Run antShop moments (askedFour.buys true ⟨"ant", 1⟩) ∧
      placed moments = [⟨1, "ant", 2⟩] ∧
      (askedFour.buys true ⟨"ant", 1⟩).left? "ant" = some 1 ∧
      (askedFour.buys true ⟨"ant", 1⟩).ledger.entries.length = 4 ∧
      Conserved antShop moments (askedFour.buys true ⟨"ant", 1⟩) := by
  intro moments
  have step : ∀ (m : Market Bool ScriptedPeers) (second : Bool) (request : BuyRequest),
      Step m (m.buying second request).deed (m.buys second request) := by
    intro m second request
    refine .operate m second (.buy (m.site second) false request) ?_
    rintro (disturbed | restarted)
    · cases disturbed
    · cases restarted
  have run : Run antShop moments (askedFour.buys true ⟨"ant", 1⟩) :=
    .cons (step _ _ _) (.cons (step _ _ _) (.cons (step _ _ _) (.nil _)))
  exact ⟨run, by cbv, by cbv, by cbv, conserved_of_run run⟩

end Market

end OrderCluster
