import Mathlib
import OrderCluster.Order
import OrderCluster.Proofs.Catalog.Stock

/-!
# Stock and its books

Stock as before, and beside it a book of all requests for it, each with the stock that it met. From
the book it can be read whether the machine numbers in which stock is counted ever came out
differently from whole numbers. What happened between two states of the stock is told by the orders
that were placed in between: each took its quantity, and nothing else left a trace.
-/

namespace OrderCluster

/-- A request for stock, and the stock that it met. -/
structure Entry where
  request : StockRequest
  before : Stock

/-- Stock, and its book, the oldest entry first. -/
structure Ledger where
  stock : Stock
  entries : List Entry := []

/-- The stock is not disturbed by the book. -/
instance : Catalog Ledger where
  change l request :=
    let (answer, stock) := l.stock.change request
    (.ok answer, ⟨stock, l.entries ++ [⟨request, l.stock⟩]⟩)

namespace Entry

/-- What a request adds to the stock, or takes from it unless there is too little, is what it adds
or takes among whole numbers. -/
def Exact (e : Entry) : Prop :=
  ∀ left, e.before.of? e.request.name = some left →
    (e.request.isIncrement = true →
      (left + e.request.quantity.toInt64).toInt = left.toInt + e.request.quantity.toInt) ∧
    (e.request.isIncrement = false → ¬ left < e.request.quantity.toInt64 →
      (left - e.request.quantity.toInt64).toInt = left.toInt - e.request.quantity.toInt)

end Entry

/-- How many of a product some orders sold. -/
def sold (orders : List Order) (product : String) : Int :=
  ((orders.filter (·.product = product)).map (·.quantity.toInt)).sum

theorem sold_nil (product : String) : sold [] product = 0 := rfl

theorem sold_append (front back : List Order) (product : String) :
    sold (front ++ back) product = sold front product + sold back product := by
  simp only [sold, List.filter_append, List.map_append, List.sum_append]

theorem sold_singleton (order : Order) (product : String) :
    sold [order] product = if order.product = product then order.quantity.toInt else 0 := by
  by_cases same : order.product = product
  · simp [sold, same]
  · simp [sold, same]

/-! ## Machine numbers -/

namespace Stock

theorem toInt_sub_of_le {left : Int64} {quantity : Int32} (positive : 1 ≤ quantity.toInt)
    (enough : ¬ left < quantity.toInt64) :
    (left - quantity.toInt64).toInt = left.toInt - quantity.toInt := by
  rw [Int64.lt_iff_toInt_lt, Int32.toInt_toInt64] at enough
  have top := left.toInt_lt
  rw [Int64.toInt_sub, Int32.toInt_toInt64]
  refine Int.bmod_eq_of_le ?_ ?_ <;> omega

theorem toInt_give_back {left : Int64} {quantity : Int32} (positive : 1 ≤ quantity.toInt)
    (enough : ¬ left < quantity.toInt64) :
    (left - quantity.toInt64 + quantity.toInt64).toInt =
      (left - quantity.toInt64).toInt + quantity.toInt := by
  rw [Int64.sub_add_cancel, toInt_sub_of_le positive enough]
  omega

/-- What a request to take stock does: either nothing, or the product loses the quantity. -/
theorem take_cases (stock : Stock) (name : String) (quantity : Int32) :
    ((stock.change ⟨name, quantity, false⟩).2 = stock ∧
        (stock.change ⟨name, quantity, false⟩).1.success = false) ∨
      ∃ left, stock.of? name = some left ∧ ¬ left < quantity.toInt64 ∧
        (stock.change ⟨name, quantity, false⟩).1.success = true ∧
        (stock.change ⟨name, quantity, false⟩).2 =
          ⟨stock.products.insert name (left - quantity.toInt64)⟩ := by
  unfold change
  cases known : stock.of? name with
  | none => exact Or.inl ⟨rfl, rfl⟩
  | some left =>
    dsimp only
    by_cases short : left < quantity.toInt64
    · rw [if_neg Bool.false_ne_true, if_pos short]
      exact Or.inl ⟨rfl, rfl⟩
    · rw [if_neg Bool.false_ne_true, if_neg short]
      exact Or.inr ⟨left, rfl, short, rfl, rfl⟩

/-- Stock that was taken and is given back at once is as it was. -/
theorem of?_give_back {stock : Stock} {name : String} {left quantity : Int64}
    (known : stock.of? name = some left) (other : String) :
    of? ⟨(stock.products.insert name (left - quantity)).insert name
      (left - quantity + quantity)⟩ other = stock.of? other := by
  have first := of?_insert ⟨stock.products.insert name (left - quantity)⟩ name other
    (left - quantity + quantity)
  rw [first, Int64.sub_add_cancel]
  by_cases same : name = other
  · rw [if_pos same, ← same, known]
  · rw [if_neg same, of?_insert, if_neg same]

end Stock

/-! ## Between two states of the stock -/

namespace Ledger

/-- Between two states of the stock some orders were placed, and nothing else left a trace. -/
structure Moved (l : Ledger) (placed : List Order) (l' : Ledger) : Prop where
  /-- The same products are sold, and each lost what was placed of it. -/
  balance : ∀ product, (l'.stock.of? product).map Int64.toInt =
    (l.stock.of? product).map fun left => left.toInt - sold placed product
  /-- No product is sold that is not there. -/
  covered : ∀ product left, l.stock.of? product = some left → 0 ≤ left.toInt →
    sold placed product ≤ left.toInt
  exact : ∀ e ∈ l'.entries, e ∈ l.entries ∨ e.Exact

namespace Moved

variable {l l' l'' : Ledger} {front back : List Order}

theorem refl (l : Ledger) : l.Moved [] l := by
  constructor
  · intro product
    simp only [sold_nil, Int.sub_zero]
  · intro product left known enough
    rwa [sold_nil]
  · exact fun e among => Or.inl among

theorem trans (first : l.Moved front l') (second : l'.Moved back l'') :
    l.Moved (front ++ back) l'' := by
  constructor
  · intro product
    have between := first.balance product
    have later := second.balance product
    cases before : l.stock.of? product with
    | none =>
      rw [before, Option.map_none, Option.map_eq_none_iff] at between
      rw [later, between, Option.map_none, Option.map_none]
    | some left =>
      rw [before, Option.map_some, Option.map_eq_some_iff] at between
      obtain ⟨rest, known_then, left_then⟩ := between
      rw [later, known_then, Option.map_some, Option.map_some, sold_append]
      congr 1
      omega
  · intro product left known enough
    have between := first.balance product
    rw [known, Option.map_some] at between
    obtain ⟨rest, known_then, left_then⟩ := Option.map_eq_some_iff.mp between
    have before := first.covered product left known enough
    have after := second.covered product rest known_then (by omega)
    rw [sold_append]
    omega
  · intro e among
    rcases second.exact e among with before | exact
    · exact first.exact e before
    · exact Or.inr exact

/-- Where nothing was placed, the stock is as it was. -/
theorem same (moved : l.Moved [] l') (product : String) :
    l'.stock.of? product = l.stock.of? product := by
  have balance := moved.balance product
  simp only [sold_nil, Int.sub_zero] at balance
  cases before : l.stock.of? product with
  | none =>
    rw [before, Option.map_none, Option.map_eq_none_iff] at balance
    exact balance
  | some left =>
    rw [before, Option.map_some, Option.map_eq_some_iff] at balance
    obtain ⟨left', after, eq⟩ := balance
    rw [after, Int64.toInt_inj.mp eq]

/-- Stock that was not negative is not negative afterwards. -/
theorem nonneg (moved : l.Moved front l') {product : String} {left left' : Int64}
    (before : l.stock.of? product = some left) (after : l'.stock.of? product = some left')
    (enough : 0 ≤ left.toInt) : 0 ≤ left'.toInt := by
  have balance := moved.balance product
  rw [before, after, Option.map_some, Option.map_some, Option.some.injEq] at balance
  have covered := moved.covered product left before enough
  omega

end Moved

variable {l l' : Ledger} {name : String} {quantity : Int32} {change : StockChange}

/-- What a request leaves behind. -/
theorem change_eq {request : StockRequest}
    (asked : Catalog.change l request = (.ok change, l')) :
    change = (l.stock.change request).1 ∧ l'.stock = (l.stock.change request).2 ∧
      l'.entries = l.entries ++ [⟨request, l.stock⟩] := by
  obtain ⟨answer, rfl⟩ := Prod.mk.inj asked
  exact ⟨(Except.ok.inj answer).symm, rfl, rfl⟩

/-- Taking stock is exact, since no more is taken than there is. -/
theorem exact_take (stock : Stock) (name : String) (positive : 1 ≤ quantity.toInt) :
    (⟨⟨name, quantity, false⟩, stock⟩ : Entry).Exact := by
  intro left _
  refine ⟨fun back => absurd back Bool.false_ne_true, fun _ enough => ?_⟩
  exact Stock.toInt_sub_of_le positive enough

theorem exact_snoc {entries : List Entry} {last : Entry} (exact : last.Exact) :
    ∀ e ∈ entries ++ [last], e ∈ entries ∨ e.Exact := by
  intro e among
  rcases List.mem_append.mp among with before | new
  · exact Or.inl before
  · rw [List.mem_singleton.mp new]
    exact Or.inr exact

/-- Stock that is refused leaves no trace. -/
theorem moved_refused (positive : 1 ≤ quantity.toInt)
    (asked : Catalog.change l ⟨name, quantity, false⟩ = (.ok change, l'))
    (refused : change.success = false) : l.Moved [] l' := by
  obtain ⟨rfl, stock, entries⟩ := change_eq asked
  rcases l.stock.take_cases name quantity with ⟨same, _⟩ | ⟨left, _, _, taken, _⟩
  · constructor
    · intro product
      simp only [stock, same, sold_nil, Int.sub_zero]
    · intro product left _ enough
      rwa [sold_nil]
    · rw [entries]
      exact exact_snoc (exact_take _ _ positive)
  · rw [taken] at refused
    cases refused

/-- Stock that is taken for an order is sold. -/
theorem moved_taken {order : Order} (positive : 1 ≤ order.quantity.toInt)
    (asked : Catalog.change l ⟨order.product, order.quantity, false⟩ = (.ok change, l'))
    (taken : change.success = true) : l.Moved [order] l' := by
  obtain ⟨rfl, stock, entries⟩ := change_eq asked
  rcases l.stock.take_cases order.product order.quantity with
    ⟨_, refused⟩ | ⟨left, known, enough, _, less⟩
  · rw [refused] at taken
    cases taken
  · have exact := Stock.toInt_sub_of_le positive enough
    constructor
    · intro product
      rw [stock, less, Stock.of?_insert, sold_singleton]
      by_cases same : order.product = product
      · rw [if_pos same, if_pos same, ← same, known, Option.map_some, Option.map_some, exact]
      · rw [if_neg same, if_neg same]
        simp only [Int.sub_zero]
    · intro product some_left found not_negative
      rw [sold_singleton]
      by_cases same : order.product = product
      · rw [← same, known, Option.some.injEq] at found
        rw [if_pos same, ← found]
        rw [Int64.lt_iff_toInt_lt, Int32.toInt_toInt64] at enough
        omega
      · rwa [if_neg same]
    · rw [entries]
      exact exact_snoc (exact_take _ _ positive)

/-- Stock that is taken and given back leaves no trace. -/
theorem moved_given_back (positive : 1 ≤ quantity.toInt)
    (asked : Catalog.change l ⟨name, quantity, false⟩ = (.ok change, l'))
    (taken : change.success = true) :
    l.Moved [] (Catalog.change l' ⟨name, quantity, true⟩).2 := by
  obtain ⟨rfl, stock, entries⟩ := change_eq asked
  rcases l.stock.take_cases name quantity with ⟨_, refused⟩ | ⟨left, known, enough, _, less⟩
  · rw [refused] at taken
    cases taken
  · have rest : l'.stock.of? name = some (left - quantity.toInt64) := by
      rw [stock, less, Stock.of?_insert, if_pos rfl]
    have back : (l'.stock.change ⟨name, quantity, true⟩).2 =
        ⟨(l.stock.products.insert name (left - quantity.toInt64)).insert name
          (left - quantity.toInt64 + quantity.toInt64)⟩ := by
      simp only [Stock.change, rest, if_true]
      rw [stock, less]
    constructor
    · intro product
      change ((l'.stock.change ⟨name, quantity, true⟩).2.of? product).map _ = _
      rw [back, Stock.of?_give_back known]
      simp only [sold_nil, Int.sub_zero]
    · intro product some_left _ not_negative
      rwa [sold_nil]
    · have exact_back : (⟨⟨name, quantity, true⟩, l'.stock⟩ : Entry).Exact := by
        intro met found
        rw [rest, Option.some.injEq] at found
        rw [← found]
        refine ⟨fun _ => Stock.toInt_give_back positive enough, fun take => ?_⟩
        cases take
      intro e among
      rcases exact_snoc exact_back e among with before | exact
      · rw [entries] at before
        exact exact_snoc (exact_take _ _ positive) e before
      · exact Or.inr exact

end Ledger

end OrderCluster
