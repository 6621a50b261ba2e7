import OrderCluster.Catalog.Stock
import Std.Data.TreeMap.Lemmas

/-!
# What stock does

Products are never forgotten, and stock of a known product can always be given back.
-/

namespace OrderCluster.Stock

theorem of?_insert (stock : Stock) (name other : String) (left : Int64) :
    of? ⟨stock.products.insert name left⟩ other =
      if name = other then some left else stock.of? other := by
  change (stock.products.insert name left)[other]? = _
  rw [Std.TreeMap.getElem?_insert]
  by_cases eq : name = other
  · rw [if_pos (Std.compare_eq_iff_eq.mpr eq), if_pos eq]
  · rw [if_neg (fun h => eq (Std.compare_eq_iff_eq.mp h)), if_neg eq]
    rfl

/-- What a request does to the stock of one product. -/
theorem change_cases (stock : Stock) (request : StockRequest) :
    (stock.change request).2 = stock ∧ (stock.change request).1.success = false ∨
      (stock.of? request.name).isSome ∧ (stock.change request).1.success = true ∧
        ∃ left, (stock.change request).2 = ⟨stock.products.insert request.name left⟩ := by
  unfold change
  cases known : stock.of? request.name with
  | none => exact Or.inl ⟨rfl, rfl⟩
  | some available =>
    dsimp only
    split
    · exact Or.inr ⟨rfl, rfl, _, rfl⟩
    · split
      · exact Or.inl ⟨rfl, rfl⟩
      · exact Or.inr ⟨rfl, rfl, _, rfl⟩

theorem known_change {stock : Stock} {name : String} (known : (stock.of? name).isSome)
    (request : StockRequest) : ((stock.change request).2.of? name).isSome := by
  rcases stock.change_cases request with ⟨same, _⟩ | ⟨_, _, left, changed⟩
  · rw [same]
    exact known
  · rw [changed, of?_insert]
    split
    · rfl
    · exact known

theorem known_of_success {stock : Stock} {request : StockRequest}
    (success : (stock.change request).1.success = true) :
    (stock.of? request.name).isSome := by
  rcases stock.change_cases request with ⟨_, refused⟩ | ⟨known, _⟩
  · rw [refused] at success
    cases success
  · exact known

/-- Stock of a known product can always be given back. -/
theorem success_of_known {stock : Stock} {request : StockRequest}
    (known : (stock.of? request.name).isSome) (back : request.isIncrement = true) :
    (stock.change request).1.success = true := by
  obtain ⟨available, eq⟩ := Option.isSome_iff_exists.mp known
  simp only [change, eq, back, if_true]
  rfl

end OrderCluster.Stock
