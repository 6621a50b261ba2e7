import OrderCluster.Node
import OrderCluster.Proofs.Log

/-!
# What actions leave alone

Whatever a node does, the orders it holds stay held and its counter does not move back. A node is
ahead of its log when the counter clears every number that is held.
-/

namespace OrderCluster

/-- The counter of a node clears every number that its log holds. -/
def Node.Ahead (n : Node) : Prop :=
  ∀ k order, n.storage.log.get? k = some order → n.counter.Clears k

theorem Node.ahead_of_clears {n : Node} (clears : n.counter.Clears n.storage.log.maxNumber) :
    n.Ahead :=
  fun _ _ found => clears.of_le (OrderLog.le_maxNumber found)

/-- A node that holds nothing new stays ahead. -/
theorem Node.Ahead.keep {n n' : Node} (ahead : n.Ahead) (log : n'.storage.log = n.storage.log)
    (next : n.counter.next ≤ n'.counter.next) : n'.Ahead := by
  intro k order found
  rw [log] at found
  exact (ahead k order found).mono next

namespace Storage

theorem write_of_outage {s : Storage} {call : LogCall} {cause : Failure}
    (h : s.outage call = some cause) (f : OrderLog → α × OrderLog) :
    s.write call f = (.error cause, s) := by
  simp only [write, h]

theorem write_of_works {s : Storage} {call : LogCall} (h : s.outage call = none)
    (f : OrderLog → α × OrderLog) :
    s.write call f = (.ok (f s.log).1, { s with log := (f s.log).2 }) := by
  simp only [write, h]

theorem read_of_works {s : Storage} {call : LogCall} (h : s.outage call = none)
    (f : OrderLog → α) : s.read call f = .ok (f s.log) := by
  simp only [read, h]

theorem read_eq_ok {s : Storage} {call : LogCall} {f : OrderLog → α} {a : α}
    (h : s.read call f = .ok a) : s.outage call = none ∧ a = f s.log := by
  unfold read at h
  split at h
  · cases h
  · rename_i works
    cases h
    exact ⟨works, rfl⟩

/-- A write that keeps what is held keeps it also where the call fails. -/
theorem get?_write {s : Storage} {call : LogCall} {f : OrderLog → α × OrderLog} {k : OrderNumber}
    {order : Order} (found : s.log.get? k = some order)
    (keeps : (f s.log).2.get? k = some order) : (s.write call f).2.log.get? k = some order := by
  cases h : s.outage call with
  | none =>
    rw [write_of_works h]
    exact keeps
  | some cause =>
    rw [write_of_outage h]
    exact found

theorem outage_write (s : Storage) (call : LogCall) (f : OrderLog → α × OrderLog) :
    (s.write call f).2.outage = s.outage := by
  unfold write
  split <;> rfl

end Storage

namespace Action

variable {κ : Type} [Catalog κ]

theorem storage_insert (o : Order) (d : Desk κ) :
    ((Action.insert o).perform d).2.node.storage =
      (d.node.storage.write .insert fun log => log.insert o).2 := rfl

theorem storage_insertAll (os : List Order) (d : Desk κ) :
    ((Action.insertAll os).perform d).2.node.storage =
      (d.node.storage.write .insertAll fun log => log.insertAll os).2 := rfl

/-- No action moves the counter back. -/
theorem next_le_perform (a : Action) (d : Desk κ) :
    d.node.counter.next ≤ (a.perform d).2.node.counter.next := by
  cases a with
  | mint => exact d.node.counter.le_mint
  | resetAbove n => exact d.node.counter.le_resetAbove n
  | _ => exact Int64.le_refl _

/-- No action loses or changes what is held. -/
theorem get?_perform (a : Action) {d : Desk κ} {k : OrderNumber} {order : Order}
    (found : d.node.storage.log.get? k = some order) :
    (a.perform d).2.node.storage.log.get? k = some order := by
  cases a with
  | insert o =>
    rw [storage_insert]
    exact Storage.get?_write found (OrderLog.get?_insert_of_some found o)
  | insertAll os =>
    rw [storage_insertAll]
    exact Storage.get?_write found (OrderLog.get?_insertAll_of_some found os)
  | _ => exact found

/-- What every write to a log keeps, every action keeps. -/
theorem log_perform {P : OrderLog → Prop} (insert : ∀ log o, P log → P (log.insert o).2)
    (insertAll : ∀ log os, P log → P (log.insertAll os).2) (a : Action) {d : Desk κ}
    (holds : P d.node.storage.log) : P (a.perform d).2.node.storage.log := by
  cases a with
  | insert o =>
    rw [storage_insert]
    cases outage : d.node.storage.outage .insert with
    | some cause =>
      rw [Storage.write_of_outage outage]
      exact holds
    | none =>
      rw [Storage.write_of_works outage]
      exact insert _ o holds
  | insertAll os =>
    rw [storage_insertAll]
    cases outage : d.node.storage.outage .insertAll with
    | some cause =>
      rw [Storage.write_of_outage outage]
      exact holds
    | none =>
      rw [Storage.write_of_works outage]
      exact insertAll _ os holds
  | _ => exact holds

theorem keyed_perform (a : Action) {d : Desk κ} (keyed : d.node.storage.log.Keyed) :
    (a.perform d).2.node.storage.log.Keyed :=
  log_perform (P := OrderLog.Keyed) (fun _ o h => OrderLog.keyed_insert h o)
    (fun _ os h => OrderLog.keyed_insertAll h os) a keyed

theorem lasting_perform (a : Action) {d : Desk κ} (lasting : d.node.storage.log.isLasting = true) :
    (a.perform d).2.node.storage.log.isLasting = true :=
  log_perform (P := (·.isLasting = true)) (fun log o h => (log.isLasting_insert o).trans h)
    (fun log os h => (log.isLasting_insertAll os).trans h) a lasting

theorem outage_perform (a : Action) (d : Desk κ) :
    (a.perform d).2.node.storage.outage = d.node.storage.outage := by
  cases a with
  | insert o =>
    rw [storage_insert]
    exact Storage.outage_write _ _ _
  | insertAll os =>
    rw [storage_insertAll]
    exact Storage.outage_write _ _ _
  | _ => rfl

end Action

namespace Work

variable {κ : Type} [Catalog κ]

@[simp] theorem perform_done (a : α) (d : Desk κ) : perform (.done a) d = (a, d) := rfl

@[simp] theorem perform_pure (a : α) (d : Desk κ) : perform (pure a) d = (a, d) := rfl

/-- A task is done before what comes after it. -/
@[simp] theorem perform_bind (task : Work α) (f : α → Work β) (d : Desk κ) :
    perform (task >>= f) d = (f (task.perform d).1).perform (task.perform d).2 := by
  change Work.perform (Program.bind task f) d = _
  induction task generalizing d with
  | done a => rfl
  | act a next ih => exact ih (a.perform d).1 (a.perform d).2

@[simp] theorem perform_changeStock (request : StockRequest) (d : Desk κ) :
    perform (changeStock request) d =
      ((Catalog.change d.catalog request).1,
        { d with catalog := (Catalog.change d.catalog request).2 }) := rfl

@[simp] theorem perform_mint (d : Desk κ) :
    perform mint d =
      (d.node.counter.mint.1,
        { d with node := { d.node with counter := d.node.counter.mint.2 } }) := rfl

@[simp] theorem perform_resetAbove (n : OrderNumber) (d : Desk κ) :
    perform (resetAbove n) d =
      ((), { d with node := { d.node with counter := d.node.counter.resetAbove n } }) := rfl

@[simp] theorem perform_peek (d : Desk κ) : perform peek d = (d.node.counter.next, d) := rfl

@[simp] theorem perform_insert (order : Order) (d : Desk κ) :
    perform (insert order) d =
      ((d.node.storage.write .insert fun log => log.insert order).1,
        { d with
          node :=
            { d.node with
              storage := (d.node.storage.write .insert fun log => log.insert order).2 } }) := rfl

@[simp] theorem perform_insertAll (orders : List Order) (d : Desk κ) :
    perform (insertAll orders) d =
      ((d.node.storage.write .insertAll fun log => log.insertAll orders).1,
        { d with
          node :=
            { d.node with
              storage := (d.node.storage.write .insertAll fun log => log.insertAll orders).2 } }) :=
  rfl

@[simp] theorem perform_find (n : OrderNumber) (d : Desk κ) :
    perform (find n) d = (d.node.storage.read .get fun log => log.get? n, d) := rfl

@[simp] theorem perform_after (n : OrderNumber) (d : Desk κ) :
    perform (after n) d = (d.node.storage.read .after fun log => log.after n, d) := rfl

@[simp] theorem perform_maxNumber (d : Desk κ) :
    perform maxNumber d = (d.node.storage.read .maxNumber fun log => log.maxNumber, d) := rfl

@[simp] theorem perform_registry (d : Desk κ) : perform registry d = (d.node.registry, d) := rfl

@[simp] theorem perform_mark (id : NodeId) (status : Status) (d : Desk κ) :
    perform (mark id status) d =
      ((d.node.registry.mark id status).1,
        { d with node := { d.node with registry := (d.node.registry.mark id status).2 } }) := rfl

@[simp] theorem perform_assignLeader (id : NodeId) (d : Desk κ) :
    perform (assignLeader id) d =
      ((), { d with node := { d.node with registry := d.node.registry.assignLeader id } }) := rfl

@[simp] theorem perform_tally (what : Tally) (n : Nat) (d : Desk κ) :
    perform (tally what n) d =
      ((), { d with node := { d.node with metrics := d.node.metrics.add what n } }) := rfl

@[simp] theorem perform_publishMax (n : OrderNumber) (d : Desk κ) :
    perform (publishMax n) d =
      ((), { d with node := { d.node with metrics := { d.node.metrics with maxNumber := n } } }) :=
  rfl

theorem next_le_perform (task : Work α) (d : Desk κ) :
    d.node.counter.next ≤ (task.perform d).2.node.counter.next := by
  induction task generalizing d with
  | done a => exact Int64.le_refl _
  | act a next ih => exact Int64.le_trans (a.next_le_perform d) (ih _ _)

theorem get?_perform (task : Work α) {d : Desk κ} {k : OrderNumber} {order : Order}
    (found : d.node.storage.log.get? k = some order) :
    (task.perform d).2.node.storage.log.get? k = some order := by
  induction task generalizing d with
  | done a => exact found
  | act a next ih => exact ih _ (a.get?_perform found)

theorem outage_perform (task : Work α) (d : Desk κ) :
    (task.perform d).2.node.storage.outage = d.node.storage.outage := by
  induction task generalizing d with
  | done a => rfl
  | act a next ih => exact (ih _ _).trans (a.outage_perform d)

end Work

end OrderCluster
