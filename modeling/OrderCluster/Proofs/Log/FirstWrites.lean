import Mathlib.Data.Finset.Card
import Mathlib.Data.List.Dedup
import OrderCluster.Proofs.Log
import OrderCluster.Proofs.Program

/-!
# One map in which the first write wins

What an order log should answer is said by a map from numbers to orders in which the first write of
a number stands: a listing is all that is held above a number, strictly ascending, and the greatest
number is 0 while nothing is held. Here every engine is shown to answer each request of every run as
the map does, from an empty log on and also across reopenings. The map leaves no choice in what is
answered, so engines that survive a reopening alike answer alike.
-/

namespace OrderCluster

/-- What a log is asked. Reopening is asked of the process: it ends, and the next one starts. -/
inductive LogRequest where
  | insert (order : Order)
  | insertAll (orders : List Order)
  | get (n : OrderNumber)
  | after (n : OrderNumber)
  | maxNumber
  | reopen
  deriving DecidableEq, Repr

namespace LogRequest

/-- What a request is answered. -/
abbrev Answer : LogRequest → Type
  | .insert _ => Bool
  | .insertAll _ => Nat
  | .get _ => Option Order
  | .after _ => List Order
  | .maxNumber => OrderNumber
  | .reopen => Unit

instance : Interface LogRequest where
  Answer := Answer

def perform : (r : LogRequest) → OrderLog → r.Answer × OrderLog
  | .insert order, log => log.insert order
  | .insertAll orders, log => log.insertAll orders
  | .get n, log => (log.get? n, log)
  | .after n, log => (log.after n, log)
  | .maxNumber, log => (log.maxNumber, log)
  | .reopen, log => ((), log.reopen)

/-- Whether an order was asked to be added, and was. -/
def added : Exchange LogRequest → Bool
  | ⟨.insert _, fresh⟩ => fresh
  | _ => false

end LogRequest

namespace OrderLog

/-- What a log answers to requests, one after the other. -/
def answers (log : OrderLog) : List LogRequest → List (Exchange LogRequest)
  | [] => []
  | r :: rest => ⟨r, (r.perform log).1⟩ :: (r.perform log).2.answers rest

def following (log : OrderLog) (requests : List LogRequest) : OrderLog :=
  requests.foldl (fun log r => (r.perform log).2) log

theorem following_append (log : OrderLog) (requests later : List LogRequest) :
    log.following (requests ++ later) = (log.following requests).following later :=
  List.foldl_append

end OrderLog

/-- Orders under their numbers. -/
structure FirstWrites where
  held : OrderNumber → Option Order
  numbered : ∀ {n : OrderNumber} {order : Order}, held n = some order → order.number = n

namespace FirstWrites

def empty : FirstWrites := ⟨fun _ => none, nofun⟩

/-- Orders are written: what is held stands, and of the others the first of each number. -/
def write (m : FirstWrites) (orders : List Order) : FirstWrites where
  held n := (m.held n).or (orders.find? (·.number = n))
  numbered := by
    intro n order found
    rcases Option.or_eq_some_iff.mp found with old | ⟨_, new⟩
    · exact m.numbered old
    · simpa using List.find?_some new

/-- How many numbers of some orders are free, each counted once. -/
def free (m : FirstWrites) (orders : List Order) : Nat :=
  ((orders.map Order.number).toFinset.filter fun n => m.held n = none).card

def next (m : FirstWrites) (lasting : Bool) : LogRequest → FirstWrites
  | .insert order => m.write [order]
  | .insertAll orders => m.write orders
  | .get _ | .after _ | .maxNumber => m
  | .reopen => if lasting then m else empty

def Answers (m : FirstWrites) : (r : LogRequest) → r.Answer → Prop
  | .insert order, (fresh : Bool) => fresh = true ↔ m.held order.number = none
  | .insertAll orders, (count : Nat) => count = m.free orders
  | .get n, (order? : Option Order) => order? = m.held n
  | .after n, (orders : List Order) =>
    orders.Pairwise (fun a b => a.number < b.number) ∧
      ∀ order, order ∈ orders ↔ ∃ k, n < k ∧ m.held k = some order
  | .maxNumber, (top : OrderNumber) =>
    (∀ n, m.held n = none) ∧ top = 0 ∨
      (∃ order, m.held top = some order) ∧ ∀ n order, m.held n = some order → n ≤ top
  | .reopen, _ => True

/-- A run of requests that are answered as they should be, and the map that it leaves. -/
inductive Traces (lasting : Bool) :
    FirstWrites → List (Exchange LogRequest) → FirstWrites → Prop where
  | nil (m : FirstWrites) : Traces lasting m [] m
  | cons {m final : FirstWrites} {r : LogRequest} {answer : r.Answer}
    {later : List (Exchange LogRequest)} (right : m.Answers r answer)
    (rest : Traces lasting (m.next lasting r) later final) :
    Traces lasting m (⟨r, answer⟩ :: later) final

/-! ## The map leaves no choice -/

/-- There is only one right answer. -/
theorem Answers.unique {m : FirstWrites} {r : LogRequest} {a b : r.Answer} (first : m.Answers r a)
    (second : m.Answers r b) : a = b := by
  cases r with
  | insert order => exact Bool.eq_iff_iff.mpr (first.trans second.symm)
  | insertAll orders => exact first.trans second.symm
  | get n => exact first.trans second.symm
  | after n =>
    exact eq_of_ascending first.1 second.1 fun order => (first.2 order).trans (second.2 order).symm
  | maxNumber =>
    rcases first with ⟨nothing, zero⟩ | ⟨⟨order, found⟩, top⟩
    · rcases second with ⟨_, same⟩ | ⟨⟨order, found⟩, _⟩
      · exact zero.trans same.symm
      · simp [nothing] at found
    · rcases second with ⟨nothing, _⟩ | ⟨⟨other, among⟩, greatest⟩
      · simp [nothing] at found
      · exact Int64.le_antisymm (greatest a order found) (top b other among)
  | reopen => rfl

variable {lasting : Bool} {m final : FirstWrites}

/-- Two runs of the same requests that are answered as they should be are answered alike. -/
theorem Traces.unique {other : FirstWrites} {a b : List (Exchange LogRequest)}
    (first : Traces lasting m a final) (second : Traces lasting m b other)
    (same : a.map Exchange.action = b.map Exchange.action) : a = b := by
  induction first generalizing b with
  | nil m => exact (List.map_eq_nil_iff.mp same.symm).symm
  | cons right rest ih =>
    cases second with
    | nil => cases same
    | cons right_too rest_too =>
      simp only [List.map_cons, List.cons.injEq] at same
      obtain ⟨rfl, later⟩ := same
      rw [right.unique right_too, ih rest_too later]

/-- As long as nothing is reopened it does not matter what would survive it. -/
theorem Traces.unopened {xs : List (Exchange LogRequest)} (trace : Traces lasting m xs final)
    (unopened : .reopen ∉ xs.map Exchange.action) (either : Bool) : Traces either m xs final := by
  induction trace with
  | nil m => exact .nil m
  | @cons m final r answer later right rest ih =>
    simp only [List.map_cons, List.mem_cons, not_or] at unopened
    have same : m.next either r = m.next lasting r := by
      cases r with
      | reopen => exact absurd rfl unopened.1
      | _ => rfl
    exact .cons right (same ▸ ih unopened.2)

/-! ## How many orders of a batch are new -/

/-- Of a batch the first order is new or not; the others find it held. -/
theorem free_cons (m : FirstWrites) (order : Order) (rest : List Order) :
    m.free (order :: rest) = (m.write [order]).free rest + (m.held order.number).isNone.toNat := by
  have behind : ((rest.map Order.number).toFinset.filter
      fun n => (m.write [order]).held n = none) =
      ((rest.map Order.number).toFinset.filter fun n => m.held n = none).erase order.number := by
    ext n
    by_cases same : order.number = n
    · simp [write, same]
    · simp [write, same, Ne.symm same]
  rw [free, free, behind, List.map_cons, List.toFinset_cons, Finset.filter_insert]
  cases found : m.held order.number with
  | none =>
    rw [if_pos rfl, Finset.card_insert_eq_ite, Finset.card_erase_eq_ite]
    split
    · rename_i among
      have some_free := Finset.card_pos.mpr ⟨_, among⟩
      simp
      omega
    · simp
  | some held =>
    have taken : order.number ∉
        (rest.map Order.number).toFinset.filter fun n => m.held n = none := by simp [found]
    rw [if_neg nofun, Finset.erase_eq_of_notMem taken]
    rfl

end FirstWrites

/-! ## Logs and the map -/

namespace OrderLog

/-- A log that holds just what a map holds. -/
structure Represents (log : OrderLog) (m : FirstWrites) : Prop where
  keyed : log.Keyed
  held : ∀ n, log.get? n = m.held n

variable {log : OrderLog} {m : FirstWrites}

theorem Represents.insertAll (represents : log.Represents m) (orders : List Order) :
    (log.insertAll orders).2.Represents (m.write orders) where
  keyed := keyed_insertAll represents.keyed orders
  held n := by rw [get?_insertAll, represents.held]; rfl

theorem Represents.insert (represents : log.Represents m) (order : Order) :
    (log.insert order).2.Represents (m.write [order]) :=
  represents.insertAll [order]

/-- A batch reports how many of its numbers were free, each counted once. -/
theorem Represents.count (represents : log.Represents m) (orders : List Order) :
    (log.insertAll orders).1 = m.free orders := by
  induction orders generalizing log m with
  | nil => rfl
  | cons order rest ih =>
    have counted : (log.insertAll (order :: rest)).1 =
        ((log.insert order).2.insertAll rest).1 + (log.insert order).1.toNat := rfl
    rw [counted, ih (represents.insert order), insert_fst, represents.held,
      FirstWrites.free_cons]

/-- A log answers as the map that it represents. -/
theorem Represents.answers (represents : log.Represents m) (r : LogRequest) :
    m.Answers r (r.perform log).1 := by
  cases r with
  | insert order =>
    change (log.insert order).1 = true ↔ _
    rw [insert_fst, represents.held, Option.isNone_iff_eq_none]
  | insertAll orders => exact represents.count orders
  | get n => exact represents.held n
  | after n =>
    refine ⟨represents.keyed.ascending_after, fun order => represents.keyed.mem_after.trans ?_⟩
    constructor
    · rintro ⟨above, found⟩
      exact ⟨order.number, above, (represents.held _).symm.trans found⟩
    · rintro ⟨k, above, found⟩
      obtain rfl := m.numbered found
      exact ⟨above, (represents.held _).trans found⟩
  | maxNumber =>
    rcases log.maxNumber_cases with ⟨nothing, zero⟩ | ⟨order, found⟩
    · exact Or.inl ⟨fun n => (represents.held n).symm.trans (nothing n), zero⟩
    · refine Or.inr ⟨⟨order, (represents.held _).symm.trans found⟩, fun n held among => ?_⟩
      exact le_maxNumber ((represents.held n).trans among)
  | reopen => trivial

theorem isLasting_perform (r : LogRequest) (log : OrderLog) :
    (r.perform log).2.isLasting = log.isLasting := by
  cases r with
  | insert order => exact isLasting_insert log order
  | insertAll orders => exact isLasting_insertAll log orders
  | reopen => exact isLasting_reopen log
  | _ => rfl

/-- A request leaves a log that holds what the map then holds. -/
theorem Represents.next (represents : log.Represents m) (r : LogRequest) :
    (r.perform log).2.Represents (m.next log.isLasting r) := by
  cases r with
  | insert order => exact represents.insert order
  | insertAll orders => exact represents.insertAll orders
  | reopen =>
    cases lasting : log.isLasting with
    | true => exact ⟨keyed_reopen represents.keyed, fun n =>
        (congrArg (·.get? n) (reopen_of_lasting lasting)).trans (represents.held n)⟩
    | false => exact ⟨keyed_reopen represents.keyed, get?_reopen_of_fleeting lasting⟩
  | _ => exact represents

/-- Every run of a log is answered as the map says. -/
theorem Represents.traces (represents : log.Represents m) (requests : List LogRequest) :
    ∃ final, FirstWrites.Traces log.isLasting m (log.answers requests) final ∧
      (log.following requests).Represents final := by
  induction requests generalizing log m with
  | nil => exact ⟨m, .nil m, represents⟩
  | cons r rest ih =>
    obtain ⟨final, trace, after⟩ := ih (represents.next r)
    rw [isLasting_perform] at trace
    exact ⟨final, .cons (represents.answers r) trace, after⟩

theorem isLasting_following (log : OrderLog) (requests : List LogRequest) :
    (log.following requests).isLasting = log.isLasting := by
  induction requests generalizing log with
  | nil => rfl
  | cons r rest ih => exact (ih _).trans (isLasting_perform r log)

theorem map_action_answers (log : OrderLog) (requests : List LogRequest) :
    (log.answers requests).map Exchange.action = requests := by
  induction requests generalizing log with
  | nil => rfl
  | cons r rest ih => exact congrArg (List.cons r) (ih _)

/-- A batch is the same as its orders one by one. -/
theorem insertAll_eq (log : OrderLog) (orders : List Order) :
    log.insertAll orders = ((log.answers (orders.map .insert)).countP LogRequest.added,
      log.following (orders.map .insert)) := by
  induction orders generalizing log with
  | nil => rfl
  | cons order rest ih =>
    have first : log.insertAll (order :: rest) =
        (((log.insert order).2.insertAll rest).1 + (log.insert order).1.toNat,
          ((log.insert order).2.insertAll rest).2) := rfl
    have added : (log.insert order).1.toNat =
        if LogRequest.added ⟨.insert order, (log.insert order).1⟩ then 1 else 0 := by
      cases (log.insert order).1 <;> rfl
    rw [first, ih, added, List.map_cons, answers, List.countP_cons]
    rfl

/-- What a log holds stays, whatever it is asked, unless the log is opened again and not lasting. -/
theorem get?_following_of_some {n : OrderNumber} {order : Order} (requests : List LogRequest)
    (kept : log.isLasting = true ∨ .reopen ∉ requests) (found : log.get? n = some order) :
    (log.following requests).get? n = some order := by
  induction requests generalizing log with
  | nil => exact found
  | cons r rest ih =>
    refine @ih (r.perform log).2 ?_ ?_
    · rw [isLasting_perform]
      exact kept.imp_right fun unopened later => unopened (List.mem_cons_of_mem _ later)
    · cases r with
      | insert order => exact get?_insert_of_some found order
      | insertAll orders => exact get?_insertAll_of_some found orders
      | reopen =>
        have lasting := kept.resolve_right fun unopened => unopened List.mem_cons_self
        exact (congrArg (·.get? n) (reopen_of_lasting lasting)).trans found
      | _ => exact found

end OrderLog

/-! ## Every engine keeps first writes -/

/-- The engines an order log can run on. -/
inductive LogEngine where
  | memory
  | table (medium : Medium)
  deriving DecidableEq, Repr

namespace LogEngine

def empty : LogEngine → OrderLog
  | .memory => .memory {}
  | .table medium => .table { medium }

def isLasting : LogEngine → Bool
  | .table (.onFile _) => true
  | .memory | .table .inMemory => false

theorem isLasting_empty (e : LogEngine) : e.empty.isLasting = e.isLasting := by
  match e with
  | .memory | .table .inMemory | .table (.onFile _) => rfl

theorem represents_empty (e : LogEngine) : e.empty.Represents .empty := by
  cases e with
  | memory =>
    have nothing : ∀ n, (empty .memory).get? n = none := fun n => Std.TreeMap.getElem?_emptyc
    exact ⟨fun n order found => (nomatch (nothing n).symm.trans found), nothing⟩
  | table medium => exact ⟨List.nodup_nil, fun _ => rfl⟩

/-- What is promised of the logs of an engine. -/
structure KeepsFirstWrites (e : LogEngine) : Prop where
  /-- From an empty log on, everything is answered as the map says, and the log holds what the map
  then holds. -/
  traces : ∀ requests, ∃ final,
    FirstWrites.Traces e.isLasting .empty (e.empty.answers requests) final ∧
      ∀ n, (e.empty.following requests).get? n = final.held n
  /-- A batch has the effect of its orders one by one, and reports how many of them were added. -/
  batch : ∀ requests orders, (e.empty.following requests).insertAll orders =
    (((e.empty.following requests).answers (orders.map .insert)).countP LogRequest.added,
      e.empty.following (requests ++ orders.map .insert))
  /-- What is held never changes or disappears, unless the log is opened again and not lasting. -/
  stands : ∀ requests later n order, e.isLasting = true ∨ .reopen ∉ later →
    (e.empty.following requests).get? n = some order →
    (e.empty.following (requests ++ later)).get? n = some order
  /-- Reopening keeps the log on a file, and empties the others. -/
  reopened : ∀ requests n, (e.empty.following requests).reopen.get? n =
    if e.isLasting then (e.empty.following requests).get? n else none
  /-- Another engine gives the same answers, unless a reopening tells them apart. -/
  alike : ∀ (other : LogEngine) requests, e.isLasting = other.isLasting ∨ .reopen ∉ requests →
    e.empty.answers requests = other.empty.answers requests

/-- Every engine is the one map in which the first write wins. -/
theorem keepsFirstWrites (e : LogEngine) : e.KeepsFirstWrites := by
  have traced : ∀ (e : LogEngine) requests, ∃ final,
      FirstWrites.Traces e.isLasting .empty (e.empty.answers requests) final ∧
        (e.empty.following requests).Represents final := by
    intro e requests
    rw [← e.isLasting_empty]
    exact e.represents_empty.traces requests
  constructor
  · intro requests
    obtain ⟨final, trace, represents⟩ := traced e requests
    exact ⟨final, trace, represents.held⟩
  · intro requests orders
    rw [OrderLog.insertAll_eq, OrderLog.following_append]
  · intro requests later n order kept found
    rw [OrderLog.following_append]
    rw [← e.isLasting_empty, ← e.empty.isLasting_following requests] at kept
    exact OrderLog.get?_following_of_some later kept found
  · intro requests n
    rw [← e.isLasting_empty, ← e.empty.isLasting_following requests]
    cases lasting : (e.empty.following requests).isLasting with
    | true => rw [OrderLog.reopen_of_lasting lasting]; rfl
    | false => exact OrderLog.get?_reopen_of_fleeting lasting n
  · intro other requests same
    obtain ⟨_, mine, _⟩ := traced e requests
    obtain ⟨_, theirs, _⟩ := traced other requests
    have asked : (e.empty.answers requests).map Exchange.action =
        (other.empty.answers requests).map Exchange.action := by
      rw [OrderLog.map_action_answers, OrderLog.map_action_answers]
    rcases same with lasting | unopened
    · rw [lasting] at mine
      exact mine.unique theirs asked
    · have mine := mine.unopened (by rwa [OrderLog.map_action_answers]) other.isLasting
      exact mine.unique theirs asked

end LogEngine

end OrderCluster
