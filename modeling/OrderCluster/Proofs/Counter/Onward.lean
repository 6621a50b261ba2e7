import OrderCluster.Proofs.Counter

/-!
# A counter only goes onward

A counter may be used by any number of threads at once. Each call to it is atomic, so what they do
together is one list of calls, in whatever order they come. Over every such list the minted numbers
ascend, each lies above the start and above all that the counter was reset above before, and no sum
leaves the range of order numbers: at its end the counter mints nothing more, and never again.
-/

namespace OrderCluster.Counter

/-- What is asked of a counter. -/
inductive Call where
  | mint
  | resetAbove (seen : OrderNumber)
  | peek
  deriving DecidableEq, Repr

/-- Serves a call. A mint gives a number or none, a reset tells where it leaves the counter, and a
look tells where the counter stands. -/
def serve (c : Counter) : Call → Option OrderNumber × Counter
  | .mint => c.mint
  | .resetAbove seen => (some (max c.next seen.above), c.resetAbove seen)
  | .peek => (some c.next, c)

/-- A call that was served, with the counter before and after it. -/
structure Moment where
  before : Counter
  call : Call
  reply : Option OrderNumber
  after : Counter
  deriving DecidableEq, Repr

def history (c : Counter) : List Call → List Moment
  | [] => []
  | call :: calls => ⟨c, call, (c.serve call).1, (c.serve call).2⟩ :: history (c.serve call).2 calls

namespace Moment

/-- A number was given out. -/
def Mints (m : Moment) (n : OrderNumber) : Prop := m.call = .mint ∧ m.reply = some n

/-- A number was asked for, and none was left. -/
def Refuses (m : Moment) : Prop := m.call = .mint ∧ m.reply = none

/-- The call was no reset, or one that did not move the counter. -/
def Quiet (m : Moment) : Prop := ∀ seen, m.call = .resetAbove seen → m.after = m.before

/-- What one call does, with the sums of whole numbers in place of those of order numbers. -/
structure Exact (m : Moment) : Prop where
  minted : ∀ n, m.Mints n →
    n = m.before.next ∧ n ≠ OrderNumber.last ∧ m.after.next.toInt = n.toInt + 1
  refused : m.call = .mint → (m.reply = none ↔ m.before.next = OrderNumber.last)
  spent : m.Refuses → m.after = m.before
  reset : ∀ seen, m.call = .resetAbove seen →
    m.reply = some m.after.next ∧
      m.after.next.toInt = max m.before.next.toInt (min (seen.toInt + 1) OrderNumber.last.toInt)
  seen : m.call = .peek → m.reply = some m.before.next ∧ m.after = m.before

end Moment

/-- What the mints of a history replied, in their order. -/
def mintReplies (moments : List Moment) : List (Option OrderNumber) :=
  (moments.filter fun m => m.call = .mint).map Moment.reply

/-- The order number for a whole number, if it may be minted. -/
def mintable? (i : Int) : Option OrderNumber :=
  if i < OrderNumber.last.toInt then some (Int64.ofInt i) else none

/-- A history in which a counter that started above a number never repeats, wraps or goes back. -/
structure Onward (start : OrderNumber) (moments : List Moment) : Prop where
  /-- The minted numbers ascend. -/
  ascending : moments.Pairwise fun a b => ∀ m n, a.Mints m → b.Mints n → m < n
  above_start : ∀ a ∈ moments, ∀ n, a.Mints n → start < n
  above_resets : moments.Pairwise fun a b =>
    ∀ seen n, a.call = .resetAbove seen → b.Mints n → seen < n
  below_last : ∀ a ∈ moments, ∀ n, a.Mints n → n < OrderNumber.last
  never_back : (∀ a ∈ moments, a.before.next ≤ a.after.next) ∧
    moments.Pairwise fun a b => a.after.next ≤ b.before.next
  /-- Every sum, that of the start among them, is the sum of whole numbers. -/
  exact : (∀ a ∈ moments, a.Exact) ∧
    (startingAbove start).next.toInt = min (start.toInt + 1) OrderNumber.last.toInt
  /-- Where no reset moves the counter, mints give one number after the other, until none is left. -/
  consecutive : ∀ (front part back : List Moment) (first : Moment),
    moments = front ++ first :: part ++ back → (∀ a ∈ first :: part, a.Quiet) →
    mintReplies (first :: part) = (List.range (mintReplies (first :: part)).length).map
      fun i : Nat => mintable? (first.before.next.toInt + i)
  /-- A reset tells the counter that it leaves. -/
  tells : ∀ a ∈ moments, ∀ seen, a.call = .resetAbove seen → a.reply = some a.after.next
  /-- A mint gives none exactly where the counter stands at the greatest number, and then all later
  ones give none too. -/
  exhausted : (∀ a ∈ moments, a.call = .mint → (a.reply = none ↔ a.before.next = OrderNumber.last)) ∧
    moments.Pairwise fun a b => a.Refuses → b.call = .mint → b.Refuses

/-! ## One call -/

theorem toInt_lt_last {n : OrderNumber} (ne : n ≠ OrderNumber.last) :
    n.toInt < OrderNumber.last.toInt :=
  Int64.lt_iff_toInt_lt.mp
    (Int64.lt_of_le_of_ne (OrderNumber.le_last n) ne)

/-- The successor of a number that is not the greatest, as a whole number. -/
theorem toInt_add_one {n : OrderNumber} (ne : n ≠ OrderNumber.last) :
    (n + 1).toInt = n.toInt + 1 := by
  have above := OrderNumber.toInt_above n
  have below := toInt_lt_last ne
  rw [OrderNumber.above_of_ne ne] at above
  omega

theorem exact_serve (c : Counter) (call : Call) :
    Moment.Exact ⟨c, call, (c.serve call).1, (c.serve call).2⟩ := by
  cases call with
  | mint =>
    rcases mint_cases c with ⟨at_end, eq⟩ | ⟨before_end, eq⟩
    · refine ⟨?_, fun _ => iff_of_true (by rw [serve, eq]) at_end, fun _ => by rw [serve, eq],
        fun _ reset => (by cases reset), fun look => (by cases look)⟩
      rintro n ⟨_, given⟩
      simp [serve, eq] at given
    · refine ⟨?_, fun _ => iff_of_false (by simp [serve, eq]) before_end, ?_,
        fun _ reset => (by cases reset), fun look => (by cases look)⟩
      · rintro n ⟨_, given⟩
        simp only [serve, eq, Option.some.injEq] at given
        subst given
        refine ⟨rfl, before_end, ?_⟩
        simp only [serve, eq]
        exact toInt_add_one before_end
      · rintro ⟨_, refused⟩
        simp [serve, eq] at refused
  | resetAbove seen =>
    refine ⟨?_, fun mint => (by cases mint), ?_, ?_, fun look => (by cases look)⟩
    · rintro n ⟨mint, _⟩
      cases mint
    · rintro ⟨mint, _⟩
      cases mint
    · rintro _ ⟨⟩
      exact ⟨rfl, toInt_resetAbove c seen⟩
  | peek =>
    refine ⟨?_, fun mint => (by cases mint), ?_, fun _ reset => (by cases reset),
      fun _ => ⟨rfl, rfl⟩⟩
    · rintro n ⟨mint, _⟩
      cases mint
    · rintro ⟨mint, _⟩
      cases mint

theorem Moment.Exact.le {m : Moment} (exact : m.Exact) : m.before.next ≤ m.after.next := by
  rw [Int64.le_iff_toInt_le]
  cases call : m.call with
  | mint =>
    cases reply : m.reply with
    | none => exact Int.le_of_eq (by rw [exact.spent ⟨call, reply⟩])
    | some n =>
      obtain ⟨rfl, _, after⟩ := exact.minted n ⟨call, reply⟩
      omega
  | resetAbove seen =>
    obtain ⟨_, after⟩ := exact.reset seen call
    omega
  | peek => exact Int.le_of_eq (by rw [(exact.seen call).2])

/-! ## A whole history -/

theorem exact_history (c : Counter) (calls : List Call) : ∀ m ∈ history c calls, m.Exact := by
  induction calls generalizing c with
  | nil =>
    rintro m ⟨⟩
  | cons call calls ih =>
    rintro m (_ | ⟨_, later⟩)
    · exact exact_serve c call
    · exact ih _ m later

/-- Nobody finds the counter below where it began. -/
theorem le_history (c : Counter) (calls : List Call) :
    ∀ m ∈ history c calls, c.next ≤ m.before.next := by
  induction calls generalizing c with
  | nil =>
    rintro m ⟨⟩
  | cons call calls ih =>
    rintro m (_ | ⟨_, later⟩)
    · exact Int64.le_refl _
    · exact Int64.le_trans (exact_serve c call).le (ih _ m later)

/-- Each call finds the counter where all earlier ones left it, or further on. -/
theorem chained_history (c : Counter) (calls : List Call) :
    (history c calls).Pairwise fun a b => a.after.next ≤ b.before.next := by
  induction calls generalizing c with
  | nil => exact .nil
  | cons call calls ih => exact .cons (le_history _ calls) (ih _)

/-- A property of two calls holds throughout a history, if it holds wherever each call is exact and
the later one finds the counter no further back than the earlier one left it. -/
theorem pairwise_history {R : Moment → Moment → Prop} (c : Counter) (calls : List Call)
    (holds : ∀ a b : Moment, a.Exact → b.Exact → a.after.next.toInt ≤ b.before.next.toInt → R a b) :
    (history c calls).Pairwise R := by
  have exact := exact_history c calls
  refine (chained_history c calls).imp_of_mem fun {a b} earlier later le => ?_
  exact holds a b (exact a earlier) (exact b later) (Int64.le_iff_toInt_le.mp le)

/-! ## Numbers in a row -/

theorem mintable?_toInt {n : OrderNumber} (ne : n ≠ OrderNumber.last) :
    mintable? n.toInt = some n := by
  rw [mintable?, if_pos (toInt_lt_last ne), Int64.ofInt_toInt]

/-- An exhausted counter that no reset moves gives nothing, however often it is asked. -/
theorem mintable?_beyond {i : Int} (beyond : OrderNumber.last.toInt ≤ i) : mintable? i = none := by
  rw [mintable?, if_neg (by omega)]

/-- Where no reset moves the counter, the mints go through the numbers from where it stands. -/
theorem mintReplies_quiet (c : Counter) (calls : List Call)
    (quiet : ∀ m ∈ history c calls, m.Quiet) :
    mintReplies (history c calls) =
      (List.range (mintReplies (history c calls)).length).map
        fun i : Nat => mintable? (c.next.toInt + i) := by
  induction calls generalizing c with
  | nil => rfl
  | cons call calls ih =>
    have others := ih (c.serve call).2 fun m later => quiet m (List.mem_cons_of_mem _ later)
    cases call with
    | resetAbove seen =>
      have unmoved : c.resetAbove seen = c := quiet _ List.mem_cons_self seen rfl
      simp only [serve, unmoved] at others
      simpa [history, mintReplies, serve, unmoved] using others
    | peek => simpa [history, mintReplies, serve] using others
    | mint =>
      have step : mintReplies (history c (.mint :: calls)) =
          c.mint.1 :: mintReplies (history c.mint.2 calls) := by
        simp [history, mintReplies, serve]
      rw [step, List.length_cons, List.range_succ_eq_map, List.map_cons, List.map_map]
      simp only [serve] at others
      rcases mint_cases c with ⟨at_end, eq⟩ | ⟨before_end, eq⟩
      · rw [eq] at others ⊢
        have top : c.next.toInt = OrderNumber.last.toInt := congrArg Int64.toInt at_end
        refine List.cons_eq_cons.mpr ⟨(mintable?_beyond (by omega)).symm, others.trans ?_⟩
        refine List.map_congr_left fun i _ => ?_
        dsimp only [Function.comp]
        rw [mintable?_beyond (by omega), mintable?_beyond (by omega)]
      · rw [eq] at others ⊢
        refine List.cons_eq_cons.mpr ⟨?_, others.trans ?_⟩
        · simp [mintable?_toInt before_end]
        · refine List.map_congr_left fun i _ => ?_
          dsimp only [Function.comp]
          rw [toInt_add_one before_end]
          exact congrArg mintable? (by omega)

theorem history_of_front {c : Counter} {calls : List Call} {part back : List Moment}
    (eq : history c calls = part ++ back) : ∃ served, part = history c served := by
  induction part generalizing c calls with
  | nil => exact ⟨[], rfl⟩
  | cons m part ih =>
    cases calls with
    | nil => cases eq
    | cons call calls =>
      obtain ⟨rfl, others⟩ := List.cons.inj eq
      obtain ⟨served, rfl⟩ := ih others
      exact ⟨call :: served, rfl⟩

/-- A part of a history is the history of the calls in it. -/
theorem history_of_part {c : Counter} {calls : List Call} {front part back : List Moment}
    {first : Moment} (eq : history c calls = front ++ first :: part ++ back) :
    ∃ served, first :: part = history first.before served := by
  induction calls generalizing c front with
  | nil => simp [history] at eq
  | cons call calls ih =>
    cases front with
    | cons earlier front => exact ih (List.cons.inj eq).2
    | nil =>
      have whole : history c (call :: calls) = (first :: part) ++ back := eq
      obtain ⟨served, same⟩ := history_of_front whole
      have start : first.before = c := by
        rw [← (List.cons.inj whole).1]
      exact ⟨served, by rw [start, ← same]⟩

/-- Whatever is asked of a counter, and by however many threads, it never repeats a number, wraps or
goes back. -/
theorem onward_history (start : OrderNumber) (calls : List Call) :
    Onward start (history (startingAbove start) calls) := by
  have exact := exact_history (startingAbove start) calls
  have first : (startingAbove start).next.toInt = min (start.toInt + 1) OrderNumber.last.toInt :=
    OrderNumber.toInt_above start
  constructor
  · refine pairwise_history _ calls fun a b earlier later le m n gave gives => ?_
    obtain ⟨rfl, _, after⟩ := earlier.minted m gave
    obtain ⟨rfl, _, _⟩ := later.minted n gives
    rw [Int64.lt_iff_toInt_lt]
    omega
  · intro a among n gives
    obtain ⟨rfl, below, _⟩ := (exact a among).minted n gives
    have le := Int64.le_iff_toInt_le.mp (le_history _ calls a among)
    have room := toInt_lt_last below
    rw [Int64.lt_iff_toInt_lt]
    omega
  · refine pairwise_history _ calls fun a b earlier later le seen n reset gives => ?_
    obtain ⟨_, after⟩ := earlier.reset seen reset
    obtain ⟨rfl, below, _⟩ := later.minted n gives
    have room := toInt_lt_last below
    rw [Int64.lt_iff_toInt_lt]
    omega
  · intro a among n gives
    exact Int64.lt_iff_toInt_lt.mpr (toInt_lt_last ((exact a among).minted n gives).2.1)
  · exact ⟨fun a among => (exact a among).le, chained_history _ calls⟩
  · exact ⟨exact, first⟩
  · intro front part back first eq quiet
    obtain ⟨middle, same⟩ := history_of_part eq
    rw [same] at quiet ⊢
    exact mintReplies_quiet _ middle quiet
  · exact fun a among seen reset => ((exact a among).reset seen reset).1
  · refine ⟨fun a among => (exact a among).refused, ?_⟩
    refine pairwise_history _ calls fun a b earlier later le refused mint => ⟨mint, ?_⟩
    have spent : a.before.next = OrderNumber.last := (earlier.refused refused.1).mp refused.2
    rw [earlier.spent refused, spent] at le
    exact (later.refused mint).mpr (OrderNumber.last_le_iff.mp (Int64.le_iff_toInt_le.mpr le))

end OrderCluster.Counter
