import OrderCluster.Program

/-!
# Paths through programs

A program is a finite tree, and whoever answers its actions chooses a path through it. What is true
of every path is true however the actions are answered, also where the answers to later actions
depend on earlier ones.
-/

namespace OrderCluster

structure Exchange (A : Type) [Interface A] where
  action : A
  answer : Interface.Answer action

namespace Program

variable {A : Type} [Interface A] {α β : Type} {program : Program A α} {a b : α}
  {exchanged : List (Exchange A)}

/-- The paths through a program: what is exchanged on the way, and the result at the end. -/
inductive Path : Program A α → List (Exchange A) → α → Prop where
  | done (a : α) : Path (.done a) [] a
  | act (action : A) (next : Interface.Answer action → Program A α)
    (answer : Interface.Answer action) {exchanged : List (Exchange A)} {a : α}
    (rest : Path (next answer) exchanged a) :
    Path (.act action next) (⟨action, answer⟩ :: exchanged) a

theorem Path.of_done (path : Path (.done a) exchanged b) : exchanged = [] ∧ b = a := by
  cases path
  exact ⟨rfl, rfl⟩

theorem Path.of_act {action : A} {next : Interface.Answer action → Program A α}
    (path : Path (.act action next) exchanged a) :
    ∃ answer later, exchanged = ⟨action, answer⟩ :: later ∧ Path (next answer) later a := by
  cases path with
  | act _ _ answer rest => exact ⟨answer, _, rfl, rest⟩

/-- A path through one program after the other is made of a path through each. -/
theorem Path.of_bind {f : α → Program A β} {result : β}
    (path : Path (program.bind f) exchanged result) :
    ∃ front back a, exchanged = front ++ back ∧ Path program front a ∧ Path (f a) back result := by
  induction program generalizing exchanged with
  | done a => exact ⟨[], exchanged, a, rfl, .done a, path⟩
  | act action next ih =>
    obtain ⟨answer, later, rfl, rest⟩ := path.of_act
    obtain ⟨front, back, a, rfl, through, after⟩ := ih answer rest
    exact ⟨_ :: front, back, a, rfl, .act action next answer through, after⟩

def exchanges {σ : Type} (perform : (action : A) → σ → Interface.Answer action × σ) :
    Program A α → σ → List (Exchange A)
  | done _, _ => []
  | act action next, s =>
    let (answer, s) := perform action s
    ⟨action, answer⟩ :: (next answer).exchanges perform s

/-- One program is run after the other. -/
theorem run_bind {σ : Type} (perform : (action : A) → σ → Interface.Answer action × σ)
    (program : Program A α) (f : α → Program A β) (s : σ) :
    (program.bind f).run perform s =
      (f (program.run perform s).1).run perform (program.run perform s).2 := by
  induction program generalizing s with
  | done a => rfl
  | act action next ih => exact ih _ _

theorem exchanges_bind {σ : Type} (perform : (action : A) → σ → Interface.Answer action × σ)
    (program : Program A α) (f : α → Program A β) (s : σ) :
    (program.bind f).exchanges perform s = program.exchanges perform s ++
      (f (program.run perform s).1).exchanges perform (program.run perform s).2 := by
  induction program generalizing s with
  | done a => rfl
  | act action next ih => exact congrArg (List.cons _) (ih _ _)

theorem path_run {σ : Type} (perform : (action : A) → σ → Interface.Answer action × σ)
    (program : Program A α) (s : σ) :
    Path program (program.exchanges perform s) (program.run perform s).1 := by
  induction program generalizing s with
  | done a => exact .done a
  | act action next ih => exact .act action next _ (ih _ _)

end Program

end OrderCluster
