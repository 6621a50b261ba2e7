/-!
# Programs of actions

What a node or a coordinator does is a tree: an action, and for each answer to it what is done
next. Actions are atomic, and between two of them anything may happen; who performs them decides
what they do.
-/

namespace OrderCluster

/-- Actions, each with its own kind of answer. -/
class Interface (A : Type) where
  Answer : A → Type

/-- A finite tree of actions that ends with results. -/
inductive Program (A : Type) [Interface A] (α : Type) where
  | done (result : α)
  | act (action : A) (next : Interface.Answer action → Program A α)

namespace Program

variable {A : Type} [Interface A]

def bind : Program A α → (α → Program A β) → Program A β
  | done a, f => f a
  | act action next, f => act action fun answer => (next answer).bind f

instance : Monad (Program A) where
  pure := done
  bind := bind

/-- Runs a program to its end, one action after the other. -/
def run (perform : (action : A) → σ → Interface.Answer action × σ) : Program A α → σ → α × σ
  | done a, s => (a, s)
  | act action next, s =>
    let (answer, s) := perform action s
    (next answer).run perform s

/-- Runs a program with a performer that has effects of its own. -/
def runM [Monad m] (perform : (action : A) → m (Interface.Answer action)) : Program A α → m α
  | done a => pure a
  | act action next => do (next (← perform action)).runM perform

end Program

end OrderCluster
