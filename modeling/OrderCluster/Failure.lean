/-!
# Failures with causes

What went wrong below the service: a chain of reasons, the outermost first.
-/

namespace OrderCluster

/-- A chain of reasons, the outermost first. -/
structure Failure where
  reasons : List String
  deriving DecidableEq, Repr

namespace Failure

def because (reason : String) : Failure := ⟨[reason]⟩

/-- Puts a wider reason in front of the chain. -/
def within (f : Failure) (context : String) : Failure := ⟨context :: f.reasons⟩

def text (f : Failure) : String := ": ".intercalate f.reasons

end Failure

end OrderCluster
