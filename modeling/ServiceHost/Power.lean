/-!
Powers of the two bases in which numbers are stored and written.
-/

namespace ServiceHost

/-- Two to the power `n`. -/
def twoTo (n : Nat) : Nat :=
  Nat.pow 2 n

/-- Ten to the power `n`. -/
def tenTo (n : Nat) : Nat :=
  Nat.pow 10 n

end ServiceHost
