/-!
# Powers of two and of ten
-/

namespace FixtureCheck

/-- Two to a power. -/
def twoPow (n : Nat) : Nat := Nat.pow 2 n

/-- Ten to a power. -/
def tenPow (n : Nat) : Nat := Nat.pow 10 n

end FixtureCheck
