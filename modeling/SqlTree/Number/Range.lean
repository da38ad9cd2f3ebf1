/-!
# Integers of 64 bits

Which integers fit in a signed word of 64 bits. Limits of numbers are written as powers here and
elsewhere.
-/

-- one meaning of powers of numbers for all modules, with or without further imports
attribute [instance (high), default_instance (high + 1)] instPowNat

namespace SqlTree.Number

/-- Whether an integer fits in a signed word of 64 bits. -/
def fitsInt64 (n : Int) : Bool := -(2 ^ 63) ≤ n && n < 2 ^ 63

end SqlTree.Number
