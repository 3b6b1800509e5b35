/-!
# Words

Whole numbers that a fixed number of bits holds. Counts and amounts of the engine are words, so
their bounds stand in its rules.
-/

namespace Replication.Word

/-- The number of values that a word of so many bits has. -/
def size (bits : Nat) : Nat := Nat.pow 2 bits

/-- The greatest word of so many bits. -/
def greatest (bits : Nat) : Nat := size bits - 1

end Replication.Word
