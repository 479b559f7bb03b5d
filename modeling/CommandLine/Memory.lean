/-!
# Room in memory

A list that is made with room for a number of elements asks for all of it at once. One piece of
memory has at most `maxBytes` bytes, and a program that asks for more is stopped on the spot.
Whether the machine has as much memory as it can address is left aside.
-/

namespace CommandLine

/-- Why a program is stopped on the spot. -/
inductive Stop where
  /-- A list was to have room for more than one piece of memory can hold. -/
  | overflow
  deriving DecidableEq

/-- The bytes of the largest piece of memory: the greatest number of 64 bits with a sign. -/
def maxBytes : Nat := 9223372036854775807

/-- Room for a number of elements fits into one piece of memory. -/
def FitsMemory (bytes count : Nat) : Prop := bytes * count ≤ maxBytes

instance (bytes count : Nat) : Decidable (FitsMemory bytes count) :=
  inferInstanceAs (Decidable (bytes * count ≤ maxBytes))

/-- Asks for room for a number of elements, of some bytes each. -/
def askRoom (bytes count : Nat) : Except Stop Unit :=
  if FitsMemory bytes count then .ok () else .error .overflow

end CommandLine
