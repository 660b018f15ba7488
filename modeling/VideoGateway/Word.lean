/-!
# Machine words

The bounds of the integers of a fixed width that requests, answers and
configurations are made of.
-/
namespace VideoGateway.Word

/-- The greatest numbers of 8, 16, 32 and 64 bits. -/
def greatest8 : Nat := 0xFF
def greatest16 : Nat := 0xFFFF
def greatest32 : Nat := 0xFFFFFFFF
def greatest64 : Nat := 0xFFFFFFFFFFFFFFFF

/-- The least and the greatest signed integer of 64 bits. -/
def leastSigned64 : Int := -0x8000000000000000
def greatestSigned64 : Int := 0x7FFFFFFFFFFFFFFF

end VideoGateway.Word
