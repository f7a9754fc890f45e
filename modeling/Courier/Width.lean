namespace Courier.Width

/-- Numbers of 16 bits lie below this. -/
def limit16 : Nat := 0x10000

def limit32 : Nat := 0x100000000

def limit64 : Nat := 0x10000000000000000

/-- Numbers of 64 bits with a sign lie below this. -/
def signedLimit64 : Int := 0x8000000000000000

def isSigned64 (n : Int) : Bool := -signedLimit64 ≤ n && n < signedLimit64

end Courier.Width
