namespace Enclave

/-- One more than the largest size, length or count, which takes 64 bits. -/
def wordLimit : Nat := 0x10000000000000000

def largestWord : Nat := wordLimit - 1

def leastOffset : Int := -0x8000000000000000

def greatestOffset : Int := 0x7fffffffffffffff

def greatestPosition : Nat := 0x7fffffff

def greatestCount : Nat := 0xffffffff

abbrev Bytes := List UInt8

end Enclave
