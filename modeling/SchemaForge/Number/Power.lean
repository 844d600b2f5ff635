/- Powers of the two bases in use. -/
namespace SchemaForge.Number

def twoPow (n : Nat) : Nat := Nat.pow 2 n

def tenPow (n : Nat) : Nat := Nat.pow 10 n

end SchemaForge.Number
