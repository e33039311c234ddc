/-! # Powers of two and of ten -/

namespace Formulary

abbrev twoPow (n : Nat) : Nat := Nat.pow 2 n

abbrev tenPow (n : Nat) : Nat := Nat.pow 10 n

end Formulary
