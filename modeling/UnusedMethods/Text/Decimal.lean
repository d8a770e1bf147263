/-!
# Decimal fractions
-/

namespace UnusedMethods.Text

/-- The integer nearest to a quotient; of two the even one. -/
def roundDiv (num den : Nat) : Nat :=
  let q := num / den
  let twice := 2 * (num % den)
  if twice < den then q
  else if twice > den then q + 1
  else if q % 2 = 0 then q
  else q + 1

/-- A rounded quotient is at most half a unit away. -/
theorem roundDiv_near (num den : Nat) (h : 0 < den) :
    2 * num ≤ (2 * roundDiv num den + 1) * den ∧ 2 * roundDiv num den * den ≤ 2 * num + den := by
  have hq := Nat.div_add_mod num den
  have hr := Nat.mod_lt num h
  generalize hn : num / den = q at hq
  generalize hm : num % den = r at hq hr
  have hup : (q + 1) * den = den * q + den := by rw [Nat.add_mul, Nat.one_mul, Nat.mul_comm]
  have h1 : (2 * q + 1) * den = 2 * (den * q) + den := by
    rw [Nat.add_mul, Nat.one_mul, Nat.mul_assoc, Nat.mul_comm q]
  have h2 : (2 * (q + 1) + 1) * den = 2 * (den * q) + 3 * den := by
    rw [Nat.add_mul, Nat.one_mul, Nat.mul_assoc, hup]; omega
  have h3 : 2 * q * den = 2 * (den * q) := by rw [Nat.mul_assoc, Nat.mul_comm q]
  have h4 : 2 * (q + 1) * den = 2 * (den * q) + 2 * den := by rw [Nat.mul_assoc, hup]; omega
  simp only [roundDiv, hn, hm]
  split
  · omega
  · split
    · omega
    · split <;> omega

def withPoint (places n : Nat) : String :=
  let digits := (Nat.toDigits 10 n)
  let padded := List.replicate (places + 1 - digits.length) '0' ++ digits
  String.ofList (padded.take (padded.length - places)) ++ "." ++
    String.ofList (padded.drop (padded.length - places))

def fixed (places num den : Nat) : String := withPoint places (roundDiv (num * Nat.pow 10 places) den)

end UnusedMethods.Text
