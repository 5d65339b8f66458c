/-!
A double with one decimal, rounded from its exact value; an exact tie goes to the even digit.
-/
namespace Roomscape

/-- The nearest integer to `num / den`, the even one of two. -/
def roundHalfEven (num den : Nat) : Nat :=
  let whole := num / den
  let twice := 2 * (num % den)
  if den < twice ∨ (twice = den ∧ whole % 2 = 1) then whole + 1 else whole

/-- The significand and the power of two of a finite double; the sign is left out. -/
def significand (x : Float) : Nat × Int :=
  let bits : Nat := x.toBits.toNat
  let exponent : Nat := bits >>> 52 % 2048
  let fraction : Nat := bits % 1 <<< 52
  if exponent = 0 then (fraction, -1074) else (fraction + 1 <<< 52, (exponent : Int) - 1075)

/-- How many tenths a finite double that is not negative comes to. -/
def tenths (x : Float) : Nat :=
  match significand x with
  | (m, .ofNat e) => m <<< e * 10
  | (m, .negSucc e) => roundHalfEven (m * 10) (1 <<< (e + 1))

def oneDecimal (x : Float) : String := s!"{tenths x / 10}.{tenths x % 10}"

end Roomscape
