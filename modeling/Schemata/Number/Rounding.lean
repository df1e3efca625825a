/-!
Rounding of an exact quotient to the nearest integer, a half going to the even neighbour. Main
statements: the rounded quotient is within half a unit, and an integer is its own rounding.
-/

namespace Schemata

def roundHalfEven (n d : Nat) : Nat :=
  let below := n / d
  let rest := 2 * (n % d)
  if rest < d then below
  else if d < rest then below + 1
  else if below % 2 = 0 then below
  else below + 1

@[simp] theorem roundHalfEven_mul_left (k : Nat) {d : Nat} (hd : 0 < d) :
    roundHalfEven (d * k) d = k := by
  simp [roundHalfEven, Nat.mul_div_cancel_left _ hd, hd]

theorem roundHalfEven_le (n d : Nat) : 2 * (d * roundHalfEven n d) ≤ 2 * n + d := by
  have hn := Nat.div_add_mod n d
  unfold roundHalfEven
  dsimp only
  split
  · omega
  · split
    · rw [Nat.mul_add]; omega
    · split
      · omega
      · rw [Nat.mul_add]; omega

theorem le_roundHalfEven (n : Nat) {d : Nat} (hd : 0 < d) :
    2 * n ≤ 2 * (d * roundHalfEven n d) + d := by
  have hn := Nat.div_add_mod n d
  have hr := Nat.mod_lt n hd
  unfold roundHalfEven
  dsimp only
  split
  · omega
  · split
    · rw [Nat.mul_add]; omega
    · split
      · omega
      · rw [Nat.mul_add]; omega

end Schemata
