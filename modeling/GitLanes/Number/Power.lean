namespace GitLanes

/-!
# Powers of two and of ten

The scales of binary and of decimal numbers. Both kinds of power are positive,
and a sum of exponents is a product of powers.
-/

/-- A power of two. -/
def powerOfTwo (exponent : Nat) : Nat :=
  Nat.pow 2 exponent

/-- A power of ten. -/
def powerOfTen (exponent : Nat) : Nat :=
  Nat.pow 10 exponent

/-- A power of two is positive. -/
theorem powerOfTwo_pos (exponent : Nat) : 0 < powerOfTwo exponent :=
  Nat.pow_pos (by decide)

/-- A power of ten is positive. -/
theorem powerOfTen_pos (exponent : Nat) : 0 < powerOfTen exponent :=
  Nat.pow_pos (by decide)

/-- Powers of two multiply by adding their exponents. -/
theorem powerOfTwo_add (left right : Nat) :
    powerOfTwo (left + right) = powerOfTwo left * powerOfTwo right :=
  Nat.pow_add 2 left right

/-- Powers of ten multiply by adding their exponents. -/
theorem powerOfTen_add (left right : Nat) :
    powerOfTen (left + right) = powerOfTen left * powerOfTen right :=
  Nat.pow_add 10 left right

end GitLanes
