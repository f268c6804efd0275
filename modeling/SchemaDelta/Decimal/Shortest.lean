/-!
# The fewest digits that read back

A finite double is a natural number times a power of two. The decimals that round to it fill an
interval, and the selected decimal has the fewest digits of those: the grids of one, two, ...
seventeen digits are tried in turn, and the two neighbours of the value on a grid are tested with
exact integer arithmetic. Of two that read back the nearer is taken, and an exact tie goes to the
even one. Where no grid has one, all digits are taken, so what is selected reads back in any case
(`Binary.readsBack_shortest`).
-/

namespace SchemaDelta.Decimal

/-- A power of two; a negative exponent counts as zero. -/
def twoPow (e : Int) : Nat :=
  Nat.pow 2 e.toNat

/-- A power of ten; a negative exponent counts as zero. -/
def tenPow (e : Int) : Nat :=
  Nat.pow 10 e.toNat

/-- A finite double without its sign: `mantissa * 2 ^ exponent`. -/
structure Binary where
  mantissa : Nat
  exponent : Int
  /-- The gap to the value below is half the gap to the value above. -/
  narrowBelow : Bool

/-- The value that the bits of a finite double denote, without its sign. -/
def Binary.ofBits (bits : UInt64) : Binary :=
  let field := ((bits >>> 52) &&& 0x7FF).toNat
  let fraction := (bits &&& 0xFFFFFFFFFFFFF).toNat
  if field = 0 then ⟨fraction, -1074, false⟩
  else ⟨twoPow 52 + fraction, (field : Int) - 1075, fraction = 0 && 1 < field⟩

/-- The value, if it is a natural number. -/
def Binary.toNat? (x : Binary) : Option Nat :=
  if 0 ≤ x.exponent then some (x.mantissa * twoPow x.exponent)
  else
    let unit := twoPow (-x.exponent)
    if x.mantissa % unit = 0 then some (x.mantissa / unit) else none

/-- The decimal `digits * 10 ^ exponent`. -/
structure Digits where
  digits : Nat
  exponent : Int

/-- The comparison of `a * 10 ^ i` with `n * 2 ^ j`. -/
def compareScaled (a : Nat) (i : Int) (n : Nat) (j : Int) : Ordering :=
  compare (a * tenPow i * twoPow (-j)) (n * twoPow j * tenPow (-i))

/-- The decimal rounds to `x`: it lies between the midpoints to the neighbours of `x`, and the
midpoints count exactly when the mantissa is even. -/
def Binary.readsBack (x : Binary) (d : Digits) : Bool :=
  let below := if x.narrowBelow then 4 * x.mantissa - 1 else 4 * x.mantissa - 2
  let above := 4 * x.mantissa + 2
  let low := compareScaled d.digits d.exponent below (x.exponent - 2)
  let high := compareScaled d.digits d.exponent above (x.exponent - 2)
  if x.mantissa % 2 = 0 then low ≠ .lt && high ≠ .gt else low = .gt && high = .lt

/-- The least power of ten above `x`, for `x` not zero. The binary logarithm gives it up to two. -/
def Binary.magnitude (x : Binary) : Int :=
  let estimate := Int.fdiv ((x.exponent + x.mantissa.log2) * 30103) 100000
  let isAbove (k : Int) : Bool := compareScaled 1 k x.mantissa x.exponent = .gt
  if isAbove estimate then estimate
  else if isAbove (estimate + 1) then estimate + 1 else estimate + 2

/-- The decimal on the grid of `10 ^ g` that reads back, the nearer of two. -/
def Binary.onGrid? (x : Binary) (g : Int) : Option Digits :=
  let floor := x.mantissa * twoPow x.exponent * tenPow (-g) / (twoPow (-x.exponent) * tenPow g)
  let lower : Digits := ⟨floor, g⟩
  let upper : Digits := ⟨floor + 1, g⟩
  match x.readsBack lower, x.readsBack upper with
  | true, true =>
    match compareScaled (2 * floor + 1) g (2 * x.mantissa) x.exponent with
    | .gt => some lower
    | .lt => some upper
    | .eq => some (if floor % 2 = 0 then lower else upper)
  | true, false => some lower
  | false, true => some upper
  | false, false => none

/-- Every digit of the value. -/
def Binary.allDigits (x : Binary) : Digits :=
  if 0 ≤ x.exponent then ⟨x.mantissa * twoPow x.exponent, 0⟩
  else ⟨x.mantissa * Nat.pow 5 (-x.exponent).toNat, x.exponent⟩

/-- The fewest digits that read back, for a value other than zero. -/
def Binary.shortest (x : Binary) : Digits :=
  let k := x.magnitude
  ((List.range 17).findSome? fun (n : Nat) => x.onGrid? (k - (n + 1))).getD x.allDigits

/-! ## The selected decimal reads back -/

/-- A decimal that is `b` units of `2 ^ j` compares with `n` of them as `b` does with `n`. -/
theorem compareScaled_eq {a b n : Nat} {i j : Int}
    (h : a * tenPow i * twoPow (-j) = b * (twoPow j * tenPow (-i))) :
    compareScaled a i n j = compare b n := by
  have hpos : 0 < twoPow j * tenPow (-i) :=
    Nat.mul_pos (Nat.pow_pos (by decide)) (Nat.pow_pos (by decide))
  rw [compareScaled, h, Nat.mul_assoc n, Nat.compare_eq_ite_lt, Nat.compare_eq_ite_lt]
  simp only [Nat.mul_lt_mul_right hpos]

/-- Every digit of the value is the value, which is four quarters for each unit of the mantissa. -/
theorem Binary.compareScaled_allDigits (x : Binary) (n : Nat) :
    compareScaled x.allDigits.digits x.allDigits.exponent n (x.exponent - 2) =
      compare (4 * x.mantissa) n := by
  refine compareScaled_eq ?_
  unfold allDigits twoPow tenPow
  split
  case isTrue he =>
    have hexp : x.exponent.toNat + (-(x.exponent - 2)).toNat = (x.exponent - 2).toNat + 2 := by
      omega
    calc x.mantissa * 2 ^ x.exponent.toNat * 1 * 2 ^ (-(x.exponent - 2)).toNat
        = x.mantissa * 2 ^ (x.exponent.toNat + (-(x.exponent - 2)).toNat) := by
          rw [Nat.mul_one, Nat.mul_assoc, Nat.pow_add]
      _ = 4 * x.mantissa * (2 ^ (x.exponent - 2).toNat * 1) := by
          rw [hexp, Nat.pow_add]
          grind
  case isFalse he =>
    obtain ⟨k, hk⟩ : ∃ k : Nat, x.exponent = -k := ⟨x.exponent.natAbs, by omega⟩
    have hbelow : (x.exponent - 2).toNat = 0 := by omega
    have habove : (-(x.exponent - 2)).toNat = k + 2 := by omega
    rw [hbelow, habove, hk, Int.neg_neg, Int.toNat_natCast, Int.toNat_neg_natCast]
    calc x.mantissa * 5 ^ k * 1 * 2 ^ (k + 2)
        = 4 * x.mantissa * (5 ^ k * 2 ^ k) := by
          rw [Nat.pow_add]
          grind
      _ = 4 * x.mantissa * (1 * 10 ^ k) := by rw [← Nat.mul_pow, Nat.one_mul]

/-- Every digit of the value reads back. -/
theorem Binary.readsBack_allDigits (x : Binary) : x.readsBack x.allDigits = true := by
  simp only [readsBack, compareScaled_allDigits]
  -- The midpoints are a half or a quarter of a unit away; an odd mantissa is not zero.
  split
  · simp only [ne_eq, Bool.and_eq_true, decide_eq_true_eq, Nat.compare_ne_gt, Nat.compare_ne_lt]
    split <;> omega
  · simp only [Bool.and_eq_true, decide_eq_true_eq, Nat.compare_eq_gt, Nat.compare_eq_lt]
    split <;> omega

/-- What a selection on a grid returns reads back. -/
theorem Binary.readsBack_of_onGrid? {x : Binary} {g : Int} {d : Digits}
    (h : x.onGrid? g = some d) : x.readsBack d = true := by
  simp only [Binary.onGrid?] at h
  split at h
  case h_1 hlower hupper =>
    split at h <;> cases h
    · exact hlower
    · exact hupper
    · split <;> assumption
  case h_2 hlower _ => cases h; exact hlower
  case h_3 _ hupper => cases h; exact hupper
  case h_4 => cases h

/-- The digits that are written for a value read back as that value. -/
theorem Binary.readsBack_shortest (x : Binary) : x.readsBack x.shortest = true := by
  simp only [shortest]
  cases h : (List.range 17).findSome? fun (n : Nat) => x.onGrid? (x.magnitude - (n + 1)) with
  | none => exact x.readsBack_allDigits
  | some d =>
    obtain ⟨n, -, hn⟩ := List.exists_of_findSome?_eq_some h
    exact readsBack_of_onGrid? hn

end SchemaDelta.Decimal
