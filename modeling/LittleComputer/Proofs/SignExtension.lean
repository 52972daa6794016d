import Mathlib.Data.Int.Bitwise
import Mathlib.Data.Int.ModEq
import LittleComputer.Proofs.Fields

/-!
# Sign extension, bit by bit

Widening a field is a matter of single bits: the bits from the width of the field up to the
sixteenth are set if the sign bit is, and no other bit changes.  Integers are read in two's
complement here, so that each has infinitely many bits, and the rule says what becomes of any
integer, be it negative or larger than the field.

* `cast_field` — a field by quotient and remainder; `field_eq_one_iff`, `eq_of_testBit_eq` — a bit
  is a field of width one, and integers are their bits.
* `field_emod` — a field within the low sixteen bits depends on the residue only.
* `testBit_signExtend` — **the rule**, from which the other results follow:
  `signExtend_signExtend` (extending twice is extending once), `signExtend_wider` (a field that has
  been extended is extended to every greater width), `signExtend_of_le` (from sixteen bits on there
  is nothing to extend).
* `signExtend_bounds`, `signExtend_modEq`, `signExtend_emod` — an extended field is a word, stands
  for the signed number that the field does, and has the field in its low bits.
* `exists_signExtended` — all of it, for widths that may be any integer from one on.
-/

namespace LittleComputer

/-! ## The bits of an integer -/

/-- A field is a remainder of a quotient. -/
theorem cast_field (value : Int) (low width : Nat) :
    (field value low width : Int) = value / 2 ^ low % 2 ^ width := by
  have hpos : (0 : Int) < (2 ^ width : Nat) := Int.natCast_pos.2 (Nat.two_pow_pos width)
  simp only [field, Nat.pow_eq]
  rw [Int.toNat_of_nonneg (Int.emod_nonneg _ hpos.ne')]
  push_cast
  rfl

/-- A bit is a field of width one. -/
theorem field_eq_one_iff (value : Int) (i : Nat) : field value i 1 = 1 ↔ value.testBit i = true := by
  have hfield := cast_field value i 1
  rw [pow_one] at hfield
  cases value with
  | ofNat n =>
      have hdiv : Int.ofNat n / 2 ^ i = (n / 2 ^ i : Nat) := by
        push_cast
        rfl
      rw [hdiv] at hfield
      simp only [Int.testBit, Nat.testBit_eq_decide_div_mod_eq, decide_eq_true_eq]
      omega
  | negSucc n =>
      -- the quotient of a negative integer is one less than the negated quotient
      have hdiv : Int.negSucc n / 2 ^ i = -((n / 2 ^ i : Nat) : Int) - 1 := by
        rw [Int.negSucc_ediv n (Int.pow_pos (by decide)), neg_add]
        push_cast
        rfl
      rw [hdiv] at hfield
      simp only [Int.testBit, Nat.testBit_eq_decide_div_mod_eq, Bool.not_eq_true',
        decide_eq_false_iff_not]
      omega

/-- An integer is determined by its bits. -/
theorem eq_of_testBit_eq {a b : Int} (h : ∀ i, a.testBit i = b.testBit i) : a = b := by
  -- far enough up, all bits are those of the sign
  have hclear : ∀ m n : Nat, m.testBit (m + n) = false := fun m n =>
    Nat.testBit_lt_two_pow (Nat.lt_of_le_of_lt (Nat.le_add_right m n) Nat.lt_two_pow_self)
  cases a with
  | ofNat m =>
      cases b with
      | ofNat n => exact congrArg Int.ofNat (Nat.eq_of_testBit_eq h)
      | negSucc n =>
          have hsign := h (m + n)
          simp only [Int.testBit, hclear m n] at hsign
          rw [Nat.add_comm, hclear n m] at hsign
          cases hsign
  | negSucc m =>
      cases b with
      | ofNat n =>
          have hsign := h (m + n)
          simp only [Int.testBit, hclear m n] at hsign
          rw [Nat.add_comm, hclear n m] at hsign
          cases hsign
      | negSucc n =>
          refine congrArg Int.negSucc (Nat.eq_of_testBit_eq fun i => ?_)
          exact Bool.not_inj (h i)

/-- A field within the low sixteen bits depends on the residue only. -/
theorem field_emod (value : Int) {low width : Nat} (h : low + width ≤ 16) :
    field (value % 65536) low width = field value low width := by
  obtain ⟨rest, hrest⟩ := Nat.exists_eq_add_of_le h
  have hpow : (65536 : Int) = 2 ^ low * (2 ^ width * 2 ^ rest) := by
    rw [← pow_add, ← pow_add, ← Nat.add_assoc, ← hrest]
    rfl
  have hdiv : value / 2 ^ low =
      value % 65536 / 2 ^ low + 2 ^ width * (2 ^ rest * (value / 65536)) := by
    rw [← Int.add_mul_ediv_left _ _ (pow_ne_zero low (by decide)), ← mul_assoc (2 ^ width),
      ← mul_assoc (2 ^ low), ← hpow, Int.emod_add_mul_ediv]
  rw [← Int.natCast_inj, cast_field, cast_field, hdiv, Int.add_mul_emod_self_left]

/-- The low sixteen bits are those of the residue, the others those of the quotient. -/
theorem testBit_eq (value : Int) (i : Nat) :
    value.testBit i =
      if i < 16 then (Word.ofInt value).getLsbD i else (value / 65536).testBit (i - 16) := by
  rw [Bool.eq_iff_iff, ← field_eq_one_iff]
  split
  · rename_i hlow
    have hword : (Word.ofInt value).getLsbD i = (value % 65536).testBit i := by
      rw [← Word.cast_toNat_ofInt]
      rfl
    rw [hword, ← field_eq_one_iff, field_emod value (by omega)]
  · rename_i hhigh
    have hpow : (2 : Int) ^ i = 65536 * 2 ^ (i - 16) := by
      rw [show (65536 : Int) = 2 ^ 16 from rfl, ← pow_add]
      congr 1
      omega
    rw [← field_eq_one_iff, ← Int.natCast_inj, ← Int.natCast_inj, cast_field, cast_field, hpow,
      Int.ediv_ediv_of_nonneg (by decide)]

/-- Nothing is set above a number. -/
theorem testBit_eq_false {value : Int} {width i : Nat} (nonneg : 0 ≤ value)
    (less : value < 2 ^ width) (h : width ≤ i) : value.testBit i = false := by
  obtain ⟨n, rfl⟩ := Int.eq_ofNat_of_zero_le nonneg
  have hlt : n < 2 ^ width := by exact_mod_cast less
  exact Nat.testBit_lt_two_pow (Nat.lt_of_lt_of_le hlt (Nat.pow_le_pow_right (by decide) h))

/-! ## Setting bits -/

/-- The bits from 16 on stay as they are. -/
theorem setBits_ediv (value : Int) (mask : Word) : setBits value mask / 65536 = value / 65536 := by
  have hlt := (Word.ofInt value ||| mask).isLt
  simp only [setBits, wordCount]
  omega

/-- Setting bits sets these bits. -/
theorem testBit_setBits (value : Int) (mask : Word) (i : Nat) :
    (setBits value mask).testBit i = (value.testBit i || mask.getLsbD i) := by
  rw [testBit_eq (setBits value mask), testBit_eq value, Word.ofInt_setBits, setBits_ediv]
  split
  · rw [BitVec.getLsbD_or]
  · rename_i hhigh
    rw [BitVec.getLsbD_of_ge mask i (by omega), Bool.or_false]

/-- Setting bits in a word gives a word. -/
theorem setBits_bounds {value : Int} (mask : Word) (nonneg : 0 ≤ value) (less : value < 65536) :
    0 ≤ setBits value mask ∧ setBits value mask < 65536 := by
  have hlt := (Word.ofInt value ||| mask).isLt
  simp only [setBits, wordCount]
  omega

/-! ## The rule -/

variable {value : Int} {width : Nat}

/-- **Sign extension, bit by bit.**  The bits from the width of the field up to the sixteenth are
set if the sign bit is set; all others stay as they are. -/
theorem testBit_signExtend (value : Int) (pos : 0 < width) (i : Nat) :
    (signExtend value width).testBit i =
      (value.testBit i || (decide (width ≤ i ∧ i < 16) && value.testBit (width - 1))) := by
  unfold signExtend
  split
  · rename_i h
    obtain ⟨hshort, hsign⟩ := h
    rw [testBit_setBits, getLsbD_highOnes (by omega), (field_eq_one_iff _ _).1 hsign,
      Bool.and_true, Bool.and_comm, Bool.decide_and]
  · rename_i h
    by_cases hshort : width < 16
    · have hsign : value.testBit (width - 1) = false :=
        Bool.eq_false_iff.2 fun hset => h ⟨hshort, (field_eq_one_iff _ _).2 hset⟩
      rw [hsign, Bool.and_false, Bool.or_false]
    · have hnone : ¬ (width ≤ i ∧ i < 16) := by omega
      rw [decide_eq_false hnone, Bool.false_and, Bool.or_false]

/-- The sign bit itself stays. -/
theorem testBit_signExtend_sign (value : Int) (pos : 0 < width) :
    (signExtend value width).testBit (width - 1) = value.testBit (width - 1) := by
  have hbelow : ¬ (width ≤ width - 1 ∧ width - 1 < 16) := by omega
  rw [testBit_signExtend value pos, decide_eq_false hbelow, Bool.false_and, Bool.or_false]

/-- A result whose bit below `wider` is the sign bit of the field has been extended from `wider` as
well, if `wider` is no less than the width of the field. -/
theorem signExtend_eq_self {wider : Nat} (pos : 0 < width) (h : width ≤ wider)
    (sign : (signExtend value width).testBit (wider - 1) = value.testBit (width - 1)) :
    signExtend (signExtend value width) wider = signExtend value width := by
  refine eq_of_testBit_eq fun i => ?_
  rw [testBit_signExtend _ (by omega), sign, testBit_signExtend value pos]
  by_cases hi : wider ≤ i ∧ i < 16
  · have hi' : width ≤ i ∧ i < 16 := ⟨by omega, hi.2⟩
    rw [decide_eq_true hi, decide_eq_true hi', Bool.true_and, Bool.or_assoc, Bool.or_self]
  · rw [decide_eq_false hi, Bool.false_and, Bool.or_false]

/-- Extending twice is extending once. -/
theorem signExtend_signExtend (value : Int) (pos : 0 < width) :
    signExtend (signExtend value width) width = signExtend value width :=
  signExtend_eq_self pos (Nat.le_refl width) (testBit_signExtend_sign value pos)

/-- From sixteen bits on there is nothing to extend. -/
theorem signExtend_of_le (value : Int) (h : 16 ≤ width) : signExtend value width = value := by
  rw [signExtend, if_neg (by omega)]

/-! ## Extended fields -/

/-- An extended field can be read as a field of any greater width. -/
theorem signExtend_wider {wider : Nat} (pos : 0 < width) (nonneg : 0 ≤ value)
    (less : value < 2 ^ width) (h : width ≤ wider) (short : wider ≤ 16) :
    signExtend (signExtend value width) wider = signExtend value width := by
  refine signExtend_eq_self pos h ?_
  obtain rfl | hlt := Nat.eq_or_lt_of_le h
  · exact testBit_signExtend_sign value pos
  · -- above the field there are only copies of its sign bit
    have hclear : value.testBit (wider - 1) = false :=
      testBit_eq_false nonneg less (by omega)
    have hinside : width ≤ wider - 1 ∧ wider - 1 < 16 := by omega
    rw [testBit_signExtend value pos, hclear, decide_eq_true hinside, Bool.false_or,
      Bool.true_and]

/-- An extended word is a word. -/
theorem signExtend_bounds (width : Nat) (nonneg : 0 ≤ value) (less : value < 65536) :
    0 ≤ signExtend value width ∧ signExtend value width < 65536 := by
  unfold signExtend
  split
  · exact setBits_bounds _ nonneg less
  · exact ⟨nonneg, less⟩

/-- **An extended field stands for the field read as a signed number**, modulo `2 ^ 16`. -/
theorem signExtend_modEq (pos : 0 < width) (short : width ≤ 16) (nonneg : 0 ≤ value)
    (less : value < 2 ^ width) :
    signExtend value width ≡ (BitVec.ofInt width value).toInt [ZMOD 65536] := by
  obtain rfl | hshort := Nat.eq_or_lt_of_le short
  · rw [signExtend_of_le value (Nat.le_refl 16), BitVec.toInt_ofInt]
    exact Int.bmod_emod.symm
  · have hvalue : ((BitVec.ofInt width value).toNat : Int) = value := by
      rw [BitVec.toNat_ofInt]
      push_cast
      rw [Int.emod_eq_of_lt nonneg less, Int.toNat_of_nonneg nonneg]
    have hsame : Word.ofInt (signExtend value width)
        = Word.ofInt (BitVec.ofInt width value).toInt := by
      have h := Word.ofInt_signExtend (BitVec.ofInt width value) pos hshort
      rw [hvalue] at h
      exact h
    unfold Int.ModEq
    rw [← Word.cast_toNat_ofInt, hsame, Word.cast_toNat_ofInt]

/-- The field can be read off it again. -/
theorem signExtend_emod (pos : 0 < width) (short : width ≤ 16) (nonneg : 0 ≤ value)
    (less : value < 2 ^ width) : signExtend value width % 2 ^ width = value := by
  have hdvd : (2 : Int) ^ width ∣ 65536 := by
    rw [show (65536 : Int) = 2 ^ 16 from rfl]
    exact pow_dvd_pow 2 short
  have hsigned : signExtend value width % 2 ^ width
      = (BitVec.ofInt width value).toInt % 2 ^ width :=
    (signExtend_modEq pos short nonneg less).of_dvd hdvd
  have hfield : value.bmod (2 ^ width) % (2 ^ width : Nat) = value % (2 ^ width : Nat) :=
    Int.bmod_emod
  push_cast at hfield
  rw [hsigned, BitVec.toInt_ofInt, hfield, Int.emod_eq_of_lt nonneg less]

/-! ## Fields of any width -/

/-- A number that fits into a field of a word. -/
def IsField (value width : Int) : Prop :=
  width ≤ 16 ∧ 0 ≤ value ∧ value < 2 ^ width.toNat

/-- `SignExtended value width result` : the integer `result` is `value`, extended from `width`. -/
structure SignExtended (value width result : Int) : Prop where
  /-- The bits from the width up to the sixteenth are or-ed with the sign bit, the others stay. -/
  bits : ∀ i : Nat, result.testBit i =
    (value.testBit i || (decide (width ≤ i ∧ i < 16) && value.testBit (width - 1).toNat))
  /-- Extending it again changes nothing. -/
  again : signExtend? result width = .ok result
  /-- An extended field is a word. -/
  word : IsField value width → 0 ≤ result ∧ result ≤ 0xFFFF
  /-- It stands for the field read as a signed number. -/
  signed : IsField value width →
    result ≡ (BitVec.ofInt width.toNat value).toInt [ZMOD 65536]
  /-- Nor does extending it from a greater width change anything. -/
  wider : IsField value width → ∀ c, width ≤ c → c ≤ 16 → signExtend? result c = .ok result
  /-- From sixteen bits on there is nothing to extend. -/
  whole : 16 ≤ width → result = value

/-- **Sign extension.**  Every integer can be extended from every width but those below one. -/
theorem exists_signExtended (value width : Int) (pos : 1 ≤ width) :
    ∃ result, signExtend? value width = .ok result ∧ SignExtended value width result := by
  obtain ⟨n, rfl⟩ := Int.eq_ofNat_of_zero_le (Int.le_trans (by decide) pos)
  have hpos : 0 < n := by omega
  have hextend : ∀ (v : Int) {c : Nat}, 0 < c → signExtend? v c = .ok (signExtend v c) := by
    intro v c hc
    rw [signExtend?, if_pos (by omega), Int.toNat_natCast]
  refine ⟨signExtend value n, hextend value hpos, ?_⟩
  constructor
  case bits =>
    intro i
    have hsign : ((n : Int) - 1).toNat = n - 1 := by omega
    rw [testBit_signExtend value hpos, hsign]
    norm_cast
  case again => rw [hextend _ hpos, signExtend_signExtend value hpos]
  case word =>
    rintro ⟨hshort, hnonneg, hless⟩
    have hpow : (2 : Int) ^ n ≤ 2 ^ 16 := by
      exact_mod_cast Nat.pow_le_pow_right (by decide) (by omega)
    have hbounds := signExtend_bounds n hnonneg (Int.lt_of_lt_of_le hless hpow)
    omega
  case signed =>
    rintro ⟨hshort, hnonneg, hless⟩
    exact signExtend_modEq hpos (by omega) hnonneg hless
  case wider =>
    rintro ⟨-, hnonneg, hless⟩ c hc hshort
    obtain ⟨k, rfl⟩ := Int.eq_ofNat_of_zero_le (Int.le_trans (Int.natCast_nonneg n) hc)
    rw [hextend _ (by omega), signExtend_wider hpos hnonneg hless (by omega) (by omega)]
  case whole =>
    intro hwide
    exact signExtend_of_le value (by omega)

/-- A negative integer whose field, sixteen, has its sign bit set and none of the bits above. -/
theorem exists_signExtended_negative :
    (1 : Int) ≤ 5 ∧ signExtend? (-65520) 5 = .ok (-16) ∧ SignExtended (-65520) 5 (-16) := by
  obtain ⟨result, hresult, hextended⟩ := exists_signExtended (-65520) 5 (by decide)
  have hsixteen : signExtend? (-65520) 5 = .ok (-16) := by decide
  cases hresult.symm.trans hsixteen
  exact ⟨by decide, hsixteen, hextended⟩

end LittleComputer
