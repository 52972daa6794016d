import LittleComputer.Text.Numeral
import Mathlib.Data.List.Forall2

/-!
# Integers as literals

An integer can be written in decimal or in hexadecimal, and read back from either.  Hexadecimal
numerals may begin with zeros and may use either case.

* `Text.Spells` — characters that stand for the digits of a base, one by one.
* `Text.spells_toDigits` — the digits that are written for a number, and their value.
* `Text.marked?_decimal`, `Text.marked?_hex` — how natural numbers are read back.
* `Text.literal?_toString` — **decimals are read back**.
* `Text.literal?_hex` — **hexadecimals are read back**.
* `Text.Writes`, `Text.literal?_of_writes` — both ways to write an integer.
-/

namespace LittleComputer.Text

/-! ## Plain characters -/

/-- A character that stands for itself in a numeral, wherever it is. -/
def Plain (c : Char) : Prop := isBlank c = false ∧ plainDigit c = c

/-- Numerals of plain characters are read as they stand. -/
theorem numeral_of_plain {cs : List Char} (h : ∀ c ∈ cs, Plain c) :
    numeral (String.ofList cs) = cs := by
  have hkept : ∀ l : List Char, (∀ c ∈ l, Plain c) → l.dropWhile isBlank = l := by
    intro l hl
    cases l with
    | nil => rfl
    | cons c l => exact List.dropWhile_cons_of_neg (by simp [(hl c List.mem_cons_self).1])
  rw [numeral, String.toList_ofList, trimmed, hkept cs h, hkept cs.reverse fun c hc =>
    h c (List.mem_reverse.1 hc), List.reverse_reverse]
  exact (List.map_congr_left fun c hc => (h c hc).2).trans (List.map_id cs)

/-- Only ASCII characters are digits. -/
theorem lt_of_digit? {c : Char} {d : Nat} (h : digit? c = some d) : c.toNat < 128 := by
  refine Nat.lt_of_not_le fun hlarge => ?_
  have hbeyond : ∀ high : Char, high.toNat < 128 → ¬ c.val ≤ high.val := fun high hhigh hle =>
    Nat.not_lt_of_le hlarge (Nat.lt_of_le_of_lt hle hhigh)
  have hdigit : ¬ c.isDigit = true := fun hc =>
    hbeyond '9' (by decide) (of_decide_eq_true (Bool.and_eq_true_iff.1 hc).2)
  have hlower : ¬ c.isLower = true := fun hc =>
    hbeyond 'z' (by decide) (of_decide_eq_true (Bool.and_eq_true_iff.1 hc).2)
  have hupper : ¬ c.isUpper = true := fun hc => hbeyond 'Z' (by decide) (of_decide_eq_true hc).2
  rw [digit?, if_neg hdigit, if_neg hlower, if_neg hupper] at h
  cases h

/-- All of them are plain, and none is a sign or an underscore. -/
theorem plain_of_digit? {c : Char} {d : Nat} (h : digit? c = some d) :
    Plain c ∧ c ≠ '-' ∧ c ≠ '+' ∧ c ≠ '_' := by
  have hascii : ∀ n < 128, (digit? (Char.ofNat n)).isSome = true →
      (isBlank (Char.ofNat n) = false ∧ plainDigit (Char.ofNat n) = Char.ofNat n) ∧
        Char.ofNat n ≠ '-' ∧ Char.ofNat n ≠ '+' ∧ Char.ofNat n ≠ '_' := by
    decide +kernel
  have hc := hascii c.toNat (lt_of_digit? h)
  rw [Char.ofNat_toNat] at hc
  exact hc (Option.isSome_iff_exists.2 ⟨d, h⟩)

/-- The case of a letter does not matter. -/
theorem digit?_toLower (c : Char) : digit? c.toLower = digit? c := by
  have hascii : ∀ n < 128, digit? (Char.ofNat n).toLower = digit? (Char.ofNat n) := by
    decide +kernel
  by_cases hc : c.toNat < 128
  · have hsame := hascii c.toNat hc
    rwa [Char.ofNat_toNat] at hsame
  · have hbeyond : ¬ c.val ≤ 'Z'.val := fun hle =>
      hc (Nat.lt_of_le_of_lt (show c.toNat ≤ 90 from hle) (by decide))
    have hkept : c.toLower = c := dif_neg fun hupper => hbeyond hupper.2
    rw [hkept]

/-! ## Digits -/

/-- The characters stand for the digits of a base, one by one. -/
def Spells (base : Nat) (cs : List Char) (digits : List Nat) : Prop :=
  List.Forall₂ (fun c d => digitIn? base c = some d) cs digits

section Digits

variable {base : Nat} {cs : List Char} {digits : List Nat}

theorem digit?_of_digitIn? {d : Nat} {c : Char} (h : digitIn? base c = some d) :
    digit? c = some d :=
  (Option.filter_eq_some_iff.1 h).1

/-- What stands for digits is plain. -/
theorem Spells.plain (h : Spells base cs digits) :
    ∀ c ∈ cs, Plain c ∧ c ≠ '-' ∧ c ≠ '+' ∧ c ≠ '_' := by
  induction h with
  | nil => simp
  | cons hc _ ih =>
      rintro c (_ | ⟨_, hmem⟩)
      · exact plain_of_digit? (digit?_of_digitIn? hc)
      · exact ih c hmem

/-- It begins with no sign. -/
theorem Spells.head? (h : Spells base cs digits) : cs.head? ≠ some '-' ∧ cs.head? ≠ some '+' := by
  constructor
  · exact fun hhead => (h.plain '-' (List.mem_of_head? hhead)).2.1 rfl
  · exact fun hhead => (h.plain '+' (List.mem_of_head? hhead)).2.2.1 rfl

/-- Characters are read as the digits that they stand for. -/
theorem digits?_of_spells (h : Spells base cs digits) (hne : cs ≠ []) :
    digits? base cs = some digits := by
  induction h with
  | nil => exact absurd rfl hne
  | @cons c d cs digits hc hrest ih =>
      cases hrest with
      | nil => rw [digits?, hc]; rfl
      | @cons c' d' cs digits hc' hrest =>
          have hother : c' ≠ '_' := (plain_of_digit? (digit?_of_digitIn? hc')).2.2.2
          rw [digits?, hc, ih (List.cons_ne_nil c' cs)]
          · rfl
          · exact List.cons_ne_nil c' cs
          · exact fun rest hrest => hother (List.cons.inj hrest).1

theorem digitIn?_digitChar {d : Nat} (hbase : base ≤ 16) (hd : d < base) :
    digitIn? base (Nat.digitChar d) = some d := by
  have hall : ∀ d < 16, digit? (Nat.digitChar d) = some d := by decide
  rw [digitIn?, hall d (Nat.lt_of_lt_of_le hd hbase), Option.filter_some]
  exact if_pos (decide_eq_true hd)

/-- **The digits that are written for a number** have its value. -/
theorem spells_toDigits (hbase : 1 < base) (hbase' : base ≤ 16) (n : Nat) :
    ∃ digits, Spells base (Nat.toDigits base n) digits ∧ ofDigits base digits = n := by
  induction n using Nat.strongRecOn with
  | ind n ih =>
      by_cases hlt : n < base
      · rw [Nat.toDigits_of_lt_base hlt]
        refine ⟨[n], .cons (digitIn?_digitChar hbase' hlt) .nil, ?_⟩
        simp [ofDigits]
      · have hsmaller : n / base < n := Nat.div_lt_self (by omega) hbase
        have hlast : n % base < base := Nat.mod_lt n (by omega)
        obtain ⟨digits, hspells, hvalue⟩ := ih (n / base) hsmaller
        rw [Nat.toDigits_of_base_le hbase (Nat.le_of_not_lt hlt)]
        refine ⟨digits ++ [n % base],
          List.rel_append hspells (.cons (digitIn?_digitChar hbase' hlast) .nil), ?_⟩
        calc ofDigits base (digits ++ [n % base])
            = ofDigits base digits * base + n % base := List.foldl_concat _ _ _ _
          _ = n / base * base + n % base := by rw [hvalue]
          _ = n := Nat.div_add_mod' n base

/-- No number but zero begins with a zero. -/
theorem head?_toDigits {n : Nat} (hbase : 1 < base) (hbase' : base ≤ 16) (hn : n ≠ 0) :
    (Nat.toDigits base n).head? ≠ some '0' := by
  induction n using Nat.strongRecOn with
  | ind n ih =>
      by_cases hlt : n < base
      · have hfirst : ∀ d < 16, d ≠ 0 → some (Nat.digitChar d) ≠ some '0' := by decide
        rw [Nat.toDigits_of_lt_base hlt]
        exact hfirst n (Nat.lt_of_lt_of_le hlt hbase') hn
      · have hle : base ≤ n := Nat.le_of_not_lt hlt
        have hsmaller : n / base < n := Nat.div_lt_self (by omega) hbase
        have hpositive : n / base ≠ 0 := Nat.ne_of_gt (Nat.div_pos hle (by omega))
        rw [Nat.toDigits_of_base_le hbase hle,
          List.head?_append_of_ne_nil _ (Nat.toDigits_ne_nil)]
        exact ih (n / base) hsmaller hpositive

/-- Zeros in front do not matter. -/
theorem ofDigits_replicate_zero (k : Nat) :
    ofDigits base (List.replicate k 0 ++ digits) = ofDigits base digits := by
  induction k with
  | zero => rfl
  | succ k ih =>
      have hzero : 0 * base + 0 = 0 := by omega
      rw [List.replicate_succ, List.cons_append, ofDigits, List.foldl_cons, hzero]
      exact ih

theorem spells_zeros (hbase : 0 < base) (hbase' : base ≤ 16) (k : Nat) :
    Spells base (List.replicate k '0') (List.replicate k 0) := by
  induction k with
  | zero => exact .nil
  | succ k ih => exact .cons (digitIn?_digitChar hbase' hbase) ih

end Digits

/-! ## Decimals -/

theorem natural?_toDigits (n : Nat) : natural? 10 (Nat.toDigits 10 n) = some n := by
  obtain ⟨digits, hspells, hvalue⟩ := spells_toDigits (show 1 < 10 by decide) (by decide) n
  rw [natural?, digits?_of_spells hspells Nat.toDigits_ne_nil, Option.map_some, hvalue]

/-- What begins with no zero names no base. -/
theorem marked?_of_head? {cs : List Char} (h : cs.head? ≠ some '0') :
    marked? cs = natural? 10 cs := by
  unfold marked?
  split <;> first | rfl | exact absurd rfl h

theorem marked?_decimal (n : Nat) : marked? (Nat.toDigits 10 n) = some n := by
  by_cases hn : n = 0
  · subst hn
    rfl
  · rw [marked?_of_head? (head?_toDigits (by decide) (show 10 ≤ 16 by decide) hn),
      natural?_toDigits]

/-! ## Hexadecimal numerals -/

/-- A hexadecimal numeral is read back, with zeros in front and in either case. -/
theorem marked?_hex {cs : List Char} {k n : Nat}
    (h : cs.map Char.toLower = List.replicate k '0' ++ Nat.toDigits 16 n) :
    (∀ c ∈ cs, Plain c) ∧ marked? ('0' :: 'x' :: cs) = some n := by
  obtain ⟨digits, hspells, hvalue⟩ := spells_toDigits (show 1 < 16 by decide) (by decide) n
  have hlower : Spells 16 (cs.map Char.toLower) (List.replicate k 0 ++ digits) := by
    rw [h]
    exact List.rel_append (spells_zeros (by decide) (by decide) k) hspells
  have hall : Spells 16 cs (List.replicate k 0 ++ digits) := by
    rw [Spells, List.forall₂_map_left_iff] at hlower
    exact hlower.imp fun c d hc => (congrArg (Option.filter _) (digit?_toLower c)).symm.trans hc
  have hne : cs ≠ [] := by
    rintro rfl
    exact Nat.toDigits_ne_nil (List.append_eq_nil_iff.1 h.symm).2
  have hread : natural? 16 cs = some n := by
    rw [natural?, digits?_of_spells hall hne, Option.map_some, ofDigits_replicate_zero, hvalue]
  refine ⟨fun c hc => (hall.plain c hc).1, ?_⟩
  rw [marked?, afterMark?]
  · exact hread
  · rintro rest rfl
    exact (hall.plain '_' List.mem_cons_self).2.2.2 rfl

/-! ## Integers -/

/-- The sign in front of an integer. -/
def signOf (i : Int) : List Char := if i < 0 then ['-'] else []

/-- A text that begins with the sign of an integer is read as that integer if what stands behind the
sign gives its magnitude. -/
theorem literal?_signOf {i : Int} {cs : List Char} (hplain : ∀ c ∈ cs, Plain c)
    (hminus : cs.head? ≠ some '-') (hplus : cs.head? ≠ some '+')
    (hread : marked? cs = some i.natAbs) :
    literal? (String.ofList (signOf i ++ cs)) = some i := by
  by_cases hi : i < 0
  · have hchars : ∀ c ∈ '-' :: cs, Plain c := by
      rintro c (_ | ⟨_, hc⟩)
      · exact (by decide : isBlank '-' = false ∧ plainDigit '-' = '-')
      · exact hplain c hc
    have habs : -(i.natAbs : Int) = i := by omega
    rw [signOf, if_pos hi, literal?, List.singleton_append, numeral_of_plain hchars, signed?, hread]
    exact congrArg some habs
  · have hunsigned : signed? marked? cs = (marked? cs).map fun n => (n : Int) := by
      unfold signed?
      split
      · exact absurd rfl hminus
      · exact absurd rfl hplus
      · rfl
    have habs : (i.natAbs : Int) = i := by omega
    rw [signOf, if_neg hi, literal?, List.nil_append, numeral_of_plain hplain, hunsigned, hread]
    exact congrArg some habs

theorem toList_toString (i : Int) :
    (toString i).toList = signOf i ++ Nat.toDigits 10 i.natAbs := by
  rw [Int.toString_eq_repr, Int.repr_eq_if, signOf]
  by_cases hi : 0 ≤ i
  · have habs : i.toNat = i.natAbs := by omega
    rw [if_pos hi, if_neg (by omega), Nat.toList_repr, habs, List.nil_append]
  · have habs : (-i).toNat = i.natAbs := by omega
    rw [if_neg hi, if_pos (by omega), String.toList_append, Nat.toList_repr, habs]
    rfl

/-- **Decimals are read back.** -/
theorem literal?_toString (i : Int) : literal? (toString i) = some i := by
  obtain ⟨digits, hspells, -⟩ := spells_toDigits (show 1 < 10 by decide) (by decide) i.natAbs
  obtain ⟨hminus, hplus⟩ := hspells.head?
  rw [← String.ofList_toList (s := toString i), toList_toString]
  exact literal?_signOf (fun c hc => (hspells.plain c hc).1) hminus hplus (marked?_decimal _)

/-- **Hexadecimals are read back.** -/
theorem literal?_hex {i : Int} {cs : List Char} {k : Nat}
    (h : cs.map Char.toLower = List.replicate k '0' ++ Nat.toDigits 16 i.natAbs) :
    literal? (String.ofList (signOf i ++ '0' :: 'x' :: cs)) = some i := by
  obtain ⟨hplain, hread⟩ := marked?_hex h
  have hchars : ∀ c ∈ '0' :: 'x' :: cs, Plain c := by
    rintro c (_ | ⟨_, _ | ⟨_, hc⟩⟩)
    · exact (by decide : isBlank '0' = false ∧ plainDigit '0' = '0')
    · exact (by decide : isBlank 'x' = false ∧ plainDigit 'x' = 'x')
    · exact hplain c hc
  have hhead : ∀ sign : Char, '0' ≠ sign → ('0' :: 'x' :: cs).head? ≠ some sign :=
    fun sign hsign hhead => hsign (Option.some.inj hhead)
  exact literal?_signOf hchars (hhead '-' (by decide)) (hhead '+' (by decide)) hread

/-- The ways to write an integer: as a decimal, and in hexadecimal, with zeros in front and in
either case. -/
inductive Writes (i : Int) : String → Prop where
  /-- As a decimal. -/
  | decimal : Writes i (toString i)
  /-- In hexadecimal. -/
  | hex {cs : List Char} {k : Nat}
    (h : cs.map Char.toLower = List.replicate k '0' ++ Nat.toDigits 16 i.natAbs) :
    Writes i (String.ofList (signOf i ++ '0' :: 'x' :: cs))

/-- **What is written is read back.** -/
theorem literal?_of_writes {i : Int} {s : String} (h : Writes i s) : literal? s = some i := by
  cases h with
  | decimal => exact literal?_toString i
  | hex h => exact literal?_hex h

end LittleComputer.Text
