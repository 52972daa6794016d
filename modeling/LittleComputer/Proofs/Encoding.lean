import LittleComputer.Base64

/-!
# Base 64 there and back

Writing and reading go by groups of three bytes and four sextets.  Both work through the text once,
with what is done so far in reverse.

* `Base64.groupBytes_groupSextets` — a group is read as it was written.
* `Base64.sextetsOf`, `Base64.marksOf`, `Base64.toList_encode` — what is written: sextets and marks.
* `Base64.decode_written` — how a text of sextets and marks is read.
* `Base64.decode_encode` — **whatever is written is read back**.
* `Base64.WellFormed`, `Base64.isSome_decode_iff` — **the texts that can be read**.
-/

namespace LittleComputer.Base64

/-! ## Groups -/

/-- The four sextets of three bytes make up all their bits. -/
theorem append_sextets (x : BitVec 24) :
    x.extractLsb' 18 6 ++ x.extractLsb' 12 6 ++ x.extractLsb' 6 6 ++ x.extractLsb' 0 6 = x := by
  rw [BitVec.extractLsb'_append_extractLsb'_eq_extractLsb' (show 18 = 12 + 6 from rfl),
    BitVec.extractLsb'_append_extractLsb'_eq_extractLsb' (show 12 = 6 + 6 from rfl),
    BitVec.extractLsb'_append_extractLsb'_eq_extractLsb' (show 6 = 0 + 6 from rfl)]
  exact BitVec.extractLsb'_eq_self

/-- **A group is read as it was written.** -/
theorem groupBytes_groupSextets (a b c : Byte) :
    ∃ s t u v, groupSextets a b c = [s, t, u, v] ∧ groupBytes s t u v = [a, b, c] := by
  refine ⟨_, _, _, _, rfl, ?_⟩
  have hfirst : (a ++ b ++ c).extractLsb' 16 8 = a := by
    rw [BitVec.extractLsb'_append_eq_of_le (by decide)]
    exact BitVec.extractLsb'_append_eq_left
  have hsecond : (a ++ b ++ c).extractLsb' 8 8 = b := by
    rw [BitVec.extractLsb'_append_eq_of_le (by decide)]
    exact BitVec.extractLsb'_append_eq_right
  have hthird : (a ++ b ++ c).extractLsb' 0 8 = c := BitVec.extractLsb'_append_eq_right
  rw [groupBytes, append_sextets]
  rw [hfirst, hsecond, hthird]

/-- Two bytes need three sextets. -/
theorem groupSextets_two (a b : Byte) :
    ∃ s t u, groupSextets a b 0 = [s, t, u, 0] ∧ groupBytes s t u 0 = [a, b, 0] := by
  obtain ⟨s, t, u, v, hgroup, hbytes⟩ := groupBytes_groupSextets a b 0
  have hlast : (a ++ b ++ (0 : Byte)).extractLsb' 0 6 = 0 := by
    rw [BitVec.extractLsb'_append_eq_of_add_le (by decide)]
    rfl
  have hv : v = 0 := by
    simp only [groupSextets, List.cons.injEq] at hgroup
    exact hgroup.2.2.2.1.symm.trans hlast
  subst hv
  exact ⟨s, t, u, hgroup, hbytes⟩

/-- One byte needs two. -/
theorem groupSextets_one (a : Byte) :
    ∃ s t, groupSextets a 0 0 = [s, t, 0, 0] ∧ groupBytes s t 0 0 = [a, 0, 0] := by
  obtain ⟨s, t, u, hgroup, hbytes⟩ := groupSextets_two a 0
  have hthird : (a ++ (0 : Byte) ++ (0 : Byte)).extractLsb' 6 6 = 0 := by
    apply BitVec.eq_of_getLsbD_eq
    intro i hi
    have hlow : ¬ 16 ≤ 6 + i := by omega
    simp only [BitVec.getLsbD_extractLsb', BitVec.getLsbD_append]
    split
    · simp
    · rw [if_pos (by omega)]
      simp
  have hu : u = 0 := by
    simp only [groupSextets, List.cons.injEq] at hgroup
    exact hgroup.2.2.1.symm.trans hthird
  subst hu
  exact ⟨s, t, hgroup, hbytes⟩

/-! ## Writing -/

/-- The sextets that are written for some bytes. -/
def sextetsOf : List Byte → List Sextet
  | a :: b :: c :: rest => groupSextets a b c ++ sextetsOf rest
  | [a, b] => (groupSextets a b 0).take 3
  | [a] => (groupSextets a 0 0).take 2
  | [] => []

/-- The number of marks that are written behind them. -/
def marksOf : List Byte → Nat
  | _ :: _ :: _ :: rest => marksOf rest
  | [_, _] => 1
  | [_] => 2
  | [] => 0

theorem encodeAfter_eq (bytes : List Byte) (written : List Char) :
    encodeAfter bytes written =
      written.reverse ++ (sextetsOf bytes).map symbol ++ List.replicate (marksOf bytes) '=' := by
  fun_induction encodeAfter bytes written with
  | case1 a b c rest written ih =>
      rw [ih]
      simp [sextetsOf, marksOf, List.reverseAux_eq]
  | case2 a b written => simp [sextetsOf, marksOf, List.reverseAux_eq, List.map_take]
  | case3 a written => simp [sextetsOf, marksOf, List.reverseAux_eq, List.map_take]
  | case4 written => simp [sextetsOf, marksOf]

/-- What is written: the symbols of the sextets, and the marks. -/
theorem toList_encode (bytes : List Byte) :
    (encode bytes).toList =
      (sextetsOf bytes).map symbol ++ List.replicate (marksOf bytes) '=' := by
  rw [encode, String.toList_ofList, encodeAfter_eq]
  rfl

/-! ## Reading -/

theorem symbol_ne_mark : ∀ s : Sextet, symbol s ≠ '=' := by decide

/-- Only the symbols of sextets stand for any. -/
theorem symbol_of_sextet? {c : Char} {s : Sextet} (h : sextet? c = some s) : symbol s = c := by
  have hascii : ∀ n < 128, ∀ s ∈ sextet? (Char.ofNat n), symbol s = Char.ofNat n := by
    decide +kernel
  have hc : c.toNat < 128 := by
    refine Nat.lt_of_not_le fun hlarge => ?_
    have hbeyond : ∀ high : Char, high.toNat < 128 → ¬ c ≤ high := fun high hhigh hle =>
      Nat.not_lt_of_le hlarge (Nat.lt_of_le_of_lt hle hhigh)
    rw [sextet?, if_neg fun hupper => hbeyond 'Z' (by decide) hupper.2,
      if_neg fun hlower => hbeyond 'z' (by decide) hlower.2,
      if_neg fun hdigit => hbeyond '9' (by decide) hdigit.2,
      if_neg fun hplus : c = '+' => hbeyond '+' (by decide) (hplus ▸ Char.le_refl c),
      if_neg fun hslash : c = '/' => hbeyond '/' (by decide) (hslash ▸ Char.le_refl c)] at h
    cases h
  have hsame := hascii c.toNat hc s
  rw [Char.ofNat_toNat] at hsame
  exact hsame h

/-- Symbols are read as the sextets that they stand for, -/
theorem sextetsAfter?_symbols (sextets read : List Sextet) :
    sextetsAfter? (sextets.map symbol) read = some (read.reverse ++ sextets) := by
  induction sextets generalizing read with
  | nil => simp [sextetsAfter?]
  | cons s rest ih => simp [sextetsAfter?, sextet?_symbol, ih]

/-- and nothing else is read. -/
theorem symbols_of_sextetsAfter? {cs : List Char} {read sextets : List Sextet}
    (h : sextetsAfter? cs read = some sextets) :
    ∃ more : List Sextet, cs = more.map symbol := by
  induction cs generalizing read with
  | nil => exact ⟨[], rfl⟩
  | cons c rest ih =>
      rw [sextetsAfter?] at h
      cases hc : sextet? c with
      | none =>
          rw [hc] at h
          cases h
      | some s =>
          rw [hc] at h
          obtain ⟨more, rfl⟩ := ih h
          exact ⟨s :: more, by rw [List.map_cons, symbol_of_sextet? hc]⟩

/-- The text of sextets and marks falls apart where the marks begin. -/
theorem decode_written (sextets : List Sextet) (marks : Nat) :
    decode (String.ofList (sextets.map symbol ++ List.replicate marks '=')) =
      bytesAfter? marks sextets [] := by
  have hsymbols : ∀ c ∈ sextets.map symbol, decide (c ≠ '=') = true := by
    intro c hc
    obtain ⟨s, -, rfl⟩ := List.mem_map.1 hc
    exact decide_eq_true (symbol_ne_mark s)
  have hmarks : (List.replicate marks '=').takeWhile (· ≠ '=') = [] := by
    cases marks <;> rfl
  have hmarks' : (List.replicate marks '=').dropWhile (· ≠ '=') = List.replicate marks '=' := by
    cases marks <;> rfl
  simp only [decode, String.toList_ofList]
  rw [List.takeWhile_append_of_pos hsymbols, List.dropWhile_append_of_pos hsymbols, hmarks, hmarks',
    List.append_nil, sextetsAfter?_symbols]
  simp

/-- Sextets are read as the bytes for which they were written. -/
theorem bytesAfter?_sextetsOf (bytes read : List Byte) :
    bytesAfter? (marksOf bytes) (sextetsOf bytes) read = some (read.reverse ++ bytes) := by
  fun_induction sextetsOf bytes generalizing read with
  | case1 a b c rest ih =>
      obtain ⟨s, t, u, v, hgroup, hbytes⟩ := groupBytes_groupSextets a b c
      rw [hgroup]
      show bytesAfter? (marksOf rest) (s :: t :: u :: v :: sextetsOf rest) read = _
      rw [bytesAfter?, hbytes, ih]
      simp
  | case2 a b =>
      obtain ⟨s, t, u, hgroup, hbytes⟩ := groupSextets_two a b
      rw [hgroup]
      show bytesAfter? 1 [s, t, u] read = _
      rw [bytesAfter?, if_pos rfl, hbytes]
      simp
  | case3 a =>
      obtain ⟨s, t, hgroup, hbytes⟩ := groupSextets_one a
      rw [hgroup]
      show bytesAfter? 2 [s, t] read = _
      rw [bytesAfter?, if_pos rfl, hbytes]
      simp
  | case4 => simp [bytesAfter?, marksOf]

/-- **Whatever is written is read back.** -/
theorem decode_encode (bytes : List Byte) : decode (encode bytes) = some bytes := by
  have htext : encode bytes =
      String.ofList ((sextetsOf bytes).map symbol ++ List.replicate (marksOf bytes) '=') := by
    rw [← toList_encode, String.ofList_toList]
  rw [htext, decode_written, bytesAfter?_sextetsOf]
  rfl

/-! ## Texts that can be read -/

/-- So many marks may stand behind so many sextets. -/
def Fits (sextets marks : Nat) : Prop :=
  (sextets % 4 = 0 ∧ marks = 0) ∨ (sextets % 4 = 2 ∧ marks = 2) ∨ (sextets % 4 = 3 ∧ marks = 1)

/-- The text consists of symbols and then of marks that fit. -/
def WellFormed (s : String) : Prop :=
  ∃ (sextets : List Sextet) (marks : Nat),
    s.toList = sextets.map symbol ++ List.replicate marks '=' ∧ Fits sextets.length marks

theorem isSome_bytesAfter?_iff (marks : Nat) (sextets : List Sextet) (read : List Byte) :
    (bytesAfter? marks sextets read).isSome = true ↔ Fits sextets.length marks := by
  fun_induction bytesAfter? marks sextets read with
  | case1 s t u v rest read ih =>
      have hlength : (s :: t :: u :: v :: rest).length % 4 = rest.length % 4 :=
        Nat.add_mod_right rest.length 4
      rw [Fits, hlength]
      exact ih
  | _ => simp_all [Fits]

/-- The text of sextets and marks can be read exactly if the marks fit. -/
theorem isSome_decode_written (sextets : List Sextet) (marks : Nat) :
    (decode (String.ofList (sextets.map symbol ++ List.replicate marks '='))).isSome = true ↔
      Fits sextets.length marks := by
  rw [decode_written, isSome_bytesAfter?_iff]

/-- Whatever can be read consists of symbols and marks. -/
theorem written_of_decode {s : String} {bytes : List Byte} (h : decode s = some bytes) :
    ∃ (sextets : List Sextet) (marks : Nat),
      s.toList = sextets.map symbol ++ List.replicate marks '=' := by
  unfold decode at h
  dsimp only at h
  split at h
  · rename_i hmarks
    rw [List.all_eq_true] at hmarks
    cases hread : sextetsAfter? (s.toList.takeWhile (· ≠ '=')) [] with
    | none =>
        rw [hread] at h
        cases h
    | some sextets =>
        obtain ⟨more, hsymbols⟩ := symbols_of_sextetsAfter? hread
        have hrest := List.eq_replicate_of_mem fun c hc => of_decide_eq_true (hmarks c hc)
        refine ⟨more, (s.toList.dropWhile (· ≠ '=')).length, ?_⟩
        rw [← hsymbols, ← hrest, List.takeWhile_append_dropWhile]
  · cases h

/-- **The texts that can be read** are the well-formed ones. -/
theorem isSome_decode_iff (s : String) : (decode s).isSome = true ↔ WellFormed s := by
  have htext : ∀ cs : List Char, s.toList = cs → s = String.ofList cs := by
    intro cs hcs
    rw [← hcs, String.ofList_toList]
  constructor
  · intro h
    obtain ⟨bytes, hbytes⟩ := Option.isSome_iff_exists.1 h
    obtain ⟨sextets, marks, hwritten⟩ := written_of_decode hbytes
    rw [htext _ hwritten, isSome_decode_written] at h
    exact ⟨sextets, marks, hwritten, h⟩
  · rintro ⟨sextets, marks, hwritten, hfits⟩
    rw [htext _ hwritten, isSome_decode_written]
    exact hfits

end LittleComputer.Base64
