import RobotMotion.Proofs.Decimal.Whole
import RobotMotion.Proofs.Wire.Reading
import Mathlib.Data.List.Forall2

/-!
# Scaled values in words

A value is scaled by a factor, rounded to a whole double, compared with the ends of the 32-bit
integers, and cut to one of them. From the product on all of this is exact. So a value is sent
as the whole number nearest to its product, if that is a 32-bit integer (`SentAs`), and else it
is not sent: nothing is clamped or wraps around (`fixedPoint_eq_some_iff`,
`fixedPoint_eq_none_iff`). A frame is sent if all its values are (`Ur.words?_eq_none_iff`).
-/

namespace RobotMotion.Wire

open Decimal (rational? roundAway roundWhole signed)

variable {value factor : Float} {x : ℚ}

/-! ### One value -/

/-- A scaled value is sent as the whole number nearest to it, which is a 32-bit integer. -/
def SentAs (scaled : Float) (n : ℤ) : Prop :=
  ∃ x, rational? scaled = some x ∧ roundAway x = n ∧ -2 ^ 31 ≤ n ∧ n ≤ 2 ^ 31 - 1

theorem fitsWord_iff_between {n : ℤ} : fitsWord n = true ↔ -2 ^ 31 ≤ n ∧ n ≤ 2 ^ 31 - 1 := by
  rw [fitsWord_iff, wordLimit]
  omega

/-- The lower end is a double. -/
theorem rational?_leastWord : rational? leastWord = some (-2 ^ 31) := by
  have hvalue : Decimal.Binary64.ofFloat leastWord = .finite true (2 ^ 52) (-21) := by
    decide +kernel
  rw [Decimal.rational?_of_ofFloat hvalue]
  norm_num [signed]

/-- So is the upper end: a double has more digits than a word. -/
theorem rational?_greatestWord : rational? greatestWord = some (2 ^ 31 - 1) := by
  have hvalue : Decimal.Binary64.ofFloat greatestWord =
      .finite false ((2 ^ 31 - 1) * 2 ^ 22) (-22) := by decide +kernel
  rw [Decimal.rational?_of_ofFloat hvalue]
  norm_num [signed]

/-- Nothing is cut off a whole double. -/
theorem truncatedWord_of_rational? {scaled : Float} {n : ℤ} (h : rational? scaled = some (n : ℚ)) :
    truncatedWord scaled = clampedWord n := by
  obtain ⟨negative, m, e, hvalue, hn⟩ := Decimal.exists_ofFloat h
  have hsize : (m : ℚ) * 2 ^ e = n.natAbs := by
    have habs := Decimal.abs_signed (show (0 : ℚ) ≤ m * 2 ^ e by positivity) negative
    rw [← habs, ← hn, Nat.cast_natAbs, Int.cast_abs]
  have hexact : Decimal.binaryNumerator m e = n.natAbs * Decimal.binaryDenominator e := by
    have hden := Decimal.binaryDenominator_pos e
    rw [← Decimal.binaryNumerator_div, div_eq_iff (by positivity)] at hsize
    exact_mod_cast hsize
  have hsigned : (if negative then -(n.natAbs : ℤ) else n.natAbs) = n := by
    rw [hsize, Decimal.signed_natCast] at hn
    exact Int.cast_injective hn.symm
  rw [truncatedWord, hvalue]
  dsimp only
  rw [hexact, Nat.mul_div_cancel _ (Decimal.binaryDenominator_pos e), hsigned]

/-- **A product goes to the whole number nearest to its exact value**, if that is a word. -/
theorem fixedPoint_of_rational? (h : rational? (value * factor) = some x) :
    fixedPoint value factor = if fitsWord (roundAway x) then some (roundAway x) else none := by
  obtain ⟨scaled, hscaled⟩ : ∃ scaled, scaled = roundWhole (value * factor) := ⟨_, rfl⟩
  have hwhole : rational? scaled = some (roundAway x : ℚ) := by
    rw [hscaled]
    exact Decimal.rational?_roundWhole h
  have hfinite : scaled.isFinite = true :=
    Decimal.isSome_rational?_iff.mp (Option.isSome_iff_exists.mpr ⟨_, hwhole⟩)
  -- both ends have exact values, so comparing doubles is comparing whole numbers
  have hlow : leastWord ≤ scaled ↔ -2 ^ 31 ≤ roundAway x := by
    rw [Decimal.le_iff_rational rational?_leastWord hwhole]
    norm_cast
  have hhigh : scaled ≤ greatestWord ↔ roundAway x ≤ 2 ^ 31 - 1 := by
    rw [Decimal.le_iff_rational hwhole rational?_greatestWord]
    norm_cast
  rw [fixedPoint, ← hscaled, hfinite, Bool.true_and]
  simp only [Bool.and_eq_true, decide_eq_true_eq, hlow, hhigh, fitsWord_iff_between]
  by_cases hfits : -2 ^ 31 ≤ roundAway x ∧ roundAway x ≤ 2 ^ 31 - 1
  · have hclamped : clampedWord (roundAway x) = roundAway x := by
      rw [clampedWord, wordLimit]
      omega
    rw [if_pos hfits, if_pos hfits, truncatedWord_of_rational? hwhole, hclamped]
  · rw [if_neg hfits, if_neg hfits]

/-- What has no exact value is not sent. -/
theorem fixedPoint_of_none (h : rational? (value * factor) = none) :
    fixedPoint value factor = none := by
  have hkept : (roundWhole (value * factor)).isFinite = false := by
    rw [Decimal.roundWhole_of_none h, ← Bool.not_eq_true, ← Decimal.isSome_rational?_iff, h]
    exact Bool.false_ne_true
  rw [fixedPoint, hkept]
  rfl

/-- **What is sent is the whole number nearest to the product.** -/
theorem fixedPoint_eq_some_iff {n : ℤ} :
    fixedPoint value factor = some n ↔ SentAs (value * factor) n := by
  cases h : rational? (value * factor) with
  | none =>
    rw [fixedPoint_of_none h]
    simp [SentAs, h]
  | some x =>
    rw [fixedPoint_of_rational? h, Option.ite_none_right_eq_some, fitsWord_iff_between, SentAs, h]
    constructor
    · rintro ⟨hfits, hn⟩
      obtain rfl := Option.some.inj hn
      exact ⟨x, rfl, rfl, hfits⟩
    · rintro ⟨y, hy, rfl, hfits⟩
      obtain rfl := Option.some.inj hy
      exact ⟨hfits, rfl⟩

/-- **Nothing is sent** for a product that is not finite or is rounded to no word. -/
theorem fixedPoint_eq_none_iff : fixedPoint value factor = none ↔
    (value * factor).isNaN = true ∨ (value * factor).isInf = true ∨
      ∃ x, rational? (value * factor) = some x ∧
        (roundAway x < -2 ^ 31 ∨ 2 ^ 31 - 1 < roundAway x) := by
  cases h : rational? (value * factor) with
  | none =>
    refine iff_of_true (fixedPoint_of_none h) ?_
    rcases Decimal.rational?_eq_none_iff.mp h with hnan | hinf
    · exact .inl hnan
    · exact .inr (.inl hinf)
  | some x =>
    have hfinite : ¬ ((value * factor).isNaN = true ∨ (value * factor).isInf = true) := by
      rw [← Decimal.rational?_eq_none_iff, h]
      nofun
    rw [fixedPoint_of_rational? h, ← or_assoc, or_iff_right hfinite]
    constructor
    · intro hnone
      have hnot : ¬ fitsWord (roundAway x) = true := by
        intro hfits
        rw [if_pos hfits] at hnone
        cases hnone
      rw [fitsWord_iff_between] at hnot
      exact ⟨x, rfl, by omega⟩
    · rintro ⟨y, hy, hbeyond⟩
      obtain rfl := Option.some.inj hy
      refine if_neg ?_
      rw [fitsWord_iff_between]
      omega

/-- A whole number that is a word is sent as it stands. -/
theorem fixedPoint_ofInt {n : ℤ} (h : fitsWord n = true) :
    fixedPoint (Float.ofInt n) 1.0 = some n := by
  have hone : rational? 1.0 = some 1 := by
    have hvalue : Decimal.Binary64.ofFloat 1.0 = .finite false (2 ^ 52) (-52) := by decide +kernel
    rw [Decimal.rational?_of_ofFloat hvalue]
    norm_num [signed]
  have hsmall : n.natAbs < 2 ^ 53 := by
    rw [fitsWord_iff_between] at h
    omega
  have hproduct : rational? (Float.ofInt n * 1.0) = some (n : ℚ) :=
    Decimal.rational?_mul_of_lt (Decimal.rational?_ofInt hsmall) hone (mul_one _) hsmall
  rw [fixedPoint_of_rational? hproduct, Decimal.roundAway_intCast, if_pos h]

/-- What is sent is at most half a unit off, and that only away from zero. -/
theorem SentAs.near {scaled : Float} {n : ℤ} (h : SentAs scaled n)
    (hx : rational? scaled = some x) :
    |n - x| ≤ 1 / 2 ∧ (|n - x| = 1 / 2 → |x| < |(n : ℚ)|) := by
  obtain ⟨y, hy, rfl, -, -⟩ := h
  obtain rfl := Option.some.inj (hx.symm.trans hy)
  exact ⟨Decimal.abs_roundAway_sub_le x, Decimal.abs_lt_abs_roundAway⟩

/-- **A larger value is not sent as a smaller word**, and what stands between values that are
sent is sent, too. -/
theorem exists_fixedPoint_of_between {u v w : Float} {m n : ℤ} (hfactor : 0.0 < factor)
    (hm : fixedPoint v factor = some m) (hn : fixedPoint w factor = some n) (hlow : v ≤ u)
    (hhigh : u ≤ w) : ∃ k, fixedPoint u factor = some k ∧ m ≤ k ∧ k ≤ n := by
  simp only [fixedPoint_eq_some_iff] at hm hn ⊢
  obtain ⟨p, hp, rfl, hleast, -⟩ := hm
  obtain ⟨q, hq, rfl, -, hgreatest⟩ := hn
  -- products of doubles keep the order, and rounding them does
  obtain ⟨r, hr, hpr, hrq⟩ := Decimal.exists_mul_of_between hlow hhigh hfactor hp hq
  have hbelow := Decimal.roundAway_mono hpr
  have habove := Decimal.roundAway_mono hrq
  exact ⟨_, ⟨r, hr, rfl, hleast.trans hbelow, habove.trans hgreatest⟩, hbelow, habove⟩

/-- **A larger value is not sent as a smaller word.** -/
theorem fixedPoint_mono {v w : Float} {m n : ℤ} (hfactor : 0.0 < factor) (h : v ≤ w)
    (hm : fixedPoint v factor = some m) (hn : fixedPoint w factor = some n) : m ≤ n := by
  obtain ⟨p, hp, -⟩ := fixedPoint_eq_some_iff.mp hm
  obtain ⟨y, -, hy, -⟩ := Decimal.exists_rational?_of_mul hp
  have hself : v ≤ v := (Decimal.le_iff_rational hy hy).mpr le_rfl
  obtain ⟨k, hk, -, hle⟩ := exists_fixedPoint_of_between hfactor hm hn hself h
  obtain rfl := Option.some.inj (hm.symm.trans hk)
  exact hle

/-! ### Frames -/

namespace Ur

/-- The values of a frame are sent one by one. -/
theorem values_eq_some_iff {parameters : List Parameter} {values : List ℤ} :
    parameters.mapM (fun p => fixedPoint p.value p.factor) = some values ↔
      List.Forall₂ (fun p n => SentAs (p.value * p.factor) n) parameters values := by
  induction parameters generalizing values with
  | nil =>
    rw [List.forall₂_nil_left_iff, List.mapM_nil]
    exact Option.some_inj.trans eq_comm
  | cons p rest ih =>
    simp only [List.mapM_cons, Option.bind_eq_bind, Option.bind_eq_some_iff, Option.pure_def,
      Option.some.injEq, List.forall₂_cons_left_iff, fixedPoint_eq_some_iff, ih]
    constructor
    · rintro ⟨n, hn, more, hmore, rfl⟩
      exact ⟨n, more, hn, hmore, rfl⟩
    · rintro ⟨n, more, hn, hmore, rfl⟩
      exact ⟨n, hn, more, hmore, rfl⟩

/-- One value that does not fit is enough. -/
theorem values_eq_none_iff {parameters : List Parameter} :
    parameters.mapM (fun p => fixedPoint p.value p.factor) = none ↔
      ∃ p ∈ parameters, ∀ n, ¬ SentAs (p.value * p.factor) n := by
  induction parameters with
  | nil => exact iff_of_false nofun (by simp)
  | cons p rest ih =>
    simp only [← fixedPoint_eq_some_iff] at ih ⊢
    rw [List.exists_mem_cons_iff, ← ih, List.mapM_cons]
    cases fixedPoint p.value p.factor with
    | none => simp
    | some n =>
      cases rest.mapM fun p => fixedPoint p.value p.factor with
      | none => simp
      | some more => simp

/-- **A frame is dropped as a whole** if its identifier or one of its values does not fit. -/
theorem words?_eq_none_iff {id : ℕ} {opcode : Opcode} {parameters : List Parameter} :
    words? id opcode parameters = none ↔ 2 ^ 31 - 1 < (id : ℤ) ∨
      ∃ p ∈ parameters, ∀ n, ¬ SentAs (p.value * p.factor) n := by
  rw [← values_eq_none_iff, words?, wireId, wordLimit]
  by_cases hid : (id : ℤ) < 2147483648
  · rw [if_pos hid, or_iff_right (by omega)]
    cases parameters.mapM fun p => fixedPoint p.value p.factor with
    | none => exact iff_of_true rfl rfl
    | some values => exact iff_of_false (Option.some_ne_none _) (Option.some_ne_none _)
  · rw [if_neg hid]
    exact iff_of_true rfl (.inl (by omega))

/-- **A frame has the words that its values are sent as**, behind its identifier and opcode. -/
theorem words?_eq_some_iff_sentAs {id : ℕ} {opcode : Opcode} {parameters : List Parameter}
    {words : List ℤ} : words? id opcode parameters = some words ↔ (id : ℤ) ≤ 2 ^ 31 - 1 ∧
      ∃ values, words = (id : ℤ) :: opcode.code :: values ∧
        List.Forall₂ (fun p n => SentAs (p.value * p.factor) n) parameters values := by
  rw [words?_eq_some_iff, wordLimit, ← Int.le_sub_one_iff]
  simp only [values_eq_some_iff, and_comm]
  rfl

end Ur

/-! ### All together -/

/-- **Scaled values are packed without a wrap or a clamp.** A product of doubles is sent as
the whole number nearest to it, half way between two of them the one further from zero. It is
not sent just if it is not a number, infinite, or rounded to what is no 32-bit integer. For a
positive factor a larger value is not sent as a smaller word, and what stands between values
that are sent is sent. A frame is made up of its identifier, its opcode, and the words of its
parameters in their order, and there is none just if the identifier or a parameter does not
fit. -/
theorem packing_exact :
    (∀ value factor : Float,
      (∀ n, fixedPoint value factor = some n ↔ SentAs (value * factor) n) ∧
      (∀ n x, fixedPoint value factor = some n → rational? (value * factor) = some x →
        |n - x| ≤ 1 / 2 ∧ (|n - x| = 1 / 2 → |x| < |(n : ℚ)|)) ∧
      (fixedPoint value factor = none ↔
        (value * factor).isNaN = true ∨ (value * factor).isInf = true ∨
          ∃ x, rational? (value * factor) = some x ∧
            (roundAway x < -2 ^ 31 ∨ 2 ^ 31 - 1 < roundAway x))) ∧
    (∀ factor : Float, 0.0 < factor → ∀ v w m n, fixedPoint v factor = some m →
      fixedPoint w factor = some n → v ≤ w → m ≤ n ∧
        ∀ u, v ≤ u → u ≤ w → ∃ k, fixedPoint u factor = some k ∧ m ≤ k ∧ k ≤ n) ∧
    ∀ (id : ℕ) (opcode : Ur.Opcode) (parameters : List Ur.Parameter),
      (∀ words, Ur.words? id opcode parameters = some words ↔ (id : ℤ) ≤ 2 ^ 31 - 1 ∧
        ∃ values, words = (id : ℤ) :: opcode.code :: values ∧
          List.Forall₂ (fun p n => SentAs (p.value * p.factor) n) parameters values) ∧
      (Ur.words? id opcode parameters = none ↔ 2 ^ 31 - 1 < (id : ℤ) ∨
        ∃ p ∈ parameters, ∀ n, ¬ SentAs (p.value * p.factor) n) := by
  refine ⟨fun value factor => ⟨fun n => fixedPoint_eq_some_iff, ?_, fixedPoint_eq_none_iff⟩,
    ?_, fun id opcode parameters =>
      ⟨fun words => Ur.words?_eq_some_iff_sentAs, Ur.words?_eq_none_iff⟩⟩
  · intro n x hn hx
    exact (fixedPoint_eq_some_iff.mp hn).near hx
  · intro factor hfactor v w m n hm hn h
    exact ⟨fixedPoint_mono hfactor h hm hn,
      fun u => exists_fixedPoint_of_between hfactor hm hn⟩

/-- At the ends of the 32-bit integers a fraction decides, and a frame is dropped for one value
that does not fit. -/
theorem packing_exact_atTheEnds :
    fixedPoint 2147483647.25 1.0 = some 2147483647 ∧ fixedPoint 2147483647.5 1.0 = none ∧
      fixedPoint (-2147483648.25) 1.0 = some (-2147483648) ∧
      fixedPoint (-2147483648.5) 1.0 = none ∧
      SentAs (2147483647.25 * 1.0) 2147483647 ∧
      (∃ k, fixedPoint 0.001 1000.0 = some k ∧ -3 ≤ k ∧ k ≤ 3) ∧
      Ur.words? 7 .setDigital [⟨2.5, 1.0⟩, ⟨-2.5, 1.0⟩] = some [7, 10, 3, -3] ∧
      ∃ p ∈ [Ur.Parameter.mk 2.5 1.0, ⟨2147483647.5, 1.0⟩],
        ∀ n, ¬ SentAs (p.value * p.factor) n := by
  obtain ⟨hvalue, hmono, hframe⟩ := packing_exact
  refine ⟨by decide +kernel, by decide +kernel, by decide +kernel, by decide +kernel, ?_, ?_,
    by decide +kernel, ?_⟩
  · exact ((hvalue 2147483647.25 1.0).1 2147483647).mp (by decide +kernel)
  · obtain ⟨-, hbetween⟩ := hmono 1000.0 (by decide +kernel) (-0.0025) 0.0025 (-3) 3
      (by decide +kernel) (by decide +kernel) (by decide +kernel)
    exact hbetween 0.001 (by decide +kernel) (by decide +kernel)
  · have hdropped : Ur.words? 7 .setDigital [⟨2.5, 1.0⟩, ⟨2147483647.5, 1.0⟩] = none := by
      decide +kernel
    exact ((hframe 7 .setDigital _).2.mp hdropped).resolve_left (by decide)

end RobotMotion.Wire
