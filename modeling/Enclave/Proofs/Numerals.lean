import Enclave.Json.Token
import Mathlib.Data.List.Induction
import Mathlib.Tactic.IntervalCases

namespace Enclave.Json

def IsDigits (cs : List Char) : Prop :=
  cs ≠ [] ∧ ∀ c ∈ cs, c.isDigit

inductive IsFraction : List Char → Prop
  | absent : IsFraction []
  | present {digits : List Char} (h : IsDigits digits) : IsFraction ('.' :: digits)

inductive IsExponent : List Char → Prop
  | absent : IsExponent []
  | present {letter : Char} {sign digits : List Char} (hletter : letter = 'e' ∨ letter = 'E')
    (hsign : sign = [] ∨ sign = ['+'] ∨ sign = ['-']) (h : IsDigits digits) :
    IsExponent (letter :: (sign ++ digits))

/-- How a number is spelled. Only those without a fraction and an exponent are integers, and of them
all but a zero with a sign. -/
inductive SpellsNumber : Option Int → List Char → Prop
  | natural (n : Nat) : SpellsNumber (some n) (Nat.toDigits 10 n)
  | negative {n : Nat} (h : 0 < n) : SpellsNumber (some (-n)) ('-' :: Nat.toDigits 10 n)
  | other {sign fraction exponent : List Char} {n : Nat} (hsign : sign = [] ∨ sign = ['-'])
    (hfraction : IsFraction fraction) (hexponent : IsExponent exponent)
    (h : fraction ≠ [] ∨ exponent ≠ [] ∨ sign = ['-'] ∧ n = 0) :
    SpellsNumber none (sign ++ (Nat.toDigits 10 n ++ (fraction ++ exponent)))

def NoDigit (rest : List Char) : Prop :=
  ∀ c ∈ rest.head?, c.isDigit = false

def EndsNumber (rest : List Char) : Prop :=
  ∀ c ∈ rest.head?, c.isDigit = false ∧ c ≠ '.' ∧ c ≠ 'e' ∧ c ≠ 'E'

theorem EndsNumber.noDigit {rest : List Char} (h : EndsNumber rest) : NoDigit rest :=
  fun c hc => (h c hc).1

theorem takeWhile_digits {digits rest : List Char} (hd : ∀ c ∈ digits, c.isDigit)
    (hr : NoDigit rest) : (digits ++ rest).takeWhile Char.isDigit = digits := by
  rw [List.takeWhile_append_of_pos hd]
  cases rest with
  | nil => simp
  | cons c rest => simp [hr c rfl]

theorem dropWhile_digits {digits rest : List Char} (hd : ∀ c ∈ digits, c.isDigit)
    (hr : NoDigit rest) : (digits ++ rest).dropWhile Char.isDigit = rest := by
  rw [List.dropWhile_append_of_pos hd]
  cases rest with
  | nil => rfl
  | cons c rest => simp [hr c rfl]

theorem isDigits_takeWhile {cs : List Char} (h : cs.takeWhile Char.isDigit ≠ []) :
    IsDigits (cs.takeWhile Char.isDigit) :=
  ⟨h, List.all_eq_true.mp List.all_takeWhile⟩

theorem isDigits_toDigits (n : Nat) : IsDigits (Nat.toDigits 10 n) :=
  ⟨Nat.toDigits_ne_nil, fun _ => Nat.isDigit_of_mem_toDigits (by decide) (by decide)⟩

theorem head?_toDigits {n : Nat} (h : 0 < n) : (Nat.toDigits 10 n).head? ≠ some '0' := by
  induction n using Nat.strongRecOn with
  | ind n ih =>
    by_cases hlt : n < 10
    · rw [Nat.toDigits_of_lt_base hlt]
      interval_cases n <;> decide
    · have hquotient := ih (n / 10) (by omega) (by omega)
      obtain ⟨c, cs, hcs⟩ := List.exists_cons_of_ne_nil (isDigits_toDigits (n / 10)).1
      rw [Nat.toDigits_of_base_le (by decide) (Nat.le_of_not_lt hlt), hcs]
      rwa [hcs] at hquotient

theorem digitChar_of_isDigit {c : Char} (h : c.isDigit) :
    c.toNat - '0'.toNat < 10 ∧ Nat.digitChar (c.toNat - '0'.toNat) = c := by
  have hc : Char.ofNat c.toNat = c := Char.ofNat_toNat c
  have hrange : 48 ≤ c.toNat ∧ c.toNat ≤ 57 := by
    simpa only [Char.isDigit, Bool.and_eq_true, decide_eq_true_eq] using! h
  generalize c.toNat = n at hc hrange ⊢
  subst hc
  obtain ⟨hlo, hhi⟩ := hrange
  interval_cases n <;> decide

/-- Digits that do not start with a needless zero are those of the number that they write. -/
theorem toDigits_ofDigitChars {digits : List Char} (hd : IsDigits digits)
    (hzero : ¬ (digits.head? = some '0' ∧ 1 < digits.length)) :
    Nat.toDigits 10 (Nat.ofDigitChars 10 digits 0) = digits := by
  induction digits using List.reverseRecOn with
  | nil => exact absurd rfl hd.1
  | append_singleton front d ih =>
    obtain ⟨hlast, hchar⟩ := digitChar_of_isDigit (hd.2 d (by simp))
    rw [Nat.ofDigitChars_append, Nat.ofDigitChars_cons, Nat.ofDigitChars_nil]
    cases front with
    | nil =>
      rw [Nat.ofDigitChars_nil, Nat.mul_zero, Nat.zero_add, Nat.toDigits_of_lt_base hlast, hchar,
        List.nil_append]
    | cons c front =>
      have hfront := ih ⟨List.cons_ne_nil _ _, fun c hc => hd.2 c (List.mem_append_left _ hc)⟩
        fun h => hzero ⟨h.1, by simp⟩
      -- Digits that come to zero start with a zero, which would be a needless one here.
      have hpos : 0 < Nat.ofDigitChars 10 (c :: front) 0 := by
        refine Nat.pos_of_ne_zero fun h => hzero ?_
        rw [h, Nat.toDigits_zero] at hfront
        rw [← hfront]
        exact ⟨rfl, Nat.lt_succ_self 1⟩
      rw [← Nat.toDigits_append_toDigits (by decide) hpos hlast, hfront,
        Nat.toDigits_of_lt_base hlast, hchar]

theorem scanFraction_of {fraction rest : List Char} (h : IsFraction fraction) (hr : NoDigit rest)
    (hpoint : rest.head? ≠ some '.') :
    scanFraction (fraction ++ rest) = some (!fraction.isEmpty, rest) := by
  cases h with
  | absent =>
    rw [List.nil_append, scanFraction]
    · rfl
    · rintro tail rfl
      exact hpoint rfl
  | @present digits hd =>
    rw [List.cons_append, scanFraction, takeWhile_digits hd.2 hr, if_neg hd.1,
      dropWhile_digits hd.2 hr]
    rfl

theorem isFraction_of_scanFraction {cs rest : List Char} {b : Bool}
    (h : scanFraction cs = some (b, rest)) :
    ∃ fraction, IsFraction fraction ∧ cs = fraction ++ rest ∧ b = !fraction.isEmpty := by
  fun_cases scanFraction cs with
  | case1 tail hnone =>
    rw [scanFraction, if_pos hnone] at h
    cases h
  | case2 tail hsome =>
    rw [scanFraction, if_neg hsome] at h
    cases h
    refine ⟨_, .present (isDigits_takeWhile hsome), ?_, rfl⟩
    rw [List.cons_append, List.takeWhile_append_dropWhile]
  | case3 cs hpoint =>
    rw [scanFraction] at h
    · cases h
      exact ⟨[], .absent, rfl, rfl⟩
    · exact hpoint

theorem dropSign_of {sign digits : List Char} (hsign : sign = [] ∨ sign = ['+'] ∨ sign = ['-'])
    (hd : IsDigits digits) (rest : List Char) :
    dropSign (sign ++ (digits ++ rest)) = digits ++ rest := by
  rcases hsign with rfl | rfl | rfl
  · obtain ⟨c, tail, rfl⟩ := List.exists_cons_of_ne_nil hd.1
    have hc := hd.2 c (.head _)
    rw [List.nil_append, List.cons_append, dropSign]
    · rintro tail' h
      cases h
      cases hc
    · rintro tail' h
      cases h
      cases hc
  · rfl
  · rfl

theorem exists_sign (cs : List Char) :
    ∃ sign, (sign = [] ∨ sign = ['+'] ∨ sign = ['-']) ∧ cs = sign ++ dropSign cs := by
  fun_cases dropSign cs with
  | case1 rest => exact ⟨['+'], .inr (.inl rfl), rfl⟩
  | case2 rest => exact ⟨['-'], .inr (.inr rfl), rfl⟩
  | case3 cs hplus hminus => exact ⟨[], .inl rfl, rfl⟩

theorem scanExponent_of {exponent rest : List Char} (h : IsExponent exponent)
    (hr : EndsNumber rest) : scanExponent (exponent ++ rest) = some (!exponent.isEmpty, rest) := by
  cases h with
  | absent =>
    cases rest with
    | nil => rfl
    | cons c rest =>
      obtain ⟨-, -, he, hE⟩ := hr c rfl
      rw [List.nil_append, scanExponent, if_neg (not_or.mpr ⟨he, hE⟩)]
      rfl
  | present hletter hsign hd =>
    rw [List.cons_append, scanExponent, if_pos hletter, List.append_assoc, dropSign_of hsign hd,
      takeWhile_digits hd.2 hr.noDigit, if_neg hd.1, dropWhile_digits hd.2 hr.noDigit]
    rfl

theorem isExponent_of_scanExponent {cs rest : List Char} {b : Bool}
    (h : scanExponent cs = some (b, rest)) :
    ∃ exponent, IsExponent exponent ∧ cs = exponent ++ rest ∧ b = !exponent.isEmpty := by
  cases cs with
  | nil =>
    cases h
    exact ⟨[], .absent, rfl, rfl⟩
  | cons c cs =>
    rw [scanExponent] at h
    split at h
    · next hletter =>
      split at h
      · cases h
      · next hsome =>
        cases h
        obtain ⟨sign, hsign, hcs⟩ := exists_sign cs
        refine ⟨_, .present hletter hsign (isDigits_takeWhile hsome), ?_, rfl⟩
        rw [List.cons_append, List.append_assoc, List.takeWhile_append_dropWhile, ← hcs]
    · cases h
      exact ⟨[], .absent, rfl, rfl⟩

theorem IsExponent.endsFraction {exponent rest : List Char} (h : IsExponent exponent)
    (hr : EndsNumber rest) :
    NoDigit (exponent ++ rest) ∧ (exponent ++ rest).head? ≠ some '.' := by
  cases h with
  | absent => exact ⟨hr.noDigit, fun hpoint => (hr '.' hpoint).2.1 rfl⟩
  | present hletter _ _ =>
    rcases hletter with rfl | rfl
    · exact ⟨fun c hc => Option.some.inj hc ▸ rfl, nofun⟩
    · exact ⟨fun c hc => Option.some.inj hc ▸ rfl, nofun⟩

theorem IsFraction.endsDigits {fraction rest : List Char} (h : IsFraction fraction)
    (hr : NoDigit rest) : NoDigit (fraction ++ rest) := by
  cases h with
  | absent => exact hr
  | present _ =>
    intro c hc
    cases hc
    rfl

theorem scanMagnitude_of (negative : Bool) (n : Nat) {fraction exponent rest : List Char}
    (hf : IsFraction fraction) (he : IsExponent exponent) (hr : EndsNumber rest) :
    scanMagnitude negative (Nat.toDigits 10 n ++ (fraction ++ (exponent ++ rest))) =
      some (if fraction = [] ∧ exponent = [] then integer? negative n else none, rest) := by
  obtain ⟨hexponent, hpoint⟩ := he.endsFraction hr
  have hfraction := hf.endsDigits hexponent
  have hdigits := isDigits_toDigits n
  have hzero : ¬ (Nat.toDigits 10 n = [] ∨
      ((Nat.toDigits 10 n).head? = some '0' ∧ 1 < (Nat.toDigits 10 n).length)) := by
    rintro (h | ⟨hhead, hlength⟩)
    · exact hdigits.1 h
    · cases n with
      | zero => exact absurd hlength (by decide)
      | succ n => exact head?_toDigits (Nat.succ_pos n) hhead
  simp only [scanMagnitude, takeWhile_digits hdigits.2 hfraction,
    dropWhile_digits hdigits.2 hfraction, if_neg hzero, scanFraction_of hf hexponent hpoint,
    scanExponent_of he hr, Nat.ofDigitChars_ten_toDigits, Option.bind_eq_bind, Option.bind_some]
  cases fraction <;> cases exponent <;> rfl

theorem exists_of_scanMagnitude {negative : Bool} {cs rest : List Char} {value : Option Int}
    (h : scanMagnitude negative cs = some (value, rest)) :
    ∃ n fraction exponent, IsFraction fraction ∧ IsExponent exponent ∧
      cs = Nat.toDigits 10 n ++ (fraction ++ (exponent ++ rest)) ∧
      value = if fraction = [] ∧ exponent = [] then integer? negative n else none := by
  rw [scanMagnitude] at h
  split at h
  · cases h
  · next hdigits =>
    rw [not_or] at hdigits
    obtain ⟨⟨b, cs'⟩, hfraction, h⟩ := Option.bind_eq_some_iff.mp h
    obtain ⟨⟨b', rest'⟩, hexponent, h⟩ := Option.bind_eq_some_iff.mp h
    cases h
    obtain ⟨fraction, hf, hcs, rfl⟩ := isFraction_of_scanFraction hfraction
    obtain ⟨exponent, he, rfl, rfl⟩ := isExponent_of_scanExponent hexponent
    refine ⟨Nat.ofDigitChars 10 (cs.takeWhile Char.isDigit) 0, fraction, exponent, hf, he, ?_,
      ?_⟩
    · rw [toDigits_ofDigitChars (isDigits_takeWhile hdigits.1) hdigits.2, ← hcs,
        List.takeWhile_append_dropWhile]
    · cases fraction <;> cases exponent <;> rfl

theorem spellsNumber_iff {value : Option Int} {cs : List Char} :
    SpellsNumber value cs ↔ ∃ negative n fraction exponent, IsFraction fraction ∧
      IsExponent exponent ∧
      cs = (if negative then ['-'] else []) ++ (Nat.toDigits 10 n ++ (fraction ++ exponent)) ∧
      value = if fraction = [] ∧ exponent = [] then integer? negative n else none := by
  constructor
  · intro h
    cases h with
    | natural n => exact ⟨false, n, [], [], .absent, .absent, by simp, rfl⟩
    | @negative n h =>
      refine ⟨true, n, [], [], .absent, .absent, by simp, ?_⟩
      simp [integer?, Nat.ne_of_gt h]
    | @other sign fraction exponent n hsign hf he h =>
      refine ⟨sign = ['-'], n, fraction, exponent, hf, he, ?_, ?_⟩
      · rcases hsign with rfl | rfl <;> rfl
      · rcases hsign with rfl | rfl <;> grind [integer?]
  · rintro ⟨negative, n, fraction, exponent, hf, he, rfl, rfl⟩
    have hother := @SpellsNumber.other (if negative then ['-'] else []) _ _ n
      (by cases negative <;> simp) hf he
    by_cases h : fraction = [] ∧ exponent = []
    · obtain ⟨rfl, rfl⟩ := h
      simp only [List.append_nil, and_self, if_true]
      cases negative with
      | false => exact .natural n
      | true =>
        cases n with
        | zero => exact hother (.inr (.inr ⟨rfl, rfl⟩))
        | succ n => exact .negative (Nat.succ_pos n)
    · rw [if_neg h]
      exact hother (by grind)

theorem SpellsNumber.head {value : Option Int} {cs : List Char} (h : SpellsNumber value cs) :
    ∃ c tail, cs = c :: tail ∧ (c = '-' ∨ c.isDigit) := by
  obtain ⟨negative, n, fraction, exponent, -, -, rfl, -⟩ := spellsNumber_iff.mp h
  cases negative with
  | true => exact ⟨_, _, rfl, .inl rfl⟩
  | false =>
    obtain ⟨c, cs, hcs⟩ := List.exists_cons_of_ne_nil (isDigits_toDigits n).1
    have hc := (isDigits_toDigits n).2 c (hcs ▸ .head _)
    exact ⟨c, _, by rw [hcs]; rfl, .inr hc⟩

theorem scanNumber_signed (negative : Bool) (n : Nat) (tail : List Char) :
    scanNumber ((if negative then ['-'] else []) ++ (Nat.toDigits 10 n ++ tail)) =
      scanMagnitude negative (Nat.toDigits 10 n ++ tail) := by
  cases negative with
  | true => rfl
  | false =>
    obtain ⟨c, cs, hcs⟩ := List.exists_cons_of_ne_nil (isDigits_toDigits n).1
    have hc := (isDigits_toDigits n).2 c (hcs ▸ .head _)
    rw [hcs]
    refine scanNumber.eq_2 _ fun rest h => ?_
    cases h
    cases hc

theorem scanNumber_of_spells {value : Option Int} {cs rest : List Char}
    (h : SpellsNumber value cs) (hr : EndsNumber rest) :
    scanNumber (cs ++ rest) = some (value, rest) := by
  obtain ⟨negative, n, fraction, exponent, hf, he, rfl, rfl⟩ := spellsNumber_iff.mp h
  simp only [List.append_assoc]
  rw [scanNumber_signed, scanMagnitude_of negative n hf he hr]

theorem spells_of_scanNumber {value : Option Int} {cs rest : List Char}
    (h : scanNumber cs = some (value, rest)) :
    ∃ front, SpellsNumber value front ∧ cs = front ++ rest := by
  have hsigned : ∃ negative tail, cs = (if negative then ['-'] else []) ++ tail ∧
      scanMagnitude negative tail = some (value, rest) := by
    fun_cases scanNumber cs with
    | case1 tail => exact ⟨true, tail, rfl, h⟩
    | case2 cs hsign => exact ⟨false, cs, rfl, by rwa [scanNumber] at h; exact hsign⟩
  obtain ⟨negative, tail, rfl, hmagnitude⟩ := hsigned
  obtain ⟨n, fraction, exponent, hf, he, rfl, hvalue⟩ := exists_of_scanMagnitude hmagnitude
  refine ⟨_, spellsNumber_iff.mpr ⟨negative, n, fraction, exponent, hf, he, rfl, hvalue⟩, ?_⟩
  simp only [List.append_assoc]

end Enclave.Json
