import Enclave.Proofs.Numerals
import Mathlib.Tactic.SplitIfs

namespace Enclave.Json

def IsHex (c : Char) (v : Nat) : Prop :=
  v < 16 ∧ (c = Nat.digitChar v ∨ c = (Nat.digitChar v).toUpper)

instance (c : Char) (v : Nat) : Decidable (IsHex c v) :=
  inferInstanceAs (Decidable (_ ∧ _))

def shortEscapes : List (Char × Nat) :=
  [('"', 0x22), ('\\', 0x5c), ('/', 0x2f), ('b', 0x08), ('f', 0x0c), ('n', 0x0a), ('r', 0x0d),
    ('t', 0x09)]

/-- How one code of a text is spelled: by its character, by a short escape, or by four digits. -/
inductive SpellsCode : Nat → List Char → Prop
  | plain {c : Char} (hprint : 32 ≤ c.toNat) (hquote : c ≠ '"') (hslash : c ≠ '\\') :
    SpellsCode c.toNat [c]
  | short {c : Char} {code : Nat} (h : (c, code) ∈ shortEscapes) : SpellsCode code ['\\', c]
  | digits {a b c d : Char} {va vb vc vd : Nat} (ha : IsHex a va) (hb : IsHex b vb)
    (hc : IsHex c vc) (hd : IsHex d vd) :
    SpellsCode (((va * 16 + vb) * 16 + vc) * 16 + vd) ['\\', 'u', a, b, c, d]

inductive SpellsCodes : List Nat → List Char → Prop
  | nil : SpellsCodes [] []
  | cons {code : Nat} {codes : List Nat} {cs rest : List Char} (h : SpellsCode code cs)
    (hrest : SpellsCodes codes rest) : SpellsCodes (code :: codes) (cs ++ rest)

/-- The codes by which characters can be given: each its own, or two surrogates for one that is
past what four digits can give. -/
inductive Encodes : List Char → List Nat → Prop
  | nil : Encodes [] []
  | one {c : Char} {cs : List Char} {codes : List Nat} (h : Encodes cs codes) :
    Encodes (c :: cs) (c.toNat :: codes)
  | two {c : Char} {cs : List Char} {codes : List Nat} (hc : 0x10000 ≤ c.toNat)
    (h : Encodes cs codes) :
    Encodes (c :: cs)
      ((0xd800 + (c.toNat - 0x10000) / 0x400) :: (0xdc00 + (c.toNat - 0x10000) % 0x400) :: codes)

theorem hexValue?_eq_some_iff {c : Char} {v : Nat} : hexValue? c = some v ↔ IsHex c v := by
  constructor
  · intro h
    have hc : Char.ofNat c.toNat = c := Char.ofNat_toNat c
    have hdigit : '0' ≤ c ∧ c ≤ '9' ↔ 48 ≤ c.toNat ∧ c.toNat ≤ 57 := Iff.rfl
    have hlower : 'a' ≤ c ∧ c ≤ 'f' ↔ 97 ≤ c.toNat ∧ c.toNat ≤ 102 := Iff.rfl
    have hupper : 'A' ≤ c ∧ c ≤ 'F' ↔ 65 ≤ c.toNat ∧ c.toNat ≤ 70 := Iff.rfl
    simp only [hexValue?, hdigit, hlower, hupper] at h
    generalize c.toNat = n at h hc
    subst hc
    split_ifs at h with hrange hrange hrange
    all_goals
      obtain ⟨hlo, hhi⟩ := hrange
      cases h
      interval_cases n <;> decide
  · rintro ⟨hv, rfl | rfl⟩ <;> interval_cases v <;> rfl

theorem shortEscape?_eq_some_iff {c : Char} {code : Nat} :
    shortEscape? c = some code ↔ (c, code) ∈ shortEscapes := by
  simp only [shortEscapes, List.mem_cons, Prod.mk.injEq, List.not_mem_nil, or_false]
  constructor
  · intro h
    simp only [shortEscape?] at h
    split_ifs at h with hself hb hf hn hr ht
    · cases h
      rcases hself with rfl | rfl | rfl <;> decide
    all_goals
      cases h
      subst c
      decide
  · intro h
    rcases h with h | h | h | h | h | h | h | h <;> obtain ⟨rfl, rfl⟩ := h <;> rfl

theorem codeUnit?_eq_some_iff {a b c d : Char} {code : Nat} :
    codeUnit? a b c d = some code ↔ ∃ va vb vc vd, IsHex a va ∧ IsHex b vb ∧ IsHex c vc ∧
      IsHex d vd ∧ ((va * 16 + vb) * 16 + vc) * 16 + vd = code := by
  simp only [codeUnit?, ← hexValue?_eq_some_iff]
  simp [Option.bind_eq_some_iff]

theorem scanText_of_spells {codes : List Nat} {cs : List Char} (h : SpellsCodes codes cs)
    (rest : List Char) : scanText (cs ++ '"' :: rest) = some (codes, rest) := by
  induction h with
  | nil => rfl
  | @cons code codes cs tail hcode _ ih =>
    cases hcode with
    | @plain c hprint hquote hslash =>
      rw [List.append_assoc, List.singleton_append, scanText, ih, if_neg (Nat.not_lt_of_le hprint)]
      · rfl
      · exact hquote
      · exact fun _ _ _ _ _ hc _ => hslash hc
      · exact fun _ _ hc _ => hslash hc
    | @short c code h =>
      have hu : c ≠ 'u' := by
        rintro rfl
        revert h
        simp [shortEscapes]
      rw [List.append_assoc, List.cons_append, List.cons_append, List.nil_append, scanText, ih,
        shortEscape?_eq_some_iff.mpr h]
      · rfl
      · exact fun _ _ _ _ _ hc _ => hu hc
    | digits ha hb hc hd =>
      have hcode := codeUnit?_eq_some_iff.mpr ⟨_, _, _, _, ha, hb, hc, hd, rfl⟩
      simp only [List.cons_append, List.nil_append]
      rw [scanText, ih, hcode]
      rfl

theorem spells_of_scanText {cs rest : List Char} {codes : List Nat}
    (h : scanText cs = some (codes, rest)) :
    ∃ front, SpellsCodes codes front ∧ cs = front ++ '"' :: rest := by
  fun_induction scanText cs generalizing codes rest with
  | case1 => cases h
  | case2 tail =>
    cases h
    exact ⟨[], .nil, rfl⟩
  | case3 a b c d tail ih =>
    obtain ⟨code, hcode, h⟩ := Option.bind_eq_some_iff.mp h
    obtain ⟨⟨codes', rest'⟩, htail, h⟩ := Option.bind_eq_some_iff.mp h
    cases h
    obtain ⟨va, vb, vc, vd, ha, hb, hc, hd, rfl⟩ := codeUnit?_eq_some_iff.mp hcode
    obtain ⟨front, hfront, rfl⟩ := ih htail
    exact ⟨_, .cons (.digits ha hb hc hd) hfront, rfl⟩
  | case4 c tail hu ih =>
    obtain ⟨code, hcode, h⟩ := Option.bind_eq_some_iff.mp h
    obtain ⟨⟨codes', rest'⟩, htail, h⟩ := Option.bind_eq_some_iff.mp h
    cases h
    obtain ⟨front, hfront, rfl⟩ := ih htail
    exact ⟨_, .cons (.short (shortEscape?_eq_some_iff.mp hcode)) hfront, rfl⟩
  | case5 => cases h
  | case6 c tail hquote hu hslash hprint ih =>
    obtain ⟨⟨codes', rest'⟩, htail, h⟩ := Option.bind_eq_some_iff.mp h
    cases h
    -- A backslash with nothing behind it is not closed by a quote either.
    have hc : c ≠ '\\' := by
      rintro rfl
      cases tail with
      | nil => cases htail
      | cons d tail => exact hslash d tail rfl rfl
    obtain ⟨front, hfront, rfl⟩ := ih htail
    exact ⟨_, .cons (.plain (Nat.le_of_not_lt hprint) hquote hc) hfront, rfl⟩

theorem toNat_ofNat {n : Nat} (h : n.isValidChar) : (Char.ofNat n).toNat = n := by
  rw [Char.ofNat, dif_pos h]
  rfl

theorem toNat_isValidChar (c : Char) : c.toNat.isValidChar :=
  c.valid

theorem SpellsCode.lt {code : Nat} {cs : List Char} (h : SpellsCode code cs) : code < 0x110000 := by
  cases h with
  | @plain c =>
    have hc := toNat_isValidChar c
    omega
  | @short c _ h =>
    simp only [shortEscapes, List.mem_cons, Prod.mk.injEq, List.not_mem_nil, or_false] at h
    omega
  | digits ha hb hc hd =>
    have := ha.1
    have := hb.1
    have := hc.1
    have := hd.1
    omega

theorem SpellsCodes.lt {codes : List Nat} {cs : List Char} (h : SpellsCodes codes cs) :
    ∀ code ∈ codes, code < 0x110000 := by
  induction h with
  | nil => exact fun _ h => nomatch h
  | cons hcode _ ih => exact List.forall_mem_cons.mpr ⟨hcode.lt, ih⟩

theorem isHighSurrogate_iff {code : Nat} :
    isHighSurrogate code ↔ 0xd800 ≤ code ∧ code < 0xdc00 := by
  simp [isHighSurrogate]

theorem isLowSurrogate_iff {code : Nat} :
    isLowSurrogate code ↔ 0xdc00 ≤ code ∧ code < 0xe000 := by
  simp [isLowSurrogate]

theorem assemble?_pair {high low : Nat} (hhigh : 0xd800 ≤ high ∧ high < 0xdc00)
    (hlow : 0xdc00 ≤ low ∧ low < 0xe000) (codes : List Nat) :
    assemble? (high :: low :: codes) = (assemble? codes).map
      (Char.ofNat (0x10000 + (high - 0xd800) * 0x400 + (low - 0xdc00)) :: ·) := by
  rw [assemble?.eq_def]
  exact (if_pos (isHighSurrogate_iff.mpr hhigh)).trans (if_pos (isLowSurrogate_iff.mpr hlow))

theorem assemble?_single {code : Nat} (h : code.isValidChar) (codes : List Nat) :
    assemble? (code :: codes) = (assemble? codes).map (Char.ofNat code :: ·) := by
  rw [assemble?.eq_def]
  refine (if_neg ?_).trans (if_neg ?_)
  · rw [isHighSurrogate_iff]
    omega
  · rw [isLowSurrogate_iff]
    omega

theorem assemble?_of_encodes {cs : List Char} {codes : List Nat} (h : Encodes cs codes) :
    assemble? codes = some cs := by
  induction h with
  | nil => rfl
  | @one c cs codes _ ih =>
    rw [assemble?_single (toNat_isValidChar c), ih, Option.map_some, Char.ofNat_toNat]
  | @two c cs codes hlarge _ ih =>
    have hc := toNat_isValidChar c
    rw [assemble?_pair (by omega) (by omega), ih, Option.map_some]
    have hcode : 0x10000 + (0xd800 + (c.toNat - 0x10000) / 0x400 - 0xd800) * 0x400 +
        (0xdc00 + (c.toNat - 0x10000) % 0x400 - 0xdc00) = c.toNat := by
      omega
    rw [hcode, Char.ofNat_toNat]

theorem encodes_of_assemble? {cs : List Char} {codes : List Nat}
    (hcodes : ∀ code ∈ codes, code < 0x110000) (h : assemble? codes = some cs) :
    Encodes cs codes := by
  fun_induction assemble? codes generalizing cs with
  | case1 =>
    cases h
    exact .nil
  | case2 => cases h
  | case3 high hhigh low codes hlow ih =>
    obtain ⟨cs, hcs, rfl⟩ := Option.map_eq_some_iff.mp h
    rw [isHighSurrogate_iff] at hhigh
    rw [isLowSurrogate_iff] at hlow
    have htail := ih (fun code hm => hcodes code (.tail _ (.tail _ hm))) hcs
    -- The character is named, so that its two surrogates are told by arithmetic on its code.
    have hvalid : (0x10000 + (high - 0xd800) * 0x400 + (low - 0xdc00)).isValidChar := by
      refine .inr ⟨?_, ?_⟩ <;> omega
    have hc := toNat_ofNat hvalid
    generalize Char.ofNat _ = c at hc ⊢
    have hfirst : 0xd800 + (c.toNat - 0x10000) / 0x400 = high := by omega
    have hsecond : 0xdc00 + (c.toNat - 0x10000) % 0x400 = low := by omega
    have h := Encodes.two (by omega : 0x10000 ≤ c.toNat) htail
    rwa [hfirst, hsecond] at h
  | case4 => cases h
  | case5 => cases h
  | case6 code codes hhigh hlow ih =>
    obtain ⟨cs, hcs, rfl⟩ := Option.map_eq_some_iff.mp h
    rw [isHighSurrogate_iff] at hhigh
    rw [isLowSurrogate_iff] at hlow
    -- A code that is no surrogate and not past the last code point is a character.
    have hcode := hcodes code (.head _)
    have hvalid : code.isValidChar := by
      omega
    have htail := ih (fun code hm => hcodes code (.tail _ hm)) hcs
    have hc := toNat_ofNat hvalid
    generalize Char.ofNat code = c at hc ⊢
    exact hc ▸ Encodes.one htail

namespace Token

inductive Spells : Token → List Char → Prop
  | leftBrace : Spells leftBrace ['{']
  | rightBrace : Spells rightBrace ['}']
  | leftBracket : Spells leftBracket ['[']
  | rightBracket : Spells rightBracket [']']
  | colon : Spells colon [':']
  | comma : Spells comma [',']
  | null : Spells null ['n', 'u', 'l', 'l']
  | boolTrue : Spells (bool true) ['t', 'r', 'u', 'e']
  | boolFalse : Spells (bool false) ['f', 'a', 'l', 's', 'e']
  | number {value : Option Int} {cs : List Char} (h : SpellsNumber value cs) :
    Spells (number value) cs
  | text {s : String} {codes : List Nat} {cs : List Char} (hs : Encodes s.toList codes)
    (h : SpellsCodes codes cs) : Spells (text (some s)) ('"' :: (cs ++ ['"']))
  | unpaired {codes : List Nat} {cs : List Char} (hs : ∀ chars, ¬ Encodes chars codes)
    (h : SpellsCodes codes cs) : Spells (text none) ('"' :: (cs ++ ['"']))

theorem scan?_number {c : Char} (h : c = '-' ∨ c.isDigit) (rest : List Char) :
    scan? (c :: rest) = (scanNumber (c :: rest)).map fun (n, rest) => (number n, rest) := by
  rw [scan?]
  all_goals
    intro tail heq
    cases heq
    revert h
    decide

theorem scan?_of_spells {token : Token} {cs rest : List Char} (h : token.Spells cs)
    (hr : ∀ value, token = number value → EndsNumber rest) :
    scan? (cs ++ rest) = some (token, rest) := by
  cases h with
  | number h =>
    obtain ⟨c, tail, rfl, hc⟩ := h.head
    have hscan := scanNumber_of_spells h (hr _ rfl)
    rw [List.cons_append] at hscan ⊢
    rw [scan?_number hc, hscan]
    rfl
  | text hs h =>
    rw [List.cons_append, List.append_assoc, List.singleton_append, scan?, scanText_of_spells h]
    simp only [Option.map_some, assemble?_of_encodes hs, String.ofList_toList]
  | @unpaired codes cs hs h =>
    have hnone : assemble? codes = none :=
      Option.eq_none_iff_forall_not_mem.mpr fun chars hchars =>
        hs chars (encodes_of_assemble? h.lt hchars)
    rw [List.cons_append, List.append_assoc, List.singleton_append, scan?, scanText_of_spells h]
    simp only [Option.map_some, hnone, Option.map_none]
  | _ => rfl

theorem spells_of_scan? {token : Token} {cs rest : List Char} (h : scan? cs = some (token, rest)) :
    ∃ front, token.Spells front ∧ cs = front ++ rest := by
  fun_cases scan? cs with
  | case1 tail => cases h; exact ⟨_, .leftBrace, rfl⟩
  | case2 tail => cases h; exact ⟨_, .rightBrace, rfl⟩
  | case3 tail => cases h; exact ⟨_, .leftBracket, rfl⟩
  | case4 tail => cases h; exact ⟨_, .rightBracket, rfl⟩
  | case5 tail => cases h; exact ⟨_, .colon, rfl⟩
  | case6 tail => cases h; exact ⟨_, .comma, rfl⟩
  | case7 tail =>
    obtain ⟨⟨codes, rest'⟩, hscan, h⟩ := Option.map_eq_some_iff.mp h
    cases h
    obtain ⟨front, hfront, rfl⟩ := spells_of_scanText hscan
    have hcs : '"' :: (front ++ '"' :: rest) = '"' :: (front ++ ['"']) ++ rest := by simp
    cases hchars : assemble? codes with
    | none =>
      have hs : ∀ chars, ¬ Encodes chars codes := fun chars hchars' => by
        rw [assemble?_of_encodes hchars'] at hchars
        cases hchars
      exact ⟨_, .unpaired hs hfront, hcs⟩
    | some chars =>
      have hs := encodes_of_assemble? hfront.lt hchars
      rw [← String.toList_ofList (l := chars)] at hs
      exact ⟨_, .text hs hfront, hcs⟩
  | case8 tail => cases h; exact ⟨_, .null, rfl⟩
  | case9 tail => cases h; exact ⟨_, .boolTrue, rfl⟩
  | case10 tail => cases h; exact ⟨_, .boolFalse, rfl⟩
  | case11 cs =>
    rw [scan?] at h
    · obtain ⟨⟨value, rest'⟩, hscan, h⟩ := Option.map_eq_some_iff.mp h
      cases h
      obtain ⟨front, hfront, rfl⟩ := spells_of_scanNumber hscan
      exact ⟨_, .number hfront, rfl⟩
    all_goals assumption

theorem isBlank_cases {c : Char} (h : isBlank c) : c = ' ' ∨ c = '\n' ∨ c = '\r' ∨ c = '\t' := by
  simpa [isBlank, or_assoc] using h

theorem isBlank_of_isDigit {c : Char} (h : c.isDigit) : isBlank c = false := by
  cases hb : isBlank c with
  | false => rfl
  | true => rcases isBlank_cases hb with rfl | rfl | rfl | rfl <;> cases h

/-- No token starts with a blank, and none but a number where a number before it would go on. -/
theorem Spells.head {token : Token} {cs : List Char} (h : token.Spells cs) :
    ∃ c tail, cs = c :: tail ∧ isBlank c = false ∧
      ((∀ value, token ≠ .number value) → EndsNumber cs) := by
  cases h with
  | number h =>
    obtain ⟨c, tail, rfl, hc⟩ := h.head
    refine ⟨c, tail, rfl, ?_, fun hne => absurd rfl (hne _)⟩
    rcases hc with rfl | hc
    · rfl
    · exact isBlank_of_isDigit hc
  | _ =>
    refine ⟨_, _, rfl, rfl, fun _ c hc => ?_⟩
    cases hc
    decide

end Token

end Enclave.Json
