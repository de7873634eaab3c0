import Enclave.Json.Parser
import Enclave.Proofs.Spelling
import Mathlib.Data.List.Chain
import Mathlib.Data.List.TakeWhile

namespace Enclave.Json

mutual

def tokens : Json → List Token
  | null => [.null]
  | bool b => [.bool b]
  | number n => [.number n]
  | text s => [.text s]
  | array items => .leftBracket :: (itemTokens items ++ [.rightBracket])
  | object members => .leftBrace :: (memberTokens members ++ [.rightBrace])

def itemTokens : List Json → List Token
  | [] => []
  | [item] => item.tokens
  | item :: next :: rest => item.tokens ++ .comma :: itemTokens (next :: rest)

def memberTokens : List (Option String × Json) → List Token
  | [] => []
  | [(name, value)] => .text name :: .colon :: value.tokens
  | (name, value) :: next :: rest =>
    .text name :: .colon :: (value.tokens ++ .comma :: memberTokens (next :: rest))

end

@[elab_as_elim]
theorem inductionOn {motive : Json → Prop} (null : motive null) (bool : ∀ b, motive (bool b))
    (number : ∀ n, motive (number n)) (text : ∀ s, motive (text s))
    (array : ∀ items, (∀ item ∈ items, motive item) → motive (array items))
    (object : ∀ members, (∀ member ∈ members, motive member.2) → motive (object members)) :
    ∀ j, motive j
  | .null => null
  | .bool b => bool b
  | .number n => number n
  | .text s => text s
  | .array items => array items fun item _ => inductionOn null bool number text array object item
  | .object members => object members fun member _ =>
    inductionOn null bool number text array object member.2
decreasing_by
  · decreasing_tactic
  · have hmember := List.sizeOf_lt_of_mem ‹member ∈ members›
    obtain ⟨name, value⟩ := member
    simp only [Json.object.sizeOf_spec, Prod.mk.sizeOf_spec] at hmember ⊢
    omega

theorem itemTokens_cons (first next : Json) (items : List Json) :
    itemTokens (first :: next :: items) = first.tokens ++ .comma :: itemTokens (next :: items) := by
  rw [itemTokens]

theorem memberTokens_cons (name : Option String) (value : Json) (next : Option String × Json)
    (members : List (Option String × Json)) :
    memberTokens ((name, value) :: next :: members) =
      .text name :: .colon :: (value.tokens ++ .comma :: memberTokens (next :: members)) := by
  rw [memberTokens]

theorem head?_tokens (j : Json) (rest : List Token) :
    (j.tokens ++ rest).head? ≠ some .rightBracket := by
  cases j <;> simp [tokens]

theorem head?_itemTokens (first : Json) (items : List Json) (rest : List Token) :
    (itemTokens (first :: items) ++ rest).head? ≠ some .rightBracket := by
  cases items with
  | nil => exact head?_tokens first rest
  | cons next items =>
    rw [itemTokens_cons, List.append_assoc]
    exact head?_tokens first _

theorem head?_memberTokens (first : Option String × Json) (members : List (Option String × Json))
    (rest : List Token) :
    (memberTokens (first :: members) ++ rest).head? ≠ some .rightBrace := by
  cases members <;> simp [memberTokens]

/-- Reading takes the tokens of a value and gives the value, with twice as many calls as tokens. -/
def Reads (j : Json) : Prop :=
  ∀ bound rest, 2 * j.tokens.length ≤ bound → readValue bound (j.tokens ++ rest) = some (j, rest)

theorem readItems_tokens (first : Json) (items : List Json)
    (h : ∀ item ∈ first :: items, Reads item) (bound : Nat) (rest : List Token)
    (hb : 2 * (itemTokens (first :: items)).length < bound) :
    readItems bound (itemTokens (first :: items) ++ .rightBracket :: rest) =
      some (first :: items, rest) := by
  induction items generalizing first bound with
  | nil =>
    cases bound with
    | zero => exact absurd hb (Nat.not_lt_zero _)
    | succ bound =>
      have hfirst := h first (.head _) bound (.rightBracket :: rest) (Nat.le_of_lt_succ hb)
      simp only [itemTokens, readItems, hfirst]
  | cons next items ih =>
    cases bound with
    | zero => exact absurd hb (Nat.not_lt_zero _)
    | succ bound =>
      rw [itemTokens_cons] at hb ⊢
      simp only [List.length_append, List.length_cons] at hb
      have hfirst := h first (.head _) bound
        (.comma :: (itemTokens (next :: items) ++ .rightBracket :: rest)) (by omega)
      have hrest := ih next (fun item hm => h item (.tail _ hm)) bound (by omega)
      simp only [List.append_assoc, List.cons_append, readItems, hfirst, hrest, Option.map_some]

theorem readMembers_tokens (first : Option String × Json) (members : List (Option String × Json))
    (h : ∀ member ∈ first :: members, Reads member.2) (bound : Nat) (rest : List Token)
    (hb : 2 * (memberTokens (first :: members)).length < bound) :
    readMembers bound (memberTokens (first :: members) ++ .rightBrace :: rest) =
      some (first :: members, rest) := by
  induction members generalizing first bound with
  | nil =>
    obtain ⟨name, value⟩ := first
    cases bound with
    | zero => exact absurd hb (Nat.not_lt_zero _)
    | succ bound =>
      simp only [memberTokens, List.length_cons] at hb
      have hfirst := h (name, value) (.head _) bound (.rightBrace :: rest) (by dsimp only; omega)
      simp only [memberTokens, List.cons_append, readMembers, hfirst]
  | cons next members ih =>
    obtain ⟨name, value⟩ := first
    cases bound with
    | zero => exact absurd hb (Nat.not_lt_zero _)
    | succ bound =>
      rw [memberTokens_cons] at hb ⊢
      simp only [List.length_append, List.length_cons] at hb
      have hfirst := h (name, value) (.head _) bound
        (.comma :: (memberTokens (next :: members) ++ .rightBrace :: rest)) (by dsimp only; omega)
      have hrest := ih next (fun member hm => h member (.tail _ hm)) bound (by omega)
      simp only [List.append_assoc, List.cons_append, readMembers, hfirst, hrest, Option.map_some]

theorem reads_array {items : List Json} (h : ∀ item ∈ items, Reads item) : Reads (array items) := by
  intro bound rest hb
  cases bound with
  | zero => exact absurd hb (by simp [tokens])
  | succ bound =>
    simp only [tokens, List.length_cons, List.length_append, List.length_nil] at hb
    simp only [tokens, List.cons_append, List.append_assoc, List.nil_append, readValue]
    cases items with
    | nil => rfl
    | cons first items =>
      rw [if_neg (head?_itemTokens first items _),
        readItems_tokens first items h bound rest (by omega), Option.map_some]

theorem reads_object {members : List (Option String × Json)}
    (h : ∀ member ∈ members, Reads member.2) : Reads (object members) := by
  intro bound rest hb
  cases bound with
  | zero => exact absurd hb (by simp [tokens])
  | succ bound =>
    simp only [tokens, List.length_cons, List.length_append, List.length_nil] at hb
    simp only [tokens, List.cons_append, List.append_assoc, List.nil_append, readValue]
    cases members with
    | nil => rfl
    | cons first members =>
      rw [if_neg (head?_memberTokens first members _),
        readMembers_tokens first members h bound rest (by omega), Option.map_some]

theorem reads (j : Json) : Reads j := by
  induction j using inductionOn with
  | array items ih => exact reads_array ih
  | object members ih => exact reads_object ih
  | _ =>
    intro bound rest hb
    cases bound with
    | zero => exact absurd hb (by simp [tokens])
    | succ bound => simp only [tokens, List.cons_append, List.nil_append, readValue]

theorem ofTokens?_tokens (j : Json) : ofTokens? j.tokens = some j := by
  have h := reads j (2 * j.tokens.length) [] (Nat.le_refl _)
  rw [List.append_nil] at h
  rw [ofTokens?, h]

structure Faithful (bound : Nat) : Prop where
  value : ∀ {ts j rest}, readValue bound ts = some (j, rest) → ts = j.tokens ++ rest
  items : ∀ {ts items rest}, readItems bound ts = some (items, rest) →
    items ≠ [] ∧ ts = itemTokens items ++ .rightBracket :: rest
  members : ∀ {ts members rest}, readMembers bound ts = some (members, rest) →
    members ≠ [] ∧ ts = memberTokens members ++ .rightBrace :: rest

namespace Faithful

variable {bound : Nat}

theorem value_succ (h : Faithful bound) {ts : List Token} {j : Json} {rest : List Token}
    (hr : readValue (bound + 1) ts = some (j, rest)) : ts = j.tokens ++ rest := by
  cases ts with
  | nil => cases hr
  | cons token ts =>
    cases token with
    | leftBracket =>
      rw [readValue] at hr
      split at hr
      · next hempty =>
        obtain ⟨ts, rfl⟩ := List.head?_eq_some_iff.mp hempty
        cases hr
        rfl
      · obtain ⟨⟨items, rest'⟩, hitems, hr⟩ := Option.map_eq_some_iff.mp hr
        cases hr
        obtain ⟨-, rfl⟩ := h.items hitems
        simp [tokens]
    | leftBrace =>
      rw [readValue] at hr
      split at hr
      · next hempty =>
        obtain ⟨ts, rfl⟩ := List.head?_eq_some_iff.mp hempty
        cases hr
        rfl
      · obtain ⟨⟨members, rest'⟩, hmembers, hr⟩ := Option.map_eq_some_iff.mp hr
        cases hr
        obtain ⟨-, rfl⟩ := h.members hmembers
        simp [tokens]
    | _ =>
      cases hr <;> rfl

theorem items_succ (h : Faithful bound) {ts : List Token} {items : List Json} {rest : List Token}
    (hr : readItems (bound + 1) ts = some (items, rest)) :
    items ≠ [] ∧ ts = itemTokens items ++ .rightBracket :: rest := by
  rw [readItems] at hr
  split at hr
  · next first rest' hfirst =>
    obtain ⟨⟨items, rest''⟩, hitems, hr⟩ := Option.map_eq_some_iff.mp hr
    cases hr
    obtain ⟨hne, rfl⟩ := h.items hitems
    obtain ⟨next, items, rfl⟩ := List.exists_cons_of_ne_nil hne
    refine ⟨List.cons_ne_nil _ _, ?_⟩
    rw [h.value hfirst, itemTokens_cons, List.append_assoc, List.cons_append]
  · next first rest' hfirst =>
    cases hr
    exact ⟨List.cons_ne_nil _ _, by rw [h.value hfirst, itemTokens]⟩
  · cases hr

theorem members_succ (h : Faithful bound) {ts : List Token}
    {members : List (Option String × Json)} {rest : List Token}
    (hr : readMembers (bound + 1) ts = some (members, rest)) :
    members ≠ [] ∧ ts = memberTokens members ++ .rightBrace :: rest := by
  rw [readMembers.eq_def] at hr
  split at hr
  · next bound' name ts hbound =>
    cases hbound
    split at hr
    · next value rest' hvalue =>
      obtain ⟨⟨members, rest''⟩, hmembers, hr⟩ := Option.map_eq_some_iff.mp hr
      cases hr
      obtain ⟨hne, rfl⟩ := h.members hmembers
      obtain ⟨next, members, rfl⟩ := List.exists_cons_of_ne_nil hne
      refine ⟨List.cons_ne_nil _ _, ?_⟩
      rw [h.value hvalue, memberTokens_cons]
      simp only [List.append_assoc, List.cons_append]
    · next value rest' hvalue =>
      cases hr
      exact ⟨List.cons_ne_nil _ _, by rw [h.value hvalue]; rfl⟩
    · cases hr
  · cases hr

end Faithful

theorem faithful (bound : Nat) : Faithful bound := by
  -- Each of the three calls the others under the bound below its own.
  induction bound with
  | zero => exact ⟨nofun, nofun, fun h => by simp [readMembers] at h⟩
  | succ bound ih => exact ⟨ih.value_succ, ih.items_succ, ih.members_succ⟩

theorem ofTokens?_eq_some_iff {ts : List Token} {j : Json} :
    ofTokens? ts = some j ↔ ts = j.tokens := by
  constructor
  · intro h
    rw [ofTokens?] at h
    split at h
    · next value hvalue =>
      cases h
      rw [(faithful _).value hvalue, List.append_nil]
    · cases h
  · rintro rfl
    exact ofTokens?_tokens j

inductive Layout : List Token → List Char → Prop
  | nil {blanks : List Char} (hb : ∀ c ∈ blanks, isBlank c) : Layout [] blanks
  | cons {blanks cs rest : List Char} {token : Token} {ts : List Token}
    (hb : ∀ c ∈ blanks, isBlank c) (h : token.Spells cs) (hrest : Layout ts rest) :
    Layout (token :: ts) (blanks ++ (cs ++ rest))

/-- A text writes a value if it is laid out of the tokens of the value, with any blanks before, between
and behind them. -/
def Writes (j : Json) (cs : List Char) : Prop :=
  Layout j.tokens cs

/-- One of two tokens in a row is not a number. Nothing parts two numbers without blanks. -/
def Parted (token next : Token) : Prop :=
  (∀ value, token ≠ .number value) ∨ (∀ value, next ≠ .number value)

theorem isChain_part {ts us : List Token} (token : Token)
    (htoken : ∀ value, token ≠ .number value) (hts : ts.IsChain Parted)
    (hus : us.IsChain Parted) :
    (ts ++ token :: us).IsChain Parted := by
  refine List.isChain_append.mpr ⟨hts, ?_, fun x _ y hy => ?_⟩
  · exact List.isChain_cons.mpr ⟨fun _ _ => .inl htoken, hus⟩
  · cases hy
    exact .inr htoken

theorem isChain_itemTokens {items : List Json}
    (h : ∀ item ∈ items, item.tokens.IsChain Parted) : (itemTokens items).IsChain Parted := by
  induction items with
  | nil => exact .nil
  | cons first items ih =>
    obtain ⟨hfirst, hitems⟩ := List.forall_mem_cons.mp h
    cases items with
    | nil => exact hfirst
    | cons next items =>
      rw [itemTokens_cons]
      exact isChain_part .comma nofun hfirst (ih hitems)

theorem isChain_memberTokens {members : List (Option String × Json)}
    (h : ∀ member ∈ members, member.2.tokens.IsChain Parted) :
    (memberTokens members).IsChain Parted := by
  induction members with
  | nil => exact .nil
  | cons first members ih =>
    obtain ⟨name, value⟩ := first
    obtain ⟨hvalue, hmembers⟩ := List.forall_mem_cons.mp h
    have hname {ts : List Token} (hts : ts.IsChain Parted) :
        ([Token.text name] ++ .colon :: ts).IsChain Parted :=
      isChain_part .colon nofun (.singleton _) hts
    cases members with
    | nil => exact hname hvalue
    | cons next members =>
      rw [memberTokens_cons]
      exact hname (isChain_part .comma nofun hvalue (ih hmembers))

theorem isChain_tokens (j : Json) : j.tokens.IsChain Parted := by
  induction j using inductionOn with
  | array items ih =>
    have hclosed := isChain_part .rightBracket nofun (isChain_itemTokens ih) .nil
    exact isChain_part .leftBracket nofun .nil hclosed
  | object members ih =>
    have hclosed := isChain_part .rightBrace nofun (isChain_memberTokens ih) .nil
    exact isChain_part .leftBrace nofun .nil hclosed
  | _ => exact .singleton _

namespace Layout

theorem length_le {ts : List Token} {cs : List Char} (h : Layout ts cs) :
    ts.length ≤ cs.length := by
  induction h with
  | nil _ => exact Nat.zero_le _
  | cons _ hcs _ ih =>
    obtain ⟨c, tail, rfl, -⟩ := hcs.head
    simp only [List.length_cons, List.length_append]
    omega

theorem endsNumber_of_isBlank {c : Char} (h : isBlank c) (cs : List Char) :
    EndsNumber (c :: cs) := by
  intro d hd
  cases hd
  rcases Token.isBlank_cases h with rfl | rfl | rfl | rfl <;> decide

theorem endsNumber {ts : List Token} {cs : List Char} (h : Layout ts cs)
    (hts : ∀ token ∈ ts.head?, ∀ value, token ≠ .number value) : EndsNumber cs := by
  cases h with
  | nil hb =>
    cases cs with
    | nil => exact nofun
    | cons c cs => exact endsNumber_of_isBlank (hb c (.head _)) cs
  | @cons blanks cs rest token ts hb hcs hrest =>
    cases blanks with
    | nil =>
      obtain ⟨c, tail, rfl, -, hends⟩ := hcs.head
      exact fun d hd => hends (hts token rfl) d hd
    | cons c blanks => exact endsNumber_of_isBlank (hb c (.head _)) _

theorem scanAll_eq {ts : List Token} {cs : List Char} (h : Layout ts cs)
    (hts : ts.IsChain Parted) {bound : Nat} (hbound : ts.length < bound) :
    Token.scanAll bound cs = some ts := by
  induction h generalizing bound with
  | @nil blanks hb =>
    obtain ⟨bound, rfl⟩ := Nat.exists_eq_add_one.mpr (Nat.zero_lt_of_lt hbound)
    rw [Token.scanAll, List.dropWhile_eq_nil_iff.mpr hb]
  | @cons blanks cs rest token ts hb hcs hrest ih =>
    obtain ⟨bound, rfl⟩ := Nat.exists_eq_add_one.mpr (Nat.zero_lt_of_lt hbound)
    obtain ⟨hnext, hchain⟩ := List.isChain_cons.mp hts
    -- Scanning stops at the end of a number only because no number follows it.
    have hends : ∀ value, token = .number value → EndsNumber rest := fun value htoken =>
      hrest.endsNumber fun next hm value' => (hnext next hm).resolve_left
        (fun hne => hne value htoken) value'
    have hscan := Token.scan?_of_spells hcs hends
    have hrest' := ih hchain (Nat.lt_of_succ_lt_succ hbound)
    obtain ⟨c, tail, rfl, hblank, -⟩ := hcs.head
    have hdrop : (blanks ++ (c :: tail ++ rest)).dropWhile isBlank = c :: (tail ++ rest) := by
      rw [List.dropWhile_append_of_pos hb, List.cons_append, List.dropWhile_cons_of_neg]
      simp [hblank]
    rw [List.cons_append] at hscan
    simp only [Token.scanAll, hdrop, hscan, hrest', Option.bind_eq_bind, Option.bind_some]
    rfl

end Layout

theorem layout_of_scanAll {bound : Nat} {cs : List Char} {ts : List Token}
    (h : Token.scanAll bound cs = some ts) : Layout ts cs := by
  induction bound generalizing cs ts with
  | zero => cases h
  | succ bound ih =>
    have hblanks : ∀ c ∈ cs.takeWhile isBlank, isBlank c = true :=
      List.all_eq_true.mp List.all_takeWhile
    rw [Token.scanAll] at h
    split at h
    · next hnil =>
      cases h
      rw [← List.takeWhile_append_dropWhile (p := isBlank) (l := cs), hnil, List.append_nil]
      exact .nil hblanks
    · next c tail hcons =>
      obtain ⟨⟨token, rest⟩, hscan, h⟩ := Option.bind_eq_some_iff.mp h
      obtain ⟨ts', hrest, h⟩ := Option.bind_eq_some_iff.mp h
      cases h
      obtain ⟨front, hfront, hcs⟩ := Token.spells_of_scan? hscan
      rw [← List.takeWhile_append_dropWhile (p := isBlank) (l := cs), hcons, hcs]
      exact .cons hblanks hfront (ih hrest)

/-- Parsing accepts the texts that write a value, and no others. -/
theorem parse_eq_some_iff {text : String} {j : Json} :
    parse text = some j ↔ Writes j text.toList := by
  constructor
  · intro h
    obtain ⟨ts, hscan, hread⟩ := Option.bind_eq_some_iff.mp h
    rw [ofTokens?_eq_some_iff] at hread
    subst hread
    exact layout_of_scanAll hscan
  · intro h
    have hscan := h.scanAll_eq (isChain_tokens j) (Nat.lt_succ_of_le h.length_le)
    rw [parse, Token.tokens?, hscan, Option.bind_some, ofTokens?_tokens]

end Enclave.Json
