import Enclave.Proofs.RoundTrip
import Enclave.Proofs.Sentinels

namespace Enclave

namespace Limits

/-- Limits of which some are given. It can be given that there is no limit to memory. -/
structure Partial where
  maxOpen : Option Nat
  maxEntries : Option Nat
  maxNameLength : Option Nat
  initialCapacity : Option Nat
  memoryLimit : Option (Option Nat)

namespace Partial

structure Fits (p : Partial) : Prop where
  maxOpen : ∀ n ∈ p.maxOpen, n < wordLimit
  maxEntries : ∀ n ∈ p.maxEntries, n < wordLimit
  maxNameLength : ∀ n ∈ p.maxNameLength, n < wordLimit
  initialCapacity : ∀ n ∈ p.initialCapacity, n < wordLimit
  memoryLimit : ∀ limit ∈ p.memoryLimit, ∀ n ∈ limit, n < wordLimit

def complete (p : Partial) : Limits :=
  ⟨p.maxOpen.getD usual.maxOpen, p.maxEntries.getD usual.maxEntries,
    p.maxNameLength.getD usual.maxNameLength, p.initialCapacity.getD usual.initialCapacity,
    p.memoryLimit.getD usual.memoryLimit⟩

def values (p : Partial) : List (Option Json) :=
  [p.maxOpen.map .ofNat, p.maxEntries.map .ofNat, p.maxNameLength.map .ofNat,
    p.initialCapacity.map .ofNat, p.memoryLimit.map .ofLimit]

def members (p : Partial) : List (String × Json) :=
  Json.given wireFields p.values

end Partial

theorem fieldOr_eq_some_iff {α : Type} {default : α} {decode : Json → Option α}
    {encode : α → Json} {Fits : α → Prop}
    (hdecode : ∀ {j a}, decode j = some a ↔ Fits a ∧ j = encode a) {value : Option Json} {a : α} :
    fieldOr default decode value = some a ↔
      ∃ given : Option α, (∀ b ∈ given, Fits b) ∧ value = given.map encode ∧
        given.getD default = a := by
  constructor
  · intro h
    cases value with
    | none => exact ⟨none, nofun, rfl, Option.some.inj h⟩
    | some j =>
      obtain ⟨hfits, rfl⟩ := hdecode.mp h
      refine ⟨some a, fun b hb => ?_, rfl, rfl⟩
      cases hb
      exact hfits
  · rintro ⟨given, hfits, rfl, rfl⟩
    cases given with
    | none => rfl
    | some b => exact hdecode.mpr ⟨hfits b rfl, rfl⟩

theorem fieldOr_word_eq_some_iff {default n : Nat} {value : Option Json} :
    fieldOr default Json.toWord? value = some n ↔
      ∃ given : Option Nat, (∀ m ∈ given, m < wordLimit) ∧ value = given.map .ofNat ∧
        given.getD default = n :=
  fieldOr_eq_some_iff Json.toNatBelow?_eq_some_iff

theorem fieldOr_limit_eq_some_iff {default limit : Option Nat} {value : Option Json} :
    fieldOr default (Json.toOptional? Json.toWord?) value = some limit ↔
      ∃ given : Option (Option Nat), (∀ limit ∈ given, ∀ n ∈ limit, n < wordLimit) ∧
        value = given.map .ofLimit ∧ given.getD default = limit :=
  fieldOr_eq_some_iff Json.toOptional?_eq_some_iff

theorem ofJson?_eq_some_iff {j : Json} {l : Limits} :
    ofJson? j = some l ↔
      ∃ p : Partial, p.Fits ∧ j.fields? wireFields = some p.values ∧ p.complete = l := by
  constructor
  · intro h
    rw [ofJson?] at h
    split at h
    · next hfields =>
      obtain ⟨_, h₁, h⟩ := Option.bind_eq_some_iff.mp h
      obtain ⟨_, h₂, h⟩ := Option.bind_eq_some_iff.mp h
      obtain ⟨_, h₃, h⟩ := Option.bind_eq_some_iff.mp h
      obtain ⟨_, h₄, h⟩ := Option.bind_eq_some_iff.mp h
      obtain ⟨_, h₅, h⟩ := Option.bind_eq_some_iff.mp h
      cases h
      obtain ⟨maxOpen, hopen, rfl, rfl⟩ := fieldOr_word_eq_some_iff.mp h₁
      obtain ⟨maxEntries, hentries, rfl, rfl⟩ := fieldOr_word_eq_some_iff.mp h₂
      obtain ⟨maxNameLength, hname, rfl, rfl⟩ := fieldOr_word_eq_some_iff.mp h₃
      obtain ⟨initialCapacity, hcapacity, rfl, rfl⟩ := fieldOr_word_eq_some_iff.mp h₄
      obtain ⟨memoryLimit, hlimit, rfl, rfl⟩ := fieldOr_limit_eq_some_iff.mp h₅
      exact ⟨⟨maxOpen, maxEntries, maxNameLength, initialCapacity, memoryLimit⟩,
        ⟨hopen, hentries, hname, hcapacity, hlimit⟩, hfields, rfl⟩
    · cases h
  · rintro ⟨p, hp, hfields, rfl⟩
    have hword {default : Nat} {given : Option Nat} (hgiven : ∀ n ∈ given, n < wordLimit) :
        fieldOr default Json.toWord? (given.map .ofNat) = some (given.getD default) :=
      fieldOr_word_eq_some_iff.mpr ⟨given, hgiven, rfl, rfl⟩
    have hlimit : fieldOr usual.memoryLimit (Json.toOptional? Json.toWord?)
        (p.memoryLimit.map .ofLimit) = some (p.memoryLimit.getD usual.memoryLimit) :=
      fieldOr_limit_eq_some_iff.mpr ⟨p.memoryLimit, hp.memoryLimit, rfl, rfl⟩
    simp only [ofJson?, hfields, Partial.values, hword hp.maxOpen, hword hp.maxEntries,
      hword hp.maxNameLength, hword hp.initialCapacity, hlimit, Option.bind_eq_bind,
      Option.bind_some, Option.pure_def]
    rfl

section

variable {members : List (String × Json)} {text : String}

theorem parse_eq_some_iff_of_writes (h : Json.Writes (.ofMembers members) text.toList)
    {l : Limits} :
    parse text = some l ↔
      ∃ p : Partial, p.Fits ∧ (members.filter (·.1 ∈ wireFields)).Perm p.members ∧
        p.complete = l := by
  rw [parse, Json.parse_eq_some_iff.mpr h, Option.bind_some, ofJson?_eq_some_iff]
  apply exists_congr
  intro p
  apply and_congr_right
  intro _
  apply and_congr_left
  intro _
  exact Json.fields?_eq_some_iff (by decide) rfl

theorem parse_eq_none_of_writes (h : Json.Writes (.ofMembers members) text.toList)
    {name : String} (hname : name ∈ wireFields)
    (htwice : 2 ≤ (members.map Prod.fst).count name) : parse text = none := by
  apply Option.eq_none_iff_forall_ne_some.mpr
  intro l hl
  obtain ⟨p, -, hperm, -⟩ := (parse_eq_some_iff_of_writes h).mp hl
  have hnodup : (p.members.map Prod.fst).Nodup :=
    (Json.sublist_names_given wireFields p.values).nodup (by decide)
  have honce := List.nodup_iff_count_le_one.mp hnodup name
  have hcount := (hperm.map Prod.fst).count_eq name
  have hfields : ((members.filter (·.1 ∈ wireFields)).map Prod.fst).count name =
      (members.map Prod.fst).count name := by
    rw [List.count_eq_countP, List.count_eq_countP, List.countP_map, List.countP_map,
      List.countP_filter]
    apply List.countP_congr
    intro member _
    simp only [Function.comp, Bool.and_eq_true, beq_iff_eq, decide_eq_true_eq]
    exact and_iff_left_of_imp fun heq => heq ▸ hname
  omega

end

end Limits

namespace Host

theorem Session.ofText_eq_ok_iff {text : String} {s : Session} :
    Session.ofText text = .ok s ↔
      ∃ l, Limits.parse text = some l ∧ l.check = .ok () ∧ s = Session.start (.ofLimits l) := by
  constructor
  · intro h
    rw [ofText] at h
    split at h
    · cases h
    · next l hl =>
      split at h
      · cases h
      · next v hv =>
        cases h
        obtain ⟨hcheck, rfl⟩ := Volume.create_eq_ok_iff.mp hv
        exact ⟨l, hl, hcheck, rfl⟩
  · rintro ⟨l, hl, hcheck, rfl⟩
    simp only [ofText, hl, Volume.create_eq_ok_iff.mpr ⟨hcheck, rfl⟩]

/-- A text that writes an object gives limits exactly if those of its members that have names of
fields are, in some order, members that give limits in range, each at most once. The limits are
these with the usual ones for the rest, whatever the other members are and wherever blanks stand. A
session starts from a text exactly if the text gives limits that a volume can work under, and every
run of its calls is one of an empty volume under exactly these limits. -/
theorem sessions_start_from_partial_limits :
    (∀ (members : List (String × Json)) (text : String),
      Json.Writes (.ofMembers members) text.toList →
        (∀ l, Limits.parse text = some l ↔
          ∃ p : Limits.Partial, p.Fits ∧
            (members.filter (·.1 ∈ Limits.wireFields)).Perm p.members ∧ p.complete = l) ∧
        ∀ name ∈ Limits.wireFields, 2 ≤ (members.map Prod.fst).count name →
          Limits.parse text = none) ∧
    (∀ text s, Session.ofText text = .ok s ↔
      ∃ l, Limits.parse text = some l ∧ l.check = .ok () ∧ s = Session.start (.ofLimits l)) ∧
    ∀ text s l, Session.ofText text = .ok s → Limits.parse text = some l →
      ∀ calls, (s.after calls).volume = (Volume.ofLimits l).after (s.steps calls) ∧
        (s.after calls).volume.limits = l := by
  refine ⟨fun members text h => ⟨fun l => Limits.parse_eq_some_iff_of_writes h,
    fun name => Limits.parse_eq_none_of_writes h⟩, fun text s => Session.ofText_eq_ok_iff, ?_⟩
  intro text s l hs hl calls
  obtain ⟨l', hl', -, rfl⟩ := Session.ofText_eq_ok_iff.mp hs
  cases hl.symm.trans hl'
  have hsound : (Session.start (.ofLimits l)).volume.Sound := Volume.ofLimits_sound l
  obtain ⟨hvolume, -⟩ := Session.after_serves hsound calls
  rw [hvolume]
  exact ⟨rfl, (Volume.after_limits hsound _).1⟩

/-- Two of the five fields in disorder, one spelled with an escape, beside a member that is no field
and holds what no field could; and a field that is given twice. -/
theorem sessions_start_from_limits_in_disorder :
    let text := " \x7b \"note\": [\x7b\"x\" : \"\\ud83d\"\x7d, -1e5] ,\n" ++
      "\"memory_limit\":null, \"max_\\u006fpen\" : 3\t\x7d "
    let l : Limits := { maxOpen := 3 }
    Limits.parse text = some l ∧ Session.ofText text = .ok (.start (.ofLimits l)) ∧
      Limits.parse "\x7b\"max_open\":3,\"max_open\":3\x7d" = none := by
  intro text l
  obtain ⟨hobject, hstart, -⟩ := sessions_start_from_partial_limits
  have hscan : Json.Token.tokens? text.toList =
      some [.leftBrace, .text (some "note"), .colon, .leftBracket, .leftBrace, .text (some "x"),
        .colon, .text none, .rightBrace, .comma, .number none, .rightBracket, .comma,
        .text (some "memory_limit"), .colon, .null, .comma, .text (some "max_open"), .colon,
        .number (some 3), .rightBrace] := by
    decide +kernel
  have hwrites : Json.Writes (.ofMembers [("note", .array [.ofMembers [("x", .text none)],
      .number none]), ("memory_limit", .null), ("max_open", .ofNat 3)]) text.toList := by
    rw [← Json.parse_eq_some_iff, Json.parse, hscan]
    rfl
  have hparse : Limits.parse text = some l := by
    refine ((hobject _ text hwrites).1 l).mpr ⟨⟨some 3, none, none, none, some none⟩, ?_, ?_, rfl⟩
    · exact ⟨by decide, by decide, by decide, by decide, by decide⟩
    · exact List.Perm.swap _ _ []
  have hscan : Json.Token.tokens? "\x7b\"max_open\":3,\"max_open\":3\x7d".toList =
      some [.leftBrace, .text (some "max_open"), .colon, .number (some 3), .comma,
        .text (some "max_open"), .colon, .number (some 3), .rightBrace] := by
    decide +kernel
  have htwice : Json.Writes (.ofMembers [("max_open", .ofNat 3), ("max_open", .ofNat 3)])
      "\x7b\"max_open\":3,\"max_open\":3\x7d".toList := by
    rw [← Json.parse_eq_some_iff, Json.parse, hscan]
    rfl
  refine ⟨hparse, (hstart _ _).mpr ⟨l, hparse, rfl, rfl⟩, ?_⟩
  exact (hobject _ _ htwice).2 "max_open" (by decide) (by decide)

end Host

end Enclave
