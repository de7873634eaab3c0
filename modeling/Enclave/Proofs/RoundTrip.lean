import Enclave.Host.Session
import Enclave.Proofs.Grammar
import Enclave.Proofs.Records

namespace Enclave

namespace Json

theorem isHex_digitChar {v : Nat} (h : v < 16) : IsHex (Nat.digitChar v) v :=
  ⟨h, .inl rfl⟩

theorem spellsCode_escapeChar (c : Char) : SpellsCode c.toNat (escapeChar c) := by
  unfold escapeChar
  split_ifs with hquote hslash hnewline hreturn htab hback hfeed hcontrol
  · subst hquote
    exact .short (by decide)
  · subst hslash
    exact .short (by decide)
  · subst hnewline
    exact .short (by decide)
  · subst hreturn
    exact .short (by decide)
  · subst htab
    exact .short (by decide)
  · rw [hback]
    exact .short (by decide)
  · rw [hfeed]
    exact .short (by decide)
  · have hcode := SpellsCode.digits (isHex_digitChar (v := 0) (by decide))
      (isHex_digitChar (v := 0) (by decide)) (isHex_digitChar (v := c.toNat / 16) (by omega))
      (isHex_digitChar (v := c.toNat % 16) (by omega))
    have hsum : ((0 * 16 + 0) * 16 + c.toNat / 16) * 16 + c.toNat % 16 = c.toNat := by omega
    rwa [hsum] at hcode
  · exact .plain (Nat.le_of_not_lt hcontrol) hquote hslash

theorem spellsCodes_escaped (cs : List Char) :
    SpellsCodes (cs.map Char.toNat) (cs.flatMap escapeChar) := by
  induction cs with
  | nil => exact .nil
  | cons c cs ih => exact .cons (spellsCode_escapeChar c) ih

theorem encodes_self (cs : List Char) : Encodes cs (cs.map Char.toNat) := by
  induction cs with
  | nil => exact .nil
  | cons c cs ih => exact .one ih

theorem spells_renderText (s : Option String) : (Token.text s).Spells (renderText s) := by
  cases s with
  | some s => exact .text (encodes_self s.toList) (spellsCodes_escaped s.toList)
  | none =>
    have hcode := SpellsCode.digits (isHex_digitChar (v := 13) (by decide))
      (isHex_digitChar (v := 8) (by decide)) (isHex_digitChar (v := 0) (by decide))
      (isHex_digitChar (v := 0) (by decide))
    -- A high surrogate with nothing behind it is the code of no text.
    refine .unpaired (fun chars h => ?_) (.cons hcode .nil)
    cases assemble?_of_encodes h

theorem spellsNumber_renderNumber (n : Option Int) : SpellsNumber n (renderNumber n) := by
  match n with
  | some (.ofNat n) => exact .natural n
  | some (.negSucc n) => exact .negative (Nat.succ_pos n)
  | none =>
    exact .other (n := 0) (.inl rfl) (.present (isDigits_toDigits 0)) .absent
      (.inl (List.cons_ne_nil _ _))

namespace Layout

theorem blanks_append {blanks cs : List Char} {ts : List Token} (hb : ∀ c ∈ blanks, isBlank c)
    (h : Layout ts cs) : Layout ts (blanks ++ cs) := by
  cases h with
  | nil hcs => exact .nil (List.forall_mem_append.mpr ⟨hb, hcs⟩)
  | cons hcs htoken hrest =>
    rw [← List.append_assoc]
    exact .cons (List.forall_mem_append.mpr ⟨hb, hcs⟩) htoken hrest

theorem append {ts us : List Token} {cs ds : List Char} (h : Layout ts cs) (h' : Layout us ds) :
    Layout (ts ++ us) (cs ++ ds) := by
  induction h with
  | nil hb => exact blanks_append hb h'
  | cons hb htoken _ ih =>
    rw [List.append_assoc, List.append_assoc]
    exact .cons hb htoken ih

theorem token {token : Token} {cs rest : List Char} {ts : List Token} (h : token.Spells cs)
    (hrest : Layout ts rest) : Layout (token :: ts) (cs ++ rest) :=
  Layout.cons (List.forall_mem_nil (isBlank · = true)) h hrest

theorem empty : Layout [] [] :=
  .nil (List.forall_mem_nil (isBlank · = true))

end Layout

theorem layout_renderItems {items : List Json}
    (h : ∀ item ∈ items, Writes item (renderValue item)) :
    Layout (itemTokens items) (renderItems items) := by
  induction items with
  | nil => exact .empty
  | cons first items ih =>
    obtain ⟨hfirst, hitems⟩ := List.forall_mem_cons.mp h
    cases items with
    | nil => exact hfirst
    | cons next items =>
      rw [itemTokens_cons, renderItems]
      exact hfirst.append (.token .comma (ih hitems))

theorem layout_renderMembers {members : List (Option String × Json)}
    (h : ∀ member ∈ members, Writes member.2 (renderValue member.2)) :
    Layout (memberTokens members) (renderMembers members) := by
  induction members with
  | nil => exact .empty
  | cons first members ih =>
    obtain ⟨name, value⟩ := first
    obtain ⟨hvalue, hmembers⟩ := List.forall_mem_cons.mp h
    cases members with
    | nil => exact .token (spells_renderText name) (.token .colon hvalue)
    | cons next members =>
      rw [memberTokens_cons, renderMembers]
      exact .token (spells_renderText name)
        (.token .colon (hvalue.append (.token .comma (ih hmembers))))

theorem writes_renderValue (j : Json) : Writes j (renderValue j) := by
  induction j using inductionOn with
  | null => exact .token .null .empty
  | bool b =>
    cases b with
    | true => exact .token .boolTrue .empty
    | false => exact .token .boolFalse .empty
  | number n =>
    have h := Layout.token (.number (spellsNumber_renderNumber n)) .empty
    rwa [List.append_nil] at h
  | text s =>
    have h := Layout.token (spells_renderText s) .empty
    rwa [List.append_nil] at h
  | array items ih =>
    exact .token .leftBracket ((layout_renderItems ih).append (.token .rightBracket .empty))
  | object members ih =>
    exact .token .leftBrace ((layout_renderMembers ih).append (.token .rightBrace .empty))

theorem parse_render (j : Json) : parse j.render = some j := by
  rw [parse_eq_some_iff, render, String.toList_ofList]
  exact writes_renderValue j

theorem toNatBelow?_eq_some_iff {limit n : Nat} {j : Json} :
    j.toNatBelow? limit = some n ↔ n < limit ∧ j = ofNat n := by
  constructor
  · intro h
    unfold toNatBelow? at h
    split at h
    · split at h
      · next hlt =>
        cases h
        exact ⟨hlt, rfl⟩
      · cases h
    · cases h
  · rintro ⟨hlt, rfl⟩
    exact if_pos hlt

theorem toNatBelow?_ofNat {n limit : Nat} (h : n < limit) :
    (ofNat n).toNatBelow? limit = some n :=
  toNatBelow?_eq_some_iff.mpr ⟨h, rfl⟩

theorem toWord?_ofNat {n : Nat} (h : n < wordLimit) : (ofNat n).toWord? = some n :=
  toNatBelow?_ofNat h

def ofLimit (limit : Option Nat) : Json :=
  (limit.map ofNat).getD null

theorem toOptional?_eq_some_iff {limit : Option Nat} {j : Json} :
    toOptional? toWord? j = some limit ↔ (∀ n ∈ limit, n < wordLimit) ∧ j = ofLimit limit := by
  constructor
  · intro h
    unfold toOptional? at h
    split at h
    · cases h
      exact ⟨nofun, rfl⟩
    · obtain ⟨n, hn, rfl⟩ := Option.map_eq_some_iff.mp h
      obtain ⟨hlt, rfl⟩ := toNatBelow?_eq_some_iff.mp hn
      refine ⟨fun m hm => ?_, rfl⟩
      cases hm
      exact hlt
  · rintro ⟨hlimit, rfl⟩
    cases limit with
    | none => rfl
    | some n => exact congrArg (Option.map some) (toWord?_ofNat (hlimit n rfl))

theorem toOffset?_ofInt {n : Int} (h : leastOffset ≤ n ∧ n ≤ greatestOffset) :
    (ofInt n).toOffset? = some n :=
  if_pos h

theorem toString?_ofString (s : String) : (ofString s).toString? = some s :=
  rfl

end Json

theorem Access.ofJson?_toJson (a : Access) : ofJson? a.toJson = some a := by
  cases a <;> rfl

theorem Mode.ofJson?_toJson (m : Mode) : ofJson? m.toJson = some m := by
  cases m <;> rfl

theorem Origin.ofJson?_toJson (o : Origin) : ofJson? o.toJson = some o := by
  cases o <;> rfl

theorem Resource.ofJson?_toJson (r : Resource) : ofJson? r.toJson = some r := by
  cases r <;> rfl

theorem Handle.ofJson?_toJson (h : Handle) : ofJson? h.toJson = some h := by
  have hslot := Json.toNatBelow?_ofNat h.slot.toNat_lt
  have hgeneration := Json.toNatBelow?_ofNat h.generation.toNat_lt
  simp [ofJson?, toJson, Json.fields?_two, hslot, hgeneration]

def Stat.Fits (s : Stat) : Prop :=
  s.size < wordLimit

theorem Stat.ofJson?_toJson {s : Stat} (h : s.Fits) : ofJson? s.toJson = some s := by
  have hmode := Json.toNatBelow?_ofNat s.mode.toNat_lt
  simp [ofJson?, toJson, Json.fields?_two, Json.toWord?_ofNat h, hmode]

def Usage.Fits (u : Usage) : Prop :=
  u.entryCount < wordLimit ∧ u.usedBytes < wordLimit

theorem Usage.ofJson?_toJson {u : Usage} (h : u.Fits) : ofJson? u.toJson = some u := by
  simp [ofJson?, toJson, Json.fields?_two, Json.toWord?_ofNat h.1, Json.toWord?_ofNat h.2]

theorem TaskId.ofJson?_toJson (id : TaskId) : ofJson? id.toJson = some id := by
  have hraw := Json.toNatBelow?_ofNat id.raw.toNat_lt
  simp [ofJson?, toJson, hraw]

theorem ThreadId.ofJson?_toJson (id : ThreadId) : ofJson? id.toJson = some id := by
  have hraw := Json.toNatBelow?_ofNat id.raw.toNat_lt
  simp [ofJson?, toJson, hraw]

theorem TaskFault.ofJson?_toJson (f : TaskFault) : ofJson? f.toJson = some f := by
  cases f with
  | unknownTask id => simp [ofJson?, toJson, Json.single, TaskId.ofJson?_toJson]

namespace Limits

structure Fits (l : Limits) : Prop where
  maxOpen : l.maxOpen < wordLimit
  maxEntries : l.maxEntries < wordLimit
  maxNameLength : l.maxNameLength < wordLimit
  initialCapacity : l.initialCapacity < wordLimit
  memoryLimit : ∀ n ∈ l.memoryLimit, n < wordLimit

theorem ofJson?_toJson {l : Limits} (h : l.Fits) : ofJson? l.toJson = some l := by
  have hfields : l.toJson.fields? wireFields =
      some [some (.ofNat l.maxOpen), some (.ofNat l.maxEntries), some (.ofNat l.maxNameLength),
        some (.ofNat l.initialCapacity), some (.ofLimit l.memoryLimit)] :=
    Json.fields?_given wireFields [some _, some _, some _, some _, some _] (by decide) rfl
  have hlimit := Json.toOptional?_eq_some_iff.mpr ⟨h.memoryLimit, rfl⟩
  simp [ofJson?, hfields, fieldOr, Json.toWord?_ofNat h.maxOpen, Json.toWord?_ofNat h.maxEntries,
    Json.toWord?_ofNat h.maxNameLength, Json.toWord?_ofNat h.initialCapacity, hlimit]

end Limits

namespace Fault

/-- Whether what belongs to a fault can be told in machine integers. -/
def Fits : Fault → Prop
  | capacityExhausted _ limit => limit < wordLimit
  | outOfMemory requested => requested < wordLimit
  | invalidSeek target => leastOffset ≤ target ∧ target ≤ greatestOffset
  | nameTooLong length limit => length < wordLimit ∧ limit < wordLimit
  | _ => True

theorem ofJson?_single (name : String) (body : Json) :
    ofJson? (.single name body) = ofMember? name body :=
  rfl

theorem ofJson?_toJson {f : Fault} (h : f.Fits) : ofJson? f.toJson = some f := by
  cases f with
  | invalidHandle => rfl
  | notFound => rfl
  | capacityExhausted resource limit =>
    rw [toJson, ofJson?_single]
    simp [wireName, ofMember?, Json.fields?_two, Resource.ofJson?_toJson, Json.toWord?_ofNat h]
  | modeViolation mode required =>
    rw [toJson, ofJson?_single]
    simp [wireName, ofMember?, Json.fields?_two, Mode.ofJson?_toJson, Access.ofJson?_toJson]
  | outOfMemory requested =>
    rw [toJson, ofJson?_single]
    simp [wireName, ofMember?, Json.fields?_one, Json.toWord?_ofNat h]
  | invalidSeek target =>
    rw [toJson, ofJson?_single]
    simp [wireName, ofMember?, Json.fields?_one, Json.toOffset?_ofInt h]
  | nameTooLong length limit =>
    rw [toJson, ofJson?_single]
    simp [wireName, ofMember?, Json.fields?_two, Json.toWord?_ofNat h.1, Json.toWord?_ofNat h.2]
  | invalidMode text | invalidArgument text | invalidConfig text =>
    rw [toJson, ofJson?_single]
    simp [wireName, ofMember?, Json.toString?_ofString]

end Fault

/-- The text of a value writes its JSON value. What fits is read back out of its text, so nothing
else that fits has the same text. -/
structure RoundTrips {α : Type} (Fits : α → Prop) (toJson : α → Json)
    (ofJson? : Json → Option α) : Prop where
  writes : ∀ v, Json.Writes (toJson v) (toJson v).render.toList
  reads : ∀ v, Fits v → (Json.parse (toJson v).render).bind ofJson? = some v
  distinct : ∀ v w, Fits v → Fits w → (toJson v).render = (toJson w).render → v = w

theorem RoundTrips.of_reads {α : Type} {Fits : α → Prop} {toJson : α → Json}
    {ofJson? : Json → Option α} (h : ∀ {v}, Fits v → ofJson? (toJson v) = some v) :
    RoundTrips Fits toJson ofJson? := by
  have hreads : ∀ v, Fits v → (Json.parse (toJson v).render).bind ofJson? = some v := by
    intro v hv
    rw [Json.parse_render, Option.bind_some, h hv]
  refine ⟨fun v => Json.parse_eq_some_iff.mp (Json.parse_render (toJson v)), hreads, ?_⟩
  intro v w hv hw htext
  have hv' := hreads v hv
  rw [htext, hreads w hw] at hv'
  exact (Option.some.inj hv').symm

namespace Host

theorem Session.lastFaultText_reads {s : Session} (h : ∀ e ∈ s.lastFault, e.Fits) :
    (s.lastFaultText.bind fun text => (Json.parse text).bind Fault.ofJson?) = s.lastFault := by
  cases hlast : s.lastFault with
  | none => rw [lastFaultText, hlast, Option.map_none, Option.bind_none]
  | some e =>
    rw [lastFaultText, hlast, Option.map_some, Option.bind_some, Json.parse_render,
      Option.bind_some, Fault.ofJson?_toJson (h e hlast)]

/-- Whatever a host can be told as a compact text is read back out of it as it was. -/
theorem texts_read_back :
    RoundTrips Fault.Fits Fault.toJson Fault.ofJson? ∧
    RoundTrips Limits.Fits Limits.toJson Limits.ofJson? ∧
    RoundTrips (fun _ => True) Handle.toJson Handle.ofJson? ∧
    RoundTrips Stat.Fits Stat.toJson Stat.ofJson? ∧
    RoundTrips Usage.Fits Usage.toJson Usage.ofJson? ∧
    RoundTrips (fun _ => True) Mode.toJson Mode.ofJson? ∧
    RoundTrips (fun _ => True) Access.toJson Access.ofJson? ∧
    RoundTrips (fun _ => True) Origin.toJson Origin.ofJson? ∧
    RoundTrips (fun _ => True) Resource.toJson Resource.ofJson? ∧
    RoundTrips (fun _ => True) TaskId.toJson TaskId.ofJson? ∧
    RoundTrips (fun _ => True) ThreadId.toJson ThreadId.ofJson? ∧
    RoundTrips (fun _ => True) TaskFault.toJson TaskFault.ofJson? ∧
    ∀ s : Session, (∀ e ∈ s.lastFault, e.Fits) →
      (s.lastFaultText.bind fun text => (Json.parse text).bind Fault.ofJson?) = s.lastFault :=
  ⟨.of_reads Fault.ofJson?_toJson, .of_reads Limits.ofJson?_toJson,
    .of_reads fun _ => Handle.ofJson?_toJson _, .of_reads Stat.ofJson?_toJson,
    .of_reads Usage.ofJson?_toJson, .of_reads fun _ => Mode.ofJson?_toJson _,
    .of_reads fun _ => Access.ofJson?_toJson _, .of_reads fun _ => Origin.ofJson?_toJson _,
    .of_reads fun _ => Resource.ofJson?_toJson _, .of_reads fun _ => TaskId.ofJson?_toJson _,
    .of_reads fun _ => ThreadId.ofJson?_toJson _, .of_reads fun _ => TaskFault.ofJson?_toJson _,
    fun _ => Session.lastFaultText_reads⟩

theorem texts_read_back_at_extremes :
    (Fault.invalidSeek leastOffset).Fits ∧
    (Fault.invalidSeek leastOffset).toJson.render =
      "\x7b\"InvalidSeek\":\x7b\"target\":-9223372036854775808\x7d\x7d" ∧
    (Json.parse (Fault.invalidSeek leastOffset).toJson.render).bind Fault.ofJson? =
      some (.invalidSeek leastOffset) ∧
    (Fault.invalidMode "\"\\\n\x01").toJson.render =
      "\x7b\"InvalidMode\":\"\\\"\\\\\\n\\u0001\"\x7d" ∧
    ((⟨.ofLimits .usual, some (.invalidMode "\"\\\n\x01")⟩ : Session).lastFaultText.bind
      fun text => (Json.parse text).bind Fault.ofJson?) = some (.invalidMode "\"\\\n\x01") ∧
    ((Json.parse (Limits.toJson { maxOpen := largestWord, memoryLimit := some 0 }).render).bind
      Limits.ofJson?) = some { maxOpen := largestWord, memoryLimit := some 0 } := by
  obtain ⟨hfault, hlimits, -, -, -, -, -, -, -, -, -, -, hsession⟩ := texts_read_back
  have hseek : (Fault.invalidSeek leastOffset).Fits := ⟨by decide, by decide⟩
  refine ⟨hseek, rfl, hfault.reads _ hseek, rfl, hsession _ fun e he => ?_, hlimits.reads _ ?_⟩
  · cases he
    trivial
  · exact ⟨by decide, by decide, by decide, by decide, by decide⟩

end Host

end Enclave
