import Enclave.Json.Record
import Mathlib.Data.List.Nodup
import Mathlib.Data.List.Perm.Basic

namespace Enclave.Json

def ofMembers (members : List (String × Json)) : Json :=
  object (members.map fun member => (some member.1, member.2))

def given (names : List String) (values : List (Option Json)) : List (String × Json) :=
  (names.zip values).flatMap fun field => (field.2.map (field.1, ·)).toList

theorem given_cons (name : String) (names : List String) (value : Option Json)
    (values : List (Option Json)) :
    given (name :: names) (value :: values) =
      (value.map (name, ·)).toList ++ given names values :=
  rfl

theorem fst_mem_of_mem_given {names : List String} {values : List (Option Json)}
    {member : String × Json} (h : member ∈ given names values) : member.1 ∈ names := by
  obtain ⟨field, hfield, hmember⟩ := List.mem_flatMap.mp h
  obtain ⟨value, -, rfl⟩ := Option.map_eq_some_iff.mp (Option.mem_toList.mp hmember)
  exact (List.of_mem_zip hfield).1

theorem sublist_names_given (names : List String) (values : List (Option Json)) :
    ((given names values).map Prod.fst).Sublist names := by
  induction names generalizing values with
  | nil => exact List.Sublist.refl _
  | cons name names ih =>
    cases values with
    | nil => exact List.nil_sublist _
    | cons value values =>
      rw [given_cons, List.map_append]
      cases value with
      | none => exact (ih values).cons name
      | some v => exact (ih values).cons_cons name

theorem member?_eq_some_iff {members : List (String × Json)} {name : String}
    {value : Option Json} :
    member? (members.map fun member => (some member.1, member.2)) name = some value ↔
      members.filter (·.1 = name) = (value.map (name, ·)).toList := by
  have hnames : ∀ member ∈ members.filter (·.1 = name), member.1 = name := fun member hm =>
    of_decide_eq_true (List.mem_filter.mp hm).2
  have hfilter : (members.map fun member => (some member.1, member.2)).filter (·.1 = some name) =
      (members.filter (·.1 = name)).map fun member => (some member.1, member.2) := by
    rw [List.filter_map]
    congr 2
    funext member
    simp
  rw [member?, hfilter]
  generalize members.filter (·.1 = name) = named at hnames
  cases named with
  | nil => cases value <;> simp
  | cons first rest =>
    cases rest with
    | nil =>
      cases hnames first (.head _)
      cases value <;> simp [Prod.ext_iff]
    | cons second rest => cases value <;> simp

theorem filter_or_perm {α : Type} {p q : α → Bool} (h : ∀ x, p x → q x = false) (l : List α) :
    (l.filter fun x => p x || q x).Perm (l.filter p ++ l.filter q) := by
  have hparts := List.filter_append_perm p (l.filter fun x => p x || q x)
  have hp : (l.filter fun x => p x || q x).filter p = l.filter p := by
    rw [List.filter_filter]
    congr 1
    funext x
    cases p x <;> rfl
  have hq : (l.filter fun x => p x || q x).filter (fun x => !p x) = l.filter q := by
    rw [List.filter_filter]
    congr 1
    funext x
    cases hx : p x with
    | true => simp [h x hx]
    | false => rfl
  rw [hp, hq] at hparts
  exact hparts.symm

theorem append_perm_append_iff {α : Type} {p : α → Bool} {a b c d : List α} (ha : ∀ x ∈ a, p x)
    (hb : ∀ x ∈ b, ¬ p x) (hc : ∀ x ∈ c, p x) (hd : ∀ x ∈ d, ¬ p x) :
    (a ++ b).Perm (c ++ d) ↔ a.Perm c ∧ b.Perm d := by
  constructor
  · intro h
    have hfirst := h.filter p
    rw [List.filter_append, List.filter_append, List.filter_eq_self.mpr ha,
      List.filter_eq_nil_iff.mpr hb, List.filter_eq_self.mpr hc, List.filter_eq_nil_iff.mpr hd,
      List.append_nil, List.append_nil] at hfirst
    have hrest := (hfirst.append_right b).symm.trans h
    exact ⟨hfirst, (List.perm_append_left_iff c).mp hrest⟩
  · rintro ⟨hfirst, hrest⟩
    exact hfirst.append hrest

theorem perm_toList_iff {α : Type} {l : List α} {o : Option α} :
    l.Perm o.toList ↔ l = o.toList := by
  cases o with
  | none => exact List.perm_nil
  | some x => exact List.perm_singleton

/-- Members give a first field and others if those with its name give it and those with the names of
the others give these. -/
theorem given_cons_perm_iff {name : String} {names : List String} {value : Option Json}
    {values : List (Option Json)} {members : List (String × Json)} (hname : name ∉ names) :
    (members.filter (·.1 ∈ name :: names)).Perm (given (name :: names) (value :: values)) ↔
      members.filter (·.1 = name) = (value.map (name, ·)).toList ∧
        (members.filter (·.1 ∈ names)).Perm (given names values) := by
  -- Whether a member has the first name tells the two parts of both sides apart.
  have hne {member : String × Json} (hm : member.1 ∈ names) : ¬ member.1 = name := by
    rintro rfl
    exact hname hm
  have hsplit : (members.filter (·.1 ∈ name :: names)).Perm
      (members.filter (·.1 = name) ++ members.filter (·.1 ∈ names)) := by
    have hdisjoint : ∀ member : String × Json, decide (member.1 = name) →
        decide (member.1 ∈ names) = false := fun member hm =>
      decide_eq_false fun hmem => hne hmem (of_decide_eq_true hm)
    simpa only [List.mem_cons, Bool.decide_or] using filter_or_perm hdisjoint members
  rw [given_cons, hsplit.congr_left, append_perm_append_iff (p := fun member => member.1 = name),
    perm_toList_iff]
  · intro member hm
    exact (List.mem_filter.mp hm).2
  · intro member hm
    simpa using hne (of_decide_eq_true (List.mem_filter.mp hm).2)
  · intro member hm
    obtain ⟨v, -, rfl⟩ := Option.map_eq_some_iff.mp (Option.mem_toList.mp hm)
    simp
  · intro member hm
    simpa using hne (fst_mem_of_mem_given hm)

/-- The named fields are read as given exactly if the members with these names give them, in any
order. -/
theorem fields?_eq_some_iff {names : List String} {values : List (Option Json)}
    {members : List (String × Json)} (hnames : names.Nodup)
    (hlength : names.length = values.length) :
    (ofMembers members).fields? names = some values ↔
      (members.filter (·.1 ∈ names)).Perm (given names values) := by
  have hall : (members.map fun member => (some member.1, member.2)).all (·.1.isSome) := by
    simp
  rw [ofMembers, fields?, if_pos hall]
  clear hall
  induction names generalizing values with
  | nil =>
    cases List.length_eq_zero_iff.mp hlength.symm
    simp [given]
  | cons name names ih =>
    obtain ⟨value, values, rfl⟩ := List.exists_cons_of_length_eq_add_one hlength.symm
    obtain ⟨hname, hnames⟩ := List.nodup_cons.mp hnames
    have hrest := ih hnames (Nat.succ.inj hlength)
    refine Iff.trans ?_ (given_cons_perm_iff hname).symm
    refine Iff.trans ?_ (and_congr member?_eq_some_iff hrest)
    simp [Option.bind_eq_some_iff]

theorem fields?_given (names : List String) (values : List (Option Json)) (hnames : names.Nodup)
    (hlength : names.length = values.length) :
    (ofMembers (given names values)).fields? names = some values := by
  rw [fields?_eq_some_iff hnames hlength]
  have hall : (given names values).filter (·.1 ∈ names) = given names values :=
    List.filter_eq_self.mpr fun _ hm => decide_eq_true (fst_mem_of_mem_given hm)
  rw [hall]

theorem fields?_one (name : String) (value : Json) :
    (object [(some name, value)]).fields? [name] = some [some value] :=
  fields?_given [name] [some value] (List.nodup_singleton name) rfl

theorem fields?_two {first second : String} (h : first ≠ second) (a b : Json) :
    (object [(some first, a), (some second, b)]).fields? [first, second] =
      some [some a, some b] :=
  fields?_given [first, second] [some a, some b] (by simp [h]) rfl

end Enclave.Json
