import StackSurvey.Form
import StackSurvey.Proofs.Dictionary
import StackSurvey.Proofs.Success

/-! # Records in values that were read before

    A record takes of an object the members that have a field, in whatever order they come.  If
    each field owns a component of the record (`Owns`), the component ends up as its member says,
    or as it was if there is none (`given_of_foldlM`), and a record is made as soon as each member
    is of the form of its field (`exists_of_foldlM`). -/

namespace StackSurvey.Form

variable {σ α : Type} {fields : List (Form.Field σ)}

/-! ## Section 1: Forms of values -/

/-- A member that may be absent or `null` and is a text otherwise. -/
def OptionalText (member : Option Json) : Option String → Prop
  | none => member = none ∨ member = some .null
  | some s => member = some (.text s)

/-- A member that may be absent and is a list of nothing but texts otherwise. -/
def Texts (member : Option Json) (xs : List String) : Prop :=
  (member = none ∧ xs = []) ∨ member = some (.ofTexts xs)

/-- A member that may be absent and is an object otherwise. -/
def Members (member : Option Json) (members : Dictionary Json) : Prop :=
  (member = none ∧ members = []) ∨ member = some (.object members)

theorem text_eq_ok {v : Json} {s : String} : text.fromJson v = .ok s ↔ v = .text s := by
  cases v <;> simp [text, wrongKind]

theorem optional_text_eq_ok {v : Json} {s : Option String} :
    (optional text).fromJson v = .ok s ↔ OptionalText (some v) s := by
  cases v <;> cases s <;> simp [optional, text, wrongKind, OptionalText, Except.map]

theorem list_text_eq_ok {v : Json} {xs : List String} :
    (list text).fromJson v = .ok xs ↔ v = .ofTexts xs := by
  cases v with
  | list items =>
    simp only [list, Except.mapM_eq_ok, text_eq_ok, Json.ofTexts, Json.list.injEq]
    rw [← List.forall₂_map_right_iff, List.forall₂_eq_eq_eq]
  | _ => simp [list, wrongKind, Json.ofTexts]

theorem object_eq_ok {v : Json} {members : Dictionary Json} :
    object.fromJson v = .ok members ↔ v = .object members := by
  cases v <;> simp [object, wrongKind]

/-! ## Section 2: Fields -/

section fields

variable {name : String} {form : Form α} {store : σ → α → σ}

@[simp] theorem field_name : (field name form store).name = name := rfl

@[simp] theorem mandatory_name (f : Form.Field σ) : f.mandatory.name = f.name := rfl

@[simp] theorem mandatory_fromJson (f : Form.Field σ) : f.mandatory.fromJson = f.fromJson := rfl

theorem field_eq_ok {x y : σ} {v : Json} :
    (field name form store).fromJson x v = .ok y ↔
      ∃ a, form.fromJson v = .ok a ∧ store x a = y := by
  show form.fromJson v >>= _ = _ ↔ _
  rw [Except.bind_eq_ok]
  simp [pure, Except.pure]

end fields

/-! ## Section 3: Components -/

/-- What a record is made of is given by a member, or stays as it was. -/
def Given (read : Json → Except Mismatch α) (before : α) (member : Option Json) (after : α) :
    Prop :=
  match member with
  | none => after = before
  | some v => read v = .ok after

theorem Given.unique {read : Json → Except Mismatch α} {before a b : α} {member : Option Json}
    (ha : Given read before member a) (hb : Given read before member b) : a = b := by
  cases member with
  | none => exact Eq.trans ha (Eq.symm hb)
  | some v => exact Except.ok.inj (Eq.trans (Eq.symm ha) hb)

theorem given_optional_text {member : Option Json} {s : Option String} :
    Given (optional text).fromJson none member s ↔ OptionalText member s := by
  cases member with
  | none => cases s <;> simp [Given, OptionalText]
  | some v => exact optional_text_eq_ok

theorem given_texts {member : Option Json} {xs : List String} :
    Given (list text).fromJson [] member xs ↔ Texts member xs := by
  cases member with
  | none => simp [Given, Texts]
  | some v => simp [Given, Texts, list_text_eq_ok]

theorem given_members {member : Option Json} {members : Dictionary Json} :
    Given object.fromJson [] member members ↔ Members member members := by
  cases member with
  | none => simp [Given, Members]
  | some v => simp [Given, Members, object_eq_ok]

/-- The fields store what `read` makes of the member `name` in the component `get`, and nothing
    else there. -/
structure Owns (fields : List (Form.Field σ)) (name : String) (read : Json → Except Mismatch α)
    (get : σ → α) : Prop where
  exists_field : ∃ f ∈ fields, f.name = name
  own : ∀ f ∈ fields, f.name = name → ∀ x v y, f.fromJson x v = .ok y → read v = .ok (get y)
  others : ∀ f ∈ fields, f.name ≠ name → ∀ x v y, f.fromJson x v = .ok y → get y = get x

/-- Takes a member of an object. -/
def storeMember (fields : List (Form.Field σ)) (x : σ) : String × Json → Except Mismatch σ :=
  fun (k, v) =>
    match fields.find? fun f => f.name = k with
    | some f => f.fromJson x v
    | none => .ok x

variable {members : Dictionary Json} {name : String} {read : Json → Except Mismatch α}
  {get : σ → α}

/-- One member changes at most its own component. -/
theorem Owns.given_of_storeMember (h : Owns fields name read get) {x y : σ} {k : String} {v : Json}
    (hstore : storeMember fields x (k, v) = .ok y) :
    Given read (get x) (if k = name then some v else none) (get y) := by
  unfold storeMember at hstore
  rcases hfield : fields.find? (fun f => f.name = k) with _ | f <;>
    simp only [hfield] at hstore
  · -- A member without a field is passed over, and the field looked at is another one.
    obtain rfl := Except.ok.inj hstore
    obtain ⟨f, hf, hname⟩ := h.exists_field
    have hk : k ≠ name := by
      rintro rfl
      simpa [hname] using List.find?_eq_none.1 hfield f hf
    rw [if_neg hk]
    rfl
  · have hf : f ∈ fields := List.mem_of_find?_eq_some hfield
    have hname : f.name = k := by simpa using List.find?_some hfield
    split
    · next hk => exact h.own f hf (hname.trans hk) x v y hstore
    · next hk => exact h.others f hf (hname ▸ hk) x v y hstore

/-- **Each component ends up as its member says.** -/
theorem Owns.given (h : Owns fields name read get) (hnames : (Dictionary.names members).Nodup)
    {x y : σ} (hfold : members.foldlM (storeMember fields) x = .ok y) :
    Given read (get x) (Dictionary.get? name members) (get y) := by
  induction members generalizing x with
  | nil =>
    obtain rfl := Except.ok.inj hfold
    rfl
  | cons m members ih =>
    obtain ⟨k, v⟩ := m
    obtain ⟨hk, hrest⟩ := List.nodup_cons.1 hnames
    rw [List.foldlM_cons] at hfold
    obtain ⟨x₁, hstore, hfold⟩ := Except.bind_eq_ok.1 hfold
    have hfirst := h.given_of_storeMember hstore
    have hlater := ih hrest hfold
    by_cases hkname : k = name
    -- The name does not come again.
    · subst hkname
      rw [Dictionary.get?_eq_none_iff.2 hk] at hlater
      rw [if_pos rfl] at hfirst
      rw [Dictionary.get?, if_pos rfl, hlater]
      exact hfirst
    · rw [if_neg hkname] at hfirst
      rw [Dictionary.get?, if_neg hkname, ← hfirst]
      exact hlater

/-- A record is made if each member that has a field is of its form. -/
theorem exists_of_foldlM (h : ∀ m ∈ members, ∀ f ∈ fields, f.name = m.1 → ∀ x,
    ∃ y, f.fromJson x m.2 = .ok y) (x : σ) :
    ∃ y, members.foldlM (storeMember fields) x = .ok y := by
  induction members generalizing x with
  | nil => exact ⟨x, rfl⟩
  | cons m members ih =>
    rw [List.forall_mem_cons] at h
    -- Whatever was gathered before, the next member can be stored.
    obtain ⟨x₁, hstore⟩ : ∃ x₁, storeMember fields x m = .ok x₁ := by
      obtain ⟨k, v⟩ := m
      rcases hfield : fields.find? (fun f => f.name = k) with _ | f <;>
        simp only [storeMember, hfield]
      · exact ⟨x, rfl⟩
      · exact h.1 f (List.mem_of_find?_eq_some hfield) (by simpa using List.find?_some hfield) x
    obtain ⟨y, hfold⟩ := ih h.2 x₁
    exact ⟨y, by rw [List.foldlM_cons, hstore]; exact hfold⟩

/-- What is given of a component is the form of its field. -/
theorem exists_of_given {name : String} {form : Form α} {store : σ → α → σ} {before a : α}
    (hnames : (Dictionary.names members).Nodup)
    (h : Given form.fromJson before (Dictionary.get? name members) a) {m : String × Json}
    (hm : m ∈ members) (hname : name = m.1) (x : σ) :
    ∃ y, (field name form store).fromJson x m.2 = .ok y := by
  have hmember : Dictionary.get? name members = some m.2 := by
    rw [Dictionary.get?_eq_some_iff hnames, hname]
    exact hm
  rw [hmember] at h
  exact ⟨store x a, field_eq_ok.2 ⟨a, h, rfl⟩⟩

/-- A record is made of an object just if its members can be taken one after the other and no
    field that it must have is missing. -/
theorem ofMembers_eq_ok {blank y : σ} :
    ofMembers fields blank members = .ok y ↔
      members.foldlM (storeMember fields) blank = .ok y ∧
        ∀ f ∈ fields, f.required = true → Dictionary.get? f.name members ≠ none := by
  -- No required field is missing just if the search for such a one finds nothing.
  have hnone : fields.find? (fun f => f.required && (Dictionary.get? f.name members).isNone) =
      none ↔ ∀ f ∈ fields, f.required = true → Dictionary.get? f.name members ≠ none := by
    simp [List.find?_eq_none]
  rw [← hnone]
  show members.foldlM (storeMember fields) blank >>= _ = _ ↔ _
  rw [Except.bind_eq_ok]
  constructor
  · rintro ⟨x, hfold, h⟩
    split at h
    · cases h
    · next hmissing =>
      obtain rfl := Except.ok.inj h
      exact ⟨hfold, hmissing⟩
  · rintro ⟨hfold, hmissing⟩
    exact ⟨y, hfold, by rw [hmissing]⟩

end StackSurvey.Form
