import StackSurvey.Json.Value

/-! # Objects with distinct names

    A text may repeat a name in an object, but what is made of the text does not: of the values
    of a name the last one counts, in the place of the first, and so on every level (`Keyed`,
    which also serves as the induction over values).

    An `Object` carries the proof of this.  `ofMembers` makes one of any members, and leaves them
    as they are if there is nothing to do (`members_ofMembers`). -/

namespace StackSurvey.Json

/-! ## Section 1: Distinct names -/

/-- The names in each object are distinct. -/
inductive Keyed : Json → Prop
  | null : Keyed .null
  | flag (b : Bool) : Keyed (.flag b)
  | number (n : Number) : Keyed (.number n)
  | text (s : String) : Keyed (.text s)
  | list {items : List Json} (hitems : ∀ v ∈ items, Keyed v) : Keyed (.list items)
  | object {members : List (String × Json)} (hnames : (Dictionary.names members).Nodup)
      (hmembers : ∀ m ∈ members, Keyed m.2) : Keyed (.object members)

theorem keyed_list {items : List Json} : Keyed (.list items) ↔ ∀ v ∈ items, Keyed v := by
  constructor
  · intro h
    cases h with
    | list hitems => exact hitems
  · exact .list

theorem keyed_object {members : List (String × Json)} :
    Keyed (.object members) ↔
      (Dictionary.names members).Nodup ∧ ∀ m ∈ members, Keyed m.2 := by
  constructor
  · intro h
    cases h with
    | object hnames hmembers => exact ⟨hnames, hmembers⟩
  · exact fun h => .object h.1 h.2

theorem keyed_empty : Keyed (.object []) := .object .nil nofun

theorem keyed_put {members : Dictionary Json} (h : Keyed (.object members)) (name : String)
    {v : Json} (hv : Keyed v) : Keyed (.object (Dictionary.put name v members)) := by
  rw [keyed_object] at h ⊢
  refine ⟨?_, fun m hm => ?_⟩
  · rw [Dictionary.names_put]
    exact nodup_pushUnique h.1 name
  · rcases Dictionary.mem_put hm with rfl | hold
    · exact hv
    · exact h.2 m hold

theorem keyed_orPut {members : Dictionary Json} (h : Keyed (.object members)) (name : String)
    {v : Json} (hv : Keyed v) : Keyed (.object (Dictionary.orPut name v members)) := by
  rw [Dictionary.orPut_eq]
  split
  · exact h
  · next hnew =>
    rw [← Dictionary.put_of_not_mem hnew]
    exact keyed_put h name hv

theorem keyed_foldl_orPut {members more : Dictionary Json} (h : Keyed (.object members))
    (hmore : ∀ m ∈ more, Keyed m.2) :
    Keyed (.object (more.foldl (fun d (k, v) => Dictionary.orPut k v d) members)) := by
  induction more generalizing members with
  | nil => exact h
  | cons m more ih =>
    obtain ⟨k, v⟩ := m
    rw [List.forall_mem_cons] at hmore
    exact ih (keyed_orPut h k hmore.1) hmore.2

/-! ## Section 2: Making names distinct -/

mutual

/-- The value with each name once in every object. -/
def tidy : Json → Json
  | .list items => .list (tidyItems items)
  | .object members => .object (tidyMembers members [])
  | v => v

def tidyItems : List Json → List Json
  | [] => []
  | v :: items => tidy v :: tidyItems items

/-- Puts members one after the other into those that are there. -/
def tidyMembers : List (String × Json) → Dictionary Json → Dictionary Json
  | [], earlier => earlier
  | (k, v) :: members, earlier => tidyMembers members (Dictionary.put k (tidy v) earlier)

end

mutual

theorem keyed_tidy : ∀ v : Json, Keyed (tidy v)
  | .null => .null
  | .flag b => .flag b
  | .number n => .number n
  | .text s => .text s
  | .list items => .list (keyed_tidyItems items)
  | .object members => keyed_tidyMembers members keyed_empty

theorem keyed_tidyItems : ∀ items : List Json, ∀ v ∈ tidyItems items, Keyed v
  | [], _, h => nomatch h
  | x :: items, v, h => by
    rcases List.mem_cons.1 h with rfl | hlater
    · exact keyed_tidy x
    · exact keyed_tidyItems items v hlater

theorem keyed_tidyMembers : ∀ (members : List (String × Json)) {earlier : Dictionary Json},
    Keyed (.object earlier) → Keyed (.object (tidyMembers members earlier))
  | [], _, h => h
  | (k, v) :: members, _, h => keyed_tidyMembers members (keyed_put h k (keyed_tidy v))

end

theorem tidyItems_of_tidy {items : List Json} (h : ∀ v ∈ items, tidy v = v) :
    tidyItems items = items := by
  induction items with
  | nil => rfl
  | cons v items ih =>
    rw [List.forall_mem_cons] at h
    rw [tidyItems, h.1, ih h.2]

/-- Members with new names that are tidy are appended as they are. -/
theorem tidyMembers_of_tidy {members earlier : Dictionary Json}
    (hnames : (Dictionary.names (earlier ++ members)).Nodup)
    (h : ∀ m ∈ members, tidy m.2 = m.2) : tidyMembers members earlier = earlier ++ members := by
  induction members generalizing earlier with
  | nil => simp [tidyMembers]
  | cons m members ih =>
    obtain ⟨k, v⟩ := m
    rw [List.forall_mem_cons] at h
    have hnew : k ∉ Dictionary.names earlier := by
      rw [Dictionary.names, List.map_append, List.nodup_append] at hnames
      intro hk
      exact hnames.2.2 k hk k (by simp) rfl
    rw [tidyMembers, h.1, Dictionary.put_of_not_mem hnew, ih (by simpa using hnames) h.2]
    simp

/-- Where the names are distinct there is nothing to do. -/
theorem tidy_of_keyed {v : Json} (h : Keyed v) : tidy v = v := by
  induction h with
  | list _ ih => rw [tidy, tidyItems_of_tidy ih]
  | object hnames _ ih => rw [tidy, tidyMembers_of_tidy (by simpa using hnames) ih, List.nil_append]
  | _ => rfl

/-! ## Section 3: Objects -/

/-- An object whose names are distinct on every level. -/
structure Object where
  members : Dictionary Json
  keyed : Keyed (.object members)

namespace Object

def empty : Object := ⟨[], keyed_empty⟩

/-- The object that members make up. -/
def ofMembers (members : Dictionary Json) : Object :=
  ⟨tidyMembers members [], keyed_tidyMembers members keyed_empty⟩

/-- Adds the members of another object whose names are new. -/
def merge (a b : Object) : Object where
  members := b.members.foldl (fun d (k, v) => Dictionary.orPut k v d) a.members
  keyed := keyed_foldl_orPut a.keyed (keyed_object.1 b.keyed).2

theorem ext {a b : Object} (h : a.members = b.members) : a = b := by
  cases a
  cases b
  cases h
  rfl

theorem members_ofMembers {members : Dictionary Json} (h : Keyed (.object members)) :
    (ofMembers members).members = members :=
  Json.object.inj (tidy_of_keyed h)

theorem ofMembers_members (o : Object) : ofMembers o.members = o :=
  ext (members_ofMembers o.keyed)

end Object
end StackSurvey.Json
