import StackSurvey.Feature.Basic

/-! # Feature sets

    A feature set holds at most one feature of a name, in the order in which the names were
    first reported.  It only ever grows: `merge` adds to features that are there and appends the
    others, and `names_absorb` says what happens to the names. -/

namespace StackSurvey

namespace Feature

/-- Merges a report into a list of features, or appends it if its name is new. -/
def absorb (f : Feature) : List Feature → List Feature
  | [] => [f]
  | g :: rest => if g.name = f.name then g.merge f :: rest else g :: absorb f rest

/-- A name that is there keeps its place, and a new one goes to the end. -/
theorem names_absorb (f : Feature) (fs : List Feature) :
    (absorb f fs).map name = pushUnique (fs.map name) f.name := by
  unfold pushUnique
  induction fs with
  | nil => simp [absorb]
  | cons g rest ih =>
    by_cases h : g.name = f.name
    · simp [absorb, h]
    · rw [absorb, if_neg h, List.map_cons, ih]
      simp only [List.map_cons, List.mem_cons, Ne.symm h, false_or]
      split <;> simp

end Feature

/-- Features with distinct names, in order of first report. -/
structure FeatureSet where
  features : List Feature
  distinct : (features.map Feature.name).Nodup

namespace FeatureSet

def empty : FeatureSet := ⟨[], by simp⟩

/-- Adds one report. -/
def insert (s : FeatureSet) (f : Feature) : FeatureSet :=
  ⟨Feature.absorb f s.features, by
    rw [Feature.names_absorb]
    exact nodup_pushUnique s.distinct f.name⟩

/-- Adds reports in order. -/
def merge (s : FeatureSet) (fs : List Feature) : FeatureSet := fs.foldl insert s

/-- The set that reports make up. -/
def ofFeatures (fs : List Feature) : FeatureSet := empty.merge fs

def names (s : FeatureSet) : List String := s.features.map Feature.name

def get? (s : FeatureSet) (name : String) : Option Feature :=
  s.features.find? fun f => f.name = name

def contains (s : FeatureSet) (name : String) : Bool := s.names.contains name

def size (s : FeatureSet) : Nat := s.features.length

/-- Are two sets the same, the order of details aside? -/
def same (s t : FeatureSet) : Bool :=
  s.features.length = t.features.length &&
    (s.features.zip t.features).all fun (f, g) => f.same g

/-- The set as data: the list of its features. -/
def toJson (s : FeatureSet) : Json := .list (s.features.map Feature.toJson)

/-- The form of a set.  A list that repeats a name is merged. -/
def form : Form FeatureSet :=
  let features := Form.list Feature.form
  { fromText := fun depth => do return ofFeatures (← features.fromText depth)
    fromJson := fun v => do return ofFeatures (← features.fromJson v)
    fromToml := fun v => do return ofFeatures (← features.fromToml v) }

@[simp] theorem names_empty : empty.names = [] := rfl

@[simp] theorem names_insert (s : FeatureSet) (f : Feature) :
    (s.insert f).names = pushUnique s.names f.name := Feature.names_absorb f s.features

@[simp] theorem merge_nil (s : FeatureSet) : s.merge [] = s := rfl

@[simp] theorem merge_cons (s : FeatureSet) (f : Feature) (fs : List Feature) :
    s.merge (f :: fs) = (s.insert f).merge fs := rfl

theorem merge_append (s : FeatureSet) (fs gs : List Feature) :
    s.merge (fs ++ gs) = (s.merge fs).merge gs := by simp [merge]

end FeatureSet
end StackSurvey
