import Mathlib.Data.List.Induction
import StackSurvey.Proofs.Feature.Union

/-! # What the reports of a feature make up

    Reports of one feature are merged one after the other into the first of them.  What comes of
    it can be read off the reports as they are: a field with one value has the value that is
    reported first, a field with several has what the first report lists and then what the later
    ones add to it (`MadeUpOf`, `madeUpOf_foldl_merge`).

    Merging is associative (`merge_assoc`), so reports may be put together before they are merged
    into others (`ofReports?_append_toList`), and a report that a feature is made up of has
    nothing to add to it (`MadeUpOf.merge_of_mem`). -/

namespace StackSurvey
namespace Feature

variable {f g h : Feature} {reports : List Feature} {n : String}

/-! ## Section 1: Merging two reports -/

theorem merge_of_name (hname : f.name = g.name) :
    f.merge g = { f with
      version := f.version.or g.version
      description := f.description.or g.description
      cpe := f.cpe.or g.cpe
      categories := unionBy id f.categories g.categories
      engines := unionBy id f.engines g.engines
      detail := f.detail.merge g.detail } := by
  rw [merge, if_pos hname]
  simp only [foldl_pushUnique_eq_unionBy]

theorem merge_assoc (hfg : f.name = g.name) (hgh : g.name = h.name) :
    (f.merge g).merge h = f.merge (g.merge h) := by
  have hleft : (f.merge g).name = h.name := by rw [merge_name, hfg, hgh]
  have hright : f.name = (g.merge h).name := by rw [merge_name, hfg]
  rw [merge_of_name hleft, merge_of_name hright, merge_of_name hfg, merge_of_name hgh]
  simp only [Option.or_assoc, unionBy_assoc, Json.Object.merge_assoc]

/-- The second feature says all that the first one says, in the same places. -/
structure KeptIn (f g : Feature) : Prop where
  name : g.name = f.name
  version : ∀ v, f.version = some v → g.version = some v
  description : ∀ v, f.description = some v → g.description = some v
  cpe : ∀ v, f.cpe = some v → g.cpe = some v
  categories : f.categories <+: g.categories
  engines : f.engines <+: g.engines
  detail : f.detail.members <+: g.detail.members

theorem KeptIn.refl (f : Feature) : f.KeptIn f where
  name := rfl
  version _ hv := hv
  description _ hv := hv
  cpe _ hv := hv
  categories := List.prefix_rfl
  engines := List.prefix_rfl
  detail := List.prefix_rfl

theorem KeptIn.trans (hfg : f.KeptIn g) (hgh : g.KeptIn h) : f.KeptIn h where
  name := hgh.name.trans hfg.name
  version v hv := hgh.version v (hfg.version v hv)
  description v hv := hgh.description v (hfg.description v hv)
  cpe v hv := hgh.cpe v (hfg.cpe v hv)
  categories := hfg.categories.trans hgh.categories
  engines := hfg.engines.trans hgh.engines
  detail := hfg.detail.trans hgh.detail

/-- Merging only adds. -/
theorem keptIn_merge (f g : Feature) : f.KeptIn (f.merge g) := by
  by_cases hname : f.name = g.name
  · rw [merge_of_name hname]
    exact {
      name := rfl
      version := fun v hv => by simp [hv]
      description := fun v hv => by simp [hv]
      cpe := fun v hv => by simp [hv]
      categories := prefix_unionBy f.categories g.categories
      engines := prefix_unionBy f.engines g.engines
      detail := by
        rw [Json.Object.members_merge]
        exact prefix_unionBy f.detail.members g.detail.members }
  · rw [merge, if_neg hname]
    exact KeptIn.refl f

/-! ## Section 2: Merging all reports -/

/-- The feature that reports make up: the first one, into which the others are merged in order. -/
def ofReports? : List Feature → Option Feature
  | [] => none
  | first :: later => some (later.foldl merge first)

theorem foldl_merge_name (first : Feature) (later : List Feature) :
    (later.foldl merge first).name = first.name := by
  induction later generalizing first with
  | nil => rfl
  | cons g later ih => rw [List.foldl_cons, ih, merge_name]

/-- Later reports may meet the feature that the earlier ones make up. -/
theorem ofReports?_toList_append (earlier later : List Feature) :
    ofReports? ((ofReports? earlier).toList ++ later) = ofReports? (earlier ++ later) := by
  cases earlier with
  | nil => rfl
  | cons first earlier =>
    show some (later.foldl merge (earlier.foldl merge first)) =
      some ((earlier ++ later).foldl merge first)
    rw [List.foldl_append]

theorem foldl_merge_merge (hfg : f.name = g.name) (hlater : ∀ h ∈ reports, h.name = g.name) :
    reports.foldl merge (f.merge g) = f.merge (reports.foldl merge g) := by
  induction reports generalizing g with
  | nil => rfl
  | cons h reports ih =>
    have hgh : g.name = h.name := (hlater h List.mem_cons_self).symm
    have hrest : ∀ k ∈ reports, k.name = (g.merge h).name := fun k hk => by
      rw [merge_name, hlater k (List.mem_cons_of_mem h hk)]
    rw [List.foldl_cons, merge_assoc hfg hgh, ih (by rw [merge_name, hfg]) hrest,
      List.foldl_cons]

/-- Later reports of a feature may be put together before they meet the earlier ones. -/
theorem ofReports?_append_toList {earlier later : List Feature}
    (hearlier : ∀ f ∈ earlier, f.name = n) (hlater : ∀ f ∈ later, f.name = n) :
    ofReports? (earlier ++ (ofReports? later).toList) = ofReports? (earlier ++ later) := by
  -- Both sides fold the same reports, once in two steps; the first report of each step gives the
  -- name.
  cases later with
  | nil => rfl
  | cons g later =>
    have hg : g.name = n := hlater g List.mem_cons_self
    have hrest : ∀ h ∈ later, h.name = g.name := fun h hh => by
      rw [hlater h (List.mem_cons_of_mem g hh), hg]
    cases earlier with
    | nil => rfl
    | cons first earlier =>
      have hfirst : (earlier.foldl merge first).name = g.name := by
        rw [foldl_merge_name, hearlier first List.mem_cons_self, hg]
      show some ((earlier ++ [later.foldl merge g]).foldl merge first) =
        some ((earlier ++ g :: later).foldl merge first)
      rw [List.foldl_append, List.foldl_append, List.foldl_cons, List.foldl_cons, List.foldl_nil,
        foldl_merge_merge hfirst hrest]

/-! ## Section 3: What reports make up -/

/-- What reports list in a field: what the first one lists, then what the later ones list and the
    first one does not, in order and each once. -/
def listed (field : Feature → List String) : List Feature → List String
  | [] => []
  | first :: later => orderedUnion (field first) (later.flatMap field)

/-- The names that a feature has details for. -/
def keys (f : Feature) : List String := f.detail.members.names

/-- What a feature has to say under a name. -/
def value? (key : String) (f : Feature) : Option Json := f.detail.members.get? key

/-- The feature says of each field what the reports, taken in order, say of it. -/
structure MadeUpOf (f : Feature) (reports : List Feature) : Prop where
  version : f.version = reports.findSome? Feature.version
  description : f.description = reports.findSome? Feature.description
  cpe : f.cpe = reports.findSome? Feature.cpe
  categories : f.categories = listed Feature.categories reports
  engines : f.engines = listed Feature.engines reports
  keys : f.keys = listed Feature.keys reports
  values : ∀ key, f.value? key = reports.findSome? (value? key)

/-- A feature has details for a name once. -/
theorem nodup_keys (f : Feature) : f.keys.Nodup := (Json.keyed_object.1 f.detail.keyed).1

theorem listed_singleton (field : Feature → List String) (f : Feature) :
    listed field [f] = field f := by
  rw [listed, List.flatMap_nil, ← unionBy_id, unionBy_nil]

theorem listed_append_singleton (field : Feature → List String) (first : Feature)
    (later : List Feature) (g : Feature) :
    listed field (first :: (later ++ [g])) =
      orderedUnion (listed field (first :: later)) (field g) := by
  rw [listed, List.flatMap_append, List.flatMap_singleton, orderedUnion_append, listed]

theorem mem_listed {field : Feature → List String} {x : String} :
    x ∈ listed field reports ↔ ∃ f ∈ reports, x ∈ field f := by
  cases reports with
  | nil => simp [listed]
  | cons first later =>
    rw [listed, mem_orderedUnion]
    simp

/-- What is listed comes in the order of its first appearance if no report repeats itself. -/
theorem listed_eq_eraseDups {field : Feature → List String}
    (hdistinct : ∀ f ∈ reports, (field f).Nodup) :
    listed field reports = (reports.flatMap field).eraseDups := by
  cases reports with
  | nil => rfl
  | cons first later =>
    have hfirst : (field first).foldl pushUnique [] = field first := by
      rw [foldl_pushUnique_nil, eraseDups_of_nodup (hdistinct first List.mem_cons_self)]
    rw [listed, List.flatMap_cons, ← foldl_pushUnique_nil, List.foldl_append, hfirst,
      foldl_pushUnique_eq_unionBy, unionBy_id]

/-- What reports list has a repetition just if the first of them lists something twice. -/
theorem nodup_listed_cons_iff {field : Feature → List String} :
    (listed field (f :: reports)).Nodup ↔ (field f).Nodup :=
  nodup_orderedUnion_iff

/-- A single report is made up of itself. -/
theorem madeUpOf_singleton (f : Feature) : f.MadeUpOf [f] where
  version := by simp
  description := by simp
  cpe := by simp
  categories := (listed_singleton Feature.categories f).symm
  engines := (listed_singleton Feature.engines f).symm
  keys := (listed_singleton Feature.keys f).symm
  values key := by simp

/-- One more report adds to a field with one value only if it has none yet, and to a field with
    several what is not there yet. -/
theorem MadeUpOf.merge {first : Feature} {later : List Feature}
    (hf : f.MadeUpOf (first :: later)) (hname : f.name = g.name) :
    (f.merge g).MadeUpOf (first :: (later ++ [g])) := by
  -- What is reported once is the first answer in the list, and the new report comes last.
  have hfirst : ∀ {α : Type} (field : Feature → Option α),
      (first :: (later ++ [g])).findSome? field =
        ((first :: later).findSome? field).or (field g) := fun field => by
    rw [← List.cons_append, List.findSome?_append]
    simp
  rw [merge_of_name hname]
  exact {
    version := by rw [hfirst, ← hf.version]
    description := by rw [hfirst, ← hf.description]
    cpe := by rw [hfirst, ← hf.cpe]
    categories := by
      rw [listed_append_singleton, ← hf.categories]
      exact unionBy_id f.categories g.categories
    engines := by
      rw [listed_append_singleton, ← hf.engines]
      exact unionBy_id f.engines g.engines
    keys := by
      rw [listed_append_singleton, ← hf.keys]
      exact Json.Object.names_merge f.detail g.detail
    values := fun key => by
      rw [hfirst, ← hf.values, value?, Json.Object.members_merge]
      exact Dictionary.get?_unionBy key f.detail.members g.detail.members }

/-- Merging reports of one name in order makes up the feature that they say. -/
theorem madeUpOf_foldl_merge {first : Feature} {later : List Feature}
    (hlater : ∀ g ∈ later, g.name = first.name) :
    (later.foldl Feature.merge first).MadeUpOf (first :: later) := by
  induction later using List.reverseRecOn with
  | nil => exact madeUpOf_singleton first
  | append_singleton later g ih =>
    have hearlier : ∀ h ∈ later, h.name = first.name := fun h hh =>
      hlater h (List.mem_append_left [g] hh)
    have hg : first.name = g.name := (hlater g (by simp)).symm
    rw [List.foldl_append, List.foldl_cons, List.foldl_nil]
    exact (ih hearlier).merge (by rw [foldl_merge_name, hg])

theorem madeUpOf_of_ofReports? (hf : ofReports? reports = some f)
    (hreports : ∀ g ∈ reports, g.name = n) : f.MadeUpOf reports := by
  cases reports with
  | nil => cases hf
  | cons first later =>
    obtain rfl : later.foldl Feature.merge first = f := Option.some.inj hf
    have hfirst : first.name = n := hreports first List.mem_cons_self
    exact madeUpOf_foldl_merge fun g hg => by
      rw [hreports g (List.mem_cons_of_mem first hg), hfirst]

/-! ## Section 4: Reports that add nothing -/

theorem or_of_reported {α : Type} {field : Feature → Option α} (hg : g ∈ reports) :
    (reports.findSome? field).or (field g) = reports.findSome? field := by
  rcases hval : field g with _ | v
  · rw [Option.or_none]
  · have hsome : (reports.findSome? field).isSome :=
      List.findSome?_isSome_iff.2 ⟨g, hg, by rw [hval]; rfl⟩
    obtain ⟨w, hw⟩ := Option.isSome_iff_exists.1 hsome
    rw [hw, Option.some_or]

/-- A feature knows all that the reports it is made up of say. -/
theorem MadeUpOf.merge_of_mem (hf : f.MadeUpOf reports) (hg : g ∈ reports)
    (hname : f.name = g.name) : f.merge g = f := by
  -- A report that is in the list has had its say, field by field.
  have hversion : f.version.or g.version = f.version := by
    rw [hf.version, or_of_reported hg]
  have hdescription : f.description.or g.description = f.description := by
    rw [hf.description, or_of_reported hg]
  have hcpe : f.cpe.or g.cpe = f.cpe := by
    rw [hf.cpe, or_of_reported hg]
  have hcategories : unionBy id f.categories g.categories = f.categories :=
    unionBy_of_subset fun c hc => by
      rw [List.map_id, hf.categories]
      exact mem_listed.2 ⟨g, hg, hc⟩
  have hengines : unionBy id f.engines g.engines = f.engines :=
    unionBy_of_subset fun e he => by
      rw [List.map_id, hf.engines]
      exact mem_listed.2 ⟨g, hg, he⟩
  have hdetail : f.detail.merge g.detail = f.detail :=
    Json.Object.merge_of_subset fun key hkey => by
      have hmem : key ∈ f.keys := hf.keys ▸ mem_listed.2 ⟨g, hg, hkey⟩
      exact hmem
  rw [merge_of_name hname, hversion, hdescription, hcpe, hcategories, hengines, hdetail]

end Feature
end StackSurvey
