import StackSurvey.Proofs.Feature.Batches
import StackSurvey.Proofs.Json.Forms
import StackSurvey.Report.Data

/-! # Feature sets survive their JSON form

    A feature is written without what is missing or empty, and read into a blank one, so each
    member that is written fills its field and the others are as they should be
    (`gathers_members`).  A set is read as the list of its features and put together anew, which
    changes nothing because the names are distinct.

    Main result: `toJson_read_back`. -/

namespace StackSurvey

open Json Json.Reader

namespace Feature

variable {depth : Nat}

/-! ## Section 1: Members -/

/-- The fields of a feature in a text. -/
def textFields : List (Reader.Field Feature) :=
  fields.map fun f => ⟨f.name, f.required, f.fromText⟩

/-- The members of a feature as data. -/
def members (f : Feature) : List (String × Json) :=
  (("name", .text f.name) :: optionalMember "version" f.version) ++
    optionalMember "description" f.description ++ optionalMember "cpe" f.cpe ++
    listMember "categories" f.categories ++ listMember "engines" f.engines ++
    (if f.detail.members.isEmpty then [] else [("meta", .object f.detail.members)])

theorem toJson_eq (f : Feature) : f.toJson = .object f.members := rfl

theorem names_optionalMember (name : String) (v : Option String) :
    (Dictionary.names (optionalMember name v)).Sublist [name] := by
  cases v
  · exact List.nil_sublist [name]
  · exact List.Sublist.refl [name]

theorem names_listMember (name : String) (xs : List String) :
    (Dictionary.names (listMember name xs)).Sublist [name] := by
  cases xs
  · exact List.nil_sublist [name]
  · exact List.Sublist.refl [name]

/-- The members come in the order of the fields. -/
theorem names_members (f : Feature) :
    (Dictionary.names f.members).Sublist
      ["name", "version", "description", "cpe", "categories", "engines", "meta"] := by
  have hdetail : (Dictionary.names (if f.detail.members.isEmpty then []
      else [("meta", Json.object f.detail.members)])).Sublist ["meta"] := by
    split
    · exact List.nil_sublist ["meta"]
    · exact List.Sublist.refl ["meta"]
  simp only [members, Dictionary.names, List.map_append, List.map_cons]
  -- Each part is a sublist of its own names, in the order in which they are written.
  exact (((((names_optionalMember "version" f.version).cons_cons "name").append
    (names_optionalMember "description" f.description)).append
    (names_optionalMember "cpe" f.cpe)).append
    (names_listMember "categories" f.categories)).append
    (names_listMember "engines" f.engines) |>.append hdetail

/-! ## Section 2: Reading a feature -/

theorem gathers_optionalMember (name : String) (store : Feature → Option String → Feature)
    {x : Feature} (hfield : textFields.find? (fun f => f.name = name) =
      some ⟨name, false, (Form.field name (.optional .text) store).fromText⟩)
    (hblank : store x none = x) (v : Option String) :
    Gathers textFields depth x (optionalMember name v) (store x v) := by
  cases v with
  | none =>
    rw [hblank]
    exact .done x
  | some s => exact .store hfield ((takes_optional_text s).andThen (store x)) (.done _)

theorem gathers_listMember (name : String) (store : Feature → List String → Feature)
    {x : Feature} (hfield : textFields.find? (fun f => f.name = name) =
      some ⟨name, false, (Form.field name (.list .text) store).fromText⟩)
    (hblank : store x [] = x) {xs : List String}
    (hnesting : ∀ m ∈ listMember name xs, m.2.nesting ≤ depth) :
    Gathers textFields depth x (listMember name xs) (store x xs) := by
  cases xs with
  | nil =>
    rw [hblank]
    exact .done x
  | cons s xs =>
    have hread := takes_texts (s :: xs) (hnesting _ List.mem_cons_self)
    exact .store hfield (hread.andThen (store x)) (.done _)

theorem takes_detail (d : Json.Object) (hnesting : (Json.object d.members).nesting ≤ depth)
    (hdouble : (Json.object d.members).hasDouble = false) :
    Takes (detailForm.fromText depth) (.object d.members) d := by
  have hread := (takes_object d.keyed hnesting hdouble).andThen Json.Object.ofMembers
  rw [d.ofMembers_members] at hread
  exact hread

/-- The members of a feature fill a blank one up to that feature. -/
theorem gathers_members (f : Feature)
    (hdouble : (Json.object f.detail.members).hasDouble = false)
    (hnesting : ∀ m ∈ f.members, m.2.nesting ≤ depth) :
    Gathers textFields depth { name := "" } f.members f := by
  -- What is filled in so far is the feature up to the field that comes next.
  have hname : Gathers textFields depth { name := "" } [("name", .text f.name)]
      { name := f.name } :=
    .store rfl ((takes_text f.name).andThen fun name => ({ name } : Feature)) (.done _)
  have hversion : Gathers textFields depth { name := f.name }
      (optionalMember "version" f.version) { name := f.name, version := f.version } :=
    gathers_optionalMember "version" (fun g version => { g with version }) rfl rfl f.version
  have hdescription : Gathers textFields depth { name := f.name, version := f.version }
      (optionalMember "description" f.description)
      { name := f.name, version := f.version, description := f.description } :=
    gathers_optionalMember "description" (fun g description => { g with description }) rfl rfl
      f.description
  have hcpe : Gathers textFields depth
      { name := f.name, version := f.version, description := f.description }
      (optionalMember "cpe" f.cpe) { f with categories := [], engines := [], detail := .empty } :=
    gathers_optionalMember "cpe" (fun g cpe => { g with cpe }) rfl rfl f.cpe
  have hcategories : Gathers textFields depth
      { f with categories := [], engines := [], detail := .empty }
      (listMember "categories" f.categories) { f with engines := [], detail := .empty } :=
    gathers_listMember "categories" (fun g categories => { g with categories }) rfl rfl
      fun m hm => hnesting m (by simp [members, hm])
  have hengines : Gathers textFields depth { f with engines := [], detail := .empty }
      (listMember "engines" f.engines) { f with detail := .empty } :=
    gathers_listMember "engines" (fun g engines => { g with engines }) rfl rfl
      fun m hm => hnesting m (by simp [members, hm])
  have hdetail : Gathers textFields depth { f with detail := .empty }
      (if f.detail.members.isEmpty then [] else [("meta", .object f.detail.members)]) f := by
    by_cases hempty : f.detail.members.isEmpty = true
    · have hnothing : f.detail = .empty := Json.Object.ext (List.isEmpty_iff.1 hempty)
      have hblank : ({ f with detail := .empty } : Feature) = f := by rw [← hnothing]
      rw [if_pos hempty, hblank]
      exact .done f
    · have hmeta := hnesting ("meta", .object f.detail.members) (by simp [members, hempty])
      rw [if_neg hempty]
      exact .store rfl ((takes_detail f.detail hmeta hdouble).andThen
        fun detail => ({ f with detail } : Feature)) (.done f)
  exact ((((hname.append hversion).append hdescription).append hcpe).append hcategories).append
    hengines |>.append hdetail

/-- A feature is read from what it is written as. -/
theorem takes_toJson (f : Feature) (hdouble : (Json.object f.detail.members).hasDouble = false)
    (hnesting : f.toJson.nesting ≤ depth) : Takes (form.fromText depth) f.toJson f := by
  match depth with
  | 0 => exact absurd hnesting (by simp [toJson, nesting])
  | depth + 1 =>
    rw [toJson_eq, nesting_object_le] at hnesting
    have hnames : (Dictionary.names f.members).Nodup := (names_members f).nodup (by decide)
    refine takes_record (gathers_members f hdouble hnesting) hnames ?_
    refine List.forall_mem_map.2 fun field hfield hrequired => ?_
    rw [name_of_required field hfield hrequired]
    exact List.mem_cons_self

theorem hasDouble_optionalMember (name : String) (v : Option String) :
    ∀ m ∈ optionalMember name v, m.2.hasDouble = false := by
  cases v
  · exact fun m hm => absurd hm List.not_mem_nil
  · exact List.forall_mem_singleton.2 rfl

theorem hasDouble_listMember (name : String) (xs : List String) :
    ∀ m ∈ listMember name xs, m.2.hasDouble = false := by
  cases xs with
  | nil => exact fun m hm => absurd hm List.not_mem_nil
  | cons s xs => exact List.forall_mem_singleton.2 (hasDouble_ofTexts (s :: xs))

/-- Only what engines have to say can hold a double. -/
theorem hasDouble_toJson (f : Feature) (hdouble : (Json.object f.detail.members).hasDouble = false) :
    f.toJson.hasDouble = false := by
  have hdetail : ∀ m ∈ (if f.detail.members.isEmpty then []
      else [("meta", Json.object f.detail.members)]), m.2.hasDouble = false := by
    split
    · exact fun m hm => absurd hm List.not_mem_nil
    · exact List.forall_mem_singleton.2 hdouble
  rw [toJson_eq, hasDouble_object, members]
  simp only [List.forall_mem_append, List.forall_mem_cons]
  exact ⟨⟨⟨⟨⟨⟨rfl, hasDouble_optionalMember "version" f.version⟩,
    hasDouble_optionalMember "description" f.description⟩,
    hasDouble_optionalMember "cpe" f.cpe⟩,
    hasDouble_listMember "categories" f.categories⟩,
    hasDouble_listMember "engines" f.engines⟩, hdetail⟩

end Feature

/-! ## Section 3: Sets -/

namespace FeatureSet

/-- A set is read from what it is written as. -/
theorem takes_toJson {s : FeatureSet}
    (hdouble : ∀ f ∈ s.features, (Json.object f.detail.members).hasDouble = false) {depth : Nat}
    (hnesting : s.toJson.nesting ≤ depth) : Takes (form.fromText depth) s.toJson s := by
  match depth with
  | 0 => exact absurd hnesting (by simp [toJson, nesting])
  | depth + 1 =>
    rw [toJson, nesting_list_le, List.forall_mem_map] at hnesting
    have hfeatures : List.Forall₂ (Takes (Feature.form.fromText depth))
        (s.features.map Feature.toJson) s.features :=
      List.forall₂_map_left_iff.2 (List.forall₂_same.2 fun f hf =>
        f.takes_toJson (hdouble f hf) (hnesting f hf))
    have hnone : ∀ v ∈ s.features.map Feature.toJson, v.hasDouble = false := by
      rw [List.forall_mem_map]
      exact fun f hf => f.hasDouble_toJson (hdouble f hf)
    have hread := (takes_sequence Feature.form.fromText hfeatures hnone).andThen ofFeatures
    rw [ofFeatures_features] at hread
    exact hread

/-- **Feature sets survive their JSON form**: the compact text, the pretty one and the document of
    the data report are all read as the set they were written for, whatever the names, texts and
    details are, as long as no number is a double and brackets nest no deeper than can be read. -/
theorem toJson_read_back {s : FeatureSet}
    (hdouble : ∀ f ∈ s.features, (Json.object f.detail.members).hasDouble = false)
    (hnesting : s.toJson.nesting ≤ nestingLimit) :
    form.parseJson s.toJson.compact = .ok s ∧ form.parseJson s.toJson.pretty = .ok s ∧
      form.parseJson (Report.DataReport.document s) = .ok s := by
  have hread := takes_toJson hdouble hnesting
  have hline : IsGap ['\n'] := List.forall_mem_singleton.2 rfl
  have hendline : EndsNumber ['\n'] := by
    rintro c ⟨⟩
    decide
  refine ⟨?_, ?_, ?_⟩
  · have hcompact := hread .compact 0 [] [] isGap_nil endsNumber_nil
    rw [Layout.write_compact, List.nil_append, List.append_nil] at hcompact
    exact run_eq_ok hcompact isGap_nil
  · have hpretty := hread .pretty 0 [] [] isGap_nil endsNumber_nil
    rw [Layout.write_pretty, List.nil_append, List.append_nil] at hpretty
    exact run_eq_ok hpretty isGap_nil
  · have hdocument := hread .pretty 0 [] ['\n'] isGap_nil hendline
    rw [Layout.write_pretty, List.nil_append] at hdocument
    have htext : Report.DataReport.document s =
        String.ofList (prettyChars 0 s.toJson ++ ['\n']) := by
      rw [Report.DataReport.document, pretty, String.ofList_append]
    rw [htext]
    exact run_eq_ok hdocument hline

/-- A report with characters that need escapes, an empty text, a repetition, both ends of the
    whole numbers and brackets within brackets. -/
def awkwardReport : Feature where
  name := "a\"b\\c\n\x01é😀"
  version := some ""
  categories := ["", "web", "web"]
  detail := .ofMembers [
    ("z", .list [.number (.whole ⟨-Int.pow 2 63, by decide, by decide⟩),
      .number (.whole ⟨Int.pow 2 64 - 1, by decide, by decide⟩), .null, .flag true]),
    ("", .object [("ü\t", .object [])])]

theorem awkward_report_read_back :
    let s := (ofFeatures [awkwardReport]).merge [{ name := "ruby" }, awkwardReport]
    form.parseJson s.toJson.compact = .ok s ∧ form.parseJson s.toJson.pretty = .ok s ∧
      form.parseJson (Report.DataReport.document s) = .ok s := by
  exact toJson_read_back (by decide) (by decide)

end FeatureSet
end StackSurvey
